import Mathlib.Data.Fintype.Basic
import OnboardingBridge.Relayer.SolanaLogs

/-!
# Genuine deposits

What a Solana runtime logs: frames as programs invoke each other and return, and
messages whose text the executing program chooses freely. A message can look like a
frame of a program that does not exist, so the stack that the listener rebuilds is
the true one with such frames strewn in.

No program can make the listener report a deposit that the bridge did not log
(`only_bridge_deposits`). A program that the bridge calls can suppress one
(`deposits_reported_iff`).
-/

set_option autoImplicit false

namespace OnboardingBridge.Relayer

open Foundations Contract

/-! ## What the runtime logs -/

/-- The address of a program, as a text. -/
structure ProgramId where
  text : Text
  named : text ≠ []
  base58 : ∀ c ∈ text, c ∈ base58Alphabet
deriving DecidableEq

/-- The kinds of lines whose text a program chooses. -/
inductive MessageKind where
  | log
  | data
  | returnData
  | consumption
deriving DecidableEq

instance : Fintype MessageKind where
  elems := {.log, .data, .returnData, .consumption}
  complete kind := by cases kind <;> decide

def MessageKind.label : MessageKind → Text
  | .log => "log:".toList
  | .data => "data:".toList
  | .returnData => "return:".toList
  | .consumption => "consumption:".toList

/-- One entry of a log. The reason of a failure is the runtime's, on a single line. -/
inductive LogEntry where
  | invoke (program : ProgramId) (depth : Nat)
  | success (program : ProgramId)
  | failed (program : ProgramId) (reason : Text) (single : reason.all (fun c => !isLineEnd c) = true)
  | message (kind : MessageKind) (text : Text)
  | consumed (program : ProgramId) (units limit : Nat)
  | truncated

/-- What follows the name in the line of an entry. -/
def LogEntry.tail : LogEntry → Text
  | .invoke _ depth => "invoke [".toList ++ (Nat.toDigits 10 depth ++ [']'])
  | .success _ => "success".toList
  | .failed _ reason _ => "failed: ".toList ++ reason
  | .message _ text => text
  | .consumed _ units limit =>
      "consumed ".toList ++ (Nat.toDigits 10 units ++
        (" of ".toList ++ (Nat.toDigits 10 limit ++ " compute units".toList)))
  | .truncated => []

/-- The name in the line of an entry. -/
def LogEntry.name : LogEntry → Text
  | .invoke program _ | .success program | .failed program _ _ | .consumed program _ _ =>
      program.text
  | .message kind _ => kind.label
  | .truncated => []

/-- The line of an entry. -/
def LogEntry.line : LogEntry → Text
  | .truncated => "Log truncated".toList
  | entry => "Program ".toList ++ (entry.name ++ ' ' :: entry.tail)

/-- The callers of the innermost program, when it is the given one. -/
def returnFrom (program : ProgramId) : List ProgramId → Option (List ProgramId)
  | top :: callers => if top = program then some callers else none
  | [] => none

theorem returnFrom_eq_some {program : ProgramId} {programs callers : List ProgramId} :
    returnFrom program programs = some callers ↔ programs = program :: callers := by
  cases programs with
  | nil => simp [returnFrom]
  | cons top rest =>
    by_cases same : top = program
    · simp [returnFrom, same]
    · simp [returnFrom, same]

/-- The stack of the executing programs after an entry, with the innermost first; nothing when
the runtime does not log the entry there. -/
def LogEntry.next (stack : List ProgramId) : LogEntry → Option (List ProgramId)
  | .invoke program _ => some (program :: stack)
  | .success program | .failed program _ _ => returnFrom program stack
  | .message .. | .consumed .. | .truncated => some stack

/-- The programs that execute after some entries. -/
def executing (entries : List LogEntry) : Option (List ProgramId) :=
  entries.foldlM LogEntry.next []

/-- The lines of entries. -/
abbrev linesOf (entries : List LogEntry) : List Text := entries.map LogEntry.line

/-! ## What the listener makes of a line -/

/-- A message with the shape of an invocation. -/
def looksInvoked (text : Text) : Bool := isInvokeTail (' ' :: text)

/-- A message with the shape of the end of a frame. -/
def looksEnded (text : Text) : Bool := isEndTail (' ' :: text)

/-- A `bridge_fund` message. -/
def LogEntry.isDeposit : LogEntry → Bool
  | .message .log text => (after "bridge_fund:".toList text).isSome
  | _ => false

theorem base58_solid {c : Char} (member : c ∈ base58Alphabet) : isSpace c = false ∧ c ≠ ':' := by
  have all : base58Alphabet.all fun c => !isSpace c && c != ':' := by decide
  have here := List.all_eq_true.mp all c member
  simpa using here

theorem MessageKind.label_solid (kind : MessageKind) :
    kind.label ≠ [] ∧ (∀ c ∈ kind.label, isSpace c = false) ∧ ':' ∈ kind.label := by
  have solid : kind.label.all (fun c => !isSpace c) = true := by cases kind <;> decide
  refine ⟨by cases kind <;> decide, fun c member => ?_, by cases kind <;> decide⟩
  simpa using List.all_eq_true.mp solid c member

theorem MessageKind.label_injective : Function.Injective MessageKind.label := by
  intro first second same
  cases first <;> cases second <;> first | rfl | exact absurd same (by decide)

/-- A name is not empty and has no space in it. -/
theorem LogEntry.name_solid {entry : LogEntry} (framed : entry ≠ .truncated) :
    entry.name ≠ [] ∧ ∀ c ∈ entry.name, isSpace c = false := by
  cases entry with
  | truncated => exact absurd rfl framed
  | message kind text => exact ⟨kind.label_solid.1, kind.label_solid.2.1⟩
  | invoke program depth =>
    exact ⟨program.named, fun c member => (base58_solid (program.base58 c member)).1⟩
  | success program =>
    exact ⟨program.named, fun c member => (base58_solid (program.base58 c member)).1⟩
  | failed program reason single =>
    exact ⟨program.named, fun c member => (base58_solid (program.base58 c member)).1⟩
  | consumed program units limit =>
    exact ⟨program.named, fun c member => (base58_solid (program.base58 c member)).1⟩

/-- The name of a program is no label of a message. -/
theorem ProgramId.text_ne_label (program : ProgramId) (kind : MessageKind) :
    program.text ≠ kind.label := by
  intro same
  have colon := kind.label_solid.2.2
  rw [← same] at colon
  exact (base58_solid (program.base58 ':' colon)).2 rfl

/-- A line matches when what follows its name does. -/
theorem LogEntry.frameName_line {isTail : Text → Bool} {entry : LogEntry}
    (framed : entry ≠ .truncated) :
    frameName isTail entry.line =
      if isTail (' ' :: entry.tail) = true then some entry.name else none := by
  have line : entry.line = "Program ".toList ++ (entry.name ++ ' ' :: entry.tail) := by
    cases entry with
    | truncated => exact absurd rfl framed
    | _ => rfl
  obtain ⟨named, solid⟩ := name_solid framed
  rw [line, frameName_eq named solid]

theorem isInvokeTail_invoke (program : ProgramId) (depth : Nat) :
    isInvokeTail (' ' :: (LogEntry.invoke program depth).tail) = true := by
  have digits : ∀ c ∈ Nat.toDigits 10 depth, c.isDigit = true :=
    fun c member => Nat.isDigit_of_mem_toDigits (by decide) (by decide) member
  have taken : (Nat.toDigits 10 depth ++ [']']).takeWhile Char.isDigit = Nat.toDigits 10 depth := by
    rw [List.takeWhile_append_of_pos digits]
    simp [show Char.isDigit ']' = false from rfl]
  have dropped : (Nat.toDigits 10 depth ++ [']']).dropWhile Char.isDigit = [']'] := by
    rw [List.dropWhile_append_of_pos digits]
    simp [show Char.isDigit ']' = false from rfl]
  have rest : after " invoke [".toList (' ' :: (LogEntry.invoke program depth).tail) =
      some (Nat.toDigits 10 depth ++ [']']) := after_eq_some.mpr rfl
  rw [isInvokeTail, rest, Option.any_some, taken, dropped]
  simp

/-- What the listener does to its stack at an entry. -/
def LogEntry.rebuild (stack : List Text) : LogEntry → List Text
  | .invoke program _ => program.text :: stack
  | .success program | .failed program _ _ => stack.erase program.text
  | .message kind text =>
      if looksInvoked text = true then kind.label :: stack
      else if looksEnded text = true then stack.erase kind.label
      else stack
  | .consumed .. | .truncated => stack

theorem isEndTail_failed (program : ProgramId) {reason : Text}
    (single : reason.all (fun c => !isLineEnd c) = true) :
    isInvokeTail (' ' :: (LogEntry.failed program reason single).tail) = false ∧
      isEndTail (' ' :: (LogEntry.failed program reason single).tail) = true := by
  have invoked : after " invoke [".toList (' ' :: (LogEntry.failed program reason single).tail) =
      none := rfl
  have ended : after " failed:".toList (' ' :: (LogEntry.failed program reason single).tail) =
      some (' ' :: reason) := rfl
  have space : isLineEnd ' ' = false := rfl
  refine ⟨by rw [isInvokeTail, invoked]; rfl, ?_⟩
  rw [isEndTail, ended, Option.any_some, List.all_cons, single, space]
  simp

theorem consumed_no_tail (program : ProgramId) (units limit : Nat) :
    isInvokeTail (' ' :: (LogEntry.consumed program units limit).tail) = false ∧
      isEndTail (' ' :: (LogEntry.consumed program units limit).tail) = false := by
  have invoked : after " invoke [".toList (' ' :: (LogEntry.consumed program units limit).tail) =
      none := rfl
  have failed : after " failed:".toList (' ' :: (LogEntry.consumed program units limit).tail) =
      none := rfl
  have other : ' ' :: (LogEntry.consumed program units limit).tail ≠ " success".toList := by
    intro same
    have text : " success".toList = ' ' :: "success".toList := rfl
    have first : (LogEntry.consumed program units limit).tail.head? = some 'c' := rfl
    rw [text] at same
    have heads := congrArg List.head? (List.cons.inj same).2
    rw [first] at heads
    exact absurd heads (by decide)
  refine ⟨by rw [isInvokeTail, invoked]; rfl, ?_⟩
  rw [isEndTail, failed, decide_eq_false other]
  rfl

/-- The two shapes a line may have for the listener. -/
theorem LogEntry.matches_line (entry : LogEntry) (framed : entry ≠ .truncated) :
    invokeMatch entry.line =
        (if isInvokeTail (' ' :: entry.tail) = true then some entry.name else none) ∧
      endMatch entry.line =
        (if isEndTail (' ' :: entry.tail) = true then some entry.name else none) :=
  ⟨frameName_line framed, frameName_line framed⟩

theorem LogEntry.stackAfter_line (stack : List Text) (entry : LogEntry) :
    stackAfter stack entry.line = entry.rebuild stack := by
  cases entry with
  | truncated => rfl
  | invoke program depth =>
    obtain ⟨invokes, -⟩ := matches_line (.invoke program depth) (by simp)
    rw [isInvokeTail_invoke, if_pos rfl] at invokes
    rw [stackAfter, invokes]
    rfl
  | success program =>
    obtain ⟨invokes, ends⟩ := matches_line (.success program) (by simp)
    have invoked : isInvokeTail (' ' :: (LogEntry.success program).tail) = false := rfl
    have ended : isEndTail (' ' :: (LogEntry.success program).tail) = true := rfl
    rw [invoked, if_neg Bool.false_ne_true] at invokes
    rw [ended, if_pos rfl] at ends
    rw [stackAfter, invokes, ends]
    rfl
  | failed program reason single =>
    obtain ⟨invokes, ends⟩ := matches_line (.failed program reason single) (by simp)
    obtain ⟨invoked, ended⟩ := isEndTail_failed program single
    rw [invoked, if_neg Bool.false_ne_true] at invokes
    rw [ended, if_pos rfl] at ends
    rw [stackAfter, invokes, ends]
    rfl
  | message kind text =>
    obtain ⟨invokes, ends⟩ := matches_line (.message kind text) (by simp)
    have invoking : isInvokeTail (' ' :: (LogEntry.message kind text).tail) = looksInvoked text := rfl
    have ending : isEndTail (' ' :: (LogEntry.message kind text).tail) = looksEnded text := rfl
    rw [invoking] at invokes
    rw [ending] at ends
    rw [stackAfter, invokes, ends, rebuild]
    by_cases invoked : looksInvoked text = true
    · rw [if_pos invoked, if_pos invoked]
      rfl
    · rw [if_neg invoked, if_neg invoked]
      by_cases ended : looksEnded text = true
      · rw [if_pos ended, if_pos ended]
        rfl
      · rw [if_neg ended, if_neg ended]
  | consumed program units limit =>
    obtain ⟨invokes, ends⟩ := matches_line (.consumed program units limit) (by simp)
    obtain ⟨invoked, ended⟩ := consumed_no_tail program units limit
    rw [invoked, if_neg Bool.false_ne_true] at invokes
    rw [ended, if_neg Bool.false_ne_true] at ends
    rw [stackAfter, invokes, ends]
    rfl

/-- What starts like a deposit names the log. -/
theorem programLine_deposit {line : Text} (starts : (after depositStart line).isSome) :
    ∃ payload, programLine line = some (MessageKind.log.label, ' ' ::
      ("bridge_fund:".toList ++ payload)) := by
  obtain ⟨payload, found⟩ := Option.isSome_iff_exists.mp starts
  have shape : line = "Program ".toList ++
      (MessageKind.log.label ++ ' ' :: ("bridge_fund:".toList ++ payload)) :=
    (after_eq_some.mp found : line = depositStart ++ payload)
  refine ⟨payload, ?_⟩
  rw [shape, programLine_eq MessageKind.log.label_solid.2.1]

theorem LogEntry.programLine_line {entry : LogEntry} (framed : entry ≠ .truncated) :
    programLine entry.line = some (entry.name, ' ' :: entry.tail) := by
  have line : entry.line = "Program ".toList ++ (entry.name ++ ' ' :: entry.tail) := by
    cases entry with
    | truncated => exact absurd rfl framed
    | _ => rfl
  rw [line, programLine_eq (name_solid framed).2]

/-- Only a message of the log starts like a deposit. -/
theorem LogEntry.starts_line {entry : LogEntry} (starts : (after depositStart entry.line).isSome) :
    ∃ text, entry = .message .log text ∧ (after "bridge_fund:".toList text).isSome := by
  by_cases framed : entry = .truncated
  · subst framed
    exact absurd starts (by decide)
  · obtain ⟨payload, split⟩ := programLine_deposit starts
    rw [programLine_line framed] at split
    obtain ⟨name, tail⟩ := Prod.mk.inj (Option.some.inj split)
    have tail : entry.tail = "bridge_fund:".toList ++ payload := (List.cons.inj tail).2
    cases entry with
    | message kind text =>
      obtain rfl : kind = .log := MessageKind.label_injective name
      obtain rfl : text = _ := tail
      exact ⟨_, rfl, by rw [after_append]; rfl⟩
    | truncated => exact absurd rfl framed
    | invoke program depth => exact absurd name (program.text_ne_label .log)
    | success program => exact absurd name (program.text_ne_label .log)
    | failed program reason single => exact absurd name (program.text_ne_label .log)
    | consumed program units limit => exact absurd name (program.text_ne_label .log)

/-- A deposit has the shape of no frame. -/
theorem deposit_no_frame {text : Text} (starts : (after "bridge_fund:".toList text).isSome) :
    looksInvoked text = false ∧ looksEnded text = false := by
  obtain ⟨payload, found⟩ := Option.isSome_iff_exists.mp starts
  obtain rfl := after_eq_some.mp found
  exact ⟨rfl, rfl⟩

/-- A line counts as a `bridge_fund` line when it is a message that starts like one. -/
theorem LogEntry.isDepositLine_line (entry : LogEntry) :
    isDepositLine entry.line = entry.isDeposit := by
  by_cases starts : (after depositStart entry.line).isSome
  · obtain ⟨text, rfl, deposit⟩ := starts_line starts
    obtain ⟨invokes, ends⟩ := matches_line (.message .log text) nofun
    obtain ⟨invoked, ended⟩ := deposit_no_frame deposit
    have noInvoke : invokeMatch (LogEntry.message .log text).line = none :=
      invokes.trans (if_neg (Bool.eq_false_iff.mp invoked))
    have noEnd : endMatch (LogEntry.message .log text).line = none :=
      ends.trans (if_neg (Bool.eq_false_iff.mp ended))
    rw [isDepositLine, noInvoke, noEnd, starts, isDeposit, deposit]
    rfl
  · rw [isDepositLine, Bool.eq_false_iff.mpr starts, Bool.and_false]
    cases entry with
    | message kind text =>
      cases kind with
      | log =>
        -- the line of a message that starts like a deposit does so itself
        rw [eq_comm, isDeposit, Bool.eq_false_iff]
        intro deposit
        obtain ⟨payload, found⟩ := Option.isSome_iff_exists.mp deposit
        obtain rfl := after_eq_some.mp found
        exact starts rfl
      | data => rfl
      | returnData => rfl
      | consumption => rfl
    | _ => rfl

/-! ## The rebuilt stack -/

/-- The frames of the rebuilt stack that are no messages. -/
def programsOf (stack : List Text) : List Text :=
  stack.filter fun name => decide (∀ kind : MessageKind, name ≠ kind.label)

namespace LogEntry

variable {entry : LogEntry} {programs programs' : List ProgramId} {stack : List Text}

/-- The frames of programs follow the runtime. -/
theorem rebuild_programs (next : entry.next programs = some programs')
    (agrees : programsOf stack = programs.map ProgramId.text) :
    programsOf (entry.rebuild stack) = programs'.map ProgramId.text := by
  have ends : ∀ program : ProgramId, returnFrom program programs = some programs' →
      programsOf (stack.erase program.text) = programs'.map ProgramId.text := by
    intro program returns
    rw [programsOf, ← List.erase_filter, ← programsOf, agrees, returnFrom_eq_some.mp returns,
      List.map_cons, List.erase_cons_head]
  have unlabelled : ∀ kind : MessageKind,
      decide (∀ other : MessageKind, kind.label ≠ other.label) = false :=
    fun kind => decide_eq_false fun distinct => distinct kind rfl
  cases entry with
  | invoke program depth =>
    obtain rfl := Option.some.inj next
    have named : decide (∀ kind : MessageKind, program.text ≠ kind.label) = true :=
      decide_eq_true program.text_ne_label
    rw [rebuild, programsOf, List.filter_cons, if_pos named, ← programsOf, agrees]
    rfl
  | success program => exact ends program next
  | failed program reason single => exact ends program next
  | message kind text =>
    obtain rfl := Option.some.inj next
    rw [rebuild]
    split
    · rw [programsOf, List.filter_cons, unlabelled, if_neg Bool.false_ne_true]
      exact agrees
    · split
      · have absent : kind.label ∉ programsOf stack := fun member =>
          of_decide_eq_true (List.mem_filter.mp member).2 kind rfl
        rw [programsOf, ← List.erase_filter, ← programsOf, List.erase_of_not_mem absent]
        exact agrees
      · exact agrees
  | consumed program units limit =>
    obtain rfl := Option.some.inj next
    exact agrees
  | truncated =>
    obtain rfl := Option.some.inj next
    exact agrees

/-- How many messages with the shape of an invocation have not been answered by one with the
shape of an end. -/
def tally (kind : MessageKind) (count : Nat) : LogEntry → Nat
  | .message other text =>
      if other = kind then
        if looksInvoked text = true then count + 1
        else if looksEnded text = true then count - 1
        else count
      else count
  | _ => count

/-- The frames of messages follow the tally. -/
theorem rebuild_count (entry : LogEntry) (stack : List Text) (kind : MessageKind) :
    (entry.rebuild stack).count kind.label = entry.tally kind (stack.count kind.label) := by
  have pushed : ∀ program : ProgramId,
      (program.text :: stack).count kind.label = stack.count kind.label := fun program =>
    List.count_cons_of_ne (program.text_ne_label kind)
  have popped : ∀ program : ProgramId,
      (stack.erase program.text).count kind.label = stack.count kind.label := fun program =>
    List.count_erase_of_ne (Ne.symm (program.text_ne_label kind))
  cases entry with
  | invoke program depth => exact pushed program
  | success program => exact popped program
  | failed program reason single => exact popped program
  | message other text =>
    rw [rebuild, tally]
    by_cases same : other = kind
    · subst same
      rw [if_pos rfl]
      split
      · exact List.count_cons_self
      · split
        · exact List.count_erase_self
        · rfl
    · have different : other.label ≠ kind.label :=
        fun labels => same (MessageKind.label_injective labels)
      rw [if_neg same]
      split
      · exact List.count_cons_of_ne different
      · split
        · exact List.count_erase_of_ne (Ne.symm different)
        · rfl
  | consumed program units limit => rfl
  | truncated => rfl

/-- What happens in a frame leaves the frame and the programs below it in place. -/
theorem rebuild_above (next : entry.next programs = some programs')
    (agrees : programsOf stack = programs.map ProgramId.text) (bridge : ProgramId)
    (below : List Text) : ∃ below',
      entry.rebuild (stack ++ bridge.text :: below) =
        entry.rebuild stack ++ bridge.text :: below' := by
  have ends : ∀ program : ProgramId, returnFrom program programs = some programs' →
      (stack ++ bridge.text :: below).erase program.text =
        stack.erase program.text ++ bridge.text :: below := by
    intro program returns
    have member : program.text ∈ programsOf stack := by
      rw [agrees, returnFrom_eq_some.mp returns]
      exact List.mem_cons_self
    exact List.erase_append_left _ (List.mem_filter.mp member).1
  cases entry with
  | invoke program depth => exact ⟨below, rfl⟩
  | success program => exact ⟨below, ends program next⟩
  | failed program reason single => exact ⟨below, ends program next⟩
  | message kind text =>
    simp only [rebuild]
    split
    · exact ⟨below, rfl⟩
    · split
      · by_cases member : kind.label ∈ stack
        · exact ⟨below, List.erase_append_left _ member⟩
        · refine ⟨below.erase kind.label, ?_⟩
          rw [List.erase_append_right _ member, List.erase_of_not_mem member,
            List.erase_cons_tail]
          simpa using bridge.text_ne_label kind
      · exact ⟨below, rfl⟩
  | consumed program units limit => exact ⟨below, rfl⟩
  | truncated => exact ⟨below, rfl⟩

end LogEntry

/-- The stack that the listener rebuilds from entries. -/
abbrev rebuilt (stack : List Text) (entries : List LogEntry) : List Text :=
  entries.foldl LogEntry.rebuild stack

theorem foldl_stackAfter (entries : List LogEntry) (stack : List Text) :
    (linesOf entries).foldl stackAfter stack = rebuilt stack entries := by
  induction entries generalizing stack with
  | nil => rfl
  | cons entry rest ih =>
      rw [linesOf, List.map_cons, List.foldl_cons, LogEntry.stackAfter_line]
      exact ih _

theorem countP_depositLines (entries : List LogEntry) :
    (linesOf entries).countP isDepositLine = entries.countP LogEntry.isDeposit := by
  rw [linesOf, List.countP_map]
  exact congrArg (fun p => entries.countP p) (funext LogEntry.isDepositLine_line)

/-- The messages of a kind that are still unanswered after some entries. -/
def unanswered (kind : MessageKind) (entries : List LogEntry) : Nat :=
  entries.foldl (LogEntry.tally kind) 0

section Runs

variable {entries : List LogEntry} {programs programs' : List ProgramId} {stack : List Text}

theorem rebuilt_programs (runs : entries.foldlM LogEntry.next programs = some programs')
    (agrees : programsOf stack = programs.map ProgramId.text) :
    programsOf (rebuilt stack entries) = programs'.map ProgramId.text := by
  induction entries generalizing programs stack with
  | nil =>
      obtain rfl := Option.some.inj runs
      exact agrees
  | cons entry rest ih =>
      obtain ⟨middle, next, runs⟩ := Option.bind_eq_some_iff.mp runs
      exact ih runs (entry.rebuild_programs next agrees)

theorem rebuilt_count (entries : List LogEntry) (stack : List Text) (kind : MessageKind) :
    (rebuilt stack entries).count kind.label =
      entries.foldl (LogEntry.tally kind) (stack.count kind.label) := by
  induction entries generalizing stack with
  | nil => rfl
  | cons entry rest ih =>
      rw [rebuilt, List.foldl_cons, List.foldl_cons, ← LogEntry.rebuild_count]
      exact ih _

theorem rebuilt_above (runs : entries.foldlM LogEntry.next programs = some programs')
    (agrees : programsOf stack = programs.map ProgramId.text) (bridge : ProgramId)
    (below : List Text) : ∃ below',
      rebuilt (stack ++ bridge.text :: below) entries =
        rebuilt stack entries ++ bridge.text :: below' := by
  induction entries generalizing programs stack below with
  | nil => exact ⟨below, rfl⟩
  | cons entry rest ih =>
      obtain ⟨middle, next, runs⟩ := Option.bind_eq_some_iff.mp runs
      obtain ⟨below', above⟩ := entry.rebuild_above next agrees bridge below
      rw [rebuilt, List.foldl_cons, above]
      exact ih runs (entry.rebuild_programs next agrees) below'

end Runs

/-! ## The innermost frame -/

theorem LogEntry.next_below {entry : LogEntry} {programs programs' : List ProgramId}
    (next : entry.next programs = some programs') (callers : List ProgramId) :
    entry.next (programs ++ callers) = some (programs' ++ callers) := by
  have returns : ∀ program : ProgramId, returnFrom program programs = some programs' →
      returnFrom program (programs ++ callers) = some (programs' ++ callers) := by
    intro program returned
    rw [returnFrom_eq_some.mp returned]
    exact returnFrom_eq_some.mpr rfl
  cases entry with
  | invoke program depth =>
    obtain rfl := Option.some.inj next
    rfl
  | success program => exact returns program next
  | failed program reason single => exact returns program next
  | message kind text => exact congrArg _ (congrArg (· ++ callers) (Option.some.inj next))
  | consumed program units limit =>
    exact congrArg _ (congrArg (· ++ callers) (Option.some.inj next))
  | truncated => exact congrArg _ (congrArg (· ++ callers) (Option.some.inj next))

theorem foldlM_below {entries : List LogEntry} {programs programs' : List ProgramId}
    (runs : entries.foldlM LogEntry.next programs = some programs') (callers : List ProgramId) :
    entries.foldlM LogEntry.next (programs ++ callers) = some (programs' ++ callers) := by
  induction entries generalizing programs with
  | nil => exact congrArg _ (congrArg (· ++ callers) (Option.some.inj runs))
  | cons entry rest ih =>
      obtain ⟨middle, next, runs⟩ := Option.bind_eq_some_iff.mp runs
      exact Option.bind_eq_some_iff.mpr ⟨_, LogEntry.next_below next callers, ih runs⟩

theorem executing_append {first second : List LogEntry} {programs : List ProgramId} :
    executing (first ++ second) = some programs ↔
      ∃ middle, executing first = some middle ∧
        second.foldlM LogEntry.next middle = some programs := by
  rw [executing, List.foldlM_append]
  exact Option.bind_eq_some_iff

/-- The innermost program was invoked, and every frame since has returned. -/
theorem innermost_invoked {entries : List LogEntry} {program : ProgramId}
    {callers : List ProgramId} (runs : executing entries = some (program :: callers)) :
    ∃ earlier depth inside, entries = earlier ++ .invoke program depth :: inside ∧
      executing earlier = some callers ∧ executing inside = some [] := by
  induction length : entries.length using Nat.strong_induction_on
    generalizing entries program callers with
  | _ size ih =>
    rcases List.eq_nil_or_concat' entries with rfl | ⟨before, last, rfl⟩
    · cases runs
    obtain ⟨programs, first, step⟩ := executing_append.mp runs
    have next : last.next programs = some (program :: callers) := by
      obtain ⟨_, step, same⟩ := Option.bind_eq_some_iff.mp step
      exact step.trans same
    have shorter : before.length < size := by
      rw [← length, List.length_append]
      exact Nat.lt_succ_self _
    -- an entry that leaves the stack alone stands in the same frame
    have quiet : programs = program :: callers → last.next [] = some [] →
        ∃ earlier depth inside, before ++ [last] = earlier ++ .invoke program depth :: inside ∧
          executing earlier = some callers ∧ executing inside = some [] := by
      rintro rfl idle
      obtain ⟨earlier, depth, inside, rfl, below, within⟩ := ih _ shorter first rfl
      refine ⟨earlier, depth, inside ++ [last], by simp, below, ?_⟩
      exact executing_append.mpr ⟨[], within, Option.bind_eq_some_iff.mpr ⟨[], idle, rfl⟩⟩
    -- the end of a frame belongs to the frame that was open before it
    have returns : ∀ other : ProgramId, programs = other :: program :: callers →
        last.next [other] = some [] →
        ∃ earlier depth inside, before ++ [last] = earlier ++ .invoke program depth :: inside ∧
          executing earlier = some callers ∧ executing inside = some [] := by
      rintro other rfl ended
      obtain ⟨middle, depth', inner, rfl, opened, balanced⟩ := ih _ shorter first rfl
      have shorterStill : middle.length < size := by
        simp only [List.length_append, List.length_cons] at shorter
        omega
      obtain ⟨earlier, depth, inside, rfl, below, within⟩ := ih _ shorterStill opened rfl
      refine ⟨earlier, depth, inside ++ .invoke other depth' :: inner ++ [last], by simp, below, ?_⟩
      have invoked : executing (inside ++ .invoke other depth' :: inner) = some [other] :=
        executing_append.mpr ⟨[], within, foldlM_below balanced [other]⟩
      exact executing_append.mpr ⟨[other], invoked, Option.bind_eq_some_iff.mpr ⟨[], ended, rfl⟩⟩
    cases last with
    | invoke other depth =>
      obtain ⟨rfl, rfl⟩ := List.cons.inj (Option.some.inj next)
      exact ⟨before, depth, [], rfl, first, rfl⟩
    | success other => exact returns other (returnFrom_eq_some.mp next) (returnFrom_eq_some.mpr rfl)
    | failed other reason single =>
      exact returns other (returnFrom_eq_some.mp next) (returnFrom_eq_some.mpr rfl)
    | message kind text => exact quiet (Option.some.inj next) rfl
    | consumed other units limit => exact quiet (Option.some.inj next) rfl
    | truncated => exact quiet (Option.some.inj next) rfl

/-- In the innermost frame, which is a frame of the bridge, every message with the shape of an
invocation has been answered by one of its kind with the shape of an end. -/
def Answered (bridge : ProgramId) (entries : List LogEntry) : Prop :=
  ∃ earlier depth inside, entries = earlier ++ .invoke bridge depth :: inside ∧
    executing inside = some [] ∧ ∀ kind, unanswered kind inside = 0

/-- The rebuilt stack in the innermost frame: the frames of unanswered messages, and below them
the program. -/
theorem rebuilt_inside (earlier : List LogEntry) {inside : List LogEntry} {depth : Nat} {bridge : ProgramId}
    (within : executing inside = some []) :
    ∃ above below, rebuilt [] (earlier ++ .invoke bridge depth :: inside) =
        above ++ bridge.text :: below ∧
      programsOf above = [] ∧ ∀ kind : MessageKind, above.count kind.label = unanswered kind inside := by
  have agrees : programsOf [] = ([] : List ProgramId).map ProgramId.text := rfl
  obtain ⟨below, split⟩ := rebuilt_above within agrees bridge (rebuilt [] earlier)
  refine ⟨rebuilt [] inside, below, ?_, rebuilt_programs within agrees, fun kind => ?_⟩
  · rw [rebuilt, List.foldl_append]
    exact split
  · rw [rebuilt_count, List.count_nil]
    rfl

/-- The bridge is on top of the rebuilt stack when nothing in its frame is unanswered. -/
theorem top_iff_answered {entries : List LogEntry} {bridge : ProgramId} {callers : List ProgramId}
    (runs : executing entries = some (bridge :: callers)) :
    (rebuilt [] entries).head? = some bridge.text ↔ Answered bridge entries := by
  have top : ∀ {earlier inside : List LogEntry} {depth : Nat},
      entries = earlier ++ .invoke bridge depth :: inside → executing inside = some [] →
        ((rebuilt [] entries).head? = some bridge.text ↔ ∀ kind, unanswered kind inside = 0) := by
    rintro earlier inside depth rfl within
    obtain ⟨above, below, split, labels, counts⟩ := rebuilt_inside earlier within
    rw [split]
    constructor
    · intro head kind
      cases above with
      | nil => exact (counts kind).symm
      | cons name rest =>
        obtain rfl := Option.some.inj head
        have member : bridge.text ∈ programsOf (bridge.text :: rest) :=
          List.mem_filter.mpr ⟨List.mem_cons_self, decide_eq_true bridge.text_ne_label⟩
        rw [labels] at member
        cases member
    · intro none_
      cases above with
      | nil => rfl
      | cons name rest =>
        have labelled : ∃ kind : MessageKind, name = kind.label := by
          by_contra other
          have member : name ∈ programsOf (name :: rest) :=
            List.mem_filter.mpr ⟨List.mem_cons_self,
              decide_eq_true fun kind same => other ⟨kind, same⟩⟩
          rw [labels] at member
          cases member
        obtain ⟨kind, rfl⟩ := labelled
        have count := counts kind
        rw [none_ kind, List.count_cons_self] at count
        cases count
  constructor
  · intro head
    obtain ⟨earlier, depth, inside, split, -, within⟩ := innermost_invoked runs
    exact ⟨earlier, depth, inside, split, within, (top split within).mp head⟩
  · rintro ⟨earlier, depth, inside, split, within, answered⟩
    exact (top split within).mpr answered

/-! ## Events -/

section Events

variable {config : SolanaListenerConfig} {signature : Text} {bridge : ProgramId}

/-- What one more entry adds to the events. -/
theorem extract_entry (before : List LogEntry) (entry : LogEntry) :
    extractBridgeFundEvents config signature (linesOf (before ++ [entry])) =
      extractBridgeFundEvents config signature (linesOf before) ++
        if entry.isDeposit = true ∧ (rebuilt [] before).head? = some config.programId then
          (decodeLine config signature entry.line (before.countP LogEntry.isDeposit)).toList
        else [] := by
  rw [linesOf, List.map_append, List.map_singleton, extract_snoc, foldl_stackAfter,
    countP_depositLines, lineEvents, LogEntry.isDepositLine_line]

/-- The program on top of the rebuilt stack executes. -/
theorem executing_of_top {entries : List LogEntry} {programs : List ProgramId}
    (runs : executing entries = some programs)
    (top : (rebuilt [] entries).head? = some bridge.text) :
    ∃ callers, programs = bridge :: callers := by
  have agrees : programsOf (rebuilt [] entries) = programs.map ProgramId.text :=
    rebuilt_programs runs rfl
  cases stack : rebuilt [] entries with
  | nil =>
    rw [stack] at top
    cases top
  | cons name rest =>
    rw [stack] at top agrees
    obtain rfl := Option.some.inj top
    rw [programsOf, List.filter_cons, if_pos (decide_eq_true bridge.text_ne_label)] at agrees
    cases programs with
    | nil => cases agrees
    | cons program callers =>
      have same : bridge = program := by
        obtain ⟨text, named, base58⟩ := bridge
        obtain ⟨text', named', base58'⟩ := program
        obtain rfl : text = text' := (List.cons.inj agrees).1
        rfl
      exact ⟨callers, same ▸ rfl⟩

/-- A reported event stands for a `bridge_fund` message that was logged while the bridge was the
innermost program. -/
structure Genuine (config : SolanaListenerConfig) (signature : Text) (bridge : ProgramId)
    (before : List LogEntry) (entry : LogEntry) (event : BridgeEvent) : Prop where
  deposit : entry.isDeposit = true
  innermost : ∃ callers, executing before = some (bridge :: callers)
  decoded : decodeLine config signature entry.line (before.countP LogEntry.isDeposit) = some event

/-- One more entry adds nothing, or the event of a genuine deposit. -/
theorem extract_genuine {before : List LogEntry} {programs : List ProgramId}
    (configured : config.programId = bridge.text) (runs : executing before = some programs)
    (entry : LogEntry) :
    extractBridgeFundEvents config signature (linesOf (before ++ [entry])) =
        extractBridgeFundEvents config signature (linesOf before) ∨
      ∃ event, extractBridgeFundEvents config signature (linesOf (before ++ [entry])) =
          extractBridgeFundEvents config signature (linesOf before) ++ [event] ∧
        Genuine config signature bridge before entry event := by
  rw [extract_entry]
  split
  · next genuine =>
    obtain ⟨deposit, top⟩ := genuine
    rw [configured] at top
    obtain ⟨callers, rfl⟩ := executing_of_top runs top
    cases decoded : decodeLine config signature entry.line (before.countP LogEntry.isDeposit) with
    | none => exact .inl (List.append_nil _)
    | some event => exact .inr ⟨event, rfl, deposit, ⟨callers, runs⟩, decoded⟩
  · exact .inl (List.append_nil _)

/-- Whatever the programs log: the listener goes through the lines one by one, and a line adds
nothing to the events, or the event of the `bridge_fund` message that it is, logged while the
bridge was the innermost program. Every event of the whole log is one of these. -/
theorem only_bridge_deposits {entries : List LogEntry} {programs : List ProgramId}
    (configured : config.programId = bridge.text) (runs : executing entries = some programs) :
    (∀ before entry later, entries = before ++ entry :: later →
      extractBridgeFundEvents config signature (linesOf (before ++ [entry])) =
          extractBridgeFundEvents config signature (linesOf before) ∨
        ∃ event, extractBridgeFundEvents config signature (linesOf (before ++ [entry])) =
            extractBridgeFundEvents config signature (linesOf before) ++ [event] ∧
          Genuine config signature bridge before entry event) ∧
      ∀ event ∈ extractBridgeFundEvents config signature (linesOf entries),
        ∃ before entry later, entries = before ++ entry :: later ∧
          Genuine config signature bridge before entry event := by
  refine ⟨fun before entry later split => ?_, fun event member => ?_⟩
  · rw [split] at runs
    obtain ⟨middle, first, -⟩ := executing_append.mp runs
    exact extract_genuine configured first entry
  · induction entries using List.reverseRecOn generalizing programs with
    | nil => cases member
    | append_singleton before last ih =>
        obtain ⟨middle, first, -⟩ := executing_append.mp runs
        have earlier : event ∈ extractBridgeFundEvents config signature (linesOf before) →
            ∃ before' entry later, before ++ [last] = before' ++ entry :: later ∧
              Genuine config signature bridge before' entry event := by
          intro old
          obtain ⟨before', entry, later, rfl, genuine⟩ := ih first old
          exact ⟨before', entry, later ++ [last], by simp, genuine⟩
        rcases extract_genuine configured first last with same | ⟨new, more, genuine⟩
        · exact earlier (same ▸ member)
        · rw [more] at member
          rcases List.mem_append.mp member with old | added
          · exact earlier old
          · obtain rfl := List.mem_singleton.mp added
            exact ⟨before, last, [], rfl, genuine⟩

/-! ## Reported deposits -/

/-- A `bridge_fund` message with its fields. -/
structure Deposits (text target asset amount : Text) : Prop where
  shape : text = "bridge_fund:".toList ++ (target ++ ':' :: (asset ++ ':' :: amount))
  target : target ≠ [] ∧ ':' ∉ target
  asset : asset ≠ [] ∧ ':' ∉ asset
  amount : amount ≠ [] ∧ amount.all Char.isDigit = true

variable (config) in
/-- The line of a deposit decodes while its index fits in four bytes. -/
theorem decodeLine_deposit {text target asset amount : Text} {sigBytes : List UInt8}
    (deposit : Deposits text target asset amount) (signed : base58Decode signature = some sigBytes)
    (full : sigBytes.length = 64) (index : Nat) :
    (index < 2 ^ 32 → ∃ event,
      decodeLine config signature (LogEntry.message .log text).line index = some event ∧
        event.target = String.ofList target ∧ event.asset = String.ofList asset ∧
        event.amount = String.ofList amount) ∧
    (¬ index < 2 ^ 32 →
      decodeLine config signature (LogEntry.message .log text).line index = none) := by
  obtain ⟨rfl, ⟨target_, noTarget⟩, ⟨asset_, noAsset⟩, amount_, digits⟩ := deposit
  have payload : after depositStart (LogEntry.message .log ("bridge_fund:".toList ++
      (target ++ ':' :: (asset ++ ':' :: amount)))).line =
        some (target ++ ':' :: (asset ++ ':' :: amount)) := after_eq_some.mpr rfl
  have noAmount : ':' ∉ amount := fun member =>
    absurd (List.all_eq_true.mp digits ':' member) (by decide)
  have fields : (target ++ ':' :: (asset ++ ':' :: amount)).splitOn ':' =
      [target, asset, amount] := by
    rw [List.splitOn_append_cons_self_of_not_mem noTarget,
      List.splitOn_append_cons_self_of_not_mem noAsset, List.splitOn_eq_singleton noAmount]
  have filled : ¬ (target = [] ∨ asset = [] ∨ amount = []) := by
    simp [target_, asset_, amount_]
  have numeric : ¬ amount.all Char.isDigit = false := by simp [digits]
  have index_ := writeUInt32BE_index index
  refine ⟨fun fits => ?_, fun large => ?_⟩
  · rw [if_pos fits] at index_
    rw [decodeLine, payload]
    simp only [Option.bind_eq_bind, Option.bind_some, fields, if_neg filled, if_neg numeric, signed,
      full, ne_eq, not_true_eq_false, if_false, index_]
    exact ⟨_, rfl, rfl, rfl, rfl⟩
  · rw [if_neg large] at index_
    rw [decodeLine, payload]
    simp only [Option.bind_eq_bind, Option.bind_some, fields, if_neg filled, if_neg numeric, signed,
      full, ne_eq, not_true_eq_false, if_false, index_]
    rfl

/-- A message yields exactly one event, with its fields. -/
def Reports (config : SolanaListenerConfig) (signature : Text) (before : List LogEntry)
    (text target asset amount : Text) : Prop :=
  ∃ event : BridgeEvent,
    extractBridgeFundEvents config signature (linesOf (before ++ [.message .log text])) =
      extractBridgeFundEvents config signature (linesOf before) ++ [event] ∧
    event.target = String.ofList target ∧ event.asset = String.ofList asset ∧
    event.amount = String.ofList amount

/-- A message that the bridge logs as the innermost program. -/
structure BridgeLogs (bridge : ProgramId) (entries before : List LogEntry)
    (text target asset amount : Text) : Prop where
  logged : ∃ later, entries = before ++ .message .log text :: later
  innermost : ∃ callers, executing before = some (bridge :: callers)
  deposit : Deposits text target asset amount

theorem Deposits.isDeposit {text target asset amount : Text}
    (deposit : Deposits text target asset amount) :
    (LogEntry.message .log text).isDeposit = true := by
  rw [LogEntry.isDeposit, deposit.shape, after_append]
  rfl

theorem reports_iff {sigBytes : List UInt8} (configured : config.programId = bridge.text)
    (signed : base58Decode signature = some sigBytes) (full : sigBytes.length = 64)
    {entries before : List LogEntry} {text target asset amount : Text}
    (logs : BridgeLogs bridge entries before text target asset amount) :
    Reports config signature before text target asset amount ↔
      Answered bridge before ∧ before.countP LogEntry.isDeposit < 2 ^ 32 := by
  obtain ⟨-, ⟨callers, runs⟩, deposit⟩ := logs
  obtain ⟨decodes, rejects⟩ := decodeLine_deposit config deposit signed full
    (before.countP LogEntry.isDeposit)
  rw [Reports, extract_entry, configured, ← top_iff_answered runs]
  constructor
  · rintro ⟨event, more, -⟩
    have added := List.append_cancel_left more
    split at added
    · next top =>
      refine ⟨top.2, ?_⟩
      by_contra large
      rw [rejects large] at added
      cases added
    · cases added
  · rintro ⟨top, fits⟩
    obtain ⟨event, decoded, fields⟩ := decodes fits
    refine ⟨event, ?_, fields⟩
    rw [if_pos ⟨deposit.isDeposit, top⟩, decoded]
    rfl

/-- Every deposit that the bridge logs yields exactly one event if and only if, at each of them,
every message in the frame of the bridge that has the shape of an invocation has been answered,
and fewer than `2 ^ 32` lines that start like a deposit come before. -/
theorem deposits_reported_iff {sigBytes : List UInt8} (configured : config.programId = bridge.text)
    (signed : base58Decode signature = some sigBytes) (full : sigBytes.length = 64)
    (entries : List LogEntry) :
    (∀ before text target asset amount,
      BridgeLogs bridge entries before text target asset amount →
        Reports config signature before text target asset amount) ↔
    ∀ before text target asset amount,
      BridgeLogs bridge entries before text target asset amount →
        Answered bridge before ∧ before.countP LogEntry.isDeposit < 2 ^ 32 := by
  constructor
  · intro all before text target asset amount logs
    exact (reports_iff configured signed full logs).mp (all before text target asset amount logs)
  · intro all before text target asset amount logs
    exact (reports_iff configured signed full logs).mpr (all before text target asset amount logs)

end Events

/-! ## A rehearsed log -/

namespace Rehearsal

theorem base58_of_all {text : Text} (all : text.all (fun c => c ∈ base58Alphabet) = true) :
    ∀ c ∈ text, c ∈ base58Alphabet := fun c member =>
  of_decide_eq_true (List.all_eq_true.mp all c member)

def bridgeProgram : ProgramId := ⟨"Bridge".toList, by decide, base58_of_all (by decide)⟩

def otherProgram : ProgramId := ⟨"Token".toList, by decide, base58_of_all (by decide)⟩

def solana : SolanaListenerConfig where
  programId := bridgeProgram.text
  chainId := .integer 101
  sha256 _ := 0

/-- The signature whose bytes are all zero. -/
def zeroSignature : Text := List.replicate 64 '1'

/-- The bridge logs a deposit, and calls another program that logs the same line. -/
def forged : List LogEntry := [
  .invoke bridgeProgram 1, .message .log "bridge_fund:T:A:5".toList,
  .invoke otherProgram 2, .message .log "bridge_fund:T:A:5".toList, .success otherProgram,
  .success bridgeProgram]

/-- The bridge calls another program, which logs a line with the shape of an invocation, and then
logs a deposit. -/
def suppressed : List LogEntry := [
  .invoke bridgeProgram 1,
  .invoke otherProgram 2, .message .log "invoke [3]".toList, .success otherProgram,
  .message .log "bridge_fund:T:A:5".toList, .success bridgeProgram]

end Rehearsal

/-- Of the two lines only that of the bridge is reported. -/
theorem only_bridge_deposits_rehearsed :
    (extractBridgeFundEvents Rehearsal.solana Rehearsal.zeroSignature
      (linesOf Rehearsal.forged)).length = 1 ∧
    ∀ event ∈ extractBridgeFundEvents Rehearsal.solana Rehearsal.zeroSignature
        (linesOf Rehearsal.forged),
      ∃ before entry later, Rehearsal.forged = before ++ entry :: later ∧
        Genuine Rehearsal.solana Rehearsal.zeroSignature Rehearsal.bridgeProgram before entry
          event := by
  have runs : executing Rehearsal.forged = some [] := by decide
  exact ⟨by decide +kernel, (only_bridge_deposits rfl runs).2⟩

theorem deposits_reported_rehearsed :
    (∀ before text target asset amount,
      BridgeLogs Rehearsal.bridgeProgram Rehearsal.forged before text target asset amount →
        Reports Rehearsal.solana Rehearsal.zeroSignature before text target asset amount) ↔
    ∀ before text target asset amount,
      BridgeLogs Rehearsal.bridgeProgram Rehearsal.forged before text target asset amount →
        Answered Rehearsal.bridgeProgram before ∧
          before.countP LogEntry.isDeposit < 2 ^ 32 := by
  have signed : base58Decode Rehearsal.zeroSignature = some (List.replicate 64 0) := by
    decide +kernel
  exact deposits_reported_iff rfl signed (List.length_replicate ..) Rehearsal.forged

/-- A program that the bridge calls makes the listener miss a deposit. -/
theorem deposit_suppressed : ¬ ∀ entries, executing entries = some [] →
    ∀ before text target asset amount,
      BridgeLogs Rehearsal.bridgeProgram entries before text target asset amount →
        Reports Rehearsal.solana Rehearsal.zeroSignature before text target asset amount := by
  intro complete
  have logs : BridgeLogs Rehearsal.bridgeProgram Rehearsal.suppressed
      (Rehearsal.suppressed.take 4) "bridge_fund:T:A:5".toList ['T'] ['A'] ['5'] :=
    ⟨⟨[.success Rehearsal.bridgeProgram], rfl⟩, ⟨[], by decide⟩,
      ⟨rfl, by decide, by decide, by decide⟩⟩
  obtain ⟨event, reported, -⟩ := complete Rehearsal.suppressed (by decide) _ _ _ _ _ logs
  have missed : extractBridgeFundEvents Rehearsal.solana Rehearsal.zeroSignature
      (linesOf (Rehearsal.suppressed.take 4 ++
        [.message .log "bridge_fund:T:A:5".toList])) = [] := by decide +kernel
  rw [missed] at reported
  exact absurd (congrArg List.length reported) (by simp)

end OnboardingBridge.Relayer
