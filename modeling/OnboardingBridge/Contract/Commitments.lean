import OnboardingBridge.Contract.FundingSettlement
import OnboardingBridge.Contract.System

/-!
# The life of a commitment

A commitment is made, and then revealed or cancelled. Three calls write the
stored commitments, and each does one of these (`execute_commitments`). Over any
run an identifier is handed out once and ends once; a reveal opens what was
committed under its identifier, by the source and in time; and what has ended
stays so (`commitment_lifecycle`).
-/

set_option autoImplicit false

namespace OnboardingBridge.Contract

open Foundations Foundations.Tx

/-! ## The stored commitments -/

/-- Whether a key belongs to the commitments. -/
abbrev DataKey.isCommitment : DataKey → Bool
  | .commitmentId | .commitment _ => true
  | _ => false

/-- The keys outside the commitments. -/
def otherThanCommitments : Set DataKey := {key | key.isCommitment = false}

@[simp] theorem mem_otherThanCommitments {key : DataKey} :
    key ∈ otherThanCommitments ↔ key.isCommitment = false := Iff.rfl

/-- The identifier the next commitment gets. -/
def World.commitmentId (w : World) : UInt64 := (w.store .commitmentId).getD 0

theorem nextCommitmentId_ok {w w' : World} {id : UInt64}
    (ran : nextCommitmentId.run w = .ok (id, w')) :
    id = w.commitmentId ∧ id.toNat + 1 < 2 ^ 64 ∧ w' = w.put .commitmentId (id + 1) := by
  simp only [nextCommitmentId, incrementU64, save, run_bind_ok, run_read_ok, run_ofOption_ok,
    run_modify_ok, run_pure_ok] at ran
  obtain ⟨_, _, ⟨rfl, rfl⟩, next, _, ⟨increments, rfl⟩, _, _, rfl, rfl, rfl⟩ := ran
  split at increments
  · next fits =>
    obtain rfl := Option.some.inj increments
    exact ⟨rfl, fits, rfl⟩
  · simp at increments

/-- A commitment is stored under the next identifier, with the authorisation of its
source. -/
theorem commitFund_stores {env : Env} {source target asset : Address} {amountHash : BytesN 32}
    {deadline : UInt64} {w w' : World} {id : UInt64}
    (ran : (commitFund env source target asset amountHash deadline).run w = .ok (id, w')) :
    env.authorizes source = true ∧ id = w.commitmentId ∧ id.toNat + 1 < 2 ^ 64 ∧
      w'.commitmentId = id + 1 ∧
      w'.store (.commitment id) =
        some ⟨source, target, asset, amountHash, deadline, env.sequence, false⟩ ∧
      ∀ other, other ≠ id → w'.store (.commitment other) = w.store (.commitment other) := by
  obtain ⟨mid, ran, left⟩ := nonReentrant_ok ran
  have sofar : Frame otherThanCommitments True w (w.put .entered true) := by
    have touches : Touches otherThanCommitments True (save .entered true) := save_touches _ (by simp)
    exact touches rfl
  iterate 5 (refine sofar.skip ran ?_ fun _ _ sofar ran => ?_; focus simp)
  obtain ⟨authorized, ran⟩ := requireAuth_bind_ok.mp ran
  obtain ⟨id', allotted, identified, ran⟩ := run_bind_ok.mp ran
  obtain ⟨next, fits, same⟩ := nextCommitmentId_ok identified
  rw [saveCommitment, save, run_modify_bind] at ran
  have sofar' := refl_of (Frame otherThanCommitments True) (allotted.put (.commitment id')
    ⟨source, target, asset, amountHash, deadline, env.sequence, false⟩)
  refine sofar'.skip ran (publish_touches rfl) fun _ _ sofar' ran => ?_
  obtain ⟨rfl, rfl⟩ := run_pure_ok.mp ran
  subst same left
  refine ⟨authorized, ?_, fits, ?_, ?_, fun other different => ?_⟩
  · rw [next]
    exact congrArg (Option.getD · 0) (sofar.store .commitmentId (by simp))
  · simp [World.commitmentId, sofar'.store .commitmentId (by simp)]
  · simp [sofar'.store (.commitment id) (by simp)]
  · simp [sofar'.store (.commitment other) (by simp), different, sofar.store (.commitment other)]

/-- What a reveal has checked of its commitment. -/
structure Opens (env : Env) (source target asset : Address) (amount : I128) (nonce : UInt64)
    (entry : CommitmentEntry) : Prop where
  hidden : entry.revealed = false
  inTime : ¬ entry.deadline < env.timestamp
  matured : ¬ env.sequence < saturatingAddU32 entry.committedAtLedger commitRevealMinDelayLedgers
  committed : entry.source = source ∧ entry.target = target ∧ entry.asset = asset
  hash : env.host.sha256 (env.host.commitmentPreimage source target asset amount nonce) =
    entry.amountHash
  authorized : env.authorizes source = true

/-- A reveal marks its commitment. -/
theorem revealFund_stores {env : Env} {id nonce : UInt64} {source target asset : Address}
    {amount : I128} {w w' : World} {u : Unit}
    (ran : (revealFund env id source target asset amount nonce).run w = .ok (u, w')) :
    ∃ entry, w.store (.commitment id) = some entry ∧
      Opens env source target asset amount nonce entry ∧
      w'.store (.commitment id) = some { entry with revealed := true } := by
  obtain ⟨mid, ran, left⟩ := nonReentrant_ok ran
  have sofar : Frame otherThanCommitments True w (w.put .entered true) := by
    have touches : Touches otherThanCommitments True (save .entered true) := save_touches _ (by simp)
    exact touches rfl
  iterate 2 (refine sofar.skip ran ?_ fun _ _ sofar ran => ?_; focus simp)
  rw [readCommitment, run_read_bind] at ran
  obtain ⟨entry, found, ran⟩ := run_ofOption_bind_ok.mp ran
  obtain ⟨hidden, ran⟩ := run_rejectIf_bind_ok.mp ran
  obtain ⟨inTime, ran⟩ := run_rejectIf_bind_ok.mp ran
  obtain ⟨matured, ran⟩ := run_rejectIf_bind_ok.mp ran
  obtain ⟨committed, ran⟩ := run_rejectIf_bind_ok.mp ran
  obtain ⟨-, ran⟩ := run_rejectIf_bind_ok.mp ran
  obtain ⟨hash, ran⟩ := run_rejectIf_bind_ok.mp ran
  rw [sofar.store _ (by simp)] at found
  iterate 5 (refine sofar.skip ran ?_ fun _ _ sofar ran => ?_; focus simp)
  refine sofar.skip ran (checkDailyLimit_touches _ _ _ _ (by simp)) fun _ checked _ ran => ?_
  obtain ⟨authorized, ran⟩ := requireAuth_bind_ok.mp ran
  rw [saveCommitment, save, run_modify_bind] at ran
  have marked := refl_of (Frame otherThanCommitments True)
    (checked.put (.commitment id) { entry with revealed := true })
  repeat
    refine marked.skip ran ?_ fun _ _ marked ran => ?_
    focus simp [readFeeBps_touches, Preserves.ofExcept]
  have published {event : Event} (shown : event.isLoyaltySkip = false) :
      Touches otherThanCommitments True (publish event) := publish_touches shown
  have marked := trans_of (Frame otherThanCommitments True) marked (published (by rfl) ran)
  refine ⟨entry, found, ⟨Bool.eq_false_of_not_eq_true hidden, inTime, matured, ?_, not_not.mp hash,
    authorized⟩, ?_⟩
  · simpa only [ne_eq, not_or, not_not] using committed
  · rw [left]
    simp [marked.store (.commitment id) (by simp)]

/-- A cancellation removes its commitment, with the authorisation of its source. -/
theorem cancelCommitment_stores {env : Env} {id : UInt64} {w w' : World} {u : Unit}
    (ran : (cancelCommitment env id).run w = .ok (u, w')) :
    ∃ entry, w.store (.commitment id) = some entry ∧ entry.revealed = false ∧
      env.authorizes entry.source = true ∧ w'.store (.commitment id) = none := by
  obtain ⟨mid, ran, left⟩ := nonReentrant_ok ran
  have sofar : Frame otherThanCommitments True w (w.put .entered true) := by
    have touches : Touches otherThanCommitments True (save .entered true) := save_touches _ (by simp)
    exact touches rfl
  iterate 2 (refine sofar.skip ran ?_ fun _ _ sofar ran => ?_; focus simp)
  rw [readCommitment, run_read_bind] at ran
  obtain ⟨entry, found, ran⟩ := run_ofOption_bind_ok.mp ran
  obtain ⟨hidden, ran⟩ := run_rejectIf_bind_ok.mp ran
  obtain ⟨authorized, ran⟩ := requireAuth_bind_ok.mp ran
  rw [sofar.store _ (by simp)] at found
  rw [Contract.remove, run_modify_bind, publish, run_modify_ok] at ran
  refine ⟨entry, found, Bool.eq_false_of_not_eq_true hidden, authorized, ?_⟩
  rw [left, ran]
  simp

/-- What a call does to the commitment under an identifier. -/
inductive CommitmentStep (env : Env) (request : Request) (reply : Reply) (w w' : World)
    (id : UInt64) : Prop where
  | kept (same : w'.store (.commitment id) = w.store (.commitment id))
  | committed {source target asset : Address} {amountHash : BytesN 32} {deadline : UInt64}
      (asked : request = .commitFund source target asset amountHash deadline)
      (replied : reply = .id id) (authorized : env.authorizes source = true)
      (unused : ¬ id < w.commitmentId) (used : id < w'.commitmentId)
      (stored : w'.store (.commitment id) =
        some ⟨source, target, asset, amountHash, deadline, env.sequence, false⟩)
  | revealed {source target asset : Address} {amount : I128} {nonce : UInt64}
      {entry : CommitmentEntry} (asked : request = .revealFund id source target asset amount nonce)
      (found : w.store (.commitment id) = some entry)
      (opens : Opens env source target asset amount nonce entry)
      (stored : w'.store (.commitment id) = some { entry with revealed := true })
  | cancelled {entry : CommitmentEntry} (asked : request = .cancelCommitment id)
      (found : w.store (.commitment id) = some entry) (hidden : entry.revealed = false)
      (gone : w'.store (.commitment id) = none)

theorem execute_commitments {env : Env} {request : Request} {reply : Reply} {w w' : World}
    (ran : (execute env request).run w = .ok (reply, w')) (id : UInt64) :
    CommitmentStep env request reply w w' id := by
  have frame := execute_frame env request ran
  by_cases writes : .commitment id ∈ request.writes
  · cases request
    case commitFund =>
      obtain ⟨new, ran, replied⟩ := replying_ok.mp ran
      obtain ⟨authorized, next, fits, counter, stored, others⟩ := commitFund_stores ran
      by_cases same : id = new
      · subst same
        refine .committed rfl replied authorized (next ▸ UInt64.lt_irrefl _) ?_ stored
        have one : (1 : UInt64).toNat = 1 := rfl
        rw [counter, UInt64.lt_iff_toNat_lt, UInt64.toNat_add]
        omega
      · exact .kept (others id same)
    case revealFund =>
      obtain ⟨_, ran, -⟩ := replying_ok.mp ran
      obtain ⟨entry, found, opens, stored⟩ := revealFund_stores ran
      obtain rfl : id = _ := by simpa [Request.writes, dailyUsages] using writes
      exact .revealed rfl found opens stored
    case cancelCommitment =>
      obtain ⟨_, ran, -⟩ := replying_ok.mp ran
      obtain ⟨entry, found, hidden, -, gone⟩ := cancelCommitment_stores ran
      obtain rfl : id = _ := by simpa [Request.writes] using writes
      exact .cancelled rfl found hidden gone
    all_goals simp [Request.writes, dailyUsages] at writes
  · exact .kept (frame.store _ writes)

/-- No call lowers the counter of the identifiers. -/
theorem execute_commitmentId {env : Env} {request : Request} {reply : Reply} {w w' : World}
    (ran : (execute env request).run w = .ok (reply, w')) {id : UInt64}
    (below : id < w.commitmentId) : id < w'.commitmentId := by
  by_cases writes : .commitmentId ∈ request.writes
  · cases request
    all_goals try (simp [Request.writes, dailyUsages] at writes; done)
    obtain ⟨new, ran, -⟩ := replying_ok.mp ran
    obtain ⟨-, next, fits, counter, -⟩ := commitFund_stores ran
    have one : (1 : UInt64).toNat = 1 := rfl
    rw [← next, UInt64.lt_iff_toNat_lt] at below
    rw [counter, UInt64.lt_iff_toNat_lt, UInt64.toNat_add]
    omega
  · rwa [World.commitmentId, (execute_frame env request ran).store _ writes]

theorem Step.commitmentId {host : Host} {w w' : World} {label : Label} (taken : Step host w label w')
    {id : UInt64} (below : id < w.commitmentId) : id < w'.commitmentId := by
  cases taken with
  | success _ ran => exact execute_commitmentId ran below
  | failure => exact below
  | external => exact below

/-! ## Histories -/

/-- A call of the history made the commitment. -/
def CommittedBy (past : List Label) (id : UInt64) (entry : CommitmentEntry) (commit : Success) :
    Prop :=
  .success commit ∈ past ∧ commit.request = .commitFund entry.source entry.target entry.asset
    entry.amountHash entry.deadline ∧ commit.reply = .id id ∧
    commit.env.sequence = entry.committedAtLedger ∧ commit.env.authorizes entry.source = true

/-- Every stored commitment was made in the history, under an identifier that was
handed out. -/
def CommitmentsRecorded (past : List Label) (w : World) : Prop :=
  ∀ id entry, w.store (.commitment id) = some entry →
    id < w.commitmentId ∧ ∃ commit, CommittedBy past id entry commit

theorem Step.commitmentsRecorded {host : Host} {past : List Label} {w w' : World} {label : Label}
    (recorded : CommitmentsRecorded past w) (taken : Step host w label w') :
    CommitmentsRecorded (past ++ [label]) w' := by
  intro id entry stored
  have earlier : w.store (.commitment id) = some entry →
      id < w.commitmentId ∧ ∃ commit, CommittedBy (past ++ [label]) id entry commit := by
    intro found
    obtain ⟨below, commit, member, rest⟩ := recorded id entry found
    exact ⟨below, commit, List.mem_append_left _ member, rest⟩
  cases taken with
  | @success call deployed ran =>
    have still {id : UInt64} (below : id < call.before.commitmentId) :
        id < call.after.commitmentId := execute_commitmentId ran below
    cases execute_commitments ran id with
    | kept same => exact (earlier (same.symm.trans stored)).imp_left still
    | committed asked replied authorized unused used stored' =>
      obtain rfl := Option.some.inj (stored'.symm.trans stored)
      exact ⟨used, call, by simp, asked, replied, rfl, authorized⟩
    | revealed asked found opens stored' =>
      obtain rfl := Option.some.inj (stored'.symm.trans stored)
      obtain ⟨below, commit, member, rest⟩ := recorded id _ found
      exact ⟨still below, commit, List.mem_append_left _ member, rest⟩
    | cancelled asked found hidden gone => simp [gone] at stored
  | failure => exact earlier stored
  | external => exact earlier stored

/-- The history of a run from a fresh deployment records every commitment. -/
theorem Run.commitmentsRecorded {host : Host} {start w : World} {labels : List Label}
    (fresh : Genesis host start) (run : Run (Step host) start labels w) :
    CommitmentsRecorded labels w := by
  have nothing : CommitmentsRecorded [] start := by
    intro id entry stored
    simp [fresh.store] at stored
  exact Run.traced (fun _ _ _ _ recorded taken => Step.commitmentsRecorded recorded taken) run nothing

/-! ## Runs -/

/-- A step in which a commitment is made under the identifier. -/
def Label.commits (id : UInt64) (label : Label) : Prop :=
  ∃ call source target asset amountHash deadline, label = .success call ∧ call.reply = .id id ∧
    call.request = .commitFund source target asset amountHash deadline

/-- A step in which a commitment is revealed. -/
def Label.reveals (id : UInt64) (label : Label) : Prop :=
  ∃ call source target asset amount nonce, label = .success call ∧
    call.request = .revealFund id source target asset amount nonce

/-- A step in which a commitment is cancelled. -/
def Label.cancels (id : UInt64) (label : Label) : Prop :=
  ∃ call, label = .success call ∧ call.request = .cancelCommitment id

/-- The commitment was revealed. -/
def World.Revealed (w : World) (id : UInt64) : Prop :=
  ∃ entry, w.store (.commitment id) = some entry ∧ entry.revealed = true

/-- The commitment was made and is gone. -/
def World.Cancelled (w : World) (id : UInt64) : Prop :=
  id < w.commitmentId ∧ w.store (.commitment id) = none

/-- Neither changes any more. -/
theorem Step.commitmentEnded {host : Host} {past : List Label} {w w' : World} {label : Label}
    {id : UInt64} (recorded : CommitmentsRecorded past w) (taken : Step host w label w') :
    (w.Revealed id → w'.Revealed id) ∧ (w.Cancelled id → w'.Cancelled id) := by
  cases taken with
  | @success call deployed ran =>
    have still (below : id < call.before.commitmentId) : id < call.after.commitmentId :=
      execute_commitmentId ran below
    cases execute_commitments ran id with
    | kept same =>
      refine ⟨fun ⟨entry, found, revealed⟩ => ⟨entry, same.trans found, revealed⟩, ?_⟩
      exact fun ⟨below, gone⟩ => ⟨still below, same.trans gone⟩
    | committed asked replied authorized unused used stored =>
      refine ⟨fun ⟨entry, found, _⟩ => absurd (recorded id entry found).1 unused, ?_⟩
      exact fun ⟨below, _⟩ => absurd below unused
    | @revealed _ _ _ _ _ entry asked found opens stored =>
      refine ⟨fun _ => ⟨{ entry with revealed := true }, stored, rfl⟩, fun ⟨_, gone⟩ => ?_⟩
      have found : call.before.store (.commitment id) = some entry := found
      simp [gone] at found
    | @cancelled entry asked found hidden gone =>
      have found : call.before.store (.commitment id) = some entry := found
      refine ⟨fun ⟨other, found', revealed⟩ => ?_, fun ⟨below, _⟩ => ⟨still below, gone⟩⟩
      obtain rfl := Option.some.inj (found.symm.trans found')
      simp [hidden] at revealed
  | failure => exact ⟨fun kept => kept, fun kept => kept⟩
  | external => exact ⟨fun kept => kept, fun kept => kept⟩

/-- A commitment that is revealed or cancelled was neither before. -/
theorem Label.ends_takes {host : Host} {past : List Label} {w w' : World} {label : Label}
    {id : UInt64} (recorded : CommitmentsRecorded past w) (taken : Step host w label w') :
    (label.reveals id → ¬ (w.Revealed id ∨ w.Cancelled id) ∧ w'.Revealed id) ∧
      (label.cancels id → ¬ (w.Revealed id ∨ w.Cancelled id) ∧ w'.Cancelled id) := by
  have open_ {entry : CommitmentEntry} (found : w.store (.commitment id) = some entry)
      (hidden : entry.revealed = false) : ¬ (w.Revealed id ∨ w.Cancelled id) := by
    rintro (⟨other, found', revealed⟩ | ⟨-, gone⟩)
    · obtain rfl := Option.some.inj (found.symm.trans found')
      simp [hidden] at revealed
    · simp [gone] at found
  refine ⟨?_, ?_⟩
  · rintro ⟨call, source, target, asset, amount, nonce, rfl, asked⟩
    cases taken with
    | success deployed ran =>
      rw [asked] at ran
      obtain ⟨_, ran, -⟩ := replying_ok.mp ran
      obtain ⟨entry, found, opens, stored⟩ := revealFund_stores ran
      exact ⟨open_ found opens.hidden, _, stored, rfl⟩
  · rintro ⟨call, rfl, asked⟩
    cases taken with
    | success deployed ran =>
      have counter : id < call.before.commitmentId → id < call.after.commitmentId :=
        execute_commitmentId ran
      rw [asked] at ran
      obtain ⟨_, ran, -⟩ := replying_ok.mp ran
      obtain ⟨entry, found, hidden, -, gone⟩ := cancelCommitment_stores ran
      exact ⟨open_ found hidden, counter (recorded id entry found).1, gone⟩

/-- A commitment gets an identifier that was not handed out before. -/
theorem Label.commits_takes {host : Host} {w w' : World} {label : Label} {id : UInt64}
    (taken : Step host w label w') (commits : label.commits id) :
    ¬ id < w.commitmentId ∧ id < w'.commitmentId := by
  obtain ⟨call, source, target, asset, amountHash, deadline, rfl, replied, asked⟩ := commits
  cases taken with
  | success deployed ran =>
    rw [asked] at ran
    obtain ⟨new, ran, replied'⟩ := replying_ok.mp ran
    obtain rfl := Reply.id.inj (replied.symm.trans replied')
    obtain ⟨-, next, fits, counter, -⟩ := commitFund_stores ran
    have next : id = call.before.commitmentId := next
    refine ⟨next ▸ UInt64.lt_irrefl _, ?_⟩
    have one : (1 : UInt64).toNat = 1 := rfl
    rw [counter, UInt64.lt_iff_toNat_lt, UInt64.toNat_add]
    omega

/-- What a reveal opens: a commitment that an earlier call made under the identifier,
to the same source, target and asset, with the authorisation of the source then
and now, at least five ledgers before unless the ledgers have run out, and before
its deadline. Without collisions its hash fits no other arguments. -/
structure RevealsCommit (host : Host) (earlier : List Label) (reveal : Success) (id : UInt64)
    (source target asset : Address) (amount : I128) (nonce : UInt64) (commit : Success)
    (amountHash : BytesN 32) (deadline : UInt64) : Prop where
  made : .success commit ∈ earlier
  asked : commit.request = .commitFund source target asset amountHash deadline
  replied : commit.reply = .id id
  authorized : commit.env.authorizes source = true ∧ reveal.env.authorizes source = true
  inTime : reveal.env.timestamp ≤ deadline
  matured : commit.env.sequence.toNat + 5 ≤ reveal.env.sequence.toNat ∨
    reveal.env.sequence.toNat + 1 = 2 ^ 32
  hash : host.sha256 (host.commitmentPreimage source target asset amount nonce) = amountHash
  unique : (∀ a b, (host.strkey a).length = (host.strkey b).length) →
    Function.Injective host.strkey → ∀ source' target' asset' amount' nonce',
      Set.InjOn host.sha256 {host.commitmentPreimage source target asset amount nonce,
        host.commitmentPreimage source' target' asset' amount' nonce'} →
      host.sha256 (host.commitmentPreimage source' target' asset' amount' nonce') = amountHash →
      source = source' ∧ target = target' ∧ asset = asset' ∧ amount = amount' ∧ nonce = nonce'

theorem reveal_commit {host : Host} {earlier : List Label} {reveal : Success}
    (recorded : CommitmentsRecorded earlier reveal.before) (deployed : reveal.env.host = host)
    (ran : (execute reveal.env reveal.request).run reveal.before.begin =
      .ok (reveal.reply, reveal.after)) {id nonce : UInt64} {source target asset : Address}
    {amount : I128} (asked : reveal.request = .revealFund id source target asset amount nonce) :
    ∃ commit amountHash deadline, RevealsCommit host earlier reveal id source target asset amount
      nonce commit amountHash deadline := by
  rw [asked] at ran
  obtain ⟨_, ran, -⟩ := replying_ok.mp ran
  obtain ⟨entry, found, opens, -⟩ := revealFund_stores ran
  obtain ⟨-, commit, made, request, replied, sequence, authorized⟩ := recorded id entry found
  obtain ⟨rfl, rfl, rfl⟩ := opens.committed
  have hash := opens.hash
  rw [deployed] at hash
  refine ⟨commit, entry.amountHash, entry.deadline, made, request, replied,
    ⟨authorized, opens.authorized⟩, UInt64.not_lt.mp opens.inTime,
    sequence ▸ add_le_of_saturatingAddU32 opens.matured, hash, ?_⟩
  intro widths strkeys source' target' asset' amount' nonce' collisionFree same
  have preimages := collisionFree (by simp) (by simp) (hash.trans same.symm)
  exact Host.commitmentPreimage_injective widths strkeys preimages

/-- No identifier is given to two commitments. -/
theorem Run.commits_once {host : Host} {start w : World} {labels : List Label}
    (run : Run (Step host) start labels w) (id : UInt64) :
    labels.Pairwise fun earlier later => ¬ (earlier.commits id ∧ later.commits id) :=
  run.atMostOnce (fun w => id < w.commitmentId) (Label.commits id)
    (fun _ _ _ taken commits => Label.commits_takes taken commits)
    (fun _ _ _ taken below => taken.commitmentId below)

/-- Over any run of a fresh contract: no two commitments get the same identifier; of
the reveals and cancellations of an identifier at most one succeeds; a revealed
commitment stays revealed and a cancelled one gone; and every reveal opens what
was committed under its identifier. -/
theorem commitment_lifecycle {host : Host} {start w : World} {labels : List Label}
    (fresh : Genesis host start) (run : Run (Step host) start labels w) :
    (∀ id, labels.Pairwise fun earlier later => ¬ (earlier.commits id ∧ later.commits id)) ∧
    (∀ id, labels.Pairwise fun earlier later =>
      ¬ ((earlier.reveals id ∨ earlier.cancels id) ∧ (later.reveals id ∨ later.cancels id))) ∧
    (∀ id label, label ∈ labels →
      (label.reveals id → w.Revealed id) ∧ (label.cancels id → w.Cancelled id)) ∧
    (∀ earlier reveal later id source target asset amount nonce,
      labels = earlier ++ .success reveal :: later →
      reveal.request = .revealFund id source target asset amount nonce →
      ∃ commit amountHash deadline, RevealsCommit host earlier reveal id source target asset amount
        nonce commit amountHash deadline) := by
  have steps : Run (fun w label w' => (∃ past, CommitmentsRecorded past w) ∧ Step host w label w')
      start labels w := by
    refine run.within _ ?_ ⟨[], Run.commitmentsRecorded fresh (.nil _)⟩
    rintro w label w' ⟨past, kept⟩ taken
    exact ⟨_, Step.commitmentsRecorded kept taken⟩
  refine ⟨Run.commits_once run, fun id => ?_, fun id label member => ?_, ?_⟩
  · refine steps.atMostOnce (fun w => w.Revealed id ∨ w.Cancelled id)
      (fun label => label.reveals id ∨ label.cancels id) ?_ ?_
    · rintro w label w' ⟨⟨_, kept⟩, taken⟩ (reveals | cancels)
      · exact ((Label.ends_takes kept taken).1 reveals).imp_right .inl
      · exact ((Label.ends_takes kept taken).2 cancels).imp_right .inr
    · rintro w label w' ⟨⟨_, kept⟩, taken⟩ ended
      exact ended.imp (taken.commitmentEnded kept).1 (taken.commitmentEnded kept).2
  · obtain ⟨earlier, later, rfl⟩ := List.append_of_mem member
    obtain ⟨t, v, -, ⟨⟨_, kept⟩, taken⟩, rest⟩ := steps.around
    refine ⟨fun reveals => ?_, fun cancels => ?_⟩
    · refine rest.stays (fun w => w.Revealed id) ?_ ((Label.ends_takes kept taken).1 reveals).2
      rintro w label w' ⟨⟨_, kept⟩, taken⟩
      exact (taken.commitmentEnded kept).1
    · refine rest.stays (fun w => w.Cancelled id) ?_ ((Label.ends_takes kept taken).2 cancels).2
      rintro w label w' ⟨⟨_, kept⟩, taken⟩
      exact (taken.commitmentEnded kept).2
  · rintro earlier reveal later id source target asset amount nonce rfl asked
    obtain ⟨t, v, before, taken, -⟩ := run.around
    cases taken with
    | success deployed ran =>
      exact reveal_commit (Run.commitmentsRecorded fresh before) deployed ran asked

namespace Rehearsal

/-- A call at a given ledger. -/
def atLedger (sequence : UInt32) : Env := { env 0 with sequence }

/-- The preimage of a commitment to an amount. -/
def preimage (amount : I128) : List UInt8 :=
  host.commitmentPreimage (address 4) (address 5) (address 3) amount 7

/-- A commitment made at a ledger. -/
def commitment (sequence : UInt32) : List (Env × Request) := [
  (env 0, .initializeContract (address 1) (address 2) 100 none),
  (env 0, .addAsset (address 3) none),
  (atLedger sequence, .commitFund (address 4) (address 5) (address 3)
    (host.sha256 (preimage (amount 1000 thousand_small))) 100)]

/-- Its reveal. -/
def reveal : Request :=
  .revealFund 0 (address 4) (address 5) (address 3) (amount 1000 thousand_small) 7

/-- A commitment and its reveal at a later ledger. -/
def opened (first second : UInt32) : List (Env × Request) :=
  commitment first ++ [(atLedger second, reveal)]

theorem opened_run {first second : UInt32} (success : (rehearse fresh (opened first second)).all
      (fun call => succeeds call.env call.request call.before) = true) :
    Run (Step host) fresh ((rehearse fresh (opened first second)).map .success)
      (rehearsed fresh (opened first second)) := by
  refine rehearse_run ?_ (List.all_eq_true.mp success)
  simp [opened, commitment, atLedger, env]

end Rehearsal

/-- A commitment made at ledger 10 is revealed at ledger 15, and it is not one to another amount. -/
theorem commitment_lifecycle_rehearsed :
    let labels := (rehearse Rehearsal.fresh (Rehearsal.opened 10 15)).map Label.success
    (∀ id, labels.Pairwise fun earlier later => ¬ (earlier.commits id ∧ later.commits id)) ∧
    (∀ id, labels.Pairwise fun earlier later =>
      ¬ ((earlier.reveals id ∨ earlier.cancels id) ∧ (later.reveals id ∨ later.cancels id))) ∧
    (rehearsed Rehearsal.fresh (Rehearsal.opened 10 15)).Revealed 0 ∧
    ∃ commit amountHash deadline, RevealsCommit Rehearsal.host
      ((rehearse Rehearsal.fresh (Rehearsal.commitment 10)).map .success)
      (attempt (Rehearsal.atLedger 15) Rehearsal.reveal
        (rehearsed Rehearsal.fresh (Rehearsal.commitment 10))) 0 (Rehearsal.address 4)
      (Rehearsal.address 5) (Rehearsal.address 3) (Rehearsal.amount 1000) 7 commit amountHash
      deadline ∧
      Rehearsal.host.sha256 (Rehearsal.preimage (Rehearsal.amount 999)) ≠ amountHash := by
  intro labels
  have run := Rehearsal.opened_run (by decide +kernel : (rehearse Rehearsal.fresh
    (Rehearsal.opened 10 15)).all _ = true)
  obtain ⟨commits, ends, ended, opens⟩ := commitment_lifecycle Rehearsal.fresh_genesis run
  let revealed := rehearsed Rehearsal.fresh (Rehearsal.commitment 10)
  have asked : (attempt (Rehearsal.atLedger 15) Rehearsal.reveal revealed).request =
      Rehearsal.reveal := (attempt_call ..).2.1
  refine ⟨commits, ends, (ended 0 (.success (attempt (Rehearsal.atLedger 15) Rehearsal.reveal
    revealed)) ?_).1 ⟨_, _, _, _, _, _, rfl, asked⟩, ?_⟩
  · exact List.mem_map_of_mem (by simp [Rehearsal.opened, Rehearsal.commitment, rehearse, rehearsed,
      revealed])
  · obtain ⟨commit, amountHash, deadline, opened⟩ := opens
      ((rehearse Rehearsal.fresh (Rehearsal.commitment 10)).map .success) _ [] _ _ _ _ _ _ rfl asked
    refine ⟨commit, amountHash, deadline, opened, fun same => ?_⟩
    have collisionFree : Set.InjOn Rehearsal.checksum
        {Rehearsal.preimage (Rehearsal.amount 1000), Rehearsal.preimage (Rehearsal.amount 999)} := by
      refine Rehearsal.checksum_injOn [Rehearsal.preimage (Rehearsal.amount 1000),
        Rehearsal.preimage (Rehearsal.amount 999)] (by decide +kernel) ?_
      rintro bytes (rfl | rfl) <;> simp
    have widths (a b : Address) : (Rehearsal.strkey a).length = (Rehearsal.strkey b).length := by
      rw [Rehearsal.length_strkey, Rehearsal.length_strkey]
    obtain ⟨-, -, -, amounts, -⟩ := opened.unique widths Rehearsal.strkey_injective _ _ _ _ _
      collisionFree same
    exact absurd amounts (by decide)

/-- At the last ledger a reveal succeeds before five ledgers have passed: the sum it
compares with saturates. -/
theorem reveal_at_last_ledger : ¬ ∀ (labels earlier later : List Label) (w : World)
    (reveal : Success) (id : UInt64) (source target asset : Address) (amount : I128)
    (nonce : UInt64), Run (Step Rehearsal.host) Rehearsal.fresh labels w →
      labels = earlier ++ .success reveal :: later →
      reveal.request = .revealFund id source target asset amount nonce →
      ∃ commit amountHash deadline, .success commit ∈ earlier ∧
        commit.request = .commitFund source target asset amountHash deadline ∧
        commit.env.sequence.toNat + 5 ≤ reveal.env.sequence.toNat := by
  intro claim
  have run := Rehearsal.opened_run (by decide +kernel : (rehearse Rehearsal.fresh
    (Rehearsal.opened 4294967293 4294967295)).all _ = true)
  obtain ⟨commit, amountHash, deadline, made, asked, matured⟩ := claim _
    ((rehearse Rehearsal.fresh (Rehearsal.commitment 4294967293)).map .success) [] _
    (attempt (Rehearsal.atLedger 4294967295) Rehearsal.reveal
      (rehearsed Rehearsal.fresh (Rehearsal.commitment 4294967293))) _ _ _ _ _ _ run rfl
    (attempt_call ..).2.1
  obtain ⟨call, member, same⟩ := List.mem_map.mp made
  obtain rfl := Label.success.inj same
  rw [(attempt_call ..).1] at matured
  have listed := mem_rehearse member
  simp only [Rehearsal.commitment, asked, List.mem_cons, Prod.mk.injEq, reduceCtorEq, and_false,
    false_or, List.not_mem_nil, or_false] at listed
  rw [listed.1] at matured
  exact absurd matured (by decide)

end OnboardingBridge.Contract
