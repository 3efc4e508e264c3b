import OnboardingBridge.Relayer.Steps

/-!
# What every run of the service keeps

A process that has not ended is the one in flight for its key, its own handler
call still waits for it, and its key is not marked. A process that has ended,
and a handler call that has settled, leave their key marked or dead-lettered
once the pending writes are made (`Consistent`). Every step keeps a consistent
service consistent (`step_consistent`).
-/

set_option autoImplicit false

namespace OnboardingBridge.Relayer

open Foundations Contract

/-! ## Consistency -/

/-- What a process in the list of processes satisfies. -/
structure Process.Fits (config : Config) (s : Service) (index : Nat) (process : Process) :
    Prop where
  valid : Service.accepts config process.event = true
  inFlight : process.phase ≠ .done → s.inFlight process.event.key = some index
  owned : process.phase ≠ .done → ⟨process.event, .owns index⟩ ∈ s.calls
  unseen : process.phase ≠ .done → process.event.key ∉ s.final.seen
  held : process.phase = .done → s.final.Holds process.event.key

/-- What a handler call in the list of calls satisfies. -/
structure HandlerCall.Fits (config : Config) (s : Service) (call : HandlerCall) : Prop where
  settled : call.status = .settled → Service.accepts config call.event = true →
    s.final.Holds call.event.key
  waiting : ∀ index, call.status = .owns index ∨ call.status = .joins index →
    ∃ process, s.processes[index]? = some process ∧ process.event.key = call.event.key

/-- A consistent service. -/
structure Service.Consistent (config : Config) (s : Service) : Prop where
  synced : s.disk = s.memory
  pending : Pending s.memory s.writes
  writing : ∀ write ∈ s.writes, ∃ event index,
    ⟨event, .owns index⟩ ∈ s.calls ∧ write.key = event.key
  nodup : s.memory.letters.Nodup
  processes : ∀ (index : Nat) (process : Process), s.processes[index]? = some process →
    process.Fits config s index
  inFlight : ∀ key index, s.inFlight key = some index →
    ∃ process, s.processes[index]? = some process ∧ process.event.key = key
  calls : ∀ call ∈ s.calls, call.Fits config s

variable {config : Config} {s t : Service}

/-- What a call satisfies stays so when what is held and the events of the
processes stay. -/
theorem HandlerCall.Fits.mono {call : HandlerCall} (fits : call.Fits config s)
    (held : ∀ key, s.final.Holds key → t.final.Holds key)
    (processes : ∀ (index : Nat) (process : Process), s.processes[index]? = some process →
      ∃ other, t.processes[index]? = some other ∧ other.event = process.event) :
    call.Fits config t where
  settled status valid := held _ (fits.settled status valid)
  waiting index status := by
    obtain ⟨process, found, key⟩ := fits.waiting index status
    obtain ⟨other, found', same⟩ := processes index process found
    exact ⟨other, found', by rw [same, key]⟩

namespace Service

/-- A service that has just been started is consistent when no two entries of its
queue have the same key. -/
theorem start_consistent {disk : Stores} (executed resolved : List Key)
    (nodup : disk.letters.Nodup) : Consistent config (start disk executed resolved) where
  synced := rfl
  pending := .none
  writing := by simp [start]
  nodup := nodup
  processes index process found := by simp [start] at found
  inFlight key index found := by simp [start] at found
  calls := by simp [start]

/-- Consistency does not depend on the sweep, the chain and what has resolved. -/
theorem Consistent.aside (consistent : s.Consistent config) (sweep : Option Sweep)
    (executed resolved : List Key) :
    Consistent config { s with sweep, executed, resolved } where
  synced := consistent.synced
  pending := consistent.pending
  writing := consistent.writing
  nodup := consistent.nodup
  processes index process found :=
    let ⟨valid, inFlight, owned, unseen, held⟩ := consistent.processes index process found
    ⟨valid, inFlight, owned, unseen, held⟩
  inFlight := consistent.inFlight
  calls call member :=
    let ⟨settled, waiting⟩ := consistent.calls call member
    ⟨settled, waiting⟩

theorem Consistent.resolve (consistent : s.Consistent config) (event : BridgeEvent) :
    (s.resolve config event).Consistent config := by
  unfold Service.resolve
  split
  · exact consistent.aside s.sweep s.executed (event.key :: s.resolved)
  · exact consistent

/-! ## Handler calls -/

/-- A call is added to the list of calls. -/
theorem Consistent.addCall (consistent : s.Consistent config) {call : HandlerCall}
    (fits : call.Fits config s) :
    Consistent config { s with calls := s.calls ++ [call] } where
  synced := consistent.synced
  pending := consistent.pending
  writing write member := by
    obtain ⟨event, index, owner, key⟩ := consistent.writing write member
    exact ⟨event, index, List.mem_append_left _ owner, key⟩
  nodup := consistent.nodup
  processes index process found :=
    let ⟨valid, inFlight, owned, unseen, held⟩ := consistent.processes index process found
    ⟨valid, inFlight, fun runs => List.mem_append_left _ (owned runs), unseen, held⟩
  inFlight := consistent.inFlight
  calls := by
    refine List.forall_mem_append.mpr ⟨fun call member => ?_, List.forall_mem_singleton.mpr ?_⟩
    · exact (consistent.calls call member).mono (fun _ holds => holds)
        fun index process found => ⟨process, found, rfl⟩
    · exact fits.mono (fun _ holds => holds) fun index process found => ⟨process, found, rfl⟩

/-- A process is started for a key that is neither marked nor in flight. -/
theorem Consistent.started (consistent : s.Consistent config) {event : BridgeEvent}
    (valid : accepts config event = true) (unseen : event.key ∉ s.final.seen)
    (free : s.inFlight event.key = none) :
    Consistent config { s with
      processes := s.processes ++ [⟨event, .signing⟩]
      inFlight := Function.update s.inFlight event.key (some s.processes.length)
      calls := s.calls ++ [⟨event, .owns s.processes.length⟩] } := by
  have kept : ∀ (index : Nat) (process : Process), s.processes[index]? = some process →
      (s.processes ++ [⟨event, .signing⟩])[index]? = some process := by
    intro index process found
    rw [List.getElem?_append_left (List.getElem?_eq_some_iff.mp found).1, found]
  refine ⟨consistent.synced, consistent.pending, ?_, consistent.nodup, ?_, ?_, ?_⟩
  · intro write member
    obtain ⟨event, index, owner, key⟩ := consistent.writing write member
    exact ⟨event, index, List.mem_append_left _ owner, key⟩
  · intro index process found
    rw [List.getElem?_append] at found
    split at found
    · next old =>
      obtain ⟨valid, inFlight, owned, unseen, held⟩ := consistent.processes index process found
      refine ⟨valid, fun runs => ?_, fun runs => List.mem_append_left _ (owned runs), unseen, held⟩
      have other : process.event.key ≠ event.key := by
        intro same
        rw [← same, inFlight runs] at free
        cases free
      simp only [Function.update_of_ne other]
      exact inFlight runs
    · next new =>
      obtain ⟨rfl, rfl⟩ : index = s.processes.length ∧ process = ⟨event, .signing⟩ := by
        obtain ⟨within, here⟩ := List.getElem?_eq_some_iff.mp found
        have first : index - s.processes.length = 0 := by simpa using within
        simp only [first, List.getElem_cons_zero] at here
        exact ⟨by omega, here.symm⟩
      exact ⟨valid, fun _ => Function.update_self .., fun _ => by simp, fun _ => unseen,
        fun done => by cases done⟩
  · intro key index found
    by_cases same : key = event.key
    · subst same
      obtain rfl : s.processes.length = index := by simpa using found
      exact ⟨⟨event, .signing⟩, List.getElem?_concat_length, rfl⟩
    · simp only [Function.update_of_ne same] at found
      obtain ⟨process, present, key⟩ := consistent.inFlight key index found
      exact ⟨process, kept index process present, key⟩
  · refine List.forall_mem_append.mpr ⟨fun call member => ?_, List.forall_mem_singleton.mpr ?_⟩
    · exact (consistent.calls call member).mono (fun _ holds => holds)
        fun index process found => ⟨process, kept index process found, rfl⟩
    · refine ⟨fun settled => absurd settled (by simp), fun index waits => ?_⟩
      obtain rfl : s.processes.length = index := by simpa using waits
      exact ⟨⟨event, .signing⟩, List.getElem?_concat_length, rfl⟩

/-- A handler call keeps a consistent service consistent. -/
theorem Consistent.handleEvent (consistent : s.Consistent config) (idle : s.writes = [])
    (event : BridgeEvent) : (s.handleEvent config event).Consistent config := by
  have final : s.final = s.memory := final_idle idle
  unfold Service.handleEvent
  split
  · next seen =>
    refine Consistent.resolve (consistent.addCall ⟨fun _ _ => ?_, fun index waits => ?_⟩) event
    · exact final ▸ .inl seen
    · simp at waits
  · next unseen =>
    split
    · next invalid =>
      refine consistent.addCall ⟨fun _ valid => ?_, fun index waits => ?_⟩
      · simp [invalid] at valid
      · simp at waits
    · next valid =>
      have valid : accepts config event = true := Bool.not_eq_false _ ▸ valid
      split
      · next index found =>
        refine consistent.addCall ⟨fun settled => absurd settled (by simp), fun other waits => ?_⟩
        obtain rfl : index = other := by simpa using waits
        exact consistent.inFlight event.key index found
      · next free => exact consistent.started valid (final ▸ unseen) free

/-! ## Processes -/

/-- A process moves on, and may leave writes behind. -/
theorem Consistent.moved (consistent : s.Consistent config) (idle : s.writes = []) {process : Nat}
    {event : BridgeEvent} {before phase : Phase} {writes : List Write}
    (found : s.processes[process]? = some ⟨event, before⟩) (runs : before ≠ .done)
    (pending : Pending s.memory writes) (about : ∀ write ∈ writes, write.key = event.key)
    (held : ∀ key, s.memory.Holds key → (s.memory.after writes).Holds key)
    (seen : ∀ key ∈ (s.memory.after writes).seen,
      key ∈ s.memory.seen ∨ (phase = .done ∧ key = event.key))
    (ended : phase = .done → (s.memory.after writes).Holds event.key) :
    Consistent config { s.advance process event phase with writes } := by
  obtain ⟨within, -⟩ := List.getElem?_eq_some_iff.mp found
  have here : (s.processes.set process ⟨event, phase⟩)[process]? = some ⟨event, phase⟩ :=
    List.getElem?_set_self within
  have there : ∀ index, process ≠ index →
      (s.processes.set process ⟨event, phase⟩)[index]? = s.processes[index]? :=
    fun index other => List.getElem?_set_ne other
  have kept : ∀ (index : Nat) (earlier : Process), s.processes[index]? = some earlier →
      ∃ later, (s.processes.set process ⟨event, phase⟩)[index]? = some later ∧
        later.event = earlier.event := by
    intro index earlier present
    by_cases same : process = index
    · subst same
      obtain rfl : ⟨event, before⟩ = earlier := Option.some.inj (found.symm.trans present)
      exact ⟨⟨event, phase⟩, here, rfl⟩
    · exact ⟨earlier, (there index same).trans present, rfl⟩
  have final := final_idle idle
  obtain ⟨valid, inFlight, owned, unseen, -⟩ := consistent.processes process _ found
  refine ⟨consistent.synced, pending, ?_, consistent.nodup, ?_, ?_, ?_⟩
  · intro write member
    exact ⟨event, process, owned runs, about write member⟩
  · intro index other present
    by_cases same : process = index
    · subst same
      obtain rfl : ⟨event, phase⟩ = other := Option.some.inj (here.symm.trans present)
      refine ⟨valid, fun _ => inFlight runs, fun _ => owned runs, fun running marked => ?_, ended⟩
      rcases seen _ marked with old | ⟨done, -⟩
      · exact unseen runs (final ▸ old)
      · exact running done
    · have fits := consistent.processes index other ((there index same).symm.trans present)
      refine ⟨fits.valid, fits.inFlight, fits.owned, fun running marked => ?_, fun done => ?_⟩
      · rcases seen _ marked with old | ⟨-, key⟩
        · exact fits.unseen running (final ▸ old)
        · have both := (inFlight runs).symm.trans (key ▸ fits.inFlight running)
          exact same (Option.some.inj both)
      · exact held _ (final ▸ fits.held done)
  · intro key index flies
    obtain ⟨earlier, present, same⟩ := consistent.inFlight key index flies
    obtain ⟨later, present', event⟩ := kept index earlier present
    exact ⟨later, present', by rw [event, same]⟩
  · intro call member
    exact (consistent.calls call member).mono (fun key holds => held key (final ▸ holds)) kept

/-- A process ends. -/
theorem Consistent.finished (consistent : s.Consistent config) (idle : s.writes = [])
    {process : Nat} {event : BridgeEvent} {before : Phase} {success : Bool} {writes : List Write}
    (found : s.processes[process]? = some ⟨event, before⟩) (runs : before ≠ .done)
    (concluding : Concluding s.memory event success writes) :
    (s.finish process event writes).Consistent config := by
  refine consistent.moved idle found runs concluding.pending concluding.about ?_ ?_ ?_
  · exact fun key holds => concluding.holds (.inr holds)
  · intro key marked
    rcases concluding.seen.mp marked with ⟨-, same⟩ | old
    · exact .inr ⟨rfl, same⟩
    · exact .inl old
  · exact fun _ => concluding.holds (.inl rfl)

/-- The wait for the signers ends. -/
theorem Consistent.signed (consistent : s.Consistent config) (idle : s.writes = [])
    {process : Nat} {event : BridgeEvent} (available now : Nat)
    (found : s.processes[process]? = some ⟨event, .signing⟩) :
    (s.signed config process event available now).Consistent config := by
  unfold Service.signed
  split
  · exact consistent.finished idle found (by simp) (.failure ..)
  · have moved : Consistent config
        { s.advance process event (.submitting available) with writes := [] } :=
      consistent.moved idle found (by simp) .none (by simp) (fun key holds => holds)
        (fun key seen => .inl seen) (by simp)
    rwa [← idle] at moved

/-! ## Writes and the end of a call -/

/-- A write keeps a consistent service consistent. -/
theorem Consistent.write (consistent : s.Consistent config) {next : Write} {rest : List Write}
    (writes : s.writes = next :: rest) : (s.write next rest).Consistent config := by
  have final : (s.write next rest).final = s.final := by
    rw [Service.final, Service.final, writes]
    rfl
  have pending : Pending s.memory (next :: rest) := writes ▸ consistent.pending
  refine ⟨?_, pending.next, ?_, pending.letters_nodup consistent.nodup, ?_, consistent.inFlight, ?_⟩
  · simp only [Service.write, consistent.synced]
    cases next <;> rfl
  · intro write member
    exact consistent.writing write (writes ▸ List.mem_cons_of_mem _ member)
  · intro index process found
    obtain ⟨valid, inFlight, owned, unseen, held⟩ := consistent.processes index process found
    exact ⟨valid, inFlight, owned, final ▸ unseen, final ▸ held⟩
  · intro call member
    exact (consistent.calls call member).mono (fun key holds => final ▸ holds)
      fun index process found => ⟨process, found, rfl⟩

/-- A call that waits for an ended process has its key held. -/
theorem Consistent.awaited (consistent : s.Consistent config) {call : Nat} {event : BridgeEvent}
    {status : CallStatus} {process : Nat} {owned : Option Nat}
    (found : s.calls[call]? = some ⟨event, status⟩) (ended : s.ended process = true)
    (waits : (status = .owns process ∧ owned = some process) ∨
      (status = .joins process ∧ owned = none)) :
    ∃ awaited, s.processes[process]? = some awaited ∧ awaited.phase = .done ∧
      s.final.Holds event.key := by
  obtain ⟨awaited, present, key⟩ := (consistent.calls _ (List.mem_of_getElem? found)).waiting process
    (waits.imp And.left And.left)
  have done : awaited.phase = .done := by simpa [Service.ended, present] using ended
  exact ⟨awaited, present, done, key ▸ (consistent.processes _ _ present).held done⟩

/-- So does the end of a handler call. -/
theorem Consistent.settle (consistent : s.Consistent config) (idle : s.writes = []) {call : Nat}
    {event : BridgeEvent} {status : CallStatus} {process : Nat} {owned : Option Nat}
    (found : s.calls[call]? = some ⟨event, status⟩) (ended : s.ended process = true)
    (waits : (status = .owns process ∧ owned = some process) ∨
      (status = .joins process ∧ owned = none)) :
    (s.settle config call event owned).Consistent config := by
  obtain ⟨awaited, present, done, heldHere⟩ := consistent.awaited found ended waits
  refine Consistent.resolve ?_ event
  have flies : ∀ (key : Key) (index : Nat), (if owned.isSome ∧ s.inFlight event.key = owned then
      Function.update s.inFlight event.key none else s.inFlight) key = some index →
        s.inFlight key = some index := by
    intro key index flies
    split at flies
    · by_cases same : key = event.key
      · simp [same] at flies
      · simpa only [Function.update_of_ne same] using flies
    · exact flies
  -- The call waits for a process that has ended, so it owns none that runs.
  have others : ∀ (index : Nat) (other : Process), s.processes[index]? = some other →
      other.phase ≠ .done → process ≠ index := by
    rintro index other present' running rfl
    obtain rfl : awaited = other := Option.some.inj (present.symm.trans present')
    exact running done
  refine ⟨consistent.synced, consistent.pending, ?_, consistent.nodup, ?_, ?_, ?_⟩
  · intro write member
    rw [idle] at member
    cases member
  · intro index other present'
    obtain ⟨valid, inFlight, owner, unseen, held⟩ := consistent.processes index other present'
    refine ⟨valid, fun running => ?_, fun running => ?_, unseen, held⟩
    · show (if _ then _ else _ : Key → Option Nat) _ = _
      split
      · next own =>
        have apart : other.event.key ≠ event.key := by
          intro same
          have mine : owned = some index := own.2.symm.trans (same ▸ inFlight running)
          rcases waits with ⟨-, whole⟩ | ⟨-, none⟩
          · exact others index other present' running (Option.some.inj (whole.symm.trans mine))
          · simp [none] at own
        rw [Function.update_of_ne apart, inFlight running]
      · exact inFlight running
    · obtain ⟨position, there⟩ := List.getElem?_of_mem (owner running)
      refine List.mem_of_getElem? ((List.getElem?_set_ne ?_).trans there)
      rintro rfl
      obtain ⟨-, rfl⟩ := HandlerCall.mk.inj (Option.some.inj (found.symm.trans there))
      rcases waits with ⟨same, -⟩ | ⟨same, -⟩
      · exact others index other present' running (CallStatus.owns.inj same).symm
      · cases same
  · exact fun key index flying => consistent.inFlight key index (flies key index flying)
  · intro other member
    rcases List.mem_or_eq_of_mem_set member with old | rfl
    · exact (consistent.calls other old).mono (fun key holds => holds)
        fun index process found => ⟨process, found, rfl⟩
    · refine ⟨fun _ _ => heldHere, fun index waiting => ?_⟩
      rcases waiting with same | same <;> cases same

/-- Every step keeps a consistent service consistent. -/
theorem step_consistent {label : Taken} (consistent : s.Consistent config)
    (taken : ServiceStep config s label t) : t.Consistent config := by
  obtain ⟨before, action⟩ := label
  cases steps_of_step taken.2 with
  | deliver event idle => exact consistent.handleEvent idle event
  | sweep now idle =>
    unfold Service.retryDeadLetters
    split
    · exact consistent
    · split
      · exact consistent
      · exact consistent.aside _ s.executed s.resolved
  | sweepNext event next idle => exact (consistent.handleEvent idle event).aside next _ _
  | sweepEnd => exact consistent.aside none s.executed s.resolved
  | sign process available now found idle => exact consistent.signed idle available now found
  | answer process outcome now found idle =>
    exact consistent.finished idle found (by simp) (conclusion_concluding ..)
  | write writes => exact consistent.write writes
  | settle call found idle ended waits => exact consistent.settle idle found ended waits
  | execute key => exact consistent.aside s.sweep (key :: s.executed) s.resolved
  | crash =>
    refine start_consistent s.executed s.resolved ?_
    rw [consistent.synced]
    exact consistent.nodup

end Service

end OnboardingBridge.Relayer
