import Mathlib.Order.Nat
import OnboardingBridge.Sdk.CachedClient

/-!
# Coherence after own mutations

When the confirmation of a mutation has deleted the cached values, the cache is empty,
and what is fetched from then on is from after the mutation. So only a read that was
in flight all the while can store a value from before it.

As long as none does, a read that starts later returns no value from before a mutation
that was settled.
-/

set_option autoImplicit false

namespace OnboardingBridge.Sdk

open Foundations

/-! ## Fresh values -/

/-- A read returns no value from before a mutation that was settled when the read started. -/
def FinishedRead.Fresh (finished : FinishedRead) : Prop :=
  ∀ fetched, finished.result = .ok fetched → ∀ state ∈ finished.since, state ≤ fetched.fetchedAt

/-- A read stores a value from before a mutation that is settled. -/
def StoresLate (label : Occurrence CachedClient ClientAction) : Prop :=
  ∃ index read since value fetchedAt, label.action = .resumeRead index ∧
    label.before.reads[index]? = some ⟨read, since, .simulated (.value value) fetchedAt⟩ ∧
      ∃ state ∈ label.before.settled, fetchedAt < state

/-! ## Invariant -/

/-- The ledger state that a read has its value from, which is not before the present one when it has
none yet. -/
def ReadPhase.fetchedAt (state : ℕ) : ReadPhase → ℕ
  | .checked (some cached) => cached.fetchedAt
  | .checked none => state
  | .simulating => state
  | .simulated _ fetchedAt => fetchedAt
  | .stored fetched => fetched.fetchedAt

def Read.Fresh (present : ℕ) (read : Read) : Prop :=
  ∀ state ∈ read.since, state ≤ read.phase.fetchedAt present

/-- Whether a mutation knows that its transaction was found. -/
def MutationPhase.decided : MutationPhase → Bool
  | .polled _ status => status ≠ .notFound
  | .settled => true
  | _ => false

structure Mutation.Sound (present : ℕ) (mutation : Mutation) : Prop where
  applied : ∀ state, mutation.fate = .applied state → state ≤ present
  decided : mutation.phase.decided = true → mutation.fate.status ≠ .notFound

structure CachedClient.Sound (s : CachedClient) : Prop where
  cached : ∀ entry ∈ s.cache.store, ∀ state ∈ s.settled, state ≤ entry.2.value.fetchedAt
  reads : ∀ read ∈ s.reads, read.Fresh s.state
  mutations : ∀ mutation ∈ s.mutations, mutation.Sound s.state
  finished : ∀ finished ∈ s.finished, finished.Fresh

/-! ## Parts -/

theorem Read.Fresh.mono {present later : ℕ} {read : Read} (fresh : read.Fresh present)
    (le : present ≤ later) : read.Fresh later := by
  intro state member
  refine (fresh state member).trans ?_
  obtain ⟨_, _, phase⟩ := read
  cases phase with
  | checked cached =>
    cases cached with
    | none => exact le
    | some cached => exact Nat.le_refl _
  | simulating => exact le
  | simulated result fetchedAt => exact Nat.le_refl _
  | stored fetched => exact Nat.le_refl _

theorem Mutation.Sound.mono {present later : ℕ} {mutation : Mutation}
    (sound : mutation.Sound present) (le : present ≤ later) : mutation.Sound later :=
  ⟨fun state applied => (sound.applied state applied).trans le, sound.decided⟩

theorem Mutation.settledAt_eq_some {mutation : Mutation} {state : ℕ} :
    mutation.settledAt = some state ↔ mutation = ⟨.settled, .applied state⟩ := by
  obtain ⟨phase, fate⟩ := mutation
  cases phase <;> cases fate <;> simp [Mutation.settledAt]

namespace CachedClient

variable {s t : CachedClient} {config : CachedClientConfig}

theorem Sound.settled_le (sound : s.Sound) {state : ℕ} (member : state ∈ s.settled) :
    state ≤ s.state := by
  obtain ⟨mutation, listed, settled⟩ := List.mem_filterMap.mp member
  obtain rfl := Mutation.settledAt_eq_some.mp settled
  exact (sound.mutations _ listed).applied state rfl

theorem mem_invalidate {keys : List CacheKey} {entry : CacheKey × CacheEntry Fetched} :
    entry ∈ (s.invalidate keys).cache.store ↔ entry ∈ s.cache.store ∧ entry.1 ∉ keys := by
  unfold invalidate
  generalize s.cache = cache
  induction keys generalizing cache with
  | nil => simp
  | cons key rest ih =>
      rw [List.foldl_cons, ih, InMemoryCache.mem_delete, List.mem_cons, not_or, and_assoc]

/-- A confirmation empties the cache. -/
theorem invalidate_cacheKeys : (s.invalidate cacheKeys).cache.store = [] := by
  refine List.eq_nil_iff_forall_not_mem.mpr fun entry member => (mem_invalidate.mp member).2 ?_
  cases entry.1 <;> decide

theorem Sound.invalidate (sound : s.Sound) (keys : List CacheKey) : (s.invalidate keys).Sound :=
  { sound with cached := fun entry member => sound.cached entry (mem_invalidate.mp member).1 }

/-- A mutation goes on, and when it is settled then it was before, or the cache is empty. -/
theorem Sound.mutate (sound : s.Sound) (index : ℕ) {mutation : Mutation}
    (kept : mutation.Sound s.state)
    (known : ∀ state, mutation.settledAt = some state → s.cache.store = []) :
    Sound { s with mutations := s.mutations.set index mutation } :=
  { sound with
    cached := fun entry member state settled => by
      obtain ⟨other, listed, settledAt⟩ := List.mem_filterMap.mp settled
      rcases List.mem_or_eq_of_mem_set listed with before | rfl
      · exact sound.cached entry member state (List.mem_filterMap.mpr ⟨other, before, settledAt⟩)
      · change entry ∈ s.cache.store at member
        rw [known state settledAt] at member
        cases member
    mutations := fun other listed => by
      rcases List.mem_or_eq_of_mem_set listed with before | rfl
      · exact sound.mutations other before
      · exact kept }

/-- A read goes on. -/
theorem Sound.advance (sound : s.Sound) (index : ℕ) {read : Read} (fresh : read.Fresh s.state) :
    Sound { s with reads := s.reads.set index read } :=
  { sound with
    reads := fun other listed => by
      rcases List.mem_or_eq_of_mem_set listed with before | rfl
      · exact sound.reads other before
      · exact fresh }

theorem Sound.finish (sound : s.Sound) (index : ℕ) {read : Read} {result : Except String Fetched}
    (fresh : FinishedRead.Fresh ⟨read.read, read.since, result⟩) :
    (s.finish index read result).Sound :=
  { sound with
    reads := fun other listed => sound.reads other (List.mem_of_mem_eraseIdx listed)
    finished := fun other listed => by
      rcases List.mem_append.mp listed with before | new
      · exact sound.finished other before
      · obtain rfl := List.mem_singleton.mp new
        exact fresh }

/-- The ledger goes on. -/
theorem Sound.later (sound : s.Sound) (views : String → SimulationResult) :
    Sound { s with state := s.state + 1, views := views } :=
  { sound with
    reads := fun read member => (sound.reads read member).mono (Nat.le_succ _)
    mutations := fun mutation member => (sound.mutations mutation member).mono (Nat.le_succ _) }

/-! ## Steps -/

/-- What a read keeps when it goes on, unless it stores a value late. -/
theorem Sound.resumeRead (sound : s.Sound) {index : ℕ} {read : Read}
    (found : s.reads[index]? = some read) (early : ¬ StoresLate ⟨s, .resumeRead index⟩)
    (taken : s.resumeRead config index read = some t) : t.Sound := by
  have fresh := sound.reads read (List.mem_of_getElem? found)
  obtain ⟨read, since, phase⟩ := read
  cases phase with
  | checked cached =>
    cases cached with
    | none =>
      obtain rfl := Option.some.inj taken
      exact sound.advance index fresh
    | some cached =>
      obtain rfl := Option.some.inj taken
      refine sound.finish index fun fetched returned => ?_
      obtain rfl := Except.ok.inj returned
      exact fresh
  | simulating => cases taken
  | simulated result fetchedAt =>
    cases result with
    | error text =>
      obtain rfl := Option.some.inj taken
      exact sound.finish index fun fetched returned => by cases returned
    | nothing =>
      obtain rfl := Option.some.inj taken
      exact sound.finish index fun fetched returned => by cases returned
    | value value =>
      obtain rfl := Option.some.inj taken
      have stored : Read.Fresh s.state ⟨read, since, .stored ⟨value, fetchedAt⟩⟩ := fresh
      refine { sound.advance index stored with
        cached := fun entry member state settled => ?_ }
      rcases InMemoryCache.mem_set member with before | stored
      · exact sound.cached entry before state settled
      · rw [stored]
        by_contra late
        exact early ⟨index, read, since, value, fetchedAt, rfl, found, state, settled,
          Nat.lt_of_not_le late⟩
  | stored fetched =>
    obtain rfl := Option.some.inj taken
    refine sound.finish index fun other returned => ?_
    obtain rfl := Except.ok.inj returned
    exact fresh

theorem Sound.resumeMutation (sound : s.Sound) {index : ℕ} {mutation : Mutation}
    (found : s.mutations[index]? = some mutation)
    (taken : s.resumeMutation config index mutation = some t) : t.Sound := by
  have kept := sound.mutations mutation (List.mem_of_getElem? found)
  obtain ⟨phase, fate⟩ := mutation
  cases phase with
  | sent status =>
    cases status with
    | pending =>
      obtain rfl := Option.some.inj taken
      exact (sound.invalidate cacheKeys).mutate index ⟨kept.applied, nofun⟩ nofun
    | duplicate =>
      obtain rfl := Option.some.inj taken
      exact sound.mutate index ⟨kept.applied, nofun⟩ nofun
    | tryAgainLater =>
      obtain rfl := Option.some.inj taken
      exact sound.mutate index ⟨kept.applied, nofun⟩ nofun
    | error =>
      obtain rfl := Option.some.inj taken
      exact sound.mutate index ⟨kept.applied, nofun⟩ nofun
  | polled attempts status =>
    cases status with
    | notFound =>
      simp only [CachedClient.resumeMutation] at taken
      split at taken
      · obtain rfl := Option.some.inj taken
        exact sound.mutate index ⟨kept.applied, nofun⟩ nofun
      · obtain rfl := Option.some.inj taken
        exact sound.mutate index ⟨kept.applied, nofun⟩ nofun
    | success =>
      obtain rfl := Option.some.inj taken
      exact (sound.invalidate cacheKeys).mutate index ⟨kept.applied, fun _ => kept.decided rfl⟩
        fun _ _ => invalidate_cacheKeys
    | failed =>
      obtain rfl := Option.some.inj taken
      exact (sound.invalidate cacheKeys).mutate index ⟨kept.applied, fun _ => kept.decided rfl⟩
        fun _ _ => invalidate_cacheKeys
  | sleeping attempts =>
    obtain rfl := Option.some.inj taken
    exact sound.mutate index ⟨kept.applied, nofun⟩ nofun
  | preparing => cases taken
  | sending => cases taken
  | confirming attempts => cases taken
  | stopped => cases taken
  | settled => cases taken

/-- What a step keeps, unless a read stores a value late. -/
theorem step_sound {action : ClientAction} (sound : s.Sound)
    (early : ¬ StoresLate ⟨s, action⟩) (taken : s.step config action = some t) : t.Sound := by
  cases action with
  | elapse ms =>
    obtain rfl := Option.some.inj taken
    exact { sound with }
  | startRead read =>
    obtain rfl := Option.some.inj taken
    obtain ⟨fewer, got⟩ := s.cache.get_spec s.now read.cacheKey
    refine { sound with
      cached := fun entry member => sound.cached entry (fewer member)
      reads := fun other listed => ?_ }
    rcases List.mem_append.mp listed with before | new
    · exact sound.reads other before
    · obtain rfl := List.mem_singleton.mp new
      intro state settled
      cases cached : (s.cache.get s.now read.cacheKey).1 with
      | none =>
        exact sound.settled_le settled
      | some value =>
        obtain ⟨entry, member, -, rfl⟩ := got value cached
        exact sound.cached entry member state settled
  | simulate index =>
    simp only [step] at taken
    split at taken
    · next read since found =>
      obtain rfl := Option.some.inj taken
      have fresh := sound.reads _ (List.mem_of_getElem? found)
      exact sound.advance index fresh
    · cases taken
  | failRead index message =>
    simp only [step] at taken
    split at taken
    · obtain rfl := Option.some.inj taken
      exact sound.finish index fun fetched returned => by cases returned
    · obtain rfl := Option.some.inj taken
      exact sound.finish index fun fetched returned => by cases returned
    · cases taken
  | resumeRead index =>
    obtain ⟨read, found, taken⟩ := Option.bind_eq_some_iff.mp taken
    exact sound.resumeRead found early taken
  | startMutation =>
    obtain rfl := Option.some.inj taken
    refine { sound with
      cached := fun entry member state settled => ?_
      mutations := fun other listed => ?_ }
    · obtain ⟨mutation, listed, settledAt⟩ := List.mem_filterMap.mp settled
      rcases List.mem_append.mp listed with before | new
      · exact sound.cached entry member state (List.mem_filterMap.mpr ⟨_, before, settledAt⟩)
      · obtain rfl := List.mem_singleton.mp new
        cases settledAt
    · rcases List.mem_append.mp listed with before | new
      · exact sound.mutations other before
      · obtain rfl := List.mem_singleton.mp new
        exact ⟨nofun, nofun⟩
  | send index =>
    simp only [step] at taken
    split at taken
    · next fate found =>
      obtain rfl := Option.some.inj taken
      have kept := sound.mutations _ (List.mem_of_getElem? found)
      exact sound.mutate index ⟨kept.applied, nofun⟩ nofun
    · cases taken
  | accept index =>
    simp only [step] at taken
    split at taken
    · next phase found =>
      split at taken
      · cases taken
      · obtain rfl := Option.some.inj taken
        have kept := sound.mutations _ (List.mem_of_getElem? found)
        refine sound.mutate index ⟨nofun, fun decided => absurd rfl (kept.decided decided)⟩ ?_
        intro state settled
        cases Mutation.settledAt_eq_some.mp settled
    · cases taken
  | respond index status =>
    simp only [step] at taken
    split at taken
    · next fate found =>
      split at taken
      · cases taken
      · obtain rfl := Option.some.inj taken
        have kept := sound.mutations _ (List.mem_of_getElem? found)
        exact sound.mutate index ⟨kept.applied, nofun⟩ nofun
    · cases taken
  | lookUp index =>
    simp only [step] at taken
    split at taken
    · next attempts fate found =>
      obtain rfl := Option.some.inj taken
      have kept := sound.mutations _ (List.mem_of_getElem? found)
      exact sound.mutate index ⟨kept.applied, fun decided => of_decide_eq_true decided⟩ nofun
    · cases taken
  | failMutation index =>
    simp only [step] at taken
    split at taken
    · next phase fate found =>
      split at taken
      · obtain rfl := Option.some.inj taken
        have kept := sound.mutations _ (List.mem_of_getElem? found)
        exact sound.mutate index ⟨kept.applied, nofun⟩ nofun
      · cases taken
    · cases taken
  | resumeMutation index =>
    obtain ⟨mutation, found, taken⟩ := Option.bind_eq_some_iff.mp taken
    exact sound.resumeMutation found taken
  | apply index views =>
    simp only [step] at taken
    split at taken
    · next phase found =>
      obtain rfl := Option.some.inj taken
      have kept := sound.mutations _ (List.mem_of_getElem? found)
      refine (sound.later views).mutate index ⟨fun state applied => ?_, fun decided => ?_⟩ ?_
      · obtain rfl := Fate.applied.inj applied
        exact Nat.le_refl _
      · exact absurd rfl (kept.decided decided)
      · intro state settled
        obtain ⟨rfl, -⟩ := Mutation.mk.inj (Mutation.settledAt_eq_some.mp settled)
        exact absurd rfl (kept.decided rfl)
    · cases taken
  | applyFailed index =>
    simp only [step] at taken
    split at taken
    · next phase found =>
      obtain rfl := Option.some.inj taken
      refine sound.mutate index ⟨nofun, nofun⟩ ?_
      intro state settled
      cases Mutation.settledAt_eq_some.mp settled
    · cases taken
  | change views =>
    obtain rfl := Option.some.inj taken
    exact sound.later views
  | invalidateCache keys =>
    cases keys with
    | none =>
      obtain rfl := Option.some.inj taken
      exact { sound with cached := fun entry member => by cases member }
    | some keys =>
      obtain rfl := Option.some.inj taken
      exact sound.invalidate keys

theorem create_sound (options : InMemoryCacheOptions) (now : Int) (state : ℕ)
    (views : String → SimulationResult) : (create options now state views).Sound where
  cached := fun entry member => by cases member
  reads := fun read member => by cases member
  mutations := fun mutation member => by cases member
  finished := fun finished member => by cases member

end CachedClient

/-! ## Runs -/

/-- In a run in which no read stores a value from before a mutation that is settled, no read returns
a value from before a mutation that was settled when the read started. -/
theorem reads_coherent {config : CachedClientConfig} {options : InMemoryCacheOptions} {now : Int}
    {state : ℕ} {views : String → SimulationResult}
    {labels : List (Occurrence CachedClient ClientAction)} {t : CachedClient}
    (run : Run (Occurs (CachedClient.step config)) (.create options now state views) labels t)
    (early : ∀ label ∈ labels, ¬ StoresLate label) :
    ∀ finished ∈ t.finished, finished.Fresh := by
  have keeps : ∀ ⦃s t action⦄, s.Sound → ¬ StoresLate ⟨s, action⟩ →
      s.step config action = some t → t.Sound :=
    fun _ _ _ sound early taken => CachedClient.step_sound sound early taken
  exact (run.kept keeps early (CachedClient.create_sound ..)).finished

namespace Rehearsal

/-- The views of a contract with some fee. -/
def viewsWith (feeBps : ℕ) : String → SimulationResult := fun method =>
  if method = "query_fee_bps" then .value (.number feeBps)
  else if method = "query_is_initialized" then .value (.flag true)
  else .value (.address "GAAAAAAAAAAAAAAAAAAAAAAAAAAAAAAAAAAAAAAAAAAAAAAAAAAAC6PV")

def clientConfig : CachedClientConfig := ⟨none, fun key => some (defaultTtlMs key)⟩

def client : CachedClient := .create ⟨none, none⟩ 0 0 (viewsWith 100)

/-- The fee is set, and the confirmation deletes the cached values. -/
def settingFee : List ClientAction := [
  .startMutation, .send 0, .accept 0, .respond 0 .pending, .resumeMutation 0,
  .apply 0 (viewsWith 200), .lookUp 0, .resumeMutation 0]

/-- The fee is read from the contract. -/
def fetchingFee : List ClientAction := [
  .startRead getFee, .resumeRead 0, .simulate 0, .resumeRead 0, .resumeRead 0]

/-- A read is under way while the fee is set, and another one comes later. -/
def readingAcross : List ClientAction :=
  [.startRead getFee, .resumeRead 0, .simulate 0] ++ settingFee ++
    [.resumeRead 0, .resumeRead 0, .startRead getFee, .resumeRead 0]

end Rehearsal

open Rehearsal in
theorem reads_coherent_rehearsed :
    ∃ t, perform (CachedClient.step clientConfig) client
        (fetchingFee ++ settingFee ++ fetchingFee) = some t ∧
      (∃ finished ∈ t.finished, finished.since = [1]) ∧
        ∀ finished ∈ t.finished, finished.Fresh := by
  obtain ⟨t, performed, later⟩ := perform_any
    (p := fun t => t.finished.any fun finished => finished.since = [1])
    (by decide +kernel : (perform (CachedClient.step clientConfig) client
      (fetchingFee ++ settingFee ++ fetchingFee)).any _ = true)
  have prompt : ∀ label ∈ history (CachedClient.step clientConfig) client
      (fetchingFee ++ settingFee ++ fetchingFee), (match label.action with
        | .resumeRead index => label.before.reads[index]?.all fun read => match read.phase with
            | .simulated _ fetchedAt => label.before.settled.all fun state => state ≤ fetchedAt
            | _ => true
        | _ => true) = true := by
    decide +kernel
  obtain ⟨finished, member, since⟩ := List.any_eq_true.mp later
  refine ⟨t, performed, ⟨finished, member, of_decide_eq_true since⟩,
    reads_coherent (perform_run performed) ?_⟩
  rintro label member ⟨index, read, since, value, fetchedAt, resumes, found, state, settled, late⟩
  have stored := prompt label member
  simp only [resumes, found, Option.all_some] at stored
  exact Nat.not_le_of_lt late (of_decide_eq_true (List.all_eq_true.mp stored state settled))

/-- A read that was simulated before the fee was set stores the old fee after the confirmation, and a
later read returns it. -/
theorem read_across_confirmation_is_stale :
    ¬ ∀ (labels : List (Occurrence CachedClient ClientAction)) (t : CachedClient),
      Run (Occurs (CachedClient.step Rehearsal.clientConfig)) Rehearsal.client labels t →
        ∀ finished ∈ t.finished, finished.Fresh := by
  intro fresh
  obtain ⟨t, performed, stale⟩ := perform_any
    (p := fun t => t.finished.any fun finished => match finished.result with
      | .ok fetched => decide (finished.since = [1] ∧ fetched.fetchedAt = 0)
      | .error _ => false)
    (by decide +kernel : (perform (CachedClient.step Rehearsal.clientConfig) Rehearsal.client
      Rehearsal.readingAcross).any _ = true)
  obtain ⟨finished, member, facts⟩ := List.any_eq_true.mp stale
  cases returned : finished.result with
  | error message => simp [returned] at facts
  | ok fetched =>
    simp only [returned, decide_eq_true_eq] at facts
    have late := fresh _ t (perform_run performed) finished member fetched returned 1
      (facts.1 ▸ List.mem_cons_self)
    rw [facts.2] at late
    cases late

end OnboardingBridge.Sdk
