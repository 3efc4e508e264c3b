import OnboardingBridge.Contract.Nonces
import OnboardingBridge.Contract.Roles
import OnboardingBridge.Contract.Commitments
import OnboardingBridge.Contract.Timelocks
import OnboardingBridge.Contract.MetaTransactions

/-!
# Who may do what

Every entry point asks the host for the authorisation of one party: an address the call
names, the holder of a role, the address proposed for a role, the source of a commitment or
the target of a timelocked deposit. A few ask for none, and check signatures or only extend
a lifetime. `Request.authority` is the table of these parties, and a successful call has
the agreement of its party (`execute_agreed`).

From the table and the footprints follows what a whole run cannot change: without the
admin in office and the addresses proposed for the roles, the configuration
(`governance_untouched`), and without a user, what the contract stores for the user
(`user_untouched`).
-/

set_option autoImplicit false

namespace OnboardingBridge.Contract

open Foundations Foundations.Tx

/-! ## The table -/

/-- The party whose authorisation a call asks for. -/
inductive Authority where
  | anyone
  | named (address : Address)
  | holds (role : Role)
  | proposed (role : Role)
  | committer (commitmentId : UInt64)
  | beneficiary (timelockId : UInt64)

/-- The address of a party in a world. -/
def Authority.address? (w : World) : Authority → Option Address
  | .anyone => none
  | .named address => some address
  | .holds role => w.holder role
  | .proposed role => w.pending role
  | .committer id => (w.store (.commitment id)).map CommitmentEntry.source
  | .beneficiary id => (w.store (.timelock id)).map TimelockEntry.target

/-- The party, where there is one, authorised the call. -/
def Authority.Agrees (env : Env) (w : World) (authority : Authority) : Prop :=
  authority = .anyone ∨
    ∃ address, authority.address? w = some address ∧ env.authorizes address = true

/-- The party that each entry point asks. -/
def Request.authority : Request → Authority
  | .initializeContract admin .. | .initializeWithWasmHash admin .. => .named admin
  | .fundCAddress source .. | .batchFundCAddress source .. | .fundCAddressWithReferral source ..
  | .fundCAddressTimelocked source .. | .fundCAddressWithSwap source .. | .commitFund source ..
  | .revealFund _ source .. | .verifyAuthEntry source .. | .registerMetaSigner source _
  | .unregisterMetaSigner source => .named source
  | .withdrawFees .. => .holds .feeCollector
  | .acceptAdmin => .proposed .admin
  | .acceptFeeCollector => .proposed .feeCollector
  | .cancelCommitment id => .committer id
  | .claimTimelocked id => .beneficiary id
  | .fundCAddressCrosschain .. | .executeMetaFund .. | .extendTimelockTtl ..
  | .extendCommitmentTtl .. | .extendRelayerTtl .. => .anyone
  | _ => .holds .admin

/-- The source of a meta-transaction. -/
def Request.metaSource? : Request → Option Address
  | .executeMetaFund params _ _ => some params.source
  | _ => none

/-! ## Calls that ask a named address -/

theorem requireAuth_asks (env : Env) (address : Address) :
    Requires (fun _ => env.authorizes address = true) (requireAuth env address) := by
  intro w _ w' ran
  rw [requireAuth, run_rejectIf_ok, Bool.not_eq_false] at ran
  exact ran.1

/-- It does not matter what comes before the authorisation. -/
theorem asks_after {env : Env} {address : Address} {α β : Type} {body : Call α}
    {rest : α → Call β} (next : ∀ a, Requires (fun _ => env.authorizes address = true) (rest a)) :
    Requires (fun _ => env.authorizes address = true) (body >>= rest) :=
  .after (fun _ _ _ _ agreed => agreed) next

theorem nonReentrant_asks {env : Env} {address : Address} {α : Type} {body : Call α}
    (inner : Requires (fun _ => env.authorizes address = true) body) :
    Requires (fun _ => env.authorizes address = true) (nonReentrant body) :=
  asks_after fun _ => asks_after fun _ => asks_after fun _ => inner.bind

theorem replying_named {env : Env} {address : Address} {α : Type} {body : Call α}
    {reply : α → Reply} (asks : Requires (fun _ => env.authorizes address = true) body) :
    Requires ((Authority.named address).Agrees env) (replying body reply) := by
  intro w _ w' ran
  obtain ⟨_, ran, -⟩ := replying_ok.mp ran
  exact .inr ⟨address, rfl, asks ran⟩

/-! ## Calls that ask the admin -/

theorem nonReentrant_asked {env : Env} {α : Type} {body : Call α}
    (inner : Requires (AdminAsked env) body) : Requires (AdminAsked env) (nonReentrant body) := by
  refine adminAsked_after (.read _) fun _ => adminAsked_after (.rejectIf _ _) fun _ => ?_
  exact adminAsked_after (save_touches _ (by simp)) fun _ => inner.bind

/-- The admin is read and asked. -/
theorem readAdmin_asked {env : Env} {α : Type} {rest : Address → Unit → Call α} :
    Requires (AdminAsked env) (readAdmin >>= fun admin => requireAuth env admin >>= rest admin) := by
  intro w a w' ran
  obtain ⟨admin, holder, ran⟩ := (run_view_bind_ok readAdmin_ok).mp ran
  exact ⟨admin, holder, (requireAuth_bind_ok.mp ran).1⟩

theorem replying_asked {env : Env} {α : Type} {body : Call α} {reply : α → Reply}
    (asked : Requires (AdminAsked env) body) :
    Requires ((Authority.holds .admin).Agrees env) (replying body reply) := by
  intro w _ w' ran
  obtain ⟨_, ran, -⟩ := replying_ok.mp ran
  exact .inr (asked ran)

/-! ## Every call -/

theorem withdrawFees_asked {env : Env} {asset : Address} {amount : I128} {nonce : Option UInt64}
    {w w' : World} {u : Unit} (ran : (withdrawFees env asset amount nonce).run w = .ok (u, w')) :
    ∃ feeCollector, w.holder .feeCollector = some feeCollector ∧
      env.authorizes feeCollector = true := by
  obtain ⟨_, -, ran⟩ := (run_view_bind_ok checkInitialized_ok).mp ran
  obtain ⟨_, -, ran⟩ := (run_view_bind_ok checkRecoveryAllowed_ok).mp ran
  obtain ⟨feeCollector, holder, ran⟩ := (run_view_bind_ok readFeeCollector_ok).mp ran
  exact ⟨feeCollector, holder, (requireAuth_bind_ok.mp ran).1⟩

/-- A successful call has the agreement of its party. -/
theorem execute_agreed (env : Env) (request : Request) :
    Requires (request.authority.Agrees env) (execute env request) := by
  cases request
  case fundCAddressCrosschain | executeMetaFund | extendTimelockTtl | extendCommitmentTtl |
      extendRelayerTtl => exact fun _ _ _ _ => .inl rfl
  case verifyAuthEntry =>
    exact replying_named (asks_after fun _ => asks_after fun _ => (requireAuth_asks ..).bind)
  case initializeContract | initializeWithWasmHash | fundCAddress | batchFundCAddress |
      fundCAddressWithReferral | fundCAddressTimelocked | fundCAddressWithSwap | commitFund |
      revealFund | registerMetaSigner | unregisterMetaSigner =>
    refine replying_named (nonReentrant_asks ?_)
    repeat first
      | with_reducible exact (requireAuth_asks ..).bind
      | with_reducible refine asks_after fun _ => ?_
  case withdrawFees =>
    intro w _ w' ran
    obtain ⟨_, ran, -⟩ := replying_ok.mp ran
    exact .inr (withdrawFees_asked ran)
  case acceptAdmin =>
    intro w _ w' ran
    have accepts : Request.acceptAdmin.accepts .admin = true := rfl
    obtain ⟨address, acceptance⟩ := execute_accepts accepts ran
    exact .inr ⟨address, acceptance.proposed, acceptance.authorized⟩
  case acceptFeeCollector =>
    intro w _ w' ran
    have accepts : Request.acceptFeeCollector.accepts .feeCollector = true := rfl
    obtain ⟨address, acceptance⟩ := execute_accepts accepts ran
    exact .inr ⟨address, acceptance.proposed, acceptance.authorized⟩
  case cancelCommitment =>
    intro w _ w' ran
    obtain ⟨_, ran, -⟩ := replying_ok.mp ran
    obtain ⟨entry, stored, -, authorized, -⟩ := cancelCommitment_stores ran
    exact .inr ⟨entry.source, congrArg (Option.map _) stored, authorized⟩
  case claimTimelocked =>
    intro w _ w' ran
    obtain ⟨_, ran, -⟩ := replying_ok.mp ran
    obtain ⟨-, -, -, entry, stored, -, -, authorized, -⟩ := claimTimelocked_ok.mp ran
    exact .inr ⟨entry.target, congrArg (Option.map _) stored, authorized⟩
  case fundCrosschainReserve | withdrawCrosschainReserve =>
    refine replying_asked (nonReentrant_asked ?_)
    repeat first
      | with_reducible exact readAdmin_asked
      | refine adminAsked_after ?_ fun _ => ?_; focus simp
  case emergencyMigrate =>
    exact replying_asked (adminAsked_after checkInitialized_touches fun _ => readAdmin_asked)
  case setFeeCollector | proposeNewFeeCollector | setAdmin | proposeNewAdmin | clearPendingAdmin |
      clearPendingFeeCollector | reclaimTokens | addAsset | removeAsset | addSwapPool |
      removeSwapPool | scheduleUpgrade | cancelUpgrade | addRelayer =>
    refine replying_asked (nonReentrant_asked ?_)
    repeat first
      | with_reducible exact (authorizeAdmin_asked ..).bind
      | refine adminAsked_after ?_ fun _ => ?_; focus simp
  all_goals
    refine replying_asked ?_
    repeat first
      | with_reducible exact (authorizeAdmin_asked ..).bind
      | refine adminAsked_after ?_ fun _ => ?_; focus simp

/-! ## Without the admin -/

/-- Whether a key holds a part of the configuration, and not a record of what was done. -/
abbrev DataKey.isGoverned : DataKey → Bool
  | .nonce _ | .assetStats _ | .crossChainNonce _ | .dailyUsage .. | .sourceBridgedVolume ..
  | .timelockId | .timelock _ | .userDeposit .. | .authNonce _ | .usedAuthNonce .. | .entered
  | .commitmentId | .commitment _ | .metaTxNonce .. | .metaSigner _ | .crossChainReserve _ => false
  | _ => true

/-- The requests that only the admin, or whoever is to take a role over, may make, and the
initialisation. -/
def Request.governs (request : Request) : Bool :=
  request.initializes || match request.authority with
    | .holds .admin | .proposed _ => true
    | _ => false

/-- The keys outside the configuration. -/
def otherThanGoverned : Set DataKey := {key | key.isGoverned = false}

@[simp] theorem mem_otherThanGoverned {key : DataKey} :
    key ∈ otherThanGoverned ↔ key.isGoverned = false := Iff.rfl

/-- The other requests write no part of the configuration. -/
theorem Request.writes_otherThanGoverned {request : Request} (plain : request.governs = false) :
    request.writes ⊆ otherThanGoverned := by
  cases request
  all_goals first | cases plain; done | skip
  all_goals
    simp [Request.writes, dailyUsages, Set.insert_subset_iff, Set.union_subset_iff,
      Set.range_subset_iff]

/-- The admin in office and the addresses proposed for a role. -/
def World.Governs (w : World) (address : Address) : Prop :=
  w.holder .admin = some address ∨ ∃ role, w.pending role = some address

/-- The same configuration, and the same code. -/
structure SameGovernance (w w' : World) : Prop where
  store : ∀ key, key.isGoverned = true → w'.store key = w.store key
  wasm : w'.wasm = w.wasm

namespace SameGovernance

variable {w w' w'' : World}

theorem trans (first : SameGovernance w w') (second : SameGovernance w' w'') :
    SameGovernance w w'' where
  store key governed := (second.store key governed).trans (first.store key governed)
  wasm := second.wasm.trans first.wasm

theorem governs (same : SameGovernance w w') (address : Address) :
    w'.Governs address ↔ w.Governs address := by
  have settings : w'.settings = w.settings :=
    World.settings_congr (same.store _ rfl) (same.store _ rfl) (same.store _ rfl)
      (same.store _ rfl)
  have holder : w'.holder .admin = w.holder .admin := congrArg (Settings.holder · .admin) settings
  have pending (role : Role) : w'.pending role = w.pending role := by
    cases role with
    | admin => exact same.store .pendingAdmin rfl
    | feeCollector => exact same.store .pendingFeeCollector rfl
  simp only [World.Governs, holder, pending]

theorem initialized (same : SameGovernance w w') : w'.initialized = w.initialized :=
  congrArg Option.isSome (same.store .initialized rfl)

end SameGovernance

/-- A call of an opened contract that none of those in charge authorises is none of theirs. -/
theorem execute_ungoverned {env : Env} {request : Request} {reply : Reply} {w w' : World}
    (ran : (execute env request).run w = .ok (reply, w')) (opened : w.initialized = true)
    (silent : ∀ address, w.Governs address → env.authorizes address = false) :
    request.governs = false := by
  have later : request.initializes = false := by
    have admitted := (execute_admitted env request ran).initialized
    simpa [opened] using admitted
  rw [Request.governs, later, Bool.false_or]
  rcases execute_agreed env request ran with anyone | ⟨address, party, agreed⟩
  · rw [anyone]
  · have outside : ¬ w.Governs address := fun inside => by
      simp [silent address inside] at agreed
    split
    · next asked =>
      rw [asked] at party
      exact absurd (.inl party) outside
    · next role asked =>
      rw [asked] at party
      exact absurd (.inr ⟨role, party⟩) outside
    · rfl

theorem Step.governance {host : Host} {w w' : World} {label : Label} (taken : Step host w label w')
    (opened : w.initialized = true)
    (silent : ∀ call, label = .success call → ∀ address, w.Governs address →
      call.env.authorizes address = false) :
    SameGovernance w w' ∧ ∀ call, label = .success call → call.request.governs = false := by
  cases taken with
  | @success call _ ran =>
    have plain := execute_ungoverned ran opened (silent call rfl)
    have frame := (execute_frame _ _ ran).widen (Request.writes_otherThanGoverned plain)
    refine ⟨⟨fun key governed => frame.store key (by simp [governed]), frame.wasm (by simp)⟩, ?_⟩
    rintro other same
    obtain rfl := Label.success.inj same
    exact plain
  | failure => exact ⟨⟨fun _ _ => rfl, rfl⟩, fun _ same => by cases same⟩
  | external => exact ⟨⟨fun _ _ => rfl, rfl⟩, fun _ same => by cases same⟩

/-- In a run of an opened contract in which no successful call is authorised by the admin in
office or by an address that was proposed for a role, the configuration stays as it is,
entry by entry, and so does the code; and no call of the run is an administrative one. -/
theorem governance_untouched {host : Host} {w w' : World} {labels : List Label}
    (opened : w.initialized = true) (run : Run (Step host) w labels w')
    (silent : ∀ call, .success call ∈ labels → ∀ address, w.Governs address →
      call.env.authorizes address = false) :
    (∀ key, key.isGoverned = true → w'.store key = w.store key) ∧ w'.wasm = w.wasm ∧
      ∀ call, .success call ∈ labels → call.request.governs = false := by
  induction run with
  | nil => exact ⟨fun _ _ => rfl, rfl, by simp⟩
  | @cons s t u label rest taken _ ih =>
    obtain ⟨same, here⟩ := taken.governance opened fun call first =>
      silent call (first ▸ List.mem_cons_self)
    have stillSilent : ∀ call, .success call ∈ rest → ∀ address, t.Governs address →
        call.env.authorizes address = false := by
      intro call member address inside
      exact silent call (List.mem_cons_of_mem _ member) address ((same.governs address).mp inside)
    obtain ⟨store, wasm, later⟩ := ih (same.initialized.trans opened) stillSilent
    refine ⟨fun key governed => ?_, wasm.trans same.wasm, fun call member => ?_⟩
    · exact (store key governed).trans (same.store key governed)
    · rcases List.mem_cons.mp member with first | member
      · exact here call first.symm
      · exact later call member

namespace Rehearsal

/-- The admin opens the contract for an asset. -/
def listing : List (UInt64 × Request) := [
  (0, .initializeContract (address 1) (address 2) 100 none), (0, .addAsset (address 3) none)]

/-- A call that one address authorises. -/
def onlyBy (n : Nat) : Env where
  __ := env 0
  authorizes caller := decide (caller = address n)
  self_unauthorized := rfl

/-- A user funds an address. -/
def fundedByUser : List (Env × Request) := [
  (onlyBy 5, .fundCAddress (address 5) (address 6) (address 3) (amount 1000 thousand_small) none
    none)]

theorem fundedByUser_run {w : World}
    (success : ∀ call ∈ rehearse w fundedByUser, succeeds call.env call.request call.before = true) :
    Run (Step host) w ((rehearse w fundedByUser).map .success) (rehearsed w fundedByUser) := by
  refine rehearse_run ?_ success
  intro call member
  obtain rfl := List.mem_singleton.mp member
  rfl

theorem fundedByUser_made {w : World} {call : Success}
    (member : .success call ∈ (rehearse w fundedByUser).map Label.success) :
    call.env = onlyBy 5 ∧ call.request.metaSource? = none := by
  obtain ⟨call', rehearsed, same⟩ := List.mem_map.mp member
  obtain rfl := Label.success.inj same
  obtain ⟨env, request⟩ := Prod.mk.inj (List.mem_singleton.mp (mem_rehearse rehearsed))
  exact ⟨env, by rw [request]; rfl⟩

end Rehearsal

/-- A user funds an address while nobody in charge agrees to anything. -/
theorem governance_untouched_rehearsed :
    let w := Rehearsal.outcome Rehearsal.listing
    let w' := rehearsed w Rehearsal.fundedByUser
    w'.store .relayerThreshold = w.store .relayerThreshold ∧ w'.wasm = w.wasm := by
  intro w w'
  have run := @Rehearsal.fundedByUser_run w (by decide +kernel)
  have inCharge (address : Address) (inside : w.Governs address) : address = Rehearsal.address 1 := by
    have admin : w.holder .admin = some (Rehearsal.address 1) := by decide +kernel
    have idle (role : Role) : w.pending role = none := by
      cases role with
      | admin => decide +kernel
      | feeCollector => decide +kernel
    rcases inside with office | ⟨role, waits⟩
    · exact Option.some.inj (office.symm.trans admin)
    · rw [idle role] at waits
      cases waits
  have kept := governance_untouched (by decide +kernel) run (fun call member address inside => by
    rw [(Rehearsal.fundedByUser_made member).1, inCharge address inside]
    decide)
  exact ⟨kept.1 .relayerThreshold rfl, kept.2.1⟩

/-! ## Without the user -/

/-- The user whom a key is about. -/
abbrev DataKey.owner? : DataKey → Option Address
  | .authNonce user | .usedAuthNonce user _ | .metaSigner user | .metaTxNonce user _
  | .userDeposit user _ | .dailyUsage user _ _ | .sourceBridgedVolume user _ => some user
  | _ => none

/-- The keys that are not about a user. -/
def otherThanOwned (user : Address) : Set DataKey := {key | key.owner? ≠ some user}

@[simp] theorem mem_otherThanOwned {key : DataKey} {user : Address} :
    key ∈ otherThanOwned user ↔ key.owner? ≠ some user := Iff.rfl

/-- What is about a user is written in calls of the user, and for meta-transactions. -/
theorem Request.writes_otherThanOwned {request : Request} {user : Address}
    (unnamed : request.authority ≠ .named user) (unsigned : request.metaSource? ≠ some user) :
    request.writes ⊆ otherThanOwned user := by
  cases request
  all_goals
    simp only [Request.authority, Request.metaSource?, ne_eq, Authority.named.injEq,
      Option.some.injEq, reduceCtorEq, not_false_eq_true] at unnamed unsigned
    simp [Request.writes, dailyUsages, Set.insert_subset_iff, Set.union_subset_iff,
      Set.range_subset_iff, unnamed, unsigned]

/-! ### Whose tokens a call moves -/

/-- Whom a token call takes tokens from. -/
def TokenCall.payer : TokenCall → Address
  | .transfer _ src _ _ | .transferFrom _ _ src _ _ => src

/-- The token calls between the two worlds take from the given payers. -/
def DrawsFrom (payers : Set Address) (w w' : World) : Prop :=
  ∃ calls, w'.invocations = w.invocations ++ calls ∧ ∀ call ∈ calls, call.payer ∈ payers

instance drawsFromPreorder (payers : Set Address) : IsPreorder World (DrawsFrom payers) where
  refl _ := ⟨[], by simp, by simp⟩
  trans _ _ _ := by
    rintro ⟨calls, made, drawn⟩ ⟨calls', made', drawn'⟩
    refine ⟨calls ++ calls', by rw [made', made, List.append_assoc], ?_⟩
    exact fun call member => (List.mem_append.mp member).elim (drawn call) (drawn' call)

/-- The successful runs of a part of a call take from the given payers only. -/
abbrev Draws (payers : Set Address) {α : Type} (body : Call α) : Prop :=
  Preserves (DrawsFrom payers) body

section Draws

variable {payers : Set Address} {env : Env}

theorem still_draws {α : Type} {body : Call α} (touches : Touches Set.univ False body) :
    Draws payers body :=
  touches.mono fun _ _ frame => ⟨[], by simp [frame.invocations], by simp⟩

theorem publish_draws (event : Event) : Draws payers (publish event) :=
  .modify fun _ => ⟨[], by simp, by simp⟩

theorem transfer_draws {asset src dst : Address} {amount : I128} (pays : src ∈ payers) :
    Draws payers (transfer env asset src dst amount) := by
  intro w _ w' ran
  obtain ⟨moved, -, rfl⟩ := transfer_ok ran
  exact ⟨[_], rfl, by simpa [TokenCall.payer] using pays⟩

theorem transferFrom_draws {asset src dst : Address} {amount : I128} (pays : src ∈ payers) :
    Draws payers (transferFrom env asset src dst amount) := by
  intro w _ w' ran
  obtain ⟨_, moved, -, -, -, rfl⟩ := transferFrom_ok ran
  exact ⟨[_], rfl, by simpa [TokenCall.payer] using pays⟩

theorem invokeSwap_draws {pool : Address} {minAmountOut : I128} :
    Draws payers (invokeSwap env pool minAmountOut) := by
  intro w amountOut w' ran
  obtain ⟨-, swapped, -, rfl⟩ := invokeSwap_ok ran
  exact ⟨[], by simp, by simp⟩

theorem nonReentrant_draws {α : Type} {body : Call α} (inner : Draws payers body) :
    Draws payers (nonReentrant body) := by
  refine Preserves.bind (.read _) fun _ => Preserves.bind (.rejectIf _ _) fun _ => ?_
  refine Preserves.bind (still_draws (by simp)) fun _ => Preserves.bind inner fun _ => ?_
  exact Preserves.bind (still_draws (by simp)) fun _ => .pure _

variable (self : env.self ∈ payers)
include self

theorem mintLoyaltyTokens_draws (recipient : Address) :
    Draws payers (mintLoyaltyTokens env recipient) := by
  refine Preserves.bind (.read _) fun loyaltyToken => ?_
  cases loyaltyToken with
  | none => exact .pure _
  | some token =>
    refine Preserves.bind (.read _) fun amount => Preserves.ite (.pure _) ?_
    refine Preserves.bind (.read _) fun held => Preserves.bind (.read _) fun counters => ?_
    exact Preserves.ite (publish_draws _) (transfer_draws self)

theorem payReferral_draws (source asset : Address) (fee : I128) (referrer : Option Address) :
    Draws payers (payReferral env source asset fee referrer) := by
  cases referrer with
  | none => exact .pure _
  | some referrer =>
    refine Preserves.bind (.read _) fun _ => Preserves.bind (.ofExcept _ _) fun _ => ?_
    refine Preserves.ite (Preserves.bind (transfer_draws self) fun _ => ?_) (.pure _)
    refine Preserves.bind (.ofExcept _ _) fun _ => ?_
    exact Preserves.bind (publish_draws _) fun _ => .pure _

theorem deliverBatch_draws (source asset : Address) (effectiveFeeBps : UInt32)
    (progress : BatchProgress) (entries : List (Address × I128)) :
    Draws payers (deliverBatch env source asset effectiveFeeBps progress entries) := by
  induction entries generalizing progress with
  | nil => exact .pure _
  | cons entry rest ih =>
      refine Preserves.bind (still_draws (by simp)) fun error => Preserves.ite ?_ ?_
      · refine Preserves.bind (still_draws (by simp)) fun _ => Preserves.bind (.ofExcept _ _) fun _ => ?_
        exact Preserves.bind (publish_draws _) fun _ => ih _
      · refine Preserves.bind (.ofExcept _ _) fun _ => Preserves.bind (.ofExcept _ _) fun _ => ?_
        refine Preserves.bind (.onlyIf (transfer_draws self)) fun _ => ?_
        refine Preserves.bind (still_draws (by simp)) fun _ => ?_
        refine Preserves.bind (still_draws (by simp)) fun _ => ?_
        exact Preserves.bind (publish_draws _) fun _ => ih _

end Draws

/-- The bridge, whoever authorised the call, and the source of a meta-transaction. -/
def Request.payers (env : Env) (request : Request) : Set Address :=
  {address | address = env.self ∨ env.authorizes address = true ∨
    request.metaSource? = some address}

/-- A deposit into the reserve takes from the admin, who authorises it. -/
theorem fundCrosschainReserve_draws {env : Env} {asset : Address} {amount : I128}
    {payers : Set Address} (agreed : ∀ address, env.authorizes address = true → address ∈ payers) :
    Draws payers (fundCrosschainReserve env asset amount) := by
  refine nonReentrant_draws (Preserves.bind (still_draws (by simp)) fun _ => ?_)
  refine Preserves.bind (still_draws (by simp)) fun _ => ?_
  refine Preserves.bind (still_draws (by simp)) fun _ => ?_
  refine Preserves.bind (still_draws (by simp)) fun admin => ?_
  intro w _ w' ran
  obtain ⟨authorized, ran⟩ := requireAuth_bind_ok.mp ran
  have rest : Draws payers (do
      transfer env asset admin env.self amount
      incrementCrosschainReserve asset amount
      publish (.crossChainReserveFunded asset admin amount)) :=
    Preserves.bind (transfer_draws (agreed admin authorized)) fun _ =>
      Preserves.bind (still_draws (by simp)) fun _ => publish_draws _
  exact rest ran

/-- A successful call takes tokens from its payers only. -/
theorem execute_draws {env : Env} {request : Request} {reply : Reply} {w w' : World}
    (ran : (execute env request).run w = .ok (reply, w')) :
    DrawsFrom (request.payers env) w w' := by
  have self : env.self ∈ request.payers env := .inl rfl
  have named {source : Address} (asked : request.authority = .named source) :
      source ∈ request.payers env := by
    rcases execute_agreed env request ran with anyone | ⟨address, party, agreed⟩
    · rw [anyone] at asked
      cases asked
    · rw [asked] at party
      exact .inr (.inl (Option.some.inj party ▸ agreed))
  have signed {source : Address} (asked : request.metaSource? = some source) :
      source ∈ request.payers env := .inr (.inr asked)
  suffices draws : Draws (request.payers env) (execute env request) from draws ran
  by_cases moving : request.movesTokens
  · cases request
    all_goals try exact moving.elim
    case fundCrosschainReserve =>
      exact Preserves.bind (fundCrosschainReserve_draws fun _ agreed => .inr (.inl agreed))
        fun _ => .pure _
    all_goals first | replace named := named rfl | replace signed := signed rfl | skip
    all_goals
      simp only [execute, replying, fundCAddress, batchFundCAddress, withdrawFees,
        fundCAddressWithReferral, reclaimTokens, withdrawCrosschainReserve,
        fundCAddressCrosschain, fundCAddressTimelocked, claimTimelocked, revealFund,
        fundCAddressWithSwap, executeMetaFund]
      repeat' first
        | with_reducible refine nonReentrant_draws ?_
        | with_reducible refine Preserves.bind ?_ fun _ => ?_
    all_goals first
      | with_reducible exact transfer_draws self
      | with_reducible exact transfer_draws named
      | with_reducible exact transferFrom_draws signed
      | with_reducible exact .onlyIf (transfer_draws self)
      | with_reducible exact mintLoyaltyTokens_draws self ..
      | with_reducible exact .onlyIf (mintLoyaltyTokens_draws self ..)
      | with_reducible exact deliverBatch_draws self ..
      | with_reducible exact payReferral_draws self ..
      | with_reducible exact invokeSwap_draws
      | exact still_draws (by simp [Preserves.ofExcept, requireAuth_touches,
          readFeeBps_touches, checkPoolWhitelisted_touches, validateAmounts_touches])
  · exact still_draws ((execute_administration_frame env moving).mono fun w w' frame =>
      frame.widen (Set.subset_univ _))

/-! ### Runs -/

/-- What the contract stores for a user is as it was. -/
structure UserUntouched (user : Address) (w w' : World) : Prop where
  nonce : w'.nonceOf user = w.nonceOf user
  owned : ∀ key, key.owner? = some user → w'.store key = w.store key
  deposits : ∀ id entry, w.store (.timelock id) = some entry → entry.target = user →
    w'.store (.timelock id) = some entry
  commitments : ∀ id entry, w.store (.commitment id) = some entry → entry.source = user →
    w'.store (.commitment id) = some entry

theorem UserUntouched.refl (user : Address) (w : World) : UserUntouched user w w :=
  ⟨rfl, fun _ _ => rfl, fun _ _ stored _ => stored, fun _ _ stored _ => stored⟩

theorem UserUntouched.trans {user : Address} {w w' w'' : World}
    (first : UserUntouched user w w') (second : UserUntouched user w' w'') :
    UserUntouched user w w'' where
  nonce := second.nonce.trans first.nonce
  owned key own := (second.owned key own).trans (first.owned key own)
  deposits id entry stored target :=
    second.deposits id entry (first.deposits id entry stored target) target
  commitments id entry stored source :=
    second.commitments id entry (first.commitments id entry stored source) source

/-- The call is a meta-transaction of the user that carries a signature with the key. -/
def Success.SignedFor (user : Address) (pubkey : BytesN 32) (call : Success) : Prop :=
  ∃ params signature, call.request = .executeMetaFund params pubkey signature ∧
    params.source = user ∧ call.env.host.verifyStrict pubkey
      (call.env.host.sha256 (call.env.host.metaFundPayload params)) signature = true

/-- Whoever spends a nonce is asked. -/
theorem Request.callerIn_authority {request : Request} {w : World} {address : Address}
    (spends : request.callerIn w = some address) : request.authority.address? w = some address := by
  cases request
  all_goals first | exact spends | cases spends

/-- The party of a call that the user does not authorise is not the user. -/
theorem execute_unasked {env : Env} {request : Request} {reply : Reply} {w w' : World}
    (ran : (execute env request).run w = .ok (reply, w')) {user : Address}
    (unauthorized : env.authorizes user = false) : request.authority.address? w ≠ some user := by
  intro party
  rcases execute_agreed env request ran with anyone | ⟨address, party', agreed⟩
  · rw [anyone] at party
    cases party
  · obtain rfl := Option.some.inj (party.symm.trans party')
    rw [unauthorized] at agreed
    cases agreed

theorem execute_untouched {env : Env} {request : Request} {reply : Reply} {w w' : World}
    (ran : (execute env request).run w = .ok (reply, w')) {user : Address}
    (kept : w.DepositsKept)
    (below : ∀ id entry, w.store (.commitment id) = some entry → id < w.commitmentId)
    (unauthorized : env.authorizes user = false) (unsigned : request.metaSource? ≠ some user) :
    UserUntouched user w w' := by
  have unasked := execute_unasked ran unauthorized
  have unnamed : request.authority ≠ .named user := fun named => unasked (named ▸ rfl)
  have frame := (execute_frame env request ran).widen
    (Request.writes_otherThanOwned unnamed unsigned)
  refine ⟨?_, fun key own => frame.store key (by simp [own]), ?_, ?_⟩
  · have spent := execute_spent ran
    cases carries : request.nonce with
    | none =>
      rw [carries] at spent
      exact spent user
    | some n =>
      rw [carries] at spent
      obtain ⟨caller, who, -, -, -, others⟩ := spent
      refine others user fun same => unasked ?_
      exact Request.callerIn_authority (same ▸ who)
  · intro id entry stored target
    rcases execute_timelock kept ran stored with same | ⟨rfl, -, -⟩
    · exact same
    · exact absurd (by simp [Authority.address?, Request.authority, stored, target]) unasked
  · intro id entry stored source
    cases execute_commitments ran id with
    | kept same => exact same.trans stored
    | committed _ _ _ unused => exact absurd (below id entry stored) unused
    | revealed _ found opens =>
      obtain rfl := Option.some.inj (found.symm.trans stored)
      have agreed := opens.authorized
      rw [← opens.committed.1, source, unauthorized] at agreed
      cases agreed
    | cancelled asked found =>
      subst asked
      exact absurd (by simp [Authority.address?, Request.authority, stored, source]) unasked

/-- A step without the user. -/
theorem Step.untouched {host : Host} {w w' : World} {label : Label} (reachable : Reachable host w)
    (taken : Step host w label w') {user : Address}
    (unauthorized : ∀ call, label = .success call → call.env.authorizes user = false)
    (unsigned : ∀ pubkey, w.store (.metaSigner user) = some pubkey →
      ∀ call, label = .success call → ¬ call.SignedFor user pubkey) :
    UserUntouched user w w' ∧ ∀ call, label = .success call →
      ∀ token ∈ call.after.invocations, token.payer = user → user = host.contractAddress := by
  cases taken with
  | @success call deployed ran =>
    have foreign : call.request.metaSource? ≠ some user := by
      intro source
      cases asked : call.request
      case executeMetaFund params pubkey signature =>
        rw [asked] at ran source
        obtain ⟨_, ran, -⟩ := replying_ok.mp ran
        obtain ⟨signed, -⟩ := executeMetaFund_signed ran
        have same : params.source = user := Option.some.inj source
        refine unsigned pubkey (same ▸ signed.registered) call rfl ?_
        exact ⟨params, signature, asked, same, signed.signature⟩
      all_goals
        rw [asked] at source
        cases source
    obtain ⟨start, before, fresh, first⟩ := reachable
    have recorded := Run.commitmentsRecorded fresh first
    have sound : call.before.Sound host.contractAddress :=
      Reachable.sound ⟨start, before, fresh, first⟩
    have untouched := execute_untouched ran sound.deposits
      (fun id entry stored => (recorded id entry stored).1) (unauthorized call rfl) foreign
    refine ⟨⟨untouched.nonce, untouched.owned, untouched.deposits, untouched.commitments⟩, ?_⟩
    rintro other same token member payer
    obtain rfl := Label.success.inj same
    obtain ⟨calls, made, drawn⟩ := execute_draws ran
    rw [made] at member
    rcases drawn token (by simpa using member) with self | agreed | source
    · rw [← payer, self, ← deployed]
      rfl
    · rw [payer, unauthorized call rfl] at agreed
      cases agreed
    · exact absurd (payer ▸ source) foreign
  | failure => exact ⟨.refl user _, fun _ same => by cases same⟩
  | external =>
    refine ⟨⟨rfl, fun _ _ => rfl, fun _ _ stored _ => stored, fun _ _ stored _ => stored⟩, ?_⟩
    exact fun _ same => by cases same

/-- In a run from a reachable world in which a user authorises no successful call, and the key
registered for meta-transactions of the user, if there is one, has signed none of them, all that
the contract stores for the user stays as it is: the nonces, the signer, the counters, the timelocked
deposits and the commitments. No token call of the run takes tokens from the user. -/
theorem user_untouched {host : Host} {w w' : World} {labels : List Label} {user : Address}
    (reachable : Reachable host w) (run : Run (Step host) w labels w')
    (other : user ≠ host.contractAddress)
    (unauthorized : ∀ call, .success call ∈ labels → call.env.authorizes user = false)
    (unsigned : ∀ pubkey, w.store (.metaSigner user) = some pubkey →
      ∀ call, .success call ∈ labels → ¬ call.SignedFor user pubkey) :
    UserUntouched user w w' ∧ ∀ call, .success call ∈ labels →
      ∀ token ∈ call.after.invocations, token.payer ≠ user := by
  have steps := reachable.within run
  clear run
  induction steps with
  | nil => exact ⟨.refl user _, by simp⟩
  | @cons s t u label rest taken _ ih =>
    obtain ⟨here, taken⟩ := taken
    obtain ⟨untouched, payers⟩ := taken.untouched here
      (fun call first => unauthorized call (first ▸ List.mem_cons_self))
      (fun pubkey signer call first => unsigned pubkey signer call (first ▸ List.mem_cons_self))
    have stillUnsigned : ∀ pubkey, t.store (.metaSigner user) = some pubkey →
        ∀ call, .success call ∈ rest → ¬ call.SignedFor user pubkey := by
      intro pubkey signer call member
      rw [untouched.owned _ rfl] at signer
      exact unsigned pubkey signer call (List.mem_cons_of_mem _ member)
    obtain ⟨later, laterPayers⟩ := ih (here.run (.single taken))
      (fun call member => unauthorized call (List.mem_cons_of_mem _ member)) stillUnsigned
    refine ⟨untouched.trans later, fun call member => ?_⟩
    rcases List.mem_cons.mp member with first | member
    · exact fun token made payer => other (payers call first.symm token made payer)
    · exact laterPayers call member

/-- A user with a timelocked deposit and a signer does nothing while another one funds. -/
theorem user_untouched_rehearsed :
    let script := Rehearsal.listing ++ [
      (0, .fundCAddressTimelocked (Rehearsal.address 5) (Rehearsal.address 7) (Rehearsal.address 3)
        (Rehearsal.amount 1000 Rehearsal.thousand_small) 100 0 none none),
      (0, .registerMetaSigner (Rehearsal.address 7) 1)]
    UserUntouched (Rehearsal.address 7) (Rehearsal.outcome script)
      (rehearsed (Rehearsal.outcome script) Rehearsal.fundedByUser) := by
  intro script
  have reachable := Rehearsal.reachable script (by decide +kernel)
  have run := @Rehearsal.fundedByUser_run (Rehearsal.outcome script) (by decide +kernel)
  refine (user_untouched reachable run (by decide) ?_ ?_).1
  · intro call member
    rw [(Rehearsal.fundedByUser_made member).1]
    decide
  · rintro pubkey - call member ⟨params, signature, asked, -⟩
    have plain := (Rehearsal.fundedByUser_made member).2
    rw [asked] at plain
    cases plain

end OnboardingBridge.Contract
