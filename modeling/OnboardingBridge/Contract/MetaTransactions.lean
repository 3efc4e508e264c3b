import OnboardingBridge.Contract.Crosschain

/-!
# Meta-transactions

The bridge spends an allowance in one place only, a meta-transaction, which
takes exactly the signed amount of the signed asset from the signing source.
Over any run each of them is signed by the key registered for its source, and
no two have the same source and nonce (`allowance_spent_when_signed`).
-/

set_option autoImplicit false

namespace OnboardingBridge.Contract

open Foundations Foundations.Tx

/-! ## Spent allowances -/

/-- Whether a token call spends an allowance. -/
def TokenCall.spends : TokenCall → Bool
  | .transferFrom .. => true
  | .transfer .. => false

/-- The token calls of the current call that spend an allowance. -/
def World.spendings (w : World) : List TokenCall := w.invocations.filter TokenCall.spends

/-- No allowance is spent between the two worlds. -/
def Unspent (w w' : World) : Prop := w'.spendings = w.spendings

instance : IsPreorder World Unspent where
  refl _ := rfl
  trans _ _ _ first second := Eq.trans second first

/-- What makes no token call spends nothing. -/
theorem Touches.unspent {α : Type} {body : Call α} (touches : Touches Set.univ False body) :
    Preserves Unspent body :=
  touches.mono fun w w' frame => by
    simp only [Unspent, World.spendings, frame.invocations not_false]

/-- A part that spends nothing may be passed over. -/
theorem Unspent.skip {w w' w'' : World} {α β : Type} {body : Call α} {rest : α → Call β} {b : β}
    {goal : Prop} (sofar : Unspent w w') (ran : (body >>= rest).run w' = .ok (b, w''))
    (unspent : Preserves Unspent body)
    (next : ∀ a t, Unspent w t → (rest a).run t = .ok (b, w'') → goal) : goal := by
  obtain ⟨a, t, first, ran⟩ := run_bind_ok.mp ran
  exact next a t (trans_of Unspent sofar (unspent first)) ran

theorem transfer_unspent (env : Env) (asset src dst : Address) (amount : I128) :
    Preserves Unspent (transfer env asset src dst amount) := by
  intro w _ w' ran
  obtain ⟨moved, -, rfl⟩ := transfer_ok ran
  simp [Unspent, World.spendings, TokenCall.spends]

theorem invokeSwap_unspent (env : Env) (pool : Address) (minAmountOut : I128) :
    Preserves Unspent (invokeSwap env pool minAmountOut) := by
  intro w _ w' ran
  obtain ⟨-, swapped, -, rfl⟩ := invokeSwap_ok ran
  rfl

theorem mintLoyaltyTokens_unspent (env : Env) (recipient : Address) :
    Preserves Unspent (mintLoyaltyTokens env recipient) := by
  have reports (event : Event) : Preserves Unspent (publish event) := .modify fun _ => rfl
  refine Preserves.bind (.read _) fun loyaltyToken => ?_
  cases loyaltyToken with
  | none => exact .pure _
  | some token =>
    refine Preserves.bind (.read _) fun amount => Preserves.ite (.pure _) ?_
    refine Preserves.bind (.read _) fun held => Preserves.bind (.read _) fun counters => ?_
    exact Preserves.ite (reports _) (transfer_unspent ..)

theorem deliverBatch_unspent (env : Env) (source asset : Address) (effectiveFeeBps : UInt32)
    (progress : BatchProgress) (entries : List (Address × I128)) :
    Preserves Unspent (deliverBatch env source asset effectiveFeeBps progress entries) := by
  induction entries generalizing progress with
  | nil => exact .pure _
  | cons entry rest ih =>
      refine Preserves.bind (Touches.unspent (by simp)) fun error => Preserves.ite ?_ ?_
      · refine Preserves.bind (Touches.unspent (by simp)) fun _ => ?_
        refine Preserves.bind (.ofExcept _ _) fun _ => ?_
        exact Preserves.bind (Touches.unspent (publish_touches rfl)) fun _ => ih _
      · refine Preserves.bind (.ofExcept _ _) fun _ => Preserves.bind (.ofExcept _ _) fun _ => ?_
        refine Preserves.bind (.onlyIf (transfer_unspent ..)) fun _ => ?_
        refine Preserves.bind (Touches.unspent (by simp)) fun _ => ?_
        refine Preserves.bind (Touches.unspent (by simp)) fun _ => ?_
        exact Preserves.bind (Touches.unspent (publish_touches rfl)) fun _ => ih _

theorem payReferral_unspent (env : Env) (source asset : Address) (fee : I128)
    (referrer : Option Address) :
    Preserves Unspent (payReferral env source asset fee referrer) := by
  cases referrer with
  | none => exact .pure _
  | some referrer =>
    refine Preserves.bind (.read _) fun _ => Preserves.bind (.ofExcept _ _) fun _ => ?_
    refine Preserves.ite (Preserves.bind (transfer_unspent ..) fun _ => ?_) (.pure _)
    refine Preserves.bind (.ofExcept _ _) fun _ => ?_
    exact Preserves.bind (Touches.unspent (publish_touches rfl)) fun _ => .pure _

theorem nonReentrant_unspent {α : Type} {body : Call α} (inner : Preserves Unspent body) :
    Preserves Unspent (nonReentrant body) := by
  refine Preserves.bind (.read _) fun _ => Preserves.bind (.rejectIf _ _) fun _ => ?_
  refine Preserves.bind (Touches.unspent (by simp)) fun _ => Preserves.bind inner fun _ => ?_
  exact Preserves.bind (Touches.unspent (by simp)) fun _ => .pure _

/-- Whether a request is a meta-transaction. -/
def Request.isMetaFund : Request → Bool
  | .executeMetaFund .. => true
  | _ => false

/-- No call but a meta-transaction spends an allowance. -/
theorem execute_unspent (env : Env) {request : Request} (plain : request.isMetaFund = false) :
    Preserves Unspent (execute env request) := by
  by_cases moving : request.movesTokens
  · cases request
    all_goals try exact moving.elim
    case executeMetaFund => exact absurd plain (by simp [Request.isMetaFund])
    all_goals
      simp only [execute, replying, fundCAddress, batchFundCAddress, withdrawFees,
        fundCAddressWithReferral, reclaimTokens, fundCrosschainReserve, withdrawCrosschainReserve,
        fundCAddressCrosschain, fundCAddressTimelocked, claimTimelocked, revealFund,
        fundCAddressWithSwap]
      repeat' first
        | with_reducible refine nonReentrant_unspent ?_
        | with_reducible refine Preserves.bind ?_ fun _ => ?_
    all_goals first
      | with_reducible exact transfer_unspent ..
      | with_reducible exact .onlyIf (transfer_unspent ..)
      | with_reducible exact mintLoyaltyTokens_unspent ..
      | with_reducible exact .onlyIf (mintLoyaltyTokens_unspent ..)
      | with_reducible exact deliverBatch_unspent ..
      | with_reducible exact payReferral_unspent ..
      | with_reducible exact invokeSwap_unspent ..
      | exact Touches.unspent (by simp [Preserves.ofExcept, requireAuth_touches,
          readFeeBps_touches, checkPoolWhitelisted_touches, validateAmounts_touches])
  · exact (execute_administration_frame env moving).mono fun w w' frame => by
      simp only [Unspent, World.spendings, frame.invocations not_false]

/-! ## The signed transaction -/

/-- Whether a key belongs to the meta-transactions. -/
abbrev DataKey.isMeta : DataKey → Bool
  | .metaSigner _ | .metaTxNonce _ _ => true
  | _ => false

/-- The keys outside the meta-transactions. -/
def otherThanMeta : Set DataKey := {key | key.isMeta = false}

@[simp] theorem mem_otherThanMeta {key : DataKey} :
    key ∈ otherThanMeta ↔ key.isMeta = false := Iff.rfl

/-- The parameters are signed, over the hash of the payload of this contract on
this network, with the key registered for their source, and are still valid. -/
structure Signed (env : Env) (w : World) (params : MetaFundParams) (pubkey : BytesN 32)
    (signature : BytesN 64) : Prop where
  registered : w.store (.metaSigner params.source) = some pubkey
  network : params.networkId = env.host.networkId
  key : env.host.verifyingKey pubkey = true
  signature : env.host.verifyStrict pubkey (env.host.sha256 (env.host.metaFundPayload params))
    signature = true
  timely : env.timestamp ≤ params.deadline

/-- A meta-transaction is signed, finds its nonce unused and marks it, and
changes no other. -/
theorem executeMetaFund_signed {env : Env} {params : MetaFundParams} {pubkey : BytesN 32}
    {signature : BytesN 64} {w w' : World} {u : Unit}
    (ran : (executeMetaFund env params pubkey signature).run w = .ok (u, w')) :
    Signed env w params pubkey signature ∧
      w.metaNonceUsed params.source params.nonce = false ∧
      ∀ source nonce, w'.metaNonceUsed source nonce =
        (decide (source = params.source ∧ nonce = params.nonce) || w.metaNonceUsed source nonce) := by
  obtain ⟨mid, ran, left⟩ := nonReentrant_ok ran
  have sofar : Frame otherThanMeta True w (w.put .entered true) := by
    have touches : Touches otherThanMeta True (save .entered true) := save_touches _ (by simp)
    exact touches rfl
  iterate 2 (refine sofar.skip ran ?_ fun _ _ sofar ran => ?_; focus simp)
  obtain ⟨timely, ran⟩ := run_rejectIf_bind_ok.mp ran
  rw [run_read_bind] at ran
  obtain ⟨unused, ran⟩ := run_rejectIf_bind_ok.mp ran
  rw [World.metaNonceUsed, sofar.store _ (by simp)] at unused
  iterate 6 (refine sofar.skip ran ?_ fun _ _ sofar ran => ?_; focus simp)
  rw [run_read_bind] at ran
  obtain ⟨registered, ran⟩ := run_rejectIf_bind_ok.mp ran
  rw [sofar.store _ (by simp)] at registered
  obtain ⟨network, ran⟩ := run_rejectIf_bind_ok.mp ran
  iterate 4 (obtain ⟨-, ran⟩ := run_rejectIf_bind_ok.mp ran)
  obtain ⟨_, ⟨key, valid⟩, ran⟩ := (run_view_bind_ok verifySignature_ok).mp ran
  refine ⟨⟨not_not.mp registered, not_not.mp network, key, valid, UInt64.not_lt.mp timely⟩,
    Bool.not_eq_true _ ▸ unused, fun source nonce => ?_⟩
  have earlier := sofar.store (.metaTxNonce source nonce) (by simp)
  rw [save, run_modify_bind] at ran
  -- from here on no key of the meta-transactions is written
  have rest : Touches otherThanMeta True (do
      transferFrom env params.asset params.source env.self params.amount
      let globalFeeBps ← readFeeBps
      let tieredFeeBps ← getTieredFeeBps params.source params.asset globalFeeBps
      let effectiveFeeBps ← getEffectiveFeeBps params.asset tieredFeeBps
      let fee ← liftResult (calculateFee params.amount effectiveFeeBps)
      let netAmount ← liftResult (safeSub params.amount fee)
      onlyIf (0 < netAmount.val) (transfer env params.asset env.self params.target netAmount)
      incrementUserDeposit params.source params.asset params.amount
      updateAssetCounters params.asset fee netAmount
      incrementSourceBridgedVolume params.source params.asset params.amount
      mintLoyaltyTokens env params.source
      publish (.metaFundExecuted params.asset params.source params.target params.amount fee
        params.nonce)) := by
    repeat' with_reducible refine Preserves.bind ?_ fun _ => ?_
    all_goals simp [Preserves.ofExcept, readFeeBps_touches]
  have later := (rest ran).store (.metaTxNonce source nonce) (by simp)
  subst left
  simp only [World.metaNonceUsed, World.erase_store] at later ⊢
  rw [KeyedStore.remove_of_ne _ (by simp), later]
  by_cases same : source = params.source ∧ nonce = params.nonce
  · obtain ⟨rfl, rfl⟩ := same
    simp
  · have different : DataKey.metaTxNonce source nonce ≠ .metaTxNonce params.source params.nonce := by
      simpa using same
    rw [World.put_store, KeyedStore.set_of_ne _ different, earlier, decide_eq_false same,
      Bool.false_or]

/-- A meta-transaction takes the signed amount from its source, and spends no
other allowance. -/
theorem executeMetaFund_spends {env : Env} {params : MetaFundParams} {pubkey : BytesN 32}
    {signature : BytesN 64} {w w' : World} {u : Unit}
    (ran : (executeMetaFund env params pubkey signature).run w = .ok (u, w')) :
    w'.spendings = w.spendings ++
      [.transferFrom params.asset env.self params.source env.self params.amount] := by
  obtain ⟨mid, ran, left⟩ := nonReentrant_ok ran
  have sofar : Unspent w (w.put .entered true) := rfl
  iterate 20 (refine sofar.skip ran (Touches.unspent ?_) fun _ _ sofar ran => ?_; focus simp)
  obtain ⟨_, paid, pulled, ran⟩ := run_bind_ok.mp ran
  obtain ⟨allowance, moved, -, -, -, settled⟩ := transferFrom_ok pulled
  have spent := congrArg World.spendings settled
  have later := refl_of Unspent paid
  refine Unspent.skip later ran (Touches.unspent readFeeBps_touches) fun _ _ later ran => ?_
  iterate 2 (refine later.skip ran (Touches.unspent ?_) fun _ _ later ran => ?_; focus simp)
  iterate 2 refine later.skip ran (.ofExcept _ _) fun _ _ later ran => ?_
  refine later.skip ran (.onlyIf (transfer_unspent ..)) fun _ _ later ran => ?_
  iterate 3 (refine later.skip ran (Touches.unspent ?_) fun _ _ later ran => ?_; focus simp)
  refine later.skip ran (mintLoyaltyTokens_unspent ..) fun _ _ later ran => ?_
  have published : Unspent _ mid := Touches.unspent (publish_touches rfl) ran
  have total : mid.spendings = paid.spendings := trans_of Unspent later published
  subst left
  change mid.spendings = _
  rw [total, spent, ← show _ = w.spendings from sofar]
  simp [World.spendings, TokenCall.spends]

/-! ## Runs -/

/-- A step in which a meta-transaction with a given source and nonce succeeds. -/
def Label.metaFunds (source : Address) (nonce : UInt64) (label : Label) : Prop :=
  ∃ call params pubkey signature, label = .success call ∧
    call.request = .executeMetaFund params pubkey signature ∧
    params.source = source ∧ params.nonce = nonce

/-- No call clears a nonce of the meta-transactions. -/
theorem execute_metaNonceUsed {env : Env} {request : Request} {reply : Reply} {w w' : World}
    (ran : (execute env request).run w = .ok (reply, w')) {source : Address} {nonce : UInt64}
    (used : w.metaNonceUsed source nonce = true) : w'.metaNonceUsed source nonce = true := by
  by_cases writes : .metaTxNonce source nonce ∈ request.writes
  · cases request
    all_goals try (simp [Request.writes, dailyUsages] at writes; done)
    obtain ⟨_, ran, -⟩ := replying_ok.mp ran
    rw [(executeMetaFund_signed ran).2.2, used, Bool.or_true]
  · rw [World.metaNonceUsed, (execute_frame env request ran).store _ writes]
    exact used

/-- A meta-transaction finds its nonce unused and leaves it used. -/
theorem Label.metaFunds_takes {host : Host} {source : Address} {nonce : UInt64} {w w' : World}
    {label : Label} (taken : Step host w label w') (funds : label.metaFunds source nonce) :
    ¬ w.metaNonceUsed source nonce = true ∧ w'.metaNonceUsed source nonce = true := by
  obtain ⟨call, params, pubkey, signature, rfl, request, rfl, rfl⟩ := funds
  cases taken with
  | success deployed ran =>
    rw [request] at ran
    obtain ⟨_, ran, -⟩ := replying_ok.mp ran
    obtain ⟨-, unused, marks⟩ := executeMetaFund_signed ran
    have fresh : call.before.metaNonceUsed params.source params.nonce = false := unused
    simp [fresh, marks]

/-- No step clears a nonce of the meta-transactions. -/
theorem Step.metaNonceUsed {host : Host} {w w' : World} {label : Label}
    (taken : Step host w label w') {source : Address} {nonce : UInt64}
    (used : w.metaNonceUsed source nonce = true) : w'.metaNonceUsed source nonce = true := by
  cases taken with
  | success _ ran => exact execute_metaNonceUsed ran used
  | failure => exact used
  | external => exact used

/-- The allowances a call spends: that of the source of a meta-transaction, for
the amount and the asset it names. -/
def Request.spendings (bridge : Address) : Request → List TokenCall
  | .executeMetaFund params _ _ =>
      [.transferFrom params.asset bridge params.source bridge params.amount]
  | _ => []

theorem execute_spendings {env : Env} {request : Request} {reply : Reply} {w w' : World}
    (ran : (execute env request).run w = .ok (reply, w')) :
    w'.spendings = w.spendings ++ request.spendings env.self := by
  cases plain : request.isMetaFund with
  | true =>
    cases request
    case executeMetaFund =>
      obtain ⟨_, ran, -⟩ := replying_ok.mp ran
      exact executeMetaFund_spends ran
    all_goals simp [Request.isMetaFund] at plain
  | false =>
    have nothing : request.spendings env.self = [] := by
      cases request
      case executeMetaFund => simp [Request.isMetaFund] at plain
      all_goals rfl
    rw [nothing, List.append_nil]
    exact execute_unspent env plain ran

/-- The byte strings that the hash signed for a meta-transaction is worked out
from. -/
def MetaFundParams.hashed (host : Host) (params : MetaFundParams) : Set (List UInt8) :=
  {host.strkey host.contractAddress, host.strkey params.source, host.strkey params.target,
    host.strkey params.asset, host.metaFundPayload params}

/-- Without collisions the hash determines the contract, the network and the
parameters. -/
theorem metaFundPayload_determines {host other : Host} {params params' : MetaFundParams}
    (same : host.SamePrimitives other)
    (collisionFree : Set.InjOn host.sha256 (params.hashed host ∪ params'.hashed other))
    (strkeys : Function.Injective host.strkey)
    (hashes : host.sha256 (host.metaFundPayload params)
      = other.sha256 (other.metaFundPayload params')) :
    host.networkId = other.networkId ∧ host.contractAddress = other.contractAddress ∧
      params.source = params'.source ∧ params.target = params'.target ∧
      params.asset = params'.asset ∧ params.amount = params'.amount ∧
      params.nonce = params'.nonce ∧ params.deadline = params'.deadline := by
  rw [same.sha256] at hashes
  have payloads := collisionFree (by simp [MetaFundParams.hashed]) (by simp [MetaFundParams.hashed])
    hashes
  have addresses {first second : Address}
      (inside : host.strkey first ∈ params.hashed host ∪ params'.hashed other)
      (inside' : host.strkey second ∈ params.hashed host ∪ params'.hashed other)
      (hash : host.addressHash first = other.addressHash second) : first = second := by
    rw [Host.addressHash, Host.addressHash, same.sha256, same.strkey] at hash
    exact strkeys (collisionFree inside inside' hash)
  obtain ⟨network, contract, source, target, asset, rest⟩ := Host.metaFundPayload_injective payloads
  refine ⟨network, addresses ?_ ?_ contract, addresses ?_ ?_ source, addresses ?_ ?_ target,
    addresses ?_ ?_ asset, rest⟩
  all_goals simp [MetaFundParams.hashed, same.strkey]

/-- Over any run an allowance is spent only by a meta-transaction, which takes
the amount of the asset it names from its source; each meta-transaction is
signed with the key registered for its source when it is called and before its
deadline has passed; no two have the same source and nonce; and without
collisions a signed hash is for one network, contract and set of parameters. -/
theorem allowance_spent_when_signed {host : Host} {w w' : World} {labels : List Label}
    (run : Run (Step host) w labels w') :
    (∀ call, .success call ∈ labels →
      call.after.spendings = call.request.spendings host.contractAddress) ∧
    (∀ call params pubkey signature, .success call ∈ labels →
      call.request = .executeMetaFund params pubkey signature →
      Signed call.env call.before params pubkey signature) ∧
    (∀ source nonce, labels.Pairwise fun earlier later =>
      ¬ (earlier.metaFunds source nonce ∧ later.metaFunds source nonce)) ∧
    (∀ (other : Host) (params params' : MetaFundParams), host.SamePrimitives other →
      Function.Injective host.strkey →
      Set.InjOn host.sha256 (params.hashed host ∪ params'.hashed other) →
      host.sha256 (host.metaFundPayload params) = other.sha256 (other.metaFundPayload params') →
      host.networkId = other.networkId ∧ host.contractAddress = other.contractAddress ∧
        params.source = params'.source ∧ params.target = params'.target ∧
        params.asset = params'.asset ∧ params.amount = params'.amount ∧
        params.nonce = params'.nonce ∧ params.deadline = params'.deadline) := by
  refine ⟨fun call member => ?_, fun call params pubkey signature member request => ?_,
    fun source nonce => ?_, ?_⟩
  · obtain ⟨deployed, ran, -⟩ := successful_of_run run member
    rw [execute_spendings ran, Env.self, deployed]
    rfl
  · obtain ⟨deployed, ran, -⟩ := successful_of_run run member
    rw [request] at ran
    obtain ⟨_, ran, -⟩ := replying_ok.mp ran
    obtain ⟨registered, network, key, valid, timely⟩ := (executeMetaFund_signed ran).1
    exact ⟨registered, network, key, valid, timely⟩
  · exact run.atMostOnce (fun w => w.metaNonceUsed source nonce = true)
      (Label.metaFunds source nonce) (fun _ _ _ taken funds => Label.metaFunds_takes taken funds)
      (fun _ _ _ taken used => taken.metaNonceUsed used)
  · exact fun other params params' same strkeys collisionFree hashes =>
      metaFundPayload_determines same collisionFree strkeys hashes

namespace Rehearsal

/-- A meta-transaction, and its signature with the key 7. -/
def metaFund : MetaFundParams :=
  ⟨0, address 4, address 5, address 3, amount 1000 thousand_small, 0, 9⟩

def metaSignature : BytesN 64 := sign 7 (host.sha256 (host.metaFundPayload metaFund))

/-- The source registers the key, and the meta-transaction is executed. -/
def metaFunding : List (UInt64 × Request) := [
  (0, .initializeContract (address 1) (address 2) 100 none),
  (0, .addAsset (address 3) none),
  (0, .registerMetaSigner (address 4) 7),
  (0, .executeMetaFund metaFund 7 metaSignature)]

/-- The byte strings that are hashed for the meta-transaction on two instances. -/
def metaStrings : List (List UInt8) := [
  strkey bridge, strkey (.contract 1), strkey (address 3), strkey (address 4), strkey (address 5),
  host.metaFundPayload metaFund, otherHost.metaFundPayload metaFund]

theorem meta_collisionFree :
    Set.InjOn host.sha256 (metaFund.hashed host ∪ metaFund.hashed otherHost) := by
  refine checksum_injOn metaStrings (by decide +kernel) ?_
  rintro bytes ((rfl | rfl | rfl | rfl | rfl) | rfl | rfl | rfl | rfl | rfl) <;>
    decide +kernel

end Rehearsal

/-- A meta-transaction of a registered source spends its allowance. Its signature is not for the
same parameters on another instance. -/
theorem allowance_spent_when_signed_rehearsed :
    let labels := (Rehearsal.calls Rehearsal.metaFunding).map Label.success
    (∀ call ∈ Rehearsal.calls Rehearsal.metaFunding,
      call.after.spendings = call.request.spendings Rehearsal.bridge) ∧
    (∀ call ∈ Rehearsal.calls Rehearsal.metaFunding, ∀ params pubkey signature,
      call.request = .executeMetaFund params pubkey signature →
        Signed call.env call.before params pubkey signature) ∧
    (∀ source nonce, labels.Pairwise fun earlier later =>
      ¬ (earlier.metaFunds source nonce ∧ later.metaFunds source nonce)) ∧
    Rehearsal.host.sha256 (Rehearsal.host.metaFundPayload Rehearsal.metaFund) ≠
      Rehearsal.otherHost.sha256 (Rehearsal.otherHost.metaFundPayload Rehearsal.metaFund) := by
  intro labels
  obtain ⟨spent, signed, once, unique⟩ :=
    allowance_spent_when_signed (Rehearsal.run Rehearsal.metaFunding (by decide +kernel))
  refine ⟨fun call member => spent call (List.mem_map_of_mem member),
    fun call member params pubkey signature asked =>
      signed call params pubkey signature (List.mem_map_of_mem member) asked, once, fun same => ?_⟩
  obtain ⟨-, contract, -⟩ := unique Rehearsal.otherHost Rehearsal.metaFund Rehearsal.metaFund
    ⟨rfl, rfl, rfl, rfl⟩ Rehearsal.strkey_injective Rehearsal.meta_collisionFree same
  exact absurd contract (by decide)

end OnboardingBridge.Contract
