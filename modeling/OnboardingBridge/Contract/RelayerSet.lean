import OnboardingBridge.Foundations.Roster
import OnboardingBridge.Contract.Attestation
import OnboardingBridge.Contract.System

/-!
# The relayers and their threshold

The relayers are stored as a flag each, as a list and as a number. Three calls
write them or their threshold (`execute_relayers`). In every reachable world the
three agree and the threshold is positive, and once a relayer was added there is
always one, and never fewer than the threshold (`relayer_set`).
-/

set_option autoImplicit false

namespace OnboardingBridge.Contract

open Foundations Foundations.Tx

/-! ## The stored relayers -/

/-- The relayers, as the contract stores them. -/
def World.roster (w : World) : Roster (BytesN 32) where
  flags := w.isRelayer
  members := w.relayerSet
  count := w.relayerCount.toNat

/-- Whether a key belongs to the relayers or is their threshold. -/
abbrev DataKey.isRelayers : DataKey → Bool
  | .relayer _ | .relayerSet | .relayerCount | .relayerThreshold => true
  | _ => false

/-- The keys that have nothing to do with relayers. -/
def otherThanRelayers : Set DataKey := {key | key.isRelayers = false}

@[simp] theorem mem_otherThanRelayers {key : DataKey} :
    key ∈ otherThanRelayers ↔ key.isRelayers = false := Iff.rfl

theorem World.roster_congr {w w' : World}
    (same : ∀ key, key.isRelayers = true → w'.store key = w.store key) :
    w'.roster = w.roster ∧ w'.relayerThreshold = w.relayerThreshold := by
  refine ⟨?_, ?_⟩
  · simp only [World.roster, World.relayerSet, World.relayerCount, same .relayerSet rfl,
      same .relayerCount rfl, Roster.mk.injEq, and_true]
    funext pubkey
    simp only [World.isRelayer, same (.relayer pubkey) rfl]
  · simp only [World.relayerThreshold, same .relayerThreshold rfl]

theorem Frame.roster {moves : Prop} {w w' : World} (frame : Frame otherThanRelayers moves w w') :
    w'.roster = w.roster ∧ w'.relayerThreshold = w.relayerThreshold :=
  World.roster_congr fun key relayers => frame.store key (by simp [relayers])

theorem registerRelayer_roster {pubkey : BytesN 32} {w w' : World} {u : Unit}
    (ran : (registerRelayer pubkey).run w = .ok (u, w')) :
    w'.roster = w.roster.add pubkey ∧ w'.relayerThreshold = w.relayerThreshold := by
  rw [registerRelayer, isRelayer, run_read_bind] at ran
  split at ran
  · next flagged =>
    obtain ⟨-, rfl⟩ := run_pure_ok.mp ran
    exact ⟨(if_pos flagged).symm, rfl⟩
  · next unflagged =>
    rw [save, run_modify_bind, readRelayerSet, run_read_bind, save, run_modify_bind,
      readRelayerCount, run_read_bind, incrementU32] at ran
    obtain ⟨next, increments, ran⟩ := run_ofOption_bind_ok.mp ran
    rw [save, run_modify_ok] at ran
    subst ran
    refine ⟨?_, by simp [World.relayerThreshold]⟩
    split at increments
    · next fits =>
      obtain rfl := Option.some.inj increments
      have absent : ¬ w.roster.flags pubkey = true := unflagged
      rw [Roster.add, if_neg absent]
      simp only [World.roster, Roster.mk.injEq]
      refine ⟨funext fun other => ?_, ?_, ?_⟩
      · by_cases same : other = pubkey
        · subst same
          simp [World.isRelayer]
        · simp [World.isRelayer, same]
      · simp [World.relayerSet]
      · have one : (1 : UInt32).toNat = 1 := rfl
        have count : ((w.put (.relayer pubkey) true).put .relayerSet
            ((w.put (.relayer pubkey) true).relayerSet ++ [pubkey])).relayerCount =
              w.relayerCount := by simp [World.relayerCount]
        rw [count] at fits ⊢
        rw [World.relayerCount, World.put_store, KeyedStore.set_self, Option.getD_some,
          UInt32.toNat_add, one, Nat.mod_eq_of_lt fits]
    · cases increments

theorem unregisterRelayer_roster {pubkey : BytesN 32} {w w' : World} {u : Unit}
    (agrees : w.roster.Agrees) (ran : (unregisterRelayer pubkey).run w = .ok (u, w')) :
    w'.roster = w.roster.remove pubkey ∧ w'.relayerThreshold = w.relayerThreshold := by
  rw [unregisterRelayer, isRelayer, run_read_bind] at ran
  split at ran
  · next unflagged =>
    obtain ⟨-, rfl⟩ := run_pure_ok.mp ran
    exact ⟨(if_neg (by simpa [World.roster] using unflagged)).symm, rfl⟩
  · next flagged =>
    rw [Contract.remove, run_modify_bind, readRelayerSet, run_read_bind, save, run_modify_bind,
      save, run_modify_ok] at ran
    subst ran
    refine ⟨?_, by simp [World.relayerThreshold]⟩
    rw [Roster.remove, if_pos (by simpa [World.roster] using flagged)]
    simp only [World.roster, Roster.mk.injEq]
    refine ⟨funext fun other => ?_, ?_, ?_⟩
    · by_cases same : other = pubkey
      · subst same
        simp [World.isRelayer]
      · simp [World.isRelayer, same]
    · simp [World.relayerSet]
    · have fits : (w.relayerSet.erase pubkey).length < 2 ^ 32 := by
        have length : w.relayerCount.toNat = w.relayerSet.length := agrees.count
        exact lt_of_le_of_lt (List.length_erase_le.trans length.ge) w.relayerCount.toNat_lt
      have set : (w.erase (.relayer pubkey)).relayerSet = w.relayerSet := by
        simp [World.relayerSet]
      simp [World.relayerCount, set, UInt32.toNat_ofNat_of_lt' fits]

theorem addRelayer_roster {env : Env} {pubkey : BytesN 32} {nonce : Option UInt64} {w w' : World}
    {u : Unit} (ran : (addRelayer env pubkey nonce).run w = .ok (u, w')) :
    w'.roster = w.roster.add pubkey ∧ w'.relayerThreshold = w.relayerThreshold := by
  obtain ⟨mid, ran, left⟩ := nonReentrant_ok ran
  have sofar : Frame otherThanRelayers True w (w.put .entered true) := by
    have touches : Touches otherThanRelayers True (save .entered true) := save_touches _ (by simp)
    exact touches rfl
  iterate 2 (refine sofar.skip ran ?_ fun _ _ sofar ran => ?_; focus simp)
  obtain ⟨_, registered, registers, ran⟩ := run_bind_ok.mp ran
  obtain ⟨roster, threshold⟩ := registerRelayer_roster registers
  rw [publish, run_modify_ok] at ran
  have after : w'.roster = registered.roster ∧ w'.relayerThreshold = registered.relayerThreshold :=
    World.roster_congr fun key relayers => by
      rw [left, ran]
      cases key <;> first | rfl | simp at relayers
  rw [after.1, after.2, roster, threshold, sofar.roster.1, sofar.roster.2]
  exact ⟨rfl, rfl⟩

theorem removeRelayer_roster {env : Env} {pubkey : BytesN 32} {nonce : Option UInt64}
    {w w' : World} {u : Unit} (agrees : w.roster.Agrees)
    (ran : (removeRelayer env pubkey nonce).run w = .ok (u, w')) :
    (w.isRelayer pubkey = true →
      1 < w.relayerCount.toNat ∧ w.relayerThreshold.toNat ≤ w.relayerCount.toNat - 1) ∧
      w'.roster = w.roster.remove pubkey ∧ w'.relayerThreshold = w.relayerThreshold := by
  have sofar := refl_of (Frame otherThanRelayers True) w
  refine sofar.skip ran ?_ fun _ _ sofar ran => ?_
  · simp
  refine sofar.skip ran ?_ fun admin asked sofar ran => ?_
  · simp
  rw [isRelayer, run_read_bind, readRelayerCount, run_read_bind, relayerThreshold,
    run_read_bind] at ran
  obtain ⟨spare, ran⟩ := run_rejectIf_bind_ok.mp ran
  obtain ⟨_, unregistered, unregisters, ran⟩ := run_bind_ok.mp ran
  have same := sofar.roster
  rw [← same.1] at agrees
  obtain ⟨roster, threshold⟩ := unregisterRelayer_roster agrees unregisters
  have published : Touches otherThanRelayers True (onlyIf (asked.isRelayer pubkey = true)
      (publish (.relayerRemoved admin pubkey))) := .onlyIf (publish_touches rfl)
  have after := (published ran).roster
  rw [after.1, after.2, roster, threshold, same.1, same.2]
  refine ⟨fun flagged => ?_, rfl, rfl⟩
  have flags : asked.isRelayer pubkey = w.isRelayer pubkey :=
    congrFun (congrArg Roster.flags same.1) pubkey
  have count : asked.relayerCount.toNat = w.relayerCount.toNat := congrArg Roster.count same.1
  rw [flags, same.2, UInt32.le_iff_toNat_le, count] at spare
  have one : (1 : UInt32).toNat = 1 := rfl
  have enough := not_or.mp (not_and.mp spare flagged)
  omega

theorem setRelayerThreshold_roster {env : Env} {threshold : UInt32} {nonce : Option UInt64}
    {w w' : World} {u : Unit} (ran : (setRelayerThreshold env threshold nonce).run w = .ok (u, w')) :
    1 ≤ threshold.toNat ∧ threshold.toNat ≤ w.relayerCount.toNat ∧ w'.roster = w.roster ∧
      w'.relayerThreshold = threshold := by
  have sofar := refl_of (Frame otherThanRelayers True) w
  refine sofar.skip ran ?_ fun _ _ sofar ran => ?_
  · simp
  refine sofar.skip ran ?_ fun admin asked sofar ran => ?_
  · simp
  rw [readRelayerCount, run_read_bind] at ran
  obtain ⟨within, ran⟩ := run_rejectIf_bind_ok.mp ran
  rw [relayerThreshold, run_read_bind, saveRelayerThreshold, save, run_modify_bind, publish,
    run_modify_ok] at ran
  obtain ⟨nonzero, within⟩ := not_or.mp within
  have same := sofar.roster
  have count : asked.relayerCount.toNat = w.relayerCount.toNat := congrArg Roster.count same.1
  refine ⟨?_, ?_, ?_, by simp [ran, World.relayerThreshold]⟩
  · exact Nat.one_le_iff_ne_zero.mpr fun zero => nonzero (UInt32.toNat_inj.mp zero)
  · rw [← count]
    exact UInt32.le_iff_toNat_le.mp (UInt32.not_lt.mp within)
  · rw [← same.1, ran]
    rfl

/-- What a call does to the relayers and their threshold. -/
inductive RelayerStep (request : Request) (w w' : World) : Prop where
  | kept (roster : w'.roster = w.roster) (threshold : w'.relayerThreshold = w.relayerThreshold)
  | added {pubkey : BytesN 32} {nonce : Option UInt64} (asked : request = .addRelayer pubkey nonce)
      (roster : w'.roster = w.roster.add pubkey)
      (threshold : w'.relayerThreshold = w.relayerThreshold)
  | removed {pubkey : BytesN 32} {nonce : Option UInt64}
      (asked : request = .removeRelayer pubkey nonce)
      (spare : w.isRelayer pubkey = true → 1 < w.relayerCount.toNat ∧
        w.relayerThreshold.toNat ≤ w.relayerCount.toNat - 1)
      (roster : w'.roster = w.roster.remove pubkey)
      (threshold : w'.relayerThreshold = w.relayerThreshold)
  | governed {nonce : Option UInt64}
      (asked : request = .setRelayerThreshold w'.relayerThreshold nonce)
      (positive : 1 ≤ w'.relayerThreshold.toNat)
      (within : w'.relayerThreshold.toNat ≤ w.relayerCount.toNat) (roster : w'.roster = w.roster)

/-- The requests that write relayers or their threshold. -/
def Request.governsRelayers : Request → Bool
  | .addRelayer .. | .removeRelayer .. | .setRelayerThreshold .. => true
  | _ => false

theorem Request.writes_subset {request : Request} (other : request.governsRelayers = false) :
    request.writes ⊆ otherThanRelayers := by
  cases request
  all_goals first
    | cases other; done
    | simp [Request.writes, dailyUsages, Set.insert_subset_iff, Set.union_subset_iff,
        Set.range_subset_iff]

theorem execute_relayers {env : Env} {request : Request} {reply : Reply} {w w' : World}
    (agrees : w.roster.Agrees) (ran : (execute env request).run w = .ok (reply, w')) :
    RelayerStep request w w' := by
  cases request
  case addRelayer pubkey nonce =>
    obtain ⟨_, ran, -⟩ := replying_ok.mp ran
    obtain ⟨roster, threshold⟩ := addRelayer_roster ran
    exact .added rfl roster threshold
  case removeRelayer pubkey nonce =>
    obtain ⟨_, ran, -⟩ := replying_ok.mp ran
    obtain ⟨spare, roster, threshold⟩ := removeRelayer_roster agrees ran
    exact .removed rfl spare roster threshold
  case setRelayerThreshold threshold nonce =>
    obtain ⟨_, ran, -⟩ := replying_ok.mp ran
    obtain ⟨positive, within, roster, rfl⟩ := setRelayerThreshold_roster ran
    exact .governed rfl positive within roster
  all_goals
    have same := Frame.roster ((execute_frame env _ ran).widen (Request.writes_subset rfl))
    exact .kept same.1 same.2

/-! ## Runs -/

/-- The three forms agree, and the threshold is a quorum. -/
structure World.Governed (w : World) : Prop where
  agrees : w.roster.Agrees
  quorum : w.roster.Quorum w.relayerThreshold.toNat

theorem World.Governed.of_store {w w' : World} (governed : w.Governed) (same : w'.store = w.store) :
    w'.Governed := by
  obtain ⟨roster, threshold⟩ := World.roster_congr fun key _ => congrFun same key
  exact ⟨roster ▸ governed.agrees, by rw [roster, threshold]; exact governed.quorum⟩

theorem execute_governed {env : Env} {request : Request} {reply : Reply} {w w' : World}
    (governed : w.Governed) (ran : (execute env request).run w = .ok (reply, w')) :
    w'.Governed ∧ (0 < w.roster.count → 0 < w'.roster.count) := by
  obtain ⟨agrees, quorum⟩ := governed
  cases execute_relayers agrees ran with
  | kept roster threshold =>
    rw [← roster] at agrees quorum ⊢
    rw [← threshold] at quorum
    exact ⟨⟨agrees, quorum⟩, fun inhabited => inhabited⟩
  | @added pubkey nonce asked roster threshold =>
    refine ⟨⟨?_, ?_⟩, fun _ => ?_⟩
    · exact roster ▸ agrees.add pubkey
    · exact roster ▸ threshold ▸ quorum.add pubkey
    · exact roster ▸ agrees.inhabited_add pubkey
  | @removed pubkey nonce asked spare roster threshold =>
    refine ⟨⟨?_, ?_⟩, fun inhabited => ?_⟩
    · exact roster ▸ agrees.remove pubkey
    · exact roster ▸ threshold ▸ quorum.remove agrees fun flagged => (spare flagged).2
    · rw [roster]
      by_cases flagged : w.roster.flags pubkey = true
      · rw [agrees.count_remove flagged]
        exact Nat.sub_pos_of_lt (spare flagged).1
      · rwa [Roster.remove, if_neg flagged]
  | governed asked positive within roster =>
    rw [← roster] at agrees ⊢
    refine ⟨⟨agrees, positive, le_max_of_le_right ?_⟩, fun inhabited => inhabited⟩
    exact within.trans (congrArg Roster.count roster).ge

theorem Step.governed {host : Host} {w w' : World} {label : Label} (taken : Step host w label w')
    (governed : w.Governed) : w'.Governed ∧ (0 < w.roster.count → 0 < w'.roster.count) := by
  cases taken with
  | @success call _ ran =>
    have begun : call.before.begin.Governed := governed.of_store (World.begin_store _)
    obtain ⟨kept, inhabited⟩ := execute_governed begun ran
    exact ⟨kept, inhabited⟩
  | failure => exact ⟨governed, fun inhabited => inhabited⟩
  | external => exact ⟨governed.of_store rfl, fun inhabited => inhabited⟩

theorem Genesis.governed {host : Host} {w : World} (fresh : Genesis host w) : w.Governed := by
  refine ⟨⟨?_, ?_, fun pubkey => ?_⟩, ?_, ?_⟩
  · simp [World.roster, World.relayerCount, World.relayerSet, fresh.store]
  · simp [World.roster, World.relayerSet, fresh.store]
  · simp [World.roster, World.isRelayer, World.relayerSet, fresh.store]
  · simp [World.relayerThreshold, fresh.store]
  · simp [World.relayerThreshold, fresh.store]

/-- In every world a run reaches, the number of relayers is the length of their list,
which has no duplicates and has the flagged keys, and the threshold is positive.
Once a relayer was added there is always one, and never fewer than the
threshold. -/
theorem relayer_set {host : Host} {start w : World} {labels : List Label}
    (fresh : Genesis host start) (run : Run (Step host) start labels w) :
    w.relayerCount.toNat = w.relayerSet.length ∧ w.relayerSet.Nodup ∧
      (∀ pubkey, pubkey ∈ w.relayerSet ↔ w.isRelayer pubkey = true) ∧
      1 ≤ w.relayerThreshold.toNat ∧
      ∀ call pubkey nonce, .success call ∈ labels → call.request = .addRelayer pubkey nonce →
        0 < w.relayerCount.toNat ∧ w.relayerThreshold.toNat ≤ w.relayerCount.toNat := by
  have steps := run.within World.Governed (fun _ _ _ governed taken => (Step.governed taken governed).1)
    fresh.governed
  have governed := run.stays World.Governed (fun _ _ _ taken kept => (taken.governed kept).1)
    fresh.governed
  refine ⟨governed.agrees.count, governed.agrees.nodup, governed.agrees.flagged, governed.quorum.1,
    fun call pubkey nonce member asked => ?_⟩
  obtain ⟨earlier, later, rfl⟩ := List.append_of_mem member
  obtain ⟨before, after, -, ⟨kept, taken⟩, rest⟩ := steps.around
  have inhabited : 0 < w.roster.count := by
    refine rest.stays (fun w => 0 < w.roster.count) ?_ ?_
    · exact fun _ _ _ taken => (taken.2.governed taken.1).2
    · cases taken with
      | success deployed ran =>
        rw [asked] at ran
        obtain ⟨_, ran, -⟩ := replying_ok.mp ran
        rw [(addRelayer_roster ran).1]
        exact kept.agrees.inhabited_add pubkey
  exact ⟨inhabited, governed.quorum.reached inhabited⟩

/-- A second addition of a key changes nothing, and the threshold follows the
relayers that are there. -/
theorem relayer_set_rehearsed :
    let script : List (UInt64 × Request) := [
      (0, .initializeContract (Rehearsal.address 1) (Rehearsal.address 2) 100 none),
      (0, .addRelayer 7 none),
      (0, .addRelayer 7 none),
      (0, .addRelayer 8 none),
      (0, .setRelayerThreshold 2 none),
      (0, .removeRelayer 9 none)]
    (Rehearsal.outcome script).relayerSet = [7, 8] ∧
      (Rehearsal.outcome script).relayerCount.toNat = 2 := by
  intro script
  have set : (Rehearsal.outcome script).relayerSet = [7, 8] := by decide +kernel
  obtain ⟨count, -⟩ := relayer_set Rehearsal.fresh_genesis
    (Rehearsal.run script (by decide +kernel))
  exact ⟨set, by rw [count, set]; rfl⟩

end OnboardingBridge.Contract
