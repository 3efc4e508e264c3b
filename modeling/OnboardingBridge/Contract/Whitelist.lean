import OnboardingBridge.Contract.FundingSettlement

/-!
# Pages of the whitelist

The assets of the whitelist that are enabled, in the order of the map. A query returns those
that follow an offset, at most as many as the limit and never more than a batch holds.
-/

set_option autoImplicit false

namespace OnboardingBridge.Contract

open Foundations Foundations.Tx

/-! ## The query -/

/-- Pass over the entries: `idx` counts those that are enabled, and `out` is the page so far. -/
def collectPage (offset limit : UInt32) :
    (idx : UInt32) → (out : List Address) → List (Address × Bool) → Call (List Address)
  | _, out, [] => return out
  | idx, out, (asset, allowed) :: rest =>
      if allowed = false then collectPage offset limit idx out rest
      else do
        let next ← incrementU32 idx
        collectPage offset limit next
          (if offset ≤ idx ∧ out.length < limit.toNat then out ++ [asset] else out) rest

def queryWhitelistedAssets (offset limit : UInt32) : Call (List Address) := do
  checkInitialized
  let limit := if maxBatchSize < limit.toNat then UInt32.ofNat maxBatchSize else limit
  let whitelist ← readWhitelist
  collectPage offset limit 0 [] whitelist.entries

/-! ## What it returns -/

/-- The enabled assets, in the order of the map. -/
def World.whitelisted (w : World) : List Address :=
  ((((w.store .assetWhitelist).getD .empty).entries.filter Prod.snd).map Prod.fst)

theorem World.whitelisted_sorted (w : World) : w.whitelisted.Pairwise (· < ·) :=
  List.pairwise_map.mpr (((w.store .assetWhitelist).getD .empty).sorted.filter _)

/-- The enabled assets are those that the whitelist check admits. -/
theorem World.mem_whitelisted {w : World} {asset : Address} :
    asset ∈ w.whitelisted ↔ (checkAssetWhitelisted asset).run w = .ok ((), w) := by
  rw [checkAssetWhitelisted, run_read_bind, reject, run_rejectIf_ok, World.whitelisted,
    List.mem_map]
  constructor
  · rintro ⟨⟨asset', allowed⟩, member, rfl⟩
    obtain ⟨listed, enabled⟩ := List.mem_filter.mp member
    obtain rfl : allowed = true := enabled
    refine ⟨?_, rfl⟩
    rw [OrderedMap.get_eq_some.mpr listed]
    simp
  · rintro ⟨enabled, -⟩
    cases found : ((w.store .assetWhitelist).getD .empty).get asset with
    | none => simp [found] at enabled
    | some allowed =>
        obtain rfl : allowed = true := by simpa [found] using enabled
        exact ⟨(asset, true), List.mem_filter.mpr ⟨OrderedMap.get_eq_some.mp found, rfl⟩, rfl⟩

theorem incrementU32_run {n : UInt32} (fits : n.toNat + 1 < 2 ^ 32) (w : World) :
    ∃ next, (incrementU32 n).run w = .ok (next, w) ∧ next.toNat = n.toNat + 1 := by
  refine ⟨n + 1, ?_, ?_⟩
  · rw [incrementU32, if_pos fits]
    rfl
  · rw [UInt32.toNat_add]
    exact Nat.mod_eq_of_lt fits

theorem collectPage_run {offset limit : UInt32} {idx : UInt32} {out : List Address}
    {entries : List (Address × Bool)} {w : World}
    (fits : idx.toNat + (entries.filter Prod.snd).length < 2 ^ 32) :
    (collectPage offset limit idx out entries).run w = .ok (out ++
      (((entries.filter Prod.snd).map Prod.fst).drop (offset.toNat - idx.toNat)).take
        (limit.toNat - out.length), w) := by
  induction entries generalizing idx out with
  | nil => simp [collectPage]
  | cons entry rest ih =>
      obtain ⟨asset, allowed⟩ := entry
      cases allowed with
      | false =>
          rw [List.filter_cons_of_neg (by simp)] at fits
          rw [collectPage, if_pos rfl, ih fits, List.filter_cons_of_neg (by simp)]
      | true =>
          rw [List.filter_cons_of_pos rfl, List.length_cons] at fits
          obtain ⟨next, incremented, counted⟩ := incrementU32_run (by omega : idx.toNat + 1 < 2 ^ 32) w
          rw [collectPage, if_neg (by simp), run_bind_of_ok incremented, ih (by omega), counted,
            List.filter_cons_of_pos rfl, List.map_cons]
          have reached : offset ≤ idx ↔ offset.toNat ≤ idx.toNat := UInt32.le_iff_toNat_le
          by_cases before : offset.toNat ≤ idx.toNat
          · have start : offset.toNat - idx.toNat = 0 := by omega
            have later : offset.toNat - (idx.toNat + 1) = 0 := by omega
            rw [start, later, List.drop_zero, List.drop_zero]
            by_cases room : out.length < limit.toNat
            · have left : limit.toNat - out.length = limit.toNat - (out.length + 1) + 1 := by omega
              rw [if_pos ⟨reached.mpr before, room⟩, List.length_append, List.length_singleton, left,
                List.take_succ_cons, List.append_assoc, List.singleton_append]
            · have full : limit.toNat - out.length = 0 := by omega
              rw [if_neg fun both => room both.2, full, List.take_zero, List.take_zero]
          · have skipped : offset.toNat - idx.toNat = offset.toNat - (idx.toNat + 1) + 1 := by omega
            rw [if_neg fun both => before (reached.mp both.1), skipped, List.drop_succ_cons]

/-- A query returns the part of the whitelist that follows the offset. -/
theorem queryWhitelistedAssets_run {offset limit : UInt32} {w : World}
    (initialized : w.initialized = true) (fits : w.whitelisted.length < 2 ^ 32) :
    (queryWhitelistedAssets offset limit).run w =
      .ok ((w.whitelisted.drop offset.toNat).take (min limit.toNat maxBatchSize), w) := by
  have opened : checkInitialized.run w = .ok ((), w) := checkInitialized_ok.mpr ⟨initialized, rfl⟩
  have clamped : (if maxBatchSize < limit.toNat then UInt32.ofNat maxBatchSize else limit).toNat =
      min limit.toNat maxBatchSize := by
    split
    · next large => exact (Nat.min_eq_right large.le).symm
    · next small => exact (Nat.min_eq_left (not_lt.mp small)).symm
  rw [World.whitelisted, List.length_map] at fits
  rw [queryWhitelistedAssets, run_bind_of_ok opened, run_read_bind,
    collectPage_run (by simpa using fits), clamped]
  simp [World.whitelisted]

end OnboardingBridge.Contract
