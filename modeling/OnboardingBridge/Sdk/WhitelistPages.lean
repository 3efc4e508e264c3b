import OnboardingBridge.Contract.DailyLimits
import OnboardingBridge.Contract.Whitelist
import OnboardingBridge.Foundations.Base64
import OnboardingBridge.Relayer.AbiLogs

/-!
# Pages of the whitelist in the SDK

The SDK hands out the whitelist in pages. A cursor is the base64 text of an offset, and a
page that is as long as was asked for has a next one. With arguments that arrive as they are
passed the pages are the whitelist, each asset once and in order (`pages_of_passing`). But the
arguments are encoded twice: the second encoding takes an encoded value for a pair of a
value and a type when it has a property `value` (`whitelist_pages`).
-/

set_option autoImplicit false

namespace OnboardingBridge.Sdk

open Foundations Foundations.Tx Contract Relayer

/-! ## Numbers -/

/-- The double next to a natural number: 53 significant bits, and of two that are as near the even
one. -/
def roundToDouble (n : Nat) : Nat :=
  let unit := 2 ^ (n.log2 + 1 - 53)
  let significand := n / unit
  let rest := 2 * (n % unit)
  if unit < rest ∨ (unit = rest ∧ significand % 2 = 1) then (significand + 1) * unit
  else significand * unit

/-- The shortest decimal digits that read back as a double, and how many zeros follow them. -/
def shortestDigits (value : Nat) : Nat × Nat :=
  let length := (Nat.toDigits 10 value).length
  ((List.range length).findSome? fun dropped =>
    let zeros := length - 1 - dropped
    let unit := 10 ^ zeros
    let below := value / unit
    let candidates := if 2 * (value % unit) ≤ unit then [below, below + 1] else [below + 1, below]
    (candidates.find? fun digits => roundToDouble (digits * unit) = value).map fun digits =>
      (digits, zeros)).getD (value, 0)

/-- `String` of a double that is a natural number. -/
def numberText (value : Nat) : String :=
  if value < 2 ^ 53 then toString value
  else
    let (digits, zeros) := shortestDigits value
    let text := Nat.toDigits 10 digits
    if text.length + zeros ≤ 21 then String.ofList (text ++ List.replicate zeros '0')
    else String.ofList (text.take 1 ++ (if text.length = 1 then [] else '.' :: text.drop 1)) ++ "e+"
      ++ toString (text.length + zeros - 1)

theorem roundToDouble_of_lt {n : ℕ} (small : n < 2 ^ 53) : roundToDouble n = n := by
  have few : n.log2 + 1 - 53 = 0 := by
    rcases Nat.eq_zero_or_pos n with rfl | positive
    · rfl
    · have bits := (Nat.log2_lt positive.ne').mpr small
      omega
  simp [roundToDouble, few, Nat.mod_one]

example : numberText (2 ^ 60) = "1152921504606847000" := by decide +kernel

/-! ## Cursors -/

/-- The integer that `parseInt` reads in base 10, before it is rounded; nothing when it is no
number. -/
def parseDecimal (text : Text) : Option Int :=
  let unsigned := fun digits : Text => naturalIn 10 (digits.takeWhile (isDigitIn 10))
  match text.dropWhile isSpace with
  | '-' :: digits => (unsigned digits).map fun value => -(value : Int)
  | '+' :: digits => (unsigned digits).map Int.ofNat
  | digits => (unsigned digits).map Int.ofNat

def encodeCursor (offset : Nat) : String :=
  String.ofList (Base64.encode (utf8Bytes (numberText offset)))

/-- From `2 ^ 1024` on a number is `Infinity`. -/
def decodeCursor (cursor : Option String) : Nat :=
  match cursor with
  | none => 0
  | some cursor =>
      if cursor = "" then 0
      else
        match parseDecimal (utf8Text (Base64.decode cursor.toList)) with
        | some n =>
            let offset := roundToDouble n.toNat
            if 0 ≤ n ∧ offset < 2 ^ 1024 then offset else 0
        | none => 0

theorem digit_spec : ∀ value : Fin 10, isDigitIn 10 (Nat.digitChar value) = true ∧
    digitValue (Nat.digitChar value) = some value.val ∧ isSpace (Nat.digitChar value) = false ∧
    Nat.digitChar value ≠ '-' ∧ Nat.digitChar value ≠ '+' := by decide

/-- Every character of a decimal text is the digit of a number. -/
theorem mem_toDigits {n : ℕ} {c : Char} (member : c ∈ Nat.toDigits 10 n) :
    ∃ value : Fin 10, c = Nat.digitChar value := by
  induction n using Nat.strongRecOn with
  | ind n ih =>
      by_cases small : n < 10
      · rw [Nat.toDigits_of_lt_base small, List.mem_singleton] at member
        exact ⟨⟨n, small⟩, member⟩
      · rw [Nat.toDigits_of_base_le (by decide) (not_lt.mp small), List.mem_append,
          List.mem_singleton] at member
        rcases member with earlier | rfl
        · exact ih (n / 10) (by omega) earlier
        · exact ⟨⟨n % 10, by omega⟩, rfl⟩

/-- A number is read back from its decimal text. -/
theorem naturalIn_toDigits (n : ℕ) : naturalIn 10 (Nat.toDigits 10 n) = some n := by
  have digits : (Nat.toDigits 10 n).all (isDigitIn 10) = true := by
    refine List.all_eq_true.mpr fun c member => ?_
    obtain ⟨value, rfl⟩ := mem_toDigits member
    exact (digit_spec value).1
  have total (n : ℕ) : (Nat.toDigits 10 n).foldl
      (fun value c => value * 10 + (digitValue c).getD 0) 0 = n := by
    induction n using Nat.strongRecOn with
    | ind n ih =>
        by_cases small : n < 10
        · rw [Nat.toDigits_of_lt_base small]
          simp [(digit_spec ⟨n, small⟩).2.1]
        · rw [Nat.toDigits_of_base_le (by decide) (not_lt.mp small), List.foldl_append,
            ih (n / 10) (by omega)]
          simp only [List.foldl_cons, List.foldl_nil, (digit_spec ⟨n % 10, by omega⟩).2.1,
            Option.getD_some]
          omega
  rw [naturalIn, if_pos ⟨Nat.toDigits_ne_nil, digits⟩, total]

theorem parseDecimal_toDigits (n : ℕ) : parseDecimal (Nat.toDigits 10 n) = some (n : ℤ) := by
  have value := naturalIn_toDigits n
  have digits : ∀ c ∈ Nat.toDigits 10 n, isDigitIn 10 c = true := by
    intro c member
    obtain ⟨digit, rfl⟩ := mem_toDigits member
    exact (digit_spec digit).1
  have whole : (Nat.toDigits 10 n).takeWhile (isDigitIn 10) = Nat.toDigits 10 n :=
    List.takeWhile_eq_self_iff.mpr digits
  match text : Nat.toDigits 10 n with
  | [] => cases Nat.toDigits_ne_nil text
  | c :: rest =>
      obtain ⟨digit, rfl⟩ := mem_toDigits (n := n) (text ▸ List.mem_cons_self : c ∈ _)
      obtain ⟨-, -, solid, notMinus, notPlus⟩ := digit_spec digit
      have noSpace : (Nat.digitChar digit :: rest).dropWhile isSpace =
          Nat.digitChar digit :: rest := by
        rw [List.dropWhile_cons, solid]
        rfl
      rw [text] at value whole
      rw [parseDecimal, noSpace]
      split
      · next signed => exact absurd (List.cons.inj signed).1 notMinus
      · next signed => exact absurd (List.cons.inj signed).1 notPlus
      · simp only [whole, value]
        rfl

/-- An offset is read back from its cursor. -/
theorem decodeCursor_encodeCursor {offset : ℕ} (fits : offset < 2 ^ 53) :
    decodeCursor (some (encodeCursor offset)) = offset := by
  have text : utf8Text (utf8Bytes (numberText offset)) = Nat.toDigits 10 offset := by
    rw [utf8Text_utf8Bytes, numberText, if_pos fits]
    exact Nat.toList_repr
  have read : utf8Text (Base64.decode (encodeCursor offset).toList) = Nat.toDigits 10 offset := by
    rw [encodeCursor, String.toList_ofList, Base64.decode_encode, text]
  have nonempty : encodeCursor offset ≠ "" := by
    intro empty
    rw [empty] at read
    exact Nat.toDigits_ne_nil read.symm
  have finite : offset < 2 ^ 1024 := fits.trans (by decide +kernel)
  rw [decodeCursor]
  simp only [nonempty, if_false, read, parseDecimal_toDigits, Int.toNat_natCast,
    roundToDouble_of_lt fits]
  rw [if_pos ⟨Int.natCast_nonneg _, finite⟩]

/-! ## Arguments -/

/-- The arguments of the query, as values of the contract. -/
inductive ScVal where
  | void
  | u32 (value : UInt32)
deriving DecidableEq

/-- What the encoding of arguments relies on of the Stellar SDK. -/
structure StellarXdr where
  /-- `nativeToScVal` of a number and the type `u32`. -/
  u32 : Nat → Except String ScVal
  /-- Whether an encoded value has a property `value`. -/
  hasValue : Bool
  /-- What `nativeToScVal` makes of that property, when it is taken from its value. -/
  ofProperty : Except String ScVal

/-- A number between the bounds of the type is encoded as it is. -/
def StellarXdr.EncodesU32 (xdr : StellarXdr) : Prop :=
  ∀ value < 2 ^ 32, xdr.u32 value = .ok (.u32 (UInt32.ofNat value))

section Requests

variable (xdr : StellarXdr)

/-- `toSingleScVal` of a value that is encoded already. With a property `value` it passes for a
pair of a value and a type, and it has no type; otherwise `nativeToScVal` returns it. -/
def toSingleScVal (arg : ScVal) : Except String ScVal :=
  if xdr.hasValue = true then xdr.ofProperty else .ok arg

def toScVals (args : List ScVal) : Except String (List ScVal) := args.mapM (toSingleScVal xdr)

/-! ## Pages -/

/-- What the RPC answers to a simulation. -/
inductive Simulation where
  | failed (error : String)
  | returned (retval : Option (List Address))

structure PaginatedResult where
  items : List String
  cursor : Option String
  hasMore : Bool
deriving DecidableEq

variable (text : Address → String) (simulate : List ScVal → Simulation)

def getWhitelistedAssets (cursor : Option String) (limit : Number) :
    Except String PaginatedResult := do
  let .integer limit := limit | throw "limit must be a positive integer"
  if limit < 1 then throw "limit must be a positive integer"
  let effectiveLimit := min limit.toNat 100
  let offset := decodeCursor cursor
  let args ← toScVals xdr [← xdr.u32 offset, ← xdr.u32 effectiveLimit]
  match simulate args with
  | .failed error => throw ("Failed to query whitelisted assets: " ++ error)
  | .returned retval =>
      let page := (retval.getD []).map text
      let nextOffset := roundToDouble (offset + page.length)
      return {
        items := page
        cursor := if page.length = effectiveLimit then some (encodeCursor nextOffset) else none
        hasMore := page.length = effectiveLimit }

end Requests

/-- The answer to a query of the whitelist of a contract. The host takes two arguments of
type `u32` only. -/
def simulateQuery (w : World) : List ScVal → Simulation
  | [.u32 offset, .u32 limit] =>
      match (queryWhitelistedAssets offset limit).run w with
      | .ok (assets, _) => .returned (some assets)
      | .error _ => .failed "HostError"
  | _ => .failed "HostError"

/-- The pages that are fetched from a cursor on until one has no next. -/
inductive Pages (fetch : Option String → Except String PaginatedResult) :
    Option String → List PaginatedResult → Prop
  | last {cursor : Option String} {page : PaginatedResult} (fetched : fetch cursor = .ok page)
      (ends : page.hasMore = false) : Pages fetch cursor [page]
  | more {cursor : Option String} {page : PaginatedResult} {rest : List PaginatedResult}
      (fetched : fetch cursor = .ok page) (goesOn : page.hasMore = true)
      (next : Pages fetch page.cursor rest) : Pages fetch cursor (page :: rest)

theorem Pages.unique {fetch : Option String → Except String PaginatedResult}
    {cursor : Option String} {pages pages' : List PaginatedResult} (fetched : Pages fetch cursor pages)
    (fetched' : Pages fetch cursor pages') : pages = pages' := by
  induction fetched generalizing pages' with
  | last fetched ends =>
      cases fetched' with
      | last again _ =>
          obtain rfl := Except.ok.inj (fetched.symm.trans again)
          rfl
      | more again goesOn _ =>
          obtain rfl := Except.ok.inj (fetched.symm.trans again)
          rw [ends] at goesOn
          cases goesOn
  | more fetched goesOn _ ih =>
      cases fetched' with
      | last again ends =>
          obtain rfl := Except.ok.inj (fetched.symm.trans again)
          rw [ends] at goesOn
          cases goesOn
      | more again _ next =>
          obtain rfl := Except.ok.inj (fetched.symm.trans again)
          rw [ih next]

section Paging

variable {xdr : StellarXdr} {text : Address → String} {w : World}

theorem toScVals_passing (passes : xdr.hasValue = false) (args : List ScVal) :
    toScVals xdr args = .ok args := by
  have kept : toSingleScVal xdr = pure := by
    funext arg
    rw [toSingleScVal, if_neg (by simp [passes])]
    rfl
  rw [toScVals, kept, List.mapM_pure]
  simp [pure, Except.pure]

/-- Arguments that arrive as they are passed get the page at the offset. -/
theorem getWhitelistedAssets_passing (text : Address → String) (encodes : xdr.EncodesU32)
    (passes : xdr.hasValue = false) (initialized : w.initialized = true)
    (fits : w.whitelisted.length < 2 ^ 32) {limit : ℕ} (positive : 1 ≤ limit)
    {cursor : Option String} {offset : ℕ} (here : decodeCursor cursor = offset) (inside : offset ≤ w.whitelisted.length) :
    getWhitelistedAssets xdr text (simulateQuery w) cursor (.integer limit) = .ok {
      items := ((w.whitelisted.drop offset).take (min limit 100)).map text
      cursor := if ((w.whitelisted.drop offset).take (min limit 100)).length = min limit 100 then
        some (encodeCursor (offset + min limit 100)) else none
      hasMore := ((w.whitelisted.drop offset).take (min limit 100)).length = min limit 100 } := by
  have small : ¬ (limit : ℤ) < 1 := by omega
  have offsetFits : offset < 2 ^ 32 := by omega
  have limitFits : min limit 100 < 2 ^ 32 := by omega
  have offsetValue : (UInt32.ofNat offset).toNat = offset := by
    rw [UInt32.toNat_ofNat']
    exact Nat.mod_eq_of_lt offsetFits
  have limitValue : (UInt32.ofNat (min limit 100)).toNat = min limit 100 := by
    rw [UInt32.toNat_ofNat']
    exact Nat.mod_eq_of_lt limitFits
  have answered : simulateQuery w [.u32 (UInt32.ofNat offset), .u32 (UInt32.ofNat (min limit 100))] =
      .returned (some ((w.whitelisted.drop offset).take (min limit 100))) := by
    rw [simulateQuery, queryWhitelistedAssets_run initialized fits, offsetValue, limitValue,
      show min (min limit 100) maxBatchSize = min limit 100 by simp [maxBatchSize]]
  simp only [getWhitelistedAssets, if_neg small, Int.toNat_natCast, here, encodes _ offsetFits,
    encodes _ limitFits, bind, Except.bind, pure, Except.pure, toScVals_passing passes, answered,
    Option.getD_some, List.length_map]
  by_cases full : ((w.whitelisted.drop offset).take (min limit 100)).length = min limit 100
  · have exact : offset + min limit 100 < 2 ^ 53 := by omega
    simp only [full, if_true, roundToDouble_of_lt exact]
  · simp only [full, if_false]

/-- The pages from an offset on are the rest of the whitelist. -/
theorem pages_from (text : Address → String) (encodes : xdr.EncodesU32)
    (passes : xdr.hasValue = false) (initialized : w.initialized = true)
    (fits : w.whitelisted.length < 2 ^ 32) {limit : ℕ} (positive : 1 ≤ limit) (left : ℕ)
    {offset : ℕ} (distance : w.whitelisted.length = offset + left) {cursor : Option String}
    (here : decodeCursor cursor = offset) :
    ∃ pages, Pages (fun cursor =>
        getWhitelistedAssets xdr text (simulateQuery w) cursor (.integer limit)) cursor pages ∧
      pages.flatMap PaginatedResult.items = (w.whitelisted.drop offset).map text ∧
      ∀ page ∈ pages, page.items.length ≤ min limit 100 := by
  induction left using Nat.strongRecOn generalizing offset cursor with
  | ind left ih =>
      have fetched := getWhitelistedAssets_passing text encodes passes initialized fits positive here
        (by omega)
      have length : ((w.whitelisted.drop offset).take (min limit 100)).length =
          min (min limit 100) left := by
        rw [List.length_take, List.length_drop, distance, Nat.add_sub_cancel_left]
      rw [length] at fetched
      by_cases full : min (min limit 100) left = min limit 100
      · -- a full page: the next one starts where it ends
        rw [if_pos full] at fetched
        have next := decodeCursor_encodeCursor (by omega : offset + min limit 100 < 2 ^ 53)
        obtain ⟨rest, pages, items, bounded⟩ := ih (left - min limit 100) (by omega) (by omega) next
        refine ⟨_ :: rest, .more fetched (by simpa using full) pages, ?_, ?_⟩
        · rw [List.flatMap_cons, items, ← List.map_append, ← List.drop_drop, List.take_append_drop]
        · refine List.forall_mem_cons.mpr ⟨?_, bounded⟩
          simp
      · refine ⟨[_], .last fetched (by simpa using full), ?_, ?_⟩
        · rw [List.flatMap_singleton, List.take_of_length_le]
          rw [List.length_drop]
          omega
        · simp

/-! ## What the code does -/

/-- Fetching from the start until a page has no next ends, and its pages are the whitelist of
the contract: each asset once, in the order of the map, and no page longer than the limit or
than 100. -/
structure Paged (xdr : StellarXdr) (text : Address → String) (w : World) (limit : ℕ) : Prop where
  ends : ∃ pages, Pages (fun cursor =>
    getWhitelistedAssets xdr text (simulateQuery w) cursor (.integer limit)) none pages
  yields : ∀ pages, Pages (fun cursor =>
      getWhitelistedAssets xdr text (simulateQuery w) cursor (.integer limit)) none pages →
    pages.flatMap PaginatedResult.items = w.whitelisted.map text ∧
      ∀ page ∈ pages, page.items.length ≤ min limit 100

theorem pages_of_passing (encodes : xdr.EncodesU32) (passes : xdr.hasValue = false)
    (initialized : w.initialized = true) (fits : w.whitelisted.length < 2 ^ 32) {limit : ℕ}
    (positive : 1 ≤ limit) : Paged xdr text w limit := by
  obtain ⟨pages, fetched, items, bounded⟩ := pages_from text encodes passes initialized fits positive
    w.whitelisted.length (Nat.zero_add _).symm (rfl : decodeCursor none = 0)
  refine ⟨⟨pages, fetched⟩, fun pages' fetched' => ?_⟩
  obtain rfl := fetched.unique fetched'
  exact ⟨items, bounded⟩

/-- Arguments that pass for pairs are not encoded. -/
theorem getWhitelistedAssets_reencoding (pairs : xdr.hasValue = true) {reason : String}
    (detached : xdr.ofProperty = .error reason) (simulate : List ScVal → Simulation)
    (cursor : Option String) (limit : Number) (page : PaginatedResult) :
    getWhitelistedAssets xdr text simulate cursor limit ≠ .ok page := by
  intro fetched
  have refused (arg arg' : ScVal) : toScVals xdr [arg, arg'] = .error reason := by
    simp [toScVals, toSingleScVal, pairs, detached, bind, Except.bind]
  cases limit with
  | other => cases fetched
  | integer limit =>
      rw [getWhitelistedAssets] at fetched
      by_cases small : limit < 1
      · simp [small, bind, Except.bind, throw, throwThe, MonadExceptOf.throw] at fetched
      · simp only [if_neg small, bind, Except.bind, pure, Except.pure] at fetched
        cases first : xdr.u32 (decodeCursor cursor) with
        | error _ => simp [first] at fetched
        | ok arg =>
            cases second : xdr.u32 (min limit.toNat 100) with
            | error _ => simp [first, second] at fetched
            | ok arg' => simp [first, second, refused] at fetched

/-- The pages are the whitelist when encoded values have no property `value`. When they have one,
no page is ever fetched. The whitelist has every asset that the contract admits once, in the order
of the map. -/
theorem whitelist_pages {reason : String} (encodes : xdr.EncodesU32)
    (detached : xdr.ofProperty = .error reason) (initialized : w.initialized = true)
    (fits : w.whitelisted.length < 2 ^ 32) {limit : ℕ} (positive : 1 ≤ limit) :
    (Paged xdr text w limit ↔ xdr.hasValue = false) ∧ w.whitelisted.Pairwise (· < ·) ∧
      ∀ asset, asset ∈ w.whitelisted ↔ (checkAssetWhitelisted asset).run w = .ok ((), w) := by
  refine ⟨⟨fun paged => ?_, fun passes => pages_of_passing encodes passes initialized fits positive⟩,
    w.whitelisted_sorted, fun asset => World.mem_whitelisted⟩
  obtain ⟨pages, fetched⟩ := paged.ends
  refine Bool.eq_false_iff.mpr fun pairs => ?_
  cases fetched with
  | last fetched _ => exact getWhitelistedAssets_reencoding pairs detached _ _ _ _ fetched
  | more fetched _ _ => exact getWhitelistedAssets_reencoding pairs detached _ _ _ _ fetched

end Paging

namespace Rehearsal

/-- An encoded value has a method `value`, which throws when it is called without its value. -/
def unionXdr : StellarXdr where
  u32 value := .ok (.u32 (UInt32.ofNat value))
  hasValue := true
  ofProperty := .error "Cannot read properties of undefined"

end Rehearsal

/-- The whitelist of one asset is not fetched. -/
theorem whitelist_not_fetched :
    ¬ Paged Rehearsal.unionXdr (fun _ => "") (Contract.Rehearsal.outcome Contract.Rehearsal.opening)
      20 := by
  intro paged
  obtain ⟨pages, fetched⟩ := paged.ends
  cases fetched with
  | last fetched _ => cases fetched
  | more fetched _ _ => cases fetched

theorem whitelist_pages_rehearsed :
    let w := Contract.Rehearsal.outcome Contract.Rehearsal.opening
    w.whitelisted = [Contract.Rehearsal.address 3] ∧
      (Paged Rehearsal.unionXdr (fun _ => "") w 20 ↔ Rehearsal.unionXdr.hasValue = false) := by
  intro w
  exact ⟨by decide +kernel, (whitelist_pages (fun _ _ => rfl) rfl (by decide +kernel)
    (by decide +kernel) (by decide)).1⟩

end OnboardingBridge.Sdk
