import OnboardingBridge.Foundations.Calendar
import OnboardingBridge.Foundations.TextOrder
import OnboardingBridge.Indexer.DeliveryLifecycle
import Mathlib.Data.Char

/-!
# Instants as texts

The database keeps instants as the texts that `to_rfc3339` prints, and compares them bytewise. The
texts of the years up to 9999 are ordered like the instants, though their fractions have different
lengths: a plus sign comes before a point, and both come before every digit.
-/

set_option autoImplicit false

namespace OnboardingBridge.Indexer

open Foundations Relayer

/-! ## Printing -/

/-- The digits of a number, with leading zeros. -/
def decimal (width n : ℕ) : Text := numeral Nat.digitChar 10 width n

structure DateTime where
  date : Date
  hour : ℕ
  minute : ℕ
  second : ℕ
  nanosecond : ℕ

/-- The first instant of the year 10000. Instants count nanoseconds from the beginning of year 0. -/
def instantLimit : Instant := daysBeforeYear 10000 * 86400 * 10 ^ 9

/-- The date and the time of day in UTC. -/
def DateTime.ofInstant (t : Instant) : DateTime :=
  let seconds := t / 10 ^ 9
  { date := .ofDayNumber 9999 (seconds / 86400)
    hour := seconds % 86400 / 3600
    minute := seconds % 3600 / 60
    second := seconds % 60
    nanosecond := t % 10 ^ 9 }

/-- The date and the time to the second. -/
def DateTime.toSeconds (d : DateTime) : Text :=
  decimal 4 d.date.year ++ ['-'] ++ decimal 2 d.date.month ++ ['-'] ++ decimal 2 d.date.day ++ ['T'] ++
    decimal 2 d.hour ++ [':'] ++ decimal 2 d.minute ++ [':'] ++ decimal 2 d.second

/-- No fraction, or 3, 6 or 9 digits of it. -/
def fraction (nanosecond : ℕ) : Text :=
  if nanosecond = 0 then []
  else if nanosecond % 1000000 = 0 then '.' :: decimal 3 (nanosecond / 1000000)
  else if nanosecond % 1000 = 0 then '.' :: decimal 6 (nanosecond / 1000)
  else '.' :: decimal 9 nanosecond

def utcOffset : Text := ['+', '0', '0', ':', '0', '0']

def toRfc3339 (t : Instant) : Text :=
  (DateTime.ofInstant t).toSeconds ++ (fraction (DateTime.ofInstant t).nanosecond ++ utcOffset)

example : toRfc3339 ((739310 * 86400 + 45296) * 10 ^ 9 + 500000000) =
    "2024-02-29T12:34:56.500+00:00".toList := by decide +kernel

/-! ## Fractions -/

theorem digitChar_lt : ∀ a b, a < b → b < 10 → Nat.digitChar a < Nat.digitChar b := by
  intro a b less bound
  interval_cases b <;> interval_cases a <;> decide

theorem decimal_append_lt_iff {width n m : ℕ} (boundN : n < 10 ^ width) (boundM : m < 10 ^ width)
    (rest others : Text) : decimal width n ++ rest < decimal width m ++ others ↔
      n < m ∨ n = m ∧ rest < others :=
  numeral_append_lt_iff digitChar_lt boundN boundM rest others

theorem decimal_add (high low n : ℕ) :
    decimal (high + low) n = decimal high (n / 10 ^ low) ++ decimal low n :=
  numeral_add high low n

/-- Only the digits of the width matter. -/
theorem decimal_mod (width n : ℕ) : decimal width (n % 10 ^ width) = decimal width n :=
  numeral_mod width n

/-- The groups of three digits up to the last one that is not zero, and the offset. -/
def groupsText : List ℕ → Text
  | [] => utcOffset
  | group :: rest =>
      if ∀ other ∈ group :: rest, other = 0 then utcOffset else decimal 3 group ++ groupsText rest

theorem plus_lt_digitChar : ∀ d, d < 10 → '+' < Nat.digitChar d := by
  intro d bound
  interval_cases d <;> decide

theorem utcOffset_lt_decimal (width n : ℕ) (rest : Text) :
    utcOffset < decimal (1 + width) n ++ rest := by
  rw [decimal_add]
  exact List.Lex.rel (plus_lt_digitChar _ (Nat.mod_lt _ (by decide)))

/-- The texts of groups are ordered like the groups. -/
theorem groupsText_lt_iff {groups others : List ℕ} (length : groups.length = others.length)
    (bound : ∀ group ∈ groups, group < 1000) (bound' : ∀ group ∈ others, group < 1000) :
    groupsText groups < groupsText others ↔ groups < others := by
  induction groups generalizing others with
  | nil =>
      obtain rfl := List.length_eq_zero_iff.mp length.symm
      simp
  | cons group rest ih =>
      cases others with
      | nil => simp at length
      | cons other others =>
          rw [groupsText, groupsText]
          by_cases zero : ∀ value ∈ group :: rest, value = 0
          · rw [if_pos zero]
            by_cases zero' : ∀ value ∈ other :: others, value = 0
            · rw [if_pos zero', eq_of_zeros length zero zero']
              simp
            · -- the offset comes before every digit
              rw [if_neg zero']
              refine iff_of_true (utcOffset_lt_decimal 2 _ _) ?_
              rcases lt_or_eq_of_le (not_lt.mp (not_lt_zeros length.symm zero)) with before | same
              · exact before
              · exact absurd (same ▸ zero) zero'
          · rw [if_neg zero]
            by_cases zero' : ∀ value ∈ other :: others, value = 0
            · rw [if_pos zero']
              exact iff_of_false (List.lt_asymm (utcOffset_lt_decimal 2 _ _)) (not_lt_zeros length zero')
            · rw [if_neg zero']
              obtain ⟨here, later⟩ := List.forall_mem_cons.mp bound
              obtain ⟨here', later'⟩ := List.forall_mem_cons.mp bound'
              have length : rest.length = others.length := by simpa using length
              rw [decimal_append_lt_iff here here', ih length later later', List.cons_lt_cons_iff]

/-- The three groups of a fraction. -/
def fractionGroups (nanosecond : ℕ) : List ℕ :=
  [nanosecond / 1000000, nanosecond / 1000 % 1000, nanosecond % 1000]

theorem fractionGroups_lt_iff (n m : ℕ) : fractionGroups n < fractionGroups m ↔ n < m := by
  simp only [fractionGroups, List.cons_lt_cons_iff, List.lt_irrefl, and_false, or_false]
  omega

theorem fraction_groups (nanosecond : ℕ) : fraction nanosecond ++ utcOffset =
    if nanosecond = 0 then utcOffset else '.' :: groupsText (fractionGroups nanosecond) := by
  unfold fraction
  split
  · rfl
  · next some =>
    have groups (k : ℕ) : decimal 3 (k % 1000) = decimal 3 k := decimal_mod 3 k
    split
    · next millis =>
      have none : nanosecond / 1000 % 1000 = 0 ∧ nanosecond % 1000 = 0 := by omega
      have leads : nanosecond / 1000000 ≠ 0 := by omega
      simp [groupsText, fractionGroups, none, leads]
    · next more =>
      split
      · next micros =>
        have none : nanosecond % 1000 = 0 := by omega
        have leads : nanosecond / 1000 % 1000 ≠ 0 := by omega
        have joined := decimal_add 3 3 (nanosecond / 1000)
        rw [Nat.div_div_eq_div_mul, ← groups (nanosecond / 1000)] at joined
        simp [groupsText, fractionGroups, none, leads, joined]
      · next nanos =>
        have joined := decimal_add 3 6 nanosecond
        have joined' := decimal_add 3 3 nanosecond
        rw [joined', ← groups nanosecond, ← groups (nanosecond / 10 ^ 3)] at joined
        simp [groupsText, fractionGroups, nanos, joined]

/-- The fractions are ordered like the nanoseconds they stand for. -/
theorem fraction_lt_iff {n m : ℕ} (boundN : n < 10 ^ 9) (boundM : m < 10 ^ 9) :
    fraction n ++ utcOffset < fraction m ++ utcOffset ↔ n < m := by
  have groups (k : ℕ) (bound : k < 10 ^ 9) : ∀ group ∈ fractionGroups k, group < 1000 := by
    intro group member
    simp only [fractionGroups, List.mem_cons, List.not_mem_nil, or_false] at member
    omega
  have length : (fractionGroups n).length = (fractionGroups m).length := rfl
  have later := groupsText_lt_iff length (groups n boundN) (groups m boundM)
  rw [fractionGroups_lt_iff] at later
  have plain (rest : Text) : utcOffset < '.' :: rest := List.Lex.rel (by decide)
  rw [fraction_groups, fraction_groups]
  by_cases zero : n = 0
  · rw [if_pos zero]
    by_cases zero' : m = 0
    · rw [if_pos zero', zero, zero']
      simp
    · rw [if_neg zero', zero]
      exact iff_of_true (plain _) (Nat.pos_of_ne_zero zero')
  · rw [if_neg zero]
    by_cases zero' : m = 0
    · rw [if_pos zero', zero']
      exact iff_of_false (List.lt_asymm (plain _)) (Nat.not_lt_zero n)
    · rw [if_neg zero', List.cons_lt_cons_iff, later]
      simp

/-! ## Texts of instants -/

theorem decimal_ranks {ι : Type} {width : ℕ} {value : ι → ℕ} (bound : ∀ i, value i < 10 ^ width) :
    Ranks (fun i => decimal width (value i)) value :=
  .numeral digitChar_lt bound

/-- The instants whose texts begin with a year of four digits. -/
abbrev PrintedInstant : Type := { t : Instant // t < instantLimit }

theorem PrintedInstant.days {t : Instant} (printed : t < instantLimit) :
    t / 10 ^ 9 / 86400 < daysBeforeYear (9999 + 1) := by
  rw [Nat.div_div_eq_div_mul, Nat.mul_comm]
  refine Nat.div_lt_of_lt_mul ?_
  rw [Nat.mul_comm, ← Nat.mul_assoc]
  exact printed

/-- The dates of instants are printed in the order of their days. -/
theorem date_ranks : Ranks (fun i : PrintedInstant =>
      decimal 4 (DateTime.ofInstant i.1).date.year ++ ['-'] ++
        decimal 2 (DateTime.ofInstant i.1).date.month ++ ['-'] ++
        decimal 2 (DateTime.ofInstant i.1).date.day) fun i => i.1 / 10 ^ 9 / 86400 := by
  let date (i : PrintedInstant) : Date := (DateTime.ofInstant i.1).date
  have spec (i : PrintedInstant) : (date i).Valid ∧ (date i).year ≤ 9999 ∧
      (date i).dayNumber = i.1 / 10 ^ 9 / 86400 := Date.ofDayNumber_spec (PrintedInstant.days i.2)
  have month (i : PrintedInstant) : (date i).month < 13 := by
    have last := (spec i).1.lastMonth
    omega
  have day (i : PrintedInstant) : (date i).day < 32 := by
    have last := (spec i).1.lastDay.trans (daysInMonth_le _ _)
    omega
  have years : Ranks (fun i => decimal 4 (date i).year) fun i => (date i).year :=
    decimal_ranks fun i => by
      have last := (spec i).2.1
      omega
  have months : Ranks (fun i => decimal 2 (date i).month) fun i => (date i).month :=
    decimal_ranks fun i => (month i).trans (by decide)
  have days : Ranks (fun i => decimal 2 (date i).day) fun i => (date i).day :=
    decimal_ranks fun i => (day i).trans (by decide)
  refine ((((years.followed ['-']).append months month).followed ['-']).append days day).congr
    fun i j => ?_
  rw [← (spec i).2.2, ← (spec j).2.2, Date.dayNumber_lt_iff (spec i).1 (spec j).1]
  have monthI := month i
  have monthJ := month j
  have dayI := day i
  have dayJ := day j
  omega

/-- Up to the seconds the texts are ordered like the seconds. -/
theorem toSeconds_ranks : Ranks (fun i : PrintedInstant => (DateTime.ofInstant i.1).toSeconds)
    fun i => i.1 / 10 ^ 9 := by
  have hour (i : PrintedInstant) : i.1 / 10 ^ 9 % 86400 / 3600 < 24 :=
    Nat.div_lt_of_lt_mul (Nat.mod_lt _ (by decide))
  have minute (i : PrintedInstant) : i.1 / 10 ^ 9 % 3600 / 60 < 60 :=
    Nat.div_lt_of_lt_mul (Nat.mod_lt _ (by decide))
  have second (i : PrintedInstant) : i.1 / 10 ^ 9 % 60 < 60 := Nat.mod_lt _ (by decide)
  have hours : Ranks (fun i : PrintedInstant => decimal 2 (DateTime.ofInstant i.1).hour)
      fun i => i.1 / 10 ^ 9 % 86400 / 3600 := decimal_ranks fun i => (hour i).trans (by decide)
  have minutes : Ranks (fun i : PrintedInstant => decimal 2 (DateTime.ofInstant i.1).minute)
      fun i => i.1 / 10 ^ 9 % 3600 / 60 := decimal_ranks fun i => (minute i).trans (by decide)
  have seconds : Ranks (fun i : PrintedInstant => decimal 2 (DateTime.ofInstant i.1).second)
      fun i => i.1 / 10 ^ 9 % 60 := decimal_ranks fun i => (second i).trans (by decide)
  have toHours := (date_ranks.followed ['T']).append hours hour
  have toMinutes := (toHours.followed [':']).append minutes minute
  have toSeconds := (toMinutes.followed [':']).append seconds second
  refine toSeconds.congr fun i j => ?_
  omega

/-- The texts of instants are ordered like the instants. -/
theorem toRfc3339_lt_iff {a b : Instant} (printed : a < instantLimit) (printed' : b < instantLimit) :
    toRfc3339 a < toRfc3339 b ↔ a < b := by
  have whole := toSeconds_ranks.append_lt_iff ⟨a, printed⟩ ⟨b, printed'⟩
    (fraction (a % 10 ^ 9) ++ utcOffset) (fraction (b % 10 ^ 9) ++ utcOffset)
  rw [fraction_lt_iff (Nat.mod_lt _ (by decide)) (Nat.mod_lt _ (by decide))] at whole
  exact whole.trans (div_mod_lt_iff a b (10 ^ 9))

/-! ## The deliveries that are due -/

/-- A text is at most another one. All characters are of ASCII, so that bytes compare like them. -/
def textAtMost (first second : Text) : Bool := decide (¬ second < first)

theorem textAtMost_iff {a b : Instant} (printed : a < instantLimit) (printed' : b < instantLimit) :
    textAtMost (toRfc3339 a) (toRfc3339 b) = true ↔ a ≤ b := by
  rw [textAtMost, decide_eq_true_iff, toRfc3339_lt_iff printed' printed, not_lt]

namespace WebhookStore

/-- The statement of `get_pending_deliveries`, which compares the texts of the instants. -/
def dueByText (s : WebhookStore) (now : Text) : List WebhookDelivery :=
  s.deliveries.filter fun row => row.status = .pending &&
    (row.nextRetryAt.map toRfc3339).all fun nextRetryAt => textAtMost nextRetryAt now

/-- An order of rows by the texts of `created_at`. -/
def SortedByText (rows : List WebhookDelivery) : Prop :=
  rows.Pairwise fun row later => textAtMost (toRfc3339 row.createdAt) (toRfc3339 later.createdAt)

instance (rows : List WebhookDelivery) : Decidable (SortedByText rows) :=
  inferInstanceAs (Decidable (List.Pairwise _ _))

/-- `get_pending_deliveries` over texts, for an order in which the database sorts the rows. -/
def pendingByText (s : WebhookStore) (now : Text) (sorted : List WebhookDelivery) :
    Option (List WebhookDelivery) :=
  if sorted.Perm (s.dueByText now) ∧ SortedByText sorted then some (sorted.take pendingLimit)
  else none

/-- The instants of the rows have years of four digits. -/
def Printed (s : WebhookStore) : Prop :=
  ∀ row ∈ s.deliveries, row.createdAt < instantLimit ∧
    ∀ nextRetryAt ∈ row.nextRetryAt, nextRetryAt < instantLimit

section Printed

variable {s : WebhookStore} (printed : s.Printed)
include printed

theorem dueByText_eq {now : Instant} (current : now < instantLimit) :
    s.dueByText (toRfc3339 now) = s.dueDeliveries now := by
  refine List.filter_congr fun row member => ?_
  cases due : row.nextRetryAt with
  | none => rfl
  | some nextRetryAt =>
    have same : textAtMost (toRfc3339 nextRetryAt) (toRfc3339 now) = decide (nextRetryAt ≤ now) := by
      rw [Bool.eq_iff_iff, textAtMost_iff ((printed row member).2 nextRetryAt due) current,
        decide_eq_true_iff]
    simp only [Option.map_some, Option.all_some, same]

theorem sortedByText_iff {rows : List WebhookDelivery} (known : rows ⊆ s.deliveries) :
    SortedByText rows ↔ rows.Pairwise fun row later => row.createdAt ≤ later.createdAt :=
  List.Pairwise.iff_of_mem fun here there =>
    textAtMost_iff (printed _ (known here)).1 (printed _ (known there)).1

theorem pendingByText_eq {now : Instant} (current : now < instantLimit)
    (sorted : List WebhookDelivery) :
    s.pendingByText (toRfc3339 now) sorted = s.getPendingDeliveries now sorted := by
  unfold pendingByText getPendingDeliveries
  rw [dueByText_eq printed current]
  by_cases perm : sorted.Perm (s.dueDeliveries now)
  · have known : sorted ⊆ s.deliveries := fun row member =>
      (List.mem_filter.mp (perm.subset member)).1
    simp only [sortedByText_iff printed known]
  · rw [if_neg fun both => perm both.1, if_neg fun both => perm both.1]

end Printed

end WebhookStore

/-- The texts of instants with years of four digits are ordered like the instants. What is
selected by text is what is pending and due, and it is served oldest first. -/
theorem retry_scheduling :
    (∀ a b : Instant, a < instantLimit → b < instantLimit →
      (toRfc3339 a < toRfc3339 b ↔ a < b)) ∧
    ∀ (s : WebhookStore) (now : Instant), s.Printed → now < instantLimit →
      (∀ row, row ∈ s.dueByText (toRfc3339 now) ↔ row ∈ s.deliveries ∧ row.status = .pending ∧
        ∀ nextRetryAt ∈ row.nextRetryAt, nextRetryAt ≤ now) ∧
      ∀ sorted, s.pendingByText (toRfc3339 now) sorted = s.getPendingDeliveries now sorted ∧
        ∀ rows, s.pendingByText (toRfc3339 now) sorted = some rows →
          rows.Pairwise fun row later => row.createdAt ≤ later.createdAt := by
  refine ⟨fun a b printed printed' => toRfc3339_lt_iff printed printed', ?_⟩
  intro s now printed current
  refine ⟨fun row => ?_, fun sorted => ⟨WebhookStore.pendingByText_eq printed current sorted, ?_⟩⟩
  · rw [WebhookStore.dueByText_eq printed current, WebhookStore.dueDeliveries, List.mem_filter,
      Bool.and_eq_true, decide_eq_true_iff]
    refine and_congr_right fun _ => and_congr_right fun _ => ?_
    cases row.nextRetryAt with
    | none => simp
    | some nextRetryAt => simp
  · intro rows served
    rw [WebhookStore.pendingByText_eq printed current, WebhookStore.getPendingDeliveries] at served
    split at served
    · next ordered =>
      obtain rfl := Option.some.inj served
      exact ordered.2.sublist (List.take_sublist _ _)
    · cases served

namespace Rehearsal

/-- A delivery that is due after two nanoseconds, and one that is due after three seconds. -/
def twoDeliveries : WebhookStore :=
  { WebhookStore.empty with deliveries := [fundedDelivery, { retriedDelivery with id := "3S" }] }

theorem twoDeliveries_printed : twoDeliveries.Printed := by
  intro row member
  rcases List.mem_cons.mp member with rfl | member
  · exact ⟨by decide, by decide⟩
  · obtain rfl := List.mem_singleton.mp member
    exact ⟨by decide, by decide⟩

end Rehearsal

open Rehearsal in
/-- A second and a half comes before a second and a half and a nanosecond. After two seconds and a
half only the first delivery is served. -/
theorem retry_scheduling_rehearsed :
    toRfc3339 1500000000 < toRfc3339 1500000001 ∧
    (∀ row, row ∈ twoDeliveries.dueByText (toRfc3339 2500000000) ↔
      row ∈ twoDeliveries.deliveries ∧ row.status = .pending ∧
        ∀ nextRetryAt ∈ row.nextRetryAt, nextRetryAt ≤ 2500000000) ∧
    twoDeliveries.pendingByText (toRfc3339 2500000000) [fundedDelivery] = some [fundedDelivery] := by
  obtain ⟨ordered, served⟩ := retry_scheduling
  obtain ⟨due, pending⟩ :=
    served twoDeliveries 2500000000 twoDeliveries_printed (by decide)
  refine ⟨(ordered 1500000000 1500000001 (by decide) (by decide)).mpr (by decide), due, ?_⟩
  rw [(pending [fundedDelivery]).1]
  decide

end OnboardingBridge.Indexer
