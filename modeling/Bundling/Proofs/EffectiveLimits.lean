import Bundling.Threshold.Policy
import Mathlib.Algebra.Order.Ring.Int

/-!
The limits of a policy in numbers. A limit that is configured to be positive is kept, and any other
is replaced by a default that is positive too, so the limits of a policy and the period of its age
check always are. None of them is so large that the clock's scale could not hold it.
-/

set_option autoImplicit false
set_option relaxedAutoImplicit false

namespace Bundling

namespace Limits

/-- A limit that is configured to be positive is kept. -/
theorem toNat_positiveOr {n : Int64} (fallback : UInt64) (hn : 0 < n.toInt) :
    (positiveOr fallback n).toNat = n.toInt.toNat := by
  have hle : 0 ≤ n := by
    rw [Int64.le_iff_toInt_le, Int64.toInt_zero]
    omega
  have hpos : ¬ n ≤ 0 := by
    rw [Int64.le_iff_toInt_le, Int64.toInt_zero]
    omega
  rw [positiveOr, if_neg hpos, Int64.toNat_toUInt64_of_le hle]
  rfl

theorem positiveOr_of_not_pos {n : Int64} (fallback : UInt64) (hn : ¬ 0 < n.toInt) :
    positiveOr fallback n = fallback := by
  refine if_pos ?_
  rw [Int64.le_iff_toInt_le, Int64.toInt_zero]
  omega

/-- The value of a limit that is in effect. -/
theorem toNat_positiveOr_eq (n : Int64) :
    ((positiveOr 1000 n).toNat : Int) = if 0 < n.toInt then n.toInt else 1000 := by
  by_cases hpos : 0 < n.toInt
  · rw [if_pos hpos, toNat_positiveOr 1000 hpos]
    omega
  · rw [if_neg hpos, positiveOr_of_not_pos 1000 hpos]
    rfl

theorem toNat_positiveOr_pos {fallback : UInt64} (h : 0 < fallback.toNat) (n : Int64) :
    0 < (positiveOr fallback n).toNat := by
  by_cases hn : 0 < n.toInt
  · rw [toNat_positiveOr fallback hn]
    omega
  · rwa [positiveOr_of_not_pos fallback hn]

theorem toNat_positiveOr_lt (fallback : UInt64) (h : fallback.toNat < 2 ^ 63) (n : Int64) :
    (positiveOr fallback n).toNat < 2 ^ 63 := by
  by_cases hn : 0 < n.toInt
  · have hlt := Int64.toInt_lt n
    rw [toNat_positiveOr fallback hn]
    omega
  · rwa [positiveOr_of_not_pos fallback hn]

theorem toMillis_maxAge (l : Limits) :
    l.policy.maxAge.toMillis = (positiveOr defaultMaxAgeMillis l.ageMillis).toNat :=
  Span.toMillis_ofMillis _

theorem maxItems_pos (l : Limits) : 0 < l.policy.maxItems.toNat :=
  toNat_positiveOr_pos (by decide) l.size

theorem maxAge_pos (l : Limits) : 0 < l.policy.maxAge.toMillis := by
  rw [l.toMillis_maxAge]
  exact toNat_positiveOr_pos (by decide) l.ageMillis

/-- The age limit keeps its value on the clock's scale. -/
theorem toInt_maxAgeMillis (l : Limits) :
    l.policy.maxAgeMillis.toInt = l.policy.maxAge.toMillis := by
  have hlt := toNat_positiveOr_lt defaultMaxAgeMillis (by decide) l.ageMillis
  unfold Policy.maxAgeMillis
  rw [l.toMillis_maxAge, Int64.toInt_ofInt_of_le (by omega) (by omega)]

/-- A size that is configured to be positive reaches the coordinator as it is. -/
theorem toNat_maxItems (l : Limits) (hsize : 0 < l.size.toInt) :
    (l.policy.maxItems.toNat : Int) = l.size.toInt := by
  have hword : l.policy.maxItems.toNat = l.size.toInt.toNat :=
    toNat_positiveOr defaultMaxItems hsize
  omega

end Limits

theorem Policy.checkPeriod_pos (p : Policy) : 0 < p.checkPeriod.toMillis := by
  have hmin : 0 < (Span.ofMillis minCheckPeriodMillis).toMillis := by decide
  unfold checkPeriod Span.max
  split <;> omega

end Bundling
