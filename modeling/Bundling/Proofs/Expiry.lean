import Bundling.Proofs.Machine

/-!
The age check at every value. The age limit goes from a signed word to an unsigned one, to a length
of time, to milliseconds and back to a signed word, and keeps its value all the way; the clock's
distance from the last close is cut off at both ends of a word, and that never carries it across a
limit. So the check finds the limit passed exactly if it is passed in unbounded integers, wherever
the clock and the last close stand.
-/

set_option autoImplicit false
set_option relaxedAutoImplicit false

namespace Bundling

/-- A word cuts an integer off at its two ends. -/
theorem toInt_saturate (n : Int) : (saturate n).toInt = max (-2 ^ 63) (min n (2 ^ 63 - 1)) := by
  have hmin : Int64.minValue.toInt = -2 ^ 63 := Int64.toInt_minValue
  have hmax : Int64.maxValue.toInt = 2 ^ 63 - 1 := Int64.toInt_maxValue
  unfold saturate
  split
  case isTrue hbelow => omega
  case isFalse hbelow =>
    split
    case isTrue habove => omega
    case isFalse habove =>
      rw [Int64.toInt_ofInt_of_le (by omega) (by omega)]
      omega

namespace Limits

/-- The age limit in effect, in milliseconds: the configured one if it is positive, and the default
otherwise. -/
def ageInEffect (l : Limits) : Int := if 0 < l.ageMillis.toInt then l.ageMillis.toInt else 1000

variable (l : Limits)

theorem ageInEffect_pos : 0 < l.ageInEffect := by
  unfold ageInEffect
  split <;> omega

/-- The unsigned word has the limit in effect. -/
theorem toNat_ageMillis :
    ((positiveOr defaultMaxAgeMillis l.ageMillis).toNat : Int) = l.ageInEffect :=
  toNat_positiveOr_eq l.ageMillis

theorem toMillis_maxAge_eq : (l.policy.maxAge.toMillis : Int) = l.ageInEffect := by
  rw [l.toMillis_maxAge, l.toNat_ageMillis]

theorem toInt_maxAgeMillis_eq : l.policy.maxAgeMillis.toInt = l.ageInEffect := by
  rw [l.toInt_maxAgeMillis, l.toMillis_maxAge_eq]

end Limits

/-- Whatever the age limit is configured to be and wherever the clock and the last close stand, the
age check compares them as integers do: the limit keeps its value through all its forms, and no
distance gets past it or short of it by being cut off. -/
theorem Coordinator.isExpired_exact (l : Limits) (c : Coordinator) :
    (({ c with policy := l.policy } : Coordinator).isExpired = true ↔
      l.ageInEffect ≤ c.timer.now.toInt - c.slot.lastClose.toInt) ∧
    ((Limits.positiveOr defaultMaxAgeMillis l.ageMillis).toNat : Int) = l.ageInEffect ∧
    (l.policy.maxAge.toMillis : Int) = l.ageInEffect ∧
    l.policy.maxAgeMillis.toInt = l.ageInEffect ∧
    ∀ now : Int64,
      (c.slot.age now).toInt =
        max (-2 ^ 63) (min (now.toInt - c.slot.lastClose.toInt) (2 ^ 63 - 1)) ∧
      (l.ageInEffect ≤ (c.slot.age now).toInt ↔
        l.ageInEffect ≤ now.toInt - c.slot.lastClose.toInt) := by
  have hlimit := l.toInt_maxAgeMillis_eq
  have hpos := l.ageInEffect_pos
  refine ⟨?expired, l.toNat_ageMillis, l.toMillis_maxAge_eq, hlimit, fun now ↦
    ⟨toInt_saturate _, ?cut⟩⟩
  case expired =>
    rw [isExpired_iff (l := l) rfl, l.toMillis_maxAge_eq]
  case cut =>
    have hcut := le_saturate_iff (a := l.policy.maxAgeMillis) (by omega)
      (now.toInt - c.slot.lastClose.toInt)
    rwa [Int64.le_iff_toInt_le, hlimit] at hcut

end Bundling
