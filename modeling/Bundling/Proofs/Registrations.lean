import Bundling.Timer.Registry

/-!
What the calls on a timer source do to its registrations. A successful schedule adds one at the end,
a failed one adds none, and nothing but a schedule makes a registration active: cancelling and
dropping only end some.
-/

set_option autoImplicit false
set_option relaxedAutoImplicit false

namespace Bundling

namespace Timer

variable {t u v : Timer}

theorem isActive_congr (h : u.registrations = t.registrations) (i : Nat) :
    u.isActive i = t.isActive i := by
  simp [isActive, h]

/-- A registration that is active has been handed out. -/
theorem lt_length_of_isActive {i : Nat} (h : t.isActive i = true) :
    i < t.registrations.length := by
  rcases Nat.lt_or_ge i t.registrations.length with hlt | hge
  · exact hlt
  · simp [isActive, List.getElem?_eq_none hge] at h

/-! ### Schedules -/

theorem registrations_of_schedule_error {period : Nat} {f : Failure}
    (h : (t.schedule period).1 = .error f) :
    (t.schedule period).2.1.registrations = t.registrations := by
  unfold schedule at h ⊢
  dsimp only at h ⊢
  split at h
  case h_1 => rfl
  case h_2 => cases h

theorem registrations_of_schedule_ok {period index : Nat}
    (h : (t.schedule period).1 = .ok index) :
    index = t.registrations.length ∧
      (t.schedule period).2.1.registrations = t.registrations ++ [⟨period, true⟩] := by
  unfold schedule at h ⊢
  dsimp only at h ⊢
  split at h
  case h_1 => cases h
  case h_2 =>
    cases h
    exact ⟨rfl, rfl⟩

/-- Of the registrations after a schedule, only the last is one that was not active before. -/
theorem isActive_of_append {r : Registration}
    (h : u.registrations = t.registrations ++ [r]) {i : Nat} (hactive : u.isActive i = true) :
    t.isActive i = true ∨ i = t.registrations.length := by
  have hlt := lt_length_of_isActive hactive
  rw [h, List.length_append, List.length_singleton] at hlt
  by_cases hlast : i = t.registrations.length
  · exact .inr hlast
  · left
    unfold isActive at hactive ⊢
    rwa [h, List.getElem?_append_left (by omega)] at hactive

/-! ### Endings -/

/-- The registrations of the second timer are those of the first, some of them ended. -/
structure Fades (t u : Timer) : Prop where
  length : u.registrations.length = t.registrations.length
  active : ∀ i, u.isActive i = true → t.isActive i = true

theorem Fades.of_eq (h : u.registrations = t.registrations) : Fades t u :=
  ⟨congrArg _ h, fun i hi ↦ (isActive_congr h i).symm.trans hi⟩

theorem Fades.trans (h : Fades t u) (h' : Fades u v) : Fades t v :=
  ⟨h'.length.trans h.length, fun i hi ↦ h.active i (h'.active i hi)⟩

theorem isActive_deactivate (t : Timer) (i j : Nat) :
    (t.deactivate i).isActive j = (decide (i ≠ j) && t.isActive j) := by
  unfold deactivate isActive
  rw [List.getElem?_modify]
  by_cases h : i = j <;> cases t.registrations[j]? <;> simp [h]

theorem fades_deactivate (t : Timer) (i : Nat) : Fades t (t.deactivate i) := by
  refine ⟨List.length_modify _ _ _, fun j hj ↦ ?_⟩
  rw [isActive_deactivate] at hj
  exact (Bool.and_eq_true_iff.mp hj).2

theorem fades_cancel (t : Timer) (i : Nat) : Fades t (t.cancel i).2.1 := by
  have hends : Fades t (t.deactivate i) := fades_deactivate t i
  unfold cancel
  dsimp only
  split
  · exact .of_eq rfl
  · exact .of_eq rfl
  · dsimp only
    split
    · exact hends.trans (.of_eq rfl)
    · exact hends.trans (.of_eq rfl)
  · exact hends.trans (.of_eq rfl)

theorem isActive_cancel_of_ok {i : Nat} {u : Unit} (h : (t.cancel i).1 = .ok u) :
    (t.cancel i).2.1.isActive i = false := by
  have hends (t : Timer) : (t.deactivate i).isActive i = false := by
    simp [isActive_deactivate]
  unfold cancel at h ⊢
  dsimp only at h ⊢
  split at h
  case h_1 => cases h
  case h_2 => cases h
  case h_3 =>
    dsimp only
    split
    · exact hends _
    · exact hends _
  case h_4 => exact hends _

theorem fades_drop (t : Timer) (i : Nat) : Fades t (t.drop i).1 := by
  unfold drop
  split
  · exact .of_eq rfl
  · exact fades_deactivate t i

/-- Cancels a registration and drops its handle, whether cancelling works or not. -/
def relinquish (t : Timer) : Option Nat → Option Failure × Timer
  | none => (none, t)
  | some index =>
    (match (t.cancel index).1 with
      | .ok _ => none
      | .error f => some f,
    ((t.cancel index).2.1.drop index).1)

theorem fades_relinquish (t : Timer) (registration : Option Nat) :
    Fades t (t.relinquish registration).2 := by
  cases registration with
  | none => exact .of_eq rfl
  | some index => exact (fades_cancel t index).trans (fades_drop _ index)

theorem isActive_relinquish {index : Nat} (h : (t.relinquish (some index)).1 = none) :
    (t.relinquish (some index)).2.isActive index = false := by
  have hcancelled : (t.cancel index).2.1.isActive index = false := by
    unfold relinquish at h
    dsimp only at h
    split at h
    case h_1 u hok => exact isActive_cancel_of_ok hok
    case h_2 => cases h
  rw [Bool.eq_false_iff]
  intro hactive
  exact absurd (hcancelled.symm.trans ((fades_drop _ index).active index hactive)) (by simp)

end Timer

end Bundling
