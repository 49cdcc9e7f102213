import Bundling.Proofs.Pace

/-!
What becomes of deadlines that pass while a task has no chance to run. A deadline that is seen past
the tolerance answers for all that have passed by then. One within the tolerance is followed by the
next grid point even if that has passed too, so a task whose period is no longer than the tolerance
may have to make up for several deadlines with a callback for each.
-/

set_option autoImplicit false
set_option relaxedAutoImplicit false

namespace Bundling

namespace Pace

variable {period scheduled : Nat} {p : Pace}

/-- One callback answers for all deadlines that have passed when it starts, and the next deadline is
still ahead then. -/
def Unqueued (p : Pace) : Prop :=
  ∀ k t next, p.ticks[k]? = some t → p.deadlines[k + 1]? = some next →
    t.seen < next ∧ ∀ j t', p.ticks[j]? = some t' → t.deadline ≤ t'.deadline →
      t'.deadline ≤ t.seen → j = k

theorem deadlines_of_tick {k : Nat} {t : Tick} (ht : p.ticks[k]? = some t) :
    p.deadlines[k]? = some t.deadline := by
  have hk := (List.getElem?_eq_some_iff.mp ht).1
  unfold deadlines
  rw [List.getElem?_append_left (by simpa using hk), List.getElem?_map, ht]
  rfl

theorem exists_next {k : Nat} {t : Tick} (ht : p.ticks[k]? = some t) :
    ∃ next, p.deadlines[k + 1]? = some next := by
  have hk := (List.getElem?_eq_some_iff.mp ht).1
  have hlt : k + 1 < p.deadlines.length := by simp [deadlines, hk]
  exact ⟨_, List.getElem?_eq_getElem hlt⟩

theorem Regular.lt_of_deadlines (h : p.Regular period scheduled) {j k d d' : Nat} (hjk : j < k)
    (hj : p.deadlines[j]? = some d) (hk : p.deadlines[k]? = some d') : d < d' := by
  obtain ⟨hjlt, rfl⟩ := List.getElem?_eq_some_iff.mp hj
  obtain ⟨hklt, rfl⟩ := List.getElem?_eq_some_iff.mp hk
  exact List.pairwise_iff_getElem.mp h.increasing j k hjlt hklt hjk

/-- Where the next deadline is still ahead, no other callback answers one that has passed. -/
theorem Regular.eq_of_passed (h : p.Regular period scheduled) {j k next : Nat} {t t' : Tick}
    (hk : p.ticks[k]? = some t) (hnext : p.deadlines[k + 1]? = some next) (hlt : t.seen < next)
    (hj : p.ticks[j]? = some t') (hfrom : t.deadline ≤ t'.deadline) (hto : t'.deadline ≤ t.seen) :
    j = k := by
  have hdeadline := deadlines_of_tick hk
  have hdeadline' := deadlines_of_tick hj
  rcases Nat.lt_trichotomy j k with hbefore | hsame | hafter
  · have hearlier := h.lt_of_deadlines hbefore hdeadline' hdeadline
    omega
  · exact hsame
  · -- what comes after it is the next deadline, or later
    have hlater : next ≤ t'.deadline := by
      rcases Nat.eq_or_lt_of_le hafter with rfl | hafter
      · rw [hnext, Option.some.injEq] at hdeadline'
        exact Nat.le_of_eq hdeadline'
      · exact Nat.le_of_lt (h.lt_of_deadlines hafter hnext hdeadline')
    omega

/-- Whether a deadline is still ahead depends on how late the one before it has been seen. -/
theorem lt_deadlineAfter_iff (hperiod : 0 < period) (tolerance deadline seen : Nat) :
    seen < deadlineAfter tolerance period deadline seen ↔
      seen < deadline + period ∨ deadline + tolerance < seen := by
  unfold deadlineAfter
  split
  · omega
  · have hmod := Nat.mod_lt (seen - deadline) hperiod
    omega

theorem Regular.unqueued_iff_seen (h : p.Regular period scheduled) (hperiod : 0 < period) :
    p.Unqueued ↔ ∀ t ∈ p.ticks,
      t.seen < t.deadline + period ∨ t.deadline + p.tolerance < t.seen := by
  constructor
  · intro hunqueued t ht
    obtain ⟨k, hk⟩ := List.mem_iff_getElem?.mp ht
    obtain ⟨next, hnext⟩ := exists_next hk
    have hlt := (hunqueued k t next hk hnext).1
    rw [h.next_eq hk hnext] at hlt
    exact (lt_deadlineAfter_iff hperiod _ _ _).mp hlt
  · intro hlate k t next hk hnext
    have ht := List.mem_of_getElem? hk
    have hlt : t.seen < next := by
      rw [h.next_eq hk hnext]
      exact (lt_deadlineAfter_iff hperiod _ _ _).mpr (hlate t ht)
    exact ⟨hlt, fun j t' hj hfrom hto ↦ h.eq_of_passed hk hnext hlt hj hfrom hto⟩

/-- The deadlines that have passed when a tick is seen are answered by no more callbacks than fit
into the tolerance. -/
theorem Regular.countP_passed_le (h : p.Regular period scheduled) (hperiod : 0 < period) {t : Tick}
    (ht : t ∈ p.ticks) :
    p.ticks.countP (fun t' ↦ t.deadline ≤ t'.deadline ∧ t'.deadline ≤ t.seen) ≤
      p.tolerance / period + 1 := by
  obtain ⟨m, -, hdeadline⟩ := h.grid_of_mem ht
  have hgrid : ∀ d ∈ (p.ticks.filter fun t' ↦
      t.deadline ≤ t'.deadline ∧ t'.deadline ≤ t.seen).map Tick.deadline,
      ∃ n, m ≤ n ∧ n ≤ m + p.tolerance / period ∧ d = scheduled + n * period := by
    intro d hd
    obtain ⟨t', ht', rfl⟩ := List.mem_map.mp hd
    obtain ⟨hmem, hpassed⟩ := List.mem_filter.mp ht'
    obtain ⟨hfrom, hto⟩ := of_decide_eq_true hpassed
    by_cases hlate : t.deadline + p.tolerance < t.seen
    · -- it is the callback of this deadline itself
      obtain ⟨k, hk⟩ := List.mem_iff_getElem?.mp ht
      obtain ⟨j, hj⟩ := List.mem_iff_getElem?.mp hmem
      obtain ⟨next, hnext⟩ := exists_next hk
      have hlt : t.seen < next := by
        rw [h.next_eq hk hnext]
        exact (lt_deadlineAfter_iff hperiod _ _ _).mpr (.inr hlate)
      have hsame := h.eq_of_passed hk hnext hlt hj hfrom hto
      rw [hsame, hk, Option.some.injEq] at hj
      exact ⟨m, Nat.le_refl m, Nat.le_add_right _ _, hj ▸ hdeadline⟩
    · obtain ⟨n, -, hdeadline'⟩ := h.grid_of_mem hmem
      have hmn : m ≤ n := Nat.le_of_mul_le_mul_right (by omega) hperiod
      have hsplit : n * period = (n - m) * period + m * period := by
        rw [← Nat.add_mul, Nat.sub_add_cancel hmn]
      have hdiv : n - m ≤ p.tolerance / period :=
        (Nat.le_div_iff_mul_le hperiod).mpr (by omega)
      exact ⟨n, hmn, Nat.sub_le_iff_le_add'.mp hdiv, hdeadline'⟩
  have hlength := length_le_of_grid (h.increasing_filter _) hgrid
  rw [List.length_map, Nat.add_assoc, Nat.add_sub_cancel_left] at hlength
  rw [List.countP_eq_length_filter]
  exact hlength

/-- No deadline is left to be made up for, whatever happens, if and only if every one is seen before
the next one has passed or later than the tolerance. A period longer than the tolerance sees to
that; with a shorter one, what has passed is made up for with as many callbacks as periods fit into
the tolerance, and one more, at the most. -/
theorem unqueued_iff {period : Nat} (hperiod : 0 < period) (scheduled : Nat) (moves : List Move) :
    let p := (Pace.scheduled period scheduled).run moves
    (p.Unqueued ↔ ∀ t ∈ p.ticks,
        t.seen < t.deadline + period ∨ t.deadline + latenessTolerance < t.seen) ∧
      (latenessTolerance < period → p.Unqueued) ∧
      ∀ t ∈ p.ticks, p.ticks.countP (fun t' ↦ t.deadline ≤ t'.deadline ∧ t'.deadline ≤ t.seen) ≤
        latenessTolerance / period + 1 := by
  intro p
  have hregular := (regular_scheduled period scheduled).run hperiod moves
  have htolerance : p.tolerance = latenessTolerance := tolerance_run _ moves
  have hiff := hregular.unqueued_iff_seen hperiod
  have hpassed := fun t ht ↦ hregular.countP_passed_le (t := t) hperiod ht
  rw [htolerance] at hiff hpassed
  exact ⟨hiff, fun hlong ↦ hiff.mpr fun t _ ↦ by omega, hpassed⟩

/-- Time jumps over several deadlines of a short period at once, and the task gets its chance. -/
def leap : List Move :=
  [.pass 4, .wake true, .endCallback, .wake true, .endCallback, .wake true, .endCallback,
    .wake true, .endCallback, .wake true]

/-- Four callbacks for four deadlines, where no more than six are possible. -/
theorem unqueued_iff_leap :
    0 < 1 ∧ ((Pace.scheduled 1 0).run leap).ticks = [⟨1, 4⟩, ⟨2, 4⟩, ⟨3, 4⟩, ⟨4, 4⟩] ∧
      ((Pace.scheduled 1 0).run leap).ticks.countP (fun t' ↦ 1 ≤ t'.deadline ∧ t'.deadline ≤ 4) ≤
        latenessTolerance / 1 + 1 :=
  ⟨by decide, rfl, (unqueued_iff (by decide) 0 leap).2.2 ⟨1, 4⟩ (by decide)⟩

/-- A task may have deadlines queued up. -/
theorem not_unqueued :
    ¬ ∀ (period scheduled : Nat) (moves : List Move), 0 < period →
      ((Pace.scheduled period scheduled).run moves).Unqueued := by
  intro h
  exact absurd (h 1 0 leap (by decide) 0 ⟨1, 4⟩ 2 rfl rfl).1 (by decide)

end Pace

end Bundling
