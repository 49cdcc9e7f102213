import Bundling.Proofs.Registrations
import Bundling.Timer.Clockwork
import Mathlib

/-!
What can be done with a timer source whose tasks run: registering, cancelling, dropping a handle,
letting time pass and running the tasks. One equation says what each use does to the source.
-/

set_option autoImplicit false
set_option relaxedAutoImplicit false

namespace Bundling.Clockwork

/-- What is done with a timer source whose tasks run. -/
inductive Use where
  | schedule (periodMillis busyMillis : Nat)
  | cancel (index : Nat)
  | drop (index : Nat)
  | jump (millis : Nat)
  | settle
  deriving DecidableEq

def use (c : Clockwork) : Use → Clockwork
  | .schedule periodMillis busyMillis => (c.schedule periodMillis busyMillis).2
  | .cancel index => (c.cancel index).2
  | .drop index => (c.drop index).2
  | .jump millis => c.jump millis
  | .settle => c.settle

def run (c : Clockwork) (uses : List Use) : Clockwork := uses.foldl use c

theorem run_append (c : Clockwork) (uses uses' : List Use) :
    c.run (uses ++ uses') = (c.run uses).run uses' :=
  List.foldl_append

/-- A source whose tasks run, before its first registration. -/
def fresh : Clockwork := { timer := { kind := .periodic true, now := 0 } }

/-- What holds of a source whose tasks run: no fault is planned, every registration has its post,
no call is made by hand, and a registration whose handle is gone has been cancelled. -/
structure Running (c : Clockwork) : Prop where
  kind : c.timer.kind = .periodic true
  scheduleFault : c.timer.scheduleFault = none
  cancelFault : c.timer.cancelFault = none
  length : c.timer.registrations.length = c.posts.length
  unfired : ∀ p ∈ c.posts, p.fired = 0
  held : ∀ i, c.timer.isActive i = true → c.isHeld i = true

theorem running_fresh : fresh.Running :=
  ⟨rfl, rfl, rfl, rfl, fun p hp ↦ absurd hp List.not_mem_nil,
    fun i h ↦ by simp [fresh, Timer.isActive] at h⟩

variable {c : Clockwork} {i : Nat}

namespace Running

theorem schedule_zero (h : c.Running) (busyMillis : Nat) : c.use (.schedule 0 busyMillis) = c := by
  obtain ⟨⟨kind, now, registrations, cancellations, scheduleFault, cancelFault⟩, _, posts⟩ := c
  obtain ⟨-, hfault, -⟩ := h
  cases hfault
  rfl

theorem schedule_eq (h : c.Running) {periodMillis : Nat} (hperiod : 0 < periodMillis)
    (busyMillis : Nat) : c.use (.schedule periodMillis busyMillis) =
      { c with
        timer := { c.timer with
          registrations := c.timer.registrations ++ [⟨periodMillis, true⟩] }
        posts := c.posts ++ [{ periodMillis := periodMillis, busyMillis := busyMillis }] } := by
  obtain ⟨⟨kind, now, registrations, cancellations, scheduleFault, cancelFault⟩, _, posts⟩ := c
  obtain ⟨hkind, hfault, -⟩ := h
  cases hkind
  cases hfault
  have hrefusal : Timer.scheduleRefusal
      ⟨.periodic true, now, registrations, cancellations, none, cancelFault⟩ periodMillis =
        none := by
    simp [Timer.scheduleRefusal, Nat.pos_iff_ne_zero.mp hperiod]
  simp [use, schedule, Timer.schedule, Fault.draw, hrefusal]

theorem cancel_eq (h : c.Running) (i : Nat) : c.use (.cancel i) =
    if c.isHeld i then { c with timer := c.timer.deactivate i } else c := by
  obtain ⟨⟨kind, now, registrations, cancellations, scheduleFault, cancelFault⟩, _, posts⟩ := c
  obtain ⟨hkind, -, hfault, -⟩ := h
  cases hkind
  cases hfault
  change (cancel _ i).2 = _
  unfold cancel
  split <;> rfl

theorem drop_eq (h : c.Running) (i : Nat) : c.use (.drop i) =
    if c.isHeld i then
      { c with
        timer := c.timer.deactivate i
        posts := c.posts.modify i fun p ↦ { p with held := false } }
    else c := by
  obtain ⟨⟨kind, now, registrations, cancellations, scheduleFault, cancelFault⟩, _, posts⟩ := c
  obtain ⟨hkind, -⟩ := h
  cases hkind
  change (drop _ i).2 = _
  unfold drop
  split <;> rfl

theorem settle_eq (h : c.Running) : c.use .settle =
    { c with
      posts := c.posts.mapIdx fun i p ↦
        { p with worker := some ((p.begun c.now).settle (c.timer.isActive i) c.now) } } := by
  change c.settle = _
  unfold settle
  rw [h.kind]

theorem isActive_lt (h : c.Running) (hactive : c.timer.isActive i = true) :
    i < c.posts.length :=
  h.length ▸ Timer.lt_length_of_isActive hactive

theorem use (h : c.Running) (u : Use) : (c.use u).Running := by
  cases u with
  | schedule periodMillis busyMillis =>
    rcases Nat.eq_zero_or_pos periodMillis with rfl | hperiod
    · rwa [h.schedule_zero]
    · rw [h.schedule_eq hperiod]
      refine ⟨h.kind, h.scheduleFault, h.cancelFault, by simp [h.length], fun p hp ↦ ?_,
        fun i hactive ↦ ?_⟩
      · rcases List.mem_append.mp hp with hp | hp
        · exact h.unfired p hp
        · rw [List.mem_singleton.mp hp]
      · rcases Timer.isActive_of_append rfl hactive with hold | rfl
        · have hlt := h.isActive_lt hold
          have hheld := h.held i hold
          unfold isHeld at hheld ⊢
          rwa [List.getElem?_append_left hlt]
        · simp [isHeld, h.length]
  | cancel i =>
    rw [h.cancel_eq]
    split
    · refine ⟨h.kind, h.scheduleFault, h.cancelFault, ?_, h.unfired, fun j hactive ↦ ?_⟩
      · exact (Timer.fades_deactivate c.timer i).length.trans h.length
      · exact h.held j ((Timer.fades_deactivate c.timer i).active j hactive)
    · exact h
  | drop i =>
    rw [h.drop_eq]
    split
    · refine ⟨h.kind, h.scheduleFault, h.cancelFault, ?_, fun p hp ↦ ?_, fun j hactive ↦ ?_⟩
      · exact (Timer.fades_deactivate c.timer i).length.trans (by simp [h.length])
      · obtain ⟨j, hj⟩ := List.mem_iff_getElem?.mp hp
        obtain ⟨q, hq, rfl⟩ := Option.map_eq_some_iff.mp
          ((List.getElem?_modify _ _ _ _).symm.trans hj)
        split <;> exact h.unfired q (List.mem_of_getElem? hq)
      · have hheld := h.held j ((Timer.fades_deactivate c.timer i).active j hactive)
        rw [Timer.isActive_deactivate] at hactive
        have hne : i ≠ j := of_decide_eq_true (Bool.and_eq_true_iff.mp hactive).1
        unfold isHeld at hheld ⊢
        simpa [List.getElem?_modify, hne] using hheld
    · exact h
  | jump millis => exact ⟨h.kind, h.scheduleFault, h.cancelFault, h.length, h.unfired, h.held⟩
  | settle =>
    rw [h.settle_eq]
    refine ⟨h.kind, h.scheduleFault, h.cancelFault, by simp [h.length], fun p hp ↦ ?_,
      fun i hactive ↦ ?_⟩
    · obtain ⟨j, hj, rfl⟩ := List.mem_mapIdx.mp hp
      exact h.unfired c.posts[j] (List.getElem_mem hj)
    · have hheld := h.held i hactive
      unfold isHeld at hheld ⊢
      rw [List.getElem?_mapIdx, Option.any_map]
      exact hheld

theorem run (h : c.Running) (uses : List Use) : (c.run uses).Running := by
  induction uses generalizing c with
  | nil => exact h
  | cons u uses ih => exact ih (h.use u)

end Running

end Bundling.Clockwork
