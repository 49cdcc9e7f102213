import Bundling.Proofs.Registrations
import Bundling.Proofs.TaskLoop
import Bundling.Proofs.Tasks
import Mathlib

/-!
Cancelling a registration is final, and concerns no other. Seen from one registration, whatever is
done with a timer source are moves of its task's loop; so after a cancellation or a drop no callback
starts any more, one that is running ends in its own time, and the task ends with it. Leaving a
registration out of a run, with all that is done to it, changes nothing for the others.
-/

set_option autoImplicit false
set_option relaxedAutoImplicit false

namespace Bundling

/-- The callback of the registration is running, and has not taken its time yet. -/
def Post.IsRunning (p : Post) (now : Nat) : Prop := ∃ w, p.worker = some w ∧ w.leaving now = .busy

/-- The task of the registration is over. -/
def Post.IsOver (p : Post) : Prop := ∃ w, p.worker = some w ∧ w.ticker.state = .over

/-- What becomes of a post whose registration is cancelled: later it is `post'`, and `settled` as
soon as tasks run then. It makes no other call; a callback that is running goes on untouched, and
if none is running the task ends. -/
structure Post.Ends (post post' settled : Post) (now : Nat) : Prop where
  calls : post'.calls = post.calls
  settledCalls : settled.calls = post.calls
  running : post.IsRunning now → post'.worker = post.worker ∧ settled.worker = post.worker
  ended : ¬ post.IsRunning now → settled.IsOver

namespace Clockwork

variable {c : Clockwork} {i periodMillis busyMillis : Nat}

/-! ### One registration -/

/-- The task of a registration is where a loop is, with the same flag at the same moment. -/
structure Hosts (c : Clockwork) (i : Nat) (l : Loop) : Prop where
  worker : c.Runs i l.worker
  active : c.timer.isActive i = l.active
  now : c.now = l.now
  sound : l.Sound

variable {l : Loop}

/-- The flag of a registration is set once, and no use of the source sets it again. -/
theorem isActive_use (hc : c.Running) (hi : i < c.posts.length) {u : Use}
    (hu : u ≠ .cancel i ∧ u ≠ .drop i) : (c.use u).timer.isActive i = c.timer.isActive i := by
  have hne {j : Nat} (hj : j ≠ i) : (c.timer.deactivate j).isActive i = c.timer.isActive i := by
    rw [Timer.isActive_deactivate, decide_eq_true hj, Bool.true_and]
  cases u with
  | schedule periodMillis busyMillis =>
    rcases Nat.eq_zero_or_pos periodMillis with rfl | hperiod
    · rw [hc.schedule_zero]
    · rw [hc.schedule_eq hperiod]
      unfold Timer.isActive
      rw [List.getElem?_append_left (hc.length ▸ hi)]
  | cancel j =>
    rw [hc.cancel_eq]
    split
    · exact hne fun h ↦ hu.1 (congrArg _ h)
    · rfl
  | drop j =>
    rw [hc.drop_eq]
    split
    · exact hne fun h ↦ hu.2 (congrArg _ h)
    · rfl
  | jump millis => rfl
  | settle => rw [hc.settle_eq]

/-- A cancelled or dropped registration has its flag cleared. -/
theorem isActive_cancel (hc : c.Running) {u : Use} (hu : u = .cancel i ∨ u = .drop i) :
    (c.use u).timer.isActive i = false := by
  have hends : (c.timer.deactivate i).isActive i = false := by
    rw [Timer.isActive_deactivate]
    simp
  have hgone (hnot : ¬ c.isHeld i = true) : c.timer.isActive i = false :=
    Bool.eq_false_iff.mpr fun hactive ↦ hnot (hc.held i hactive)
  rcases hu with rfl | rfl
  · rw [hc.cancel_eq]
    split
    · exact hends
    · exact hgone ‹_›
  · rw [hc.drop_eq]
    split
    · exact hends
    · exact hgone ‹_›

theorem isActive_use_of_inactive (hc : c.Running) (hi : i < c.posts.length)
    (hactive : c.timer.isActive i = false) (u : Use) : (c.use u).timer.isActive i = false := by
  by_cases hu : u = .cancel i ∨ u = .drop i
  · exact isActive_cancel hc hu
  · rw [isActive_use hc hi (not_or.mp hu), hactive]

theorem length_use (hc : c.Running) (u : Use) : c.posts.length ≤ (c.use u).posts.length := by
  cases u with
  | schedule periodMillis busyMillis =>
    rcases Nat.eq_zero_or_pos periodMillis with rfl | hperiod
    · rw [hc.schedule_zero]
    · simp [hc.schedule_eq hperiod]
  | cancel j =>
    rw [hc.cancel_eq]
    split <;> exact Nat.le_refl _
  | drop j =>
    rw [hc.drop_eq]
    split
    · simp
    · exact Nat.le_refl _
  | jump millis => exact Nat.le_refl _
  | settle => simp [hc.settle_eq]

theorem length_run (hc : c.Running) (uses : List Use) :
    c.posts.length ≤ (c.run uses).posts.length := by
  induction uses generalizing c with
  | nil => exact Nat.le_refl _
  | cons u uses ih => exact Nat.le_trans (length_use hc u) (ih (hc.use u))

theorem isActive_schedule (hc : c.Running) (hperiod : 0 < periodMillis) (busyMillis : Nat) :
    (c.use (.schedule periodMillis busyMillis)).timer.isActive c.posts.length = true := by
  rw [hc.schedule_eq hperiod]
  simp [Timer.isActive, ← hc.length]

/-- A flag that is cleared stays cleared. -/
theorem isActive_run_of_inactive (hc : c.Running) (hi : i < c.posts.length)
    (hactive : c.timer.isActive i = false) (uses : List Use) :
    (c.run uses).timer.isActive i = false := by
  induction uses generalizing c with
  | nil => exact hactive
  | cons u uses ih =>
    exact ih (hc.use u) (Nat.lt_of_lt_of_le hi (length_use hc u))
      (isActive_use_of_inactive hc hi hactive u)

/-- What a task does that is not run is left to its handle. -/
theorem Runs.use_of_ne {w : Worker} (hc : c.Running) (h : c.Runs i w) {u : Use}
    (hu : u ≠ .settle) : (c.use u).Runs i w := by
  obtain ⟨post, hpost, held, hused⟩ := worker_use hc h.lt hu
  rw [Runs, hpost] at h
  rw [Runs, hused]
  exact h

/-- Cancelling and dropping a registration come to the same for its task. -/
theorem Hosts.cancel (hc : c.Running) (h : c.Hosts i l) {u : Use}
    (hu : u = .cancel i ∨ u = .drop i) : (c.use u).Hosts i (l.step .cancel) := by
  have hne : u ≠ .settle := by
    rcases hu with rfl | rfl <;> simp
  refine ⟨?worker, (isActive_cancel hc hu).trans l.active_cancel.symm, ?now, h.sound.cancel⟩
  case worker =>
    change (c.use u).Runs i l.cancel.worker
    rw [l.worker_cancel]
    exact h.worker.use_of_ne hc hne
  case now =>
    rw [now_use_of_ne hc (by rcases hu with rfl | rfl <;> simp), h.now]
    exact l.now_cancel.symm

/-- The loop that a task begins with when it first runs. -/
def firstLoop (periodMillis busyMillis moment : Nat) (active : Bool) : Loop :=
  if active then .scheduled periodMillis busyMillis moment
  else (Loop.scheduled periodMillis busyMillis moment).step .cancel

theorem sound_firstLoop (periodMillis busyMillis moment : Nat) (active : Bool) :
    (firstLoop periodMillis busyMillis moment active).Sound := by
  unfold firstLoop
  split
  · exact Loop.sound_scheduled _ _ _
  · exact (Loop.sound_scheduled _ _ _).cancel

/-- Running the tasks takes a task, be it for the first time, where turns enough take its loop. -/
theorem hosts_settle (hc : c.Running) {post : Post} (hpost : c.posts[i]? = some post)
    (hworker : post.begun c.now = l.worker) (hactive : c.timer.isActive i = l.active)
    (hnow : c.now = l.now) (hsound : l.Sound) :
    (c.use .settle).Hosts i (l.run ((List.replicate l.effort true).map .turn)) := by
  have hrests : (l.turns (List.replicate l.effort true)).Rests :=
    Loop.rests_turns (by rw [List.length_replicate])
  have hruns : (c.use .settle).Runs i (l.worker.settle l.active l.now) := by
    rw [Runs, posts_settle hc hpost, hworker, hactive, hnow]
    rfl
  rw [← hsound.worker_turns hrests, ← l.run_turns] at hruns
  refine ⟨hruns, ?_, ?_, hsound.run _⟩ <;> rw [l.run_turns]
  · rw [isActive_use hc (List.getElem?_eq_some_iff.mp hpost).1 (by simp), hactive]
    exact (hsound.active_turns _).symm
  · rw [now_use_of_ne hc (by simp), hnow]
    exact (l.now_turns _).symm

/-- Whatever is done with the source, the task makes moves of its loop. -/
theorem Hosts.use (hc : c.Running) (h : c.Hosts i l) (u : Use) :
    ∃ moves, (c.use u).Hosts i (l.run moves) := by
  by_cases hcancel : u = .cancel i ∨ u = .drop i
  · exact ⟨[.cancel], h.cancel hc hcancel⟩
  have hactive := (isActive_use hc h.worker.lt (not_or.mp hcancel)).trans h.active
  cases u with
  | settle =>
    obtain ⟨post, hpost, hworker⟩ := Option.map_eq_some_iff.mp h.worker
    have hbegun : post.begun c.now = l.worker := by rw [Post.begun, hworker, Option.getD_some]
    exact ⟨_, hosts_settle hc hpost hbegun h.active h.now h.sound⟩
  | jump millis =>
    exact ⟨[.pass millis], h.worker, h.active, congrArg (· + millis) h.now,
      ⟨h.sound.ended, h.sound.notice⟩⟩
  | _ =>
    exact ⟨[], h.worker.use_of_ne hc (by simp), hactive,
      (now_use_of_ne hc (by simp)).trans h.now, h.sound⟩

theorem Hosts.run (hc : c.Running) (h : c.Hosts i l) (uses : List Use) :
    ∃ moves, (c.run uses).Hosts i (l.run moves) := by
  induction uses generalizing c l with
  | nil => exact ⟨[], h⟩
  | cons u uses ih =>
    obtain ⟨first, hfirst⟩ := h.use hc u
    obtain ⟨rest, hrest⟩ := ih (hc.use u) hfirst
    exact ⟨first ++ rest, by rwa [Loop.run_append]⟩

/-- A task that has not run goes on waiting, or is where moves have brought the loop that it has
begun with. -/
theorem Awaits.run_cases (hc : c.Running) (h : c.Awaits i periodMillis busyMillis)
    (uses : List Use) : (c.run uses).Awaits i periodMillis busyMillis ∨
      ∃ moment moves, (c.run uses).Hosts i
        ((firstLoop periodMillis busyMillis moment (c.timer.isActive i)).run moves) := by
  induction uses generalizing c with
  | nil => exact .inl h
  | cons u uses ih =>
    change ((c.use u).run uses).Awaits i periodMillis busyMillis ∨ _
    by_cases hu : u = .settle
    · subst hu
      obtain ⟨held, hpost⟩ := h
      have hfirst := hosts_settle (l := firstLoop periodMillis busyMillis c.now
        (c.timer.isActive i)) hc hpost ?worker ?active ?now (sound_firstLoop _ _ _ _)
      · obtain ⟨moves, hmoves⟩ := hfirst.run (hc.use .settle) uses
        rw [← Loop.run_append] at hmoves
        exact .inr ⟨c.now, _, hmoves⟩
      case worker => cases c.timer.isActive i <;> rfl
      case active => cases c.timer.isActive i <;> rfl
      case now => cases c.timer.isActive i <;> rfl
    · have hinactive := isActive_use_of_inactive hc h.lt (u := u)
      rcases ih (hc.use u) (h.use hc hu) with hawaits | ⟨moment, moves, hhosts⟩
      · exact .inl hawaits
      · refine .inr ⟨moment, ?_⟩
        cases hactive : c.timer.isActive i with
        | false =>
          rw [hinactive hactive] at hhosts
          exact ⟨moves, hhosts⟩
        | true =>
          cases hlater : (c.use u).timer.isActive i with
          | true =>
            rw [hlater] at hhosts
            exact ⟨moves, hhosts⟩
          | false =>
            -- cancelled before it has run
            rw [hlater] at hhosts
            exact ⟨.cancel :: moves, hhosts⟩

/-! ### The other registrations -/

section EraseIdx

variable {α : Type} (xs : List α) (f : α → α)

theorem eraseIdx_modify_self (i : Nat) : (xs.modify i f).eraseIdx i = xs.eraseIdx i := by
  refine List.ext_getElem? fun k ↦ ?_
  simp only [List.getElem?_eraseIdx, List.getElem?_modify]
  split
  case isTrue hlt => simp [show i ≠ k by omega]
  case isFalse hge => simp [show i ≠ k + 1 by omega]

theorem eraseIdx_modify {i j : Nat} (h : j ≠ i) : (xs.modify j f).eraseIdx i =
    (xs.eraseIdx i).modify (if j < i then j else j - 1) f := by
  refine List.ext_getElem? fun k ↦ ?_
  simp only [List.getElem?_eraseIdx, List.getElem?_modify]
  have hindex : (j = if k < i then k else k + 1) ↔ (if j < i then j else j - 1) = k := by
    split <;> split <;> omega
  split
  case isTrue hlt => simp only [if_pos hlt] at hindex; simp only [hindex]
  case isFalse hge => simp only [if_neg hge] at hindex; simp only [hindex]

theorem eraseIdx_mapIdx (f : Nat → α → α) (i : Nat) : (xs.mapIdx f).eraseIdx i =
    (xs.eraseIdx i).mapIdx fun k ↦ f (if k < i then k else k + 1) := by
  refine List.ext_getElem? fun k ↦ ?_
  simp only [List.getElem?_eraseIdx, List.getElem?_mapIdx]
  split <;> rfl

end EraseIdx

/-- The source without a registration. -/
def without (c : Clockwork) (i : Nat) : Clockwork :=
  { c with
    timer := { c.timer with registrations := c.timer.registrations.eraseIdx i }
    posts := c.posts.eraseIdx i }

/-- The use without what it does to a registration; later registrations move up. -/
def Use.without (i : Nat) : Use → Option Use
  | .cancel j => if j = i then none else some (.cancel (if j < i then j else j - 1))
  | .drop j => if j = i then none else some (.drop (if j < i then j else j - 1))
  | u => some u

theorem isActive_without (c : Clockwork) (i k : Nat) : (c.without i).timer.isActive k =
    c.timer.isActive (if k < i then k else k + 1) := by
  unfold without Timer.isActive
  rw [List.getElem?_eraseIdx]
  split <;> rfl

theorem isHeld_without (c : Clockwork) (i k : Nat) : (c.without i).isHeld k =
    c.isHeld (if k < i then k else k + 1) := by
  unfold without isHeld
  rw [List.getElem?_eraseIdx]
  split <;> rfl

theorem Running.without (h : c.Running) (i : Nat) : (c.without i).Running := by
  refine ⟨h.kind, h.scheduleFault, h.cancelFault, ?_,
    fun p hp ↦ h.unfired p (List.mem_of_mem_eraseIdx hp), fun k hactive ↦ ?_⟩
  · change (c.timer.registrations.eraseIdx i).length = (c.posts.eraseIdx i).length
    rw [List.length_eraseIdx, List.length_eraseIdx, h.length]
  · rw [isActive_without] at hactive
    rw [isHeld_without]
    exact h.held _ hactive

/-- Leaving a registration out before a use or after it comes to the same. -/
theorem without_use (hc : c.Running) (hi : i < c.posts.length) (u : Use) :
    (c.use u).without i = (u.without i).elim (c.without i) (c.without i).use := by
  have hshift {j : Nat} (hj : j ≠ i) : (c.without i).isHeld (if j < i then j else j - 1) =
      c.isHeld j := by
    rw [isHeld_without]
    congr 1
    by_cases hlt : j < i
    · rw [if_pos hlt, if_pos hlt]
    · rw [if_neg hlt, if_neg (by omega)]
      omega
  cases u with
  | schedule periodMillis busyMillis =>
    change _ = (c.without i).use (.schedule periodMillis busyMillis)
    rcases Nat.eq_zero_or_pos periodMillis with rfl | hperiod
    · rw [hc.schedule_zero, (hc.without i).schedule_zero]
    · rw [hc.schedule_eq hperiod, (hc.without i).schedule_eq hperiod]
      unfold Clockwork.without
      rw [List.eraseIdx_append_of_lt_length hi, List.eraseIdx_append_of_lt_length (hc.length ▸ hi)]
  | cancel j =>
    rw [hc.cancel_eq]
    by_cases hj : j = i
    · rw [Use.without, if_pos hj, hj]
      split
      · unfold Clockwork.without Timer.deactivate
        rw [eraseIdx_modify_self]
        rfl
      · rfl
    · rw [Use.without, if_neg hj, Option.elim_some, (hc.without i).cancel_eq, hshift hj]
      split
      · unfold Clockwork.without Timer.deactivate
        rw [eraseIdx_modify _ _ hj]
      · rfl
  | drop j =>
    rw [hc.drop_eq]
    by_cases hj : j = i
    · rw [Use.without, if_pos hj, hj]
      split
      · unfold Clockwork.without Timer.deactivate
        rw [eraseIdx_modify_self, eraseIdx_modify_self]
        rfl
      · rfl
    · rw [Use.without, if_neg hj, Option.elim_some, (hc.without i).drop_eq, hshift hj]
      split
      · unfold Clockwork.without Timer.deactivate
        rw [eraseIdx_modify _ _ hj, eraseIdx_modify _ _ hj]
      · rfl
  | jump millis => rfl
  | settle =>
    change _ = (c.without i).use .settle
    rw [hc.settle_eq, (hc.without i).settle_eq]
    simp only [isActive_without]
    unfold Clockwork.without
    rw [eraseIdx_mapIdx]

theorem without_run (hc : c.Running) (hi : i < c.posts.length) (uses : List Use) :
    (c.run uses).without i = (c.without i).run (uses.filterMap (Use.without i)) := by
  induction uses generalizing c with
  | nil => rfl
  | cons u uses ih =>
    change ((c.use u).run uses).without i = _
    rw [ih (hc.use u) (Nat.lt_of_lt_of_le hi (length_use hc u)), without_use hc hi,
      List.filterMap_cons]
    cases u.without i <;> rfl

theorem without_schedule (hc : c.Running) {periodMillis : Nat} (hperiod : 0 < periodMillis)
    (busyMillis : Nat) :
    (c.use (.schedule periodMillis busyMillis)).without c.posts.length = c := by
  rw [hc.schedule_eq hperiod]
  unfold without
  rw [← hc.length, List.eraseIdx_append_of_length_le (Nat.le_refl _)]
  simp [hc.length, List.eraseIdx_append_of_length_le]

theorem calls_without (c : Clockwork) (i : Nat) : (c.without i).calls = c.calls.eraseIdx i :=
  (List.eraseIdx_map _ _ _).symm

/-! ### One registration that is cancelled -/

/-- What a registration has come to is read off its post. -/
theorem Hosts.post (hc : c.Running) (h : c.Hosts i l) :
    ∃ post, c.posts[i]? = some post ∧ post.worker = some l.worker ∧
      post.calls = l.worker.calls := by
  obtain ⟨post, hpost, hworker⟩ := Option.map_eq_some_iff.mp h.worker
  refine ⟨post, hpost, hworker, ?_⟩
  rw [Post.calls, hworker, hc.unfired post (List.mem_of_getElem? hpost), Nat.zero_add]
  rfl

theorem Awaits.post (h : c.Awaits i periodMillis busyMillis) :
    ∃ post, c.posts[i]? = some post ∧ post.worker = none ∧ post.calls = 0 := by
  obtain ⟨held, hpost⟩ := h
  exact ⟨_, hpost, rfl, rfl⟩

/-- Tasks that are run now take a task that is on its way out where it ends up. -/
theorem Hosts.post_settle (hc : c.Running) (h : c.Hosts i l) {w : Worker} (hl : l.Leaves w) :
    ∃ settled, c.settle.posts[i]? = some settled ∧
      settled.worker = some (w.inState (w.leaving c.now)) ∧ settled.calls = w.calls := by
  obtain ⟨post, hpost, hworker, -⟩ := h.post hc
  have hsettled := posts_settle hc hpost
  rw [show post.begun c.now = l.worker by rw [Post.begun, hworker, Option.getD_some], h.active,
    h.now, hl.settle_eq, ← h.now] at hsettled
  refine ⟨_, hsettled, rfl, ?_⟩
  rw [Post.calls, hc.unfired post (List.mem_of_getElem? hpost), Nat.zero_add]
  rfl

end Clockwork

open Clockwork

variable {c : Clockwork} {i periodMillis busyMillis : Nat} {post : Post} {w : Worker} {l : Loop}

theorem Worker.leaving_cases (w : Worker) (now : Nat) :
    w.leaving now = .busy ∧ w.ticker.state = .busy ∨ w.leaving now = .over := by
  unfold leaving
  split
  · exact .inl ⟨rfl, ‹_ ∧ _›.1⟩
  · exact .inr rfl

/-- A task that was at `w` when its registration was cancelled, or would have begun there. -/
theorem Post.ends_of_leaves (hc : c.Running) (h : c.Hosts i l) (hl : l.Leaves w)
    (hcalls : post.calls = w.calls)
    (hworker : post.worker = some w ∨ post.worker = none ∧ w.ticker.state ≠ .busy) :
    ∃ post' settled, c.posts[i]? = some post' ∧ c.settle.posts[i]? = some settled ∧
      post.Ends post' settled c.now := by
  obtain ⟨post', hpost', hworker', hcalls'⟩ := h.post hc
  obtain ⟨settled, hsettled, hover, hcalls''⟩ := h.post_settle hc hl
  refine ⟨post', settled, hpost', hsettled, ?_, hcalls''.trans hcalls.symm, ?_, ?_⟩
  · rw [hcalls', hl.ends.calls, hcalls]
  · rintro ⟨w', hw', hbusy⟩
    rcases hworker with hworker | ⟨hnone, -⟩
    · obtain rfl : w = w' := Option.some.inj (hworker.symm.trans hw')
      rcases w.leaving_cases c.now with ⟨-, hstate⟩ | hgone
      · rw [h.now] at hbusy
        rw [hworker, hworker', hl.ends.running hbusy, hover, h.now, hbusy, ← hstate]
        exact ⟨rfl, rfl⟩
      · rw [hgone] at hbusy
        cases hbusy
    · rw [hnone] at hw'
      cases hw'
  · intro hnot
    refine ⟨_, hover, ?_⟩
    rcases w.leaving_cases c.now with ⟨hbusy, hstate⟩ | hgone
    · rcases hworker with hworker | ⟨-, hne⟩
      · exact absurd ⟨w, hworker, hbusy⟩ hnot
      · exact absurd hstate hne
    · exact hgone

/-- A task that has not run when its registration is cancelled, and not since. -/
theorem Post.ends_of_awaits (hc : c.Running) (h : c.Awaits i periodMillis busyMillis)
    (hactive : c.timer.isActive i = false) (hcalls : post.calls = 0) (hnone : post.worker = none) :
    ∃ post' settled, c.posts[i]? = some post' ∧ c.settle.posts[i]? = some settled ∧
      post.Ends post' settled c.now := by
  obtain ⟨held, hpost'⟩ := h
  have hsettled := posts_settle hc hpost'
  rw [hactive, Worker.settle_false] at hsettled
  refine ⟨_, _, hpost', hsettled, hcalls.symm, hcalls.symm, ?_, fun _ ↦ ⟨_, rfl, rfl⟩⟩
  rintro ⟨w, hw, -⟩
  rw [hnone] at hw
  cases hw

/-- The use that cancels a registration, and what is done with the source after it. -/
theorem Clockwork.Hosts.cancelled (hc : c.Running) (h : c.Hosts i l) {u : Use}
    (hu : u = .cancel i ∨ u = .drop i) (after : List Use) :
    let left := c.run (u :: after)
    (∃ moves', left.Hosts i ((l.step .cancel).run moves')) ∧
      ∃ post post' settled, c.posts[i]? = some post ∧ left.posts[i]? = some post' ∧
        left.settle.posts[i]? = some settled ∧ post.Ends post' settled left.now := by
  intro left
  obtain ⟨moves', hleft⟩ := (h.cancel hc hu).run (hc.use u) after
  obtain ⟨post, hpost, hworker, hcalls⟩ := h.post hc
  obtain ⟨post', settled, hpost', hsettled, hends⟩ := Post.ends_of_leaves (hc.run (u :: after))
    hleft ((Loop.leaves_cancel h.sound).run moves') hcalls (.inl hworker)
  exact ⟨⟨moves', hleft⟩, post, post', settled, hpost, hpost', hsettled, hends⟩

theorem Clockwork.Awaits.cancelled (hc : c.Running) (h : c.Awaits i periodMillis busyMillis)
    {u : Use} (hu : u = .cancel i ∨ u = .drop i) (after : List Use) :
    let left := c.run (u :: after)
    ((∃ moment moves', left.Hosts i
        (((Loop.scheduled periodMillis busyMillis moment).step .cancel).run moves')) ∨
      left.Awaits i periodMillis busyMillis) ∧
      ∃ post post' settled, c.posts[i]? = some post ∧ left.posts[i]? = some post' ∧
        left.settle.posts[i]? = some settled ∧ post.Ends post' settled left.now := by
  intro left
  have hne : u ≠ .settle := by
    rcases hu with rfl | rfl <;> simp
  have hactive : (c.use u).timer.isActive i = false := isActive_cancel hc hu
  have hused : (c.use u).Awaits i periodMillis busyMillis := h.use hc hne
  have hleft : left.Running := hc.run (u :: after)
  have hends := isActive_run_of_inactive (hc.use u) hused.lt hactive after
  have hcases := hused.run_cases (hc.use u) after
  rw [hactive] at hcases
  obtain ⟨post, hpost, hnone, hcalls⟩ := h.post
  rcases hcases with hawaits | ⟨moment, moves', hhosts⟩
  · obtain ⟨post', settled, hpost', hsettled, hpostEnds⟩ :=
      Post.ends_of_awaits hleft hawaits hends hcalls hnone
    exact ⟨.inr hawaits, post, post', settled, hpost, hpost', hsettled, hpostEnds⟩
  · have hleaves :=
      (Loop.leaves_cancel (Loop.sound_scheduled periodMillis busyMillis moment)).run moves'
    have hwaits : (Worker.scheduled periodMillis busyMillis moment).ticker.state ≠ .busy := by
      simp [Worker.scheduled, Ticker.scheduled]
    obtain ⟨post', settled, hpost', hsettled, hpostEnds⟩ :=
      Post.ends_of_leaves hleft hhosts hleaves hcalls (.inr ⟨hnone, hwaits⟩)
    exact ⟨.inl ⟨moment, moves', hhosts⟩, post, post', settled, hpost, hpost', hsettled, hpostEnds⟩

/-! ### Cancellation -/

open Clockwork in
/-- Cancelling or dropping a registration is final. A task that takes the tick or the notice first
as it likes ends up where it settles, in whatever order it has taken them. Cancelled between any two
of its turns, it starts no callback and does not touch one that is running, and outside its callback
two turns are enough for it to end. The task of a registration is always where such turns bring it;
once it is cancelled or dropped its flag stays cleared, and whenever tasks run it ends unless its
callback is still running; and the calls of all others are those of the run without it. -/
theorem cancellation_final :
    (∀ (periodMillis busyMillis moment : Nat) (moves : List Loop.Move),
      let l := (Loop.scheduled periodMillis busyMillis moment).run moves
      (∀ choices, l.effort ≤ choices.length → (l.turns choices).Rests) ∧
      ∀ choices, (l.turns choices).Rests →
        (l.turns choices).worker = l.worker.settle l.active l.now) ∧
    (∀ (periodMillis busyMillis moment : Nat) (before after : List Loop.Move),
      let l := (Loop.scheduled periodMillis busyMillis moment).run before
      let l' := (l.step .cancel).run after
      l'.active = false ∧ l.worker.Ends l'.worker l'.now ∧ ∀ first second,
        (l'.turns [first, second]).worker = l.worker.inState (l.worker.leaving l'.now)) ∧
    ∀ (before between after : List Use) (periodMillis busyMillis : Nat) (u : Use),
      let index := (fresh.run before).posts.length
      0 < periodMillis → u = .cancel index ∨ u = .drop index →
      let held := fresh.run (before ++ .schedule periodMillis busyMillis :: between)
      let left := held.run (u :: after)
      (∃ (moment : Nat) (moves moves' : List Loop.Move),
        let l := (Loop.scheduled periodMillis busyMillis moment).run moves
        (held.Hosts index l ∨ held.Awaits index periodMillis busyMillis ∧ moves = []) ∧
        (left.Hosts index ((l.step .cancel).run moves') ∨
          held.Awaits index periodMillis busyMillis ∧
            left.Awaits index periodMillis busyMillis)) ∧
      left.timer.isActive index = false ∧
      (∃ post post' settled, held.posts[index]? = some post ∧ left.posts[index]? = some post' ∧
        left.settle.posts[index]? = some settled ∧ post.Ends post' settled left.now) ∧
      left.calls.eraseIdx index =
        (fresh.run (before ++ (between ++ u :: after).filterMap (Use.without index))).calls := by
  refine ⟨?order, ?loop, ?source⟩
  case order =>
    intro periodMillis busyMillis moment moves
    have hsound := (Loop.sound_scheduled periodMillis busyMillis moment).run moves
    exact ⟨fun choices ↦ Loop.rests_turns, fun choices ↦ hsound.worker_turns⟩
  case loop =>
    intro periodMillis busyMillis moment before after
    have hsound := (Loop.sound_scheduled periodMillis busyMillis moment).run before
    have hleaves := (Loop.leaves_cancel hsound).run after
    exact ⟨hleaves.inactive, hleaves.ends, hleaves.worker_turns⟩
  case source =>
    intro before between after periodMillis busyMillis u index hperiod hu held left
    have hbefore : (fresh.run before).Running := running_fresh.run before
    have hheld : held.Running := running_fresh.run _
    have hleft : left.Running := hheld.run _
    have hsplit : held =
        ((fresh.run before).use (.schedule periodMillis busyMillis)).run between :=
      run_append _ _ _
    have hadded := hbefore.use (.schedule periodMillis busyMillis)
    have hawaits := awaits_schedule hbefore hperiod busyMillis
    have hothers : left.calls.eraseIdx index =
        (fresh.run (before ++ (between ++ u :: after).filterMap (Use.without index))).calls := by
      have hrest := without_run hadded hawaits.lt (between ++ u :: after)
      rw [without_schedule hbefore hperiod, ← run_append, run_append _ between, ← hsplit] at hrest
      rw [← calls_without]
      exact congrArg calls hrest
    have hactive : left.timer.isActive index = false := by
      refine isActive_run_of_inactive (hheld.use u) ?_ (isActive_cancel hheld hu) after
      refine Nat.lt_of_lt_of_le hawaits.lt (Nat.le_trans ?_ (length_use hheld u))
      rw [hsplit]
      exact length_run hadded between
    have hcases := hawaits.run_cases hadded between
    rw [← hsplit, isActive_schedule hbefore hperiod busyMillis] at hcases
    rcases hcases with hheldAwaits | ⟨moment, moves, hhosts⟩
    · obtain ⟨hleftCases, hends⟩ := hheldAwaits.cancelled hheld hu after
      refine ⟨?_, hactive, hends, hothers⟩
      rcases hleftCases with ⟨moment, moves', hhosts'⟩ | hleftAwaits
      · exact ⟨moment, [], moves', .inr ⟨hheldAwaits, rfl⟩, .inl hhosts'⟩
      · exact ⟨0, [], [], .inr ⟨hheldAwaits, rfl⟩, .inr ⟨hheldAwaits, hleftAwaits⟩⟩
    · obtain ⟨⟨moves', hhosts'⟩, hends⟩ := hhosts.cancelled hheld hu after
      exact ⟨⟨moment, moves, moves', .inl hhosts, .inl hhosts'⟩, hactive, hends, hothers⟩

open Clockwork in
/-- Cancelled twice in its callback, the second registration makes no other call. -/
theorem cancellation_final_in_callback :
    let held := fresh.run ([.schedule 7 0] ++ .schedule 10 25 :: [.settle, .jump 10, .settle])
    let left := held.run (.cancel 1 :: [.cancel 1, .jump 20, .settle, .jump 20, .settle])
    0 < 10 ∧ held.calls = [1, 1] ∧ left.calls = [3, 1] ∧ left.timer.isActive 1 = false ∧
      left.calls.eraseIdx 1 = (fresh.run [.schedule 7 0, .settle, .jump 10, .settle, .jump 20,
        .settle, .jump 20, .settle]).calls := by
  intro held left
  obtain ⟨-, hactive, -, hothers⟩ := cancellation_final.2.2 [.schedule 7 0]
    [.settle, .jump 10, .settle] [.cancel 1, .jump 20, .settle, .jump 20, .settle] 10 25
    (.cancel 1) (by decide) (.inl rfl)
  exact ⟨by decide, by cbv, by cbv, hactive, hothers⟩

end Bundling
