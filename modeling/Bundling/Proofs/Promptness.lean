import Bundling.Bench.Script
import Bundling.Proofs.Serial

/-!
A test bench on which nothing holds a call up: the gate stands open, no fault is planned, and no
operation takes time. A call is then over as soon as it is made, in the way the coordinator and the
recorder alone decide, and a task whose deadline has come is back at its waiting at once.
-/

set_option autoImplicit false
set_option relaxedAutoImplicit false

namespace Bundling

namespace Bench

variable {α : Type} {b : Bench α} {i : Nat} {q : Request α}

theorem poll_of_none (h : b.advance? i = none) : b.poll i = b := by
  rw [poll]
  split
  case h_1 => rfl
  case h_2 b' hsome => rw [h] at hsome; cases hsome

theorem poll_of_some {b' : Bench α} (h : b.advance? i = some b') : b.poll i = b'.poll i := by
  rw [poll]
  split
  case h_1 hnone => rw [h] at hnone; cases hnone
  case h_2 next hnext => rw [h] at hnext; cases hnext; rfl

/-- Operations start when they are asked for and take no time. -/
structure Unhindered (b : Bench α) : Prop where
  gate : b.gate = none
  faults : b.faults = []
  underway : b.underway = none
  finishDelay : b.finishDelay = 0
  abandoned : b.abandoned = false

/-- An operation that starts at once is over at once. -/
theorem Unhindered.poll_of_operation (h : b.Unhindered) {op : Operation α α} {rig : Rig α}
    (hop : b.operation? i = some op) (hrig : b.rig.proceed? i none = some rig) :
    b.poll i = ({ b with rig := rig } : Bench α).poll i := by
  have hstarts : b.advance? i = some { b with underway := some b.now } := by
    unfold advance?
    rw [hop]
    simp [operate?, h.underway, h.gate, h.faults, drawFault, duration, h.finishDelay]
  have hends : ({ b with underway := some b.now } : Bench α).advance? i =
      some { b with rig := rig } := by
    have hop' : ({ b with underway := some b.now } : Bench α).operation? i = some op := hop
    unfold advance?
    rw [hop']
    simp [operate?, hrig, h.underway]
  rw [poll_of_some hstarts, poll_of_some hends]

/-- Nothing but the collaborators' answers decides how a call goes on. -/
theorem Unhindered.poll_eq {b : Bench α} (h : b.Unhindered) (hwilling : b.rig.recorder.Willing)
    (i : Nat) : b.poll i = { b with rig := b.rig.settle i } := by
  cases hrig : b.rig.proceed? i none with
  | none =>
    have hwaits : b.advance? i = none := by
      unfold advance?
      cases hop : b.operation? i with
      | none => rw [hrig]; rfl
      | some op =>
        obtain ⟨stage, hstage, hstageOp⟩ := Option.bind_eq_some_iff.mp hop
        rw [Rig.proceed?, hstage] at hrig
        simp [hstageOp, Rig.answer, hwilling.perform] at hrig
    rw [poll_of_none hwaits, Rig.settle_of_none hrig]
  | some rig =>
    have hnext : b.poll i = ({ b with rig := rig } : Bench α).poll i := by
      cases hop : b.operation? i with
      | some op => exact h.poll_of_operation hop hrig
      | none =>
        refine poll_of_some ?_
        unfold advance?
        rw [hop, hrig]
        rfl
    have hwilling' : rig.recorder.Willing := by
      have hstep : b.rig.step (.proceed i none) = rig := by
        change (b.rig.proceed? i none).getD b.rig = rig
        rw [hrig]
        rfl
      rw [← hstep]
      exact Rig.willing_step hwilling _
    rw [hnext, Rig.settle_of_some hrig]
    exact Unhindered.poll_eq (b := { b with rig := rig }) ⟨h.gate, h.faults, h.underway,
      h.finishDelay, h.abandoned⟩ hwilling' i
termination_by b.rig.distance i
decreasing_by exact Rig.distance_proceed? hrig

/-- Makes a call and lets it go on to its end. -/
def attend (b : Bench α) (q : Request α) : Bench α := { b with rig := b.rig.attend q }

theorem Unhindered.poll_issue (h : b.Unhindered) (hwilling : b.rig.recorder.Willing)
    (q : Request α) : (b.issue q).2.poll (b.issue q).1 = b.attend q :=
  Unhindered.poll_eq (b := (b.issue q).2)
    ⟨h.gate, h.faults, h.underway, h.finishDelay, h.abandoned⟩ hwilling _

end Bench

namespace Activity

variable {α : Type}

theorem current_ended (a : Activity α) (reply : Reply) : (a.ended reply).current = none := by
  unfold ended
  split <;> rfl

end Activity

namespace Bench

variable {α : Type} {b : Bench α} {q : Request α}

theorem reply?_attend {reply : Reply} (hended :
    (b.rig.attend q).world.stage? b.rig.world.calls.length = some (.ended reply)) :
    (b.attend q).reply? (b.issue q).1 = some reply := by
  change ((b.rig.attend q).world.stage? b.rig.world.calls.length).bind Stage.reply? = _
  rw [hended]
  rfl

/-- An activity goes on to its next call when one has come to its end. -/
theorem Unhindered.makeCalls_cons (h : b.Unhindered) (hwilling : b.rig.recorder.Willing)
    {reply : Reply}
    (hended : (b.rig.attend q).world.stage? b.rig.world.calls.length = some (.ended reply))
    (a : Activity α) (rest : List (Request α)) :
    b.makeCalls a (q :: rest) =
      if ({ a with todo := rest }.ended reply).todo.isEmpty then
        (b.attend q, { a with todo := rest }.ended reply)
      else (b.attend q).makeCalls ({ a with todo := rest }.ended reply) rest := by
  rw [makeCalls]
  dsimp only
  rw [h.poll_issue hwilling, reply?_attend hended]

/-- Once an activity is over, all that is left is that the tasks run. -/
theorem drive_of_isOver {as bs : List (Activity α)} {b' : Bench α} (h : b.round as = (b', bs))
    (hover : bs.all Activity.isOver = true) : (b.drive as).1 = b'.settle := by
  obtain ⟨fuel, hfuel⟩ : ∃ fuel, as.foldl (fun n a ↦ n + a.size) 1 * (3 * (b.finishDelay + 2)) =
      fuel + 1 := by
    refine Nat.exists_eq_add_one_of_ne_zero (Nat.mul_ne_zero ?_ (by omega))
    have hle (as : List (Activity α)) (n : Nat) (hn : 0 < n) :
        0 < as.foldl (fun n a ↦ n + a.size) n := by
      induction as generalizing n with
      | nil => exact hn
      | cons a as ih => exact ih _ (Nat.add_pos_left hn _)
    exact Nat.ne_of_gt (hle as 1 Nat.one_pos)
  unfold drive
  rw [hfuel, driveFor]
  dsimp only
  rw [h]
  dsimp only
  rw [hover, if_pos rfl]

theorem finish_of_makeCalls {a a' : Activity α} {b' : Bench α} (hcurrent : a.current = none)
    (h : b.makeCalls a a.todo = (b', a')) (hover : a'.isOver = true) :
    (b.finish [.calls a]).1 = b'.settle := by
  have hround : b.round [a] = (b', [a']) := by
    simp only [round, pollActivity, hcurrent, h]
  exact drive_of_isOver hround (by simp [hover])

/-- A task whose deadline has come makes its callback, and looks again when that has ended. -/
theorem Unhindered.settleTask_of_due (h : b.Unhindered) (hwilling : b.rig.recorder.Willing)
    {reply : Reply} (hended : (b.rig.attend .tick).world.stage? b.rig.world.calls.length =
      some (.ended reply)) {period deadline : Nat} (hperiod : 0 < period) (hdue : deadline ≤ b.now)
    (fuel : Nat) :
    b.settleTask true ⟨⟨period, deadline, .waiting⟩, none⟩ (fuel + 2) =
      (b.attend .tick).settleTask true
        ⟨⟨period, nextDeadline period deadline b.now, .waiting⟩, none⟩ fuel := by
  have hstarts : b.settleTask true ⟨⟨period, deadline, .waiting⟩, none⟩ (fuel + 2) =
      (b.issue .tick).2.settleTask true
        ⟨⟨period, nextDeadline period deadline b.now, .busy⟩, some (b.issue .tick).1⟩
        (fuel + 1) := by
    have hisDue : (⟨period, deadline, .waiting⟩ : Ticker).isDue b.now = true := by
      simp [Ticker.isDue, hperiod, hdue]
    rw [Bench.settleTask]
    dsimp only
    rw [if_neg (by decide), if_neg (by decide), if_pos hisDue]
    rfl
  rw [hstarts, Bench.settleTask]
  dsimp only
  rw [h.poll_issue hwilling, reply?_attend hended]
  rfl

end Bench

end Bundling
