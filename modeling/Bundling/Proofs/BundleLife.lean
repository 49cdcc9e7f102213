import Bundling.Proofs.Machine
import Bundling.Proofs.Promptness
import Bundling.Proofs.Undisturbed
import Mathlib

/-!
How long a bundle stays open where a periodic timer checks its age. The age is counted from the last
close, which comes before the opening, so a check that finds the bundle too young comes less than
the age limit after the opening, and the next one no more than a period later. Checks that are late
are made up for or skipped, but the next deadline is never more than a period away.
-/

set_option autoImplicit false
set_option relaxedAutoImplicit false

namespace Bundling

/-! ### Moments and deadlines -/

theorem nextDeadline_le (period : Nat) {deadline now : Nat} (h : deadline ≤ now) :
    nextDeadline period deadline now ≤ now + period := by
  unfold nextDeadline deadlineAfter
  split <;> omega

namespace Timer

/-- How often the clock, a signed word of milliseconds, has wrapped around by a moment. It does so
for the first time after 2 ^ 63 milliseconds. -/
def wraps (moment : Nat) : Nat := (moment + 2 ^ 63) / 2 ^ 64

theorem wraps_mono {m n : Nat} (h : m ≤ n) : wraps m ≤ wraps n :=
  Nat.div_le_div_right (Nat.add_le_add_right h _)

/-- Between two moments without a wrap the clock moves on as time does. -/
theorem toInt_ofNat_sub {m n : Nat} (h : wraps m = wraps n) :
    (Int64.ofNat n).toInt - (Int64.ofNat m).toInt = n - m := by
  unfold wraps at h
  have hsize : Int64.size = 2 ^ 64 := rfl
  rw [Int64.toInt_ofNat', Int64.toInt_ofNat', hsize, Int.bmod_def, Int.bmod_def]
  omega

/-- A periodic timer takes the first registration. -/
theorem schedule_of_periodic {period : Nat} (h : 0 < period) (now : Int64) :
    ({ kind := .periodic true, now := now } : Timer).schedule period =
      (.ok 0, { kind := .periodic true, now := now, registrations := [⟨period, true⟩] },
        [.timerScheduled period]) := by
  have hrefusal : ({ kind := .periodic true, now := now } : Timer).scheduleRefusal period =
      none := by
    unfold scheduleRefusal
    rw [if_neg (Nat.ne_of_gt h), if_neg (by simp)]
  unfold schedule
  dsimp only [Fault.draw]
  rw [hrefusal]
  rfl

end Timer

/-- A check that finds the age limit not reached comes before the limit, unless the clock has
wrapped. -/
theorem Coordinator.lt_of_not_isExpired {c : Coordinator} {l : Limits} {closed now : Nat}
    (hpolicy : c.policy = l.policy) (hclock : c.timer.now = Int64.ofNat now)
    (hlast : c.slot.lastClose = Int64.ofNat closed) (hwraps : Timer.wraps closed = Timer.wraps now)
    (hyoung : c.isExpired = false) : now < closed + l.policy.maxAge.toMillis := by
  have hage := (isExpired_iff hpolicy).not.mp (by simp [hyoung])
  rw [hclock, hlast, Timer.toInt_ofNat_sub hwraps] at hage
  omega

namespace Bench

variable {α : Type} {b : Bench α} {q : Request α} {l : Limits}

/-! ### A started coordinator on a periodic timer -/

/-- A bench on which nothing holds up a started coordinator, whose age check is registered with a
periodic timer. -/
structure Ready (l : Limits) (b : Bench α) : Prop extends b.Unhindered where
  rig : b.rig.Ready l
  clock : b.timer.now = Int64.ofNat b.now
  kind : b.timer.kind = .periodic true
  registrations : b.timer.registrations = [⟨l.policy.checkPeriod.toMillis, true⟩]

theorem Ready.of_handled (h : b.Ready l) {rig : Rig α} {j : Journal α} (hrig : rig.Ready l)
    (hhandled : b.rig.Handled rig j) : ({ b with rig := rig } : Bench α).Ready l where
  gate := h.gate
  faults := h.faults
  underway := h.underway
  finishDelay := h.finishDelay
  abandoned := h.abandoned
  rig := hrig
  clock := (congrArg Timer.now hhandled.timer).trans h.clock
  kind := (congrArg Timer.kind hhandled.timer).trans h.kind
  registrations := (congrArg Timer.registrations hhandled.timer).trans h.registrations

theorem Ready.setNow (h : b.Ready l) (now : Nat) : (b.setNow now).Ready l where
  gate := h.gate
  faults := h.faults
  underway := h.underway
  finishDelay := h.finishDelay
  abandoned := h.abandoned
  rig := ⟨h.rig.lock, h.rig.phase, h.rig.latched, h.rig.hasUnit, h.rig.policy, h.rig.willing⟩
  clock := rfl
  kind := h.kind
  registrations := h.registrations

theorem Ready.isVirtual (h : b.Ready l) : b.isVirtual = true := by
  unfold Bench.isVirtual
  rw [h.kind]

/-- Calls that are made one after the other are all answered. -/
theorem Ready.makeCalls {requests : List (Request α)} (h : b.Ready l)
    (hrequests : ∀ q ∈ requests, q.Ingests) {a : Activity α} (hcurrent : a.current = none) :
    ∃ (rig : Rig α) (j : Journal α) (a' : Activity α),
      b.makeCalls a requests = ({ b with rig := rig }, a') ∧ a'.isOver = true ∧
      rig.Ready l ∧ b.rig.Handled rig j := by
  induction requests generalizing b a with
  | nil => exact ⟨b.rig, [], _, rfl, by simp [Activity.isOver, hcurrent], h.rig, .refl _⟩
  | cons q rest ih =>
    obtain ⟨reply, j, hended, hready, hhandled⟩ :=
      h.rig.attend (hrequests q List.mem_cons_self)
    rw [h.makeCalls_cons h.rig.willing hended]
    have hcurrent' := Activity.current_ended { a with todo := rest } reply
    split
    case isTrue htodo =>
      exact ⟨_, j, _, rfl, by simp [Activity.isOver, hcurrent', htodo], hready, hhandled⟩
    case isFalse =>
      obtain ⟨rig, k, a', hcalls, hover, hready', hhandled'⟩ :=
        ih (h.of_handled hready hhandled) (fun q hq ↦ hrequests q (List.mem_cons_of_mem _ hq))
          hcurrent'
      exact ⟨rig, j ++ k, a', hcalls, hover, hready', hhandled.trans hhandled'⟩

/-! ### The moments that count -/

open Journal

/-- When the open bundle has been opened and the last one closed, and how these moments bound the
next deadline. -/
structure Timely (l : Limits) (b : Bench α) (deadline : Nat) (opened : Option Nat) (closed : Nat) :
    Prop where
  lastClose : b.coordinator.slot.lastClose = Int64.ofNat closed
  closed_le : closed ≤ b.now
  deadline_le : deadline ≤ b.now + l.policy.checkPeriod.toMillis
  isOpen : b.coordinator.slot.isOpen = true → ∃ moment, opened = some moment ∧
    closed ≤ moment ∧ moment ≤ b.now ∧ (Timer.wraps closed = Timer.wraps b.now →
      deadline < moment + l.policy.maxAge.toMillis + l.policy.checkPeriod.toMillis)

variable {deadline closed : Nat} {opened : Option Nat}

/-- Calls may open a bundle now, or close one now. -/
theorem Timely.of_handled (ht : b.Timely l deadline opened closed) (h : b.Ready l) {rig : Rig α}
    {j : Journal α} (hhandled : b.rig.Handled rig j) :
    Timely l { b with rig := rig } deadline (j.lastly Entry.isStart (some b.now) opened)
      (j.lastly Entry.isFinish b.now closed) where
  lastClose := by
    have hslot := hhandled.slot.lastClose
    have hclock : b.rig.world.coordinator.timer.now = Int64.ofNat b.now := h.clock
    have hlast : b.rig.world.coordinator.slot.lastClose = Int64.ofNat closed := ht.lastClose
    rw [hclock, hlast] at hslot
    change rig.world.coordinator.slot.lastClose = _
    rw [hslot]
    unfold lastly
    split <;> rfl
  closed_le := lastly_le _ ht.closed_le j
  deadline_le := ht.deadline_le
  isOpen := by
    intro hopen
    have hpos := l.maxAge_pos
    have hle := ht.deadline_le
    have hclosed := lastly_le Entry.isFinish ht.closed_le j
    cases hstart : j.any Entry.isStart with
    | true =>
      exact ⟨b.now, lastly_of_any hstart _ _, hclosed, Nat.le_refl _, fun _ ↦ by omega⟩
    | false =>
      obtain ⟨hbefore, hfinish⟩ :=
        (hhandled.slot.isOpen hopen).resolve_left (by simp [hstart])
      rw [lastly_of_not_any hstart, lastly_of_not_any hfinish]
      exact ht.isOpen hbefore

/-- Time passes: that moves no deadline, and the clock has wrapped as often as it had, or more. -/
theorem Timely.of_le (ht : b.Timely l deadline opened closed) {now : Nat} (hnow : b.now ≤ now) :
    (b.setNow now).Timely l deadline opened closed where
  lastClose := ht.lastClose
  closed_le := Nat.le_trans ht.closed_le hnow
  deadline_le := Nat.le_trans ht.deadline_le (Nat.add_le_add_right hnow _)
  isOpen := by
    intro hopen
    obtain ⟨moment, hopened, hclosed, hmoment, hbound⟩ := ht.isOpen hopen
    refine ⟨moment, hopened, hclosed, Nat.le_trans hmoment hnow, fun hwraps ↦ hbound ?_⟩
    have hfirst := Timer.wraps_mono ht.closed_le
    have hsecond := Timer.wraps_mono hnow
    change Timer.wraps closed = Timer.wraps now at hwraps
    omega

/-- A tick that leaves a bundle open comes less than the age limit after the last close, and sets
the next deadline no more than a period later. -/
theorem Timely.tick (ht : b.Timely l deadline opened closed) (h : b.Ready l)
    (hdue : deadline ≤ b.now) {j : Journal α} (hhandled : b.rig.Handled (b.rig.attend .tick) j) :
    (b.attend .tick).Timely l (nextDeadline l.policy.checkPeriod.toMillis deadline b.now)
      (j.lastly Entry.isStart (some b.now) opened) (j.lastly Entry.isFinish b.now closed) := by
  have hnext := nextDeadline_le l.policy.checkPeriod.toMillis hdue
  have hafter := ht.of_handled h hhandled
  refine ⟨hafter.lastClose, hafter.closed_le, hnext, fun hopen ↦ ?_⟩
  obtain ⟨moment, hopened, hclosed, hmoment, -⟩ := hafter.isOpen hopen
  refine ⟨moment, hopened, hclosed, hmoment, fun hwraps ↦ ?_⟩
  have hage : b.now < j.lastly Entry.isFinish b.now closed + l.policy.maxAge.toMillis := by
    cases hfinish : j.any Entry.isFinish with
    | true =>
      rw [lastly_of_any hfinish]
      exact Nat.lt_add_of_pos_right l.maxAge_pos
    | false =>
      rw [lastly_of_not_any hfinish] at hwraps ⊢
      exact Coordinator.lt_of_not_isExpired h.rig.policy h.clock ht.lastClose hwraps
        (h.rig.isExpired_of_attend_tick hopen)
  omega

/-! ### The task -/

/-- The task of the age check runs until its deadline is ahead. Each tick moves the deadline on, so
the fuel lasts. -/
theorem Ready.settleTask {b : Bench α} {deadline closed : Nat} {opened : Option Nat}
    (h : b.Ready l) (ht : b.Timely l deadline opened closed) (fuel : Nat)
    (hfuel : 2 * (b.now + 1 - deadline) < fuel) :
    ∃ (rig : Rig α) (j : Journal α) (next : Nat),
      b.settleTask true ⟨⟨l.policy.checkPeriod.toMillis, deadline, .waiting⟩, none⟩ fuel =
        ({ b with rig := rig }, ⟨⟨l.policy.checkPeriod.toMillis, next, .waiting⟩, none⟩) ∧
      rig.Ready l ∧ b.rig.Handled rig j ∧ b.now < next ∧
      Timely l { b with rig := rig } next (j.lastly Entry.isStart (some b.now) opened)
        (j.lastly Entry.isFinish b.now closed) := by
  have hpos := l.policy.checkPeriod_pos
  -- by induction on how far the deadline lies behind
  by_cases hdue : deadline ≤ b.now
  · obtain ⟨fuel, rfl⟩ : ∃ n, fuel = n + 2 := ⟨fuel - 2, by omega⟩
    obtain ⟨reply, j, hended, hready, hhandled⟩ := h.rig.attend (q := .tick) trivial
    have hlater := lt_nextDeadline hpos deadline b.now
    obtain ⟨rig, k, next, hsettles, hready', hhandled', hnext, ht'⟩ :=
      (h.of_handled hready hhandled).settleTask (ht.tick h hdue hhandled) fuel
        (by change 2 * (b.now + 1 - _) < fuel; omega)
    refine ⟨rig, j ++ k, next, ?_, hready', hhandled.trans hhandled', hnext, ?_⟩
    · rw [h.settleTask_of_due h.rig.willing hended hpos hdue]
      exact hsettles
    · rw [lastly_append, lastly_append]
      exact ht'
  · obtain ⟨fuel, rfl⟩ : ∃ n, fuel = n + 1 := ⟨fuel - 1, by omega⟩
    refine ⟨b.rig, [], deadline, ?_, h.rig, .refl _, by omega, ht⟩
    rw [Bench.settleTask]
    simp [Ticker.isDue, hdue]
termination_by b.now + 1 - deadline
decreasing_by omega

/-! ### From rest to rest -/

/-- A bench at rest: the task of the age check waits for a deadline that is still ahead. -/
structure OnTime (l : Limits) (b : Bench α) (deadline : Nat) (opened : Option Nat)
    (closed : Nat) : Prop where
  ready : b.Ready l
  timely : b.Timely l deadline opened closed
  tasks : b.tasks = [⟨⟨l.policy.checkPeriod.toMillis, deadline, .waiting⟩, none⟩]
  later : b.now < deadline

/-- The registration has its task, so no other is made. -/
theorem Ready.tasks_append (h : b.Ready l) {task : Task} (htasks : b.tasks = [task]) :
    b.tasks ++ b.newTasks = [task] := by
  unfold newTasks
  rw [htasks, h.registrations]
  rfl

/-- All tasks run until they wait. -/
theorem Ready.settle (h : b.Ready l) (ht : b.Timely l deadline opened closed)
    (htasks : b.tasks ++ b.newTasks =
      [⟨⟨l.policy.checkPeriod.toMillis, deadline, .waiting⟩, none⟩]) :
    ∃ (j : Journal α) (next : Nat),
      b.settle.journal = b.journal ++ j ∧ b.settle.now = b.now ∧
      b.settle.OnTime l next (j.lastly Entry.isStart (some b.now) opened)
        (j.lastly Entry.isFinish b.now closed) := by
  obtain ⟨rig, j, next, hsettles, hrig, hhandled, hlater, ht'⟩ :=
    h.settleTask ht (2 * (b.now + 1 - deadline) + 3) (by omega)
  have hactive : b.timer.isActive 0 = true := by
    unfold Timer.isActive
    rw [h.registrations]
    rfl
  have hsettle : b.settle = { b with
      rig := rig
      tasks := [⟨⟨l.policy.checkPeriod.toMillis, next, .waiting⟩, none⟩] } := by
    unfold Bench.settle
    rw [if_pos h.isVirtual, htasks]
    simp only [settleTasks, hactive, hsettles]
  have hready := h.of_handled hrig hhandled
  rw [hsettle]
  exact ⟨j, next, hhandled.journal, rfl,
    ⟨⟨hready.gate, hready.faults, hready.underway, hready.finishDelay, hready.abandoned⟩,
      hready.rig, hready.clock, hready.kind, hready.registrations⟩,
    ⟨ht'.lastClose, ht'.closed_le, ht'.deadline_le, ht'.isOpen⟩, rfl, hlater⟩

end Bench

namespace Step

variable {α : Type}

/-- A step that brings something to a started coordinator, or lets time pass. -/
def Ingests : Step α → Prop
  | call q => q.Ingests
  | submitAll _ | advance _ => True
  | _ => False

end Step

namespace Bench

variable {α : Type} {b : Bench α} {l : Limits} {deadline closed : Nat} {opened : Option Nat}

open Journal

/-- The moment of the last item of a script that has written such an entry. -/
def lastMoment? (p : Entry α → Bool) (b : Bench α) : List (Item α) → Option Nat
  | [] => none
  | item :: rest =>
    let (after, outcome) := b.run item
    (after.lastMoment? p rest).or (if outcome.entries.any p then some after.now else none)

theorem lastMoment?_cons_or (p : Entry α → Bool) (b : Bench α) (item : Item α)
    (rest : List (Item α)) (before : Option Nat) :
    (b.lastMoment? p (item :: rest)).or before =
      ((b.run item).1.lastMoment? p rest).or
        ((b.run item).2.entries.lastly p (some (b.run item).1.now) before) := by
  change (((b.run item).1.lastMoment? p rest).or
    (if (b.run item).2.entries.any p then _ else _)).or before = _
  rw [Option.or_assoc]
  unfold lastly
  split <;> rfl

theorem lastMoment?_cons_getD (p : Entry α → Bool) (b : Bench α) (item : Item α)
    (rest : List (Item α)) (before : Nat) :
    (b.lastMoment? p (item :: rest)).getD before =
      ((b.run item).1.lastMoment? p rest).getD
        ((b.run item).2.entries.lastly p (b.run item).1.now before) := by
  change (((b.run item).1.lastMoment? p rest).or
    (if (b.run item).2.entries.any p then _ else _)).getD before = _
  rw [Option.getD_or]
  unfold lastly
  split <;> rfl

/-- A step leaves the bench at rest, with the moments at which it has opened or closed a bundle. -/
def RestsAfter (l : Limits) (b : Bench α) (s : Step α) (opened : Option Nat) (closed : Nat) :
    Prop :=
  ∃ next, (b.run (.step s)).1.OnTime l next
    ((b.run (.step s)).2.entries.lastly Entry.isStart (some (b.run (.step s)).1.now) opened)
    ((b.run (.step s)).2.entries.lastly Entry.isFinish (b.run (.step s)).1.now closed)

/-- A step that comes down to this, and then to the tasks. -/
theorem Ready.onTime_run {b' : Bench α} {s : Step α} {j : Journal α} (h : b'.Ready l)
    (hrun : (b.run (.step s)).1 = b'.settle) (hjournal : b'.journal = b.journal ++ j)
    (ht : b'.Timely l deadline (j.lastly Entry.isStart (some b'.now) opened)
      (j.lastly Entry.isFinish b'.now closed))
    (htasks : b'.tasks ++ b'.newTasks =
      [⟨⟨l.policy.checkPeriod.toMillis, deadline, .waiting⟩, none⟩]) :
    RestsAfter l b s opened closed := by
  obtain ⟨k, next, hjournal', hnow, hontime⟩ := h.settle ht htasks
  have hentries : (b.run (.step s)).2.entries = j ++ k := by
    change (b.run (.step s)).1.journal.drop b.journal.length = j ++ k
    rw [hrun, hjournal', hjournal, List.append_assoc, List.drop_left]
  refine ⟨next, ?_⟩
  rw [hentries, hrun, hnow, lastly_append, lastly_append]
  exact hontime

/-- Calls on a started coordinator. -/
theorem OnTime.run_calls (h : b.OnTime l deadline opened closed) {s : Step α} {a : Activity α}
    (hstart : b.start s = (b, .calls a)) (hcurrent : a.current = none)
    (htodo : ∀ q ∈ a.todo, q.Ingests) :
    RestsAfter l b s opened closed := by
  obtain ⟨rig, j, a', hcalls, hover, hrig, hhandled⟩ := h.ready.makeCalls htodo hcurrent
  have hrun : (b.run (.step s)).1 = ({ b with rig := rig } : Bench α).settle := by
    change (((b.start s).1).finish [(b.start s).2]).1 = _
    rw [hstart]
    exact finish_of_makeCalls hcurrent hcalls hover
  have hready := h.ready.of_handled hrig hhandled
  exact hready.onTime_run hrun hhandled.journal (h.timely.of_handled h.ready hhandled)
    (hready.tasks_append h.tasks)

theorem OnTime.run_advance (h : b.OnTime l deadline opened closed) (millis : Int) :
    RestsAfter l b (.advance millis) opened closed := by
  have hready := h.ready.setNow (b.now + millis.toNat)
  have hrun : (b.run (.step (.advance millis))).1 = (b.setNow (b.now + millis.toNat)).settle := by
    have hclock : b.advanceClock millis = b.setNow (b.now + millis.toNat) :=
      if_pos h.ready.isVirtual
    change ((b.advanceClock millis).drive []).1 = _
    rw [hclock]
    exact drive_of_isOver rfl rfl
  exact hready.onTime_run (j := []) hrun (List.append_nil _).symm
    (h.timely.of_le (Nat.le_add_right _ _)) (hready.tasks_append h.tasks)

/-- A step takes the bench from rest to rest. -/
theorem OnTime.run (h : b.OnTime l deadline opened closed) {s : Step α} (hs : s.Ingests) :
    RestsAfter l b s opened closed := by
  have hpresent (s : Step α) (a : Activity α)
      (hstart : b.start s = b.unlessDropped (.calls a)) : b.start s = (b, .calls a) := by
    rw [hstart]
    unfold unlessDropped
    rw [h.ready.abandoned, if_neg Bool.false_ne_true]
  cases s with
  | call q =>
    exact h.run_calls (hpresent _ _ rfl) rfl fun q' hq ↦ by
      rw [List.mem_singleton.mp hq]
      exact hs
  | submitAll items =>
    refine h.run_calls (hpresent _ _ rfl) rfl fun q hq ↦ ?_
    obtain ⟨x, -, rfl⟩ := List.mem_map.mp hq
    trivial
  | advance millis => exact h.run_advance millis
  | _ => exact hs.elim

/-- So does a script. -/
theorem OnTime.runAll (steps : List (Step α)) {b : Bench α} {deadline closed : Nat}
    {opened : Option Nat} (h : b.OnTime l deadline opened closed)
    (hsteps : ∀ s ∈ steps, s.Ingests) :
    ∃ next, (b.runAll (steps.map .step)).1.OnTime l next
      ((b.lastMoment? Entry.isStart (steps.map .step)).or opened)
      ((b.lastMoment? Entry.isFinish (steps.map .step)).getD closed) := by
  induction steps generalizing b deadline opened closed with
  | nil => exact ⟨deadline, h⟩
  | cons s steps ih =>
    obtain ⟨next, hnext⟩ := h.run (hsteps s List.mem_cons_self)
    obtain ⟨last, hlast⟩ := ih hnext fun s hs ↦ hsteps s (List.mem_cons_of_mem _ hs)
    rw [List.map_cons, lastMoment?_cons_or, lastMoment?_cons_getD]
    exact ⟨last, hlast⟩

/-! ### The bound -/

/-- A coordinator on which no call has been made, on a periodic timer whose clock has come to a
moment. -/
def periodic (id : String) (l : Limits) (recorder : Recorder α) (now : Nat) : Bench α where
  rig := ⟨.created id l.check { kind := .periodic true, now := Int64.ofNat now }, recorder⟩
  now := now

theorem onTime_start (id : String) (l : Limits) {recorder : Recorder α}
    (hwilling : recorder.Willing) (now : Nat) :
    RestsAfter l (periodic id l recorder now : Bench α) (.call .start) none now := by
  let b : Bench α := periodic id l recorder now
  have hunhindered : b.Unhindered := ⟨rfl, rfl, rfl, rfl, rfl⟩
  have hcomes : b.rig.ComesBy .start
      ((Coordinator.create id l.check b.timer).opened) (recorder.note .opened) :=
    (Rig.comesBy_enter (c := Coordinator.create id l.check b.timer) 0 rfl (by simp) (by simp)
      (.inr rfl)).resume 0 .openUnit (by simp) hwilling rfl
  obtain ⟨notices, hopened⟩ := Coordinator.opened_of_schedule_eq (α := α) (β := α)
    (c := Coordinator.create id l.check b.timer)
    (Timer.schedule_of_periodic l.policy.checkPeriod_pos _)
  rw [hopened] at hcomes
  have hattend := hcomes.attend_eq
  have hended : (b.rig.attend .start).world.stage? b.rig.world.calls.length =
      some (.ended .done) := by
    rw [hattend]
    simp [World.stage?]
  have hcalls := (hunhindered.makeCalls_cons hwilling hended
    ({ purpose := .single, todo := [.start] } : Activity α) []).trans (if_pos rfl)
  have hrun : (b.run (.step (.call .start))).1 = (b.attend .start).settle :=
    finish_of_makeCalls rfl hcalls rfl
  have htimer : (b.attend .start).timer =
      { b.timer with registrations := [⟨l.policy.checkPeriod.toMillis, true⟩] } := by
    change (b.rig.attend .start).world.coordinator.timer = _
    rw [hattend]
    rfl
  have hslot : (b.attend .start).coordinator.slot = .fresh (Int64.ofNat now) := by
    change (b.rig.attend .start).world.coordinator.slot = _
    rw [hattend]
    rfl
  have hjournal : (b.attend .start).journal = b.journal ++ [.opened] := by
    change (b.rig.attend .start).recorder.journal = _
    rw [hattend]
    rfl
  have hready : (b.attend .start).Ready l := by
    refine ⟨⟨rfl, rfl, rfl, rfl, rfl⟩, ?_, congrArg Timer.now htimer, congrArg Timer.kind htimer,
      congrArg Timer.registrations htimer⟩
    change (b.rig.attend .start).Ready l
    rw [hattend]
    exact ⟨rfl, rfl, rfl, rfl, rfl, hwilling.failing, hwilling.channel⟩
  have htimely : (b.attend .start).Timely l (now + l.policy.checkPeriod.toMillis) none now :=
    ⟨congrArg Slot.lastClose hslot, Nat.le_refl _, Nat.le_refl _,
      fun hopen ↦ absurd ((congrArg Slot.isOpen hslot).symm.trans hopen) (by simp [Slot.fresh])⟩
  refine hready.onTime_run hrun hjournal htimely ?_
  change [] ++ ((b.attend .start).timer.registrations.drop 0).map _ = _
  rw [hready.registrations]
  rfl

/-- However the clock jumps, a bundle that is open at rest has been opened less than the age limit
and one period of the check ago, unless the clock has wrapped around since the last close. -/
theorem now_lt_of_isOpen (id : String) (l : Limits) {recorder : Recorder α}
    (hwilling : recorder.Willing) (now : Nat) {steps : List (Step α)}
    (hsteps : ∀ s ∈ steps, s.Ingests) :
    let b : Bench α := periodic id l recorder now
    let script : List (Item α) := .step (.call .start) :: steps.map .step
    let after := (b.runAll script).1
    Timer.wraps ((b.lastMoment? Entry.isFinish script).getD now) = Timer.wraps after.now →
    after.coordinator.slot.isOpen = true →
    ∃ moment, b.lastMoment? Entry.isStart script = some moment ∧ moment ≤ after.now ∧
      after.now < moment + l.policy.maxAge.toMillis + l.policy.checkPeriod.toMillis := by
  intro b script after hwraps hopen
  obtain ⟨next, hstart⟩ := onTime_start id l hwilling now
  obtain ⟨last, hlast⟩ := hstart.runAll steps hsteps
  rw [← lastMoment?_cons_or, ← lastMoment?_cons_getD] at hlast
  obtain ⟨moment, hmoment, -, hle, hbound⟩ := hlast.timely.isOpen hopen
  exact ⟨moment, Option.or_none.symm.trans hmoment, hle,
    Nat.lt_trans hlast.later (hbound hwraps)⟩

/-- The clock runs late past a check that finds the second bundle too young. -/
def overslept : List (Step Nat) :=
  [.advance 37, .call (.submit 1), .call (.barrier 7), .advance 1, .call (.submit 2), .advance 7]

theorem now_lt_of_isOpen_overslept :
    let b : Bench Nat := periodic "overslept" { ageMillis := 10 } {} 0
    let script : List (Item Nat) := .step (.call .start) :: overslept.map .step
    (b.runAll script).1.coordinator.slot.isOpen = true ∧
      ∃ moment, b.lastMoment? Entry.isStart script = some moment ∧
        moment ≤ (b.runAll script).1.now ∧ (b.runAll script).1.now < moment +
          ({ ageMillis := 10 } : Limits).policy.maxAge.toMillis +
          ({ ageMillis := 10 } : Limits).policy.checkPeriod.toMillis := by
  have hsteps : ∀ s ∈ overslept, s.Ingests := by
    simp [overslept, Step.Ingests, Request.Ingests]
  refine ⟨by cbv, ?_⟩
  exact now_lt_of_isOpen "overslept" { ageMillis := 10 } ⟨rfl, rfl⟩ 0 hsteps (by cbv) (by cbv)

/-- The clock wraps around while a bundle is open, so that its age is negative from then on. -/
def wrapping : List (Step Nat) :=
  [.advance 9223372036854775000, .call (.submit 1), .advance 1000, .advance 1000]

/-- Without the condition on the clock the bound fails. -/
theorem not_now_lt_of_isOpen :
    ¬ ∀ (id : String) (l : Limits) (steps : List (Step Nat)), (∀ s ∈ steps, s.Ingests) →
      let b : Bench Nat := periodic id l {} 0
      let script : List (Item Nat) := .step (.call .start) :: steps.map .step
      let after := (b.runAll script).1
      after.coordinator.slot.isOpen = true →
      ∃ moment, b.lastMoment? Entry.isStart script = some moment ∧
        after.now < moment + l.policy.maxAge.toMillis + l.policy.checkPeriod.toMillis := by
  intro hbound
  have hsteps : ∀ s ∈ wrapping, s.Ingests := by
    simp [wrapping, Step.Ingests, Request.Ingests]
  obtain ⟨moment, hmoment, hlt⟩ := hbound "wrapping" {} wrapping hsteps (by cbv)
  have hopened : (periodic "wrapping" {} {} 0 : Bench Nat).lastMoment? Entry.isStart
      (.step (.call .start) :: wrapping.map .step) = some 9223372036854775000 := by
    cbv
  have hnow : ((periodic "wrapping" {} {} 0 : Bench Nat).runAll
      (.step (.call .start) :: wrapping.map .step)).1.now = 9223372036854777000 := by
    cbv
  rw [hopened, Option.some.injEq] at hmoment
  rw [hnow, ← hmoment] at hlt
  revert hlt
  decide

end Bench

end Bundling
