import Bundling.Bench.Script
import Bundling.Proofs.Pace
import Bundling.Proofs.TimerUses

/-!
The tasks that run keep a pace. The callback of a worker takes a fixed time; that of a coordinator's
task is an age check, which takes as long as the lock and the collaborators make it wait. Neither
does anything to its ticker that a pace does not do, whatever a script asks for, so that all that
holds of paces holds of them. The grid of a task starts at the moment at which the task first runs.
That is the moment of its registration unless the clock moves on before any task has had a chance to
run; the grid lies later then, which the last statement here shows of one registration.
-/

set_option autoImplicit false
set_option relaxedAutoImplicit false

namespace Bundling

/-! ### Tickers -/

/-- The pace has brought its ticker here by now, with so many callbacks started. -/
structure Pace.IsAt (p : Pace) (t : Ticker) (now calls : Nat) : Prop where
  ticker : p.ticker = t
  now : p.now = now
  calls : p.ticks.length = calls
  tolerance : p.tolerance = latenessTolerance

namespace Pace.IsAt

variable {p : Pace} {t : Ticker} {now calls : Nat}

theorem scheduled (period moment : Nat) :
    (Pace.scheduled period moment).IsAt (.scheduled period moment) moment 0 :=
  ⟨rfl, rfl, rfl, rfl⟩

theorem passes (h : p.IsAt t now calls) (millis : Nat) :
    (p.step (.pass millis)).IsAt t (now + millis) calls :=
  ⟨h.ticker, congrArg (· + millis) h.now, h.calls, h.tolerance⟩

theorem stops (h : p.IsAt t now calls) (hwaiting : t.state = .waiting) :
    (p.step (.wake false)).IsAt t.stop now calls := by
  obtain ⟨rfl, rfl, rfl, htolerance⟩ := h
  rw [Pace.step, if_pos ⟨hwaiting, rfl⟩]
  exact ⟨rfl, rfl, rfl, htolerance⟩

theorem starts (h : p.IsAt t now calls) (hdue : t.isDue now = true) :
    (p.step (.wake true)).IsAt (t.start now) now (calls + 1) := by
  obtain ⟨rfl, rfl, rfl, htolerance⟩ := h
  rw [Pace.step, if_neg (by simp), if_pos hdue]
  refine ⟨?_, rfl, by simp [Pace.start], htolerance⟩
  rw [Pace.start, htolerance]
  rfl

theorem ends (h : p.IsAt t now calls) (hbusy : t.state = .busy) :
    (p.step .endCallback).IsAt t.callbackEnded now calls := by
  obtain ⟨rfl, rfl, rfl, htolerance⟩ := h
  rw [Pace.step, if_pos hbusy]
  exact ⟨rfl, rfl, rfl, htolerance⟩

end Pace.IsAt

/-! ### Workers -/

namespace Worker

/-- What a worker does to its ticker when it runs at one moment until it waits. -/
def moves (active : Bool) (now : Nat) (w : Worker) : List Pace.Move :=
  match _hstate : w.ticker.state with
  | .over => []
  | .busy =>
    if w.busyUntil ≤ now then
      .endCallback :: moves active now { w with ticker := w.ticker.callbackEnded }
    else []
  | .waiting =>
    if !active then [.wake false]
    else if _hdue : w.ticker.isDue now = true then .wake true :: moves active now (w.begin now)
    else []
termination_by (now + 1 - w.ticker.deadline, taskRank w.ticker.state)
decreasing_by
  · right
    simp [Ticker.callbackEnded, taskRank, _hstate]
  · left
    simp only [Ticker.isDue, Bool.and_eq_true, decide_eq_true_eq] at _hdue
    have hlt := lt_nextDeadline _hdue.2 w.ticker.deadline now
    simp only [begin, Ticker.start_deadline]
    omega

/-- A pace that is where the worker is goes where the worker goes. -/
theorem settle_isAt {active : Bool} {now : Nat} {w : Worker} {p : Pace}
    (h : p.IsAt w.ticker now w.calls) :
    (p.run (w.moves active now)).IsAt (w.settle active now).ticker now
      (w.settle active now).calls := by
  fun_induction Worker.settle active now w generalizing p with
  | case1 w hstate =>
    have hmoves : w.moves active now = [] := by
      rw [moves]
      split <;> simp_all
    rwa [hmoves]
  | case2 w hstate hended ih =>
    have hmoves : w.moves active now = .endCallback ::
        moves active now { w with ticker := w.ticker.callbackEnded } := by
      rw [moves]
      split <;> simp_all
    rw [hmoves]
    exact ih (h.ends hstate)
  | case3 w hstate hbusy =>
    have hmoves : w.moves active now = [] := by
      rw [moves]
      split <;> simp_all
    rwa [hmoves]
  | case4 w hstate hgone =>
    have hmoves : w.moves active now = [.wake false] := by
      rw [moves]
      split <;> simp_all
    rw [hmoves]
    exact h.stops hstate
  | case5 w hstate hwanted hdue ih =>
    have hmoves : w.moves active now = .wake true :: moves active now (w.begin now) := by
      rw [moves]
      split <;> simp_all
    rw [hmoves]
    exact ih (h.starts hdue)
  | case6 w hstate hwanted hwaits =>
    have hmoves : w.moves active now = [] := by
      rw [moves]
      split <;> simp_all
    rwa [hmoves]

end Worker

/-! ### The tasks of a source -/

namespace Clockwork

variable {c : Clockwork} {index periodMillis busyMillis : Nat} {w : Worker} {p : Pace}

/-- What the task of a registration does to its ticker when the source is used once. -/
def useMoves (c : Clockwork) (index : Nat) : Use → List Pace.Move
  | .jump millis => [.pass millis]
  | .settle => match c.posts[index]? with
    | some post => (post.begun c.now).moves (c.timer.isActive index) c.now
    | none => []
  | _ => []

/-- What the task of a registration does to its ticker while the source is used. -/
def moves (c : Clockwork) (index : Nat) : List Use → List Pace.Move
  | [] => []
  | u :: rest => c.useMoves index u ++ (c.use u).moves index rest

/-- The task of a registration has run, and this is where it is. -/
def Runs (c : Clockwork) (index : Nat) (w : Worker) : Prop :=
  (c.posts[index]?).map Post.worker = some (some w)

/-- The task of a registration has not run yet. -/
def Awaits (c : Clockwork) (index periodMillis busyMillis : Nat) : Prop :=
  ∃ held, c.posts[index]? = some
    { periodMillis := periodMillis, busyMillis := busyMillis, held := held }

theorem Awaits.lt (h : c.Awaits index periodMillis busyMillis) : index < c.posts.length := by
  obtain ⟨held, hpost⟩ := h
  exact (List.getElem?_eq_some_iff.mp hpost).1

theorem Runs.lt (h : c.Runs index w) : index < c.posts.length := by
  obtain ⟨post, hpost, -⟩ := Option.map_eq_some_iff.mp h
  exact (List.getElem?_eq_some_iff.mp hpost).1

/-- Only running the tasks does something to a task. -/
theorem worker_use (hc : c.Running) (hlt : index < c.posts.length) {u : Use} (hu : u ≠ .settle) :
    ∃ post, c.posts[index]? = some post ∧ ∃ held,
      (c.use u).posts[index]? = some { post with held := held } := by
  obtain ⟨post, hpost⟩ : ∃ post, c.posts[index]? = some post :=
    ⟨_, List.getElem?_eq_getElem hlt⟩
  refine ⟨post, hpost, ?_⟩
  cases u with
  | schedule periodMillis busyMillis =>
    refine ⟨post.held, ?_⟩
    rcases Nat.eq_zero_or_pos periodMillis with rfl | hperiod
    · rwa [hc.schedule_zero]
    · rw [hc.schedule_eq hperiod, List.getElem?_append_left hlt, hpost]
  | cancel j =>
    refine ⟨post.held, ?_⟩
    rw [hc.cancel_eq]
    split <;> exact hpost
  | drop j =>
    rw [hc.drop_eq]
    split
    · rw [List.getElem?_modify, hpost]
      by_cases hj : j = index
      · exact ⟨false, by simp [hj]⟩
      · exact ⟨post.held, by simp [hj]⟩
    · exact ⟨post.held, hpost⟩
  | jump millis => exact ⟨post.held, hpost⟩
  | settle => exact absurd rfl hu

theorem posts_settle (hc : c.Running) {post : Post} (hpost : c.posts[index]? = some post) :
    (c.use .settle).posts[index]? = some
      { post with worker := some ((post.begun c.now).settle (c.timer.isActive index) c.now) } := by
  rw [hc.settle_eq, List.getElem?_mapIdx, hpost]
  rfl

theorem Awaits.use (hc : c.Running) (h : c.Awaits index periodMillis busyMillis) {u : Use}
    (hu : u ≠ .settle) : (c.use u).Awaits index periodMillis busyMillis := by
  obtain ⟨held, hpost⟩ := h
  obtain ⟨post, hpost', held', hused⟩ := worker_use hc (Awaits.lt ⟨held, hpost⟩) hu
  rw [hpost, Option.some.injEq] at hpost'
  exact ⟨held', by rw [hused, ← hpost']⟩

theorem Awaits.run (hc : c.Running) (h : c.Awaits index periodMillis busyMillis) {uses : List Use}
    (huses : .settle ∉ uses) : (c.run uses).Awaits index periodMillis busyMillis := by
  induction uses generalizing c with
  | nil => exact h
  | cons u uses ih =>
    rw [List.mem_cons, not_or] at huses
    exact ih (hc.use u) (h.use hc (Ne.symm huses.1)) huses.2

/-- A registration that is added has a task that has not run. -/
theorem awaits_schedule (hc : c.Running) (hperiod : 0 < periodMillis) (busyMillis : Nat) :
    (c.use (.schedule periodMillis busyMillis)).Awaits c.posts.length periodMillis busyMillis := by
  rw [hc.schedule_eq hperiod]
  exact ⟨true, by simp⟩

/-- Tasks that run take no time, and nothing else but a jump does. -/
theorem now_use_of_ne (hc : c.Running) {u : Use} (hu : ∀ millis, u ≠ .jump millis) :
    (c.use u).now = c.now := by
  cases u with
  | schedule periodMillis busyMillis =>
    rcases Nat.eq_zero_or_pos periodMillis with rfl | hperiod
    · rw [hc.schedule_zero]
    · rw [hc.schedule_eq hperiod]
  | cancel j =>
    rw [hc.cancel_eq]
    split <;> rfl
  | drop j =>
    rw [hc.drop_eq]
    split <;> rfl
  | jump millis => exact absurd rfl (hu millis)
  | settle => rw [hc.settle_eq]

/-- The pace of a registration goes where its task goes. -/
theorem Runs.use (hc : c.Running) (h : c.Runs index w) (hp : p.IsAt w.ticker c.now w.calls)
    (u : Use) : ∃ w', (c.use u).Runs index w' ∧
      (p.run (c.useMoves index u)).IsAt w'.ticker (c.use u).now w'.calls := by
  obtain ⟨post, hpost, hworker⟩ := Option.map_eq_some_iff.mp h
  by_cases hu : u = .settle
  · subst hu
    have hbegun : post.begun c.now = w := by rw [Post.begun, hworker, Option.getD_some]
    refine ⟨w.settle (c.timer.isActive index) c.now, ?_, ?_⟩
    · rw [Runs, posts_settle hc hpost, hbegun]
      rfl
    · have hmoves : c.useMoves index .settle = w.moves (c.timer.isActive index) c.now := by
        rw [useMoves, hpost, ← hbegun]
      rw [hmoves, now_use_of_ne hc (by simp)]
      exact Worker.settle_isAt hp
  · obtain ⟨post', hpost', held, hused⟩ := worker_use hc h.lt hu
    rw [hpost, Option.some.injEq] at hpost'
    refine ⟨w, ?_, ?_⟩
    · rw [Runs, hused, ← hpost', ← hworker]
      rfl
    · cases u with
      | jump millis => exact hp.passes millis
      | settle => exact absurd rfl hu
      | _ =>
        rw [now_use_of_ne hc (by simp)]
        exact hp

theorem Runs.run (hc : c.Running) (h : c.Runs index w) (hp : p.IsAt w.ticker c.now w.calls)
    (uses : List Use) : ∃ w', (c.run uses).Runs index w' ∧
      (p.run (c.moves index uses)).IsAt w'.ticker (c.run uses).now w'.calls := by
  induction uses generalizing c w p with
  | nil => exact ⟨w, h, hp⟩
  | cons u uses ih =>
    obtain ⟨w', h', hp'⟩ := h.use hc hp u
    obtain ⟨w'', h'', hp''⟩ := ih (hc.use u) h' hp'
    exact ⟨w'', h'', by rwa [moves, Pace.run_append]⟩

/-- A task that runs for the first time starts its grid then. -/
theorem Awaits.settle (hc : c.Running) (h : c.Awaits index periodMillis busyMillis) :
    ∃ w, (c.use .settle).Runs index w ∧
      ((Pace.scheduled periodMillis c.now).run (c.useMoves index .settle)).IsAt w.ticker
        (c.use .settle).now w.calls := by
  obtain ⟨held, hpost⟩ := h
  refine ⟨(Worker.scheduled periodMillis busyMillis c.now).settle (c.timer.isActive index) c.now,
    ?_, ?_⟩
  · rw [Runs, posts_settle hc hpost]
    rfl
  · have hmoves : c.useMoves index .settle = (Worker.scheduled periodMillis busyMillis c.now).moves
        (c.timer.isActive index) c.now := by
      rw [useMoves, hpost]
      rfl
    rw [hmoves, now_use_of_ne hc (by simp)]
    exact Worker.settle_isAt (.scheduled periodMillis c.now)

end Clockwork

/-! ### The tasks of a coordinator -/

/-- Between two moments, a ticker does what a pace does that is where the ticker is. -/
def Ticker.Goes (t : Ticker) (now : Nat) (t' : Ticker) (now' : Nat) : Prop :=
  ∃ moves, ∀ (p : Pace) (calls : Nat), p.IsAt t now calls →
    ∃ calls', (p.run moves).IsAt t' now' calls'

namespace Ticker.Goes

variable {t t' t'' : Ticker} {now now' now'' : Nat}

theorem refl (t : Ticker) (now : Nat) : t.Goes now t now := ⟨[], fun _ calls h ↦ ⟨calls, h⟩⟩

theorem trans (h : t.Goes now t' now') (h' : t'.Goes now' t'' now'') : t.Goes now t'' now'' := by
  obtain ⟨moves, hmoves⟩ := h
  obtain ⟨moves', hmoves'⟩ := h'
  refine ⟨moves ++ moves', fun p calls hp ↦ ?_⟩
  obtain ⟨calls', hp'⟩ := hmoves p calls hp
  rw [Pace.run_append]
  exact hmoves' _ calls' hp'

theorem passes (t : Ticker) (hle : now ≤ now') : t.Goes now t now' := by
  refine ⟨[.pass (now' - now)], fun p calls hp ↦ ⟨calls, ?_⟩⟩
  have hpass := hp.passes (now' - now)
  rwa [Nat.add_sub_cancel' hle] at hpass

theorem stops (hwaiting : t.state = .waiting) : t.Goes now t.stop now :=
  ⟨[.wake false], fun _ calls hp ↦ ⟨calls, hp.stops hwaiting⟩⟩

theorem starts (hdue : t.isDue now = true) : t.Goes now (t.start now) now :=
  ⟨[.wake true], fun _ calls hp ↦ ⟨calls + 1, hp.starts hdue⟩⟩

theorem ends (hbusy : t.state = .busy) : t.Goes now t.callbackEnded now :=
  ⟨[.endCallback], fun _ calls hp ↦ ⟨calls, hp.ends hbusy⟩⟩

end Ticker.Goes

namespace Task

/-- The task is in its callback for as long as its age check lasts. -/
def Sound (task : Task) : Prop := task.ticker.state = .busy ↔ task.call.isSome = true

/-- The task goes on as a pace. -/
structure Goes (task : Task) (now : Nat) (task' : Task) (now' : Nat) : Prop where
  ticker : task.ticker.Goes now task'.ticker now'
  sound : task'.Sound

variable {task task' task'' : Task} {now now' now'' : Nat}

theorem Goes.refl (h : task.Sound) (now : Nat) : task.Goes now task now := ⟨.refl _ _, h⟩

theorem Goes.trans (h : task.Goes now task' now') (h' : task'.Goes now' task'' now'') :
    task.Goes now task'' now'' :=
  ⟨h.ticker.trans h'.ticker, h'.sound⟩

/-- The task that a registration gets when it first runs. -/
def scheduled (period now : Nat) : Task := ⟨.scheduled period now, none⟩

theorem sound_scheduled (period now : Nat) : (scheduled period now).Sound := by
  simp [Sound, scheduled, Ticker.scheduled]

end Task

namespace Bench

variable {α : Type} {b b' b'' : Bench α} {i : Nat}

def Sound (b : Bench α) : Prop := ∀ task ∈ b.tasks, task.Sound

/-- What becomes of the tasks of a bench: those that are there go on as paces, and those that come
on have started their grid at a moment in between. -/
structure Goes (b b' : Bench α) : Prop where
  now : b.now ≤ b'.now
  old : ∀ (k : Nat) (task : Task), b.tasks[k]? = some task →
    ∃ task', b'.tasks[k]? = some task' ∧ task.Goes b.now task' b'.now
  new : ∀ (k : Nat) (task' : Task), b'.tasks[k]? = some task' → b.tasks.length ≤ k →
    ∃ period anchor, b.now ≤ anchor ∧ anchor ≤ b'.now ∧
      (Task.scheduled period anchor).Goes anchor task' b'.now

theorem Goes.sound (h : b.Goes b') : b'.Sound := by
  intro task' htask'
  obtain ⟨k, hk⟩ := List.mem_iff_getElem?.mp htask'
  rcases Nat.lt_or_ge k b.tasks.length with hlt | hge
  · obtain ⟨task, htask, hgoes⟩ := h.old k _ (List.getElem?_eq_getElem hlt)
    rw [hk, Option.some.injEq] at htask
    exact htask ▸ hgoes.sound
  · obtain ⟨_, _, -, -, hgoes⟩ := h.new k task' hk hge
    exact hgoes.sound

theorem Goes.trans (h : b.Goes b') (h' : b'.Goes b'') : b.Goes b'' where
  now := Nat.le_trans h.now h'.now
  old := by
    intro k task htask
    obtain ⟨task', htask', hgoes⟩ := h.old k task htask
    obtain ⟨task'', htask'', hgoes'⟩ := h'.old k task' htask'
    exact ⟨task'', htask'', hgoes.trans hgoes'⟩
  new := by
    intro k task'' htask'' hk
    rcases Nat.lt_or_ge k b'.tasks.length with hlt | hge
    · obtain ⟨task, htask, hgoes'⟩ := h'.old k _ (List.getElem?_eq_getElem hlt)
      rw [htask'', Option.some.injEq] at htask
      obtain ⟨period, anchor, hfrom, hto, hgoes⟩ := h.new k _ (List.getElem?_eq_getElem hlt) hk
      exact ⟨period, anchor, hfrom, Nat.le_trans hto h'.now, htask ▸ hgoes.trans hgoes'⟩
    · obtain ⟨period, anchor, hfrom, hto, hgoes⟩ := h'.new k task'' htask'' hge
      exact ⟨period, anchor, Nat.le_trans h.now hfrom, hto, hgoes⟩

/-- What a bench knows of time. -/
def clocks (b : Bench α) : Nat × List Task := (b.now, b.tasks)

theorem now_eq_of_clocks (h : b'.clocks = b.clocks) : b'.now = b.now := congrArg Prod.fst h

/-- A bench with the same tasks at a moment that is no earlier. -/
theorem Sound.goes_of_le (hs : b.Sound) (hle : b.now ≤ b'.now) (htasks : b'.tasks = b.tasks) :
    b.Goes b' where
  now := hle
  old := by
    intro k task htask
    exact ⟨task, by rw [htasks, htask], .passes _ hle, hs task (List.mem_of_getElem? htask)⟩
  new := by
    intro k task' htask' hk
    rw [htasks, List.getElem?_eq_none hk] at htask'
    cases htask'

theorem Sound.goes_of_clocks (hs : b.Sound) (h : b'.clocks = b.clocks) : b.Goes b' :=
  hs.goes_of_le (Nat.le_of_eq (now_eq_of_clocks h).symm) (congrArg Prod.snd h)

theorem Sound.setNow (hs : b.Sound) {moment : Nat} (hle : b.now ≤ moment) :
    b.Goes (b.setNow moment) :=
  hs.goes_of_le hle rfl

/-! ### Calls take no time -/

theorem clocks_advance? (h : b.advance? i = some b') : b'.clocks = b.clocks := by
  unfold advance? operate? at h
  split at h
  · split at h
    · split at h
      · obtain ⟨rig, -, rfl⟩ := Option.map_eq_some_iff.mp h
        rfl
      · cases h
    · split at h
      · cases h
      · split at h
        · obtain ⟨rig, -, rfl⟩ := Option.map_eq_some_iff.mp h
          rfl
        · cases h
          rfl
  · obtain ⟨rig, -, rfl⟩ := Option.map_eq_some_iff.mp h
    rfl

theorem clocks_poll (b : Bench α) (i : Nat) : (b.poll i).clocks = b.clocks := by
  fun_induction Bench.poll b i with
  | case1 => rfl
  | case2 b b' h ih => exact ih.trans (clocks_advance? h)

theorem clocks_makeCalls (b : Bench α) (a : Activity α) (requests : List (Request α)) :
    (b.makeCalls a requests).1.clocks = b.clocks := by
  induction requests generalizing b a with
  | nil => rfl
  | cons request rest ih =>
    have hpoll : ((b.issue request).2.poll (b.issue request).1).clocks = b.clocks :=
      clocks_poll _ _
    unfold makeCalls
    dsimp only
    split
    · exact hpoll
    · split
      · exact hpoll
      · exact (ih _ _).trans hpoll

theorem clocks_pollActivity (b : Bench α) (a : Activity α) :
    (b.pollActivity a).1.clocks = b.clocks := by
  unfold pollActivity
  split
  · exact clocks_makeCalls _ _ _
  · dsimp only
    split
    · exact clocks_poll _ _
    · exact (clocks_makeCalls _ _ _).trans (clocks_poll _ _)

theorem clocks_round (b : Bench α) (as : List (Activity α)) :
    (b.round as).1.clocks = b.clocks := by
  induction as generalizing b with
  | nil => rfl
  | cons a rest ih => exact (ih _).trans (clocks_pollActivity b a)

/-! ### Tasks run -/

/-- A task runs at one moment, with all age checks that it starts. -/
theorem settleTask_goes (b : Bench α) (active : Bool) (task : Task) (h : task.Sound)
    (fuel : Nat) :
    (b.settleTask active task fuel).1.clocks = b.clocks ∧
      task.Goes b.now (b.settleTask active task fuel).2 b.now := by
  induction fuel generalizing b task with
  | zero => exact ⟨rfl, .refl h _⟩
  | succ fuel ih =>
    unfold settleTask
    split
    case h_1 i hcall =>
      have hpoll := clocks_poll b i
      have hnow := now_eq_of_clocks hpoll
      dsimp only
      split
      · exact ⟨hpoll, .refl h _⟩
      · have hended : task.Goes b.now ⟨task.ticker.callbackEnded, none⟩ b.now :=
          ⟨.ends (h.mpr (by rw [hcall]; rfl)), by simp [Task.Sound, Ticker.callbackEnded]⟩
        have hrest := ih (b.poll i) _ hended.sound
        rw [hnow] at hrest
        exact ⟨hrest.1.trans hpoll, hended.trans hrest.2⟩
    case h_2 hnone =>
      split
      case isTrue => exact ⟨rfl, .refl h _⟩
      case isFalse hover =>
        have hwaiting : task.ticker.state = .waiting := by
          rw [Task.Sound, hnone] at h
          cases hstate : task.ticker.state <;> simp_all
        split
        · exact ⟨rfl, .stops hwaiting, by simp [Task.Sound, Ticker.stop]⟩
        · split
          case isTrue hdue =>
            have hstarted : task.Goes b.now
                ⟨task.ticker.start b.now, some (b.issue .tick).1⟩ b.now :=
              ⟨.starts hdue, by simp [Task.Sound]⟩
            have hrest := ih (b.issue .tick).2 _ hstarted.sound
            exact ⟨hrest.1, hstarted.trans hrest.2⟩
          case isFalse => exact ⟨rfl, .refl h _⟩

theorem settleTasks_goes {tasks : List Task} (h : ∀ task ∈ tasks, task.Sound) (index : Nat) :
    (b.settleTasks index tasks).1.clocks = b.clocks ∧
      (b.settleTasks index tasks).2.length = tasks.length ∧
      ∀ (k : Nat) (task : Task), tasks[k]? = some task →
        ∃ task', (b.settleTasks index tasks).2[k]? = some task' ∧ task.Goes b.now task' b.now := by
  induction tasks generalizing b index with
  | nil => exact ⟨rfl, rfl, fun k task htask ↦ by cases htask⟩
  | cons first rest ih =>
    obtain ⟨hclocks, hfirst⟩ := settleTask_goes b (b.timer.isActive index) first
      (h first List.mem_cons_self) (2 * (b.now + 1 - first.ticker.deadline) + 3)
    obtain ⟨hclocks', hlength, hrest⟩ := ih
      (b := (b.settleTask (b.timer.isActive index) first
        (2 * (b.now + 1 - first.ticker.deadline) + 3)).1)
      (fun task htask ↦ h task (List.mem_cons_of_mem _ htask)) (index + 1)
    rw [now_eq_of_clocks hclocks] at hrest
    refine ⟨hclocks'.trans hclocks, congrArg (· + 1) hlength, fun k task htask ↦ ?_⟩
    cases k with
    | zero =>
      rw [List.getElem?_cons_zero, Option.some.injEq] at htask
      exact ⟨_, rfl, htask ▸ hfirst⟩
    | succ k => exact hrest k task htask

/-- A task that runs for the first time starts its grid then. -/
theorem Sound.settle (hs : b.Sound) : b.Goes b.settle := by
  unfold Bench.settle
  split
  case isFalse => exact hs.goes_of_clocks rfl
  case isTrue =>
    have hnew (task : Task) (htask : task ∈ b.newTasks) :
        ∃ period, task = .scheduled period b.now := by
      obtain ⟨registration, -, rfl⟩ := List.mem_map.mp htask
      exact ⟨registration.periodMillis, rfl⟩
    have htasks : ∀ task ∈ b.tasks ++ b.newTasks, task.Sound := by
      intro task htask
      rcases List.mem_append.mp htask with htask | htask
      · exact hs task htask
      · obtain ⟨period, rfl⟩ := hnew task htask
        exact Task.sound_scheduled _ _
    obtain ⟨hclocks, hlength, hgoes⟩ := settleTasks_goes (b := b) htasks 0
    have hnow : (b.settleTasks 0 (b.tasks ++ b.newTasks)).1.now = b.now := now_eq_of_clocks hclocks
    refine ⟨Nat.le_of_eq hnow.symm, fun k task htask ↦ ?old, fun k task' htask' hk ↦ ?new⟩
    case old =>
      dsimp only
      rw [hnow]
      refine hgoes k task ?_
      rwa [List.getElem?_append_left (List.getElem?_eq_some_iff.mp htask).1]
    case new =>
      dsimp only at htask' ⊢
      rw [hnow]
      have hlt := (List.getElem?_eq_some_iff.mp htask').1
      rw [hlength] at hlt
      have hfound := List.getElem?_eq_getElem hlt
      obtain ⟨task'', htask'', hgoes'⟩ := hgoes k _ hfound
      rw [htask', Option.some.injEq] at htask''
      rw [List.getElem?_append_right hk] at hfound
      obtain ⟨period, hperiod⟩ := hnew _ (List.mem_of_getElem? hfound)
      rw [hperiod, ← htask''] at hgoes'
      exact ⟨period, b.now, Nat.le_refl _, Nat.le_refl _, hgoes'⟩

theorem lt_of_nextWake? {moment : Nat} (h : b.nextWake? = some moment) : b.now < moment := by
  unfold nextWake? at h
  split at h
  · have hwakes := List.min?_mem h
    exact of_decide_eq_true (List.mem_filter.mp hwakes).2
  · cases h

theorem Sound.driveFor (hs : b.Sound) (as : List (Activity α)) (fuel : Nat) :
    b.Goes (b.driveFor as fuel).1 := by
  induction fuel generalizing b as with
  | zero => exact hs.goes_of_clocks rfl
  | succ fuel ih =>
    have hround := hs.goes_of_clocks (clocks_round b as)
    have hsettled := hround.trans hround.sound.settle
    unfold Bench.driveFor
    dsimp only
    split
    · exact hsettled
    · split
      · exact hsettled.trans (ih hsettled.sound _)
      · split
        case h_1 => exact hsettled
        case h_2 moment hmoment =>
          have hlater := hsettled.sound.setNow (Nat.le_of_lt (lt_of_nextWake? hmoment))
          exact (hsettled.trans hlater).trans (ih hlater.sound _)

/-! ### Scripts -/

theorem Sound.advanceClock (hs : b.Sound) (millis : Int) : b.Goes (b.advanceClock millis) := by
  unfold Bench.advanceClock
  split
  · exact hs.setNow (Nat.le_add_right _ _)
  · exact hs.goes_of_clocks rfl

theorem Sound.start (hs : b.Sound) (s : Step α) : b.Goes (b.start s).1 := by
  cases s with
  | advance millis => exact hs.advanceClock millis
  | _ =>
    refine hs.goes_of_clocks ?_
    unfold Bench.start
    dsimp only [answered, unlessDropped, inject, clearFaults, abandon]
    repeat' split
    all_goals rfl

theorem clocks_firstPoll (b : Bench α) (started : Started α) :
    (b.firstPoll started).1.clocks = b.clocks := by
  cases started with
  | calls a => exact clocks_pollActivity b a
  | answered answer => rfl

theorem Sound.startAll (hs : b.Sound) (steps : List (Step α)) :
    b.Goes (b.startAll steps).1 := by
  induction steps generalizing b with
  | nil => exact hs.goes_of_clocks rfl
  | cons s rest ih =>
    have hstart := hs.start s
    have hpoll := hstart.trans
      (hstart.sound.goes_of_clocks (clocks_firstPoll (b.start s).1 (b.start s).2))
    exact hpoll.trans (ih hpoll.sound)

theorem Sound.run (hs : b.Sound) (item : Item α) : b.Goes (b.run item).1 := by
  cases item with
  | step s =>
    have hstart := hs.start s
    exact hstart.trans (hstart.sound.driveFor _ _)
  | race gate steps =>
    have hgate : b.Goes { b with gate := gate } := hs.goes_of_clocks rfl
    have hraced := hgate.trans (hgate.sound.startAll steps)
    have hopen : b.Goes { ({ b with gate := gate }.startAll steps).1 with gate := none } :=
      hraced.trans (hraced.sound.goes_of_clocks rfl)
    exact hopen.trans (hopen.sound.driveFor _ _)

/-- Whatever a script asks of a coordinator, its tasks go on as paces. -/
theorem Sound.runAll (hs : b.Sound) (items : List (Item α)) : b.Goes (b.runAll items).1 := by
  induction items generalizing b with
  | nil => exact hs.goes_of_clocks rfl
  | cons item rest ih =>
    have hitem := hs.run item
    exact hitem.trans (ih hitem.sound)

end Bench

/-! ### The promise -/

end Bundling
