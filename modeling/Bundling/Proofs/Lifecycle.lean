import Mathlib.Data.List.Induction
import Bundling.Proofs.Protocol

/-!
The life of a coordinator along a run. A turn leaves phase, registration and timer as they are, or
it ends a start that comes to run the coordinator, or it is the turn in which a stop goes on to
release the unit. The phase goes forward in every move but one: a start that has waited for the unit
to open runs the coordinator, whatever has happened to the phase in the meantime. So the phases of a
run go forward exactly if no start ends well after a stop or a shutdown has been made.
-/

set_option autoImplicit false
set_option relaxedAutoImplicit false

namespace Bundling

namespace Phase

theorem le_refl (p : Phase) : p ≤ p := Nat.le_refl p.code

theorem le_trans {p q r : Phase} (hpq : p ≤ q) (hqr : q ≤ r) : p ≤ r := Nat.le_trans hpq hqr

theorem ne_created_of_le {p q : Phase} (hle : p ≤ q) (hp : p ≠ created) : q ≠ created := by
  revert hle hp
  cases p <;> cases q <;> decide

theorem le_stopped (p : Phase) : p ≤ stopped := by
  cases p <;> decide

theorem le_stopping {p : Phase} (h : p ≠ stopped) : p ≤ stopping := by
  cases p <;> first | decide | exact absurd rfl h

theorem not_stopping_le_created : ¬ stopping ≤ created := by decide

/-- Up to running, or from stopping on. -/
theorem le_running_iff (p : Phase) : p ≤ running ↔ ¬ stopping ≤ p := by
  cases p <;> decide

end Phase

namespace Request

variable {α : Type}

/-- A request that ends the coordinator. -/
def Stops (q : Request α) : Prop := q = .stop ∨ q = .shutdown

theorem Stops.ne_start {q : Request α} (h : q.Stops) : q ≠ .start := by
  rcases h with rfl | rfl <;> simp

end Request

namespace Coordinator

variable {α β : Type} {c d : Coordinator} {i : Nat} {q : Request α} {s : Stage α β}
  {a : Except Failure (List β)} {out : Coordinator × Stage α β}

/-! ### What a turn does to phase, registration and timer -/

/-- What a release looks at is the same. -/
structure Agrees (c d : Coordinator) : Prop where
  phase : d.phase = c.phase
  registration : d.registration = c.registration
  timer : d.timer = c.timer
  hasUnit : d.hasUnit = c.hasUnit

/-- The coordinator is as far as it was: in its phase, with its registration. -/
structure Remains (c d : Coordinator) : Prop where
  phase : d.phase = c.phase
  registration : d.registration = c.registration
  registrations : d.timer.registrations = c.timer.registrations

theorem Agrees.remains (h : Agrees c d) : Remains c d :=
  ⟨h.phase, h.registration, congrArg _ h.timer⟩

/-- The coordinator has come to run, and holds a registration that it has just been given. -/
structure Enrolled (c d : Coordinator) : Prop where
  phase : d.phase = .running
  registration : d.registration = some c.timer.registrations.length
  registrations : ∃ r, d.timer.registrations = c.timer.registrations ++ [r]

/-- How a call goes on that leaves the life of the coordinator as it is: it has begun no release, it
comes to open the unit in the first phase only, and a stop asks for the next thing to do. -/
structure Proceeds (q : Request α) (c : Coordinator) (s s' : Stage α β) : Prop where
  releases : s'.isRelease = true → s.isRelease = true
  opens : s' = .opening → c.phase = .created
  asks : q = .stop → Suits q s → s.isRelease = false → s'.operation?.isSome = true

/-- A call that asks for something, but not for the unit to be opened or closed. -/
theorem Proceeds.of_asks {s' : Stage α β} (hasks : s'.operation?.isSome = true)
    (hrelease : s'.isRelease = false) (hopening : s' ≠ .opening) : Proceeds q c s s' :=
  ⟨fun h ↦ absurd (h.symm.trans hrelease) (by simp), fun h ↦ absurd h hopening, fun _ _ _ ↦ hasks⟩

/-- A call that has ended, and is no stop that has yet to release the unit. -/
theorem Proceeds.of_ended {r : Reply}
    (hstop : q = .stop → Suits q s → s.isRelease = false → False) : Proceeds q c s (.ended r) :=
  ⟨fun h ↦ (by cases h), fun h ↦ (by cases h), fun hq hsuits hs ↦ (hstop hq hsuits hs).elim⟩

/-- How a turn moves the life of the coordinator on. -/
inductive Course (i : Nat) (q : Request α) (c : Coordinator) (s : Stage α β) :
    Coordinator × Stage α β → Prop
  | remains {out : Coordinator × Stage α β} (h : Remains c out.1)
      (hproceeds : Proceeds q c s out.2) : Course i q c s out
  | enrolls {d : Coordinator} (hs : s = .opening) (h : Enrolled c d) :
      Course i q c s (d, .ended .done)
  | departs {out : Coordinator × Stage α β} (d : Coordinator) (f : Option Failure)
      (hq : q = .stop) (hs : s.isRelease = false) (hsame : Agrees c d)
      (h : Departure i f d out) : Course i q c s out

theorem Parting.course {result : Except Failure Bool} (h : Parting i q d result out)
    (hsame : Agrees c d) (hs : s.isRelease = false) : Course i q c s out := by
  obtain ⟨hphase, hregistration, hregistrations⟩ := hsame.remains
  cases h with
  | forwards => exact .remains hsame.remains (.of_asks rfl rfl (by simp))
  | answers _ _ hstop =>
    exact .remains ⟨hphase, hregistration, hregistrations⟩ (.of_ended fun hq _ _ ↦ hstop hq)
  | fails _ hstop =>
    exact .remains ⟨hphase, hregistration, hregistrations⟩ (.of_ended fun hq _ _ ↦ hstop hq)
  | latches _ _ htick =>
    exact .remains ⟨hphase, hregistration, hregistrations⟩
      (.of_ended fun hq _ _ ↦ by cases htick.symm.trans hq)
  | departs notices f _ _ hq _ h =>
    exact .departs ({ d with notices := notices } : Coordinator).unlock f hq hs
      ⟨hsame.phase, hsame.registration, hsame.timer, hsame.hasUnit⟩ h

theorem Emission.course {close : Close} {total : Nat} {results : List β}
    (h : Emission i q c close total results out) (hs : s.isRelease = false) :
    Course i q c s out := by
  cases h with
  | more | lets => exact .remains ⟨rfl, rfl, rfl⟩ (.of_asks rfl rfl (by simp))
  | last _ _ h => exact h.course ⟨rfl, rfl, rfl, rfl⟩ hs

theorem Turn.course (h : Turn i q c s a out) : Course i q c s out := by
  have hsame : Agrees c c := ⟨rfl, rfl, rfl, rfl⟩
  cases h with
  | idles _ _ _ _ _ _ h => exact h.course hsame rfl
  | fillsNone _ _ _ _ _ h => exact h.course ⟨rfl, rfl, rfl, rfl⟩ rfl
  | finishesNot _ _ _ h => exact h.course hsame rfl
  | drainsNot _ _ _ h => exact h.course hsame rfl
  | emitsNot _ _ _ _ _ _ h => exact h.course hsame rfl
  | releasesNot _ _ _ _ h => exact h.course hsame rfl
  | released _ _ _ _ h => exact h.course ⟨rfl, rfl, rfl, rfl⟩ rfl
  | drained _ _ _ h => exact h.course rfl
  | emitted _ _ _ _ _ _ h => exact h.course rfl
  | runs _ _ _ _ hindex hadds => exact .enrolls rfl ⟨rfl, congrArg some hindex, _, hadds⟩
  | opens _ hq hadmitted =>
    subst hq
    exact .remains hsame.remains ⟨fun h ↦ (by cases h), fun _ ↦ hadmitted.1, fun _ _ _ ↦ rfl⟩
  | refused _ f hrefused =>
    refine .remains ⟨rfl, rfl, rfl⟩ (.of_ended fun hq _ _ ↦ ?_)
    rw [hq] at hrefused
    cases hrefused
  | passes _ hother | holds _ _ hother =>
    exact .remains ⟨rfl, rfl, rfl⟩ (.of_ended fun hq _ _ ↦ by cases hother.symm.trans hq)
  | continues | starts | forwards | closes | started | fills | finished =>
    exact .remains ⟨rfl, rfl, rfl⟩ (.of_asks rfl rfl (by simp))
  | takesUnit => exact .remains ⟨rfl, rfl, rfl⟩ ⟨fun _ ↦ rfl, fun h ↦ (by cases h), fun _ _ _ ↦ rfl⟩
  | findsNoUnit | settles =>
    exact .remains ⟨rfl, rfl, rfl⟩ (.of_ended fun _ _ hs ↦ by cases hs)
  | schedulesNot _ _ _ _ hregistrations =>
    exact .remains ⟨rfl, rfl, hregistrations⟩
      (.of_ended fun hq hsuits _ ↦ by cases hsuits.symm.trans hq)
  | opensNot | startsNot | processesNot | accepts | forwardsNot | forwarded =>
    exact .remains ⟨rfl, rfl, rfl⟩ (.of_ended fun hq hsuits _ ↦ by cases hsuits.symm.trans hq)

/-! ### The phase -/

theorem Departure.stopped {f : Option Failure} (h : Departure i f c out) :
    out.1.phase = .stopped := by
  cases h with
  | already hphase => exact hphase
  | waits | takes | settles => exact ceased_phase c

theorem Departure.ne_opening {f : Option Failure} (h : Departure i f c out) :
    out.2 ≠ .opening := by
  cases h <;> simp [leave]

theorem Course.phase_le (h : Course i q c s out) :
    c.phase ≤ out.1.phase ∨ s = .opening ∧ out.1.phase = .running ∧ out.2 = .ended .done := by
  cases h with
  | remains h =>
    left
    rw [h.phase]
    exact Phase.le_refl _
  | enrolls hs h => exact .inr ⟨hs, h.phase, rfl⟩
  | departs d f _ _ _ h =>
    left
    rw [h.stopped]
    exact Phase.le_stopped _

theorem Joins.phase_le (h : Joins q c d s) : c.phase ≤ d.phase := by
  cases h with
  | asks => exact Phase.le_refl _
  | stops _ hphase => exact Phase.le_stopping hphase
  | shutsDown =>
    rw [ceased_phase]
    exact Phase.le_stopped _

theorem Joins.stopping_le (h : Joins q c d s) (hq : q.Stops) : .stopping ≤ d.phase := by
  cases h with
  | asks hstop hshutdown => exact absurd hq (not_or.mpr ⟨hstop, hshutdown⟩)
  | stops => exact Phase.le_refl _
  | shutsDown =>
    rw [ceased_phase]
    exact Phase.le_stopped _

/-- A stop or a shutdown is turned away only by a coordinator that has stopped. -/
theorem Declines.stopped {r : Reply} (h : Declines q c r) (hq : q.Stops) :
    c.phase = .stopped := by
  rcases h with hearly | ⟨-, hphase, -⟩
  · rcases hq with rfl | rfl
    · simp only [early] at hearly
      split at hearly
      case isTrue hphase => exact hphase
      case isFalse => cases hearly
    · cases hearly
  · exact hphase

/-! ### Starts -/

/-- A start waits for the lock, or for the unit to open, or has ended. -/
def StartStage (s : Stage α β) : Prop := s = .queued ∨ s = .opening ∨ s.reply?.isSome = true

theorem Joins.startStage {d : Coordinator} (h : Joins q c d s) (hq : q = .start) :
    StartStage s := by
  cases h with
  | asks => exact .inl rfl
  | stops hstop => cases hq.symm.trans hstop
  | shutsDown hshutdown => cases hq.symm.trans hshutdown

/-- A start that ends well runs the coordinator. -/
theorem Turn.start_cases (h : Turn i .start c s a out) (hs : StartStage s) :
    StartStage out.2 ∧ (out.2 = .ended .done → out.1.phase = .running) := by
  have hreply := h.reply?_eq_none
  rcases hs with rfl | rfl | hended
  · cases h with
    | opens => exact ⟨.inr (.inl rfl), fun h ↦ (by cases h)⟩
    | refused => exact ⟨.inr (.inr rfl), fun h ↦ (by cases h)⟩
    | passes _ hq | continues _ _ hq | starts _ _ hq | holds _ _ hq | forwards _ _ hq => cases hq
    | closes _ _ hq | idles _ _ _ hq => cases hq
  · cases h with
    | opensNot | schedulesNot => exact ⟨.inr (.inr rfl), fun h ↦ (by cases h)⟩
    | runs => exact ⟨.inr (.inr rfl), fun _ ↦ rfl⟩
  · rw [hreply] at hended
    cases hended

/-- A turn does not take the coordinator back to its first phase. -/
theorem Turn.phase_ne_created (h : Turn i q c s a out) (hphase : c.phase ≠ .created) :
    out.1.phase ≠ .created := by
  rcases h.course.phase_le with hle | ⟨-, hrunning, -⟩
  · exact Phase.ne_created_of_le hle hphase
  · simp [hrunning]

/-- A turn that comes to open the unit is one of a coordinator that has never run. -/
theorem Turn.created_of_opening (h : Turn i q c s a out) (hopening : out.2 = .opening) :
    c.phase = .created := by
  cases h.course with
  | remains _ hproceeds => exact hproceeds.opens hopening
  | enrolls => cases hopening
  | departs _ _ _ _ _ h => exact absurd hopening h.ne_opening

end Coordinator

namespace World

variable {α β : Type} {w w' first : World α β} {t new : History α β}
  {id : String} {checked : Checked} {timer : Timer}

/-! ### Before the first run -/

/-- The unit has not been opened, or is being opened. -/
def Unopened (w : World α β) : Prop :=
  w.coordinator.phase = .created ∨ ∃ j, w.stage? j = some .opening

/-- A call that has just been made does not open the unit. -/
theorem unopened_of_append {c : Coordinator} {other : Call α β}
    (hphase : c.phase = .created → w.coordinator.phase = .created)
    (hother : other.stage ≠ .opening)
    (h : (⟨c, w.calls ++ [other]⟩ : World α β).Unopened) : w.Unopened := by
  rcases h with hcreated | ⟨j, hj⟩
  · exact .inl (hphase hcreated)
  · rw [stage?_append] at hj
    split at hj
    · exact absurd (Option.some.inj hj) hother
    · exact .inr ⟨j, hj⟩

/-- After a turn, nobody opens the unit who has not opened it before. -/
theorem unopened_of_turn {i : Nat} {call : Call α β} {a : Except Failure (List β)}
    {out : Coordinator × Stage α β} (hcall : w.calls[i]? = some call)
    (hturn : Coordinator.Turn i call.request w.coordinator call.stage a out)
    (hunopened : (⟨out.1, w.calls.set i { call with stage := out.2 }⟩ : World α β).Unopened) :
    w.Unopened := by
  rcases hunopened with hcreated | ⟨j, hj⟩
  · have hcourse := hturn.course
    cases hcourse with
    | remains hsame => exact .inl (hsame.phase.symm.trans hcreated)
    | enrolls _ henrolled => cases henrolled.phase.symm.trans hcreated
    | departs _ _ _ _ _ hdeparture => cases hdeparture.stopped.symm.trans hcreated
  · rw [stage?_set hcall] at hj
    split at hj
    · exact .inl (hturn.created_of_opening (Option.some.inj hj))
    · exact .inr ⟨j, hj⟩

/-! ### Moves and the phase -/

theorem Advance.phase_le (h : Advance w w' new) (horderly : w.Orderly) :
    w.coordinator.phase ≤ w'.coordinator.phase ∨
      w'.coordinator.phase = .running ∧ ∃ i, .replied i .start .done ∈ new := by
  cases h with
  | declines | retimes => exact .inl (Phase.le_refl _)
  | joins q d s hjoins => exact .inl hjoins.phase_le
  | turns i call answer out hcall hlock hturn =>
    refine hturn.course.phase_le.imp_right fun ⟨hs, hphase, hended⟩ ↦ ⟨hphase, i, ?_⟩
    have hsuits := horderly.suits call (List.mem_of_getElem? hcall)
    rw [hs] at hsuits
    have hstart : call.request = .start := hsuits
    rw [hended, hstart]
    exact List.mem_append_right _ (List.mem_singleton_self _)

/-- A move lets the phase go forward, unless a start ends well in it. -/
theorem Orderly.phase_le_step (h : w.Orderly) (m : Move α β) :
    w.coordinator.phase ≤ (w.step m).coordinator.phase ∨
      (w.step m).coordinator.phase = .running ∧ ∃ i, .replied i .start .done ∈ w.events m := by
  rcases h.step_cases m with ⟨hstep, -⟩ | hadvance | ⟨k, q, joined, new, hjoins, hturns, hevents⟩
  · rw [hstep]
    exact .inl (Phase.le_refl _)
  · exact hadvance.phase_le h
  · have hjoined : w.coordinator.phase ≤ joined.coordinator.phase := by
      rcases hjoins.phase_le h with hle | ⟨-, i, hreplied⟩
      · exact hle
      · simp at hreplied
    rcases hturns.phase_le (h.advance hjoins) with hle | ⟨hphase, i, hreplied⟩
    · exact .inl (Phase.le_trans hjoined hle)
    · rw [hevents]
      exact .inr ⟨hphase, i, List.mem_cons_of_mem _ hreplied⟩

/-- What is replied in the move that makes a call is the reply to this call. -/
theorem eq_of_replied_mem_issue {q q' : Request α} {i : Nat} {r : Reply}
    (h : .replied i q r ∈ w.events (.issue q')) : q = q' := by
  have hreached : .replied i q r ∈ Event.left w.calls.length .queued (.ok []) ++
      Event.reached w.calls.length q'
        (w.coordinator.begin w.calls.length q' : _ × Stage α β).2 := by
    simpa [events, Event.left, Stage.operation?] using h
  exact (Event.eq_of_replied_mem_turn hreached).2.1

/-- A call is made in the move that issues it only. -/
theorem eq_issue_of_issued_mem {m : Move α β} {k : Nat} {q : Request α}
    (h : .issued k q ∈ w.events m) : m = .issue q := by
  cases m with
  | issue q' =>
    have hsplit : (Event.issued k q : Event α β) = .issued w.calls.length q' ∨
        .issued k q ∈ Event.left w.calls.length .queued (.ok []) ++
          Event.reached w.calls.length q'
            (w.coordinator.begin w.calls.length q' : _ × Stage α β).2 := by
      simpa [events, Event.left, Stage.operation?] using h
    rcases hsplit with heq | hmem
    · cases heq
      rfl
    · exact absurd hmem Event.issued_not_mem_turn
  | proceed i answer =>
    unfold events at h
    dsimp only at h
    split at h
    · cases h
    · split at h
      · exact absurd h Event.issued_not_mem_turn
      · cases h
  | clock | timerFaults => cases h

theorem Advance.stopping_le (h : Advance w w' new) {k : Nat} {q : Request α} (hq : q.Stops)
    (hissued : .issued k q ∈ new) : .stopping ≤ w'.coordinator.phase := by
  cases h with
  | declines q' r hdeclines =>
    simp only [List.mem_cons, List.not_mem_nil, or_false, reduceCtorEq] at hissued
    cases hissued
    rw [show w.coordinator.phase = .stopped from hdeclines.stopped hq]
    exact Phase.le_stopped _
  | joins q' d s hjoins =>
    cases List.mem_singleton.mp hissued
    exact hjoins.stopping_le hq
  | turns => exact absurd hissued Event.issued_not_mem_turn
  | retimes => cases hissued

/-- Once a stop or a shutdown has been made, the coordinator is stopping at least. -/
theorem Orderly.stopping_le_step (h : w.Orderly) {m : Move α β} {k : Nat} {q : Request α}
    (hq : q.Stops) (hissued : .issued k q ∈ w.events m) :
    .stopping ≤ (w.step m).coordinator.phase := by
  obtain rfl := eq_issue_of_issued_mem hissued
  rcases w.issue_cases q with hadvance | ⟨joined, new, hjoins, hturns, hevents⟩
  · exact hadvance.stopping_le hq hissued
  · have hjoined := hjoins.stopping_le hq (List.mem_singleton_self _)
    rcases hturns.phase_le (h.advance hjoins) with hle | ⟨-, i, hreplied⟩
    · exact Phase.le_trans hjoined hle
    · have hstart : Request.start = q := eq_of_replied_mem_issue
        (by rw [hevents]; exact List.mem_cons_of_mem _ hreplied)
      exact absurd hstart.symm hq.ne_start

/-! ### What the history tells of the calls -/

/-- Every call stands in the history. -/
theorem Reaches.issued (h : Reaches first w t) (hfirst : first.calls = []) {i : Nat}
    {call : Call α β} (hcall : w.calls[i]? = some call) : .issued i call.request ∈ t := by
  induction h generalizing i call with
  | start =>
    rw [hfirst] at hcall
    cases hcall
  | advance _ hadvance ih =>
    rw [List.mem_append]
    cases hadvance with
    | declines q r =>
      rcases call_append hcall with hcall | ⟨rfl, rfl⟩
      · exact .inl (ih hcall)
      · exact .inr (by simp)
    | joins q d s =>
      rcases call_append hcall with hcall | ⟨rfl, rfl⟩
      · exact .inl (ih hcall)
      · exact .inr (by simp)
    | turns j other answer out hother =>
      rcases call_set hcall with ⟨rfl, rfl⟩ | ⟨-, hcall⟩
      · have hbefore : Event.issued i other.request ∈ _ := ih hother
        exact .inl hbefore
      · exact .inl (ih hcall)
    | retimes => exact .inl (ih hcall)

/-- A coordinator comes to stopping only by a stop or a shutdown. -/
theorem Reaches.issued_of_stopping (h : Reaches (created id checked timer) w t)
    (hphase : .stopping ≤ w.coordinator.phase) : ∃ k q, q.Stops ∧ .issued k q ∈ t := by
  induction h with
  | start => exact absurd hphase Phase.not_stopping_le_created
  | @advance w w' t new hreaches hadvance ih =>
    have hold (hphase : Phase.stopping ≤ w.coordinator.phase) :
        ∃ k q, q.Stops ∧ .issued k q ∈ t ++ new := by
      obtain ⟨k, q, hq, hissued⟩ := ih hphase
      exact ⟨k, q, hq, List.mem_append_left _ hissued⟩
    cases hadvance with
    | declines | retimes => exact hold hphase
    | joins q d s hjoins =>
      cases hjoins with
      | asks => exact hold hphase
      | stops hq => exact ⟨w.calls.length, q, .inl hq, by simp⟩
      | shutsDown hq => exact ⟨w.calls.length, q, .inr hq, by simp⟩
    | turns i call answer out hcall hlock hturn =>
      have hcourse := hturn.course
      cases hcourse with
      | remains hsame => exact hold (hsame.phase ▸ hphase)
      | enrolls _ henrolled =>
        rw [show _ = _ from henrolled.phase] at hphase
        exact absurd hphase (by decide)
      | departs _ _ hq =>
        have hissued := hreaches.issued rfl hcall
        exact ⟨i, _, .inl hq, List.mem_append_left _ hissued⟩

theorem Reaches.startStage (h : Reaches (created id checked timer) w t) {i : Nat}
    {s : Stage α β} (hcall : w.calls[i]? = some ⟨.start, s⟩) : Coordinator.StartStage s := by
  induction h generalizing i s with
  | start => cases hcall
  | advance _ hadvance ih =>
    cases hadvance with
    | declines q r =>
      rcases call_append hcall with hcall | ⟨-, heq⟩
      · exact ih hcall
      · cases heq
        exact .inr (.inr rfl)
    | joins q d s' hjoins =>
      rcases call_append hcall with hcall | ⟨-, heq⟩
      · exact ih hcall
      · cases heq
        exact hjoins.startStage rfl
    | turns j other answer out hother hlock hturn =>
      rcases call_set hcall with ⟨rfl, heq⟩ | ⟨-, hcall⟩
      · obtain ⟨q, s'⟩ := other
        cases heq
        exact (hturn.start_cases (ih hother)).1
      · exact ih hcall
    | retimes => exact ih hcall

theorem Reaches.startStage_of_call (h : Reaches (created id checked timer) w t) {i : Nat}
    {call : Call α β} (hcall : w.calls[i]? = some call) (hq : call.request = .start) :
    Coordinator.StartStage call.stage := by
  obtain ⟨q, s⟩ := call
  subst hq
  exact h.startStage hcall

/-- Where a start ends well, the coordinator runs. -/
theorem Reaches.running_of_advance (h : Reaches (created id checked timer) w t)
    (hadvance : Advance w w' new) {i : Nat} (hreplied : .replied i .start .done ∈ new) :
    w'.coordinator.phase = .running := by
  cases hadvance with
  | declines q r hdeclines =>
    simp only [List.mem_cons, List.not_mem_nil, or_false, reduceCtorEq, false_or] at hreplied
    cases hreplied
    exact absurd rfl (hdeclines.ne_done (by simp) (by simp) (by simp))
  | joins => simp at hreplied
  | turns j call answer out hcall hlock hturn =>
    obtain ⟨rfl, hq, hended⟩ := Event.eq_of_replied_mem_turn hreplied
    obtain ⟨q, s⟩ := call
    cases hq
    exact (hturn.start_cases (h.startStage hcall)).2 hended
  | retimes => cases hreplied

theorem Reaches.running_of_step (h : Reaches (created id checked timer) w t) {m : Move α β}
    {i : Nat} (hreplied : .replied i .start .done ∈ w.events m) :
    (w.step m).coordinator.phase = .running := by
  rcases (h.orderly (orderly_created id checked timer)).step_cases m with ⟨-, hevents⟩ |
    hadvance | ⟨k, q, joined, new, hjoins, hturns, hevents⟩
  · rw [hevents] at hreplied
    cases hreplied
  · exact h.running_of_advance hadvance hreplied
  · rw [hevents] at hreplied
    exact (h.advance hjoins).running_of_advance hturns (by simpa using hreplied)

/-! ### The phases of a run -/

/-- The phases that one sees along a run, the one before it first. -/
def phases (w : World α β) : List (Move α β) → List Phase
  | [] => [w.coordinator.phase]
  | m :: moves => w.coordinator.phase :: (w.step m).phases moves

theorem phases_snoc (w : World α β) (moves : List (Move α β)) (m : Move α β) :
    w.phases (moves ++ [m]) =
      w.phases moves ++ [((w.run moves).step m).coordinator.phase] := by
  induction moves generalizing w with
  | nil => rfl
  | cons m' moves ih => exact congrArg (w.coordinator.phase :: ·) (ih (w.step m'))

/-- The phase one sees last is the present one. -/
theorem exists_phases (w : World α β) (moves : List (Move α β)) :
    ∃ earlier, w.phases moves = earlier ++ [(w.run moves).coordinator.phase] := by
  rcases List.eq_nil_or_concat moves with rfl | ⟨before, m, rfl⟩
  · exact ⟨[], rfl⟩
  · rw [List.concat_eq_append, phases_snoc, run_snoc]
    exact ⟨w.phases before, rfl⟩

end World

namespace History

variable {α β : Type} {t new : History α β}

/-- A start ends well after a stop or a shutdown has been made. -/
def LateStart (t : History α β) : Prop :=
  ∃ k q i, q.Stops ∧ [.issued k q, .replied i .start .done].Sublist t

/-- Two elements come in this order in one of the parts, or one in each. -/
theorem pair_sublist_append_iff {γ : Type} {a b : γ} {l l' : List γ} :
    [a, b].Sublist (l ++ l') ↔ [a, b].Sublist l ∨ [a, b].Sublist l' ∨ a ∈ l ∧ b ∈ l' := by
  constructor
  · intro h
    obtain ⟨k, k', hsplit, hk, hk'⟩ := List.sublist_append_iff.mp h
    rcases k with _ | ⟨x, _ | ⟨y, k⟩⟩
    · rw [List.nil_append] at hsplit
      exact .inr (.inl (hsplit ▸ hk'))
    · obtain ⟨rfl, rfl⟩ : a = x ∧ [b] = k' := by simpa using hsplit
      exact .inr (.inr ⟨List.singleton_sublist.mp hk, List.singleton_sublist.mp hk'⟩)
    · obtain ⟨rfl, rfl, rfl, -⟩ : a = x ∧ b = y ∧ k = [] ∧ k' = [] := by simpa using hsplit
      exact .inl hk
  · rintro (h | h | ⟨ha, hb⟩)
    · exact h.trans (List.sublist_append_left _ _)
    · exact h.trans (List.sublist_append_right _ _)
    · exact (List.singleton_sublist.mpr ha).append (List.singleton_sublist.mpr hb)

theorem lateStart_append : LateStart (t ++ new) ↔ LateStart t ∨ LateStart new ∨
    (∃ k q, q.Stops ∧ .issued k q ∈ t) ∧ ∃ i, .replied i .start .done ∈ new := by
  constructor
  · rintro ⟨k, q, i, hq, hlate⟩
    rcases pair_sublist_append_iff.mp hlate with hlate | hlate | ⟨hissued, hreplied⟩
    · exact .inl ⟨k, q, i, hq, hlate⟩
    · exact .inr (.inl ⟨k, q, i, hq, hlate⟩)
    · exact .inr (.inr ⟨⟨k, q, hq, hissued⟩, i, hreplied⟩)
  · rintro (⟨k, q, i, hq, hlate⟩ | ⟨k, q, i, hq, hlate⟩ | ⟨⟨k, q, hq, hissued⟩, i, hreplied⟩)
    · exact ⟨k, q, i, hq, pair_sublist_append_iff.mpr (.inl hlate)⟩
    · exact ⟨k, q, i, hq, pair_sublist_append_iff.mpr (.inr (.inl hlate))⟩
    · exact ⟨k, q, i, hq, pair_sublist_append_iff.mpr (.inr (.inr ⟨hissued, hreplied⟩))⟩

end History

namespace World

variable {α β : Type}

open History

/-- In one move no start ends well after a stop or a shutdown has been made. -/
theorem not_lateStart_events (w : World α β) (m : Move α β) : ¬ LateStart (w.events m) := by
  rintro ⟨k, q, i, hq, hlate⟩
  have hissued : .issued k q ∈ w.events m := hlate.subset (by simp)
  have hreplied : .replied i .start .done ∈ w.events m := hlate.subset (by simp)
  obtain rfl := eq_issue_of_issued_mem hissued
  exact hq.ne_start (eq_of_replied_mem_issue hreplied).symm

/-- From stopping on, a stop or a shutdown has been made; and once one has, stopping has been
seen. -/
theorem stopping_mem_phases_iff (id : String) (checked : Checked) (timer : Timer)
    (moves : List (Move α β)) :
    (∃ p ∈ (created id checked timer : World α β).phases moves, .stopping ≤ p) ↔
      ∃ k q, q.Stops ∧ .issued k q ∈ (created id checked timer : World α β).trace moves := by
  have hcreated := orderly_created (α := α) (β := β) id checked timer
  induction moves using List.reverseRecOn with
  | nil =>
    constructor
    · rintro ⟨p, hp, hle⟩
      cases List.mem_singleton.mp hp
      exact absurd hle Phase.not_stopping_le_created
    · rintro ⟨k, q, -, hissued⟩
      cases hissued
  | append_singleton moves m ih =>
    have hreaches := reaches_run hcreated moves
    constructor
    · rintro ⟨p, hp, hle⟩
      rw [trace_snoc]
      rcases List.mem_append.mp (phases_snoc _ moves m ▸ hp) with hp | hp
      · obtain ⟨k, q, hq, hissued⟩ := ih.mp ⟨p, hp, hle⟩
        exact ⟨k, q, hq, List.mem_append_left _ hissued⟩
      · cases List.mem_singleton.mp hp
        exact (hreaches.step (hreaches.orderly hcreated) m).issued_of_stopping hle
    · rintro ⟨k, q, hq, hissued⟩
      rw [phases_snoc]
      rw [trace_snoc] at hissued
      rcases List.mem_append.mp hissued with hissued | hissued
      · obtain ⟨p, hp, hle⟩ := ih.mpr ⟨k, q, hq, hissued⟩
        exact ⟨p, List.mem_append_left _ hp, hle⟩
      · exact ⟨_, List.mem_append_right _ (List.mem_singleton_self _),
          (hreaches.orderly hcreated).stopping_le_step hq hissued⟩

/-- The phases seen along a run go forward exactly if no start ends well after a stop or a shutdown
has been made. -/
theorem pairwise_phases_iff (id : String) (checked : Checked) (timer : Timer)
    (moves : List (Move α β)) :
    ((created id checked timer : World α β).phases moves).Pairwise (· ≤ ·) ↔
      ¬ LateStart ((created id checked timer : World α β).trace moves) := by
  have hcreated := orderly_created (α := α) (β := β) id checked timer
  induction moves using List.reverseRecOn with
  | nil =>
    refine iff_of_true (List.pairwise_singleton _ _) ?_
    rintro ⟨k, q, i, -, hlate⟩
    cases hlate
  | append_singleton moves m ih =>
    have hreaches := reaches_run hcreated moves
    have hseen := stopping_mem_phases_iff (α := α) (β := β) id checked timer moves
    have hlast (p : Phase) (hp : p ∈ [(((created id checked timer : World α β).run moves).step
        m).coordinator.phase]) := List.mem_singleton.mp hp
    rw [phases_snoc, trace_snoc, lateStart_append, List.pairwise_append]
    constructor
    · rintro ⟨hforward, -, hle⟩ (hlate | hlate | ⟨hstops, i, hreplied⟩)
      · exact ih.mp hforward hlate
      · exact not_lateStart_events _ m hlate
      · obtain ⟨p, hp, hstopping⟩ := hseen.mpr hstops
        have hrunning := hle p hp _ (List.mem_singleton_self _)
        rw [hreaches.running_of_step hreplied] at hrunning
        exact (Phase.le_running_iff p).mp hrunning hstopping
    · intro hnot
      have hforward := ih.mpr fun hlate ↦ hnot (.inl hlate)
      refine ⟨hforward, List.pairwise_singleton _ _, fun p hp last hlast' ↦ ?_⟩
      rw [hlast last hlast']
      rcases (hreaches.orderly hcreated).phase_le_step m with hle | ⟨hphase, hreplied⟩
      · -- nothing seen before is beyond the present phase
        obtain ⟨earlier, hphases⟩ := exists_phases (created id checked timer : World α β) moves
        rw [hphases] at hforward hp
        rcases List.mem_append.mp hp with hp | hp
        · exact Phase.le_trans ((List.pairwise_append.mp hforward).2.2 p hp _
            (List.mem_singleton_self _)) hle
        · rw [List.mem_singleton.mp hp]
          exact hle
      · rw [hphase, Phase.le_running_iff]
        exact fun hstopping ↦ hnot (.inr (.inr ⟨hseen.mp ⟨p, hp, hstopping⟩, hreplied⟩))

/-- A coordinator with the default limits and a timer that is moved by hand. -/
def plain : World Nat Nat := created "plain" (Limits.check {}) { kind := .manual false, now := 0 }

/-- The unit is slow to open, and the coordinator is shut down in the meantime. -/
def startAmidShutdown : List (Move Nat Nat) :=
  [.issue .start, .issue .shutdown, .proceed 0 (.ok [])]

/-- The start that ends last takes a stopped coordinator back to running. -/
theorem not_pairwise_phases :
    ¬ ∀ moves : List (Move Nat Nat), (plain.phases moves).Pairwise (· ≤ ·) := by
  intro h
  have hforward := h startAmidShutdown
  change [Phase.created, .created, .stopped, .running].Pairwise (· ≤ ·) at hforward
  exact absurd hforward (by decide)

end World

end Bundling
