import Bundling.Proofs.UnitRelease

/-!
How long a registration with the timer lasts. A coordinator is given at most one, when its start
ends well, and gives it up in the move that stops it. That leaves no registration behind, unless the
start is still waiting for the unit to open by then: it registers with the timer afterwards, and
that registration lasts unless the coordinator is stopped once more.
-/

set_option autoImplicit false
set_option relaxedAutoImplicit false

namespace Bundling

namespace Coordinator

variable {α β : Type} {c d : Coordinator} {i : Nat} {q : Request α} {s : Stage α β}
  {a : Except Failure (List β)} {out : Coordinator × Stage α β} {given : Option Failure}

/-! ### The call that stops the coordinator -/

/-- How far a call is that has stopped the coordinator, and what came of giving up the
registration. -/
inductive Concluding (given : Option Failure) (c : Coordinator) : Stage α β → Prop
  | waits (r : Release) (hr : r.timerFailure = given) : Concluding given c (.queuedToRelease r)
  | closes (r : Release) (hr : r.timerFailure = given) : Concluding given c (.closingUnit r)
  | ended (reply : Reply) (hunit : c.hasUnit = false) (hdone : reply = .done → given = none) :
      Concluding given c (.ended reply)

theorem Concluding.mono (h : Concluding given c s) (hunit : c.hasUnit = false → d.hasUnit = false) :
    Concluding given d s := by
  cases h with
  | waits r hr => exact .waits r hr
  | closes r hr => exact .closes r hr
  | ended reply hgone hdone => exact .ended reply (hunit hgone) hdone

theorem Departure.concluding {f : Option Failure} (h : Departure i f c out)
    (hphase : c.phase ≠ .stopped) : out.1.timer = (c.timer.relinquish c.registration).2 ∧
      Concluding (c.timer.relinquish c.registration).1 out.1 out.2 := by
  have hgiven := timerFailure_releaseOf c f
  have htimer := ceased_timer c
  cases h with
  | already hstopped => exact absurd hstopped hphase
  | waits => exact ⟨htimer, .waits _ hgiven⟩
  | takes => exact ⟨htimer, .closes _ hgiven⟩
  | settles _ _ _ _ hgone hreply =>
    refine ⟨htimer, .ended _ ((ceased_hasUnit c).trans hgone) fun hdone ↦ ?_⟩
    rw [← hgiven]
    exact Release.timerFailure_of_done (hreply.symm.trans hdone)

/-- A turn that stops the coordinator gives the registration up, and the call goes on to release the
unit. -/
theorem Course.concluding (h : Course i q c s out) (hphase : c.phase ≠ .stopped)
    (hstopped : out.1.phase = .stopped) :
    out.1.timer = (c.timer.relinquish c.registration).2 ∧
      Concluding (c.timer.relinquish c.registration).1 out.1 out.2 := by
  cases h with
  | remains h => exact absurd (h.phase.symm.trans hstopped) hphase
  | enrolls _ h => cases h.phase.symm.trans hstopped
  | departs d f _ _ hsame hdeparture =>
    rw [← hsame.timer, ← hsame.registration]
    exact hdeparture.concluding (hsame.phase ▸ hphase)

theorem Turn.concluding (h : Turn i q c s a out) (hfits : c.Fits s)
    (hs : Concluding given c s) : Concluding given out.1 out.2 := by
  cases hs with
  | waits r hr =>
    cases h with
    | takesUnit => exact .closes r hr
    | findsNoUnit _ _ _ _ hgone hreply =>
      refine .ended _ hgone fun hdone ↦ ?_
      rw [← hr]
      exact Release.timerFailure_of_done (hreply.symm.trans hdone)
  | closes r hr =>
    cases h with
    | settles _ _ _ _ hreply =>
      refine .ended _ hfits fun hdone ↦ ?_
      rw [← hr]
      exact Release.timerFailure_of_done (hreply.symm.trans hdone)
  | ended => cases h.reply?_eq_none

/-- So does the first stretch of a call, if it stops the coordinator. -/
theorem concluding_begin (hphase : c.phase ≠ .stopped)
    (hstopped : (c.begin i q : Coordinator × Stage α β).1.phase = .stopped) :
    (c.begin i q : Coordinator × Stage α β).1.timer =
        (c.timer.relinquish c.registration).2 ∧
      Concluding (c.timer.relinquish c.registration).1 (c.begin i q : Coordinator × Stage α β).1
        (c.begin i q : Coordinator × Stage α β).2 := by
  rcases begin_cases (β := β) c i q with ⟨r, -, hbegin⟩ | ⟨d, s, hjoins, hnext⟩
  · rw [hbegin] at hstopped
    exact absurd hstopped hphase
  · cases hjoins with
    | asks =>
      rcases hnext with ⟨-, hbegin⟩ | ⟨-, hturn⟩
      · rw [hbegin] at hstopped
        exact absurd hstopped hphase
      · exact hturn.course.concluding hphase hstopped
    | stops =>
      rcases hnext with ⟨-, hbegin⟩ | ⟨-, hturn⟩
      · rw [hbegin] at hstopped
        cases hstopped
      · exact hturn.course.concluding (fun h ↦ by cases h) hstopped
    | shutsDown =>
      have hgiven := timerFailure_releaseOf c none
      have htimer := ceased_timer c
      rcases hnext with ⟨-, hbegin⟩ | ⟨-, hturn⟩
      · rw [hbegin]
        exact ⟨htimer, .waits _ hgiven⟩
      · refine ⟨?_, hturn.concluding trivial (.waits _ hgiven)⟩
        generalize (c.begin i q : Coordinator × Stage α β) = out at hturn
        cases hturn with
        | takesUnit | findsNoUnit => exact htimer

end Coordinator

namespace World

variable {α β : Type} {w w' v : World α β} {t u new : History α β} {n k : Nat}
  {id : String} {checked : Checked} {timer : Timer} {given : Option Failure}

/-! ### The one registration -/

/-- What is known of the registrations from the nth on, where the coordinator is the one that
registers: there are none before it runs, and of those that stand it holds the handle until it has
stopped. -/
structure Registers (n : Nat) (w : World α β) : Prop where
  own : ∀ index, w.coordinator.registration = some index → n ≤ index
  held : w.coordinator.phase ≠ .stopped → ∀ index, n ≤ index →
    w.coordinator.timer.isActive index = true → w.coordinator.registration = some index
  unopened : w.Unopened → w.coordinator.timer.registrations.length = n

theorem Registers.remains (h : w.Registers n) (hsame : w.coordinator.Remains w'.coordinator)
    (hbefore : w'.Unopened → w.Unopened) : w'.Registers n where
  own := by
    rw [hsame.registration]
    exact h.own
  held := by
    intro hphase index hle hactive
    rw [Timer.isActive_congr hsame.registrations] at hactive
    rw [hsame.phase] at hphase
    rw [hsame.registration]
    exact h.held hphase index hle hactive
  unopened := by
    intro hunopened
    rw [hsame.registrations]
    exact h.unopened (hbefore hunopened)

/-- A coordinator that stops gives up its registration. -/
theorem Registers.stops (h : w.Registers n) (hphase : w'.coordinator.phase = .stopped)
    (hregistration : w'.coordinator.registration = none)
    (hfades : w.coordinator.timer.Fades w'.coordinator.timer)
    (hbefore : w'.Unopened → w.Unopened) : w'.Registers n where
  own := by
    intro index hindex
    cases hregistration.symm.trans hindex
  held := fun hne ↦ absurd hphase hne
  unopened := fun hunopened ↦ hfades.length.trans (h.unopened (hbefore hunopened))

theorem Registers.turns (h : w.Registers n) (horderly : w.Orderly) {i : Nat} {call : Call α β}
    {answer : Except Failure (List β)} {out : Coordinator × Stage α β}
    (hcall : w.calls[i]? = some call)
    (hturn : Coordinator.Turn i call.request w.coordinator call.stage answer out) :
    (⟨out.1, w.calls.set i { call with stage := out.2 }⟩ : World α β).Registers n := by
  have hstage (j : Nat) := stage?_set hcall out.1 { call with stage := out.2 } j
  have hbefore := unopened_of_turn hcall hturn
  have hcourse := hturn.course
  generalize hs : call.stage = s at hcourse
  cases hcourse with
  | remains hsame => exact h.remains hsame hbefore
  | enrolls hopening henrolled =>
    have hopens : w.stage? i = some .opening := by
      rw [stage?_of_call hcall, hs, hopening]
    have hlength := h.unopened (.inr ⟨i, hopens⟩)
    obtain ⟨r, hadds⟩ := henrolled.registrations
    refine ⟨fun index hindex ↦ ?_, fun _ index hle hactive ↦ ?_, fun hunopened ↦ ?_⟩
    · cases henrolled.registration.symm.trans hindex
      exact Nat.le_of_eq hlength.symm
    · rcases Timer.isActive_of_append hadds hactive with hbefore | hlast
      · have hlt := Timer.lt_length_of_isActive hbefore
        omega
      · rw [hlast]
        exact henrolled.registration
    · rcases hunopened with hcreated | ⟨j, hj⟩
      · cases henrolled.phase.symm.trans hcreated
      · -- nobody else can be opening the unit
        rw [hstage] at hj
        split at hj
        case isTrue => cases hj
        case isFalse hne =>
          have hholds := horderly.holder_of_operation hopens rfl
          cases hholds.symm.trans (horderly.holder_of_operation hj rfl)
          exact absurd rfl hne
  | departs d f _ _ hsame hdeparture =>
    have hgives (hphase : out.1.phase = .stopped) (hregistration : out.1.registration = none)
        (htimer : out.1.timer = d.ceased.timer) :
        (⟨out.1, w.calls.set i { call with stage := out.2 }⟩ : World α β).Registers n := by
      refine h.stops hphase hregistration ?_ hbefore
      rw [htimer, Coordinator.ceased_timer, hsame.timer]
      exact Timer.fades_relinquish _ _
    cases hdeparture with
    | already =>
      exact h.remains hsame.remains hbefore
    | waits | takes | settles =>
      exact hgives (Coordinator.ceased_phase d) (Coordinator.ceased_registration d) rfl

theorem Reaches.registers (h : Reaches (created id checked timer) w t) :
    w.Registers timer.registrations.length := by
  induction h with
  | start =>
    refine ⟨fun index hindex ↦ (by cases hindex), fun _ index hle hactive ↦ ?_, fun _ ↦ rfl⟩
    exact absurd (Timer.lt_length_of_isActive hactive) (Nat.not_lt.mpr hle)
  | @advance w w' t new hreaches hadvance ih =>
    cases hadvance with
    | declines q r => exact ih.remains ⟨rfl, rfl, rfl⟩ (unopened_of_append (fun h ↦ h) (by simp))
    | joins q d s hjoins =>
      cases hjoins with
      | asks =>
        exact ih.remains ⟨rfl, rfl, rfl⟩ (unopened_of_append (fun h ↦ h) (by simp))
      | stops _ hphase =>
        refine ⟨ih.own, fun _ ↦ ih.held hphase, fun hunopened ↦ ih.unopened ?_⟩
        exact unopened_of_append (fun h ↦ (by cases h)) (by simp) hunopened
      | shutsDown =>
        refine ih.stops (Coordinator.ceased_phase _) (Coordinator.ceased_registration _) ?_
          (unopened_of_append (fun h ↦ ?_) (by simp))
        · change w.coordinator.timer.Fades w.coordinator.ceased.timer
          rw [Coordinator.ceased_timer]
          exact Timer.fades_relinquish _ _
        · cases (Coordinator.ceased_phase w.coordinator).symm.trans h
    | turns i call answer out hcall hlock hturn =>
      exact ih.turns (hreaches.orderly (orderly_created id checked timer)) hcall hturn
    | retimes timer' hsame => exact ih.remains ⟨rfl, rfl, hsame⟩ (fun h ↦ h)

/-! ### After the move that stops the coordinator -/

/-- None of the registrations from the nth on stands. -/
def AllEnded (n : Nat) (w : World α β) : Prop :=
  ∀ index, n ≤ index → w.coordinator.timer.isActive index = false

theorem AllEnded.fades (h : w.AllEnded n)
    (hfades : w.coordinator.timer.Fades w'.coordinator.timer) : w'.AllEnded n := by
  intro index hle
  rw [Bool.eq_false_iff]
  intro hactive
  exact absurd ((h index hle).symm.trans (hfades.active index hactive)) (by simp)

/-- Ended registrations stay ended, and a new one comes with a start that ends well. -/
theorem AllEnded.advance (h : w.AllEnded n) (horderly : w.Orderly) (hadvance : Advance w w' new) :
    w'.AllEnded n ∨ ∃ i, .replied i .start .done ∈ new ∧ w.stage? i = some .opening := by
  cases hadvance with
  | declines => exact .inl h
  | retimes _ hsame => exact .inl (h.fades (.of_eq hsame))
  | joins q d s hjoins =>
    left
    cases hjoins with
    | asks | stops => exact h
    | shutsDown =>
      refine h.fades ?_
      change w.coordinator.timer.Fades w.coordinator.ceased.timer
      rw [Coordinator.ceased_timer]
      exact Timer.fades_relinquish _ _
  | turns i call answer out hcall hlock hturn =>
    have hsuits := horderly.suits call (List.mem_of_getElem? hcall)
    have hstage := stage?_of_call hcall
    have hcourse := hturn.course
    cases hcourse with
    | remains hsame => exact .inl (h.fades (.of_eq hsame.registrations))
    | enrolls hopening =>
      rw [hopening] at hsuits hstage
      have hstart : call.request = .start := hsuits
      refine .inr ⟨i, ?_, hstage⟩
      rw [hstart]
      exact List.mem_append_right _ (List.mem_singleton_self _)
    | departs d f _ _ hsame hdeparture =>
      left
      cases hdeparture with
      | already => exact h.fades (.of_eq (congrArg _ hsame.timer))
      | waits | takes | settles =>
        refine h.fades ?_
        change w.coordinator.timer.Fades d.ceased.timer
        rw [Coordinator.ceased_timer, hsame.timer]
        exact Timer.fades_relinquish _ _

theorem AllEnded.reaches (h : w.AllEnded n) (horderly : w.Orderly) (hrest : Reaches w v u) :
    v.AllEnded n ∨ ∃ i, .replied i .start .done ∈ u := by
  induction hrest with
  | start => exact .inl h
  | advance hbefore hadvance ih =>
    rcases ih with hended | ⟨i, hreplied⟩
    · rcases hended.advance (hbefore.orderly horderly) hadvance with hstill | ⟨i, hreplied, -⟩
      · exact .inl hstill
      · exact .inr ⟨i, List.mem_append_right _ hreplied⟩
    · exact .inr ⟨i, List.mem_append_left _ hreplied⟩

theorem Reaches.hasUnit_of_rest (h : Reaches (created id checked timer) w t)
    (hrest : Reaches w v u) (hgone : w.coordinator.hasUnit = false) :
    v.coordinator.hasUnit = false := by
  have hclosing := h.conducts.conduct.closing
  rw [hgone] at hclosing
  have hstill := Standing.closing_append hclosing u
  rw [(h.trans hrest).conducts.conduct.closing] at hstill
  simpa using hstill

/-- Without the unit, no start ends well any more, and what has ended stays so for good. -/
theorem Reaches.allEnded_of_rest (h : Reaches (created id checked timer) w t)
    (hgone : w.coordinator.hasUnit = false) (hended : w.AllEnded n) (hrest : Reaches w v u) :
    v.AllEnded n := by
  have hcreated := orderly_created (α := α) (β := β) id checked timer
  induction hrest with
  | start => exact hended
  | @advance v v' u new hbefore hadvance ih =>
    have hreaches := h.trans hbefore
    have horderly := hreaches.orderly hcreated
    refine (ih.advance horderly hadvance).resolve_right ?_
    rintro ⟨i, -, hopening⟩
    obtain ⟨call, hcall, hstage⟩ := Option.map_eq_some_iff.mp hopening
    have hfits := hreaches.conducts.fits
    rw [horderly.acting_of_operation hcall (by rw [hstage]; rfl), hstage] at hfits
    exact absurd ((h.hasUnit_of_rest hbefore hgone).symm.trans hfits) (by simp)

/-- A call that has stopped the coordinator goes on to the end of its release. -/
theorem Reaches.concluding_of_advance (h : Reaches (created id checked timer) w t)
    (hadvance : Advance w w' new)
    (hk : ∃ s, w.stage? k = some s ∧ Coordinator.Concluding given w.coordinator s) :
    ∃ s, w'.stage? k = some s ∧ Coordinator.Concluding given w'.coordinator s := by
  obtain ⟨s, hs, hconcluding⟩ := hk
  have hgone := h.hasUnit_of_rest (.advance .start hadvance)
  cases hadvance with
  | declines | joins => exact ⟨s, stage?_append_of_some hs _ _, hconcluding.mono hgone⟩
  | retimes => exact ⟨s, hs, hconcluding.mono hgone⟩
  | turns i call answer out hcall hlock hturn =>
    rw [stage?_set hcall]
    split
    case isFalse => exact ⟨s, hs, hconcluding.mono hgone⟩
    case isTrue heq =>
      subst heq
      have hfits := h.conducts.fits
      rw [acting_of_holder hlock hcall] at hfits
      rw [stage?_of_call hcall] at hs
      cases hs
      exact ⟨out.2, rfl, hturn.concluding hfits hconcluding⟩

theorem Reaches.concluding_of_rest (h : Reaches (created id checked timer) w t)
    (hrest : Reaches w v u)
    (hk : ∃ s, w.stage? k = some s ∧ Coordinator.Concluding given w.coordinator s) :
    ∃ s, v.stage? k = some s ∧ Coordinator.Concluding given v.coordinator s := by
  induction hrest with
  | start => exact hk
  | advance hbefore hadvance ih => exact (h.trans hbefore).concluding_of_advance hadvance ih

/-- A call that has replied has ended with its reply. -/
theorem Reaches.ended_of_replied (h : Reaches (created id checked timer) w t) {q : Request α}
    {r : Reply} (hreplied : .replied k q r ∈ t) : w.stage? k = some (.ended r) := by
  induction h with
  | start => cases hreplied
  | @advance w w' t new _ hadvance ih =>
    rcases List.mem_append.mp hreplied with hold | hlast
    · have hended := ih hold
      cases hadvance with
      | declines | joins => exact stage?_append_of_some hended _ _
      | retimes => exact hended
      | turns i call answer out hcall hlock hturn =>
        rw [stage?_set hcall, if_neg, hended]
        rintro rfl
        rw [stage?_of_call hcall] at hended
        have hreply := hturn.reply?_eq_none
        rw [Option.some.inj hended] at hreply
        cases hreply
    · cases hadvance with
      | declines q' r' =>
        simp only [List.mem_cons, List.not_mem_nil, or_false, reduceCtorEq, false_or] at hlast
        cases hlast
        rw [stage?_append, if_pos rfl]
      | joins => simp at hlast
      | retimes => cases hlast
      | turns i call answer out hcall hlock hturn =>
        obtain ⟨rfl, -, hended⟩ := Event.eq_of_replied_mem_turn hlast
        rw [stage?_set hcall, if_pos rfl, ← hended]

/-! ### The move that stops the coordinator -/

/-- The call that a move takes on. -/
def mover? (w : World α β) : Move α β → Option Nat
  | .issue _ => some w.calls.length
  | .proceed i _ => some i
  | .clock _ | .timerFaults _ _ => none

/-- In this move, this call stops the coordinator. -/
def StoppedBy (w : World α β) (m : Move α β) (k : Nat) : Prop :=
  w.mover? m = some k ∧ w.coordinator.phase ≠ .stopped ∧
    (w.step m).coordinator.phase = .stopped

/-- Giving up the registration without a failure leaves none that stands. -/
theorem Registers.allEnded (h : w.Registers n) (hphase : w.coordinator.phase ≠ .stopped)
    (hgiven : w.coordinator.cancelRegistration.1 = none)
    (htimer : v.coordinator.timer =
      (w.coordinator.timer.relinquish w.coordinator.registration).2) : v.AllEnded n := by
  have hfades := Timer.fades_relinquish w.coordinator.timer w.coordinator.registration
  intro index hle
  rw [Bool.eq_false_iff, htimer]
  intro hactive
  have hregistration := h.held hphase index hle (hfades.active index hactive)
  have hnone := congrArg Prod.fst (Coordinator.cancelRegistration_timer w.coordinator)
  rw [hregistration] at hnone hactive
  exact absurd ((Timer.isActive_relinquish (hnone.symm.trans hgiven)).symm.trans hactive) (by simp)

/-- The move in which a call stops the coordinator takes it to the release of the unit, with the
registration given up. -/
theorem Reaches.concluding_of_stoppedBy (h : Reaches (created id checked timer) w t)
    {m : Move α β} (hstops : w.StoppedBy m k) :
    (∃ s, (w.step m).stage? k = some s ∧
        Coordinator.Concluding w.coordinator.cancelRegistration.1 (w.step m).coordinator s) ∧
      (w.coordinator.cancelRegistration.1 = none →
        (w.step m).AllEnded timer.registrations.length) := by
  have hgiven := congrArg Prod.fst (Coordinator.cancelRegistration_timer w.coordinator)
  obtain ⟨hmover, hphase, hstopped⟩ := hstops
  -- both kinds of moves leave the call behind at a stage, with the registration given up
  suffices hmove : ∃ s, (w.step m).stage? k = some s ∧
      (w.step m).coordinator.timer =
        (w.coordinator.timer.relinquish w.coordinator.registration).2 ∧
      Coordinator.Concluding (w.coordinator.timer.relinquish w.coordinator.registration).1
        (w.step m).coordinator s by
    obtain ⟨s, hs, htimer, hconcluding⟩ := hmove
    rw [← hgiven] at hconcluding
    exact ⟨⟨s, hs, hconcluding⟩, fun hnone ↦ h.registers.allEnded hphase hnone htimer⟩
  cases m with
  | clock | timerFaults => cases hmover
  | issue q =>
    cases hmover
    obtain ⟨htimer, hconcluding⟩ := Coordinator.concluding_begin hphase hstopped
    exact ⟨_, (stage?_append w _ _ _).trans (if_pos rfl), htimer, hconcluding⟩
  | proceed i answer =>
    cases hmover
    rcases (h.orderly (orderly_created id checked timer)).proceed_turns k answer with
      ⟨hsame, -⟩ | ⟨call, out, hcall, -, hturn, hproceed, -⟩
    · rw [show w.step (.proceed k answer) = w from hsame] at hstopped
      exact absurd hstopped hphase
    · rw [show w.step (.proceed k answer) = _ from hproceed] at hstopped ⊢
      obtain ⟨htimer, hconcluding⟩ := hturn.course.concluding hphase hstopped
      exact ⟨out.2, (stage?_set hcall _ _ _).trans (if_pos rfl), htimer, hconcluding⟩

/-- A call has stopped the coordinator, has given its registration up without a failure, and has
returned. Then no registration stands, now or later, unless a start has ended well in the meantime
and its registration stands now. A stop that returns the failure of its last close has given its
registration up just as well, so not only its reply counts. -/
theorem timers_ended_iff (id : String) (checked : Checked) (timer : Timer)
    (past post : List (Move α β)) (m : Move α β) {q : Request α} {reply : Reply}
    (hstops : ((created id checked timer : World α β).run past).StoppedBy m k)
    (hreplied : .replied k q reply ∈
      (created id checked timer : World α β).trace (past ++ m :: post))
    (hok : reply = .done ∨
      ((created id checked timer : World α β).run past).coordinator.cancelRegistration.1 = none) :
    let w : World α β := (created id checked timer).run (past ++ m :: post)
    (∀ rest, (w.run rest).coordinator.isTimerActive = false ∧
        (w.run rest).AllEnded timer.registrations.length) ↔
      ¬ ((∃ i, .replied i .start .done ∈
            (((created id checked timer : World α β).run past).step m).trace post) ∧
          ∃ index, timer.registrations.length ≤ index ∧
            w.coordinator.timer.isActive index = true) := by
  intro w
  have hcreated := orderly_created (α := α) (β := β) id checked timer
  have hpast := reaches_run hcreated past
  have hmoved := hpast.step (hpast.orderly hcreated) m
  have hpost := reaches_run (hmoved.orderly hcreated) post
  have hw : (((created id checked timer : World α β).run past).step m).run post = w := by
    rw [← run_snoc, ← run_append, List.append_assoc]
    rfl
  rw [hw] at hpost
  have hreaches : Reaches (created id checked timer) w _ := reaches_run hcreated _
  -- the call has ended its release, so the unit is gone and the registration was given up well
  obtain ⟨hconcluding, hgives⟩ := hpast.concluding_of_stoppedBy hstops
  obtain ⟨s, hs, hconcluded⟩ := hmoved.concluding_of_rest hpost hconcluding
  rw [hreaches.ended_of_replied hreplied] at hs
  cases hs
  obtain ⟨hgone, hnone⟩ : w.coordinator.hasUnit = false ∧
      ((created id checked timer : World α β).run past).coordinator.cancelRegistration.1 =
        none := by
    cases hconcluded with
    | ended _ hgone hdone => exact ⟨hgone, hok.elim hdone fun hnone ↦ hnone⟩
  constructor
  · rintro hended ⟨-, index, hle, hactive⟩
    exact absurd (((hended []).2 index hle).symm.trans hactive) (by simp)
  · intro hnot rest
    have hnow : w.AllEnded timer.registrations.length := by
      rcases (hgives hnone).reaches (hmoved.orderly hcreated) hpost with hended | hlate
      · exact hended
      · intro index hle
        rw [Bool.eq_false_iff]
        exact fun hactive ↦ hnot ⟨hlate, index, hle, hactive⟩
    have hrest := reaches_run (hreaches.orderly hcreated) rest
    have hended := hreaches.allEnded_of_rest hgone hnow hrest
    refine ⟨?_, hended⟩
    have hown := (hreaches.trans hrest).registers.own
    unfold Coordinator.isTimerActive
    cases hregistration : (w.run rest).coordinator.registration with
    | none => rfl
    | some index => exact hended index (hown index hregistration)

/-- A shutdown is made while a start waits for the unit to open. The start ends first. -/
def shutdownAmidStart : List (Move Nat Nat) :=
  [.issue .start, .issue .shutdown, .proceed 0 (.ok []), .proceed 1 (.ok []), .proceed 1 (.ok [])]

theorem replied_shutdownAmidStart : .replied 1 .shutdown .done ∈ plain.trace shutdownAmidStart := by
  refine List.mem_of_getLast? (l := plain.trace shutdownAmidStart) ?_
  rfl

theorem timer_outlives_shutdown :
    (plain.run [.issue .start]).StoppedBy (.issue .shutdown) 1 ∧
      .replied 1 .shutdown .done ∈ plain.trace shutdownAmidStart ∧
      ¬ ∀ rest, ((plain.run shutdownAmidStart).run rest).coordinator.isTimerActive = false ∧
        ((plain.run shutdownAmidStart).run rest).AllEnded 0 := by
  have hstops : (plain.run [.issue .start]).StoppedBy (.issue .shutdown) 1 :=
    ⟨rfl, by decide, by decide⟩
  have hiff := timers_ended_iff "plain" (Limits.check {}) { kind := .manual false, now := 0 }
    [.issue .start] [.proceed 0 (.ok []), .proceed 1 (.ok []), .proceed 1 (.ok [])]
    (.issue .shutdown) hstops replied_shutdownAmidStart (.inl rfl)
  refine ⟨hstops, replied_shutdownAmidStart,
    fun hended ↦ hiff.mp hended ⟨⟨0, ?_⟩, 0, Nat.le_refl 0, rfl⟩⟩
  exact List.mem_cons_of_mem _ (List.mem_cons_self)

/-- A shutdown has returned well, and the age check is registered with the timer. -/
theorem not_timers_ended :
    ¬ ∀ (past post : List (Move Nat Nat)) (m : Move Nat Nat) (k : Nat) (q : Request Nat),
      (plain.run past).StoppedBy m k → .replied k q .done ∈ plain.trace (past ++ m :: post) →
        (plain.run (past ++ m :: post)).coordinator.isTimerActive = false := by
  intro h
  have hended := h [.issue .start] [.proceed 0 (.ok []), .proceed 1 (.ok []), .proceed 1 (.ok [])]
    (.issue .shutdown) 1 .shutdown ⟨rfl, by decide, by decide⟩ replied_shutdownAmidStart
  exact absurd hended (by decide)

end World

end Bundling
