import Bundling.Proofs.Latch
import Bundling.Proofs.Serial
import Bundling.Proofs.TimerLifetime
import Mathlib.Algebra.Order.Ring.Int

/-!
What is left of a coordinator once a timer tick has failed. The failure stays latched, every later
submit, watermark, barrier and end of input is turned away with it, and the unit is asked for
nothing but to close. Stops and shutdowns do not look for failures: the calls that are still in
flight can all be brought to their ends, and a coordinator that has been told to stop is released by
then.
-/

set_option autoImplicit false
set_option relaxedAutoImplicit false

namespace Bundling

namespace Phase

theorem eq_stopped_of_le {p : Phase} (hle : stopping ≤ p) (hp : p ≠ stopping) : p = stopped := by
  revert hle hp
  cases p <;> decide

end Phase

namespace Coordinator

variable {α β : Type} {c d : Coordinator} {i : Nat} {q : Request α} {s : Stage α β}
  {a : Except Failure (List β)} {out : Coordinator × Stage α β} {f : Failure}

/-- Only a call at work on a bundle latches a failure. -/
theorem Turn.latched_of_rest (h : Turn i q c s a out) (hs : s.isWork = false) :
    out.1.latched = c.latched := by
  cases h with
  | idles _ _ _ _ _ _ h => exact h.latched
  | fillsNone | finishesNot | drainsNot | drained | emitsNot | emitted | releasesNot | released =>
    cases hs
  | _ => rfl

/-- The coordinator has left its first phase, and nobody opens the unit. -/
structure PastStart (c : Coordinator) (s : Stage α β) : Prop where
  phase : c.phase ≠ .created
  stage : s ≠ .opening

theorem PastStart.of_rest {s' : Stage α β} (h : PastStart c s) (hs : s'.operation? = none) :
    PastStart c s' where
  phase := h.phase
  stage := by
    rintro rfl
    cases hs

theorem PastStart.joins {d : Coordinator} {s' : Stage α β} (h : PastStart c s)
    (hjoins : Joins q c d s') (n : Nat) : PastStart (d.inLine n) s where
  phase := Phase.ne_created_of_le hjoins.phase_le h.phase
  stage := h.stage

/-- Once the coordinator has left its first phase, no turn comes to open the unit. -/
theorem Turn.pastStart_of_phase (h : Turn i q c s a out) (hphase : c.phase ≠ .created) :
    PastStart out.1 out.2 where
  phase := h.phase_ne_created hphase
  stage := fun hopening ↦ hphase (h.created_of_opening hopening)

theorem phase_ne_created_of_isWork (hfits : c.Fits s) (hwork : s.isWork = true) :
    c.phase ≠ .created := by
  cases s <;> first | exact hfits.2.1 | cases hwork

theorem Turn.pastStart (h : Turn i q c s a out) (hfits : c.Fits s)
    (hbefore : c.latched ≠ none → PastStart c s) (hlatched : out.1.latched ≠ none) :
    PastStart out.1 out.2 := by
  have hphase : c.phase ≠ .created := by
    cases hwork : s.isWork with
    | true => exact phase_ne_created_of_isWork hfits hwork
    | false => exact (hbefore (h.latched_of_rest hwork ▸ hlatched)).phase
  exact h.pastStart_of_phase hphase

end Coordinator

namespace World

variable {α β : Type} {w w' v : World α β} {t u new : History α β}
  {id : String} {checked : Checked} {timer : Timer} {i : Nat} {op : Operation α β}

/-! ### After a failure has been latched -/

theorem kept_pastStart : Kept (fun _ _ _ ↦ True) fun c i (call : Call α β) t ↦
    c.Conducts i call.stage t ∧ (c.latched ≠ none → c.PastStart call.stage) where
  rest := fun hcall hother ⟨hconducts, hpast⟩ ↦ ⟨kept_conducts.rest hcall hother hconducts,
    fun hlatched ↦ (hpast hlatched).of_rest hother⟩
  turns := fun _ _ hturn ⟨hconducts, hpast⟩ ↦
    ⟨hturn.conducts hconducts, hturn.pastStart hconducts.fits hpast⟩
  joins := by
    intro c i n q d s call t hjoins ⟨hconducts, hpast⟩
    refine ⟨kept_conducts.joins hjoins hconducts, fun hlatched ↦ ?_⟩
    exact (hpast (hjoins.latched ▸ hlatched)).joins hjoins n
  declines := fun hdeclines ⟨hconducts, hpast⟩ ↦
    ⟨kept_conducts.declines hdeclines hconducts, hpast⟩
  retimes := fun ⟨hconducts, hpast⟩ ↦
    ⟨kept_conducts.retimes hconducts, fun hlatched ↦ ⟨(hpast hlatched).phase,
      (hpast hlatched).stage⟩⟩

theorem Reaches.pastStart (h : Reaches (created id checked timer) w t)
    (hlatched : w.coordinator.latched ≠ none) : w.coordinator.PastStart w.acting.2.stage :=
  (kept_pastStart.reaches (orderly_created id checked timer) (fun _ _ _ ↦ trivial)
    ⟨conducts_created id checked timer, fun hlatched ↦ absurd rfl hlatched⟩ h).2 hlatched

/-- With a failure latched, the unit can only be asked to close. -/
theorem Reaches.operation_of_latched (h : Reaches (created id checked timer) w t)
    (hlatched : w.coordinator.latched ≠ none) {call : Call α β} (hcall : w.calls[i]? = some call)
    (hop : call.stage.operation? = some op) : op = .closeUnit := by
  have hacting := (h.orderly (orderly_created id checked timer)).acting_of_operation hcall
    (by rw [hop]; rfl)
  have hwork := (h.atRest hlatched).isWork
  have hopening := (h.pastStart hlatched).stage
  rw [hacting] at hwork hopening
  cases hs : call.stage with
  | opening => exact absurd hs hopening
  | closingUnit r =>
    rw [hs] at hop
    cases hop
    rfl
  | queued | queuedToRelease | ended =>
    rw [hs] at hop
    cases hop
  | _ =>
    rw [hs] at hwork
    cases hwork

theorem Advance.latched_of_some (hadvance : Advance w w' new) {f : Failure}
    (hlatched : w.coordinator.latched = some f) : w'.coordinator.latched = some f := by
  cases hadvance with
  | declines | retimes => exact hlatched
  | joins q d s hjoins =>
    exact hjoins.latched.trans hlatched
  | turns i call answer out hcall hlock hturn => exact hturn.latched_of_some hlatched

/-- With a failure latched, an advance takes the phase forward, and has nothing to do with any
operation but the closing of the unit. -/
theorem Reaches.quiet_of_advance (h : Reaches (created id checked timer) w t) {f : Failure}
    (hlatched : w.coordinator.latched = some f) (hadvance : Advance w w' new) :
    w.coordinator.phase ≤ w'.coordinator.phase ∧
      ∀ i op, (Event.asked i op ∈ new ∨ ∃ a, Event.answered i op a ∈ new) → op = .closeUnit := by
  have hnext := h.advance hadvance
  have hlatched' := hadvance.latched_of_some hlatched
  have hnow : w.coordinator.latched ≠ none := by simp [hlatched]
  have hthen : w'.coordinator.latched ≠ none := by simp [hlatched']
  cases hadvance with
  | declines => exact ⟨Phase.le_refl _, by simp⟩
  | joins q d s hjoins => exact ⟨hjoins.phase_le, by simp⟩
  | retimes => exact ⟨Phase.le_refl _, by simp⟩
  | turns j call answer out hcall hlock hturn =>
    refine ⟨hturn.course.phase_le.resolve_right fun hruns ↦ ?_, fun i op hmem ↦ ?_⟩
    · have hop : call.stage.operation? = some .openUnit := by
        rw [hruns.1]
        rfl
      cases h.operation_of_latched hnow hcall hop
    · rcases hmem with hasked | ⟨a, hanswered⟩
      · obtain ⟨-, hop⟩ := Event.eq_of_asked_mem_turn hasked
        have hcall' : (w.calls.set j { call with stage := out.2 })[j]? =
            some { call with stage := out.2 } :=
          List.getElem?_set_self (List.getElem?_eq_some_iff.mp hcall).1
        exact hnext.operation_of_latched hthen hcall' hop
      · obtain ⟨-, hop⟩ := Event.eq_of_answered_mem_turn hanswered
        exact h.operation_of_latched hnow hcall hop

theorem Reaches.quiet_of_rest (h : Reaches (created id checked timer) w t) {f : Failure}
    (hlatched : w.coordinator.latched = some f) (hrest : Reaches w v u) :
    v.coordinator.latched = some f ∧ w.coordinator.phase ≤ v.coordinator.phase ∧
      ∀ i op, (Event.asked i op ∈ u ∨ ∃ a, Event.answered i op a ∈ u) → op = .closeUnit := by
  induction hrest with
  | start => exact ⟨hlatched, Phase.le_refl _, by simp⟩
  | advance hbefore hadvance ih =>
    obtain ⟨hstill, hle, hquiet⟩ := ih
    obtain ⟨hle', hquiet'⟩ := (h.trans hbefore).quiet_of_advance hstill hadvance
    refine ⟨hadvance.latched_of_some hstill, Phase.le_trans hle hle', fun i op hmem ↦ ?_⟩
    simp only [List.mem_append] at hmem
    rcases hmem with (hold | hnew) | ⟨a, hold | hnew⟩
    · exact hquiet i op (.inl hold)
    · exact hquiet' i op (.inl hnew)
    · exact hquiet i op (.inr ⟨a, hold⟩)
    · exact hquiet' i op (.inr ⟨a, hnew⟩)

/-- A call that reports failures is turned away before it changes anything. -/
theorem issue_of_latched {f : Failure} (hlatched : w.coordinator.latched = some f) {q : Request α}
    (hq : q.Reports) : w.issue q = ⟨w.coordinator, w.calls ++ [⟨q, .ended (.failed f)⟩]⟩ := by
  unfold World.issue
  rw [Coordinator.begin_of_early _ (Coordinator.early_of_latched hq hlatched)]

/-! ### Stops -/

/-- Nothing stopped holds a registration. -/
theorem Reaches.registration_of_stopped (h : Reaches (created id checked timer) w t)
    (hphase : w.coordinator.phase = .stopped) : w.coordinator.registration = none := by
  induction h with
  | start => rfl
  | advance _ hadvance ih =>
    cases hadvance with
    | declines | retimes => exact ih hphase
    | joins q d s hjoins =>
      cases hjoins with
      | asks => exact ih hphase
      | stops => cases hphase
      | shutsDown => exact Coordinator.ceased_registration _
    | turns i call answer out hcall hlock hturn =>
      have hcourse := hturn.course
      cases hcourse with
      | remains hsame => exact hsame.registration.trans (ih (hsame.phase.symm.trans hphase))
      | enrolls _ henrolled => cases henrolled.phase.symm.trans hphase
      | departs d f _ _ hsame hdeparture =>
        cases hdeparture with
        | already hstopped =>
          exact hsame.registration.trans (ih (hsame.phase.symm.trans hstopped))
        | waits | takes | settles => exact Coordinator.ceased_registration d

/-- A stop has not come to the release of the unit yet. -/
def AwaitsStop (w : World α β) : Prop :=
  ∃ (k : Nat) (s : Stage α β), w.calls[k]? = some ⟨.stop, s⟩ ∧ s.reply? = none ∧ s.isRelease = false

theorem AwaitsStop.append (h : w.AwaitsStop) (c : Coordinator) (call : Call α β) :
    (⟨c, w.calls ++ [call]⟩ : World α β).AwaitsStop := by
  obtain ⟨k, s, hk, hs⟩ := h
  exact ⟨k, s, (List.getElem?_append_left (List.getElem?_eq_some_iff.mp hk).1).trans hk, hs⟩

/-- While the coordinator is stopping, there is a stop that has yet to release the unit. -/
theorem Reaches.awaitsStop (h : Reaches (created id checked timer) w t)
    (hphase : w.coordinator.phase = .stopping) : w.AwaitsStop := by
  induction h with
  | start => cases hphase
  | @advance w w' t new hreaches hadvance ih =>
    have horderly := hreaches.orderly (orderly_created id checked timer)
    cases hadvance with
    | declines => exact (ih hphase).append _ _
    | retimes =>
      obtain ⟨k, s, hk⟩ := ih hphase
      exact ⟨k, s, hk⟩
    | joins q d s hjoins =>
      cases hjoins with
      | asks => exact (ih hphase).append _ _
      | stops hq => exact ⟨w.calls.length, .queued, by simp [hq], rfl, rfl⟩
      | shutsDown => cases (Coordinator.ceased_phase _).symm.trans hphase
    | turns i call answer out hcall hlock hturn =>
      have hcourse := hturn.course
      cases hcourse with
      | enrolls _ henrolled => cases henrolled.phase.symm.trans hphase
      | departs _ _ _ _ _ hdeparture => cases hdeparture.stopped.symm.trans hphase
      | remains hsame hproceeds =>
        obtain ⟨k, s, hk, hreply, hrelease⟩ := ih (hsame.phase.symm.trans hphase)
        by_cases hki : i = k
        · subst hki
          cases hcall.symm.trans hk
          have hsuits := horderly.suits _ (List.mem_of_getElem? hk)
          have hasks := hproceeds.asks rfl hsuits hrelease
          refine ⟨i, out.2, List.getElem?_set_self (List.getElem?_eq_some_iff.mp hcall).1,
            Stage.reply?_eq_none_of_operation hasks, ?_⟩
          rw [Bool.eq_false_iff]
          exact fun hreleases ↦
            absurd (hrelease.symm.trans (hproceeds.releases hreleases)) (by simp)
        · exact ⟨k, s, (List.getElem?_set_ne hki).trans hk, hreply, hrelease⟩

/-- With a failure latched, a coordinator that is told to stop does not run any more. -/
theorem Reaches.stopping_of_issued (h : Reaches (created id checked timer) w t) {f : Failure}
    (hlatched : w.coordinator.latched = some f) (hrest : Reaches w v u) {k : Nat} {q : Request α}
    (hq : q.Stops) (hissued : .issued k q ∈ u) : .stopping ≤ v.coordinator.phase := by
  induction hrest with
  | start => cases hissued
  | advance hbefore hadvance ih =>
    have hstill := (h.quiet_of_rest hlatched hbefore).1
    rcases List.mem_append.mp hissued with hold | hnew
    · exact Phase.le_trans (ih hold) ((h.trans hbefore).quiet_of_advance hstill hadvance).1
    · exact hadvance.stopping_le hq hnew

/-- With a failure latched, no registration is made any more. -/
theorem Reaches.allEnded_of_latched (h : Reaches (created id checked timer) w t) {f : Failure}
    (hlatched : w.coordinator.latched = some f) {n : Nat} (hended : w.AllEnded n)
    (hrest : Reaches w v u) : v.AllEnded n := by
  have hcreated := orderly_created (α := α) (β := β) id checked timer
  induction hrest with
  | start => exact hended
  | advance hbefore hadvance ih =>
    have hv := h.trans hbefore
    have hstill := (h.quiet_of_rest hlatched hbefore).1
    refine (ih.advance (hv.orderly hcreated) hadvance).resolve_right ?_
    rintro ⟨i, -, hopening⟩
    obtain ⟨call, hcall, hstage⟩ := Option.map_eq_some_iff.mp hopening
    cases hv.operation_of_latched (by simp [hstill]) hcall (by rw [hstage]; rfl)

/-- The coordinator has stopped, has given up its registration, and its unit has been closed. -/
structure Released (w : World α β) (t : History α β) : Prop where
  phase : w.coordinator.phase = .stopped
  registration : w.coordinator.registration = none
  hasUnit : w.coordinator.hasUnit = false
  closed : ∃ i a, .answered i .closeUnit a ∈ t

/-- A coordinator that has been told to stop is released once no call is in flight. -/
theorem Reaches.released_of_idle (h : Reaches (created id checked timer) w t) (hidle : w.Idle)
    (hphase : .stopping ≤ w.coordinator.phase) : w.Released t := by
  have hended {k : Nat} {s : Stage α β} (hk : w.stage? k = some s) : s.reply?.isSome = true := by
    obtain ⟨call, hcall, rfl⟩ := Option.map_eq_some_iff.mp hk
    exact hidle call (List.mem_of_getElem? hcall)
  have hstopped : w.coordinator.phase = .stopped := by
    refine Phase.eq_stopped_of_le hphase fun hstopping ↦ ?_
    obtain ⟨k, s, hk, hreply, -⟩ := h.awaitsStop hstopping
    have hreplied := hended (stage?_of_call hk)
    rw [hreply] at hreplied
    cases hreplied
  have hgone : w.coordinator.hasUnit = false := by
    rw [Bool.eq_false_iff]
    intro hunit
    obtain ⟨j, r, hj⟩ := h.awaitsRelease hunit (.inl hstopped)
    cases hended hj
  have hconduct := h.conducts.conduct
  have hclosing := hconduct.closing
  rw [hgone] at hclosing
  obtain ⟨i, hasked⟩ := Standing.exists_asked_of_closing hclosing
  refine ⟨hstopped, h.registration_of_stopped hstopped, hgone, i, ?_⟩
  rcases hconduct.lawful.answered_or_underway hasked with hanswered | hunderway
  · exact hanswered
  · rw [hconduct.underway] at hunderway
    obtain ⟨op, hop, -⟩ := Option.map_eq_some_iff.mp hunderway
    have hreplied := hended (stage?_of_call (calls_acting (by rw [hop]; rfl)))
    rw [Stage.reply?_eq_none_of_operation (by rw [hop]; rfl)] at hreplied
    cases hreplied

/-! ### Calls that are in flight -/

/-- How far the calls are from their ends, all together. -/
def toGo (w : World α β) : Nat := (w.calls.map fun call ↦ call.stage.rank).sum

theorem toGo_set {c : Coordinator} {call new : Call α β} (hcall : w.calls[i]? = some call)
    (hlt : new.stage.rank < call.stage.rank) :
    (⟨c, w.calls.set i new⟩ : World α β).toGo < w.toGo := by
  have hsum (calls : List (Call α β)) : ∀ i, calls[i]? = some call →
      ((calls.set i new).map fun call ↦ call.stage.rank).sum <
        (calls.map fun call ↦ call.stage.rank).sum := by
    induction calls with
    | nil => exact fun i hi ↦ by cases hi
    | cons other calls ih =>
      intro i hi
      cases i with
      | zero =>
        cases hi
        simpa using hlt
      | succ i => simpa using ih i hi
  exact hsum w.calls i hcall

/-- A call in flight means that one can go on. -/
theorem Orderly.exists_canRun (h : w.Orderly) (hbusy : ¬ w.Idle) :
    ∃ i call, w.calls[i]? = some call ∧ w.canRun i call.stage = true := by
  obtain ⟨call, hmem, hunfinished⟩ : ∃ call ∈ w.calls, call.stage.reply?.isSome ≠ true := by
    simpa [Idle] using hbusy
  obtain ⟨j, hj⟩ := List.getElem?_of_mem hmem
  have hline := (h.mem_line j).mpr ⟨_, stage?_of_call hj, by simpa using hunfinished⟩
  cases hholder : w.coordinator.lock.holder with
  | none =>
    have hempty := h.idle hholder
    simp [Lock.line, hholder, hempty] at hline
  | some i =>
    obtain ⟨other, hcall, hreply⟩ := h.holder hholder
    refine ⟨i, other, hcall, ?_⟩
    unfold canRun holdsLock
    rw [hholder]
    cases hs : other.stage <;> simp_all [Stage.operation?, Stage.awaitsLock, Stage.reply?]

/-- With no call at work, a call that goes on comes nearer to its end, and has no results to emit. -/
theorem Reaches.toGo_proceed (h : Reaches (created id checked timer) w t)
    (hwork : w.acting.2.stage.isWork = false) {call : Call α β} (hcall : w.calls[i]? = some call)
    (hrun : w.canRun i call.stage = true) (a : Except Failure (List β)) :
    (w.proceed i a).toGo < w.toGo := by
  obtain ⟨hlock, -⟩ := turn_stretch (h.orderly (orderly_created id checked timer)) a hcall hrun
  have hcan : call.stage.operation?.isSome = true ∨
      call.stage.awaitsLock = true ∧ w.holdsLock i = true := by
    simpa [canRun] using hrun
  rw [acting_of_holder hlock hcall] at hwork
  have hremaining : call.stage.remaining = 0 := by
    cases hs : call.stage <;> simp_all [Stage.remaining, Stage.isWork]
  have hlt : (w.stretch i call a).2.rank < call.stage.rank := by
    have hbefore := w.stretch_before i call a hcan
    unfold Stage.Before at hbefore
    rw [Prod.lex_def, hremaining] at hbefore
    simpa using hbefore
  have hproceed : w.proceed i a =
      ⟨(w.stretch i call a).1, w.calls.set i { call with stage := (w.stretch i call a).2 }⟩ := by
    unfold World.proceed
    rw [hcall]
  rw [hproceed]
  exact toGo_set hcall hlt

/-- Where no call is at work any more, the calls in flight can be brought to their ends, whatever
the unit answers when it is closed. -/
theorem Reaches.exists_idle_of_rest (h : Reaches (created id checked timer) w t)
    (hrest : ∀ {v : World α β} {u : History α β}, Reaches w v u →
      v.acting.2.stage.isWork = false) (a : Except Failure (List β)) :
    ∃ order : List Nat, (w.run (order.map fun i ↦ .proceed i a)).Idle := by
  have horderly := h.orderly (orderly_created id checked timer)
  induction hn : w.toGo using Nat.strongRecOn generalizing w t with
  | ind n ih =>
    by_cases hidle : w.Idle
    · exact ⟨[], hidle⟩
    · obtain ⟨i, call, hcall, hrun⟩ := horderly.exists_canRun hidle
      have hlt := h.toGo_proceed (hrest .start) hcall hrun a
      have hnext := Reaches.start.step horderly (.proceed i a)
      obtain ⟨order, hidles⟩ := ih _ (hn ▸ hlt) (h.trans hnext)
        (fun hlater ↦ hrest (hnext.trans hlater)) (hnext.orderly horderly) rfl
      exact ⟨i :: order, hidles⟩

/-- With a failure latched, no call is at work any more. -/
theorem Reaches.exists_idle (h : Reaches (created id checked timer) w t) {f : Failure}
    (hlatched : w.coordinator.latched = some f) (a : Except Failure (List β)) :
    ∃ order : List Nat, (w.run (order.map fun i ↦ .proceed i a)).Idle :=
  h.exists_idle_of_rest (fun hlater ↦ ((h.trans hlater).atRest
    (by simp [(h.quiet_of_rest hlatched hlater).1])).isWork) a

/-! ### For good -/

/-- Once a tick has latched a failure it stays, whatever fails later. Every submit, watermark,
barrier and end of input made from then on returns it and leaves the coordinator as it is, and the
collaborators are asked for nothing but the closing of the unit. The calls in flight can be brought
to their ends; once they have ended, a coordinator that was stopping, or that a stop or a shutdown
has been called on since, is released; and a registration that is given up without a failure ends
the timer for good. -/
theorem failStop_of_latched (id : String) (checked : Checked) (timer : Timer)
    (past : List (Move α β)) {f : Failure}
    (hlatched : ((created id checked timer : World α β).run past).coordinator.latched = some f)
    (post : List (Move α β)) :
    let w : World α β := (created id checked timer).run past
    let v : World α β := w.run post
    v.coordinator.latched = some f ∧
      (∀ q, q.Reports → v.issue q = ⟨v.coordinator, v.calls ++ [⟨q, .ended (.failed f)⟩]⟩) ∧
      (∀ i op, (Event.asked i op ∈ w.trace post ∨ ∃ a, Event.answered i op a ∈ w.trace post) →
        op = .closeUnit) ∧
      (∀ a, ∃ order : List Nat, (v.run (order.map fun i ↦ .proceed i a)).Idle) ∧
      (v.Idle → (.stopping ≤ w.coordinator.phase ∨
          ∃ k q, q.Stops ∧ .issued k q ∈ w.trace post) →
        v.Released ((created id checked timer).trace (past ++ post))) ∧
      ∀ m k, v.StoppedBy m k → v.coordinator.cancelRegistration.1 = none →
        ∀ rest, ((v.step m).run rest).AllEnded timer.registrations.length := by
  intro w v
  have hcreated := orderly_created (α := α) (β := β) id checked timer
  have hw : Reaches (created id checked timer) w _ := reaches_run hcreated past
  have hpost : Reaches w v _ := reaches_run (hw.orderly hcreated) post
  have hv := hw.trans hpost
  obtain ⟨hstill, hle, hquiet⟩ := hw.quiet_of_rest hlatched hpost
  refine ⟨hstill, fun q hq ↦ issue_of_latched hstill hq, hquiet, fun a ↦ hv.exists_idle hstill a,
    fun hidle hstops ↦ ?_, fun m k hstops hgiven rest ↦ ?_⟩
  · have hstopping : .stopping ≤ v.coordinator.phase := by
      rcases hstops with hbefore | ⟨k, q, hq, hissued⟩
      · exact Phase.le_trans hbefore hle
      · exact hw.stopping_of_issued hlatched hpost hq hissued
    rw [trace_append]
    exact hv.released_of_idle hidle hstopping
  · have horderly := hv.orderly hcreated
    have hnext := Reaches.start.step horderly m
    have hmoved := hv.trans hnext
    have hrest := reaches_run (hmoved.orderly hcreated) rest
    have hended := (hv.concluding_of_stoppedBy hstops).2 hgiven
    exact (hv.trans hnext).allEnded_of_latched (hv.quiet_of_rest hstill hnext).1 hended hrest

/-- The tick fails, and the calls behind it go on. -/
def drainBehindFailedTick : List (Move Nat Nat) :=
  drainBehindTick ++ [.proceed 2 (.error (.unit "finish_bundle" "injected")), .proceed 3 (.ok []),
    .proceed 4 (.ok [])]

/-- A submit comes after the failed tick, and a stop after that. -/
theorem failStop_behind_tick :
    (plain.run drainBehindFailedTick).coordinator.latched =
        some (.unit "finish_bundle" "injected") ∧
      (∀ i op, Event.asked i op ∈ (plain.run drainBehindFailedTick).trace
        [.issue (.submit 3), .issue .stop, .proceed 6 (.ok [])] → op = .closeUnit) ∧
      (plain.run (drainBehindFailedTick ++
        [.issue (.submit 3), .issue .stop, .proceed 6 (.ok [])])).Released
          (plain.trace (drainBehindFailedTick ++
            [.issue (.submit 3), .issue .stop, .proceed 6 (.ok [])])) ∧
      ∀ rest, (((plain.run drainBehindFailedTick).step (.issue .stop)).run rest).AllEnded 0 := by
  have hlatched : (plain.run drainBehindFailedTick).coordinator.latched =
      some (.unit "finish_bundle" "injected") := by decide
  have hidle : ((plain.run drainBehindFailedTick).run
      [.issue (.submit 3), .issue .stop, .proceed 6 (.ok [])]).Idle := by decide
  have hstops : (plain.run drainBehindFailedTick).StoppedBy (.issue .stop) 5 :=
    ⟨by decide, by decide, by decide⟩
  obtain ⟨-, -, hquiet, -, hreleased, -⟩ := failStop_of_latched "plain" (Limits.check {})
    { kind := .manual false, now := 0 } drainBehindFailedTick hlatched
    [.issue (.submit 3), .issue .stop, .proceed 6 (.ok [])]
  obtain ⟨-, -, -, -, -, hended⟩ := failStop_of_latched "plain" (Limits.check {})
    { kind := .manual false, now := 0 } drainBehindFailedTick hlatched []
  rw [← run_append, List.append_nil] at hended
  refine ⟨hlatched, fun i op hmem ↦ hquiet i op (.inl hmem), ?_,
    hended (.issue .stop) 5 hstops (by decide)⟩
  rw [run_append]
  refine hreleased hidle (.inr ⟨6, .stop, .inl rfl, ?_⟩)
  exact List.mem_cons_of_mem _ (List.mem_cons_of_mem _ List.mem_cons_self)

end World

end Bundling
