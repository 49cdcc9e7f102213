import Mathlib.Data.List.Induction
import Bundling.Proofs.Lifecycle

/-!
The release of the unit. Once the unit has been asked to close, nothing is asked for any more. A
stop or a shutdown returns after the unit has been closed, unless it has found the coordinator
stopped already: the phase says so as soon as a release begins, and the one that has begun it may
still be waiting behind a close. So what a returned stop or shutdown promises holds exactly if no
other call has the release still before it.
-/

set_option autoImplicit false
set_option relaxedAutoImplicit false

namespace Bundling

namespace Standing

variable {α β : Type} {h new : History α β} {i : Nat} {op : Operation α β}

/-! ### After the unit has been asked to close -/

theorem closing_step {s : Standing α β} (hs : s.closing = true) (e : Event α β) :
    (s.step e).closing = true := by
  cases e with
  | issued | replied => exact hs
  | asked i op => cases op <;> first | exact hs | rfl
  | answered i op a => exact (answer_closing s op a).trans hs

theorem closing_append (hclosing : (after h).closing = true) (new : History α β) :
    (after (h ++ new)).closing = true := by
  induction new using List.reverseRecOn with
  | nil => simpa using hclosing
  | append_singleton new e ih =>
    rw [← List.append_assoc, after_snoc]
    exact closing_step ih e

/-- Once the unit has been asked to close, nothing is asked for any more. -/
theorem Lawful.asked_not_mem (hlawful : Lawful (h ++ new)) (hclosing : (after h).closing = true) :
    .asked i op ∉ new := by
  intro hasked
  obtain ⟨before, rest, rfl⟩ := List.append_of_mem hasked
  have hpermits := hlawful (h ++ before) (.asked i op) rest (by simp)
  exact absurd ((closing_append hclosing before).symm.trans hpermits.2.1) (by simp)

theorem asked_of_underway (hunderway : (after h).underway = some (i, op)) : .asked i op ∈ h := by
  induction h using List.reverseRecOn with
  | nil => cases hunderway
  | append_singleton h e ih =>
    rw [after_snoc] at hunderway
    cases e with
    | issued | replied => exact List.mem_append_left _ (ih hunderway)
    | asked j op' =>
      cases (ask_underway _ j op').symm.trans hunderway
      exact List.mem_append_right _ (List.mem_singleton_self _)
    | answered j op' a => cases (answer_underway _ op' a).symm.trans hunderway

theorem closing_of_asked (hasked : .asked i .closeUnit ∈ h) : (after h).closing = true := by
  obtain ⟨before, rest, rfl⟩ := List.append_of_mem hasked
  rw [List.append_cons]
  refine closing_append ?_ rest
  rw [after_snoc]
  rfl

theorem exists_asked_of_closing (hclosing : (after h).closing = true) :
    ∃ i, .asked i .closeUnit ∈ h := by
  induction h using List.reverseRecOn with
  | nil => cases hclosing
  | append_singleton h e ih =>
    rw [after_snoc] at hclosing
    have hbefore (hclosing : (after h).closing = true) : ∃ i, .asked i .closeUnit ∈ h ++ [e] := by
      obtain ⟨i, hi⟩ := ih hclosing
      exact ⟨i, List.mem_append_left _ hi⟩
    cases e with
    | issued | replied => exact hbefore hclosing
    | asked j op' =>
      cases op' with
      | closeUnit => exact ⟨j, by simp⟩
      | _ => exact hbefore hclosing
    | answered j op' a => exact hbefore ((answer_closing _ op' a).symm.trans hclosing)

/-- What has been asked for has been answered, or is under way. -/
theorem Lawful.answered_or_underway (hlawful : Lawful h) (hasked : .asked i op ∈ h) :
    (∃ a, .answered i op a ∈ h) ∨ (after h).underway = some (i, op) := by
  induction h using List.reverseRecOn with
  | nil => cases hasked
  | append_singleton h e ih =>
    have hpermits := hlawful h e [] rfl
    rw [after_snoc]
    rcases List.mem_append.mp hasked with hbefore | hlast
    · rcases ih hlawful.of_append hbefore with ⟨a, ha⟩ | hunderway
      · exact .inl ⟨a, List.mem_append_left _ ha⟩
      · cases e with
        | issued | replied => exact .inr hunderway
        | asked j op' => exact absurd (hunderway.symm.trans hpermits.1) (by simp)
        | answered j op' a =>
          cases (hunderway.symm.trans hpermits)
          exact .inl ⟨a, List.mem_append_right _ (List.mem_singleton_self _)⟩
    · cases List.mem_singleton.mp hlast
      exact .inr (ask_underway _ i op)

/-- Once the unit has closed, nothing is under way any more. -/
theorem Lawful.closed_of_answered (hlawful : Lawful h) {a : Except Failure (List β)}
    (hanswered : .answered i .closeUnit a ∈ h) :
    (after h).closing = true ∧ (after h).underway = none := by
  induction h using List.reverseRecOn with
  | nil => cases hanswered
  | append_singleton h e ih =>
    have hpermits := hlawful h e [] rfl
    rw [after_snoc]
    rcases List.mem_append.mp hanswered with hbefore | hlast
    · obtain ⟨hclosing, hunderway⟩ := ih hlawful.of_append hbefore
      refine ⟨closing_step hclosing e, ?_⟩
      cases e with
      | issued | replied => exact hunderway
      | asked => exact absurd (hclosing.symm.trans hpermits.2.1) (by simp)
      | answered j op' a' => exact absurd (hunderway.symm.trans hpermits) (by simp)
    · cases List.mem_singleton.mp hlast
      have hasked := asked_of_underway hpermits
      exact ⟨closing_step (closing_of_asked hasked) _, answer_underway _ _ a⟩

end Standing

namespace Coordinator

variable {α β : Type} {c d : Coordinator} {i : Nat} {q : Request α} {s : Stage α β}
  {a : Except Failure (List β)} {out : Coordinator × Stage α β} {r : Reply}

/-! ### The turns in which the unit stays -/

theorem Departure.hasUnit {f : Option Failure} (h : Departure i f c out)
    (hunit : out.1.hasUnit = true) : c.hasUnit = true := by
  cases h with
  | already => exact hunit
  | waits => exact (ceased_hasUnit c).symm.trans hunit
  | takes => cases hunit
  | settles => exact (ceased_hasUnit c).symm.trans hunit

theorem Parting.hasUnit {result : Except Failure Bool} (h : Parting i q c result out)
    (hunit : out.1.hasUnit = true) : c.hasUnit = true := by
  cases h with
  | forwards | answers | fails | latches => exact hunit
  | departs _ _ _ _ _ _ h => exact h.hasUnit hunit

theorem Emission.hasUnit {close : Close} {total : Nat} {results : List β}
    (h : Emission i q c close total results out) (hunit : out.1.hasUnit = true) :
    c.hasUnit = true := by
  cases h with
  | more | lets => exact hunit
  | last _ _ h => exact h.hasUnit hunit

/-- A unit that is there after a turn was there before it, and the turn was no release's. -/
theorem Turn.hasUnit (h : Turn i q c s a out) (hfits : c.Fits s)
    (hunit : out.1.hasUnit = true) : c.hasUnit = true ∧ s.isRelease = false := by
  cases h with
  | idles _ _ _ _ _ _ h | fillsNone _ _ _ _ _ h => exact ⟨h.hasUnit hunit, rfl⟩
  | finishesNot _ _ _ h | drainsNot _ _ _ h => exact ⟨h.hasUnit hunit, rfl⟩
  | emitsNot _ _ _ _ _ _ h => exact ⟨h.hasUnit hunit, rfl⟩
  | releasesNot _ _ _ _ h | released _ _ _ _ h => exact ⟨h.hasUnit hunit, rfl⟩
  | drained _ _ _ h => exact ⟨h.hasUnit hunit, rfl⟩
  | emitted _ _ _ _ _ _ h => exact ⟨h.hasUnit hunit, rfl⟩
  | takesUnit => cases hunit
  | findsNoUnit _ _ _ _ hgone => exact absurd (hgone.symm.trans hunit) (by simp)
  | settles => exact absurd (hfits.symm.trans hunit) (by simp)
  | _ => exact ⟨hunit, rfl⟩

theorem Departure.stopped_of_ended {f : Option Failure} (h : Departure i f c out)
    (hunit : out.1.hasUnit = true) (hended : out.2 = .ended r) : c.phase = .stopped := by
  cases h with
  | already hphase => exact hphase
  | waits | takes => cases hended
  | settles _ _ _ _ hgone =>
    exact absurd (hgone.symm.trans ((ceased_hasUnit c).symm.trans hunit)) (by simp)

/-- A stop that returns with the unit still there has found the coordinator stopped. -/
theorem Turn.stopped_of_ended (h : Turn i .stop c s a out) (hsuits : Suits .stop s)
    (hfits : c.Fits s) (hunit : out.1.hasUnit = true) (hended : out.2 = .ended r) :
    c.phase = .stopped := by
  have hrelease := (h.hasUnit hfits hunit).2
  cases h.course with
  | remains _ hproceeds =>
    have hasks := hproceeds.asks rfl hsuits hrelease
    rw [hended] at hasks
    cases hasks
  | enrolls hs =>
    subst hs
    cases hsuits
  | departs _ _ _ _ hsame h => exact hsame.phase.symm.trans (h.stopped_of_ended hunit hended)

end Coordinator

namespace World

variable {α β : Type} {w w' : World α β} {t new : History α β}
  {id : String} {checked : Checked} {timer : Timer}

/-! ### Stops and shutdowns that return -/

/-- A shutdown is about the release from the start. -/
theorem Reaches.isRelease_of_shutdown (h : Reaches (created id checked timer) w t) {i : Nat}
    {s : Stage α β} (hcall : w.calls[i]? = some ⟨.shutdown, s⟩) :
    s.isRelease = true ∨ s.reply?.isSome = true := by
  induction h generalizing i s with
  | start => cases hcall
  | advance _ hadvance ih =>
    cases hadvance with
    | declines q r =>
      rcases call_append hcall with hcall | ⟨-, heq⟩
      · exact ih hcall
      · cases heq
        exact .inr rfl
    | joins q d s' hjoins =>
      rcases call_append hcall with hcall | ⟨-, heq⟩
      · exact ih hcall
      · cases heq
        cases hjoins with
        | asks _ hshutdown => exact absurd rfl hshutdown
        | stops hq => cases hq
        | shutsDown => exact .inl rfl
    | turns j other answer out hother hlock hturn =>
      rcases call_set hcall with ⟨rfl, heq⟩ | ⟨-, hcall⟩
      · obtain ⟨q, s'⟩ := other
        cases heq
        rcases ih hother with hrelease | hended
        · exact hturn.isRelease hrelease
        · rw [hturn.reply?_eq_none] at hended
          cases hended
      · exact ih hcall
    | retimes => exact ih hcall

/-- A call waits for the lock to release the unit. -/
def AwaitsRelease (w : World α β) : Prop := ∃ j r, w.stage? j = some (.queuedToRelease r)

theorem AwaitsRelease.append (h : w.AwaitsRelease) (c : Coordinator) (call : Call α β) :
    (⟨c, w.calls ++ [call]⟩ : World α β).AwaitsRelease := by
  obtain ⟨j, r, hj⟩ := h
  exact ⟨j, r, stage?_append_of_some hj c call⟩

theorem AwaitsRelease.set (h : w.AwaitsRelease) {i : Nat} {call : Call α β}
    (hcall : w.calls[i]? = some call) (hrelease : call.stage.isRelease = false) (c : Coordinator)
    (new : Call α β) : (⟨c, w.calls.set i new⟩ : World α β).AwaitsRelease := by
  obtain ⟨j, r, hj⟩ := h
  refine ⟨j, r, ?_⟩
  rw [stage?_set hcall, if_neg, hj]
  rintro rfl
  rw [stage?_of_call hcall] at hj
  cases hj' : call.stage <;> simp_all [Stage.isRelease]

/-- With the unit still there, a coordinator that has stopped, or has answered a stop or a shutdown,
has a call that waits to release the unit. -/
theorem Reaches.awaitsRelease (h : Reaches (created id checked timer) w t)
    (hunit : w.coordinator.hasUnit = true)
    (hcause : w.coordinator.phase = .stopped ∨ ∃ k q r, q.Stops ∧ .replied k q r ∈ t) :
    w.AwaitsRelease := by
  have hcreated := orderly_created (α := α) (β := β) id checked timer
  induction h with
  | start =>
    rcases hcause with hphase | ⟨k, q, r, -, hreplied⟩
    · cases hphase
    · cases hreplied
  | @advance w w' t new hreaches hadvance ih =>
    -- what counts is a reply in this advance, and the phase before it
    have hbefore (hunit : w.coordinator.hasUnit = true)
        (hphase : w'.coordinator.phase = .stopped → w.coordinator.phase = .stopped)
        (hnew : ∀ k q r, q.Stops → .replied k q r ∈ new → w.coordinator.phase = .stopped) :
        w.AwaitsRelease := by
      rcases hcause with hstopped | ⟨k, q, r, hq, hreplied⟩
      · exact ih hunit (.inl (hphase hstopped))
      · rcases List.mem_append.mp hreplied with hold | hlast
        · exact ih hunit (.inr ⟨k, q, r, hq, hold⟩)
        · exact ih hunit (.inl (hnew k q r hq hlast))
    cases hadvance with
    | declines q r hdeclines =>
      refine (hbefore hunit (fun h ↦ h) fun k q' r' hq hreplied ↦ ?_).append _ _
      simp only [List.mem_cons, List.not_mem_nil, or_false, reduceCtorEq, false_or] at hreplied
      cases hreplied
      exact hdeclines.stopped hq
    | joins q d s hjoins =>
      cases hjoins with
      | asks => exact (hbefore hunit (fun h ↦ h) (by simp)).append _ _
      | stops => exact (hbefore hunit (fun h ↦ by cases h) (by simp)).append _ _
      | shutsDown => exact ⟨w.calls.length, _, by rw [stage?_append, if_pos rfl]⟩
    | retimes _ => exact hbefore hunit (fun h ↦ h) (by simp)
    | turns i call answer out hcall hlock hturn =>
      have hsuits := (hreaches.orderly hcreated).suits call (List.mem_of_getElem? hcall)
      have hfits := hreaches.conducts.fits
      rw [acting_of_holder hlock hcall] at hfits
      obtain ⟨hthere, hrelease⟩ := hturn.hasUnit hfits hunit
      have hnew (k : Nat) (q : Request α) (r : Reply) (hq : q.Stops)
          (hreplied : .replied k q r ∈ Event.left i call.stage answer ++
            Event.reached i call.request out.2) : w.coordinator.phase = .stopped := by
        obtain ⟨rfl, rfl, hended⟩ := Event.eq_of_replied_mem_turn hreplied
        obtain ⟨q, s⟩ := call
        rcases hq with rfl | rfl
        · exact hturn.stopped_of_ended hsuits hfits hunit hended
        · rcases hreaches.isRelease_of_shutdown hcall with hreleases | hgone
          · exact absurd (hrelease.symm.trans hreleases) (by simp)
          · simp [hturn.reply?_eq_none] at hgone
      have hcourse := hturn.course
      cases hcourse with
      | remains hsame =>
        exact (hbefore hthere (fun h ↦ hsame.phase.symm.trans h) hnew).set hcall hrelease _ _
      | enrolls _ henrolled =>
        refine (hbefore hthere (fun h ↦ ?_) hnew).set hcall hrelease _ _
        cases henrolled.phase.symm.trans h
      | departs d f hq hs hsame hdeparture =>
        cases hdeparture with
        | already hphase =>
          exact (hbefore hthere (fun _ ↦ hsame.phase.symm.trans hphase) hnew).set hcall hrelease _ _
        | waits => exact ⟨i, _, by rw [stage?_set hcall, if_pos rfl]⟩
        | takes => cases hunit
        | settles _ _ _ _ hgone =>
          exact absurd (hgone.symm.trans ((Coordinator.ceased_hasUnit d).symm.trans hunit))
            (by simp)

/-- A call has still to release the unit, or the unit is being closed. -/
def Releasing (w : World α β) : Prop :=
  w.coordinator.hasUnit = true ∧ w.AwaitsRelease ∨ ∃ j r, w.stage? j = some (.closingUnit r)

/-- Once a stop or a shutdown has returned, the unit has been closed and nothing is asked for any
more, exactly if no call is about the release any more. -/
theorem released_iff_of_replied (id : String) (checked : Checked) (timer : Timer)
    (moves : List (Move α β)) {k : Nat} {q : Request α} {r : Reply} (hq : q.Stops)
    (hreplied : .replied k q r ∈ (created id checked timer : World α β).trace moves) :
    let w : World α β := (created id checked timer).run moves
    ((∃ i a, .answered i .closeUnit a ∈ (created id checked timer : World α β).trace moves) ∧
        ∀ rest i op, .asked i op ∉ w.trace rest) ↔ ¬ w.Releasing := by
  intro w
  have hcreated := orderly_created (α := α) (β := β) id checked timer
  have hreaches : Reaches (created id checked timer) w _ := reaches_run hcreated moves
  have hconduct := hreaches.conducts.conduct
  have horderly := hreaches.orderly hcreated
  constructor
  · rintro ⟨⟨i, a, hanswered⟩, -⟩ hreleasing
    obtain ⟨hclosing, hnone⟩ := hconduct.lawful.closed_of_answered hanswered
    rcases hreleasing with ⟨hunit, -⟩ | ⟨j, r', hj⟩
    · rw [hconduct.closing, hunit] at hclosing
      cases hclosing
    · obtain ⟨call, hcall, hstage⟩ := Option.map_eq_some_iff.mp hj
      have hop : call.stage.operation? = some .closeUnit := by rw [hstage]; rfl
      have hunderway := hconduct.underway
      rw [horderly.acting_of_operation hcall (by rw [hop]; rfl), hnone, hop] at hunderway
      cases hunderway
  · intro hnot
    have hgone : w.coordinator.hasUnit = false := by
      rw [Bool.eq_false_iff]
      intro hunit
      exact hnot (.inl ⟨hunit, hreaches.awaitsRelease hunit (.inr ⟨k, q, r, hq, hreplied⟩)⟩)
    have hclosing := hconduct.closing
    rw [hgone] at hclosing
    obtain ⟨i, hasked⟩ := Standing.exists_asked_of_closing hclosing
    refine ⟨⟨i, ?_⟩, fun rest j op ↦ ?_⟩
    · rcases hconduct.lawful.answered_or_underway hasked with hanswered | hunderway
      · exact hanswered
      · rw [hconduct.underway] at hunderway
        obtain ⟨op, hop, heq⟩ := Option.map_eq_some_iff.mp hunderway
        cases heq
        refine absurd (.inr ⟨w.acting.1, ?_⟩) hnot
        rw [stage?_of_call (calls_acting (by rw [hop]; rfl))]
        cases hstage : w.acting.2.stage <;> simp_all [Stage.operation?]
    · have hrest := (hreaches.trans (reaches_run horderly rest)).conducts.conduct.lawful
      exact hrest.asked_not_mem hclosing

/-- A shutdown waits behind a close, and a second one finds the coordinator stopped. -/
def shutdownTwice : List (Move Nat Nat) :=
  [.issue .start, .proceed 0 (.ok []), .issue (.submit 1), .proceed 1 (.ok []),
    .proceed 1 (.ok []), .issue .endInput, .issue .shutdown, .issue .shutdown]

theorem replied_shutdownTwice : .replied 4 .shutdown .done ∈ plain.trace shutdownTwice := by
  refine List.mem_of_getLast? (l := plain.trace shutdownTwice) ?_
  rfl

theorem releasing_shutdownTwice :
    .replied 4 .shutdown .done ∈ plain.trace shutdownTwice ∧
      (plain.run shutdownTwice).Releasing ∧
      ¬ ((∃ i a, .answered i .closeUnit a ∈ plain.trace shutdownTwice) ∧
        ∀ rest i op, .asked i op ∉ (plain.run shutdownTwice).trace rest) := by
  have hreleasing : (plain.run shutdownTwice).Releasing := .inl ⟨rfl, 3, _, rfl⟩
  have hiff := released_iff_of_replied "plain" (Limits.check {}) { kind := .manual false, now := 0 }
    shutdownTwice (.inr rfl) replied_shutdownTwice
  exact ⟨replied_shutdownTwice, hreleasing, fun hreleased ↦ hiff.mp hreleased hreleasing⟩

/-- The second shutdown returns, and then the close goes on to drain the unit. -/
theorem not_released_of_replied :
    ¬ ∀ (moves : List (Move Nat Nat)) (k : Nat) (q : Request Nat) (r : Reply), q.Stops →
      .replied k q r ∈ plain.trace moves →
        (∃ i a, .answered i .closeUnit a ∈ plain.trace moves) ∧
          ∀ rest i op, .asked i op ∉ (plain.run moves).trace rest := by
  intro h
  refine (h shutdownTwice 4 .shutdown .done (.inr rfl) replied_shutdownTwice).2
    [.proceed 2 (.ok [])] 2 .drainResults ?_
  refine List.mem_of_getLast? (l := (plain.run shutdownTwice).trace [.proceed 2 (.ok [])]) ?_
  rfl

end World

end Bundling
