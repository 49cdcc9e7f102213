import Bundling.Proofs.Lifecycle

/-!
The failure of a timer tick. A tick that fails leaves its failure behind for the calls that come
after it; no bundle is open then, and none is opened any more. A submit or a watermark that has
waited for the lock in the meantime looks for a failure once more, a barrier or an end of input does
not. So every call that returns later is told of the failure, except exactly the drains that were
made before it.
-/

set_option autoImplicit false
set_option relaxedAutoImplicit false

namespace Bundling

namespace Request

variable {α : Type}

/-- A request whose call is to be told of a failure that a tick has left behind. -/
def Reports (q : Request α) : Prop := (∃ x, q = .submit x) ∨ (∃ w, q = .watermark w) ∨ q.Drains

end Request

namespace Stage

variable {α β : Type}

/-- A stage of a call at work on a bundle or on a watermark. -/
def isWork : Stage α β → Bool
  | queued | opening | queuedToRelease _ | closingUnit _ | ended _ => false
  | _ => true

theorem isWork_of_rest {s : Stage α β} (h : s.operation? = none) : s.isWork = false := by
  cases s <;> first | rfl | cases h

end Stage

namespace Coordinator

variable {α β : Type} {c d : Coordinator} {i : Nat} {q : Request α} {s : Stage α β}
  {a : Except Failure (List β)} {out : Coordinator × Stage α β} {f : Failure}

/-! ### What latches a failure -/

/-- A close that ends well latches no failure. -/
theorem Parting.latched {closed : Bool} (hout : Parting i q c (.ok closed) out) :
    out.1.latched = c.latched := by
  cases hout with
  | forwards | answers => rfl
  | departs _ _ _ _ _ _ hdeparts =>
    cases hdeparts with
    | already => rfl
    | waits | takes | settles => exact ceased_latched _

theorem Emission.latched {close : Close} {total : Nat} {results : List β}
    (hout : Emission i q c close total results out) : out.1.latched = c.latched := by
  cases hout with
  | more | lets => rfl
  | last _ _ hparts => exact hparts.latched

theorem Parting.latched_of_some {result : Except Failure Bool} (h : Parting i q c result out)
    (hlatched : c.latched = some f) : out.1.latched = some f := by
  cases h with
  | forwards | answers | fails => exact hlatched
  | latches => simp [leave, latch, unlock, hlatched]
  | departs _ _ _ _ _ _ h =>
    cases h with
    | already => exact hlatched
    | waits | takes | settles => exact (ceased_latched _).trans hlatched

/-- A failure that is latched stays, whatever fails later. -/
theorem Turn.latched_of_some (h : Turn i q c s a out) (hlatched : c.latched = some f) :
    out.1.latched = some f := by
  cases h with
  | idles _ _ _ _ _ _ h | fillsNone _ _ _ _ _ h => exact h.latched_of_some hlatched
  | finishesNot _ _ _ h | drainsNot _ _ _ h => exact h.latched_of_some hlatched
  | emitsNot _ _ _ _ _ _ h => exact h.latched_of_some hlatched
  | releasesNot _ _ _ _ h | released _ _ _ _ h => exact h.latched_of_some hlatched
  | drained _ _ _ h => exact h.latched.trans hlatched
  | emitted _ _ _ _ _ _ h => exact h.latched.trans hlatched
  | _ => exact hlatched

/-! ### Where a failure is latched -/

/-- No bundle is open, and this stage is not at work on one. -/
structure AtRest (c : Coordinator) (s : Stage α β) : Prop where
  isOpen : c.slot.isOpen = false
  isWork : s.isWork = false

theorem Departure.atRest {closeFailure : Option Failure} (h : Departure i closeFailure c out)
    (hopen : c.slot.isOpen = false) : AtRest out.1 out.2 := by
  cases h with
  | already => exact ⟨hopen, rfl⟩
  | waits | takes => exact ⟨(congrArg Slot.isOpen (ceased_slot c)).trans hopen, rfl⟩
  | settles => exact ⟨rfl, rfl⟩

theorem Parting.atRest {result : Except Failure Bool} (h : Parting i q c result out)
    (hopen : c.slot.isOpen = false) (hforwards : ∀ w, q ≠ .watermark w) :
    AtRest out.1 out.2 := by
  cases h with
  | forwards w _ hq => exact absurd hq (hforwards w)
  | answers | fails | latches => exact ⟨hopen, rfl⟩
  | departs _ _ _ _ _ _ h => exact h.atRest hopen

theorem Parting.atRest_of_failed (h : Parting i q c (.error f) out)
    (hopen : c.slot.isOpen = false) : AtRest out.1 out.2 := by
  cases h with
  | fails | latches => exact ⟨hopen, rfl⟩
  | departs _ _ _ _ _ _ h => exact h.atRest hopen

/-- A turn keeps it so that with a failure latched no bundle is open, and no call is at work. -/
theorem Turn.atRest (h : Turn i q c s a out) (hfits : c.Fits s)
    (hrest : c.latched ≠ none → AtRest c s) (hlatched : out.1.latched ≠ none) :
    AtRest out.1 out.2 := by
  -- a call that was at work has found no failure, so it has latched its own
  have hwork (hs : s.isWork = true) : out.1.latched ≠ c.latched := by
    intro hsame
    rw [hsame] at hlatched
    exact absurd ((hrest hlatched).isWork.symm.trans hs) (by simp)
  have hadmitted (hnone : c.latched = none) : out.1.latched ≠ c.latched := by
    rw [hnone]
    exact hlatched
  cases h with
  | continues _ _ hq hadm | starts _ _ hq hadm =>
    subst hq
    exact absurd rfl (hadmitted hadm.1)
  | holds _ _ hq hadm | forwards _ _ hq hadm =>
    subst hq
    exact absurd rfl (hadmitted hadm.1)
  | closes _ _ _ _ _ hopen =>
    exact absurd ((hrest hlatched).isOpen.symm.trans hopen) (by simp)
  | idles _ _ _ _ _ hmark h =>
    have hsame := h.latched
    refine h.atRest (hrest (hsame ▸ hlatched)).isOpen fun w hq ↦ ?_
    have hadm := hmark w hq
    subst hq
    exact absurd hsame (hadmitted hadm.1)
  | startsNot | started | processesNot | accepts | fills | finished | forwardsNot | forwarded =>
    exact absurd rfl (hwork rfl)
  | fillsNone _ _ _ _ _ h => exact absurd h.latched (hwork rfl)
  | released _ _ _ _ h => exact absurd h.latched (hwork rfl)
  | drained _ _ _ h => exact absurd h.latched (hwork rfl)
  | emitted _ _ _ _ _ _ h => exact absurd h.latched (hwork rfl)
  | finishesNot _ _ _ h | drainsNot _ _ _ h => exact h.atRest_of_failed hfits.2.2
  | emitsNot _ _ _ _ _ _ h => exact h.atRest_of_failed hfits.2.2
  | releasesNot _ _ _ _ h => exact h.atRest_of_failed hfits.2.2
  | findsNoUnit | settles => exact ⟨rfl, rfl⟩
  | _ => exact ⟨(hrest hlatched).isOpen, rfl⟩

/-! ### Being told -/

/-- A call that reports failures is turned away at once where one is latched. -/
theorem early_of_latched (hq : q.Reports) (hlatched : c.latched = some f) :
    c.early q = some (.failed f) := by
  rcases hq with ⟨x, rfl⟩ | ⟨w, rfl⟩ | rfl | ⟨id, rfl⟩ <;>
    simp [early, running, healthy, hlatched]

theorem Declines.failed_of_latched {r : Reply} (h : Declines q c r) (hq : q.Reports)
    (hlatched : c.latched = some f) : r = .failed f := by
  rcases h with hearly | ⟨rfl, -⟩
  · exact (Option.some.inj ((early_of_latched hq hlatched).symm.trans hearly)).symm
  · rcases hq with ⟨x, hq⟩ | ⟨w, hq⟩ | hq | ⟨id, hq⟩ <;> cases hq

theorem Joins.not_reports_of_latched (h : Joins q c d s) (hlatched : c.latched = some f) :
    ¬ q.Reports := by
  intro hq
  cases h with
  | asks _ _ hearly => cases (early_of_latched hq hlatched).symm.trans hearly
  | stops hstop | shutsDown hstop =>
    subst hstop
    rcases hq with ⟨x, hq⟩ | ⟨w, hq⟩ | hq | ⟨id, hq⟩ <;> cases hq

/-- With a failure latched, a call that has waited for the lock ends at once: a drain has nothing to
close, any other call is told of the failure. -/
theorem Turn.told (h : Turn i q c .queued a out) (hq : q.Reports) (hlatched : c.latched = some f)
    (hopen : c.slot.isOpen = false) :
    q.Drains ∧ out.2 = .ended .done ∨ ¬ q.Drains ∧ out.2 = .ended (.failed f) := by
  have hadmitted : (∃ x, q = .submit x) ∨ (∃ w, q = .watermark w) → ¬ q.Admitted c := by
    rintro (⟨x, rfl⟩ | ⟨w, rfl⟩) hadm <;> cases hlatched.symm.trans hadm.1
  cases h with
  | refused _ f' hrefused =>
    right
    rcases hq with ⟨x, rfl⟩ | ⟨w, rfl⟩ | rfl | ⟨id, rfl⟩
    · simp_all [Request.refusal?, Request.refusalTo?, running, Request.Drains, leave]
    · simp_all [Request.refusal?, Request.refusalTo?, running, Request.Drains, leave]
    · cases hrefused
    · cases hrefused
  | passes _ hpass | opens _ hpass =>
    rcases hq with ⟨x, rfl⟩ | ⟨w, rfl⟩ | rfl | ⟨id, rfl⟩ <;> cases hpass
  | continues _ x hsubmit hadm | starts _ x hsubmit hadm =>
    exact absurd hadm (hadmitted (.inl ⟨x, hsubmit⟩))
  | holds _ w hmark hadm | forwards _ w hmark hadm =>
    exact absurd hadm (hadmitted (.inr ⟨w, hmark⟩))
  | closes _ _ _ _ _ hclosed => exact absurd (hopen.symm.trans hclosed) (by simp)
  | idles _ t _ ht _ hmark h =>
    left
    have hdrains : q.Drains := by
      rcases hq with ⟨x, rfl⟩ | ⟨w, hw⟩ | hdrains
      · cases ht
      · exact absurd (hmark w hw) (hadmitted (.inr ⟨w, hw⟩))
      · exact hdrains
    refine ⟨hdrains, ?_⟩
    cases h with
    | forwards w _ hw => exact absurd (hmark w hw) (hadmitted (.inr ⟨w, hw⟩))
    | answers => rcases hdrains with rfl | ⟨id, rfl⟩ <;> rfl
    | departs _ _ _ _ hstop => rcases hdrains with rfl | ⟨id, rfl⟩ <;> cases hstop

/-- A tick whose collaborator fails ends there, and latches the failure. -/
theorem Turn.latched_of_tick (h : Turn i .tick c s (.error f) out) (hsuits : Suits .tick s)
    (hop : s.operation?.isSome = true) :
    s.isWork = true ∧ out.1.latched = c.latched.or (some f) := by
  have hparting (h : Parting i (.tick : Request α) c (.error f) out) :
      out.1.latched = c.latched.or (some f) := by
    cases h with
    | fails _ _ htick => exact absurd rfl htick
    | latches => rfl
    | departs _ _ _ _ hq => cases hq
  cases h with
  | finishesNot _ _ _ h | drainsNot _ _ _ h => exact ⟨rfl, hparting h⟩
  | emitsNot _ _ _ _ _ _ h => exact ⟨rfl, hparting h⟩
  | releasesNot _ _ _ _ h => exact ⟨rfl, hparting h⟩
  | opensNot | startsNot | processesNot | forwardsNot => cases hsuits
  | settles => rcases hsuits with hsuits | hsuits <;> cases hsuits
  | _ => cases hop

end Coordinator

namespace World

variable {α β : Type} {w v v' : World α β} {t u new : History α β}
  {id : String} {checked : Checked} {timer : Timer} {f : Failure} {made : Nat}

/-! ### Runs -/

theorem kept_atRest : Kept (fun _ _ _ ↦ True) fun c i (call : Call α β) t ↦
    c.Conducts i call.stage t ∧ (c.latched ≠ none → c.AtRest call.stage) where
  rest := fun hcall hother ⟨hconducts, hrest⟩ ↦ ⟨kept_conducts.rest hcall hother hconducts,
    fun hlatched ↦ ⟨(hrest hlatched).isOpen, Stage.isWork_of_rest hother⟩⟩
  turns := fun _ _ hturn ⟨hconducts, hrest⟩ ↦
    ⟨hturn.conducts hconducts, hturn.atRest hconducts.fits hrest⟩
  joins := by
    intro c i n q d s call t hjoins ⟨hconducts, hrest⟩
    refine ⟨kept_conducts.joins hjoins hconducts, fun hlatched ↦ ?_⟩
    have hbefore := hrest (hjoins.latched ▸ hlatched)
    exact ⟨(congrArg Slot.isOpen hjoins.slot).trans hbefore.isOpen, hbefore.isWork⟩
  declines := fun hdeclines ⟨hconducts, hrest⟩ ↦
    ⟨kept_conducts.declines hdeclines hconducts, hrest⟩
  retimes := fun ⟨hconducts, hrest⟩ ↦
    ⟨kept_conducts.retimes hconducts, fun hlatched ↦ ⟨(hrest hlatched).isOpen,
      (hrest hlatched).isWork⟩⟩

theorem Reaches.atRest (h : Reaches (created id checked timer) w t)
    (hlatched : w.coordinator.latched ≠ none) : w.coordinator.AtRest w.acting.2.stage :=
  (kept_atRest.reaches (orderly_created id checked timer) (fun _ _ _ ↦ trivial)
    ⟨conducts_created id checked timer, fun hlatched ↦ absurd rfl hlatched⟩ h).2 hlatched

/-- With a failure latched, a call that reports failures and has not ended waits for the lock. -/
theorem Reaches.queued_of_latched (h : Reaches (created id checked timer) w t)
    (hlatched : w.coordinator.latched ≠ none) {j : Nat} {call : Call α β}
    (hcall : w.calls[j]? = some call) (hq : call.request.Reports)
    (hreply : call.stage.reply? = none) : call.stage = .queued := by
  have horderly := h.orderly (orderly_created id checked timer)
  have hsuits := horderly.suits call (List.mem_of_getElem? hcall)
  have hwork : call.stage.isWork = false := by
    cases hop : call.stage.operation? with
    | none => exact Stage.isWork_of_rest hop
    | some op =>
      have hrest := h.atRest hlatched
      rw [horderly.acting_of_operation hcall (by rw [hop]; rfl)] at hrest
      exact hrest.isWork
  have hnot : call.request ≠ .start ∧ ¬ (call.request = .stop ∨ call.request = .shutdown) := by
    rcases hq with ⟨x, hx⟩ | ⟨w, hw⟩ | hend | ⟨id, hid⟩ <;> simp [*]
  cases hs : call.stage with
  | queued => rfl
  | opening => rw [hs] at hsuits; exact absurd hsuits hnot.1
  | queuedToRelease r => rw [hs] at hsuits; exact absurd hsuits hnot.2
  | closingUnit r => rw [hs] at hsuits; exact absurd hsuits hnot.2
  | ended r => rw [hs] at hreply; cases hreply
  | _ => rw [hs] at hwork; cases hwork

/-- This failure is latched, and the calls made since, where they report failures, have been told of
it at once. -/
structure Reporting (f : Failure) (made : Nat) (w : World α β) : Prop where
  latched : w.coordinator.latched = some f
  told : ∀ j call, w.calls[j]? = some call → made ≤ j → call.request.Reports →
    call.stage = .ended (.failed f)

/-- What a call replies that reports failures, where this one was latched after so many calls. -/
def Tells (f : Failure) (made j : Nat) (q : Request α) (r : Reply) : Prop :=
  (q.Drains ∧ j < made) ∧ r = .done ∨ ¬ (q.Drains ∧ j < made) ∧ r = .failed f

theorem Reaches.reporting_of_advance (h : Reaches (created id checked timer) v t)
    (hreporting : v.Reporting f made) (hmade : made ≤ v.calls.length)
    (hadvance : Advance v v' new) :
    v'.Reporting f made ∧ made ≤ v'.calls.length ∧
      ∀ j q r, q.Reports → .replied j q r ∈ new → Tells f made j q r := by
  have hlatched := hreporting.latched
  cases hadvance with
  | retimes => exact ⟨⟨hlatched, hreporting.told⟩, hmade, fun j q r _ hreplied ↦ by cases hreplied⟩
  | declines q r hdeclines =>
    refine ⟨⟨hlatched, fun j call hcall hle hq ↦ ?_⟩, by simp; omega, fun j q' r' hq hreplied ↦ ?_⟩
    · rcases call_append hcall with hcall | ⟨-, rfl⟩
      · exact hreporting.told j call hcall hle hq
      · rw [hdeclines.failed_of_latched hq hlatched]
    · simp only [List.mem_cons, List.not_mem_nil, or_false, reduceCtorEq, false_or] at hreplied
      cases hreplied
      exact .inr ⟨fun hdrains ↦ by omega, hdeclines.failed_of_latched hq hlatched⟩
  | joins q d s hjoins =>
    refine ⟨⟨hjoins.latched.trans hlatched, fun j call hcall hle hq ↦ ?_⟩, by simp; omega, by simp⟩
    rcases call_append hcall with hcall | ⟨-, rfl⟩
    · exact hreporting.told j call hcall hle hq
    · exact absurd hq (hjoins.not_reports_of_latched hlatched)
  | turns i call answer out hcall hlock hturn =>
    have hreply := hturn.reply?_eq_none
    refine ⟨⟨hturn.latched_of_some hlatched, fun j other hother hle hq ↦ ?_⟩, by simpa using hmade,
      fun j q r hq hreplied ↦ ?_⟩
    · rcases call_set hother with ⟨rfl, rfl⟩ | ⟨-, hother⟩
      · -- a call that has been told has no turn any more
        rw [hreporting.told j call hcall hle hq] at hreply
        cases hreply
      · exact hreporting.told j other hother hle hq
    · obtain ⟨rfl, rfl, hended⟩ := Event.eq_of_replied_mem_turn hreplied
      have hlatched' : v.coordinator.latched ≠ none := by simp [hlatched]
      have hqueued := h.queued_of_latched hlatched' hcall hq hreply
      have hbefore : j < made := by
        rcases Nat.lt_or_ge j made with hlt | hge
        · exact hlt
        · cases hqueued.symm.trans (hreporting.told j call hcall hge hq)
      rw [hqueued] at hturn
      rcases hturn.told hq hlatched (h.atRest hlatched').isOpen with
        ⟨hdrains, hdone⟩ | ⟨hdrains, hfailed⟩
      · cases hended.symm.trans hdone
        exact .inl ⟨⟨hdrains, hbefore⟩, rfl⟩
      · cases hended.symm.trans hfailed
        exact .inr ⟨fun hboth ↦ hdrains hboth.1, rfl⟩

theorem Reaches.reporting_of_rest (h : Reaches (created id checked timer) w t)
    (hreporting : w.Reporting f made) (hmade : made ≤ w.calls.length) (hrest : Reaches w v u) :
    v.Reporting f made ∧ made ≤ v.calls.length ∧
      ∀ j q r, q.Reports → .replied j q r ∈ u → Tells f made j q r := by
  induction hrest with
  | start => exact ⟨hreporting, hmade, fun j q r _ hreplied ↦ by cases hreplied⟩
  | advance hbefore hadvance ih =>
    obtain ⟨hstill, hlength, htells⟩ := ih
    obtain ⟨hnext, hlength', hlast⟩ :=
      (h.trans hbefore).reporting_of_advance hstill hlength hadvance
    refine ⟨hnext, hlength', fun j q r hq hreplied ↦ ?_⟩
    rcases List.mem_append.mp hreplied with hold | hnew
    · exact htells j q r hq hold
    · exact hlast j q r hq hnew

/-- A tick at work has found no failure latched, so the one that it meets is latched. -/
theorem Reaches.latched_of_failed_tick (h : Reaches (created id checked timer) w t) {i : Nat}
    {s : Stage α β} (hcall : w.calls[i]? = some ⟨.tick, s⟩) (hop : s.operation?.isSome = true)
    (f : Failure) : (w.step (.proceed i (.error f))).coordinator.latched = some f := by
  have horderly := h.orderly (orderly_created id checked timer)
  have hsuits := horderly.suits _ (List.mem_of_getElem? hcall)
  obtain ⟨-, hturn⟩ := turn_stretch horderly (.error f) hcall
    (Bool.or_eq_true_iff.mpr (.inl hop))
  obtain ⟨hwork, hlatches⟩ := hturn.latched_of_tick hsuits hop
  have hnone : w.coordinator.latched = none := by
    by_contra hlatched
    have hrest := h.atRest hlatched
    rw [horderly.acting_of_operation hcall hop] at hrest
    cases hrest.isWork.symm.trans hwork
  rw [hnone] at hlatches
  simpa [World.step, World.proceed, hcall] using hlatches

/-- With a failure latched, a call that reports failures ends in its turn with the lock. -/
theorem Reaches.ended_of_granted (h : Reaches (created id checked timer) w t)
    (hlatched : w.coordinator.latched ≠ none) {j : Nat} {call : Call α β}
    (hcall : w.calls[j]? = some call) (hq : call.request.Reports) (hqueued : call.stage = .queued)
    (hholds : w.holdsLock j = true) (answer : Except Failure (List β)) :
    ∃ r, (w.proceed j answer).stage? j = some (.ended r) := by
  obtain ⟨f, hf⟩ := Option.ne_none_iff_exists'.mp hlatched
  have hrun : w.canRun j call.stage = true := by
    simp [canRun, hqueued, Stage.awaitsLock, hholds]
  obtain ⟨-, hturn⟩ := turn_stretch (h.orderly (orderly_created id checked timer)) answer hcall hrun
  rw [hqueued] at hturn
  have hstage : (w.proceed j answer).stage? j = some (w.stretch j call answer).2 := by
    unfold World.proceed
    rw [hcall]
    exact (stage?_set hcall _ _ _).trans (if_pos rfl)
  rcases hturn.told hq hf (h.atRest hlatched).isOpen with ⟨-, hended⟩ | ⟨-, hended⟩
  · exact ⟨_, hstage.trans (congrArg some hended)⟩
  · exact ⟨_, hstage.trans (congrArg some hended)⟩

/-- Once a tick's close has failed, its failure is latched, and every submit, watermark, barrier and
end of input that returns from then on returns this failure, except exactly the drains made before:
these return well. Each of them that has not returned waits for the lock, and returns when it has
been granted. -/
theorem told_of_failed_tick (id : String) (checked : Checked) (timer : Timer)
    (past : List (Move α β)) {i : Nat} {s : Stage α β}
    (hcall : ((created id checked timer : World α β).run past).calls[i]? = some ⟨.tick, s⟩)
    (hop : s.operation?.isSome = true) (f : Failure) :
    let w : World α β := ((created id checked timer).run past).step (.proceed i (.error f))
    w.coordinator.latched = some f ∧ ∀ post,
      (∀ j q r, q.Reports → .replied j q r ∈ w.trace post →
        (r = .failed f ↔ ¬ (q.Drains ∧ j < w.calls.length)) ∧
          (q.Drains ∧ j < w.calls.length → r = .done)) ∧
      ∀ j call, (w.run post).calls[j]? = some call → call.request.Reports →
        call.stage.reply? = none → call.stage = .queued ∧
          ((w.run post).holdsLock j = true → ∀ answer, ∃ r,
            ((w.run post).proceed j answer).stage? j = some (.ended r)) := by
  intro w
  have hcreated := orderly_created (α := α) (β := β) id checked timer
  have hpast := reaches_run hcreated past
  have hw : Reaches (created id checked timer) w _ :=
    hpast.step (hpast.orderly hcreated) (.proceed i (.error f))
  have hlatched : w.coordinator.latched = some f := hpast.latched_of_failed_tick hcall hop f
  have hreporting : w.Reporting f w.calls.length :=
    ⟨hlatched, fun j call hj hle _ ↦
      absurd (List.getElem?_eq_some_iff.mp hj).1 (Nat.not_lt.mpr hle)⟩
  refine ⟨hlatched, fun post ↦ ?_⟩
  have hpost := reaches_run (hw.orderly hcreated) post
  obtain ⟨hstill, -, htells⟩ := hw.reporting_of_rest hreporting (Nat.le_refl _) hpost
  have hv := hw.trans hpost
  have hvlatched : (w.run post).coordinator.latched ≠ none := by simp [hstill.latched]
  refine ⟨fun j q r hq hreplied ↦ ?_, fun j call hj hq hreply ↦ ?_⟩
  · rcases htells j q r hq hreplied with ⟨hdrains, rfl⟩ | ⟨hdrains, rfl⟩
    · exact ⟨by simp [hdrains], fun _ ↦ rfl⟩
    · exact ⟨by simp [hdrains], fun hboth ↦ absurd hboth hdrains⟩
  · have hqueued := hv.queued_of_latched hvlatched hj hq hreply
    exact ⟨hqueued, fun hholds answer ↦
      hv.ended_of_granted hvlatched hj hq hqueued hholds answer⟩

/-- An end of input and a submit wait behind the close of a tick. -/
def drainBehindTick : List (Move Nat Nat) :=
  [.issue .start, .proceed 0 (.ok []), .issue (.submit 1), .proceed 1 (.ok []),
    .proceed 1 (.ok []), .clock 100000, .issue .tick, .issue .endInput, .issue (.submit 2)]

theorem told_behind_tick :
    let f : Failure := .unit "finish_bundle" "injected"
    let w : World Nat Nat := (plain.run drainBehindTick).step (.proceed 2 (.error f))
    let post : List (Move Nat Nat) := [.proceed 3 (.ok []), .proceed 4 (.ok [])]
    (plain.run drainBehindTick).calls[2]? = some ⟨.tick, .finishing ⟨.bundleAge, 1⟩⟩ ∧
      .replied 3 .endInput .done ∈ w.trace post ∧
      .replied 4 (.submit 2) (.failed f) ∈ w.trace post ∧
      ∀ j q r, q.Reports → .replied j q r ∈ w.trace post →
        (r = .failed f ↔ ¬ (q.Drains ∧ j < 5)) := by
  intro f w post
  have hcall : (plain.run drainBehindTick).calls[2]? =
      some ⟨.tick, .finishing ⟨.bundleAge, 1⟩⟩ := by decide
  have hpost := (told_of_failed_tick "plain" (Limits.check {}) { kind := .manual false, now := 0 }
    drainBehindTick hcall rfl f).2 post
  exact ⟨hcall, List.mem_cons_self, List.mem_cons_of_mem _ List.mem_cons_self,
    fun j q r hq hreplied ↦ (hpost.1 j q r hq hreplied).1⟩

/-- The end of input returns well, though the tick it waited for has failed. -/
theorem not_told_of_failed_tick :
    ¬ ∀ (past post : List (Move Nat Nat)) (i : Nat) (s : Stage Nat Nat) (f : Failure),
      (plain.run past).calls[i]? = some ⟨.tick, s⟩ → s.operation?.isSome = true →
        ∀ (j : Nat) (q : Request Nat) (r : Reply), q.Reports →
          .replied j q r ∈ ((plain.run past).step (.proceed i (.error f))).trace post →
            r = .failed f := by
  intro h
  have hcall : (plain.run drainBehindTick).calls[2]? =
      some ⟨.tick, .finishing ⟨.bundleAge, 1⟩⟩ := by decide
  cases h drainBehindTick [.proceed 3 (.ok [])] 2 _ (.unit "finish_bundle" "injected") hcall rfl 3
    .endInput .done (.inr (.inr (.inl rfl))) List.mem_cons_self

end World

end Bundling
