import Bundling.Proofs.FailStop
import Bundling.Proofs.UnitRelease

/-!
After the unit has been closed. No later call finds a unit: nothing is asked for any more, no bundle
is opened, and slot, counters and latched failure stay as they are. Every call but a stop or a
shutdown comes through another check, or another early end, to the empty place of the unit, so what
it replies can be told from its request alone; a timer tick does nothing at all.
-/

set_option autoImplicit false
set_option relaxedAutoImplicit false

namespace Bundling

namespace Slot

theorem tryClose_of_shut {s : Slot} (h : s.isOpen = false) : s.tryClose.2 = s := by
  cases s
  cases h
  rfl

end Slot

/-- The failure of a submit or a watermark that finds no unit: the latched one, or else a refusal. -/
def Failure.Dismisses (latched : Option Failure) (f : Failure) : Prop :=
  latched = some f ∨ latched = none ∧ ∃ refusal, f = .refused refusal

theorem Coordinator.dismisses_of_running {c : Coordinator} {doing : String} {f : Failure}
    (h : c.running doing = .error f) : f.Dismisses c.latched := by
  unfold running at h
  cases hlatched : c.latched with
  | some g =>
    rw [hlatched] at h
    cases h
    exact .inl rfl
  | none =>
    rw [hlatched] at h
    dsimp only at h
    split at h
    · cases h
    · cases h
      exact .inr ⟨rfl, _, rfl⟩

namespace Request

variable {α : Type}

/-- What a call may reply once the unit has been closed, given the failure that is latched then. -/
def Dismissal (latched : Option Failure) : Request α → Reply → Prop
  | start, r => ∃ refusal, r = .failed (.refused refusal)
  | submit _, r | watermark _, r => ∃ f : Failure, f.Dismisses latched ∧ r = .failed f
  | finish _, r | checkAge, r => r = .flag false
  | endInput, r | barrier _, r => r = .done ∨ ∃ f, latched = some f ∧ r = .failed f
  | tick, r => r = .done
  | stop, _ | shutdown, _ => True

theorem dismisses_of_refusalTo {c : Coordinator} {doing : String} {f : Failure}
    (h : refusalTo? doing c = some f) : f.Dismisses c.latched := by
  unfold refusalTo? at h
  cases hrun : c.running doing with
  | error g =>
    rw [hrun] at h
    cases h
    exact Coordinator.dismisses_of_running hrun
  | ok u =>
    rw [hrun] at h
    dsimp only at h
    split at h
    · cases h
    · cases h
      exact .inr ⟨((c.running_eq_ok_iff doing).mp hrun).1, _, rfl⟩

/-- What turns a call away under the lock. -/
theorem dismissal_of_refusal {q : Request α} {c : Coordinator} {f : Failure}
    (h : q.refusal? c = some f) : q.Dismissal c.latched (.failed f) := by
  cases q with
  | start =>
    dsimp only [refusal?] at h
    split at h
    · cases h
      exact ⟨_, rfl⟩
    · split at h
      · cases h
      · cases h
        exact ⟨_, rfl⟩
  | submit x => exact ⟨f, dismisses_of_refusalTo h, rfl⟩
  | watermark w => exact ⟨f, dismisses_of_refusalTo h, rfl⟩
  | _ => cases h

end Request

namespace Coordinator

variable {α β : Type} {c d : Coordinator} {i : Nat} {q : Request α} {s : Stage α β}
  {a : Except Failure (List β)} {out : Coordinator × Stage α β}

/-- The unit is gone, and no bundle is open. -/
structure Emptied (c : Coordinator) : Prop where
  hasUnit : c.hasUnit = false
  isOpen : c.slot.isOpen = false

/-- What nothing changes any more on an emptied coordinator. -/
structure Keeps (c d : Coordinator) : Prop where
  hasUnit : d.hasUnit = c.hasUnit
  slot : d.slot = c.slot
  tally : d.tally = c.tally
  latched : d.latched = c.latched

theorem Keeps.refl (c : Coordinator) : Keeps c c := ⟨rfl, rfl, rfl, rfl⟩

theorem Keeps.trans {e : Coordinator} (h : Keeps c d) (hnext : Keeps d e) : Keeps c e where
  hasUnit := hnext.hasUnit.trans h.hasUnit
  slot := hnext.slot.trans h.slot
  tally := hnext.tally.trans h.tally
  latched := hnext.latched.trans h.latched

theorem keeps_ceased (c : Coordinator) : Keeps c c.ceased :=
  ⟨ceased_hasUnit c, ceased_slot c, ceased_tally c, ceased_latched c⟩

theorem Joins.keeps (h : Joins q c d s) : Keeps c d := by
  obtain ⟨_, _, _, _, hframe⟩ := h.frame
  rw [hframe]
  exact ⟨rfl, rfl, rfl, rfl⟩

/-- The coordinators differ at most in who stands in line for the lock, and in what they have
reported. -/
def OnlyMoves (c d : Coordinator) : Prop :=
  ∃ (lock : Lock) (notices : List Notice), d = { c with lock := lock, notices := notices }

/-! ### Turns without a unit -/

/-- A call that comes to the release finds nothing to release. -/
theorem Departure.keeps {f : Option Failure} (h : Departure i f c out) (hempty : c.Emptied) :
    Keeps c out.1 ∧ out.2.operation? = none := by
  cases h with
  | already => exact ⟨.refl c, rfl⟩
  | waits =>
    have hceased := keeps_ceased c
    exact ⟨⟨hceased.hasUnit, hceased.slot, hceased.tally, hceased.latched⟩, rfl⟩
  | takes _ _ hunit => exact absurd (hempty.hasUnit.symm.trans hunit) (by simp)
  | settles notices reply =>
    have hslot : c.slot.tryClose.2 = c.slot := Slot.tryClose_of_shut hempty.isOpen
    have hceased := keeps_ceased c
    exact ⟨⟨hceased.hasUnit, hslot, hceased.tally, hceased.latched⟩, rfl⟩

/-- A call with nothing to close ends there, unless it goes on to the release. -/
theorem Parting.dismissed (h : Parting i q c (.ok false) out) (hempty : c.Emptied)
    (hmark : ∀ w, q ≠ .watermark w) :
    Keeps c out.1 ∧ out.2.operation? = none ∧
      (q.Stops ∨ out.2 = .ended (q.verdict false) ∧ OnlyMoves c out.1) := by
  cases h with
  | forwards w _ hq => exact absurd hq (hmark w)
  | answers notices => exact ⟨⟨rfl, rfl, rfl, rfl⟩, rfl, .inr ⟨rfl, _, notices, rfl⟩⟩
  | departs notices f _ _ hq _ hdeparts =>
    have hempty' : ({ c with notices := notices } : Coordinator).unlock.Emptied :=
      ⟨hempty.hasUnit, hempty.isOpen⟩
    obtain ⟨hkeeps, hop⟩ := hdeparts.keeps hempty'
    exact ⟨⟨hkeeps.hasUnit, hkeeps.slot, hkeeps.tally, hkeeps.latched⟩, hop, .inl (.inl hq)⟩

/-- Without a unit, a call that has waited for the lock is turned away or has nothing to close, and
ends in its turn; only a stop may go on to the release. -/
theorem Turn.dismissed (h : Turn i q c s a out) (hs : s.operation? = none) (hsuits : Suits q s)
    (hempty : c.Emptied) :
    Keeps c out.1 ∧ out.2.operation? = none ∧
      (q.Stops ∨ OnlyMoves c out.1 ∧ ∃ r, out.2 = .ended r ∧ q.Dismissal c.latched r) := by
  have hgone : c.hasUnit ≠ true := by simp [hempty.hasUnit]
  cases h with
  | refused _ f hrefused =>
    exact ⟨⟨rfl, rfl, rfl, rfl⟩, rfl,
      .inr ⟨⟨_, c.notices, rfl⟩, _, rfl, Request.dismissal_of_refusal hrefused⟩⟩
  | passes _ hq => exact ⟨⟨rfl, rfl, rfl, rfl⟩, rfl, .inl (.inr hq)⟩
  | opens _ hq hadmitted =>
    subst hq
    exact absurd hadmitted.2 hgone
  | continues _ _ hq hadmitted | starts _ _ hq hadmitted =>
    subst hq
    exact absurd hadmitted.2.2 hgone
  | holds _ _ hq hadmitted | forwards _ _ hq hadmitted =>
    subst hq
    exact absurd hadmitted.2.2 hgone
  | closes _ _ _ _ hunit => exact absurd hunit hgone
  | idles _ t _ hq _ hmark hparts =>
    have hquiet (w : Watermark) : q ≠ .watermark w := by
      intro hw
      have hadmitted := hmark w hw
      subst hw
      exact hgone hadmitted.2.2
    obtain ⟨hkeeps, hop, hends⟩ := hparts.dismissed hempty hquiet
    refine ⟨hkeeps, hop, hends.imp_right fun ⟨hended, hmoves⟩ ↦ ⟨hmoves, _, hended, ?_⟩⟩
    cases q with
    | watermark w => exact absurd rfl (hquiet w)
    | start | submit | shutdown => cases hq
    | stop => trivial
    | barrier | endInput => exact .inl rfl
    | finish | checkAge | tick => rfl
  | takesUnit _ _ hunit => exact absurd hunit hgone
  | findsNoUnit _ r notices reply =>
    exact ⟨⟨rfl, Slot.tryClose_of_shut hempty.isOpen, rfl, rfl⟩, rfl, .inl hsuits⟩
  | _ => cases hs

/-! ### The open flag without a unit -/

theorem Departure.closing_of_taken {f : Option Failure} (h : Departure i f c out)
    (hunit : c.hasUnit = true) (hgone : out.1.hasUnit = false) :
    ∃ r, out.2 = .closingUnit r := by
  cases h with
  | already => exact absurd (hunit.symm.trans hgone) (by simp)
  | waits => exact absurd (hunit.symm.trans ((ceased_hasUnit c).symm.trans hgone)) (by simp)
  | takes => exact ⟨_, rfl⟩
  | settles _ _ _ _ hnone => exact absurd (hunit.symm.trans hnone) (by simp)

theorem Parting.closing_of_taken {result : Except Failure Bool} (h : Parting i q c result out)
    (hunit : c.hasUnit = true) (hgone : out.1.hasUnit = false) :
    ∃ r, out.2 = .closingUnit r := by
  cases h with
  | departs _ _ _ _ _ _ hdeparts => exact hdeparts.closing_of_taken hunit hgone
  | _ => exact absurd (hunit.symm.trans hgone) (by simp)

theorem Emission.closing_of_taken {close : Close} {total : Nat} {results : List β}
    (h : Emission i q c close total results out) (hunit : c.hasUnit = true)
    (hgone : out.1.hasUnit = false) : ∃ r, out.2 = .closingUnit r := by
  cases h with
  | last _ _ hparts => exact hparts.closing_of_taken hunit hgone
  | _ => exact absurd (hunit.symm.trans hgone) (by simp)

/-- A turn that takes the unit goes on to close it. -/
theorem Turn.closing_of_taken (h : Turn i q c s a out) (hunit : c.hasUnit = true)
    (hgone : out.1.hasUnit = false) (hopen : out.1.slot.isOpen = true) :
    ∃ r, out.2 = .closingUnit r := by
  cases h with
  | idles _ _ _ _ _ _ h | fillsNone _ _ _ _ _ h | finishesNot _ _ _ h | drainsNot _ _ _ h
  | emitsNot _ _ _ _ _ _ h | releasesNot _ _ _ _ h | released _ _ _ _ h =>
    exact h.closing_of_taken hunit hgone
  | drained _ _ _ h | emitted _ _ _ _ _ _ h => exact h.closing_of_taken hunit hgone
  | takesUnit => exact ⟨_, rfl⟩
  | findsNoUnit | settles => cases hopen
  | _ => exact absurd (hunit.symm.trans hgone) (by simp)

/-- Where the unit is gone, a bundle is open only while the unit is being closed. -/
def Shuts (c : Coordinator) (s : Stage α β) : Prop :=
  c.hasUnit = false → c.slot.isOpen = true → ∃ r, s = .closingUnit r

theorem Shuts.emptied (h : c.Shuts s) (hs : s.operation? = none) (hgone : c.hasUnit = false) :
    c.Emptied where
  hasUnit := hgone
  isOpen := by
    rw [Bool.eq_false_iff]
    intro hopen
    obtain ⟨r, rfl⟩ := h hgone hopen
    cases hs

theorem Turn.shuts (h : Turn i q c s a out) (hfits : c.Fits s) (hsuits : Suits q s)
    (hbefore : c.Shuts s) : out.1.Shuts out.2 := by
  intro hgone hopen
  cases hunit : c.hasUnit with
  | true => exact h.closing_of_taken hunit hgone hopen
  | false =>
    cases hs : s.operation? with
    | none =>
      have hempty := hbefore.emptied hs hunit
      have hslot := (h.dismissed hs hsuits hempty).1.slot
      rw [hslot, hempty.isOpen] at hopen
      cases hopen
    | some op =>
      -- without a unit, the only operation under way is its closing
      cases h with
      | settles => cases hopen
      | finishesNot | finished | drainsNot | drained | emitsNot | emitted | releasesNot | released
      | forwardsNot | forwarded | startsNot | started | processesNot | accepts | fills
      | fillsNone =>
        exact absurd (hunit.symm.trans hfits.1) (by simp)
      | opensNot | schedulesNot | runs => exact absurd (hunit.symm.trans hfits) (by simp)
      | _ => cases hs

/-! ### Early ends -/

/-- A call that ends before it asks for the lock. -/
theorem Declines.dismissal {r : Reply} (h : Declines q c r) (hempty : c.Emptied) :
    q.Dismissal c.latched r := by
  have hchecks (hq : (∃ x, q = .submit x) ∨ ∃ w, q = .watermark w) (h : c.early q = some r) :
      ∃ f : Failure, f.Dismisses c.latched ∧ r = .failed f := by
    obtain ⟨doing, hdoing⟩ := c.early_eq_running hq
    rw [hdoing] at h
    cases hrun : c.running doing with
    | ok => simp [hrun] at h
    | error f =>
      simp only [hrun, Option.some.injEq] at h
      exact ⟨f, dismisses_of_running hrun, h.symm⟩
  rcases h with hearly | ⟨rfl, -⟩
  · cases q with
    | stop | shutdown => trivial
    | start | finish => cases hearly
    | submit x => exact hchecks (.inl ⟨x, rfl⟩) hearly
    | watermark w => exact hchecks (.inr ⟨w, rfl⟩) hearly
    | checkAge | tick =>
      simp only [early, hempty.isOpen, Bool.not_false, Bool.or_true, Bool.true_or, if_true,
        Option.some.injEq] at hearly
      exact hearly.symm
    | barrier | endInput =>
      unfold early healthy at hearly
      cases hlatched : c.latched with
      | none => simp [hlatched] at hearly
      | some f =>
        simp only [hlatched, Option.some.injEq] at hearly
        exact .inr ⟨f, rfl, hearly.symm⟩
  · trivial

end Coordinator

namespace World

variable {α β : Type} {w w' v : World α β} {t u new : History α β}
  {id : String} {checked : Checked} {timer : Timer} {i j : Nat} {q : Request α}
  {a : Except Failure (List β)}

/-! ### Runs -/

theorem kept_shuts : Kept (fun _ (call : Call α β) _ ↦ Coordinator.Suits call.request call.stage)
    fun c i call t ↦ c.Conducts i call.stage t ∧ c.Shuts call.stage where
  rest := fun hcall hother ⟨hconducts, hshuts⟩ ↦ ⟨kept_conducts.rest hcall hother hconducts,
    fun hgone hopen ↦ absurd ((hshuts.emptied hcall hgone).isOpen.symm.trans hopen) (by simp)⟩
  turns := fun _ hsuits hturn ⟨hconducts, hshuts⟩ ↦
    ⟨hturn.conducts hconducts, hturn.shuts hconducts.fits hsuits hshuts⟩
  joins := by
    intro c i n q d s call t hjoins ⟨hconducts, hshuts⟩
    have hkeeps := hjoins.keeps
    exact ⟨kept_conducts.joins hjoins hconducts,
      fun hgone hopen ↦ hshuts (hkeeps.hasUnit ▸ hgone) (hkeeps.slot ▸ hopen)⟩
  declines := fun hdeclines ⟨hconducts, hshuts⟩ ↦
    ⟨kept_conducts.declines hdeclines hconducts, hshuts⟩
  retimes := fun ⟨hconducts, hshuts⟩ ↦ ⟨kept_conducts.retimes hconducts, hshuts⟩

theorem Reaches.shuts (h : Reaches (created id checked timer) w t) :
    w.coordinator.Shuts w.acting.2.stage := by
  have hcreated := orderly_created (α := α) (β := β) id checked timer
  exact (kept_shuts.reaches hcreated (fun hreaches ↦ (hreaches.orderly hcreated).suits)
    ⟨conducts_created id checked timer, fun hgone ↦ by cases hgone⟩ h).2

/-- The unit is there while a bundle is open and no operation is under way. -/
theorem Reaches.hasUnit_of_open (h : Reaches (created id checked timer) w t)
    (hs : w.acting.2.stage.operation? = none) (hopen : w.coordinator.slot.isOpen = true) :
    w.coordinator.hasUnit = true := by
  by_contra hgone
  have hempty := h.shuts.emptied hs (Bool.eq_false_iff.mpr hgone)
  exact absurd (hempty.isOpen.symm.trans hopen) (by simp)

/-- Once the unit has been closed, it is gone, no bundle is open, and no operation is under way. -/
theorem Reaches.emptied (h : Reaches (created id checked timer) w t)
    (hclosed : .answered i .closeUnit a ∈ t) :
    w.coordinator.Emptied ∧ w.acting.2.stage.operation? = none := by
  have hconducts := h.conducts
  obtain ⟨hclosing, hunderway⟩ := hconducts.conduct.lawful.closed_of_answered hclosed
  have hgone : w.coordinator.hasUnit = false := by
    have hthere := hconducts.conduct.closing
    rw [hclosing] at hthere
    simpa using hthere.symm
  have hop : w.acting.2.stage.operation? = none := by
    have hcurrent := hconducts.conduct.underway
    rw [hunderway] at hcurrent
    exact Option.map_eq_none_iff.mp hcurrent.symm
  exact ⟨h.shuts.emptied hop hgone, hop⟩

/-- What happens once the unit has been closed: nothing is asked for, and whoever is answered is
dismissed. -/
structure Dismisses (latched : Option Failure) (u : History α β) : Prop where
  asked : ∀ i op, .asked i op ∉ u
  replied : ∀ i q r, .replied i q r ∈ u → q.Dismissal latched r

theorem Dismisses.append {latched : Option Failure} (h : Dismisses latched u)
    (hnew : Dismisses latched new) : Dismisses latched (u ++ new) where
  asked := fun i op hasked ↦ (List.mem_append.mp hasked).elim (h.asked i op) (hnew.asked i op)
  replied := fun i q r hreplied ↦
    (List.mem_append.mp hreplied).elim (h.replied i q r) (hnew.replied i q r)

theorem Reaches.dismisses_of_advance (h : Reaches (created id checked timer) w t)
    (hclosed : .answered i .closeUnit a ∈ t) (hadvance : Advance w w' new) :
    Coordinator.Keeps w.coordinator w'.coordinator ∧ Dismisses w.coordinator.latched new := by
  obtain ⟨hempty, hop⟩ := h.emptied hclosed
  cases hadvance with
  | declines q r hdeclines =>
    refine ⟨.refl _, by simp, fun k q' r' hreplied ↦ ?_⟩
    simp only [List.mem_cons, List.not_mem_nil, or_false, reduceCtorEq, false_or] at hreplied
    cases hreplied
    exact hdeclines.dismissal hempty
  | joins q d s hjoins =>
    have hkeeps := hjoins.keeps
    exact ⟨⟨hkeeps.hasUnit, hkeeps.slot, hkeeps.tally, hkeeps.latched⟩, by simp, by simp⟩
  | turns k call answer out hcall hlock hturn =>
    rw [acting_of_holder hlock hcall] at hop
    have hsuits := (h.orderly (orderly_created id checked timer)).suits call
      (List.mem_of_getElem? hcall)
    obtain ⟨hkeeps, hquiet, hends⟩ := hturn.dismissed hop hsuits hempty
    refine ⟨hkeeps, fun k' op hasked ↦ ?_, fun k' q r hreplied ↦ ?_⟩
    · cases hquiet.symm.trans (Event.eq_of_asked_mem_turn hasked).2
    · obtain ⟨rfl, rfl, hended⟩ := Event.eq_of_replied_mem_turn hreplied
      rcases hends with hstops | ⟨-, r', hended', hdismissal⟩
      · rcases hstops with hq | hq <;> simp [hq, Request.Dismissal]
      · cases hended.symm.trans hended'
        exact hdismissal
  | retimes => exact ⟨⟨rfl, rfl, rfl, rfl⟩, by simp, by simp⟩

theorem Reaches.dismisses_of_rest (h : Reaches (created id checked timer) w t)
    (hclosed : .answered i .closeUnit a ∈ t) (hrest : Reaches w v u) :
    Coordinator.Keeps w.coordinator v.coordinator ∧ Dismisses w.coordinator.latched u := by
  induction hrest with
  | start => exact ⟨.refl _, by simp, by simp⟩
  | advance hbefore hadvance ih =>
    obtain ⟨hkeeps, hdismisses⟩ := ih
    obtain ⟨hkeeps', hdismisses'⟩ := (h.trans hbefore).dismisses_of_advance
      (List.mem_append_left _ hclosed) hadvance
    rw [hkeeps.latched] at hdismisses'
    exact ⟨hkeeps.trans hkeeps', hdismisses.append hdismisses'⟩

/-- Once the unit has been closed, a call that is made moves the line for the lock at most. -/
theorem issue_onlyMoves (hempty : w.coordinator.Emptied) (hq : ¬ q.Stops) :
    Coordinator.OnlyMoves w.coordinator (w.issue q).coordinator := by
  unfold World.issue
  rcases Coordinator.begin_cases (β := β) w.coordinator w.calls.length q with
    ⟨r, -, hbegin⟩ | ⟨d, s, hjoins, hgoes⟩
  · rw [hbegin]
    exact ⟨w.coordinator.lock, w.coordinator.notices, rfl⟩
  · cases hjoins with
    | stops hstop => exact absurd (.inl hstop) hq
    | shutsDown hshutdown => exact absurd (.inr hshutdown) hq
    | asks =>
      rcases hgoes with ⟨-, hbegin⟩ | ⟨-, hturn⟩
      · rw [hbegin]
        exact ⟨_, w.coordinator.notices, rfl⟩
      · have hempty' : (w.coordinator.inLine w.calls.length).Emptied :=
          ⟨hempty.hasUnit, hempty.isOpen⟩
        obtain ⟨lock, notices, hmoves⟩ :=
          ((hturn.dismissed rfl trivial hempty').2.2.resolve_left hq).1
        dsimp only
        rw [hmoves]
        exact ⟨lock, notices, rfl⟩

/-- Once the unit has been closed, a call in flight that does not release the unit waits for the
lock, and ends in its turn. -/
theorem Reaches.ended_of_closed (h : Reaches (created id checked timer) w t)
    (hclosed : .answered i .closeUnit a ∈ t) {call : Call α β} (hcall : w.calls[j]? = some call)
    (hq : ¬ call.request.Stops) (hreply : call.stage.reply? = none) :
    call.stage = .queued ∧ (w.holdsLock j = true → ∀ answer, ∃ r,
      (w.proceed j answer).stage? j = some (.ended r) ∧
        Coordinator.OnlyMoves w.coordinator (w.proceed j answer).coordinator) := by
  have horderly := h.orderly (orderly_created id checked timer)
  obtain ⟨hempty, hop⟩ := h.emptied hclosed
  have hsuits := horderly.suits call (List.mem_of_getElem? hcall)
  have hqueued : call.stage = .queued := by
    cases hs : call.stage with
    | queued => rfl
    | ended r =>
      rw [hs] at hreply
      cases hreply
    | queuedToRelease r =>
      rw [hs] at hsuits
      exact absurd hsuits hq
    | _ =>
      rw [horderly.acting_of_operation hcall (by rw [hs]; rfl), hs] at hop
      cases hop
  refine ⟨hqueued, fun hholds answer ↦ ?_⟩
  have hrun : w.canRun j call.stage = true := by
    simp [canRun, hqueued, Stage.awaitsLock, hholds]
  obtain ⟨-, hturn⟩ := turn_stretch horderly answer hcall hrun
  obtain ⟨-, -, hends⟩ := hturn.dismissed (by rw [hqueued]; rfl) hsuits hempty
  obtain ⟨hmoves, r, hended, -⟩ := hends.resolve_left hq
  unfold World.proceed
  rw [hcall]
  exact ⟨r, (stage?_set hcall _ _ _).trans ((if_pos rfl).trans (congrArg some hended)), hmoves⟩

/-- With no bundle open, a tick is over at once. -/
theorem issue_tick (hopen : w.coordinator.slot.isOpen = false) :
    w.issue .tick = ⟨w.coordinator, w.calls ++ [⟨.tick, .ended .done⟩]⟩ := by
  unfold World.issue
  rw [Coordinator.begin_of_early]
  simp [Coordinator.early, hopen]

/-- Once the unit has been closed, by whatever call and with whatever answer, this is for good: the
unit is gone and no bundle is open, slot, counters and latched failure stay as they are, nothing is
asked for any more, and every reply is a dismissal. No call but a stop or a shutdown changes more
than the line for the lock; one that is in flight waits there and ends in its turn, and all of them
can be brought to their ends. A tick is over at once and leaves the coordinator as it is. -/
theorem inert_of_closed (id : String) (checked : Checked) (timer : Timer)
    (past : List (Move α β)) {i : Nat} {a : Except Failure (List β)}
    (hclosed : .answered i .closeUnit a ∈ (created id checked timer : World α β).trace past)
    (post : List (Move α β)) :
    let w : World α β := (created id checked timer).run past
    let v : World α β := w.run post
    v.coordinator.Emptied ∧ w.coordinator.Keeps v.coordinator ∧
      Dismisses w.coordinator.latched (w.trace post) ∧
      (∀ q, ¬ q.Stops → v.coordinator.OnlyMoves (v.issue q).coordinator) ∧
      (∀ j call, v.calls[j]? = some call → ¬ call.request.Stops → call.stage.reply? = none →
        call.stage = .queued ∧ (v.holdsLock j = true → ∀ answer, ∃ r,
          (v.proceed j answer).stage? j = some (.ended r) ∧
            v.coordinator.OnlyMoves (v.proceed j answer).coordinator)) ∧
      (∀ answer, ∃ order : List Nat, (v.run (order.map fun j ↦ .proceed j answer)).Idle) ∧
      v.issue .tick = ⟨v.coordinator, v.calls ++ [⟨.tick, .ended .done⟩]⟩ := by
  intro w v
  have hcreated := orderly_created (α := α) (β := β) id checked timer
  have hw : Reaches (created id checked timer) w _ := reaches_run hcreated past
  have hpost : Reaches w v _ := reaches_run (hw.orderly hcreated) post
  have hv := hw.trans hpost
  have hstill := List.mem_append_left (w.trace post) hclosed
  obtain ⟨hkeeps, hdismisses⟩ := hw.dismisses_of_rest hclosed hpost
  have hempty := (hv.emptied hstill).1
  refine ⟨hempty, hkeeps, hdismisses, fun q hq ↦ issue_onlyMoves hempty hq,
    fun j call hcall hq hreply ↦ hv.ended_of_closed hstill hcall hq hreply, fun answer ↦ ?_,
    issue_tick hempty.isOpen⟩
  exact hv.exists_idle_of_rest (fun hlater ↦ Stage.isWork_of_rest
    ((hv.trans hlater).emptied (List.mem_append_left _ hstill)).2) answer

/-- A start that ends last lets a submit and an end of input pass behind the shutdown, whose closing
of the unit fails. -/
def submitBehindShutdown : List (Move Nat Nat) :=
  startAmidShutdown ++ [.issue (.submit 1), .issue .endInput, .proceed 1 (.ok []),
    .proceed 1 (.error (.unit "close" "injected"))]

/-- Both wake up without a unit, while the coordinator reads as running. -/
theorem inert_behind_shutdown :
    let w : World Nat Nat := plain.run submitBehindShutdown
    let post : List (Move Nat Nat) := [.proceed 2 (.ok []), .proceed 3 (.ok []), .issue .start]
    .answered 1 .closeUnit (.error (.unit "close" "injected")) ∈
        plain.trace submitBehindShutdown ∧
      w.coordinator.phase = .running ∧
      .replied 2 (.submit 1) (.failed (.refused (.released "submit"))) ∈ w.trace post ∧
      .replied 3 .endInput .done ∈ w.trace post ∧
      (w.run post).coordinator.Emptied ∧ w.coordinator.Keeps (w.run post).coordinator ∧
      Dismisses none (w.trace post) ∧
      (w.run post).issue .tick =
        ⟨(w.run post).coordinator, (w.run post).calls ++ [⟨.tick, .ended .done⟩]⟩ := by
  intro w post
  have hclosed : .answered 1 .closeUnit (.error (.unit "close" "injected")) ∈
      plain.trace submitBehindShutdown := by
    refine List.mem_of_getElem? (i := 8) ?_
    rfl
  obtain ⟨hempty, hkeeps, hdismisses, -, -, -, htick⟩ := inert_of_closed "plain" (Limits.check {})
    { kind := .manual false, now := 0 } submitBehindShutdown hclosed post
  exact ⟨hclosed, by decide, List.mem_cons_self, List.mem_cons_of_mem _ List.mem_cons_self, hempty,
    hkeeps, hdismisses, htick⟩

end World

end Bundling
