import Bundling.Proofs.Balance
import Bundling.Proofs.Ledger
import Bundling.Proofs.Lifecycle

/-!
Watermarks behind bundles, in runs without failures and without a direct shutdown. A watermark that
comes while a bundle is in progress is held, takes the place of one held before, and is let go by
the close of the bundle, after the last result; any other is forwarded by the call that brings it.
-/

set_option autoImplicit false
set_option relaxedAutoImplicit false

namespace Bundling

namespace History

variable {α β : Type}

/-- No collaborator has failed, and nobody has asked for a shutdown but a stop. -/
def Smooth (h : History α β) : Prop :=
  (∀ i op f, .answered i op (.error f) ∉ h) ∧ ∀ i, .issued i .shutdown ∉ h

theorem Smooth.of_append {h new : History α β} (hsmooth : Smooth (h ++ new)) :
    Smooth h ∧ Smooth new := by
  refine ⟨⟨fun i op f he ↦ ?_, fun i he ↦ ?_⟩, ⟨fun i op f he ↦ ?_, fun i he ↦ ?_⟩⟩
  · exact hsmooth.1 i op f (List.mem_append_left new he)
  · exact hsmooth.2 i (List.mem_append_left new he)
  · exact hsmooth.1 i op f (List.mem_append_right h he)
  · exact hsmooth.2 i (List.mem_append_right h he)

end History

namespace Stage

variable {α β : Type}

/-- The watermark that a close is letting go. -/
def outgoing : Stage α β → Option Watermark
  | releasing _ w => some w
  | _ => none

/-- A close whose results are not all out yet. -/
def closes : Stage α β → Bool
  | finishing _ | draining _ | emitting _ _ _ _ => true
  | _ => false

variable {s : Stage α β}

/-! A call that waits for no collaborator is in no close. -/

theorem outgoing_eq_none (hs : s.operation? = none) : s.outgoing = none := by
  cases s <;> first | rfl | cases hs

theorem closes_eq_false (hs : s.operation? = none) : s.closes = false := by
  cases s <;> first | rfl | cases hs

end Stage

open History

/-- The ledger of a history agrees with the watermarks forwarded in it. -/
def Books {α : Type} (h : History α α) (outgoing held : Option Watermark) (closing : Bool) : Prop :=
  (Ledger.after h).Tallies (entries h).watermarks outgoing held closing

namespace Books

variable {α : Type} {h : History α α} {outgoing held : Option Watermark} {closing : Bool}
  {w : Watermark} {i : Nat}

/-- An event that neither moves a watermark nor begins or ends a bundle. -/
def Quiet (e : Event α α) : Prop :=
  (∀ l : Ledger, l.step e = l) ∧ (entryOf e).bind Journal.forwardedWatermark? = none

theorem watermarks_snoc (h : History α α) (e : Event α α) :
    (entries (h ++ [e])).watermarks =
      (entries h).watermarks ++ ((entryOf e).bind Journal.forwardedWatermark?).toList := by
  rw [entries_snoc, Journal.watermarks, List.filterMap_append]
  cases hentry : entryOf e with
  | none => rfl
  | some entry => cases entry <;> rfl

theorem quiet_asked {op : Operation α α} (hop : op ≠ .finishBundle) : Quiet (.asked i op) := by
  refine ⟨fun l ↦ ?_, rfl⟩
  cases op <;> first | rfl | exact absurd rfl hop

theorem quiet_answered {op : Operation α α} (hstart : op ≠ .startBundle)
    (hforward : ∀ w, op ≠ .forward w) (results : List α) :
    Quiet (.answered i op (.ok results)) := by
  refine ⟨fun l ↦ ?_, ?_⟩
  · cases op <;> first | rfl | exact absurd rfl hstart
  · cases op <;> first | rfl | exact absurd rfl (hforward _)

theorem quiet_replied {q : Request α} {r : Reply} (hq : (∀ w, q ≠ .watermark w) ∨ r ≠ .done) :
    Quiet (.replied i q r) := by
  refine ⟨fun l ↦ ?_, rfl⟩
  cases q with
  | watermark w =>
    cases r with
    | done => exact absurd hq (by simp)
    | _ => rfl
  | _ => rfl

theorem quiet (hb : Books h outgoing held closing) {new : History α α}
    (hnew : ∀ e ∈ new, Quiet e) : Books (h ++ new) outgoing held closing := by
  induction new generalizing h with
  | nil => simpa using hb
  | cons e new ih =>
    rw [List.append_cons]
    refine ih ?_ fun e' he' ↦ hnew e' (List.mem_cons_of_mem e he')
    obtain ⟨hstep, hmark⟩ := hnew e List.mem_cons_self
    unfold Books
    rw [Ledger.after_snoc, hstep, watermarks_snoc, hmark, Option.toList_none, List.append_nil]
    exact hb

theorem starts (hb : Books h outgoing none closing) (results : List α) :
    Books (h ++ [Event.answered i .startBundle (.ok results)]) outgoing none closing := by
  unfold Books
  rw [Ledger.after_snoc, watermarks_snoc]
  simpa [Ledger.step, entryOf, Operation.entryOf, Journal.forwardedWatermark?] using
    Ledger.Tallies.starts hb

theorem closes (hb : Books h outgoing held closing) :
    Books (h ++ [Event.asked i .finishBundle]) outgoing held true := by
  unfold Books
  rw [Ledger.after_snoc, watermarks_snoc]
  simpa [Ledger.step, entryOf] using Ledger.Tallies.closes hb

theorem holds (hb : Books h none held false) (hbundle : (Ledger.after h).inBundle = true)
    (hterminal : w.isTerminal = false) :
    Books (h ++ [Event.replied i (.watermark w) .done]) none (some w) false := by
  unfold Books
  rw [Ledger.after_snoc, watermarks_snoc]
  simpa [Ledger.step, entryOf, hbundle] using Ledger.Tallies.holds hb hbundle hterminal

theorem released (hb : Books h (some w) none closing) (results : List α) :
    Books (h ++ [Event.answered i (.forward w) (.ok results)]) none none closing := by
  unfold Books
  rw [Ledger.after_snoc, watermarks_snoc]
  simpa [Ledger.step, entryOf, Operation.entryOf, Journal.forwardedWatermark?] using
    Ledger.Tallies.released hb

theorem forwards (hb : Books h none none closing) (hbundle : (Ledger.after h).inBundle = false)
    (results : List α) :
    Books (h ++ [Event.answered i (.forward w) (.ok results)] ++
      [Event.replied i (.watermark w) .done]) none none closing := by
  unfold Books
  rw [Ledger.after_snoc, Ledger.after_snoc, watermarks_snoc, watermarks_snoc]
  simpa [Ledger.step, entryOf, Operation.entryOf, Journal.forwardedWatermark?, hbundle] using
    Ledger.Tallies.forwards (w := w) hb hbundle

end Books

namespace Coordinator

variable {α : Type} {c d : Coordinator} {i : Nat} {q : Request α} {s : Stage α α}
  {h : History α α}

/-- The unit goes only once the coordinator has stopped, with nothing open and nothing held. -/
structure Retires (c : Coordinator) : Prop where
  unit : c.hasUnit = false → c.phase = .stopped
  stopped : c.phase = .stopped → c.slot.isOpen = false ∧ c.slot.held = none

theorem Retires.of_eq (hc : Retires c) (hunit : d.hasUnit = c.hasUnit) (hphase : d.phase = c.phase)
    (hopen : d.slot.isOpen = c.slot.isOpen) (hheld : d.slot.held = c.slot.held) : Retires d := by
  constructor
  · rw [hunit, hphase]
    exact hc.unit
  · rw [hphase, hopen, hheld]
    exact hc.stopped

theorem Retires.of_stopped (hopen : c.slot.isOpen = false) (hheld : c.slot.held = none)
    (hphase : c.phase = .stopped) : Retires c :=
  ⟨fun _ ↦ hphase, fun _ ↦ ⟨hopen, hheld⟩⟩

theorem Retires.of_phase_ne (hunit : c.hasUnit = true) (hphase : c.phase ≠ .stopped) : Retires c :=
  ⟨fun hgone ↦ absurd (hunit.symm.trans hgone) (by simp), fun hstopped ↦ absurd hstopped hphase⟩

theorem Retires.hasUnit (h : Retires c) (hphase : c.phase ≠ .stopped) : c.hasUnit = true := by
  rw [← Bool.not_eq_false]
  exact fun hgone ↦ hphase (h.unit hgone)

/-- The invariant: the ledger agrees with the slot and with the call that acts. -/
structure Holding (c : Coordinator) (s : Stage α α) (h : History α α) : Prop where
  books : Books h s.outgoing c.slot.held s.closes
  retires : Retires c
  ending : c.phase = .stopped → ∀ op, s.operation? = some op → op = .closeUnit

theorem holding_of_rest (hs : s.operation? = none) (hb : Books h none c.slot.held false)
    (hquiet : ∀ r, s = .ended r → (∀ w, q ≠ .watermark w) ∨ r ≠ .done) (hc : Retires c) :
    Holding c s (h ++ Event.reached i q s) := by
  refine ⟨?_, hc, fun _ op hop ↦ absurd (hs.symm.trans hop) (by simp)⟩
  rw [Stage.outgoing_eq_none hs, Stage.closes_eq_false hs]
  refine hb.quiet fun e he ↦ ?_
  cases s with
  | ended r =>
    rw [List.mem_singleton.mp he]
    exact Books.quiet_replied (hquiet r rfl)
  | queued | queuedToRelease => cases he
  | _ => cases hs

theorem holding_of_asked {op : Operation α α} (hop : op ≠ .finishBundle)
    (hb : Books h s.outgoing c.slot.held s.closes) (hunit : c.hasUnit = true)
    (hphase : c.phase ≠ .stopped) : Holding c s (h ++ [Event.asked i op]) := by
  refine ⟨hb.quiet fun e he ↦ ?_, .of_phase_ne hunit hphase, fun hstopped ↦ absurd hstopped hphase⟩
  rw [List.mem_singleton.mp he]
  exact Books.quiet_asked hop

theorem Departure.holding {f : Option Failure} {out : Coordinator × Stage α α}
    (hout : Departure i f c out) (hstop : q = .stop) (hb : Books h none none false)
    (hopen : c.slot.isOpen = false) (hheld : c.slot.held = none) :
    Holding out.1 out.2 (h ++ Event.reached i q out.2) := by
  have hquiet : ∀ w, q ≠ .watermark w := by simp [hstop]
  have hslot : (c.ceased.inLine i).slot = c.slot := ceased_slot c
  have hbooks : Books h none (c.ceased.inLine i).slot.held false := by
    rw [hslot, hheld]
    exact hb
  have hretires : Retires (c.ceased.inLine i) :=
    .of_stopped (by rw [hslot, hopen]) (by rw [hslot, hheld]) (ceased_phase c)
  cases hout with
  | already hphase =>
    refine holding_of_rest rfl ?_ (fun _ _ ↦ .inl hquiet) (.of_stopped hopen hheld hphase)
    rw [hheld]
    exact hb
  | waits => exact holding_of_rest rfl hbooks (fun _ _ ↦ .inl hquiet) hretires
  | takes =>
    refine ⟨hbooks.quiet fun e he ↦ ?_, ?_, fun _ op hop ↦ (Option.some.inj hop).symm⟩
    · rw [List.mem_singleton.mp he]
      exact Books.quiet_asked (by simp)
    · exact .of_stopped (by rw [hslot, hopen]) (by rw [hslot, hheld]) (ceased_phase c)
  | settles notices reply =>
    refine holding_of_rest rfl ?_ (fun _ _ ↦ .inl hquiet) (.of_stopped rfl hheld (ceased_phase c))
    change Books h none c.slot.held false
    rw [hheld]
    exact hb

theorem Parting.holding {closed : Bool} {out : Coordinator × Stage α α}
    (hout : Parting i q c (.ok closed) out) (hb : Books h none c.slot.held false) (hc : Retires c)
    (hstop : q = .stop → c.slot.isOpen = false ∧ c.slot.held = none)
    (hmark : ∀ w, q = .watermark w → c.hasUnit = true ∧ c.phase ≠ .stopped) :
    Holding out.1 out.2 (h ++ Event.reached i q out.2) := by
  cases hout with
  | forwards w _ hq =>
    obtain ⟨hunit, hphase⟩ := hmark w hq
    exact holding_of_asked (s := .forwarding w) (by simp) hb hunit hphase
  | answers notices _ _ hquiet =>
    exact holding_of_rest rfl hb (fun _ _ ↦ .inl hquiet) (hc.of_eq rfl rfl rfl rfl)
  | departs notices f _ _ hq _ hdeparts =>
    obtain ⟨hopen, hheld⟩ := hstop hq
    rw [hheld] at hb
    exact hdeparts.holding hq hb hopen hheld

theorem Emission.holding {close : Close} {total : Nat} {results : List α}
    {out : Coordinator × Stage α α} (hout : Emission i q c close total results out)
    (hb : Books h none c.slot.held true) (hbundle : (Ledger.after h).inBundle = false)
    (hopen : c.slot.isOpen = false) (hunit : c.hasUnit = true) (hphase : c.phase ≠ .stopped) :
    Holding out.1 out.2 (h ++ Event.reached i q out.2) := by
  cases hout with
  | more r rest =>
    exact holding_of_asked (s := .emitting close r rest total) (by simp) hb hunit hphase
  | lets w hheld =>
    rw [hheld] at hb
    exact holding_of_asked (c := c.settled close total) (s := .releasing close w) (by simp)
      (Ledger.Tallies.lets hb hbundle) hunit hphase
  | last _ hheld hparts =>
    rw [hheld] at hb
    exact hparts.holding (Ledger.Tallies.of_held_eq_none hb false) (.of_phase_ne hunit hphase)
      (fun _ ↦ ⟨hopen, rfl⟩) fun _ _ ↦ ⟨hunit, hphase⟩

theorem inBundle_after (h : History α α) :
    (Ledger.after h).inBundle = (Standing.after h).inBundle := by
  induction h using List.reverseRecOn with
  | nil => rfl
  | append_singleton h e ih =>
    rw [Ledger.after_snoc, Standing.after_snoc]
    cases e with
    | issued => exact ih
    | asked i op => cases op <;> first | exact ih | rfl
    | answered i op a => cases op <;> cases a <;> first | exact ih | rfl
    | replied i q r => cases q <;> first | exact ih | (cases r <;> exact ih)

theorem inBundle_eq_false {current : Option (Nat × Operation α α)} {next : List (Operation α α)}
    (hconduct : Conduct c current next h) (hunit : c.hasUnit = true)
    (hopen : c.slot.isOpen = false) : (Ledger.after h).inBundle = false := by
  rw [inBundle_after, Bool.eq_false_iff]
  intro hin
  exact absurd (hopen.symm.trans ((hconduct.bundle hunit).mp hin).1) (by simp)

/-- Outside a bundle nothing is held, unless its close is not over yet. -/
theorem Holding.held_eq_none (hh : Holding c s h) (hconducts : Conducts c i s h)
    (hcloses : s.closes = false) (hopen : c.slot.isOpen = false) : c.slot.held = none := by
  have hbooks := hh.books
  rw [hcloses] at hbooks
  cases hunit : c.hasUnit with
  | false => exact (hh.retires.stopped (hh.retires.unit hunit)).2
  | true =>
    exact Ledger.Tallies.held_eq_none hbooks (inBundle_eq_false hconducts.conduct hunit hopen)

/-- A turn that starts when the lock is granted. -/
theorem Turn.holding_of_grant {a : Except Failure (List α)} {out : Coordinator × Stage α α}
    (hout : Turn i q c s a out) (hs : s.operation? = none) (hsuits : Suits q s)
    (hrelease : s.isRelease = true → c.phase = .stopped) (hconduct : Conduct c none [] h)
    (hb : Books h none c.slot.held false) (hc : Retires c) :
    Holding out.1 out.2 (h ++ Event.reached i q out.2) := by
  have hbundle (hunit : c.hasUnit = true) : (Ledger.after h).inBundle = c.slot.isOpen := by
    rw [inBundle_after, Bool.eq_iff_iff, hconduct.bundle hunit]
    simp
  -- outside a bundle nothing is held
  have hheld (hopen : c.hasUnit = true → c.slot.isOpen = false) :
      c.slot.isOpen = false ∧ c.slot.held = none := by
    cases hunit : c.hasUnit with
    | false => exact hc.stopped (hc.unit hunit)
    | true =>
      exact ⟨hopen hunit, Ledger.Tallies.held_eq_none hb ((hbundle hunit).trans (hopen hunit))⟩
  cases hout with
  | refused =>
    exact holding_of_rest rfl hb (fun r hr ↦ .inr (by cases hr; simp)) (hc.of_eq rfl rfl rfl rfl)
  | passes _ hq =>
    exact holding_of_rest rfl hb (fun _ _ ↦ .inl (by simp [hq])) (hc.of_eq rfl rfl rfl rfl)
  | opens _ hq hadmitted =>
    subst hq
    exact holding_of_asked (s := .opening) (by simp) hb hadmitted.2 (by simp [hadmitted.1])
  | continues _ x hq hadmitted =>
    subst hq
    exact holding_of_asked (s := .processing x) (by simp) hb hadmitted.2.2 (by simp [hadmitted.2.1])
  | starts _ x hq hadmitted =>
    subst hq
    exact holding_of_asked (c := { c with slot := c.slot.tryOpen.2 }) (s := .starting x) (by simp)
      hb hadmitted.2.2 (by simp [hadmitted.2.1])
  | holds _ w hq hadmitted hterminal hopen =>
    subst hq
    obtain ⟨-, hphase, hunit⟩ := hadmitted
    have hin : (Ledger.after h).inBundle = true := (hbundle hunit).trans hopen
    refine ⟨hb.holds hin hterminal, .of_phase_ne hunit ?_, fun _ op hop ↦ by cases hop⟩
    simp [leave, unlock, holdBack, note, hphase]
  | forwards _ w hq hadmitted =>
    subst hq
    exact holding_of_asked (s := .forwarding w) (by simp) hb hadmitted.2.2 (by simp [hadmitted.2.1])
  | closes _ t _ _ hunit hopen =>
    have hphase : c.phase ≠ .stopped := by
      intro hstopped
      exact absurd (hopen.symm.trans (hc.stopped hstopped).1) (by simp)
    exact ⟨hb.closes, .of_phase_ne hunit hphase, fun hstopped ↦ absurd hstopped hphase⟩
  | idles _ t _ hq hidle hmark hparts =>
    refine hparts.holding hb hc (fun hstop ↦ ?_) fun w hw ↦ ?_
    · subst hstop
      exact hheld (hidle trivial)
    · have hadmitted := hmark w hw
      subst hw
      exact ⟨hadmitted.2.2, by simp [hadmitted.2.1]⟩
  | takesUnit _ r hunit =>
    obtain ⟨hopen, hnone⟩ := hc.stopped (hrelease rfl)
    refine ⟨hb.quiet fun e he ↦ ?_, .of_stopped hopen hnone (hrelease rfl),
      fun _ op hop ↦ (Option.some.inj hop).symm⟩
    rw [List.mem_singleton.mp he]
    exact Books.quiet_asked (by simp)
  | findsNoUnit _ r notices reply hunit =>
    obtain ⟨-, hnone⟩ := hc.stopped (hrelease rfl)
    exact holding_of_rest rfl hb (fun _ _ ↦ .inl (hsuits.ne_watermark rfl))
      (.of_stopped rfl hnone (hrelease rfl))
  | _ => cases hs

/-- A turn that starts with a collaborator's success. -/
theorem Turn.holding_of_success {results : List α} {out : Coordinator × Stage α α}
    (hout : Turn i q c s (.ok results) out) (hs : s.operation?.isSome = true) (hsuits : Suits q s)
    (hconducts : Conducts c i s h) (hh : Holding c s h) :
    Holding out.1 out.2 ((h ++ Event.left i s (.ok results)) ++ Event.reached i q out.2) := by
  have hnone := hh.held_eq_none hconducts
  obtain ⟨hconduct, hfits⟩ := hconducts
  obtain ⟨hb, hc, hending⟩ := hh
  have hphase (op : Operation α α) (hop : s.operation? = some op) (hclose : op ≠ .closeUnit) :
      c.phase ≠ .stopped := fun hstopped ↦ hclose (hending hstopped op hop)
  -- an answer that is neither the start of a bundle nor a watermark's leaves the books alone
  have hanswered (op : Operation α α) (results : List α) (hstart : op ≠ .startBundle)
      (hforward : ∀ w, op ≠ .forward w) :
      Books (h ++ [Event.answered i op (.ok results)]) s.outgoing c.slot.held s.closes := by
    refine hb.quiet fun e he ↦ ?_
    rw [List.mem_singleton.mp he]
    exact Books.quiet_answered hstart hforward results
  cases hout with
  | schedulesNot _ f =>
    exact holding_of_rest rfl (hanswered _ [] (by simp) (by simp))
      (fun r hr ↦ .inr (by cases hr; simp)) (hc.of_eq rfl rfl rfl rfl)
  | runs =>
    have hquiet : ∀ w, q ≠ .watermark w := by
      intro w hw
      cases hsuits.symm.trans hw
    exact holding_of_rest rfl (hanswered _ [] (by simp) (by simp)) (fun _ _ ↦ .inl hquiet)
      (.of_phase_ne hfits (by simp [leave, unlock]))
  | started x =>
    obtain ⟨hunit, -, hopen⟩ := hfits
    have hin : (Ledger.after h).inBundle = false := by
      rw [inBundle_after, Bool.eq_false_iff]
      intro hin
      exact ((hconduct.bundle hunit).mp hin).2 rfl
    have hheld : c.slot.held = none := Ledger.Tallies.held_eq_none hb hin
    rw [hheld] at hb
    have hstarted :
        Books (h ++ [Event.answered i .startBundle (.ok [])]) none c.slot.held false := by
      rw [hheld]
      exact hb.starts []
    exact holding_of_asked (s := .processing x) (by simp) hstarted hunit
      (hphase .startBundle rfl (by simp))
  | accepts =>
    have hquiet : ∀ w, q ≠ .watermark w := by
      intro w hw
      cases hsuits.symm.trans hw
    exact holding_of_rest rfl (hanswered _ [] (by simp) (by simp)) (fun _ _ ↦ .inl hquiet)
      (hc.of_eq rfl rfl rfl rfl)
  | fills x =>
    have hprocessed := hphase (.process x) rfl (by simp)
    exact ⟨(hanswered (.process x) [] (by simp) (by simp)).closes,
      .of_phase_ne hfits.1 hprocessed, fun hstopped ↦ absurd hstopped hprocessed⟩
  | fillsNone x _ _ _ hidle =>
    exact absurd (hfits.2.2.symm.trans (hidle hfits.1)) (by simp)
  | finished close =>
    exact holding_of_asked (s := .draining close) (by simp) (hanswered _ [] (by simp) (by simp))
      hfits.1 (hphase .finishBundle rfl (by simp))
  | drained close _ _ hemission =>
    refine hemission.holding (hanswered _ results (by simp) (by simp)) ?_ hfits.2.2 hfits.1
      (hphase .drainResults rfl (by simp))
    change (Ledger.after (h ++ [Event.answered i .drainResults (.ok results)])).inBundle = false
    rw [Ledger.after_snoc]
    exact inBundle_eq_false hconduct hfits.1 hfits.2.2
  | emitted close r rest total _ _ hemission =>
    refine hemission.holding (hanswered (.emit r) [] (by simp) (by simp)) ?_ hfits.2.2
      hfits.1 (hphase (.emit r) rfl (by simp))
    change (Ledger.after (h ++ [Event.answered i (.emit r) (.ok [])])).inBundle = false
    rw [Ledger.after_snoc]
    exact inBundle_eq_false hconduct hfits.1 hfits.2.2
  | released close w _ _ hparts =>
    have hheld := hnone rfl hfits.2.2
    rw [hheld] at hb
    have hreleased : Books (h ++ [Event.answered i (.forward w) (.ok [])]) none
        (c.forwarded w).slot.held false := by
      change Books _ none c.slot.held false
      rw [hheld]
      exact hb.released []
    have hforward := hphase (.forward w) rfl (by simp)
    exact hparts.holding hreleased (hc.of_eq rfl rfl rfl rfl) (fun _ ↦ ⟨hfits.2.2, hheld⟩)
      fun _ _ ↦ ⟨hfits.1, hforward⟩
  | forwarded w =>
    have hheld := hnone rfl hfits.2.2
    rw [hheld] at hb
    have hq : q = .watermark w := hsuits
    subst hq
    refine ⟨?_, hc.of_eq rfl rfl rfl rfl, fun _ op hop ↦ by cases hop⟩
    change Books _ none c.slot.held false
    rw [hheld]
    exact hb.forwards (inBundle_eq_false hconduct hfits.1 hfits.2.2) []
  | settles r _ notices reply =>
    have hstopped : c.phase = .stopped := hc.unit hfits
    exact holding_of_rest rfl (hanswered _ [] (by simp) (by simp))
      (fun _ _ ↦ .inl (hsuits.ne_watermark rfl))
      (.of_stopped rfl (hc.stopped hstopped).2 hstopped)
  | _ => cases hs

theorem ok_of_smooth_left {a : Except Failure (List α)} {op : Operation α α}
    (hsmooth : Smooth (Event.left i s a)) (hop : s.operation? = some op) :
    ∃ results, a = .ok results := by
  cases a with
  | ok results => exact ⟨results, rfl⟩
  | error f =>
    have hfails : .answered i op (.error f) ∈ (Event.left i s (.error f) : History α α) := by
      rw [Event.left, hop]
      cases op <;> exact List.mem_cons_self
    exact absurd hfails (hsmooth.1 i op f)

theorem Turn.holding {a : Except Failure (List α)} {out : Coordinator × Stage α α}
    (hout : Turn i q c s a out) (hsuits : Suits q s)
    (hrelease : s.isRelease = true → c.phase = .stopped) (hsmooth : Smooth (Event.left i s a))
    (hconducts : Conducts c i s h) (hh : Holding c s h) :
    Holding out.1 out.2 (h ++ (Event.left i s a ++ Event.reached i q out.2)) := by
  rw [← List.append_assoc]
  cases hs : s.operation? with
  | some op =>
    obtain ⟨results, rfl⟩ := ok_of_smooth_left hsmooth hs
    exact hout.holding_of_success (by rw [hs]; rfl) hsuits hconducts hh
  | none =>
    have hconduct := hconducts.conduct
    have hbooks := hh.books
    rw [hs, Stage.due_eq_nil hs] at hconduct
    rw [Stage.outgoing_eq_none hs, Stage.closes_eq_false hs] at hbooks
    rw [Event.left_eq_nil hs, List.append_nil]
    exact hout.holding_of_grant hs hsuits hrelease hconduct hbooks hh.retires

/-- Other calls may bring the coordinator to a halt while a call waits, but move no watermark. -/
theorem Holding.of_eq (hh : Holding c s h) (hunit : d.hasUnit = c.hasUnit)
    (hslot : d.slot = c.slot)
    (hphase : d.phase = c.phase ∨ c.phase ≠ .stopped ∧ d.phase = .stopping) {new : History α α}
    (hnew : ∀ e ∈ new, Books.Quiet e) : Holding d s (h ++ new) := by
  refine ⟨?_, ?_, ?_⟩
  · rw [hslot]
    exact hh.books.quiet hnew
  · rcases hphase with heq | ⟨hne, hstopping⟩
    · exact hh.retires.of_eq hunit heq (congrArg _ hslot) (congrArg _ hslot)
    · refine ⟨fun hgone ↦ ?_, fun hstopped ↦ ?_⟩
      · exact absurd (hh.retires.unit (hunit.symm.trans hgone)) hne
      · exact absurd (hstopping.symm.trans hstopped) (by simp)
  · intro hstopped
    rcases hphase with heq | ⟨-, hstopping⟩
    · exact hh.ending (heq.symm.trans hstopped)
    · exact absurd (hstopping.symm.trans hstopped) (by simp)

/-- A watermark that is turned away has not been accepted. -/
theorem Declines.watermark_or_done {r : Reply} (h : Declines q c r) :
    (∀ w, q ≠ .watermark w) ∨ r ≠ .done := by
  by_cases hq : ∃ w, q = .watermark w
  · obtain ⟨w, rfl⟩ := hq
    exact .inr (h.ne_done (by simp) (by simp) (by simp))
  · exact .inl fun w hw ↦ hq ⟨w, hw⟩

/-- A turn leaves a stopped coordinator stopped, unless it has been opening it; a call that turns to
releasing the unit has stopped it; and one that opens the unit has not found it stopped. -/
structure Halts (c : Coordinator) (s : Stage α α) (out : Coordinator × Stage α α) : Prop where
  stays : c.phase = .stopped → s ≠ .opening → out.1.phase = .stopped
  releases : out.2.isRelease = true → s.isRelease = true ∨ out.1.phase = .stopped
  opens : out.2 = .opening → out.1.phase ≠ .stopped

theorem Turn.halts {a : Except Failure (List α)} {out : Coordinator × Stage α α}
    (hout : Turn i q c s a out) : Halts c s out := by
  cases hout.course with
  | remains hsame hproceeds =>
    refine ⟨fun hstopped _ ↦ hsame.phase.trans hstopped,
      fun hrelease ↦ .inl (hproceeds.releases hrelease), fun hopening ↦ ?_⟩
    rw [hsame.phase, hproceeds.opens hopening]
    simp
  | enrolls hs => exact ⟨fun _ hne ↦ absurd hs hne, fun h ↦ (by cases h), fun h ↦ (by cases h)⟩
  | departs _ _ _ _ _ h =>
    exact ⟨fun _ _ ↦ h.stopped, fun _ ↦ .inr h.stopped, fun hopening ↦ absurd hopening h.ne_opening⟩

end Coordinator

namespace World

variable {α : Type}

/-- In a run without a direct shutdown, the coordinator has stopped once a call turns to releasing
the unit, and has not while a call opens it. -/
structure Retiring (w : World α α) : Prop where
  releases : ∀ i s, w.stage? i = some s → s.isRelease = true → w.coordinator.phase = .stopped
  opening : ∀ i, w.stage? i = some .opening → w.coordinator.phase ≠ .stopped

theorem Reaches.retiring {id : String} {checked : Checked} {timer : Timer} {w : World α α}
    {t : History α α} (h : Reaches (created id checked timer) w t) (hsmooth : Smooth t) :
    w.Retiring := by
  have hcreated := orderly_created (α := α) (β := α) id checked timer
  induction h with
  | start =>
    exact ⟨fun i s hs ↦ by simp [created, stage?] at hs, fun i hs ↦ by simp [created, stage?] at hs⟩
  | @advance w w' t new hreaches hadvance ih =>
    obtain ⟨hbefore, hnew⟩ := hsmooth.of_append
    have horderly := hreaches.orderly hcreated
    obtain ⟨hreleases, hopening⟩ := ih hbefore
    cases hadvance with
    | retimes timer => exact ⟨hreleases, hopening⟩
    | declines q r =>
      refine ⟨fun i s hs hrelease ↦ ?_, fun i hs ↦ ?_⟩ <;> rw [stage?_append] at hs <;> split at hs
      · cases hs
        cases hrelease
      · exact hreleases i s hs hrelease
      · cases hs
      · exact hopening i hs
    | joins q d s hjoins =>
      have hwas {c : Coordinator} {i : Nat} {s' : Stage α α} (hs' : s' ≠ .queued)
          (hs : (⟨c, w.calls ++ [⟨q, .queued⟩]⟩ : World α α).stage? i = some s') :
          w.stage? i = some s' := by
        rw [stage?_append] at hs
        split at hs
        · exact absurd (Option.some.inj hs).symm hs'
        · exact hs
      have hqueued {s' : Stage α α} (hrelease : s'.isRelease = true) : s' ≠ .queued := by
        intro heq
        rw [heq] at hrelease
        cases hrelease
      cases hjoins with
      | shutsDown hq => exact absurd (by simp [hq]) (hnew.2 w.calls.length)
      | asks =>
        exact ⟨fun i s' hs hrelease ↦ hreleases i s' (hwas (hqueued hrelease) hs) hrelease,
          fun i hs ↦ hopening i (hwas (by simp) hs)⟩
      | stops _ hphase =>
        refine ⟨fun i s' hs hrelease ↦ ?_, fun i hs ↦ by simp [Coordinator.inLine]⟩
        exact absurd (hreleases i s' (hwas (hqueued hrelease) hs) hrelease) hphase
    | turns i call answer out hcall hlock hturn =>
      obtain ⟨hstays, hreleased, hopens⟩ := hturn.halts
      have hstage : w.stage? i = some call.stage := stage?_of_call hcall
      have hkeeps (hstopped : w.coordinator.phase = .stopped) : out.1.phase = .stopped := by
        refine hstays hstopped fun hopen ↦ ?_
        rw [hopen] at hstage
        exact hopening i hstage hstopped
      refine ⟨fun j s hs hrelease ↦ ?_, fun j hs ↦ ?_⟩ <;> rw [stage?_set hcall] at hs <;>
        split at hs
      · cases hs
        rcases hreleased hrelease with hbefore | hstopped
        · exact hkeeps (hreleases i _ hstage hbefore)
        · exact hstopped
      · exact hkeeps (hreleases j s hs hrelease)
      · exact hopens (Option.some.inj hs)
      · -- nobody else opens the unit while this call has its turn
        have hother := horderly.holder_of_operation hs rfl
        rw [hlock] at hother
        exact absurd (Option.some.inj hother).symm (by assumption)

theorem kept_holding :
    Kept (fun c (call : Call α α) t ↦ Coordinator.Suits call.request call.stage ∧
        (Smooth t → call.stage.isRelease = true → c.phase = .stopped))
      fun c i call t ↦
        c.Conducts i call.stage t ∧ (Smooth t → c.Holding call.stage t) where
  rest := by
    intro c i j call other t hcall hother ⟨hconducts, hholding⟩
    refine ⟨kept_conducts.rest hcall hother hconducts, fun hsmooth ↦ ?_⟩
    obtain ⟨hbooks, hretires, -⟩ := hholding hsmooth
    rw [Stage.outgoing_eq_none hcall, Stage.closes_eq_false hcall] at hbooks
    refine ⟨?_, hretires, fun _ op hop ↦ absurd (hother.symm.trans hop) (by simp)⟩
    rw [Stage.outgoing_eq_none hother, Stage.closes_eq_false hother]
    exact hbooks
  turns := by
    intro c i call answer out t hlock ⟨hsuits, hrelease⟩ hturn ⟨hconducts, hholding⟩
    refine ⟨hturn.conducts hconducts, fun hsmooth ↦ ?_⟩
    obtain ⟨hbefore, hnew⟩ := hsmooth.of_append
    exact hturn.holding hsuits (hrelease hbefore) hnew.of_append.1 hconducts (hholding hbefore)
  joins := by
    intro c i n q d s call t hjoins ⟨hconducts, hholding⟩
    refine ⟨kept_conducts.joins hjoins hconducts, fun hsmooth ↦ ?_⟩
    obtain ⟨hbefore, hnew⟩ := hsmooth.of_append
    have hquiet : ∀ e ∈ [(.issued n q : Event α α)], Books.Quiet e := by
      intro e he
      rw [List.mem_singleton.mp he]
      exact ⟨fun l ↦ rfl, rfl⟩
    cases hjoins with
    | asks => exact (hholding hbefore).of_eq (d := c.inLine n) rfl rfl (.inl rfl) hquiet
    | stops _ hphase =>
      exact (hholding hbefore).of_eq (d := ({ c with phase := .stopping } : Coordinator).inLine n)
        rfl rfl (.inr ⟨hphase, rfl⟩) hquiet
    | shutsDown hq => exact absurd (by simp [hq]) (hnew.2 n)
  declines := by
    intro c i n q r call t hdeclines ⟨hconducts, hholding⟩
    refine ⟨kept_conducts.declines hdeclines hconducts, fun hsmooth ↦ ?_⟩
    refine (hholding hsmooth.of_append.1).of_eq rfl rfl (.inl rfl) fun e he ↦ ?_
    rcases List.mem_cons.mp he with rfl | he
    · exact ⟨fun l ↦ rfl, rfl⟩
    · rw [List.mem_singleton.mp he]
      exact Books.quiet_replied hdeclines.watermark_or_done
  retimes := by
    intro c i call t timer ⟨hconducts, hholding⟩
    refine ⟨kept_conducts.retimes hconducts, fun hsmooth ↦ ?_⟩
    have hsame := (hholding hsmooth).of_eq (d := { c with timer := timer }) rfl rfl (.inl rfl)
      (fun e (he : e ∈ []) ↦ by cases he)
    rw [List.append_nil] at hsame
    exact hsame

theorem Reaches.holding {id : String} {checked : Checked} {timer : Timer} {w : World α α}
    {t : History α α} (h : Reaches (created id checked timer) w t) (hsmooth : Smooth t) :
    w.coordinator.Holding w.acting.2.stage t := by
  have hcreated := orderly_created (α := α) (β := α) id checked timer
  refine (kept_holding.reaches hcreated (fun hreaches call hcall ↦ ⟨?_, fun hbefore hrelease ↦ ?_⟩)
    ⟨conducts_created id checked timer, fun _ ↦ ?_⟩ h).2 hsmooth
  · exact (hreaches.orderly hcreated).suits call hcall
  · obtain ⟨i, hlt, hget⟩ := List.mem_iff_getElem.mp hcall
    refine (hreaches.retiring hbefore).releases i call.stage (stage?_of_call ?_) hrelease
    rw [List.getElem?_eq_getElem hlt, hget]
  · refine ⟨⟨rfl, fun v hv ↦ ?_, fun v hv ↦ ?_, fun _ _ a ha ↦ ?_, fun a ha ↦ ?_⟩,
      ⟨fun hgone ↦ ?_, fun hstopped ↦ ?_⟩, fun hstopped ↦ ?_⟩
    · cases hv
    · cases hv
    · cases ha
    · cases ha
    · cases hgone
    · cases hstopped
    · cases hstopped

end World

end Bundling
