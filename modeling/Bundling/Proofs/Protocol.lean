import Bundling.Proofs.Run

/-!
The protocol between a coordinator and its collaborators. `Standing` sums up a history of calls on
the execution unit and the sink, and `Standing.Permits` says which event may come next: one
operation at a time, bundles that open and finish in turn, a drain right after every finish, the
drained results in their order right after the drain, no watermark while a bundle is in progress,
and nothing once the unit has been asked to close. `Conduct` ties the standing of a run to the open
flag, the phase and the unit, and every turn keeps it.
-/

set_option autoImplicit false
set_option relaxedAutoImplicit false

namespace Bundling

/-- What the calls on the collaborators so far have come to. -/
structure Standing (α β : Type) where
  underway : Option (Nat × Operation α β) := none
  /-- The unit has been asked for nothing but to open. -/
  untouched : Bool := true
  /-- The unit has opened. -/
  opened : Bool := false
  /-- A bundle has been started, and not been asked to finish. -/
  inBundle : Bool := false
  /-- The operations that must come next, in this order. -/
  due : List (Operation α β) := []
  /-- The unit has been asked to close. -/
  closing : Bool := false

namespace Standing

variable {α β : Type}

def ask (s : Standing α β) (i : Nat) (op : Operation α β) : Standing α β :=
  match op with
  | .openUnit => { s with underway := some (i, op) }
  | .finishBundle => { s with underway := some (i, op), untouched := false, inBundle := false }
  | .closeUnit => { s with underway := some (i, op), untouched := false, closing := true }
  | _ => { s with underway := some (i, op), untouched := false }

/-- What an answer makes due, given what has been due. -/
def dueAfter (due : List (Operation α β)) :
    Operation α β → Except Failure (List β) → List (Operation α β)
  | .finishBundle, .ok _ => [.drainResults]
  | .drainResults, .ok results => results.map .emit
  | .emit _, .ok _ => due.tail
  | _, _ => []

def answer (s : Standing α β) (op : Operation α β) (a : Except Failure (List β)) :
    Standing α β :=
  let s := { s with underway := none, due := dueAfter s.due op a }
  match op, a with
  | .openUnit, .ok _ => { s with opened := true }
  | .startBundle, .ok _ => { s with inBundle := true }
  | _, _ => s

def step (s : Standing α β) : Event α β → Standing α β
  | .asked i op => s.ask i op
  | .answered _ op a => s.answer op a
  | .issued _ _ | .replied _ _ _ => s

/-- The standing after a history. -/
def after (h : History α β) : Standing α β := h.foldl step {}

/-- The operations that may come next once nothing is under way. -/
def Follows (s : Standing α β) (op : Operation α β) : Prop :=
  match s.due with
  | next :: _ => op = next
  | [] =>
    match op with
    | .openUnit => s.untouched = true
    | .startBundle => s.opened = true ∧ s.inBundle = false
    | .process _ | .finishBundle => s.inBundle = true
    | .drainResults | .emit _ => False
    | .forward _ => s.inBundle = false
    | .closeUnit => True

def Permits (s : Standing α β) : Event α β → Prop
  | .asked _ op => s.underway = none ∧ s.closing = false ∧ s.Follows op
  | .answered i op _ => s.underway = some (i, op)
  | .issued _ _ | .replied _ _ _ => True

/-- Every event of the history was permitted when it came. -/
def Lawful (h : History α β) : Prop :=
  ∀ before e rest, h = before ++ e :: rest → (after before).Permits e

@[simp] theorem ask_underway (s : Standing α β) (i : Nat) (op : Operation α β) :
    (s.ask i op).underway = some (i, op) := by
  cases op <;> rfl

@[simp] theorem ask_due (s : Standing α β) (i : Nat) (op : Operation α β) :
    (s.ask i op).due = s.due := by
  cases op <;> rfl

@[simp] theorem ask_opened (s : Standing α β) (i : Nat) (op : Operation α β) :
    (s.ask i op).opened = s.opened := by
  cases op <;> rfl

@[simp] theorem answer_underway (s : Standing α β) (op : Operation α β)
    (a : Except Failure (List β)) : (s.answer op a).underway = none := by
  cases op <;> cases a <;> rfl

@[simp] theorem answer_due (s : Standing α β) (op : Operation α β)
    (a : Except Failure (List β)) : (s.answer op a).due = dueAfter s.due op a := by
  cases op <;> cases a <;> rfl

@[simp] theorem answer_closing (s : Standing α β) (op : Operation α β)
    (a : Except Failure (List β)) : (s.answer op a).closing = s.closing := by
  cases op <;> cases a <;> rfl

@[simp] theorem answer_untouched (s : Standing α β) (op : Operation α β)
    (a : Except Failure (List β)) : (s.answer op a).untouched = s.untouched := by
  cases op <;> cases a <;> rfl

@[simp] theorem after_append (h new : History α β) : after (h ++ new) = new.foldl step (after h) :=
  List.foldl_append

theorem after_snoc (h : History α β) (e : Event α β) : after (h ++ [e]) = (after h).step e :=
  after_append h [e]

theorem lawful_nil : Lawful ([] : History α β) := by
  intro before e rest h
  simp at h

theorem Lawful.snoc {h : History α β} (hlawful : Lawful h) {e : Event α β}
    (he : (after h).Permits e) : Lawful (h ++ [e]) := by
  intro before e' rest heq
  rcases List.eq_nil_or_concat rest with rfl | ⟨rest', last, rfl⟩
  · obtain ⟨rfl, hlast⟩ := List.append_inj' heq rfl
    cases hlast
    exact he
  · have hsplit : h ++ [e] = (before ++ e' :: rest') ++ [last] := by simpa using heq
    exact hlawful before e' rest' (List.append_inj' hsplit rfl).1

theorem Lawful.of_append {h new : History α β} (hlawful : Lawful (h ++ new)) : Lawful h :=
  fun before e rest heq ↦ hlawful before e (rest ++ new) (by simp [heq])

/-- Calls made and replies given are no calls on the collaborators. -/
theorem Lawful.append {h new : History α β} (hlawful : Lawful h)
    (hnew : ∀ e ∈ new, e.IsOuter) :
    Lawful (h ++ new) ∧ after (h ++ new) = after h := by
  induction new generalizing h with
  | nil => exact ⟨by simpa using hlawful, by simp⟩
  | cons e new ih =>
    have hquiet : (after h).Permits e ∧ (after h).step e = after h := by
      have he := hnew e List.mem_cons_self
      cases e with
      | issued | replied => exact ⟨trivial, rfl⟩
      | asked | answered => cases he
    obtain ⟨hrest, hafter⟩ := ih (hlawful.snoc hquiet.1) fun e' he' ↦
      hnew e' (List.mem_cons_of_mem e he')
    rw [List.append_cons]
    refine ⟨hrest, hafter.trans ?_⟩
    rw [after_append]
    exact hquiet.2

end Standing

namespace Stage

variable {α β : Type}

/-- The operations that a close has begun and must go on with. -/
def due : Stage α β → List (Operation α β)
  | draining _ => [.drainResults]
  | emitting _ r rest _ => .emit r :: rest.map .emit
  | _ => []

theorem operation?_of_due {s : Stage α β} {op : Operation α β} {rest : List (Operation α β)}
    (h : s.due = op :: rest) : s.operation? = some op := by
  cases s with
  | draining | emitting =>
    cases h
    rfl
  | _ => cases h

theorem due_eq_nil {s : Stage α β} (hs : s.operation? = none) : s.due = [] := by
  cases s <;> first | rfl | cases hs

end Stage

/-- The coordinator agrees with the standing of a history, where this operation is under way and
these are due. The open flag rises before a bundle is started and falls before it is finished. -/
structure Conduct {α β : Type} (c : Coordinator) (current : Option (Nat × Operation α β))
    (next : List (Operation α β)) (h : History α β) : Prop where
  lawful : Standing.Lawful h
  underway : (Standing.after h).underway = current
  due : (Standing.after h).due = next
  closing : (Standing.after h).closing = !c.hasUnit
  bundle : c.hasUnit = true → ((Standing.after h).inBundle = true ↔
    c.slot.isOpen = true ∧ current.map Prod.snd ≠ some .startBundle)
  opened : c.phase = .running → (Standing.after h).opened = true
  created : c.phase = .created → c.hasUnit = true →
    (Standing.after h).untouched = true ∧ c.slot.isOpen = false

namespace Conduct

variable {α β : Type} {c d : Coordinator} {i : Nat} {op : Operation α β}
  {current : Option (Nat × Operation α β)} {next : List (Operation α β)} {h : History α β}

/-- Only the phase, the unit and the open flag of a unit that is there matter, and the phase may go
on to a stop. -/
theorem mono (hc : Conduct c current next h) (hunit : d.hasUnit = c.hasUnit)
    (hopen : c.hasUnit = true → d.slot.isOpen = c.slot.isOpen)
    (hphase : d.phase = c.phase ∨ d.phase = .stopping ∨ d.phase = .stopped) :
    Conduct d current next h where
  lawful := hc.lawful
  underway := hc.underway
  due := hc.due
  closing := by rw [hc.closing, hunit]
  bundle := by
    intro hthere
    rw [hunit] at hthere
    rw [hopen hthere]
    exact hc.bundle hthere
  opened := by
    intro hrunning
    rw [hrunning] at hphase
    exact hc.opened (by simpa [eq_comm] using hphase)
  created := by
    intro hcreated hthere
    rw [hcreated] at hphase
    rw [hunit] at hthere
    rw [hopen hthere]
    exact hc.created (by simpa [eq_comm] using hphase) hthere

theorem quiet (hc : Conduct c current next h) {new : History α β}
    (hnew : ∀ e ∈ new, e.IsOuter) :
    Conduct c current next (h ++ new) := by
  obtain ⟨hlawful, hafter⟩ := hc.lawful.append hnew
  constructor
  case lawful => exact hlawful
  all_goals rw [hafter]
  · exact hc.underway
  · exact hc.due
  · exact hc.closing
  · exact hc.bundle
  · exact hc.opened
  · exact hc.created

/-! ### Asking -/

/-- An operation is asked for while the unit is there. -/
theorem asks (hc : Conduct c none next h) (hunit : c.hasUnit = true)
    (hfollows : (Standing.after h).Follows op) (hphase : d.phase = c.phase)
    (hclosing : ((Standing.after h).ask i op).closing = !d.hasUnit)
    (hbundle : d.hasUnit = true → (((Standing.after h).ask i op).inBundle = true ↔
      d.slot.isOpen = true ∧ op ≠ .startBundle))
    (hcreated : d.phase = .created → d.hasUnit = true →
      ((Standing.after h).ask i op).untouched = true ∧ d.slot.isOpen = false) :
    Conduct d (some (i, op)) next (h ++ [Event.asked i op]) := by
  have hafter : Standing.after (h ++ [Event.asked i op]) = (Standing.after h).ask i op :=
    Standing.after_snoc h _
  constructor
  case lawful =>
    refine hc.lawful.snoc ⟨hc.underway, ?_, hfollows⟩
    rw [hc.closing, hunit]
    rfl
  all_goals rw [hafter]
  · exact Standing.ask_underway _ _ _
  · exact (Standing.ask_due _ _ _).trans hc.due
  · exact hclosing
  · simpa using hbundle
  · rw [Standing.ask_opened, hphase]
    exact hc.opened
  · exact hcreated

/-- The first operation of all. -/
theorem asks_open (hc : Conduct c none [] h) (hunit : c.hasUnit = true)
    (hphase : c.phase = .created) :
    Conduct c (some (i, .openUnit)) [] (h ++ [Event.asked i .openUnit]) := by
  obtain ⟨huntouched, hshut⟩ := hc.created hphase hunit
  refine hc.asks hunit ?_ rfl hc.closing (fun _ ↦ ?_) (fun _ _ ↦ ⟨huntouched, hshut⟩)
  · rw [Standing.Follows, hc.due]
    exact huntouched
  · simpa [Standing.ask] using hc.bundle hunit

theorem asks_start (hc : Conduct c none [] h) (hunit : c.hasUnit = true)
    (hphase : c.phase = .running) (hopen : c.slot.isOpen = false) :
    Conduct { c with slot := c.slot.tryOpen.2 } (some (i, .startBundle)) []
      (h ++ [Event.asked i .startBundle]) := by
  have hbundle : (Standing.after h).inBundle = false := by
    simpa [hopen] using hc.bundle hunit
  refine hc.asks hunit ?_ rfl hc.closing (fun _ ↦ ?_) (fun hcreated ↦ ?_)
  · rw [Standing.Follows, hc.due]
    exact ⟨hc.opened hphase, hbundle⟩
  · simp [Standing.ask, hbundle]
  · exact absurd (hphase.symm.trans hcreated) (by simp)

theorem asks_finish (hc : Conduct c none [] h) (hunit : c.hasUnit = true)
    (hphase : c.phase ≠ .created) (hopen : c.slot.isOpen = true) :
    Conduct { c with slot := c.slot.tryClose.2 } (some (i, .finishBundle)) []
      (h ++ [Event.asked i .finishBundle]) := by
  refine hc.asks hunit ?_ rfl hc.closing (fun _ ↦ ?_) (fun hcreated ↦ absurd hcreated hphase)
  · rw [Standing.Follows, hc.due]
    exact (hc.bundle hunit).mpr ⟨hopen, by simp⟩
  · simp [Standing.ask, Slot.tryClose]

theorem asks_close (hc : Conduct c none [] h) (hunit : c.hasUnit = true) :
    Conduct { c with hasUnit := false } (some (i, .closeUnit)) []
      (h ++ [Event.asked i .closeUnit]) := by
  refine hc.asks hunit ?_ rfl rfl (fun hgone ↦ ?_) (fun _ hgone ↦ ?_)
  · rw [Standing.Follows, hc.due]
    trivial
  · cases hgone
  · cases hgone

/-- Every other operation leaves the open flag as it is. -/
theorem asks_on (hc : Conduct c none next h) (hunit : c.hasUnit = true)
    (hphase : c.phase ≠ .created) (hfollows : (Standing.after h).Follows op)
    (hop : ∀ s : Standing α β,
      (s.ask i op).closing = s.closing ∧ (s.ask i op).inBundle = s.inBundle)
    (hstart : op ≠ .startBundle) : Conduct c (some (i, op)) next (h ++ [Event.asked i op]) := by
  refine hc.asks hunit hfollows rfl ?_ (fun _ ↦ ?_) (fun hcreated ↦ absurd hcreated hphase)
  · rw [(hop _).1]
    exact hc.closing
  · rw [(hop _).2]
    simpa [hstart] using hc.bundle hunit

/-! ### Answers -/

/-- An answer to anything but the start of a bundle. -/
theorem answered (hc : Conduct c (some (i, op)) next h) (hstart : op ≠ .startBundle)
    (a : Except Failure (List β)) :
    Conduct c none (Standing.dueAfter next op a) (h ++ [Event.answered i op a]) := by
  have hafter : Standing.after (h ++ [Event.answered i op a]) = (Standing.after h).answer op a :=
    Standing.after_snoc h _
  have hsame : ((Standing.after h).answer op a).inBundle = (Standing.after h).inBundle := by
    cases op <;> cases a <;> first | rfl | exact absurd rfl hstart
  constructor
  case lawful => exact hc.lawful.snoc hc.underway
  all_goals rw [hafter]
  · exact Standing.answer_underway _ _ _
  · rw [Standing.answer_due, hc.due]
  · rw [Standing.answer_closing]
    exact hc.closing
  · rw [hsame]
    simpa [hstart] using hc.bundle
  · intro hphase
    cases op <;> cases a <;> first | rfl | exact hc.opened hphase
  · rw [Standing.answer_untouched]
    exact hc.created

/-- The unit has opened, and the coordinator runs. -/
theorem runs (hc : Conduct c (some (i, .openUnit)) next h) (results : List β)
    (hunit : d.hasUnit = c.hasUnit) (hopen : d.slot.isOpen = c.slot.isOpen)
    (hphase : d.phase = .running) :
    Conduct d none [] (h ++ [Event.answered i .openUnit (.ok results)]) := by
  have hanswered := hc.answered (by simp) (.ok results)
  constructor
  case lawful => exact hanswered.lawful
  case underway => exact hanswered.underway
  case due => exact hanswered.due
  case closing => rw [hanswered.closing, hunit]
  case bundle =>
    rw [hunit, hopen]
    exact hanswered.bundle
  case opened =>
    intro _
    rw [Standing.after_append]
    rfl
  case created => exact fun hcreated ↦ absurd (hphase.symm.trans hcreated) (by simp)

/-- A bundle has been started. -/
theorem started (hc : Conduct c (some (i, .startBundle)) next h) (hopen : c.slot.isOpen = true)
    (results : List β) :
    Conduct c none [] (h ++ [Event.answered i .startBundle (.ok results)]) := by
  have hafter : Standing.after (h ++ [Event.answered i .startBundle (.ok results)]) =
      (Standing.after h).answer .startBundle (.ok results) :=
    Standing.after_snoc h _
  constructor
  case lawful => exact hc.lawful.snoc hc.underway
  all_goals rw [hafter]
  · rfl
  · rfl
  · exact hc.closing
  · simp [Standing.answer, hopen]
  · exact hc.opened
  · exact hc.created

/-- A bundle could not be started: the open flag falls again. -/
theorem startedNot (hc : Conduct c (some (i, .startBundle)) next h) (f : Failure) :
    Conduct { c with slot := c.slot.tryClose.2 } none []
      (h ++ [Event.answered i .startBundle (.error f)]) := by
  have hafter : Standing.after (h ++ [Event.answered i .startBundle (.error f)]) =
      (Standing.after h).answer .startBundle (.error f) :=
    Standing.after_snoc h _
  constructor
  case lawful => exact hc.lawful.snoc hc.underway
  all_goals rw [hafter]
  · rfl
  · rfl
  · exact hc.closing
  · intro hunit
    have hbundle : (Standing.after h).inBundle = false := by simpa using hc.bundle hunit
    simp [Standing.answer, Slot.tryClose, hbundle]
  · exact hc.opened
  · exact fun hphase hunit ↦ ⟨(hc.created hphase hunit).1, rfl⟩

end Conduct

namespace Coordinator

variable {α β : Type} {c : Coordinator} {i : Nat} {q : Request α} {h : History α β}

/-- What a call has found, or brought about, by the time it waits for a collaborator. -/
def Fits (c : Coordinator) : Stage α β → Prop
  | .opening => c.hasUnit = true
  | .starting _ | .processing _ =>
    c.hasUnit = true ∧ c.phase ≠ .created ∧ c.slot.isOpen = true
  | .finishing _ | .draining _ | .emitting _ _ _ _ | .releasing _ _ | .forwarding _ =>
    c.hasUnit = true ∧ c.phase ≠ .created ∧ c.slot.isOpen = false
  | .closingUnit _ => c.hasUnit = false
  | .queued | .queuedToRelease _ | .ended _ => True

theorem fits_of_rest (c : Coordinator) {s : Stage α β} (hs : s.operation? = none) : c.Fits s := by
  cases s <;> trivial

/-- The invariant: the coordinator agrees with the history, and with the call that acts. -/
structure Conducts (c : Coordinator) (i : Nat) (s : Stage α β) (h : History α β) : Prop where
  conduct : Conduct c (s.operation?.map fun op ↦ (i, op)) s.due h
  fits : c.Fits s

/-- A call that waits for no collaborator puts nothing on the history but its reply. -/
theorem conducts_of_rest {d : Coordinator} {s : Stage α β} (hc : Conduct c none [] h)
    (hs : s.operation? = none) (hunit : d.hasUnit = c.hasUnit)
    (hopen : c.hasUnit = true → d.slot.isOpen = c.slot.isOpen)
    (hphase : d.phase = c.phase ∨ d.phase = .stopped) :
    Conducts d i s (h ++ Event.reached i q s) := by
  have hrest := hc.mono hunit hopen (hphase.imp_right .inr)
  refine ⟨?_, fits_of_rest d hs⟩
  rw [hs, Stage.due_eq_nil hs]
  exact hrest.quiet fun e he ↦ Event.isOuter_of_mem_reached hs he

theorem conducts_of_forward (w : Watermark) (hc : Conduct c none [] h) (hunit : c.hasUnit = true)
    (hphase : c.phase ≠ .created) (hopen : c.slot.isOpen = false) :
    Conducts c i (.forwarding w : Stage α β) (h ++ [Event.asked i (.forward w)]) := by
  refine ⟨hc.asks_on hunit hphase ?_ (fun _ ↦ ⟨rfl, rfl⟩) (by simp), hunit, hphase, hopen⟩
  rw [Standing.Follows, hc.due]
  simpa [hopen] using hc.bundle hunit

theorem Departure.conducts {f : Option Failure} {out : Coordinator × Stage α β}
    (hout : Departure i f c out) (hc : Conduct c none [] h) :
    Conducts out.1 i out.2 (h ++ Event.reached i q out.2) := by
  have hceased : Conduct (c.ceased.inLine i) none [] h :=
    hc.mono (ceased_hasUnit c) (fun _ ↦ congrArg _ (ceased_slot c)) (.inr (.inr (ceased_phase c)))
  cases hout with
  | already => exact conducts_of_rest hc rfl rfl (fun _ ↦ rfl) (.inl rfl)
  | waits => exact conducts_of_rest hceased rfl rfl (fun _ ↦ rfl) (.inl rfl)
  | takes _ _ hunit => exact ⟨hceased.asks_close ((ceased_hasUnit c).trans hunit), rfl⟩
  | settles notices reply _ _ hunit =>
    have hgone : (c.ceased.inLine i).hasUnit = false := (ceased_hasUnit c).trans hunit
    refine conducts_of_rest hceased rfl rfl (fun hthere ↦ ?_) (.inl rfl)
    exact absurd (hgone.symm.trans hthere) (by simp)

theorem Parting.conducts {result : Except Failure Bool} {out : Coordinator × Stage α β}
    (hout : Parting i q c result out) (hc : Conduct c none [] h)
    (hmark : ∀ w, q = .watermark w →
      c.hasUnit = true ∧ c.phase ≠ .created ∧ c.slot.isOpen = false) :
    Conducts out.1 i out.2 (h ++ Event.reached i q out.2) := by
  cases hout with
  | forwards w _ hq =>
    obtain ⟨hunit, hphase, hopen⟩ := hmark w hq
    exact conducts_of_forward w hc hunit hphase hopen
  | answers | fails | latches => exact conducts_of_rest hc rfl rfl (fun _ ↦ rfl) (.inl rfl)
  | departs notices _ _ _ _ _ hdeparts =>
    exact hdeparts.conducts (hc.mono rfl (fun _ ↦ rfl) (.inl rfl))

/-- A close goes on with the results that are due, or ends when none is. -/
theorem Emission.conducts {close : Close} {total : Nat} {results : List β}
    {out : Coordinator × Stage α β} (hout : Emission i q c close total results out)
    (hc : Conduct c none (results.map .emit) h) (hunit : c.hasUnit = true)
    (hphase : c.phase ≠ .created) (hopen : c.slot.isOpen = false) :
    Conducts out.1 i out.2 (h ++ Event.reached i q out.2) := by
  cases hout with
  | more r rest =>
    refine ⟨hc.asks_on hunit hphase ?_ (fun _ ↦ ⟨rfl, rfl⟩) (by simp), hunit, hphase, hopen⟩
    rw [Standing.Follows, hc.due]
    rfl
  | lets w =>
    have hsettled : Conduct (c.settled close total) none [] h :=
      hc.mono rfl (fun _ ↦ rfl) (.inl rfl)
    have hconducts := conducts_of_forward (i := i) w hsettled hunit hphase hopen
    exact ⟨hconducts.conduct, hconducts.fits⟩
  | last _ _ hparts =>
    have hsettled : Conduct (c.settled close total) none [] h :=
      hc.mono rfl (fun _ ↦ rfl) (.inl rfl)
    exact hparts.conducts hsettled fun _ _ ↦ ⟨hunit, hphase, hopen⟩

/-- A turn that starts when the lock is granted. -/
theorem Turn.conducts_of_grant {s : Stage α β} {a : Except Failure (List β)}
    {out : Coordinator × Stage α β} (hout : Turn i q c s a out) (hs : s.operation? = none)
    (hc : Conduct c none [] h) : Conducts out.1 i out.2 (h ++ Event.reached i q out.2) := by
  cases hout with
  | refused | passes => exact conducts_of_rest hc rfl rfl (fun _ ↦ rfl) (.inl rfl)
  | opens _ hq hadmitted =>
    subst hq
    exact ⟨hc.asks_open hadmitted.2 hadmitted.1, hadmitted.2⟩
  | continues _ x hq hadmitted hopen =>
    subst hq
    obtain ⟨-, hphase, hunit⟩ := hadmitted
    have hphase : c.phase ≠ .created := by simp [hphase]
    refine ⟨hc.asks_on hunit hphase ?_ (fun _ ↦ ⟨rfl, rfl⟩) (by simp), hunit, hphase, hopen⟩
    rw [Standing.Follows, hc.due]
    exact (hc.bundle hunit).mpr ⟨hopen, by simp⟩
  | starts _ x hq hadmitted hopen =>
    subst hq
    obtain ⟨-, hphase, hunit⟩ := hadmitted
    exact ⟨hc.asks_start hunit hphase hopen, hunit, by simp [hphase], rfl⟩
  | holds => exact conducts_of_rest hc rfl rfl (fun _ ↦ rfl) (.inl rfl)
  | forwards _ w hq hadmitted _ hopen =>
    subst hq
    obtain ⟨-, hphase, hunit⟩ := hadmitted
    exact conducts_of_forward w hc hunit (by simp [hphase]) hopen
  | closes _ t _ _ hunit hopen =>
    have hphase : c.phase ≠ .created := by
      intro hcreated
      have hshut := (hc.created hcreated hunit).2
      exact absurd (hopen.symm.trans hshut) (by simp)
    exact ⟨hc.asks_finish hunit hphase hopen, hunit, hphase, rfl⟩
  | idles _ t _ hq hidle hmark hparts =>
    refine hparts.conducts hc fun w hw ↦ ?_
    have hadmitted := hmark w hw
    subst hw
    exact ⟨hadmitted.2.2, by simp [hadmitted.2.1], hidle hadmitted hadmitted.2.2⟩
  | takesUnit _ r hunit => exact ⟨hc.asks_close hunit, rfl⟩
  | findsNoUnit _ r notices reply hunit =>
    exact conducts_of_rest hc rfl rfl (fun hthere ↦ absurd (hunit.symm.trans hthere) (by simp))
      (.inl rfl)
  | _ => cases hs

/-- A turn that starts with a collaborator's answer. -/
theorem Turn.conducts_of_answer {s : Stage α β} {a : Except Failure (List β)}
    {out : Coordinator × Stage α β} (hout : Turn i q c s a out) (hs : s.operation?.isSome = true)
    (hc : Conducts c i s h) :
    Conducts out.1 i out.2 ((h ++ Event.left i s a) ++ Event.reached i q out.2) := by
  obtain ⟨hconduct, hfits⟩ := hc
  cases hout with
  | opensNot f =>
    exact conducts_of_rest (hconduct.answered (by simp) (.error f)) rfl rfl (fun _ ↦ rfl) (.inl rfl)
  | schedulesNot results =>
    exact conducts_of_rest (hconduct.answered (by simp) (.ok [])) rfl rfl (fun _ ↦ rfl) (.inl rfl)
  | runs results index timer notices =>
    refine conducts_of_rest (hconduct.runs [] ?_ ?_ ?_) rfl rfl (fun _ ↦ rfl) (.inl rfl)
    all_goals rfl
  | startsNot x f => exact conducts_of_rest (hconduct.startedNot f) rfl rfl (fun _ ↦ rfl) (.inl rfl)
  | started x results notices =>
    obtain ⟨hunit, hphase, hopen⟩ := hfits
    have hstarted := (hconduct.started hopen []).mono
      (d := { c with tally := c.tally.bundleStarted, notices := notices }) rfl (fun _ ↦ rfl)
      (.inl rfl)
    refine ⟨hstarted.asks_on hunit hphase ?_ (fun _ ↦ ⟨rfl, rfl⟩) (by simp), hunit, hphase, hopen⟩
    rw [Standing.Follows, hstarted.due]
    exact (hstarted.bundle hunit).mpr ⟨hopen, by simp⟩
  | processesNot x f =>
    exact conducts_of_rest (hconduct.answered (by simp) (.error f)) rfl rfl (fun _ ↦ rfl) (.inl rfl)
  | accepts =>
    exact conducts_of_rest (hconduct.answered (by simp) (.ok [])) rfl rfl (fun _ ↦ rfl) (.inl rfl)
  | fills x results =>
    obtain ⟨hunit, hphase, hopen⟩ := hfits
    have hcounted := (hconduct.answered (by simp) (.ok [])).mono (d := c.counted) rfl
      (fun _ ↦ rfl) (.inl rfl)
    exact ⟨hcounted.asks_finish hunit hphase hopen, hunit, hphase, rfl⟩
  | fillsNone x results _ _ hidle =>
    obtain ⟨hunit, -, hopen⟩ := hfits
    exact absurd (hopen.symm.trans (hidle hunit)) (by simp)
  | finishesNot close f _ hparts =>
    exact hparts.conducts (hconduct.answered (by simp) (.error f)) fun _ _ ↦ hfits
  | finished close results =>
    obtain ⟨hunit, hphase, hopen⟩ := hfits
    have hfinished : Conduct c none [.drainResults] _ := hconduct.answered (by simp) (.ok [])
    refine ⟨hfinished.asks_on hunit hphase ?_ (fun _ ↦ ⟨rfl, rfl⟩) (by simp), hunit, hphase, hopen⟩
    rw [Standing.Follows, hfinished.due]
  | drainsNot close f _ hparts =>
    exact hparts.conducts (hconduct.answered (by simp) (.error f)) fun _ _ ↦ hfits
  | drained close results _ hemission =>
    obtain ⟨hunit, hphase, hopen⟩ := hfits
    exact hemission.conducts (hconduct.answered (by simp) (.ok results)) hunit hphase hopen
  | emitsNot close r rest total f _ hparts =>
    exact hparts.conducts (hconduct.answered (by simp) (.error f)) fun _ _ ↦ hfits
  | emitted close r rest total results _ hemission =>
    obtain ⟨hunit, hphase, hopen⟩ := hfits
    exact hemission.conducts (hconduct.answered (by simp) (.ok [])) hunit hphase hopen
  | releasesNot close w f _ hparts =>
    exact hparts.conducts (hconduct.answered (by simp) (.error f)) fun _ _ ↦ hfits
  | released close w results _ hparts =>
    have hforwarded : Conduct (c.forwarded w) none [] _ :=
      (hconduct.answered (by simp) (.ok [])).mono rfl (fun _ ↦ rfl) (.inl rfl)
    exact hparts.conducts hforwarded fun _ _ ↦ hfits
  | forwardsNot w f =>
    exact conducts_of_rest (hconduct.answered (by simp) (.error f)) rfl rfl (fun _ ↦ rfl) (.inl rfl)
  | forwarded w results =>
    exact conducts_of_rest (hconduct.answered (by simp) (.ok [])) rfl rfl (fun _ ↦ rfl) (.inl rfl)
  | settles r a =>
    refine conducts_of_rest (hconduct.answered (by simp) _) rfl rfl (fun hthere ↦ ?_) (.inl rfl)
    exact absurd (hfits.symm.trans hthere) (by simp)
  | _ => cases hs

theorem Turn.conducts {s : Stage α β} {a : Except Failure (List β)}
    {out : Coordinator × Stage α β} (hout : Turn i q c s a out) (hc : Conducts c i s h) :
    Conducts out.1 i out.2 (h ++ (Event.left i s a ++ Event.reached i q out.2)) := by
  rw [← List.append_assoc]
  cases hs : s.operation? with
  | some op => exact hout.conducts_of_answer (by rw [hs]; rfl) hc
  | none =>
    have hconduct := hc.conduct
    rw [hs, Stage.due_eq_nil hs] at hconduct
    rw [Event.left_eq_nil hs, List.append_nil]
    exact hout.conducts_of_grant hs hconduct

/-- Other calls may stop the coordinator at any time, but change nothing else that matters. -/
theorem Conducts.mono {d : Coordinator} {s : Stage α β} (hc : Conducts c i s h)
    (hunit : d.hasUnit = c.hasUnit) (hopen : d.slot.isOpen = c.slot.isOpen)
    (hphase : d.phase = c.phase ∨ d.phase = .stopping ∨ d.phase = .stopped) {new : History α β}
    (hnew : ∀ e ∈ new, e.IsOuter) :
    Conducts d i s (h ++ new) := by
  refine ⟨(hc.conduct.mono hunit (fun _ ↦ hopen) hphase).quiet hnew, ?_⟩
  have hfits := hc.fits
  have hcreated : c.phase ≠ .created → d.phase ≠ .created := by
    intro hne heq
    rw [heq] at hphase
    exact hne (by simpa [eq_comm] using hphase)
  cases s <;> unfold Fits at hfits ⊢ <;> simp_all

end Coordinator

namespace World

variable {α β : Type}

theorem kept_conducts : Kept (fun _ _ _ ↦ True)
    fun c i (call : Call α β) t ↦ c.Conducts i call.stage t where
  rest := by
    intro c i j call other t hcall hother h
    have hconduct := h.conduct
    rw [hcall, Stage.due_eq_nil hcall] at hconduct
    refine ⟨?_, Coordinator.fits_of_rest c hother⟩
    rw [hother, Stage.due_eq_nil hother]
    exact hconduct
  turns := fun _ _ hturn h ↦ hturn.conducts h
  joins := by
    intro c i n q d s call t hjoins h
    have hnew : ∀ e ∈ [(Event.issued n q : Event α β)], e.IsOuter := by
      intro e he
      rw [List.mem_singleton.mp he]
      trivial
    cases hjoins with
    | asks => exact h.mono (d := c.inLine n) rfl rfl (.inl rfl) hnew
    | stops =>
      exact h.mono (d := ({ c with phase := .stopping } : Coordinator).inLine n) rfl rfl
        (.inr (.inl rfl)) hnew
    | shutsDown =>
      exact h.mono (d := c.ceased.inLine n) (Coordinator.ceased_hasUnit c)
        (congrArg _ (Coordinator.ceased_slot c)) (.inr (.inr (Coordinator.ceased_phase c))) hnew
  declines := by
    intro c i n q r call t _ h
    refine h.mono rfl rfl (.inl rfl) fun e he ↦ ?_
    rcases List.mem_cons.mp he with rfl | he
    · trivial
    · rw [List.mem_singleton.mp he]
      trivial
  retimes := by
    intro c i call t timer h
    have hsame : ({ c with timer := timer } : Coordinator).Conducts i call.stage (t ++ []) :=
      h.mono (d := { c with timer := timer }) rfl rfl (.inl rfl) fun e he ↦ by cases he
    rw [List.append_nil] at hsame
    exact hsame

theorem conducts_created (id : String) (checked : Checked) (timer : Timer) :
    let w : World α β := created id checked timer
    w.coordinator.Conducts w.acting.1 w.acting.2.stage [] := by
  intro w
  refine ⟨⟨Standing.lawful_nil, rfl, rfl, rfl, fun _ ↦ ?_, fun hrunning ↦ ?_, fun _ _ ↦ ?_⟩,
    trivial⟩
  · simp [Standing.after, w, created, Coordinator.create, Slot.fresh]
  · cases hrunning
  · exact ⟨rfl, rfl⟩

theorem Reaches.conducts {id : String} {checked : Checked} {timer : Timer} {w : World α β}
    {t : History α β} (h : Reaches (created id checked timer) w t) :
    w.coordinator.Conducts w.acting.1 w.acting.2.stage t :=
  kept_conducts.reaches (orderly_created id checked timer) (fun _ _ _ ↦ trivial)
    (conducts_created id checked timer) h

theorem calls_acting {w : World α β} (h : w.acting.2.stage.operation?.isSome = true) :
    w.calls[w.acting.1]? = some w.acting.2 := by
  cases hlock : w.coordinator.lock.holder with
  | none => simp [acting, hlock, Stage.operation?] at h
  | some i =>
    cases hcall : w.calls[i]? with
    | none => simp [acting, hlock, hcall, Stage.operation?] at h
    | some call => rw [acting_of_holder hlock hcall, hcall]

/-- In every run the calls on the unit and the sink follow one another as the bundle protocol has
it; the operation under way is the one that a call waits for; and what is due next has been asked
for already. -/
theorem run_follows_protocol (id : String) (checked : Checked) (timer : Timer)
    (moves : List (Move α β)) :
    let w : World α β := (created id checked timer).run moves
    let t := (created id checked timer : World α β).trace moves
    (∀ before e rest, t = before ++ e :: rest → (Standing.after before).Permits e) ∧
      (∀ i op, (w.stage? i).bind Stage.operation? = some op ↔
        (Standing.after t).underway = some (i, op)) ∧
      ∀ op rest, (Standing.after t).due = op :: rest →
        ∃ i, (Standing.after t).underway = some (i, op) := by
  intro w t
  have hcreated := orderly_created (α := α) (β := β) id checked timer
  have hreaches : Reaches (created id checked timer) w t := reaches_run hcreated moves
  have horderly : w.Orderly := hreaches.orderly hcreated
  have hconduct := hreaches.conducts.conduct
  have hunderway (i : Nat) (op : Operation α β) :
      (w.stage? i).bind Stage.operation? = some op ↔
        (Standing.after t).underway = some (i, op) := by
    rw [hconduct.underway]
    constructor
    · intro h
      obtain ⟨s, hs, hop⟩ := Option.bind_eq_some_iff.mp h
      obtain ⟨call, hcall, rfl⟩ := Option.map_eq_some_iff.mp hs
      rw [horderly.acting_of_operation hcall (by rw [hop]; rfl)]
      exact congrArg _ hop
    · intro h
      obtain ⟨op', hop, heq⟩ := Option.map_eq_some_iff.mp h
      cases heq
      have hcall := calls_acting (by rw [hop]; rfl)
      rw [stage?_of_call hcall]
      exact hop
  refine ⟨hconduct.lawful, hunderway, fun op rest hdue ↦ ?_⟩
  rw [hconduct.due] at hdue
  rw [hconduct.underway, Stage.operation?_of_due hdue]
  exact ⟨_, rfl⟩

end World

end Bundling
