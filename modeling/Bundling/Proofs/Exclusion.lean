import Bundling.Slot
import Mathlib.Data.List.Chain
import Mathlib.Data.List.Induction

/-!
What callers can do to a slot by atomic steps, in whatever order the steps take effect. Successful
openings and closings alternate, so of all attempts to close a bundle one at most succeeds; and the
watermarks put into the slot leave it in the order in which they came, each with the first step
after it that holds another one or takes it out.
-/

set_option autoImplicit false
set_option relaxedAutoImplicit false

namespace Bundling.Slot

/-- What callers do: a step each time, by number of the caller, in the order in which the steps take
effect. Every interleaving of what the callers do on their own is such a list. -/
abbrev Schedule := List (Nat × Move)

/-- A step that a caller has made, and the answer to it. -/
structure Deed where
  caller : Nat
  move : Move
  answer : Answer
  deriving DecidableEq

/-- The slot behind the steps of a schedule. -/
def after (s : Slot) (acts : Schedule) : Slot := acts.foldl (fun s a ↦ (s.step a.2).2) s

/-- A step of a schedule as it is made on a slot. -/
def deed (s : Slot) (a : Nat × Move) : Deed := ⟨a.1, a.2, (s.step a.2).1⟩

def deeds (s : Slot) : Schedule → List Deed
  | [] => []
  | a :: acts => s.deed a :: deeds (s.step a.2).2 acts

/-- The two ways in which the flag changes. -/
inductive Flip where
  | opening
  | closing
  deriving DecidableEq

namespace Flip

/-- How the flag stands behind a change. -/
def leavesOpen : Flip → Bool
  | opening => true
  | closing => false

theorem leavesOpen_injective {k k' : Flip} (h : k.leavesOpen = k'.leavesOpen) : k = k' := by
  cases k <;> cases k' <;> simp_all [leavesOpen]

end Flip

/-- The change that a step attempts. -/
def Move.aim? : Move → Option Flip
  | .tryOpen => some .opening
  | .tryClose | .forceClose => some .closing
  | _ => none

/-- The watermark that a step puts into the slot. -/
def Move.put? : Move → Option Watermark
  | .hold w => some w
  | _ => none

/-- Whether a step hands back what the slot holds. -/
def Move.handsBack : Move → Bool
  | .hold _ | .release => true
  | _ => false

def Answer.handed? : Answer → Option Watermark
  | .watermark w => w
  | _ => none

/-- The change that a step has reported as made. -/
def Deed.flip? (d : Deed) : Option Flip := if d.answer = .flag true then d.move.aim? else none

/-- The changes reported as made, in order. -/
def flips (ds : List Deed) : List Flip := ds.filterMap Deed.flip?

/-- The watermarks put in, in order. -/
def puts (acts : Schedule) : List Watermark := acts.filterMap fun a ↦ a.2.put?

/-- The watermarks handed back, in order. -/
def handed (ds : List Deed) : List Watermark := ds.filterMap fun d ↦ d.answer.handed?

/-- A schedule that leaves what the slot holds alone. -/
def Untouched (acts : Schedule) : Prop := ∀ a ∈ acts, a.2.handsBack = false

variable {s : Slot} {m : Move} {k : Flip} {a : Nat × Move} {acts : Schedule} {w : Watermark}

theorem after_append (s : Slot) (acts later : Schedule) :
    s.after (acts ++ later) = (s.after acts).after later :=
  List.foldl_append

/-! ### One step -/

/-- An attempt succeeds exactly if the flag stands the other way. -/
theorem flip?_deed_eq_some_iff :
    (s.deed a).flip? = some k ↔ a.2.aim? = some k ∧ s.isOpen = !k.leavesOpen := by
  obtain ⟨caller, m⟩ := a
  cases m <;> cases k <;> cases hopen : s.isOpen <;>
    simp [deed, Deed.flip?, step, tryOpen, tryClose, Move.aim?, Flip.leavesOpen, hopen]

theorem isOpen_step (s : Slot) (a : Nat × Move) :
    (s.step a.2).2.isOpen = ((s.deed a).flip?.map Flip.leavesOpen).getD s.isOpen := by
  obtain ⟨caller, m⟩ := a
  cases m <;> cases hopen : s.isOpen <;>
    simp [deed, Deed.flip?, step, tryOpen, tryClose, count, reset, hold, release, Move.aim?,
      Flip.leavesOpen, hopen]

/-- What comes in is added behind what the slot holds, and what goes out is taken from before it. -/
theorem conserves_step (s : Slot) (m : Move) : s.held.toList ++ m.put?.toList =
    (s.step m).1.handed?.toList ++ (s.step m).2.held.toList := by
  cases m <;> simp [step, tryOpen, tryClose, count, reset, hold, release, Move.put?,
    Answer.handed?]

theorem answer_of_handsBack (h : m.handsBack = true) : (s.step m).1 = .watermark s.held := by
  cases m with
  | hold | release => rfl
  | tryOpen | tryClose | forceClose | count | age | reset => cases h

theorem held_step_of_not_handsBack (h : m.handsBack = false) : (s.step m).2.held = s.held := by
  cases m with
  | hold | release => cases h
  | tryOpen | tryClose | forceClose | count | age | reset => rfl

theorem handsBack_of_handed (h : (s.step m).1.handed? = some w) :
    m.handsBack = true ∧ s.held = some w := by
  cases m with
  | hold | release => exact ⟨rfl, h⟩
  | tryOpen | tryClose | forceClose | count | age | reset => cases h

/-- A step that leaves a watermark in the slot has put it there, or has left it there. -/
theorem held_step_cases (h : (s.step m).2.held = some w) :
    m = .hold w ∨ m.handsBack = false ∧ s.held = some w := by
  cases m with
  | hold v => exact .inl (congrArg Move.hold (Option.some.inj h))
  | release => cases h
  | tryOpen | tryClose | forceClose | count | age | reset => exact .inr ⟨rfl, h⟩

/-! ### The flag -/

theorem flips_cons (d : Deed) (ds : List Deed) :
    flips (d :: ds) = d.flip?.toList ++ flips ds := by
  unfold flips
  cases h : d.flip? <;> simp [h]

/-- The first change is the one that the flag is open to, and each undoes the one before it. -/
theorem alternates (s : Slot) (acts : Schedule) : (flips (s.deeds acts)).IsChain (· ≠ ·) ∧
    ∀ k ∈ (flips (s.deeds acts)).head?, k.leavesOpen = !s.isOpen := by
  induction acts generalizing s with
  | nil => exact ⟨List.isChain_nil, by simp [deeds, flips]⟩
  | cons a acts ih =>
    obtain ⟨hchain, hhead⟩ := ih (s.step a.2).2
    have hopen := isOpen_step s a
    rw [deeds, flips_cons]
    cases hflip : (s.deed a).flip? with
    | none =>
      rw [hflip] at hopen
      rw [hopen] at hhead
      exact ⟨hchain, hhead⟩
    | some k =>
      obtain ⟨-, hbefore⟩ := flip?_deed_eq_some_iff.mp hflip
      rw [hflip] at hopen
      refine ⟨List.isChain_cons.mpr ⟨?_, hchain⟩, ?_⟩
      · rintro k' hk' rfl
        have hnext := hhead k hk'
        rw [hopen] at hnext
        simp at hnext
      · intro k' hk'
        rw [← Option.some.inj hk', hbefore, Bool.not_not]

/-- The flag stands as the last change has left it. -/
theorem isOpen_after (s : Slot) (acts : Schedule) : (s.after acts).isOpen =
    ((flips (s.deeds acts)).getLast?.map Flip.leavesOpen).getD s.isOpen := by
  induction acts generalizing s with
  | nil => rfl
  | cons a acts ih =>
    change ((s.step a.2).2.after acts).isOpen = _
    rw [ih, isOpen_step, deeds, flips_cons]
    cases (s.deed a).flip? with
    | none => rfl
    | some k =>
      change _ = (((k :: flips _).getLast?).map Flip.leavesOpen).getD _
      rw [List.getLast?_cons]
      cases (flips ((s.step a.2).2.deeds acts)).getLast? <;> rfl

/-- As long as nothing opens the slot, one attempt to close it succeeds if it is open, and no other
does. -/
theorem flips_of_no_opening (h : Flip.opening ∉ flips (s.deeds acts)) :
    flips (s.deeds acts) =
      if s.isOpen = true ∧ ∃ a ∈ acts, a.2.aim? = some .closing then [.closing] else [] := by
  induction acts generalizing s with
  | nil => simp [deeds, flips]
  | cons a acts ih =>
    have hopen := isOpen_step s a
    rw [deeds, flips_cons] at h ⊢
    have hrest := ih fun hmem ↦ h (List.mem_append_right _ hmem)
    rw [hrest]
    cases hflip : (s.deed a).flip? with
    | none =>
      have hsame : (s.step a.2).2.isOpen = s.isOpen := by rw [hopen, hflip]; rfl
      -- an attempt to close that has failed has found the slot closed
      have haim : ¬ (s.isOpen = true ∧ a.2.aim? = some .closing) := by
        rintro ⟨hs, ha⟩
        rw [flip?_deed_eq_some_iff.mpr ⟨ha, hs⟩] at hflip
        cases hflip
      rw [hsame, Option.toList_none, List.nil_append]
      refine if_congr (and_congr_right fun hs ↦ ?_) rfl rfl
      rw [List.exists_mem_cons_iff, or_iff_right fun ha ↦ haim ⟨hs, ha⟩]
    | some k =>
      obtain ⟨haim, hs⟩ := flip?_deed_eq_some_iff.mp hflip
      cases k with
      | opening => exact absurd (by simp [hflip]) h
      | closing =>
        have hshut : (s.step a.2).2.isOpen = false := by rw [hopen, hflip]; rfl
        rw [if_neg (by simp [hshut]), if_pos ⟨hs, a, List.mem_cons_self, haim⟩]
        rfl

/-! ### The watermark held -/

theorem conserves (s : Slot) (acts : Schedule) : s.held.toList ++ puts acts =
    handed (s.deeds acts) ++ (s.after acts).held.toList := by
  induction acts generalizing s with
  | nil => simp [puts, handed, deeds, after]
  | cons a acts ih =>
    have hput : puts (a :: acts) = a.2.put?.toList ++ puts acts := by
      unfold puts
      cases h : a.2.put? <;> simp [h]
    have hhanded : handed (s.deeds (a :: acts)) =
        (s.step a.2).1.handed?.toList ++ handed ((s.step a.2).2.deeds acts) := by
      rw [deeds]
      unfold handed deed
      cases h : (s.step a.2).1.handed? <;> simp [h]
    rw [hput, ← List.append_assoc, conserves_step, List.append_assoc, ih, hhanded,
      List.append_assoc]
    rfl

theorem Untouched.held_after (h : Untouched acts) (s : Slot) : (s.after acts).held = s.held := by
  induction acts generalizing s with
  | nil => rfl
  | cons a acts ih =>
    rw [← held_step_of_not_handsBack (s := s) (h a List.mem_cons_self)]
    exact ih (fun b hb ↦ h b (List.mem_cons_of_mem _ hb)) _

/-- What the slot holds was there from the start or has been put in, and nothing has touched it
since. -/
theorem exists_hold_of_held (h : (s.after acts).held = some w) :
    (Untouched acts ∧ s.held = some w) ∨ ∃ before caller later,
      acts = before ++ (caller, .hold w) :: later ∧ Untouched later := by
  induction acts using List.reverseRecOn with
  | nil => exact .inl ⟨List.forall_mem_nil _, h⟩
  | append_singleton acts a ih =>
    rw [after_append] at h
    have hsnoc {later : Schedule} (hlater : Untouched later) (ha : a.2.handsBack = false) :
        Untouched (later ++ [a]) := by
      intro b hb
      rcases List.mem_append.mp hb with hb | hb
      · exact hlater b hb
      · rwa [List.mem_singleton.mp hb]
    rcases held_step_cases (s := s.after acts) (m := a.2) h with hmove | ⟨hmove, hheld⟩
    · exact .inr ⟨acts, a.1, [], by rw [← hmove], List.forall_mem_nil _⟩
    · rcases ih hheld with ⟨huntouched, hs⟩ | ⟨before, caller, later, rfl, huntouched⟩
      · exact .inl ⟨hsnoc huntouched hmove, hs⟩
      · exact .inr ⟨before, caller, later ++ [a], by simp, hsnoc huntouched hmove⟩

theorem untouched_or_exists (acts : Schedule) : Untouched acts ∨
    ∃ mid caller m rest, acts = mid ++ (caller, m) :: rest ∧ Untouched mid ∧
      m.handsBack = true := by
  induction acts with
  | nil => exact .inl (List.forall_mem_nil _)
  | cons a acts ih =>
    cases ha : a.2.handsBack with
    | true => exact .inr ⟨[], a.1, a.2, acts, rfl, List.forall_mem_nil _, ha⟩
    | false =>
      rcases ih with huntouched | ⟨mid, caller, m, rest, rfl, huntouched, hm⟩
      · exact .inl (List.forall_mem_cons.mpr ⟨ha, huntouched⟩)
      · exact .inr ⟨a :: mid, caller, m, rest, rfl, List.forall_mem_cons.mpr ⟨ha, huntouched⟩, hm⟩

/-! ### Any schedule -/

/-- A fresh slot counts as closed last. -/
theorem isOpen_after_fresh (now : Int64) (acts : Schedule) : ((fresh now).after acts).isOpen =
    ((flips ((fresh now).deeds acts)).getLast?.getD .closing).leavesOpen := by
  rw [isOpen_after]
  cases (flips ((fresh now).deeds acts)).getLast? <;> rfl

theorem answer_deed_iff (h : a.2.aim? = some k) :
    (s.deed a).answer = .flag true ↔ s.isOpen = !k.leavesOpen := by
  have hflip := flip?_deed_eq_some_iff (s := s) (a := a) (k := k)
  have haim : (s.deed a).move.aim? = some k := h
  rw [Deed.flip?, haim] at hflip
  simpa [h] using hflip

/-- Of a fresh slot, whoever makes which steps in whatever order: successful openings and closings
alternate, from an opening on; the flag tells the last of them; an attempt succeeds exactly if the
last of them was not of its own kind; and of the attempts to close up to the next opening one
succeeds if the slot is open, and no other. The watermarks put in are those handed back and the one
still held, in order; each is held until the first step that hands it back, and what is handed back
is what was put in last. Opening and closing change nothing but the flag, and a reset neither the
flag nor what is held. -/
theorem exclusive_and_conserving (now : Int64) (acts : Schedule) :
    let slot (acts : Schedule) := (fresh now).after acts
    let made := flips ((fresh now).deeds acts)
    made.IsChain (· ≠ ·) ∧ (∀ k ∈ made.head?, k = .opening) ∧
    ((slot acts).isOpen = true ↔ made.getLast? = some .opening) ∧
    (∀ caller m k, m.aim? = some k →
      (((slot acts).deed (caller, m)).answer = .flag true ↔ made.getLast?.getD .closing ≠ k)) ∧
    (∀ more, Flip.opening ∉ flips ((slot acts).deeds more) →
      flips ((slot acts).deeds more) =
        if (slot acts).isOpen = true ∧ ∃ a ∈ more, a.2.aim? = some .closing
        then [.closing] else []) ∧
    puts acts = handed ((fresh now).deeds acts) ++ (slot acts).held.toList ∧
    (∀ caller w more,
      (Untouched more ∧ (slot (acts ++ (caller, .hold w) :: more)).held = some w) ∨
        ∃ mid caller' m rest, more = mid ++ (caller', m) :: rest ∧ Untouched mid ∧
          m.handsBack = true ∧
          ((slot (acts ++ (caller, .hold w) :: mid)).step m).1 = .watermark (some w)) ∧
    (∀ m w, ((slot acts).step m).1.handed? = some w →
      m.handsBack = true ∧ ∃ front caller mid, acts = front ++ (caller, .hold w) :: mid ∧
        Untouched mid) ∧
    (∀ (s : Slot) m k, m.aim? = some k → (s.step m).2.items = s.items ∧
      (s.step m).2.lastClose = s.lastClose ∧ (s.step m).2.held = s.held) ∧
    ∀ (s : Slot) now, (s.step (.reset now)).2 = ⟨s.isOpen, 0, now, s.held⟩ := by
  intro slot made
  have hopen : (slot acts).isOpen = (made.getLast?.getD .closing).leavesOpen :=
    isOpen_after_fresh now acts
  have hheld (caller : Nat) (w : Watermark) {mid : Schedule} (hmid : Untouched mid) :
      (slot (acts ++ (caller, .hold w) :: mid)).held = some w := by
    change ((fresh now).after _).held = _
    rw [after_append]
    exact hmid.held_after ((slot acts).step (.hold w)).2
  refine ⟨(alternates _ acts).1, ?first, ?flag, ?succeeds, fun more ↦ flips_of_no_opening,
    conserves (fresh now) acts, ?leaves, ?origin, ?frame, fun s now ↦ rfl⟩
  case first =>
    intro k hk
    exact Flip.leavesOpen_injective ((alternates _ acts).2 k hk)
  case flag =>
    rw [hopen]
    cases made.getLast? with
    | none => decide
    | some k => cases k <;> decide
  case succeeds =>
    intro caller m k haim
    rw [answer_deed_iff haim, hopen]
    cases made.getLast?.getD .closing <;> cases k <;> decide
  case leaves =>
    intro caller w more
    rcases untouched_or_exists more with hmore | ⟨mid, caller', m, rest, rfl, hmid, hm⟩
    · exact .inl ⟨hmore, hheld caller w hmore⟩
    · refine .inr ⟨mid, caller', m, rest, rfl, hmid, hm, ?_⟩
      rw [answer_of_handsBack hm, hheld caller w hmid]
  case origin =>
    intro m w hhanded
    obtain ⟨hm, hw⟩ := handsBack_of_handed hhanded
    refine ⟨hm, (exists_hold_of_held hw).resolve_left ?_⟩
    rintro ⟨-, hfresh⟩
    cases hfresh
  case frame =>
    intro s m k haim
    cases m with
    | tryOpen | tryClose | forceClose => exact ⟨rfl, rfl, rfl⟩
    | count | age | reset | hold | release => cases haim

/-- Two callers open and three close: one of each succeeds. The first watermark comes back with the
second, and the second with the step that takes it. -/
theorem exclusive_and_conserving_race :
    let acts : Schedule := [(1, .tryOpen), (2, .tryOpen), (1, .hold ⟨5⟩), (2, .hold ⟨7⟩)]
    let closers : Schedule := [(3, .tryClose), (1, .forceClose), (2, .tryClose)]
    let slot := (fresh 0).after acts
    Move.aim? .tryOpen = some .opening ∧ (slot.deed (3, .tryOpen)).answer ≠ .flag true ∧
      Flip.opening ∉ flips (slot.deeds closers) ∧ flips (slot.deeds closers) = [.closing] ∧
      handed ((fresh 0).deeds acts) = [⟨5⟩] ∧ puts acts = [⟨5⟩, ⟨7⟩] ∧
      (slot.step .release).1.handed? = some ⟨7⟩ ∧
      (∃ front caller mid, acts = front ++ (caller, .hold ⟨7⟩) :: mid ∧ Untouched mid) ∧
      (slot.step .tryClose).2.held = some ⟨7⟩ := by
  intro acts closers slot
  obtain ⟨-, -, -, hsucceeds, hraces, hconserved, -, horigin, hframe, -⟩ :=
    exclusive_and_conserving 0 acts
  have hnone : Flip.opening ∉ flips (slot.deeds closers) := by decide
  have hputs : puts acts = [⟨5⟩, ⟨7⟩] := by decide
  refine ⟨rfl, fun hwon ↦ (hsucceeds 3 .tryOpen .opening rfl).mp hwon rfl, hnone,
    (hraces closers hnone).trans (if_pos (by decide)), ?_, hputs, rfl,
    (horigin .release ⟨7⟩ rfl).2, (hframe slot .tryClose .closing rfl).2.2⟩
  -- what has been put in and is not held any more
  have hheld : slot.held.toList = [⟨7⟩] := rfl
  have hsplit : [⟨5⟩] ++ [⟨7⟩] = handed ((fresh 0).deeds acts) ++ [⟨7⟩] := by
    rw [← hheld, ← hconserved, hputs]
    rfl
  exact (List.append_cancel_right hsplit).symm

end Bundling.Slot
