import Bundling.Proofs.Delivery
import Bundling.Proofs.Overtaking
import Mathlib.Data.List.Forall2

/-!
Where the emitted results come from. Each is an item that was processed before it, and those of two
emissions were processed in the order of the emissions; so nothing is emitted twice or out of order,
whatever fails. Where no finish, no drain and no emission fails, a bundle that is finished is
followed at once by its own items, all of them unless the run ends in the middle of the close.
-/

set_option autoImplicit false
set_option relaxedAutoImplicit false

namespace Bundling

namespace Journal

variable {α : Type} {j : Journal α} {x : α} {e : Entry α}

/-- The items of these entries. -/
def HasAt (j : Journal α) (places : List ℕ) (xs : List α) : Prop :=
  List.Forall₂ (fun k x ↦ j[k]? = some (.processed x)) places xs

theorem getElem?_of_append {k : ℕ} (new : Journal α) (h : j[k]? = some e) :
    (j ++ new)[k]? = some e := by
  rw [List.getElem?_append_left (List.getElem?_eq_some_iff.mp h).1, h]

theorem HasAt.append {places : List ℕ} {xs : List α} (h : j.HasAt places xs) (new : Journal α) :
    (j ++ new).HasAt places xs :=
  h.imp fun _ _ ↦ getElem?_of_append new

theorem HasAt.snoc {places : List ℕ} {xs : List α} {k : ℕ} (h : j.HasAt places xs)
    (hk : j[k]? = some (.processed x)) : j.HasAt (places ++ [k]) (xs ++ [x]) :=
  List.rel_append h (.cons hk .nil)

theorem HasAt.lt {places : List ℕ} {xs : List α} (h : j.HasAt places xs) :
    ∀ k ∈ places, k < j.length := by
  induction h with
  | nil => exact fun k hk ↦ by cases hk
  | cons hplace _ ih =>
    intro k hk
    rcases List.mem_cons.mp hk with rfl | hk
    · exact (List.getElem?_eq_some_iff.mp hplace).1
    · exact ih k hk

/-- An entry of a journal with one more is the new one or was there before. -/
theorem getElem?_snoc_cases {k : ℕ} {e' : Entry α} (h : (j ++ [e])[k]? = some e') :
    j[k]? = some e' ∨ k = j.length ∧ e = e' := by
  rcases Nat.lt_trichotomy k j.length with hlt | heq | hgt
  · rw [List.getElem?_append_left hlt] at h
    exact .inl h
  · subst heq
    exact .inr ⟨rfl, by simpa using h⟩
  · rw [List.getElem?_eq_none (by simp; omega)] at h
    cases h

/-- Each emission has an origin, an earlier entry that processed the same item. Those that wait to
be emitted, and those that the unit holds after them, come later than the origin of any emission. -/
structure Origins (j : Journal α) (origin : ℕ → ℕ) (waiting held : List ℕ) : Prop where
  emitted : ∀ p x, j[p]? = some (.emitted x) → origin p < p ∧ j[origin p]? = some (.processed x)
  ordered : ∀ p p' x x', p < p' → j[p]? = some (.emitted x) → j[p']? = some (.emitted x') →
    origin p < origin p'
  later : ∀ p x, j[p]? = some (.emitted x) → ∀ k ∈ waiting ++ held, origin p < k
  sorted : (waiting ++ held).Pairwise (· < ·)

namespace Origins

variable {origin : ℕ → ℕ} {waiting held : List ℕ}

/-- An entry that emits nothing. -/
theorem note (h : Origins j origin waiting held) (he : ∀ x, e ≠ .emitted x) :
    Origins (j ++ [e]) origin waiting held := by
  have hold {p : ℕ} {x : α} (hp : (j ++ [e])[p]? = some (.emitted x)) :
      j[p]? = some (.emitted x) :=
    (getElem?_snoc_cases hp).resolve_right fun hnew ↦ he x hnew.2
  refine ⟨fun p x hp ↦ ?_, fun p p' x x' hlt hp hp' ↦ h.ordered p p' x x' hlt (hold hp) (hold hp'),
    fun p x hp ↦ h.later p x (hold hp), h.sorted⟩
  obtain ⟨hlt, hplace⟩ := h.emitted p x (hold hp)
  exact ⟨hlt, getElem?_of_append _ hplace⟩

/-- What has waited is given up. -/
theorem drop (h : Origins j origin waiting held) : Origins j origin [] held :=
  ⟨h.emitted, h.ordered, fun p x hp k hk ↦ h.later p x hp k (List.mem_append_right _ hk),
    h.sorted.sublist (List.sublist_append_right _ _)⟩

/-- The unit hands over what it holds. -/
theorem handOver (h : Origins j origin [] held) : Origins j origin held [] := by
  refine ⟨h.emitted, h.ordered, ?_, ?_⟩
  · rw [List.append_nil]
    exact h.later
  · rw [List.append_nil]
    exact h.sorted

/-- The unit takes one more item. -/
theorem takes (h : Origins j origin [] held) (hheld : ∀ k ∈ held, k < j.length) (x : α) :
    Origins (j ++ [.processed x]) origin [] (held ++ [j.length]) := by
  have hnoted := h.note (e := .processed x) (by simp)
  refine ⟨hnoted.emitted, hnoted.ordered, fun p y hp k hk ↦ ?_, ?_⟩
  · rw [List.nil_append, List.mem_append, List.mem_singleton] at hk
    rcases hk with hk | rfl
    · exact hnoted.later p y hp k hk
    · have hbefore := (getElem?_snoc_cases hp).resolve_right (by simp)
      exact Nat.lt_trans (h.emitted p y hbefore).1 (List.getElem?_eq_some_iff.mp hbefore).1
  · rw [List.nil_append, List.pairwise_append]
    refine ⟨h.sorted, List.pairwise_singleton _ _, fun k hk k' hk' ↦ ?_⟩
    rw [List.mem_singleton.mp hk']
    exact hheld k hk

/-- The first of those that wait is emitted. -/
theorem emits {k : ℕ} (h : Origins j origin (k :: waiting) held)
    (hplace : j[k]? = some (.processed x)) :
    Origins (j ++ [.emitted x]) (Function.update origin j.length k) waiting held := by
  have hlt := (List.getElem?_eq_some_iff.mp hplace).1
  have hsorted : ∀ k' ∈ waiting ++ held, k < k' := (List.pairwise_cons.mp h.sorted).1
  have hfirst {p : ℕ} {y : α} (hp : j[p]? = some (.emitted y)) : origin p < k :=
    h.later p y hp k List.mem_cons_self
  -- an old emission keeps its origin, and the new one gets the first place that waits
  have hkeeps {p : ℕ} {y : α} (hp : j[p]? = some (.emitted y)) :
      Function.update origin j.length k p = origin p :=
    Function.update_of_ne (Nat.ne_of_lt (List.getElem?_eq_some_iff.mp hp).1) k origin
  have hnew : Function.update origin j.length k j.length = k := Function.update_self _ _ _
  refine ⟨fun p y hp ↦ ?_, fun p p' y y' hpp hp hp' ↦ ?_, fun p y hp k' hk' ↦ ?_,
    (List.pairwise_cons.mp h.sorted).2⟩
  · rcases getElem?_snoc_cases hp with hold | ⟨rfl, heq⟩
    · obtain ⟨hbefore, hplace'⟩ := h.emitted p y hold
      rw [hkeeps hold]
      exact ⟨hbefore, getElem?_of_append _ hplace'⟩
    · cases heq
      rw [hnew]
      exact ⟨hlt, getElem?_of_append _ hplace⟩
  · rcases getElem?_snoc_cases hp with hold | ⟨rfl, -⟩
    · rcases getElem?_snoc_cases hp' with hold' | ⟨rfl, -⟩
      · rw [hkeeps hold, hkeeps hold']
        exact h.ordered p p' y y' hpp hold hold'
      · rw [hkeeps hold, hnew]
        exact hfirst hold
    · rcases getElem?_snoc_cases hp' with hold' | ⟨rfl, -⟩
      · exact absurd (List.getElem?_eq_some_iff.mp hold').1 (Nat.not_lt.mpr (Nat.le_of_lt hpp))
      · exact absurd hpp (Nat.lt_irrefl _)
  · rcases getElem?_snoc_cases hp with hold | ⟨rfl, -⟩
    · rw [hkeeps hold]
      exact Nat.lt_trans (hfirst hold) (hsorted k' hk')
    · rw [hnew]
      exact hsorted k' hk'

end Origins

end Journal

namespace History

variable {α : Type} {h : History α α} {e : Event α α} {i : Nat}

open Standing

/-- Every emission has its origin, and so has all that is due or still in the unit. -/
structure Traced (h : History α α) (origin : ℕ → ℕ) (waiting held : List ℕ) : Prop where
  origins : (entries h).Origins origin waiting held
  waiting : (entries h).HasAt waiting (results (after h).due)
  held : (entries h).HasAt held (undrained h)

variable {origin : ℕ → ℕ} {waiting held : List ℕ}

theorem Traced.quiet (ht : Traced h origin waiting held) (hentry : entryOf e = none)
    (hheld : gather (undrained h) e = undrained h)
    (hdue : ((after h).step e).due = (after h).due) : Traced (h ++ [e]) origin waiting held := by
  have hentries : entries (h ++ [e]) = entries h := by
    rw [entries_snoc, hentry, Option.toList_none, List.append_nil]
  constructor
  · rw [hentries]
    exact ht.origins
  · rw [hentries, after_snoc, hdue]
    exact ht.waiting
  · rw [hentries, undrained_snoc, hheld]
    exact ht.held

theorem Traced.fails (ht : Traced h origin waiting held) (op : Operation α α) (f : Failure) :
    Traced (h ++ [Event.answered i op (.error f)]) origin [] held := by
  have hentries : entries (h ++ [Event.answered i op (.error f)]) = entries h := by
    rw [entries_snoc]
    exact List.append_nil _
  constructor
  · rw [hentries]
    exact ht.origins.drop
  · rw [after_snoc]
    cases op <;> exact .nil
  · rw [hentries, undrained_snoc]
    cases op <;> exact ht.held

/-- Nothing waits where no result is due. -/
theorem Traced.waiting_eq_nil (ht : Traced h origin waiting held) (hdue : results (after h).due = []) :
    waiting = [] := by
  have hwaiting := ht.waiting
  rw [hdue] at hwaiting
  exact List.forall₂_nil_right_iff.mp hwaiting

theorem entries_snoc_of_entryOf {op : Operation α α} {entry : Entry α} (answer : List α)
    (hentry : op.entryOf = some entry) :
    entries (h ++ [Event.answered i op (.ok answer)]) = entries h ++ [entry] := by
  rw [entries_snoc]
  change entries h ++ op.entryOf.toList = _
  rw [hentry]
  rfl

/-- An operation that neither takes an item nor hands one over. -/
theorem Traced.notes (ht : Traced h origin waiting held) {op : Operation α α} {answer : List α}
    {entry : Entry α} (hentry : op.entryOf = some entry) (hemitted : ∀ x, entry ≠ .emitted x)
    (hbefore : (after h).due = [])
    (hheld : gather (undrained h) (.answered i op (.ok answer)) = undrained h)
    (hafter : results (dueAfter [] op (.ok answer)) = []) :
    Traced (h ++ [Event.answered i op (.ok answer)]) origin [] held := by
  have hwaiting := ht.waiting_eq_nil (by rw [hbefore, results_nil])
  subst hwaiting
  constructor
  · rw [entries_snoc_of_entryOf answer hentry]
    exact ht.origins.note hemitted
  · rw [after_snoc, Standing.step, answer_due, hbefore, hafter]
    exact .nil
  · rw [entries_snoc_of_entryOf answer hentry, undrained_snoc, hheld]
    exact ht.held.append _

theorem Traced.takes (ht : Traced h origin waiting held) (hdue : (after h).due = []) (x : α)
    (answer : List α) :
    Traced (h ++ [Event.answered i (.process x) (.ok answer)]) origin []
      (held ++ [(entries h).length]) := by
  have hwaiting := ht.waiting_eq_nil (by rw [hdue, results_nil])
  subst hwaiting
  have hentries : entries (h ++ [Event.answered i (.process x) (.ok answer)]) =
      entries h ++ [.processed x] := entries_snoc_of_entryOf answer rfl
  constructor
  · rw [hentries]
    exact ht.origins.takes ht.held.lt x
  · rw [after_snoc]
    exact .nil
  · rw [hentries, undrained_snoc]
    exact (ht.held.append _).snoc (by simp)

theorem Traced.drains (ht : Traced h origin waiting held) (hdue : (after h).due = [.drainResults]) :
    Traced (h ++ [Event.answered i .drainResults (.ok (undrained h))]) origin held [] := by
  have hwaiting := ht.waiting_eq_nil (by rw [hdue, results_drain])
  subst hwaiting
  have hentries : entries (h ++ [Event.answered i .drainResults (.ok (undrained h))]) =
      entries h := by
    rw [entries_snoc]
    exact List.append_nil _
  constructor
  · rw [hentries]
    exact ht.origins.handOver
  · rw [hentries, after_snoc, Standing.step, answer_due, dueAfter, results_map_emit]
    exact ht.held
  · rw [undrained_snoc]
    exact .nil

theorem Traced.emits (ht : Traced h origin waiting held) {x : α} {rest : List (Operation α α)}
    (hdue : (after h).due = .emit x :: rest) (answer : List α) :
    ∃ origin waiting,
      Traced (h ++ [Event.answered i (.emit x) (.ok answer)]) origin waiting held := by
  have hentries : entries (h ++ [Event.answered i (.emit x) (.ok answer)]) =
      entries h ++ [.emitted x] := entries_snoc_of_entryOf answer rfl
  have hwaiting := ht.waiting
  rw [hdue, results_emit] at hwaiting
  cases hwaiting with
  | @cons k _ places _ hplace hrest =>
    refine ⟨Function.update origin (entries h).length k, places, ?_, ?_, ?_⟩
    · rw [hentries]
      exact ht.origins.emits hplace
    · rw [hentries, after_snoc, Standing.step, answer_due, hdue]
      exact Journal.HasAt.append hrest _
    · rw [hentries, undrained_snoc]
      exact ht.held.append _

theorem Traced.succeeds (ht : Traced h origin waiting held) {op : Operation α α}
    {answer : List α} (hsound : (after h).Sound) (hunderway : (after h).underway = some (i, op))
    (hdrain : op = .drainResults → answer = undrained h) :
    ∃ origin waiting held,
      Traced (h ++ [Event.answered i op (.ok answer)]) origin waiting held := by
  have hdue := hsound.due_of_underway hunderway
  cases op with
  | openUnit => exact ⟨_, _, _, ht.notes rfl (by simp) hdue rfl rfl⟩
  | startBundle => exact ⟨_, _, _, ht.notes rfl (by simp) hdue rfl rfl⟩
  | finishBundle => exact ⟨_, _, _, ht.notes rfl (by simp) hdue rfl rfl⟩
  | closeUnit => exact ⟨_, _, _, ht.notes rfl (by simp) hdue rfl rfl⟩
  | forward w => exact ⟨_, _, _, ht.notes rfl (by simp) hdue rfl rfl⟩
  | process x => exact ⟨_, _, _, ht.takes hdue x answer⟩
  | drainResults =>
    rw [hdrain rfl]
    exact ⟨_, _, _, ht.drains hdue⟩
  | emit x =>
    obtain ⟨rest, hdue⟩ := hdue
    obtain ⟨origin, waiting, htraced⟩ := ht.emits (i := i) hdue answer
    exact ⟨origin, waiting, held, htraced⟩

/-- Whatever fails, every emission has its origin. -/
theorem exists_traced (hlawful : Lawful h) (hfaithful : Faithful h) :
    ∃ origin waiting held, Traced h origin waiting held := by
  induction h using List.reverseRecOn with
  | nil => exact ⟨id, [], [], ⟨by simp [entries], by simp [entries], by simp, by simp⟩, .nil, .nil⟩
  | append_singleton h e ih =>
    obtain ⟨hbefore, hpermits⟩ := hlawful.of_snoc
    obtain ⟨hfaithful', hdrain⟩ := hfaithful.of_snoc
    obtain ⟨origin, waiting, held, htraced⟩ := ih hbefore hfaithful'
    cases e with
    | issued | replied => exact ⟨_, _, _, htraced.quiet rfl rfl rfl⟩
    | asked i op => exact ⟨_, _, _, htraced.quiet rfl rfl (ask_due _ _ _)⟩
    | answered i op a =>
      cases a with
      | error f => exact ⟨_, _, _, htraced.fails op f⟩
      | ok results =>
        exact htraced.succeeds hbefore.sound hpermits fun hop ↦ hdrain i results (by rw [hop])

/-! ### Closes that do not fail -/

/-- No close has failed in its finish, in its drain or with an emission. -/
def ClosesWell (h : History α α) : Prop := ∀ e ∈ h, ¬ Breaks e

theorem ClosesWell.of_snoc (hwell : ClosesWell (h ++ [e])) : ClosesWell h :=
  fun e' hmem ↦ hwell e' (List.mem_append_left _ hmem)

theorem ClosesWell.not_strands (hwell : ClosesWell h) : ¬ Strands h := by
  rintro ⟨before, i, op, f, rest, rfl, hop, -⟩
  refine hwell (.answered i op (.error f)) (by simp) ?_
  rcases hop with rfl | rfl <;> trivial

/-- The items of the bundle that the journal of a history has open. -/
def openItems (h : History α α) : Option (List α) := (Journal.read (entries h)).current

theorem openItems_snoc (h : History α α) (e : Event α α) :
    openItems (h ++ [e]) =
      ((entryOf e).toList.foldl Journal.Reading.step (Journal.read (entries h))).current := by
  rw [openItems, entries_snoc, Journal.read, List.foldl_append]
  rfl

/-- The unit holds the items of the open bundle, up to its finish, and nothing else is due. -/
structure Gathers (h : History α α) : Prop where
  bundle : (after h).inBundle = true ∨ (∃ i, (after h).underway = some (i, .finishBundle)) →
    openItems h = some (undrained h)
  due : (after h).due ≠ [] → (after h).inBundle = false

/-- An event that does not get to the unit's items. -/
theorem Gathers.quiet (hg : Gathers h) (hitems : openItems (h ++ [e]) = openItems h)
    (hheld : gather (undrained h) e = undrained h)
    (hbundle : ((after h).step e).inBundle = (after h).inBundle)
    (hdue : ((after h).step e).due = (after h).due ∨ ((after h).step e).due = [])
    (hfinish : ∀ i, ((after h).step e).underway ≠ some (i, .finishBundle) ∨
      (after h).underway = some (i, .finishBundle)) : Gathers (h ++ [e]) := by
  have hbefore (i : Nat) (hi : ((after h).step e).underway = some (i, .finishBundle)) :=
    (hfinish i).resolve_left (not_not.mpr hi)
  constructor
  all_goals rw [after_snoc, hbundle]
  · rw [hitems, undrained_snoc, hheld]
    rintro (hin | ⟨i, hi⟩)
    · exact hg.bundle (.inl hin)
    · exact hg.bundle (.inr ⟨i, hbefore i hi⟩)
  · rcases hdue with hsame | hnil
    · rw [hsame]
      exact hg.due
    · exact fun hne ↦ absurd hnil hne

/-- Outside a bundle nothing is looked at. -/
theorem gathers_of_not_inBundle (hbundle : (after h).inBundle = false)
    (hunderway : (after h).underway = none) : Gathers h where
  bundle := by simp [hbundle, hunderway]
  due := fun _ ↦ hbundle

/-- In a bundle with nothing due, the unit holds the items of the bundle. -/
theorem gathers_of_openItems (hopen : openItems h = some (undrained h))
    (hdue : (after h).due = []) : Gathers h where
  bundle := fun _ ↦ hopen
  due := fun hne ↦ absurd hdue hne

theorem Gathers.asks (hg : Gathers h) (hsound : (after h).Sound) {op : Operation α α}
    (hfollows : (after h).Follows op) (i : Nat) : Gathers (h ++ [Event.asked i op]) := by
  have hitems : openItems (h ++ [Event.asked i op]) = openItems h := openItems_snoc _ _
  cases op with
  | finishBundle =>
    refine ⟨fun _ ↦ ?_, fun _ ↦ ?_⟩
    · rw [hitems, undrained_snoc]
      exact hg.bundle (.inl (hsound.inBundle_of_finish hfollows))
    · rw [after_snoc]
      rfl
  | _ => exact hg.quiet hitems rfl rfl (.inl rfl) fun j ↦ .inl (by simp [Standing.step, ask])

theorem Gathers.succeeds (hg : Gathers h) (hlawful : Lawful h) (hwell : ClosesWell h)
    {op : Operation α α} (hunderway : (after h).underway = some (i, op)) (results : List α) :
    Gathers (h ++ [Event.answered i op (.ok results)]) := by
  have hdue := hlawful.sound.due_of_underway hunderway
  have hitems := openItems_snoc h (.answered i op (.ok results))
  cases op with
  | startBundle =>
    -- what an earlier bundle has left in the unit would have been left by a failed close
    have hempty : undrained h = [] := by
      by_contra hheld
      have hout := hlawful.sound.not_inBundle_of_start hunderway
      rcases undrained_cases hlawful hheld with hin | ⟨j, hfinish⟩ | hdrain | hstrands
      · exact absurd (hout.symm.trans hin) (by simp)
      · cases hunderway.symm.trans hfinish
      · cases hdue.symm.trans hdrain
      · exact hwell.not_strands hstrands
    refine gathers_of_openItems ?_ (by rw [after_snoc]; rfl)
    rw [hitems, undrained_snoc]
    exact congrArg some hempty.symm
  | process x =>
    have hin := hlawful.sound.inBundle_of_process hunderway
    refine gathers_of_openItems ?_ (by rw [after_snoc]; rfl)
    have hopen : (Journal.read (entries h)).current = some (undrained h) := hg.bundle (.inl hin)
    rw [hitems, undrained_snoc]
    change (Journal.read (entries h)).current.map (· ++ [x]) = some (undrained h ++ [x])
    rw [hopen]
    rfl
  | finishBundle =>
    refine gathers_of_not_inBundle ?_ ?_
    · rw [after_snoc]
      exact not_inBundle_of_finishing hunderway
    · rw [after_snoc]
      rfl
  | drainResults =>
    refine gathers_of_not_inBundle ?_ ?_
    · rw [after_snoc]
      exact hg.due (by rw [hdue]; exact List.cons_ne_nil _ _)
    · rw [after_snoc]
      rfl
  | emit x =>
    obtain ⟨rest, hdue⟩ := hdue
    refine gathers_of_not_inBundle ?_ ?_
    · rw [after_snoc]
      exact hg.due (by rw [hdue]; exact List.cons_ne_nil _ _)
    · rw [after_snoc]
      rfl
  | _ => exact hg.quiet hitems rfl rfl (.inr rfl) fun j ↦ .inl (by simp [Standing.step])

theorem gathers (hlawful : Lawful h) (hwell : ClosesWell h) : Gathers h := by
  induction h using List.reverseRecOn with
  | nil => exact gathers_of_not_inBundle rfl rfl
  | append_singleton h e ih =>
    obtain ⟨hbefore, hpermits⟩ := hlawful.of_snoc
    have hg := ih hbefore hwell.of_snoc
    have hitems := openItems_snoc h e
    cases e with
    | issued | replied => exact hg.quiet hitems rfl rfl (.inl rfl) fun _ ↦ or_not.symm
    | asked i op => exact hg.asks hbefore.sound hpermits.2.2 i
    | answered i op a =>
      cases a with
      | ok results => exact hg.succeeds hbefore hwell.of_snoc hpermits results
      | error f =>
        refine hg.quiet hitems ?_ ?_ (.inr ?_) fun j ↦ .inl ?_
        · cases op <;> rfl
        · cases op <;> rfl
        · cases op <;> rfl
        · simp [Standing.step]

/-- These items of a finished bundle are still to come: they wait in the unit for its drain, or are
due to be emitted. -/
def ToCome (h : History α α) (items : List α) : Prop :=
  undrained h = items ∧ (after h).due = [.drainResults] ∨
    items ≠ [] ∧ (after h).due = items.map .emit

/-- A bundle that has been finished is followed by its own items, unless some are still to come. -/
def ClosesOut (h : History α α) : Prop :=
  ∀ before post, entries h = before ++ .finished :: post →
    ∃ xs, (Journal.read before).current = some xs ∧
      ((∃ rest, post = xs.map .emitted ++ rest) ∨
        ∃ done items, xs = done ++ items ∧ post = done.map .emitted ∧ ToCome h items)

/-- The next of them is what is due. -/
theorem ToCome.exists_due {items : List α} (hcome : ToCome h items) :
    ∃ op rest, (after h).due = op :: rest ∧ (op = .drainResults ∨ ∃ x, op = .emit x) := by
  rcases hcome with ⟨-, hdue⟩ | ⟨hne, hdue⟩
  · exact ⟨_, _, hdue, .inl rfl⟩
  · cases items with
    | nil => exact absurd rfl hne
    | cons x items => exact ⟨_, _, hdue, .inr ⟨x, rfl⟩⟩

theorem ToCome.due_ne_nil {items : List α} (hcome : ToCome h items) : (after h).due ≠ [] := by
  obtain ⟨op, rest, hdue, -⟩ := hcome.exists_due
  simp [hdue]

/-- The next event may finish a bundle, and else goes on with the close that has items to come. -/
theorem ClosesOut.snoc (hc : ClosesOut h)
    (hfinish : entryOf e = some .finished → ∃ xs, openItems h = some xs ∧ ToCome (h ++ [e]) xs)
    (hgoesOn : ∀ items, ToCome h items →
      (entryOf e = none ∧ (items = [] ∨ ToCome (h ++ [e]) items)) ∨
        ∃ x rest, items = x :: rest ∧ entryOf e = some (.emitted x) ∧
          (rest = [] ∨ ToCome (h ++ [e]) rest)) : ClosesOut (h ++ [e]) := by
  intro before post hsplit
  rw [entries_snoc] at hsplit
  -- what follows a finish that was there before
  have hold {post' : Journal α} (hsplit' : entries h = before ++ .finished :: post')
      (hpost : post = post' ++ (entryOf e).toList) :
      ∃ xs, (Journal.read before).current = some xs ∧
        ((∃ rest, post = xs.map .emitted ++ rest) ∨
          ∃ done items, xs = done ++ items ∧ post = done.map .emitted ∧
            ToCome (h ++ [e]) items) := by
    obtain ⟨xs, hcurrent, ⟨rest, hrest⟩ | ⟨done, items, hxs, hdone, hcome⟩⟩ :=
      hc before post' hsplit'
    · exact ⟨xs, hcurrent, .inl ⟨rest ++ (entryOf e).toList, by simp [hpost, hrest]⟩⟩
    · refine ⟨xs, hcurrent, ?_⟩
      rcases hgoesOn items hcome with ⟨hentry, rfl | hstill⟩ | ⟨x, rest, rfl, hentry, rfl | hstill⟩
      · exact .inl ⟨[], by simp [hpost, hentry, hdone, hxs]⟩
      · exact .inr ⟨done, items, hxs, by simp [hpost, hentry, hdone], hstill⟩
      · exact .inl ⟨[], by simp [hpost, hentry, hdone, hxs]⟩
      · exact .inr ⟨done ++ [x], rest, by simp [hxs], by simp [hpost, hentry, hdone], hstill⟩
  cases hentry : entryOf e with
  | none =>
    rw [hentry, Option.toList_none, List.append_nil] at hsplit
    exact hold hsplit (by simp [hentry])
  | some entry =>
    rw [hentry] at hsplit
    rcases List.eq_nil_or_concat post with rfl | ⟨post', last, rfl⟩
    · obtain ⟨rfl, hlast⟩ := List.append_inj' hsplit rfl
      cases hlast
      obtain ⟨xs, hcurrent, hcome⟩ := hfinish hentry
      exact ⟨xs, hcurrent, .inr ⟨[], xs, rfl, rfl, hcome⟩⟩
    · have hboth : entries h ++ [entry] = (before ++ .finished :: post') ++ [last] := by
        simpa using hsplit
      obtain ⟨hsplit', hlast⟩ := List.append_inj' hboth rfl
      cases hlast
      exact hold hsplit' (by simp [hentry])

/-- An event after which nothing has changed for a close that has items to come. -/
theorem ClosesOut.quiet (hc : ClosesOut h) (hentry : entryOf e = none)
    (hheld : gather (undrained h) e = undrained h)
    (hdue : ((after h).step e).due = (after h).due) : ClosesOut (h ++ [e]) := by
  refine hc.snoc (by simp [hentry]) fun items hcome ↦ .inl ⟨hentry, .inr ?_⟩
  unfold ToCome
  rw [undrained_snoc, hheld, after_snoc, hdue]
  exact hcome

/-- An event while no close has items to come. -/
theorem ClosesOut.idle (hc : ClosesOut h) (hdue : (after h).due = [])
    (hentry : entryOf e ≠ some .finished) : ClosesOut (h ++ [e]) :=
  hc.snoc (fun hfinished ↦ absurd hfinished hentry) fun _ hcome ↦ absurd hdue hcome.due_ne_nil

theorem ClosesOut.succeeds (hc : ClosesOut h) (hlawful : Lawful h) (hwell : ClosesWell h)
    {op : Operation α α} {results : List α} (hunderway : (after h).underway = some (i, op))
    (hdrain : op = .drainResults → results = undrained h) :
    ClosesOut (h ++ [Event.answered i op (.ok results)]) := by
  have hdue := hlawful.sound.due_of_underway hunderway
  cases op with
  | finishBundle =>
    refine hc.snoc (fun _ ↦ ⟨_, (gathers hlawful hwell).bundle (.inr ⟨i, hunderway⟩), ?_⟩)
      fun _ hcome ↦ absurd hdue hcome.due_ne_nil
    unfold ToCome
    rw [undrained_snoc, after_snoc]
    exact .inl ⟨rfl, rfl⟩
  | drainResults =>
    refine hc.snoc (fun hfinished ↦ by cases hfinished) fun items hcome ↦ .inl ⟨rfl, ?_⟩
    rcases hcome with ⟨hheld, -⟩ | ⟨hne, hemits⟩
    · refine or_iff_not_imp_left.mpr fun hne ↦ .inr ⟨hne, ?_⟩
      rw [after_snoc, ← hheld, ← hdrain rfl]
      rfl
    · rw [hdue] at hemits
      cases items with
      | nil => exact absurd rfl hne
      | cons => cases hemits
  | emit x =>
    obtain ⟨rest, hdue⟩ := hdue
    refine hc.snoc (fun hfinished ↦ by cases hfinished) fun items hcome ↦ .inr ?_
    rcases hcome with ⟨-, hdrains⟩ | ⟨hne, hemits⟩
    · cases hdrains.symm.trans hdue
    · rw [hdue] at hemits
      cases items with
      | nil => exact absurd rfl hne
      | cons y items =>
        cases hemits
        refine ⟨x, items, rfl, rfl, or_iff_not_imp_left.mpr fun hne ↦ .inr ⟨hne, ?_⟩⟩
        rw [after_snoc, Standing.step, answer_due, hdue]
        rfl
  | _ => exact hc.idle hdue (by simp [entryOf, Operation.entryOf])

theorem closesOut (hlawful : Lawful h) (hfaithful : Faithful h) (hwell : ClosesWell h) :
    ClosesOut h := by
  induction h using List.reverseRecOn with
  | nil => exact fun before post hsplit ↦ by simp [entries] at hsplit
  | append_singleton h e ih =>
    obtain ⟨hbefore, hpermits⟩ := hlawful.of_snoc
    obtain ⟨hfaithful', hdrain⟩ := hfaithful.of_snoc
    have hc := ih hbefore hfaithful' hwell.of_snoc
    cases e with
    | issued | replied => exact hc.quiet rfl rfl rfl
    | asked i op => exact hc.quiet rfl rfl (ask_due _ _ _)
    | answered i op a =>
      cases a with
      | ok results =>
        exact hc.succeeds hbefore hwell.of_snoc hpermits fun hop ↦ hdrain i results (by rw [hop])
      | error f =>
        -- a failure that does not hit a close comes when no close has items to come
        have hlast : ¬ Breaks (.answered i op (.error f)) := hwell _ (by simp)
        have hdue := hbefore.sound.due_of_underway hpermits
        refine hc.idle ?_ (by simp [entryOf])
        cases op <;> first | exact hdue | exact absurd trivial hlast

end History

namespace Rig

variable {α : Type}

open History

/-- Every emission has an origin of its own, an item processed before it, and the origins come in
the order of the emissions, whatever has failed. Where no finish, no drain and no emission has
failed, every bundle that has been finished is followed at once by its own items, all of them unless
its close is still draining or emitting. -/
theorem emissions_have_origins (id : String) (checked : Checked) (timer : Timer)
    (failing : List Target) (moves : List (Move α)) :
    let r : Rig α := (created id checked timer failing).run moves
    let t := (created id checked timer failing : Rig α).trace moves
    (∃ origin : ℕ → ℕ,
        (∀ p x, r.recorder.journal[p]? = some (.emitted x) →
          origin p < p ∧ r.recorder.journal[origin p]? = some (.processed x)) ∧
        ∀ p p' x x', p < p' → r.recorder.journal[p]? = some (.emitted x) →
          r.recorder.journal[p']? = some (.emitted x') → origin p < origin p') ∧
      (ClosesWell t → ∀ before post, r.recorder.journal = before ++ .finished :: post →
        ∃ xs, (Journal.read before).current = some xs ∧
          ((∃ rest, post = xs.map .emitted ++ rest) ∨
            (∃ done items, xs = done ++ items ∧ post = done.map .emitted) ∧
              ∃ i op, (r.world.stage? i).bind Stage.operation? = some op ∧
                (op = .drainResults ∨ ∃ x, op = .emit x))) := by
  intro r t
  have hrecords := records_run id checked timer failing moves
  have hlawful : Standing.Lawful t := lawful_trace id checked timer failing moves
  rw [hrecords.journal]
  constructor
  · obtain ⟨origin, waiting, held, htraced⟩ := exists_traced hlawful hrecords.faithful
    exact ⟨origin, htraced.origins.emitted, htraced.origins.ordered⟩
  · intro hwell before post hsplit
    obtain ⟨xs, hcurrent, hcomplete | ⟨done, items, hxs, hdone, hcome⟩⟩ :=
      closesOut hlawful hrecords.faithful hwell before post hsplit
    · exact ⟨xs, hcurrent, .inl hcomplete⟩
    · refine ⟨xs, hcurrent, .inr ⟨⟨done, items, hxs, hdone⟩, ?_⟩⟩
      obtain ⟨op, rest, hdue, hop⟩ := hcome.exists_due
      have hconduct := (reaches id checked timer failing moves).conducts.conduct
      have hstage := Stage.operation?_of_due (hconduct.due.symm.trans hdue)
      refine ⟨r.world.acting.1, op, ?_, hop⟩
      rw [World.stage?_of_call (World.calls_acting (by rw [hstage]; rfl))]
      exact hstage

/-- Two equal items come out of their bundle, and the watermark behind them cannot be forwarded. -/
def watermarkRefused : List (Move Nat) :=
  [.issue .start, .proceed 0 none, .issue (.submit 5), .proceed 1 none, .proceed 1 none,
    .issue (.submit 5), .proceed 2 none, .issue (.watermark ⟨7⟩), .issue .endInput,
    .proceed 4 none, .proceed 4 none, .proceed 4 none, .proceed 4 none,
    .proceed 4 (some (.sink "injected"))]

/-- Whether an event is no failure, or one of forwarding a watermark. -/
def failsForwardOnly : Event Nat Nat → Bool
  | .answered _ op (.error _) => op.target == .forward
  | _ => true

theorem emissions_have_origins_watermarkRefused :
    ClosesWell (plain.trace watermarkRefused) ∧
      (plain.run watermarkRefused).recorder.journal = [.opened, .started, .processed 5,
        .processed 5] ++ .finished :: [.emitted 5, .emitted 5] ∧
      ∃ xs, (Journal.read [.opened, .started, .processed 5, .processed 5]).current = some xs ∧
        ((∃ rest, [.emitted 5, .emitted 5] = xs.map Entry.emitted ++ rest) ∨
          (∃ done items, xs = done ++ items ∧ [.emitted 5, .emitted 5] = done.map Entry.emitted) ∧
            ∃ i op, ((plain.run watermarkRefused).world.stage? i).bind Stage.operation? = some op ∧
              (op = .drainResults ∨ ∃ x, op = .emit x)) := by
  have hwell : ClosesWell (plain.trace watermarkRefused) := by
    -- the watermark is the only thing that fails
    have hfailed : (plain.trace watermarkRefused).all failsForwardOnly = true := by decide
    intro e he hbreaks
    have hnot := List.all_eq_true.mp hfailed e he
    unfold Breaks at hbreaks
    split at hbreaks <;> first | cases hnot | cases hbreaks
  have hjournal : (plain.run watermarkRefused).recorder.journal = [.opened, .started,
      .processed 5, .processed 5] ++ .finished :: [.emitted 5, .emitted 5] := by decide
  exact ⟨hwell, hjournal, (emissions_have_origins "plain" (Limits.check {})
    { kind := .manual false, now := 0 } [] watermarkRefused).2 hwell _ _ hjournal⟩

end Rig

end Bundling
