import Mathlib.Data.List.Induction
import Bundling.Proofs.Protocol
import Bundling.Proofs.Recording

/-!
Where the items go. In a lawful history with faithful drains every item that the unit has taken is
emitted, or waits in the unit, or is due to be emitted, or has been lost with an emission that
failed. Items wait in the unit without a bundle in progress only where a close has failed before its
drain was over.
-/

set_option autoImplicit false
set_option relaxedAutoImplicit false

namespace Bundling

namespace Standing

variable {α β : Type} {s : Standing α β} {h : History α β}

theorem Lawful.of_snoc {e : Event α β} (hlawful : Lawful (h ++ [e])) :
    Lawful h ∧ (after h).Permits e :=
  ⟨hlawful.of_append, hlawful h e [] rfl⟩

/-- The results that are due to be emitted. -/
def owed : List (Operation α β) → Nat
  | .emit _ :: rest => owed rest + 1
  | _ => 0

@[simp] theorem owed_map_emit (results : List β) :
    owed (results.map .emit : List (Operation α β)) = results.length := by
  induction results with
  | nil => rfl
  | cons r rest ih => simp [owed, ih]

/-- What is due is a drain or emissions, and the operation under way has followed what was due. -/
structure Sound (s : Standing α β) : Prop where
  due : (∃ results : List β, s.due = results.map .emit) ∨ s.due = [.drainResults]
  underway : ∀ i op, s.underway = some (i, op) → s.Follows op ∨ op = .finishBundle ∧ s.due = []

theorem Sound.ask (hs : s.Sound) {i : Nat} {op : Operation α β} (hfollows : s.Follows op) :
    (s.ask i op).Sound := by
  refine ⟨by simpa using hs.due, fun j op' hunderway ↦ ?_⟩
  rw [ask_underway] at hunderway
  cases hunderway
  cases op with
  | finishBundle =>
    refine .inr ⟨rfl, ?_⟩
    rw [ask_due]
    unfold Follows at hfollows
    rcases hs.due with ⟨results, hdue⟩ | hdue <;> rw [hdue] at hfollows ⊢
    · cases results with
      | nil => rfl
      | cons => cases hfollows
    · cases hfollows
  | _ => exact .inl hfollows

theorem Sound.answer (hs : s.Sound) (op : Operation α β) (a : Except Failure (List β)) :
    (s.answer op a).Sound := by
  refine ⟨?_, fun j op' hunderway ↦ by rw [answer_underway] at hunderway; cases hunderway⟩
  rw [answer_due]
  cases op with
  | finishBundle =>
    cases a with
    | error f => exact .inl ⟨[], rfl⟩
    | ok results => exact .inr rfl
  | drainResults =>
    cases a with
    | error f => exact .inl ⟨[], rfl⟩
    | ok results => exact .inl ⟨results, rfl⟩
  | emit r =>
    cases a with
    | error f => exact .inl ⟨[], rfl⟩
    | ok results =>
      left
      rcases hs.due with ⟨emitted, hemitted⟩ | hdrain
      · exact ⟨emitted.tail, by simp [dueAfter, hemitted, List.map_tail]⟩
      · exact ⟨[], by simp [dueAfter, hdrain]⟩
  | _ => exact .inl ⟨[], rfl⟩

/-- What was due when the operation under way was asked for. -/
theorem Sound.due_of_underway (hs : s.Sound) {i : Nat} {op : Operation α β}
    (h : s.underway = some (i, op)) :
    match op with
    | .drainResults => s.due = [.drainResults]
    | .emit r => ∃ rest, s.due = .emit r :: rest
    | _ => s.due = [] := by
  rcases hs.underway i op h with hfollows | ⟨rfl, hdue⟩
  · unfold Follows at hfollows
    rcases hs.due with ⟨results, hdue⟩ | hdue <;> rw [hdue] at hfollows ⊢
    · cases results with
      | nil => cases op <;> simp_all
      | cons r rest =>
        change op = .emit r at hfollows
        subst hfollows
        exact ⟨rest.map .emit, rfl⟩
    · change op = .drainResults at hfollows
      subst hfollows
      rfl
  · exact hdue

/-- A finish is asked for in a bundle only. -/
theorem Sound.inBundle_of_finish (hs : s.Sound) (hfollows : s.Follows .finishBundle) :
    s.inBundle = true := by
  unfold Follows at hfollows
  rcases hs.due with ⟨results, hdue⟩ | hdue <;> rw [hdue] at hfollows
  · cases results with
    | nil => exact hfollows
    | cons => cases hfollows
  · cases hfollows

theorem Sound.inBundle_of_process (hs : s.Sound) {i : Nat} {x : α}
    (h : s.underway = some (i, .process x)) : s.inBundle = true := by
  have hfollows := (hs.underway i _ h).resolve_right (by simp)
  have hdue : s.due = [] := hs.due_of_underway h
  unfold Follows at hfollows
  rw [hdue] at hfollows
  exact hfollows

theorem Sound.not_inBundle_of_start (hs : s.Sound) {i : Nat}
    (h : s.underway = some (i, .startBundle)) : s.inBundle = false := by
  have hfollows := (hs.underway i _ h).resolve_right (by simp)
  have hdue : s.due = [] := hs.due_of_underway h
  unfold Follows at hfollows
  rw [hdue] at hfollows
  exact hfollows.2

/-- Once its finish has been asked for, a bundle is no longer in progress. -/
theorem not_inBundle_of_finishing {i : Nat}
    (hfinish : (after h).underway = some (i, .finishBundle)) : (after h).inBundle = false := by
  induction h using List.reverseRecOn with
  | nil => rfl
  | append_singleton h e ih =>
    rw [after_snoc] at hfinish ⊢
    cases e with
    | issued | replied => exact ih hfinish
    | asked j op =>
      rw [step, ask_underway] at hfinish
      cases hfinish
      rfl
    | answered j op a =>
      rw [step, answer_underway] at hfinish
      cases hfinish

theorem Lawful.sound (hlawful : Lawful h) : (after h).Sound := by
  induction h using List.reverseRecOn with
  | nil => exact ⟨.inl ⟨[], rfl⟩, fun _ _ hnone ↦ by cases hnone⟩
  | append_singleton h e ih =>
    obtain ⟨hbefore, hpermits⟩ := hlawful.of_snoc
    rw [after_append]
    cases e with
    | asked i op => exact (ih hbefore).ask hpermits.2.2
    | answered i op a => exact (ih hbefore).answer op a
    | issued | replied => exact ih hbefore

end Standing

namespace History

variable {α : Type} {h : History α α}

open Standing

theorem Faithful.of_append {new : History α α} (hfaithful : Faithful (h ++ new)) : Faithful h :=
  fun before i results rest heq ↦ hfaithful before i results (rest ++ new) (by simp [heq])

theorem Faithful.of_snoc {e : Event α α} (hfaithful : Faithful (h ++ [e])) :
    Faithful h ∧
      ∀ i results, e = .answered i .drainResults (.ok results) → results = undrained h :=
  ⟨hfaithful.of_append, fun i results heq ↦ hfaithful h i results [] (by rw [heq])⟩

/-- An emission has failed. -/
def Loses (h : History α α) : Prop := ∃ i x f, .answered i (.emit x) (.error f) ∈ h

/-- A close has failed, in its finish or in its drain, over items that no drain has handed over
since. -/
def Strands (h : History α α) : Prop :=
  ∃ before i op f rest, h = before ++ Event.answered i op (.error f) :: rest ∧
    (op = .finishBundle ∨ op = .drainResults) ∧ undrained before ≠ [] ∧
    ∀ j results, .answered j .drainResults (.ok results) ∉ rest

/-- Some results of a failed close have not been emitted. -/
def Undelivered (h : History α α) : Prop := Loses h ∨ Strands h

theorem loses_snoc (h : History α α) (e : Event α α) :
    Loses (h ++ [e]) ↔ Loses h ∨ ∃ i x f, e = .answered i (.emit x) (.error f) := by
  unfold Loses
  simp only [List.mem_append, List.mem_singleton]
  constructor
  · rintro ⟨i, x, f, hbefore | hlast⟩
    · exact .inl ⟨i, x, f, hbefore⟩
    · exact .inr ⟨i, x, f, hlast.symm⟩
  · rintro (⟨i, x, f, hbefore⟩ | ⟨i, x, f, hlast⟩)
    · exact ⟨i, x, f, .inl hbefore⟩
    · exact ⟨i, x, f, .inr hlast.symm⟩

theorem strands_snoc (h : History α α) (e : Event α α) :
    Strands (h ++ [e]) ↔
      (∃ i op f, e = .answered i op (.error f) ∧ (op = .finishBundle ∨ op = .drainResults) ∧
        undrained h ≠ []) ∨
      Strands h ∧ ∀ j results, e ≠ .answered j .drainResults (.ok results) := by
  constructor
  · rintro ⟨before, i, op, f, rest, heq, hop, hheld, hrest⟩
    rcases List.eq_nil_or_concat rest with rfl | ⟨rest', last, rfl⟩
    · obtain ⟨rfl, hlast⟩ := List.append_inj' heq rfl
      exact .inl ⟨i, op, f, (List.cons.inj hlast).1, hop, hheld⟩
    · have hsplit : h ++ [e] = (before ++ Event.answered i op (.error f) :: rest') ++ [last] := by
        simpa using heq
      obtain ⟨hbefore, hlast⟩ := List.append_inj' hsplit rfl
      rw [List.cons.injEq] at hlast
      refine .inr ⟨⟨before, i, op, f, rest', hbefore, hop, hheld, fun j results hmem ↦ ?_⟩,
        fun j results hdrain ↦ ?_⟩
      · exact hrest j results (by simp [hmem])
      · exact hrest j results (by simp [← hlast.1, hdrain])
  · rintro (⟨i, op, f, rfl, hop, hheld⟩ | ⟨⟨before, i, op, f, rest, rfl, hop, hheld, hrest⟩, he⟩)
    · exact ⟨h, i, op, f, [], rfl, hop, hheld, by simp⟩
    · refine ⟨before, i, op, f, rest ++ [e], by simp, hop, hheld, fun j results hmem ↦ ?_⟩
      rcases List.mem_append.mp hmem with hmem | hmem
      · exact hrest j results hmem
      · exact he j results (List.mem_singleton.mp hmem).symm

/-- Items that a failed close has left in the unit are there until a drain hands them over. -/
theorem Strands.undrained_ne_nil (hstrands : Strands h) : undrained h ≠ [] := by
  obtain ⟨before, i, op, f, rest, rfl, -, hheld, hrest⟩ := hstrands
  have hkeeps (new : History α α) : ∀ held : List α, held ≠ [] →
      (∀ j results, .answered j .drainResults (.ok results) ∉ new) →
      new.foldl gather held ≠ [] := by
    induction new with
    | nil => exact fun held hheld _ ↦ hheld
    | cons e new ih =>
      intro held hheld hnew
      refine ih _ ?_ fun j results hmem ↦ hnew j results (List.mem_cons_of_mem e hmem)
      unfold gather
      split
      · simp
      · exact absurd List.mem_cons_self (hnew _ _)
      · exact hheld
  rw [undrained_append]
  refine hkeeps _ _ hheld fun j results hmem ↦ ?_
  rcases List.mem_cons.mp hmem with hfirst | hlater
  · cases hfirst
  · exact hrest j results hlater

/-- Every item taken is emitted, lost, due to be emitted, or still in the unit. -/
def Balanced (h : History α α) (lost : Nat) : Prop :=
  (entries h).processed.length =
    (entries h).emitted.length + lost + owed (after h).due + (undrained h).length

theorem Balanced.quiet {lost : Nat} (hb : Balanced h lost) {e : Event α α}
    (hentry : entryOf e = none) (hheld : gather (undrained h) e = undrained h)
    (hdue : ((after h).step e).due = (after h).due) : Balanced (h ++ [e]) lost := by
  unfold Balanced
  rw [entries_snoc, undrained_snoc, after_snoc, hentry, hheld, hdue, Option.toList_none,
    List.append_nil]
  exact hb

/-- A failure loses what was due to be emitted. -/
theorem Balanced.fails {lost : Nat} (hb : Balanced h lost) (i : Nat) (op : Operation α α)
    (f : Failure) :
    Balanced (h ++ [Event.answered i op (.error f)]) (lost + owed (after h).due) := by
  have hdue : dueAfter (after h).due op (.error f) = [] := by cases op <;> rfl
  have hheld : gather (undrained h) (.answered i op (.error f)) = undrained h := by cases op <;> rfl
  have hentry : entryOf (.answered i op (.error f)) = none := rfl
  unfold Balanced at hb ⊢
  rw [entries_snoc, undrained_snoc, after_snoc, Standing.step, answer_due, hdue, hheld, hentry]
  simp only [Option.toList_none, List.append_nil, owed]
  omega

theorem Balanced.succeeds {lost : Nat} (hb : Balanced h lost) {i : Nat} {op : Operation α α}
    {results : List α} (hsound : (after h).Sound) (hunderway : (after h).underway = some (i, op))
    (hdrain : op = .drainResults → results = undrained h) :
    Balanced (h ++ [Event.answered i op (.ok results)]) lost := by
  have hdue := hsound.due_of_underway hunderway
  unfold Balanced at hb ⊢
  rw [entries_snoc, undrained_snoc, after_snoc, Standing.step, answer_due,
    Journal.processed_append, Journal.emitted_append, List.length_append, List.length_append]
  cases op with
  | process x =>
    dsimp only at hdue
    rw [hdue] at hb
    simp only [entryOf, Operation.entryOf, Option.toList, Journal.processed, Journal.emitted,
      Journal.processedItem?, Journal.emittedResult?, List.filterMap_cons, List.filterMap_nil,
      List.length_singleton, List.length_nil, gather, List.length_append, dueAfter, owed] at hb ⊢
    omega
  | drainResults =>
    dsimp only at hdue
    rw [hdue] at hb
    simp only [entryOf, Operation.entryOf, Option.toList, Journal.processed, Journal.emitted,
      List.filterMap_nil, List.length_nil, gather, dueAfter, owed_map_emit, owed, hdrain rfl]
      at hb ⊢
    omega
  | emit x =>
    obtain ⟨rest, hdue⟩ := hdue
    rw [hdue] at hb ⊢
    simp only [entryOf, Operation.entryOf, Option.toList, Journal.processed, Journal.emitted,
      Journal.processedItem?, Journal.emittedResult?, List.filterMap_cons, List.filterMap_nil,
      List.length_singleton, List.length_nil, gather, dueAfter, List.tail_cons, owed] at hb ⊢
    omega
  | _ =>
    dsimp only at hdue
    rw [hdue] at hb
    exact hb

/-- Results are lost only where an emission fails. -/
theorem owed_pos_iff_of_underway {s : Standing α α} (hsound : s.Sound) {i : Nat}
    {op : Operation α α} (hunderway : s.underway = some (i, op)) :
    0 < owed s.due ↔ ∃ x, op = .emit x := by
  have hdue := hsound.due_of_underway hunderway
  cases op with
  | emit x =>
    obtain ⟨rest, hdue⟩ := hdue
    simp [hdue, owed]
  | _ =>
    dsimp only at hdue
    simp [hdue, owed]

theorem exists_balance (hlawful : Lawful h) (hfaithful : Faithful h) :
    ∃ lost, Balanced h lost ∧ (0 < lost ↔ Loses h) := by
  induction h using List.reverseRecOn with
  | nil => exact ⟨0, rfl, by simp [Loses]⟩
  | append_singleton h e ih =>
    obtain ⟨hbefore, hpermits⟩ := hlawful.of_snoc
    obtain ⟨hfaithful', hdrain⟩ := hfaithful.of_snoc
    obtain ⟨lost, hbalanced, hlost⟩ := ih hbefore hfaithful'
    rw [loses_snoc]
    cases e with
    | issued | replied => exact ⟨lost, hbalanced.quiet rfl rfl rfl, by simpa using hlost⟩
    | asked i op => exact ⟨lost, hbalanced.quiet rfl rfl (ask_due _ _ _), by simpa using hlost⟩
    | answered i op a =>
      cases a with
      | error f =>
        refine ⟨_, hbalanced.fails i op f, ?_⟩
        have hemission := owed_pos_iff_of_underway hbefore.sound hpermits
        rw [Nat.add_pos_iff_pos_or_pos, hlost, hemission]
        refine or_congr Iff.rfl ?_
        constructor
        · rintro ⟨x, rfl⟩
          exact ⟨i, x, f, rfl⟩
        · rintro ⟨_, x, _, heq⟩
          cases heq
          exact ⟨x, rfl⟩
      | ok results =>
        refine ⟨lost, hbalanced.succeeds hbefore.sound hpermits fun hop ↦ ?_, by simpa using hlost⟩
        exact hdrain i results (by rw [hop])

/-- Items wait in the unit while their bundle is in progress, while it is being finished and
drained, and after its close has failed. -/
theorem undrained_cases (hlawful : Lawful h) (hheld : undrained h ≠ []) :
    (after h).inBundle = true ∨ (∃ i, (after h).underway = some (i, .finishBundle)) ∨
      (after h).due = [.drainResults] ∨ Strands h := by
  induction h using List.reverseRecOn with
  | nil => exact absurd rfl hheld
  | append_singleton h e ih =>
    obtain ⟨hbefore, hpermits⟩ := hlawful.of_snoc
    rw [undrained_snoc] at hheld
    rw [after_snoc, strands_snoc]
    cases e with
    | issued | replied =>
      rcases ih hbefore hheld with hbundle | hfinish | hdue | hstrands
      · exact .inl hbundle
      · exact .inr (.inl hfinish)
      · exact .inr (.inr (.inl hdue))
      · exact .inr (.inr (.inr (.inr ⟨hstrands, by simp⟩)))
    | asked i op =>
      rcases ih hbefore hheld with hbundle | ⟨j, hfinish⟩ | hdue | hstrands
      · cases op with
        | finishBundle => exact .inr (.inl ⟨i, rfl⟩)
        | _ => exact .inl hbundle
      · exact absurd (hfinish.symm.trans hpermits.1) (by simp)
      · exact .inr (.inr (.inl ((ask_due _ _ _).trans hdue)))
      · exact .inr (.inr (.inr (.inr ⟨hstrands, by simp⟩)))
    | answered i op a =>
      have hsound := hbefore.sound
      have hdue := hsound.due_of_underway hpermits
      by_cases hbefore' : undrained h = []
      · -- the unit has just taken its first item since the last drain
        cases op with
        | process x =>
          rcases hsound.underway i _ hpermits with hfollows | ⟨hfinish, -⟩
          · dsimp only at hdue
            rw [Follows, hdue] at hfollows
            left
            cases a <;> exact hfollows
          · cases hfinish
        | _ => cases a <;> first | exact absurd hbefore' hheld | exact absurd rfl hheld
      · rcases ih hbefore hbefore' with hbundle | ⟨j, hfinish⟩ | hdrain | hstrands
        · left
          cases op <;> cases a <;> first | exact hbundle | rfl
        · have hop : op = .finishBundle := by
            have heq := hpermits.symm.trans hfinish
            simp_all
          subst hop
          cases a with
          | error f => exact .inr (.inr (.inr (.inl ⟨i, _, f, rfl, .inl rfl, hbefore'⟩)))
          | ok results => exact .inr (.inr (.inl rfl))
        · have hop : op = .drainResults := by
            rw [hdrain] at hdue
            cases op <;> simp_all
          subst hop
          cases a with
          | error f => exact .inr (.inr (.inr (.inl ⟨i, _, f, rfl, .inr rfl, hbefore'⟩)))
          | ok results => exact absurd rfl hheld
        · refine .inr (.inr (.inr (.inr ⟨hstrands, fun j results heq ↦ ?_⟩)))
          cases heq
          exact hheld rfl

/-- With no bundle in progress and none on its way out, everything taken has been emitted, unless a
failed close has left results behind. -/
theorem emitted_eq_processed_iff (hlawful : Lawful h) (hfaithful : Faithful h)
    (hbundle : (after h).inBundle = false) (hdue : (after h).due = [])
    (hunderway : ∀ i, (after h).underway ≠ some (i, .finishBundle)) :
    (entries h).emitted.length = (entries h).processed.length ↔ ¬ Undelivered h := by
  obtain ⟨lost, hcount, hlost⟩ := exists_balance hlawful hfaithful
  unfold Balanced at hcount
  have hstrands : undrained h ≠ [] ↔ Strands h := by
    constructor
    · intro hheld
      rcases undrained_cases hlawful hheld with hin | ⟨i, hfinish⟩ | hdrain | hstrands
      · exact absurd (hbundle.symm.trans hin) (by simp)
      · exact absurd hfinish (hunderway i)
      · exact absurd (hdue.symm.trans hdrain) (by simp)
      · exact hstrands
    · exact Strands.undrained_ne_nil
  rw [hdue] at hcount
  simp only [owed] at hcount
  have hempty : (undrained h).length = 0 ↔ ¬ Strands h := by
    rw [← hstrands, List.length_eq_zero_iff, not_not]
  unfold Undelivered
  rw [← hlost, not_or, ← hempty]
  omega

theorem eq_answered_of_forwarded {e : Event α α} {w : Watermark}
    (h : entryOf e = some (.forwarded w)) :
    ∃ i results, e = .answered i (.forward w) (.ok results) := by
  cases e with
  | answered i op a =>
    cases a with
    | error f => cases h
    | ok results =>
      cases op with
      | forward v =>
        cases h
        exact ⟨i, results, rfl⟩
      | _ => cases h
  | _ => cases h

/-- Where in the history a forwarded watermark stands. -/
theorem exists_split_of_forwarded {before after : Journal α} {w : Watermark}
    (hentries : entries h = before ++ Entry.forwarded w :: after) :
    ∃ past i results future, h = past ++ Event.answered i (.forward w) (.ok results) :: future ∧
      entries past = before := by
  obtain ⟨start, rest, hstart, hbefore, hrest⟩ := List.filterMap_eq_append_iff.mp hentries
  obtain ⟨quiet, e, future, hsplit, hquiet, he, -⟩ := List.filterMap_eq_cons_iff.mp hrest
  obtain ⟨i, results, rfl⟩ := eq_answered_of_forwarded he
  refine ⟨start ++ quiet, i, results, future, ?_, ?_⟩
  · rw [hstart, hsplit, List.append_assoc]
  · rw [entries_append, entries, hbefore, entries, List.filterMap_eq_nil_iff.mpr hquiet,
      List.append_nil]

/-- No bundle is in progress where a watermark is forwarded. -/
theorem emitted_eq_processed_iff_of_forward {i : Nat} {w : Watermark}
    {a : Except Failure (List α)} {future : History α α}
    (hlawful : Lawful (h ++ Event.answered i (.forward w) a :: future))
    (hfaithful : Faithful (h ++ Event.answered i (.forward w) a :: future)) :
    (entries h).emitted.length = (entries h).processed.length ↔ ¬ Undelivered h := by
  have hpermits := hlawful _ _ _ rfl
  have hsound := hlawful.of_append.sound
  have hdue := hsound.due_of_underway hpermits
  have hbundle : (Standing.after h).inBundle = false := by
    rcases hsound.underway i _ hpermits with hfollows | ⟨hfinish, -⟩
    · dsimp only at hdue
      rw [Standing.Follows, hdue] at hfollows
      exact hfollows
    · cases hfinish
  refine emitted_eq_processed_iff hlawful.of_append hfaithful.of_append hbundle hdue fun j ↦ ?_
  intro hfinish
  cases hpermits.symm.trans hfinish

end History

end Bundling
