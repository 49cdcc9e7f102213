import Bundling.Proofs.Delivery
import Mathlib.Data.List.DropRight

/-!
What is read from a journal about bundles. A finish ends a bundle if one has been started since the
finish before, and the bundle has the items behind its start; nothing but starts, items and finishes
counts. What precedes a point with no bundle open is read apart from what follows. While no finish
fails, a coordinator starts no bundle in another and has no item taken outside of one, so that the
finished bundles and the items since the last finish are all that has been processed.
-/

set_option autoImplicit false
set_option relaxedAutoImplicit false

namespace Bundling

namespace Entry

variable {α : Type}

def isStarted : Entry α → Bool
  | started => true
  | _ => false

def isFinished : Entry α → Bool
  | finished => true
  | _ => false

/-- The entries that tell of bundles: starts, items and finishes. -/
def isOfBundle : Entry α → Bool
  | started | processed _ | finished => true
  | _ => false

end Entry

namespace Journal

variable {α : Type} {j : Journal α} {e : Entry α}

/-- The entries behind the last one of a kind, or all if there is none. -/
def since (p : Entry α → Bool) (j : Journal α) : Journal α := j.rtakeWhile fun e ↦ !p e

/-- Whether a bundle has been started since the last finish. -/
def isOpen (j : Journal α) : Bool := (j.since Entry.isFinished).any Entry.isStarted

/-- The places of the finishes with a start since the finish before. -/
def closings (j : Journal α) : List ℕ :=
  (List.range j.length).filter fun k ↦ j[k]?.any Entry.isFinished && isOpen (j.take k)

theorem read_snoc (j : Journal α) (e : Entry α) : read (j ++ [e]) = (read j).step e :=
  read_append j [e]

theorem processed_snoc (j : Journal α) (e : Entry α) :
    processed (j ++ [e]) = processed j ++ (processedItem? e).toList := by
  rw [processed_append]
  cases e <;> rfl

theorem since_snoc (p : Entry α → Bool) (j : Journal α) (e : Entry α) :
    since p (j ++ [e]) = if p e then [] else since p j ++ [e] := by
  unfold since
  rw [List.rtakeWhile_concat]
  cases p e <;> rfl

theorem processed_since_snoc (p : Entry α → Bool) (j : Journal α) (e : Entry α) :
    processed (since p (j ++ [e])) =
      if p e then [] else processed (since p j) ++ (processedItem? e).toList := by
  rw [since_snoc]
  split
  · rfl
  · exact processed_snoc _ e

theorem isOpen_snoc (j : Journal α) (e : Entry α) :
    isOpen (j ++ [e]) = (!e.isFinished && (isOpen j || e.isStarted)) := by
  unfold isOpen
  rw [since_snoc]
  cases e.isFinished <;> simp

/-- One entry more is one place more, or none. -/
theorem closings_snoc (j : Journal α) (e : Entry α) :
    closings (j ++ [e]) = closings j ++ if e.isFinished && isOpen j then [j.length] else [] := by
  have hbefore : ∀ k ∈ List.range j.length,
      ((j ++ [e])[k]?.any Entry.isFinished && isOpen ((j ++ [e]).take k)) =
        (j[k]?.any Entry.isFinished && isOpen (j.take k)) := by
    intro k hk
    have hlt := List.mem_range.mp hk
    rw [List.getElem?_append_left hlt, List.take_append_of_le_length (Nat.le_of_lt hlt)]
  unfold closings
  rw [List.length_append, List.length_singleton, List.range_succ, List.filter_append,
    List.filter_congr hbefore, List.filter_singleton]
  simp

theorem lt_length_of_mem_closings {k : ℕ} (hk : k ∈ closings j) : k < j.length :=
  List.mem_range.mp (List.mem_of_mem_filter hk)

/-! ### The reading of a journal -/

/-- The items behind the last start. -/
def lastItems (j : Journal α) : List α := processed (j.since Entry.isStarted)

theorem lastItems_snoc (j : Journal α) (e : Entry α) :
    lastItems (j ++ [e]) = if e.isStarted then [] else lastItems j ++ (processedItem? e).toList :=
  processed_since_snoc _ j e

/-- The items of each bundle that a finish has ended. -/
def ended (j : Journal α) : List (List α) := (closings j).map fun k ↦ lastItems (j.take k)

theorem ended_snoc (j : Journal α) (e : Entry α) :
    ended (j ++ [e]) = ended j ++ if e.isFinished && isOpen j then [lastItems j] else [] := by
  have hbefore : (closings j).map (fun k ↦ lastItems ((j ++ [e]).take k)) = ended j :=
    List.map_congr_left fun k hk ↦ by
      rw [List.take_append_of_le_length (Nat.le_of_lt (lt_length_of_mem_closings hk))]
  unfold ended at hbefore ⊢
  rw [closings_snoc, List.map_append, hbefore]
  split <;> simp

/-- The fold over the entries finds the bundles that finishes have ended, and the one that is
open. -/
theorem read_eq (j : Journal α) :
    read j = ⟨ended j, if isOpen j then some (lastItems j) else none⟩ := by
  induction j using List.reverseRecOn with
  | nil => rfl
  | append_singleton j e ih =>
    rw [read_snoc, ih, ended_snoc, isOpen_snoc, lastItems_snoc]
    cases e with
    | finished => cases isOpen j <;> simp [Reading.step, Entry.isFinished]
    | started => simp [Reading.step, Entry.isFinished, Entry.isStarted]
    | processed x =>
      cases isOpen j <;>
        simp [Reading.step, Entry.isFinished, Entry.isStarted, processedItem?]
    | _ => simp [Reading.step, Entry.isFinished, Entry.isStarted, processedItem?]

theorem bundles_eq (j : Journal α) : bundles j = ended j := by
  rw [bundles, read_eq]

/-- A start drops the bundle before it if that has not been finished, and a finish without a start
ends nothing. -/
example : bundles [.started, .processed 1, .started, .processed 2, .finished, .processed 3,
    .finished] = [[2]] := by
  decide

theorem length_bundles (j : Journal α) : (bundles j).length = (closings j).length := by
  rw [bundles_eq, ended, List.length_map]

theorem current_of_isOpen (hopen : isOpen j = true) : (read j).current = some (lastItems j) := by
  rw [read_eq, hopen]
  rfl

theorem current_of_not_isOpen (hopen : isOpen j = false) : (read j).current = none := by
  rw [read_eq, hopen]
  rfl

/-- Bundles that are finished already stay in front, and change nothing for what follows. -/
theorem foldl_step_behind (done : List (List α)) (j : Journal α) (r : Reading α) :
    j.foldl Reading.step ⟨done ++ r.finished, r.current⟩ =
      ⟨done ++ (j.foldl Reading.step r).finished, (j.foldl Reading.step r).current⟩ := by
  induction j generalizing r with
  | nil => rfl
  | cons e j ih =>
    rw [List.foldl_cons, List.foldl_cons, ← ih]
    cases e with
    | finished => simp [Reading.step]
    | _ => rfl

theorem bundles_append_of_not_isOpen (hopen : isOpen j = false) (k : Journal α) :
    bundles (j ++ k) = bundles j ++ bundles k := by
  have hread : read j = ⟨bundles j ++ [], none⟩ := by
    rw [List.append_nil, ← current_of_not_isOpen hopen]
    rfl
  calc bundles (j ++ k) = (k.foldl Reading.step (read j)).finished := by rw [bundles, read_append]
    _ = bundles j ++ bundles k := by
      rw [hread]
      exact congrArg Reading.finished (foldl_step_behind (bundles j) k {})

/-! ### Entries that do not count -/

theorem foldl_step_filter (j : Journal α) (r : Reading α) :
    (j.filter Entry.isOfBundle).foldl Reading.step r = j.foldl Reading.step r := by
  induction j generalizing r with
  | nil => rfl
  | cons e j ih => cases e <;> exact ih _

theorem bundles_filter (j : Journal α) : bundles (j.filter Entry.isOfBundle) = bundles j :=
  congrArg Reading.finished (foldl_step_filter j {})

theorem processed_filter (j : Journal α) : processed (j.filter Entry.isOfBundle) = processed j := by
  have hcounts : ∀ e ∈ j, processedItem? e = if e.isOfBundle then processedItem? e else none :=
    fun e _ ↦ by cases e <;> rfl
  unfold processed
  rw [List.filterMap_filter, List.filterMap_congr hcounts]

/-- Entries that are left out do not change what is behind the last entry of a kind that stays. -/
theorem since_filter {p q : Entry α → Bool} (hp : ∀ e, p e = true → q e = true) (j : Journal α) :
    since p (j.filter q) = (since p j).filter q := by
  induction j using List.reverseRecOn with
  | nil => rfl
  | append_singleton j e ih =>
    rw [List.filter_append, since_snoc]
    cases he : p e with
    | true => simp [since_snoc, he, hp e he]
    | false =>
      cases hq : q e with
      | true => simp [since_snoc, he, hq, ih]
      | false => simp [hq, ih]

/-! ### Bundles that do not overlap -/

/-- Whether bundles stay apart, and items in bundles, if this entry comes next. -/
def Fits (j : Journal α) : Entry α → Prop
  | .started => isOpen j = false
  | .processed _ => isOpen j = true
  | _ => True

/-- No bundle is started in another, and every item is in one. -/
inductive Bracketed : Journal α → Prop
  | nil : Bracketed []
  | snoc {j : Journal α} {e : Entry α} (h : Bracketed j) (he : Fits j e) : Bracketed (j ++ [e])

/-- The items since the last finish are those of the open bundle. -/
theorem Bracketed.current (h : Bracketed j) :
    (read j).current.getD [] = processed (j.since Entry.isFinished) := by
  induction h with
  | nil => rfl
  | @snoc j e h he ih =>
    rw [read_snoc, processed_since_snoc, ← ih]
    cases e with
    | started =>
      have hcurrent : (read j).current = none := current_of_not_isOpen he
      rw [hcurrent]
      rfl
    | processed x =>
      have hcurrent : (read j).current = some (lastItems j) := current_of_isOpen he
      rw [Reading.step, hcurrent]
      rfl
    | finished => rfl
    | _ => exact (List.append_nil _).symm

/-- No item is lost between bundles. -/
theorem Bracketed.flatten (h : Bracketed j) :
    (bundles j).flatten ++ processed (j.since Entry.isFinished) = processed j := by
  induction h with
  | nil => rfl
  | @snoc j e h he ih =>
    rw [processed_snoc, ← ih, processed_since_snoc, bundles, read_snoc]
    cases e with
    | finished =>
      have hended : (read j).current.toList.flatten = processed (j.since Entry.isFinished) := by
        rw [← h.current]
        cases (read j).current <;> simp
      rw [← hended]
      simp [Reading.step, bundles, Entry.isFinished, processedItem?]
    | _ => exact (List.append_assoc _ _ _).symm

end Journal

namespace Standing

variable {α β : Type} {s : Standing α β} {i : Nat} {op : Operation α β}

/-- A bundle has been started, and its finish has not been answered. -/
def HoldsBundle (s : Standing α β) : Prop :=
  s.inBundle = true ∨ ∃ i, s.underway = some (i, .finishBundle)

theorem holdsBundle_iff_of_none (hunderway : s.underway = none) :
    s.HoldsBundle ↔ s.inBundle = true := by
  simp [HoldsBundle, hunderway]

theorem holdsBundle_iff_of_underway (hunderway : s.underway = some (i, op))
    (hop : op ≠ .finishBundle) : s.HoldsBundle ↔ s.inBundle = true := by
  simp [HoldsBundle, hunderway, hop]

end Standing

namespace History

variable {α : Type} {h : History α α} {e : Event α α}

open Standing

def isFailedFinish : Event α α → Bool
  | .answered _ .finishBundle (.error _) => true
  | _ => false

/-- No finish of a bundle has failed. -/
def FinishesWell (h : History α α) : Prop := ∀ e ∈ h, isFailedFinish e = false

theorem FinishesWell.of_snoc (hwell : FinishesWell (h ++ [e])) : FinishesWell h :=
  fun e' hmem ↦ hwell e' (List.mem_append_left _ hmem)

/-- The journal keeps bundles apart, and has one open while the unit holds one. -/
structure Brackets (h : History α α) : Prop where
  bracketed : (entries h).Bracketed
  isOpen_iff : (entries h).isOpen = true ↔ (after h).HoldsBundle

/-- An event that leaves no entry. -/
theorem Brackets.quiet (hb : Brackets h) (hentry : entryOf e = none)
    (hholds : ((after h).step e).HoldsBundle ↔ (after h).HoldsBundle) : Brackets (h ++ [e]) := by
  have hentries : entries (h ++ [e]) = entries h := by
    rw [entries_snoc, hentry, Option.toList_none, List.append_nil]
  constructor
  · rw [hentries]
    exact hb.bracketed
  · rw [hentries, after_snoc, hholds]
    exact hb.isOpen_iff

/-- An event that leaves an entry which fits. -/
theorem Brackets.notes (hb : Brackets h) {entry : Entry α} (hentry : entryOf e = some entry)
    (hfits : (entries h).Fits entry)
    (hholds : ((after h).step e).HoldsBundle ↔
      entry.isFinished = false ∧ ((after h).HoldsBundle ∨ entry.isStarted = true)) :
    Brackets (h ++ [e]) := by
  have hentries : entries (h ++ [e]) = entries h ++ [entry] := by
    rw [entries_snoc, hentry, Option.toList_some]
  constructor
  · rw [hentries]
    exact hb.bracketed.snoc hfits
  · rw [hentries, after_snoc, hholds, ← hb.isOpen_iff, Journal.isOpen_snoc]
    simp

theorem Brackets.asks (hb : Brackets h) (hsound : (after h).Sound) (i : Nat) {op : Operation α α}
    (hpermits : (after h).Permits (.asked i op)) : Brackets (h ++ [Event.asked i op]) := by
  refine hb.quiet rfl ?_
  have hasked : ((after h).step (.asked i op)).underway = some (i, op) := ask_underway _ _ _
  rw [holdsBundle_iff_of_none hpermits.1]
  by_cases hop : op = .finishBundle
  · subst hop
    exact iff_of_true (.inr ⟨i, hasked⟩) (hsound.inBundle_of_finish hpermits.2.2)
  · rw [holdsBundle_iff_of_underway hasked hop]
    cases op <;> first | rfl | exact absurd rfl hop

theorem Brackets.fails (hb : Brackets h) {i : Nat} {op : Operation α α} {f : Failure}
    (hunderway : (after h).underway = some (i, op)) (hop : op ≠ .finishBundle) :
    Brackets (h ++ [Event.answered i op (.error f)]) := by
  have hanswered : ((after h).step (.answered i op (.error f))).underway = none :=
    answer_underway _ _ _
  refine hb.quiet rfl ?_
  rw [holdsBundle_iff_of_underway hunderway hop, holdsBundle_iff_of_none hanswered]
  cases op <;> rfl

theorem Brackets.succeeds (hb : Brackets h) (hsound : (after h).Sound) {i : Nat}
    {op : Operation α α} (hunderway : (after h).underway = some (i, op)) (results : List α) :
    Brackets (h ++ [Event.answered i op (.ok results)]) := by
  have hanswered : ((after h).step (.answered i op (.ok results))).underway = none :=
    answer_underway _ _ _
  cases op with
  | finishBundle =>
    refine hb.notes rfl trivial (iff_of_false ?_ (by simp [Entry.isFinished]))
    rw [holdsBundle_iff_of_none hanswered]
    simpa [step, answer] using not_inBundle_of_finishing hunderway
  | startBundle =>
    have hclosed : ¬ (after h).HoldsBundle := by
      rw [holdsBundle_iff_of_underway hunderway (by simp), hsound.not_inBundle_of_start hunderway]
      simp
    refine hb.notes rfl ?_ (iff_of_true (.inl rfl) (by simp [Entry.isFinished, Entry.isStarted]))
    exact Bool.eq_false_iff.mpr fun hopen ↦ hclosed (hb.isOpen_iff.mp hopen)
  | process x =>
    have hholds : (after h).HoldsBundle := .inl (hsound.inBundle_of_process hunderway)
    exact hb.notes rfl (hb.isOpen_iff.mpr hholds)
      (iff_of_true (.inl (hsound.inBundle_of_process hunderway)) ⟨rfl, .inl hholds⟩)
  | drainResults =>
    refine hb.quiet rfl ?_
    rw [holdsBundle_iff_of_underway hunderway (by simp), holdsBundle_iff_of_none hanswered]
    rfl
  | _ =>
    refine hb.notes rfl trivial ?_
    rw [holdsBundle_iff_of_underway hunderway (by simp), holdsBundle_iff_of_none hanswered]
    simp [Entry.isFinished, Entry.isStarted, step, answer]

theorem brackets (hlawful : Lawful h) (hwell : FinishesWell h) : Brackets h := by
  induction h using List.reverseRecOn with
  | nil => exact ⟨.nil, by simp [entries, Journal.isOpen, Journal.since, after, HoldsBundle]⟩
  | append_singleton h e ih =>
    obtain ⟨hbefore, hpermits⟩ := hlawful.of_snoc
    have hb := ih hbefore hwell.of_snoc
    cases e with
    | issued | replied => exact hb.quiet rfl .rfl
    | asked i op => exact hb.asks hbefore.sound i hpermits
    | answered i op a =>
      cases a with
      | ok results => exact hb.succeeds hbefore.sound hpermits results
      | error f =>
        refine hb.fails hpermits ?_
        rintro rfl
        cases hwell (.answered i .finishBundle (.error f)) (by simp)

theorem entries_failed (i : Nat) (op : Operation α α) (f : Failure) :
    entries [Event.answered i op (op.outcome (.error f))] = [] := by
  cases op <;> rfl

theorem entries_of_unanswered (hnone : ∀ e ∈ h, ∀ i op a, e ≠ .answered i op a) :
    entries h = [] := by
  refine List.filterMap_eq_nil_iff.mpr fun e he ↦ ?_
  cases e with
  | answered i op a => exact absurd rfl (hnone _ he i op a)
  | _ => rfl

end History

namespace Recorder

variable {α : Type} {r r' : Recorder α}

open History

theorem journal_send {channel : Channel α} {m : Message α} {a : Except Failure (List α)}
    (h : r.send channel m = some (a, r')) : r'.journal = r.journal := by
  unfold send at h
  split at h <;> cases h <;> rfl

theorem journal_record {op : Operation α α} {a : Except Failure (List α)}
    (h : r.record op = (a, r')) (i : Nat) :
    r'.journal = r.journal ++ entries [Event.answered i op (op.outcome a)] := by
  unfold record at h
  split at h <;> cases h
  · rw [entries_failed, List.append_nil]
  · cases op <;> simp [carryOut, note, entries, entryOf, Operation.entryOf, Operation.outcome]

/-- Every answer that tells of bundles is in the journal, wherever results go. -/
theorem journal_perform {op : Operation α α} {a : Except Failure (List α)}
    (h : r.perform op = some (a, r')) (i : Nat) :
    r'.journal.filter Entry.isOfBundle =
      (r.journal ++ entries [Event.answered i op (op.outcome a)]).filter Entry.isOfBundle := by
  cases hchannel : r.channel with
  | none =>
    simp only [perform, hchannel, Option.some.injEq] at h
    rw [journal_record h i]
  | some channel =>
    cases op with
    | emit | forward =>
      simp only [perform, hchannel] at h
      rw [journal_send h, List.filter_append]
      cases a <;> exact (List.append_nil _).symm
    | _ =>
      simp only [perform, hchannel, Option.some.injEq] at h
      rw [journal_record h i]

end Recorder

namespace Rig

variable {α : Type}

open History

theorem journal_step (r : Rig α) (m : Move α) :
    (r.step m).recorder.journal.filter Entry.isOfBundle =
      (r.recorder.journal ++ entries (r.events m)).filter Entry.isOfBundle := by
  rcases r.events_cases m with ⟨hnone, hsame⟩ | ⟨i, op, fault, a, rest, hanswer, hevents, hrest⟩
  · rw [hsame, entries_of_unanswered hnone, List.append_nil]
  · have hentries : entries (r.events m) = entries [Event.answered i op (op.outcome a)] := by
      rw [hevents, ← List.singleton_append, entries_append, entries_of_unanswered hrest,
        List.append_nil]
    rw [hentries]
    cases fault with
    | none => exact Recorder.journal_perform hanswer i
    | some f =>
      obtain ⟨rfl, hsame⟩ := Prod.mk.inj (Option.some.inj hanswer)
      rw [← hsame, entries_failed, List.append_nil]

/-- What the journal of a run tells of bundles is what its history does. -/
theorem journal_run (r : Rig α) (moves : List (Move α)) :
    (r.run moves).recorder.journal.filter Entry.isOfBundle =
      (r.recorder.journal ++ entries (r.trace moves)).filter Entry.isOfBundle := by
  induction moves generalizing r with
  | nil => exact congrArg _ (List.append_nil _).symm
  | cons m moves ih =>
    change ((r.step m).run moves).recorder.journal.filter Entry.isOfBundle =
      (r.recorder.journal ++ entries (r.events m ++ (r.step m).trace moves)).filter Entry.isOfBundle
    rw [ih, List.filter_append, journal_step, entries_append, ← List.filter_append,
      List.append_assoc]

/-- While no finish fails, the finished bundles and the items since the last finish are all that has
been processed, whatever recorder keeps the journal and wherever its results go. -/
theorem flatten_bundles_run (id : String) (checked : Checked) (timer : Timer)
    {recorder : Recorder α} (hblank : recorder.journal = []) {moves : List (Move α)}
    (hwell : FinishesWell ((⟨.created id checked timer, recorder⟩ : Rig α).trace moves)) :
    let journal := ((⟨.created id checked timer, recorder⟩ : Rig α).run moves).recorder.journal
    journal.bundles.flatten ++ (journal.since Entry.isFinished).processed = journal.processed := by
  intro journal
  have hreaches := reaches_run (r := ⟨.created id checked timer, recorder⟩)
    (World.orderly_created id checked timer) moves
  have hbracketed := (brackets hreaches.conducts.conduct.lawful hwell).bracketed
  -- the journal and the history agree in the entries that tell of bundles, and no others count
  have hfilter := journal_run ⟨.created id checked timer, recorder⟩ moves
  rw [hblank, List.nil_append] at hfilter
  have hbundles := congrArg Journal.bundles hfilter
  have hprocessed := congrArg Journal.processed hfilter
  have hsince := congrArg (fun j ↦ Journal.processed (Journal.since Entry.isFinished j)) hfilter
  have hfinish : ∀ e : Entry α, e.isFinished = true → e.isOfBundle = true := by
    intro e he
    cases e <;> first | rfl | cases he
  simp only [Journal.bundles_filter] at hbundles
  simp only [Journal.processed_filter] at hprocessed
  simp only [Journal.since_filter hfinish, Journal.processed_filter] at hsince
  rw [hbundles, hsince, hprocessed]
  exact hbracketed.flatten

end Rig

namespace Journal

variable {α : Type}

/-- A journal is read apart from what follows it where no bundle is open; there is one bundle for
each finish with a start since the finish before, with the items behind the start; and entries that
are no starts, items or finishes do not count. Of a run in which no finish fails, the bundles and
the items since the last finish are all items that have been processed, in their order. -/
theorem bundles_read_faithfully :
    (∀ a b : Journal α, isOpen a = false → bundles (a ++ b) = bundles a ++ bundles b) ∧
      (∀ j : Journal α, (bundles j).length = (closings j).length ∧ bundles j = ended j) ∧
      (∀ j : Journal α, bundles (j.filter Entry.isOfBundle) = bundles j) ∧
      ∀ (id : String) (checked : Checked) (timer : Timer) (recorder : Recorder α)
        (moves : List (Rig.Move α)),
        let r : Rig α := ⟨.created id checked timer, recorder⟩
        let j := (r.run moves).recorder.journal
        recorder.journal = [] → (r.trace moves).FinishesWell →
          (bundles j).flatten ++ processed (j.since Entry.isFinished) = processed j :=
  ⟨fun _ b hopen ↦ bundles_append_of_not_isOpen hopen b,
    fun j ↦ ⟨length_bundles j, bundles_eq j⟩, bundles_filter,
    fun id checked timer _ _ hblank hwell ↦ Rig.flatten_bundles_run id checked timer hblank hwell⟩

/-- Every item becomes two results, which go into a channel. -/
def channelled : Rig Nat :=
  ⟨.created "plain" (Limits.check {}) { kind := .manual false, now := 0 },
    { copies := 2, channel := some { capacity := 8 } }⟩

/-- A bundle of two items, and another one that is not finished. -/
def secondOpen : List (Rig.Move Nat) :=
  [.issue .start, .proceed 0 none, .issue (.submit 1), .proceed 1 none, .proceed 1 none,
    .issue (.submit 2), .proceed 2 none, .issue .endInput, .proceed 3 none, .proceed 3 none,
    .proceed 3 none, .proceed 3 none, .proceed 3 none, .proceed 3 none, .issue (.submit 3),
    .proceed 4 none, .proceed 4 none]

theorem bundles_read_faithfully_channelled :
    (isOpen [.started, .processed 1, .finished, .processed 2] = false ∧
        bundles ([.started, .processed 1, .finished, .processed 2] ++
            [.started, .started, .processed 3, .finished]) =
          bundles [.started, .processed 1, .finished, .processed 2] ++
            bundles [.started, .started, .processed 3, .finished]) ∧
      (channelled.trace secondOpen).FinishesWell ∧
        (channelled.run secondOpen).recorder.journal = [.opened, .started, .processed 1,
          .processed 2, .finished, .started, .processed 3] ∧
        bundles (channelled.run secondOpen).recorder.journal = [[1, 2]] ∧
        (bundles (channelled.run secondOpen).recorder.journal).flatten ++
            processed (since Entry.isFinished (channelled.run secondOpen).recorder.journal) =
          processed (channelled.run secondOpen).recorder.journal := by
  have hopen : isOpen [.started, .processed 1, .finished, .processed 2] = false := by decide
  have hwell : (channelled.trace secondOpen).FinishesWell := by
    unfold History.FinishesWell
    decide
  obtain ⟨happend, -, -, hrun⟩ := bundles_read_faithfully (α := Nat)
  exact ⟨⟨hopen, happend _ _ hopen⟩, hwell, by decide, by decide,
    hrun "plain" (Limits.check {}) { kind := .manual false, now := 0 }
      { copies := 2, channel := some { capacity := 8 } } secondOpen rfl hwell⟩

end Journal

end Bundling
