import Bundling.Proofs.WatermarkOrder

/-!
Watermarks that go back, in runs with any failures. A close that fails leaves the watermark behind
its bundle in the slot, with the open flag down; later watermarks are then forwarded at once, and a
later close lets the older one go after them. `Regresses` says that this has happened. If watermarks
are brought in order, they are forwarded in order exactly where it has not.
-/

set_option autoImplicit false
set_option relaxedAutoImplicit false

namespace Bundling

namespace Watermark

theorem le_trans {u v w : Watermark} (huv : u ≤ v) (hvw : v ≤ w) : u ≤ w :=
  Int.le_trans huv hvw

theorem pairwise_le_snoc {us : List Watermark} {w : Watermark} (hus : us.Pairwise (· ≤ ·))
    (hw : ∀ u ∈ us, u ≤ w) : (us ++ [w]).Pairwise (· ≤ ·) := by
  rw [List.pairwise_append]
  refine ⟨hus, List.pairwise_singleton _ _, fun u hu v hv ↦ ?_⟩
  rw [List.mem_singleton.mp hv]
  exact hw u hu

end Watermark

namespace History

variable {α : Type} {h : History α α} {v : Watermark}

/-- The failures that end a close before all its results are out. -/
def Breaks : Event α α → Prop
  | .answered _ .finishBundle (.error _) => True
  | .answered _ .drainResults (.error _) => True
  | .answered _ (.emit _) (.error _) => True
  | _ => False

/-- No greater watermark has been accepted. -/
def Tops (h : History α α) (w : Watermark) : Prop := ∀ u ∈ (accepted h).map Prod.snd, u ≤ w

/-- A close has failed after this watermark was accepted behind a bundle. -/
def LeftBehind (h : History α α) (v : Watermark) : Prop :=
  ∃ past e rest, h = past ++ e :: rest ∧ Breaks e ∧ ∃ n, ⟨v, some n⟩ ∈ (Ledger.after past).accepted

/-- After that, a greater watermark has been forwarded. -/
def Overtaken (h : History α α) (v : Watermark) : Prop :=
  ∃ past i w results rest, h = past ++ Event.answered i (.forward w) (.ok results) :: rest ∧
    LeftBehind past v ∧ ¬ w ≤ v

/-- A watermark that a failed close has left behind has been forwarded after a greater one. -/
def Regresses (h : History α α) : Prop :=
  ∃ past i v results rest, h = past ++ Event.answered i (.forward v) (.ok results) :: rest ∧
    Overtaken past v

theorem LeftBehind.append (hleft : LeftBehind h v) (new : History α α) :
    LeftBehind (h ++ new) v := by
  obtain ⟨past, e, rest, rfl, hbreaks, hplaced⟩ := hleft
  exact ⟨past, e, rest ++ new, by simp, hbreaks, hplaced⟩

theorem Overtaken.append (hovertaken : Overtaken h v) (new : History α α) :
    Overtaken (h ++ new) v := by
  obtain ⟨past, i, w, results, rest, rfl, hleft, hlt⟩ := hovertaken
  exact ⟨past, i, w, results, rest ++ new, by simp, hleft, hlt⟩

theorem Regresses.append (hregresses : Regresses h) (new : History α α) :
    Regresses (h ++ new) := by
  obtain ⟨past, i, v, results, rest, rfl, hovertaken⟩ := hregresses
  exact ⟨past, i, v, results, rest ++ new, by simp, hovertaken⟩

theorem watermarks_append (h new : History α α) :
    (entries (h ++ new)).watermarks = (entries h).watermarks ++ (entries new).watermarks := by
  rw [entries_append, Journal.watermarks, List.filterMap_append]
  rfl

theorem watermarks_forwarded (i : Nat) (w : Watermark) (results : List α) (rest : History α α) :
    (entries (.answered i (.forward w) (.ok results) :: rest)).watermarks =
      w :: (entries rest).watermarks := rfl

/-- Where a watermark goes back, the order of those forwarded is broken. -/
theorem Regresses.not_pairwise (hregresses : Regresses h) :
    ¬ (entries h).watermarks.Pairwise (· ≤ ·) := by
  obtain ⟨past, i, v, results, rest, rfl, before, j, w, results', between, rfl, -, hlt⟩ :=
    hregresses
  intro hsorted
  rw [watermarks_append, List.pairwise_append] at hsorted
  refine hlt (hsorted.2.2 w ?_ v ?_)
  · rw [watermarks_append, watermarks_forwarded]
    simp
  · rw [watermarks_forwarded]
    simp

end History

open History

/-- The watermarks forwarded so far against the one that is held and the one that a close is letting
go; `closing` says that a close has not got its results out yet. -/
structure Trail {α : Type} (h : History α α) (held outgoing : Option Watermark)
    (closing : Bool) : Prop where
  sorted : Regresses h ∨ (entries h).watermarks.Pairwise (· ≤ ·)
  behind : ∀ v, held = some v ∨ outgoing = some v →
    (∀ u ∈ (entries h).watermarks, u ≤ v) ∨ Overtaken h v
  known : ∀ v, v ∈ (entries h).watermarks ∨ held = some v ∨ outgoing = some v →
    v ∈ (accepted h).map Prod.snd
  placed : ∀ v, held = some v → ∃ n, ⟨v, some n⟩ ∈ (Ledger.after h).accepted
  stale : ∀ v, held = some v →
    (Ledger.after h).inBundle = true ∨ closing = true ∨ LeftBehind h v
  alone : outgoing ≠ none → held = none

namespace Trail

variable {α : Type} {h : History α α} {held outgoing : Option Watermark} {closing : Bool}
  {v w : Watermark} {i : Nat} {e : Event α α}

theorem accepted_subset_step (l : Ledger) (e : Event α α) : l.accepted ⊆ (l.step e).accepted := by
  unfold Ledger.step
  split <;> simp

/-- An event that forwards nothing leaves everything in its order. -/
theorem snoc (ht : Trail h held outgoing closing)
    (hmark : (entryOf e).bind Journal.forwardedWatermark? = none) {closing' : Bool}
    (hbundle : (Ledger.after h).inBundle = true →
      (Ledger.after (h ++ [e])).inBundle = true ∨ closing' = true)
    (hclosing : closing = true → closing' = true ∨ Breaks e) :
    Trail (h ++ [e]) held outgoing closing' := by
  have hsame : (entries (h ++ [e])).watermarks = (entries h).watermarks := by
    rw [Books.watermarks_snoc, hmark, Option.toList_none, List.append_nil]
  have hplaced : ∀ v, held = some v → ∃ n, ⟨v, some n⟩ ∈ (Ledger.after (h ++ [e])).accepted := by
    intro v hv
    obtain ⟨n, hn⟩ := ht.placed v hv
    rw [Ledger.after_snoc]
    exact ⟨n, accepted_subset_step _ e hn⟩
  refine ⟨?_, fun v hv ↦ ?_, fun v hv ↦ ?_, hplaced, fun v hv ↦ ?_, ht.alone⟩
  · rw [hsame]
    exact ht.sorted.imp_left (·.append [e])
  · rw [hsame]
    exact (ht.behind v hv).imp_right (·.append [e])
  · rw [hsame] at hv
    rw [accepted_append, List.map_append]
    exact List.mem_append_left _ (ht.known v hv)
  · rcases ht.stale v hv with hin | hclosing' | hleft
    · exact (hbundle hin).imp_right .inl
    · rcases hclosing hclosing' with hstill | hbreaks
      · exact .inr (.inl hstill)
      · exact .inr (.inr ⟨h, e, [], rfl, hbreaks, ht.placed v hv⟩)
    · exact .inr (.inr (hleft.append [e]))

theorem quiet (ht : Trail h held outgoing closing) {new : History α α}
    (hnew : ∀ e ∈ new, Books.Quiet e) : Trail (h ++ new) held outgoing closing := by
  induction new generalizing h with
  | nil => simpa using ht
  | cons e new ih =>
    rw [List.append_cons]
    obtain ⟨hstep, hmark⟩ := hnew e List.mem_cons_self
    refine ih (ht.snoc hmark (fun hin ↦ .inl ?_) .inl) fun e' he' ↦
      hnew e' (List.mem_cons_of_mem e he')
    rw [Ledger.after_snoc, hstep]
    exact hin

theorem starts (ht : Trail h held outgoing closing) (results : List α) :
    Trail (h ++ [Event.answered i .startBundle (.ok results)]) held outgoing closing := by
  refine ht.snoc rfl (fun _ ↦ .inl ?_) .inl
  rw [Ledger.after_snoc]
  rfl

theorem closes (ht : Trail h held outgoing closing) :
    Trail (h ++ [Event.asked i .finishBundle]) held outgoing true :=
  ht.snoc rfl (fun _ ↦ .inr rfl) fun _ ↦ .inl rfl

/-- A failure ends a close; what is held has been left behind. -/
theorem breaks (ht : Trail h held outgoing closing) (he : Breaks e) :
    Trail (h ++ [e]) held outgoing false := by
  have hquiet : ∀ l : Ledger, l.step e = l := by
    unfold Breaks at he
    split at he <;> first | exact fun _ ↦ rfl | cases he
  refine ht.snoc ?_ (fun hin ↦ .inl ?_) fun _ ↦ .inr he
  · unfold Breaks at he
    split at he <;> first | rfl | cases he
  · rw [Ledger.after_snoc, hquiet]
    exact hin

/-- A watermark takes its place in the slot. -/
theorem holds (ht : Trail h held none closing) (hbundle : (Ledger.after h).inBundle = true)
    (htops : Tops h w) :
    Trail (h ++ [Event.replied i (.watermark w) .done]) (some w) none false := by
  have hsame : (entries (h ++ [Event.replied i (.watermark w) .done])).watermarks =
      (entries h).watermarks := by
    rw [Books.watermarks_snoc]
    simp [entryOf]
  have haccepted : accepted (h ++ [Event.replied i (.watermark w) .done]) =
      accepted h ++ [(i, w)] := accepted_append h _
  refine ⟨?_, fun v hv ↦ .inl fun u hu ↦ ?_, fun v hv ↦ ?_, fun v hv ↦ ?_, fun v hv ↦ .inl ?_,
    fun hnone ↦ absurd rfl hnone⟩
  · rw [hsame]
    exact ht.sorted.imp_left (·.append _)
  · rw [hsame] at hu
    have hv : w = v := by simpa using hv
    rw [← hv]
    exact htops u (ht.known u (.inl hu))
  · rw [hsame] at hv
    rw [haccepted, List.map_append, List.mem_append]
    rcases hv with hv | hv | hv
    · exact .inl (ht.known v (.inl hv))
    · cases hv
      exact .inr (by simp)
    · cases hv
  · cases hv
    rw [Ledger.after_snoc]
    exact ⟨(Ledger.after h).started, by simp [Ledger.step, hbundle]⟩
  · rw [Ledger.after_snoc]
    exact hbundle

/-- The held watermark leaves the slot once all results of its close are out. -/
theorem lets (ht : Trail h (some w) none closing) : Trail h none (some w) false where
  sorted := ht.sorted
  behind := fun v hv ↦ ht.behind v (.inl (by simpa using hv))
  known := fun v hv ↦ ht.known v (by simpa using hv)
  placed := fun v hv ↦ by cases hv
  stale := fun v hv ↦ by cases hv
  alone := fun _ ↦ rfl

theorem empty (ht : Trail h none outgoing closing) (closing' : Bool) :
    Trail h none none closing' where
  sorted := ht.sorted
  behind := fun v hv ↦ by simp at hv
  known := fun v hv ↦ ht.known v (.inl (by simpa using hv))
  placed := fun v hv ↦ by cases hv
  stale := fun v hv ↦ by cases hv
  alone := fun _ ↦ rfl

/-- A watermark that a close lets go comes after all that were forwarded, or has been overtaken. -/
theorem released (ht : Trail h none (some v) closing) (results : List α) :
    Trail (h ++ [Event.answered i (.forward v) (.ok results)]) none none closing := by
  have hmore : (entries (h ++ [Event.answered i (.forward v) (.ok results)])).watermarks =
      (entries h).watermarks ++ [v] := watermarks_append h _
  refine ⟨?_, fun u hu ↦ by simp at hu, fun u hu ↦ ?_, fun u hu ↦ (by cases hu),
    fun u hu ↦ (by cases hu), fun hnone ↦ absurd rfl hnone⟩
  · rcases ht.sorted with hregresses | hsorted
    · exact .inl (hregresses.append _)
    · rcases ht.behind v (.inr rfl) with hlast | hovertaken
      · right
        rw [hmore]
        exact Watermark.pairwise_le_snoc hsorted hlast
      · exact .inl ⟨h, i, v, results, [], rfl, hovertaken⟩
  · rw [accepted_append, List.map_append]
    refine List.mem_append_left _ (ht.known u ?_)
    rw [hmore] at hu
    simpa [or_comm, eq_comm] using hu

/-- A watermark that its own call forwards comes after all that were accepted. One that is held with
no bundle in progress has been left behind, and is overtaken if it is smaller. -/
theorem forwards (ht : Trail h held none false) (hbundle : (Ledger.after h).inBundle = false)
    (htops : Tops h w) (results : List α) :
    Trail (h ++ [Event.answered i (.forward w) (.ok results)] ++
      [Event.replied i (.watermark w) .done]) held none false := by
  have hsplit : h ++ [Event.answered i (.forward w) (.ok results)] ++
      [Event.replied i (.watermark w) .done] =
        h ++ [Event.answered i (.forward w) (.ok results), .replied i (.watermark w) .done] := by
    simp
  rw [hsplit]
  have hmore : (entries (h ++ [Event.answered i (.forward w) (.ok results),
      .replied i (.watermark w) .done])).watermarks = (entries h).watermarks ++ [w] :=
    watermarks_append h _
  have haccepted : accepted (h ++ [Event.answered i (.forward w) (.ok results),
      .replied i (.watermark w) .done]) = accepted h ++ [(i, w)] := accepted_append h _
  have hledger : Ledger.after (h ++ [Event.answered i (.forward w) (.ok results),
      .replied i (.watermark w) .done]) =
        { Ledger.after h with accepted := (Ledger.after h).accepted ++ [⟨w, none⟩] } := by
    rw [← hsplit, Ledger.after_snoc, Ledger.after_snoc]
    simp [Ledger.step, hbundle]
  have hleft : ∀ v, held = some v → LeftBehind h v := by
    intro v hv
    rcases ht.stale v hv with hin | hclosing | hleft
    · exact absurd (hbundle.symm.trans hin) (by simp)
    · cases hclosing
    · exact hleft
  refine ⟨?_, fun v hv ↦ ?_, fun v hv ↦ ?_, fun v hv ↦ ?_, fun v hv ↦ ?_, ht.alone⟩
  · rcases ht.sorted with hregresses | hsorted
    · exact .inl (hregresses.append _)
    · right
      rw [hmore]
      exact Watermark.pairwise_le_snoc hsorted fun u hu ↦ htops u (ht.known u (.inl hu))
  · have hheld : held = some v := by simpa using hv
    by_cases hle : w ≤ v
    · left
      intro u hu
      rw [hmore, List.mem_append, List.mem_singleton] at hu
      rcases hu with hu | rfl
      · exact Watermark.le_trans (htops u (ht.known u (.inl hu))) hle
      · exact hle
    · exact .inr ⟨h, i, w, results, _, rfl, hleft v hheld, hle⟩
  · rw [hmore, List.mem_append, List.mem_singleton] at hv
    rw [haccepted, List.map_append, List.mem_append]
    rcases hv with (hv | rfl) | hv
    · exact .inl (ht.known v (.inl hv))
    · exact .inr (by simp)
    · exact .inl (ht.known v (.inr hv))
  · obtain ⟨n, hn⟩ := ht.placed v hv
    rw [hledger]
    exact ⟨n, List.mem_append_left _ hn⟩
  · exact .inr (.inr ((hleft v hv).append _))

end Trail

namespace Coordinator

variable {α : Type} {c : Coordinator} {i : Nat} {q : Request α} {s : Stage α α} {h : History α α}

/-- The trail that a coordinator and the call that acts are on. -/
def Trails (c : Coordinator) (s : Stage α α) (h : History α α) : Prop :=
  Trail h c.slot.held s.outgoing s.closes

theorem trails_of_rest (hs : s.operation? = none) (ht : Trail h c.slot.held none false)
    (hquiet : ∀ r, s = .ended r → (∀ w, q ≠ .watermark w) ∨ r ≠ .done) :
    Trails c s (h ++ Event.reached i q s) := by
  unfold Trails
  rw [Stage.outgoing_eq_none hs, Stage.closes_eq_false hs]
  refine ht.quiet fun e he ↦ ?_
  cases s with
  | ended r =>
    rw [List.mem_singleton.mp he]
    exact Books.quiet_replied (hquiet r rfl)
  | queued | queuedToRelease => cases he
  | _ => cases hs

theorem trails_of_asked {op : Operation α α} (hop : op ≠ .finishBundle) (ht : Trails c s h) :
    Trails c s (h ++ [Event.asked i op]) := by
  refine Trail.quiet ht fun e he ↦ ?_
  rw [List.mem_singleton.mp he]
  exact Books.quiet_asked hop

theorem Departure.trails {f : Option Failure} {out : Coordinator × Stage α α}
    (hout : Departure i f c out) (hstop : q = .stop) (ht : Trail h c.slot.held none false) :
    Trails out.1 out.2 (h ++ Event.reached i q out.2) := by
  have hquiet : ∀ w, q ≠ .watermark w := by simp [hstop]
  have hslot : (c.ceased.inLine i).slot = c.slot := ceased_slot c
  have hceased : Trail h (c.ceased.inLine i).slot.held none false := by
    rw [hslot]
    exact ht
  cases hout with
  | already => exact trails_of_rest rfl ht fun _ _ ↦ .inl hquiet
  | waits => exact trails_of_rest rfl hceased fun _ _ ↦ .inl hquiet
  | takes => exact trails_of_asked (s := .closingUnit (c.releaseOf f)) (by simp) hceased
  | settles => exact trails_of_rest rfl ht fun _ _ ↦ .inl hquiet

theorem Parting.trails {result : Except Failure Bool} {out : Coordinator × Stage α α}
    (hout : Parting i q c result out) (ht : Trail h c.slot.held none false) :
    Trails out.1 out.2 (h ++ Event.reached i q out.2) := by
  cases hout with
  | forwards w => exact trails_of_asked (s := .forwarding w) (by simp) ht
  | answers _ _ _ hquiet => exact trails_of_rest rfl ht fun _ _ ↦ .inl hquiet
  | fails => exact trails_of_rest rfl ht fun r hr ↦ .inr (by cases hr; simp)
  | latches _ _ hq => exact trails_of_rest rfl ht fun _ _ ↦ .inl (by simp [hq])
  | departs _ _ _ _ hq _ hdeparts => exact hdeparts.trails hq ht

theorem Emission.trails {close : Close} {total : Nat} {results : List α}
    {out : Coordinator × Stage α α} (hout : Emission i q c close total results out)
    (ht : Trail h c.slot.held none true) :
    Trails out.1 out.2 (h ++ Event.reached i q out.2) := by
  cases hout with
  | more r rest => exact trails_of_asked (s := .emitting close r rest total) (by simp) ht
  | lets w hheld =>
    rw [hheld] at ht
    exact trails_of_asked (c := c.settled close total) (s := .releasing close w) (by simp) ht.lets
  | last _ hheld hparts =>
    rw [hheld] at ht
    exact hparts.trails (ht.empty false)

/-- A turn that starts when the lock is granted. -/
theorem Turn.trails_of_grant {a : Except Failure (List α)} {out : Coordinator × Stage α α}
    (hout : Turn i q c s a out) (hs : s.operation? = none) (hsuits : Suits q s)
    (hconduct : Conduct c none [] h)
    (htops : ∀ w, q = .watermark w → Tops h w)
    (ht : Trail h c.slot.held none false) :
    Trails out.1 out.2 (h ++ Event.reached i q out.2) := by
  cases hout with
  | refused => exact trails_of_rest rfl ht fun r hr ↦ .inr (by cases hr; simp)
  | passes _ hq => exact trails_of_rest rfl ht fun _ _ ↦ .inl (by simp [hq])
  | opens => exact trails_of_asked (s := .opening) (by simp) ht
  | continues _ x => exact trails_of_asked (s := .processing x) (by simp) ht
  | starts _ x =>
    exact trails_of_asked (c := { c with slot := c.slot.tryOpen.2 }) (s := .starting x) (by simp) ht
  | holds _ w hq hadmitted _ hopen =>
    have hbundle : (Ledger.after h).inBundle = true := by
      subst hq
      rw [inBundle_after, hconduct.bundle hadmitted.2.2]
      simpa using hopen
    have hw := htops w hq
    subst hq
    exact ht.holds hbundle hw
  | forwards _ w => exact trails_of_asked (s := .forwarding w) (by simp) ht
  | closes => exact ht.closes
  | idles _ _ _ _ _ _ hparts => exact hparts.trails ht
  | takesUnit _ r => exact trails_of_asked (s := .closingUnit r) (by simp) ht
  | findsNoUnit => exact trails_of_rest rfl ht fun _ _ ↦ .inl (hsuits.ne_watermark rfl)
  | _ => cases hs

/-- A turn that starts with a collaborator's success. -/
theorem Turn.trails_of_success {results : List α} {out : Coordinator × Stage α α}
    (hout : Turn i q c s (.ok results) out) (hs : s.operation?.isSome = true) (hsuits : Suits q s)
    (hconducts : Conducts c i s h)
    (htops : ∀ w, q = .watermark w → Tops h w)
    (ht : Trails c s h) :
    Trails out.1 out.2 ((h ++ Event.left i s (.ok results)) ++ Event.reached i q out.2) := by
  obtain ⟨hconduct, hfits⟩ := hconducts
  -- an answer that is neither the start of a bundle nor a watermark's leaves the trail alone
  have hanswered (op : Operation α α) (results : List α) (hstart : op ≠ .startBundle)
      (hforward : ∀ w, op ≠ .forward w) :
      Trail (h ++ [Event.answered i op (.ok results)]) c.slot.held s.outgoing s.closes := by
    refine Trail.quiet ht fun e he ↦ ?_
    rw [List.mem_singleton.mp he]
    exact Books.quiet_answered hstart hforward results
  have hmark {x : α} (hq : q = .submit x) : ∀ w, q ≠ .watermark w := by simp [hq]
  cases hout with
  | schedulesNot =>
    exact trails_of_rest rfl (hanswered _ [] (by simp) (by simp)) fun r hr ↦
      .inr (by cases hr; simp)
  | runs =>
    have hq : q = .start := hsuits
    exact trails_of_rest rfl (hanswered _ [] (by simp) (by simp)) fun _ _ ↦ .inl (by simp [hq])
  | started x => exact trails_of_asked (s := .processing x) (by simp) (Trail.starts ht [])
  | accepts =>
    exact trails_of_rest rfl (hanswered _ [] (by simp) (by simp)) fun _ _ ↦ .inl (hmark hsuits)
  | fills x => exact (hanswered (.process x) [] (by simp) (by simp)).closes
  | fillsNone x _ _ _ _ hparts => exact hparts.trails (hanswered _ [] (by simp) (by simp))
  | finished close =>
    exact trails_of_asked (s := .draining close) (by simp) (hanswered _ [] (by simp) (by simp))
  | drained _ _ _ hemission => exact hemission.trails (hanswered _ results (by simp) (by simp))
  | emitted _ r _ _ _ _ hemission =>
    exact hemission.trails (hanswered (.emit r) [] (by simp) (by simp))
  | released close w _ _ hparts =>
    have hheld : c.slot.held = none := Trail.alone ht (by simp [Stage.outgoing])
    unfold Trails at ht
    rw [hheld] at ht
    refine hparts.trails ?_
    change Trail _ c.slot.held none false
    rw [hheld]
    exact ht.released []
  | forwarded w =>
    have hw := htops w hsuits
    have hq : q = .watermark w := hsuits
    subst hq
    exact Trail.forwards ht (inBundle_eq_false hconduct hfits.1 hfits.2.2) hw []
  | settles r _ notices reply =>
    exact trails_of_rest rfl (hanswered _ [] (by simp) (by simp)) fun _ _ ↦
      .inl (hsuits.ne_watermark rfl)
  | _ => cases hs

/-- A turn that starts with a collaborator's failure. -/
theorem Turn.trails_of_failure {f : Failure} {out : Coordinator × Stage α α}
    (hout : Turn i q c s (.error f) out) (hs : s.operation?.isSome = true) (hsuits : Suits q s)
    (ht : Trails c s h) :
    Trails out.1 out.2 ((h ++ Event.left i s (.error f)) ++ Event.reached i q out.2) := by
  have hfailed (op : Operation α α) :
      Trail (h ++ [Event.answered i op (.error f)]) c.slot.held s.outgoing s.closes := by
    refine Trail.quiet ht fun e he ↦ ?_
    rw [List.mem_singleton.mp he]
    exact ⟨fun l ↦ by cases op <;> rfl, rfl⟩
  have hreply (r : Reply) (g : Failure) (hr : (.ended (.failed g) : Stage α α) = .ended r) :
      (∀ w, q ≠ .watermark w) ∨ r ≠ .done := .inr (by cases hr; simp)
  cases hout with
  | opensNot => exact trails_of_rest rfl (hfailed .openUnit) fun r ↦ hreply r _
  | startsNot => exact trails_of_rest rfl (hfailed .startBundle) fun r ↦ hreply r _
  | processesNot x => exact trails_of_rest rfl (hfailed (.process x)) fun r ↦ hreply r _
  | finishesNot _ _ _ hparts => exact hparts.trails (Trail.breaks ht trivial)
  | drainsNot _ _ _ hparts => exact hparts.trails (Trail.breaks ht trivial)
  | emitsNot _ _ _ _ _ _ hparts => exact hparts.trails (Trail.breaks ht trivial)
  | releasesNot _ w _ _ hparts =>
    have hheld : c.slot.held = none := Trail.alone ht (by simp [Stage.outgoing])
    have hfailed := hfailed (.forward w)
    rw [hheld] at hfailed
    refine hparts.trails ?_
    rw [hheld]
    exact hfailed.empty false
  | forwardsNot w => exact trails_of_rest rfl (hfailed (.forward w)) fun r ↦ hreply r _
  | settles =>
    exact trails_of_rest rfl (hfailed .closeUnit) fun _ _ ↦ .inl (hsuits.ne_watermark rfl)
  | _ => cases hs

theorem Turn.trails {a : Except Failure (List α)} {out : Coordinator × Stage α α}
    (hout : Turn i q c s a out) (hsuits : Suits q s) (hconducts : Conducts c i s h)
    (htops : ∀ w, q = .watermark w → Tops h w)
    (ht : Trails c s h) :
    Trails out.1 out.2 (h ++ (Event.left i s a ++ Event.reached i q out.2)) := by
  rw [← List.append_assoc]
  cases hs : s.operation? with
  | some op =>
    cases a with
    | ok results => exact hout.trails_of_success (by rw [hs]; rfl) hsuits hconducts htops ht
    | error f => exact hout.trails_of_failure (by rw [hs]; rfl) hsuits ht
  | none =>
    have hconduct := hconducts.conduct
    rw [hs, Stage.due_eq_nil hs] at hconduct
    unfold Trails at ht
    rw [Stage.outgoing_eq_none hs, Stage.closes_eq_false hs] at ht
    rw [Event.left_eq_nil hs, List.append_nil]
    exact hout.trails_of_grant hs hsuits hconduct htops ht

/-- What other calls do while a call waits moves no watermark. -/
theorem Trails.of_eq {d : Coordinator} (ht : Trails c s h) (hslot : d.slot = c.slot)
    {new : History α α} (hnew : ∀ e ∈ new, Books.Quiet e) : Trails d s (h ++ new) := by
  unfold Trails
  rw [hslot]
  exact Trail.quiet ht hnew

end Coordinator

namespace World

variable {α : Type}

/-- Where watermarks are brought in order, one whose call has not ended is not behind any that has
been accepted. -/
theorem Reaches.tops {id : String} {checked : Checked} {timer : Timer} {w : World α α}
    {t : History α α} (h : Reaches (created id checked timer) w t)
    (hsorted : (offered t).Pairwise (· ≤ ·)) {call : Call α α} (hcall : call ∈ w.calls)
    {v : Watermark} (hq : call.request = .watermark v) (hreply : call.stage.reply? = none) :
    Tops t v := by
  have harrives := h.arrives
  have horderly := h.orderly (orderly_created id checked timer)
  intro u hu
  obtain ⟨p, hp, rfl⟩ := List.mem_map.mp hu
  obtain ⟨i, hi⟩ := List.mem_iff_getElem?.mp hcall
  have hstage := stage?_of_call hi
  have hlt := harrives.ahead p hp i _ hstage hreply
    (horderly.ingesting hi (by simp [hq]) (by simp [hq]) _ hstage)
  exact harrives.le_of_lt hsorted hlt (harrives.taken p hp) (by simp [requests, hi, hq])

theorem kept_trails :
    Kept (fun _ (call : Call α α) t ↦ Coordinator.Suits call.request call.stage ∧
        ((offered t).Pairwise (· ≤ ·) → ∀ v, call.request = .watermark v →
          call.stage.reply? = none → Tops t v))
      fun c i call t ↦
        c.Conducts i call.stage t ∧ ((offered t).Pairwise (· ≤ ·) → c.Trails call.stage t) where
  rest := by
    intro c i j call other t hcall hother ⟨hconducts, htrails⟩
    refine ⟨kept_conducts.rest hcall hother hconducts, fun hsorted ↦ ?_⟩
    have ht := htrails hsorted
    unfold Coordinator.Trails at ht ⊢
    rw [Stage.outgoing_eq_none hcall, Stage.closes_eq_false hcall] at ht
    rw [Stage.outgoing_eq_none hother, Stage.closes_eq_false hother]
    exact ht
  turns := by
    intro c i call answer out t hlock ⟨hsuits, htops⟩ hturn ⟨hconducts, htrails⟩
    refine ⟨hturn.conducts hconducts, fun hsorted ↦ ?_⟩
    rw [offered_append, List.pairwise_append] at hsorted
    exact hturn.trails hsuits hconducts
      (fun v hq ↦ htops hsorted.1 v hq hturn.reply?_eq_none) (htrails hsorted.1)
  joins := by
    intro c i n q d s call t hjoins ⟨hconducts, htrails⟩
    refine ⟨kept_conducts.joins hjoins hconducts, fun hsorted ↦ ?_⟩
    rw [offered_append, List.pairwise_append] at hsorted
    have hslot : (d.inLine n).slot = c.slot := hjoins.slot
    refine (htrails hsorted.1).of_eq hslot fun e he ↦ ?_
    rw [List.mem_singleton.mp he]
    exact ⟨fun l ↦ rfl, rfl⟩
  declines := by
    intro c i n q r call t hdeclines ⟨hconducts, htrails⟩
    refine ⟨kept_conducts.declines hdeclines hconducts, fun hsorted ↦ ?_⟩
    rw [offered_append, List.pairwise_append] at hsorted
    refine (htrails hsorted.1).of_eq rfl fun e he ↦ ?_
    rcases List.mem_cons.mp he with rfl | he
    · exact ⟨fun l ↦ rfl, rfl⟩
    · rw [List.mem_singleton.mp he]
      exact Books.quiet_replied hdeclines.watermark_or_done
  retimes := fun ⟨hconducts, htrails⟩ ↦ ⟨kept_conducts.retimes hconducts, htrails⟩

theorem Reaches.trails {id : String} {checked : Checked} {timer : Timer} {w : World α α}
    {t : History α α} (h : Reaches (created id checked timer) w t)
    (hsorted : (offered t).Pairwise (· ≤ ·)) : w.coordinator.Trails w.acting.2.stage t := by
  have hcreated := orderly_created (α := α) (β := α) id checked timer
  refine (kept_trails.reaches hcreated (fun hreaches call hcall ↦ ⟨?_, fun hbefore v ↦ ?_⟩)
    ⟨conducts_created id checked timer, fun _ ↦ ?_⟩ h).2 hsorted
  · exact (hreaches.orderly hcreated).suits call hcall
  · exact hreaches.tops hbefore hcall
  · exact ⟨.inr List.Pairwise.nil, fun v hv ↦ by simp [created, Coordinator.create, Slot.fresh,
      acting, Stage.outgoing] at hv, fun v hv ↦ by simp [created, Coordinator.create, Slot.fresh,
      acting, Stage.outgoing, entries, Journal.watermarks] at hv, fun v hv ↦ (by cases hv),
      fun v hv ↦ (by cases hv), fun _ ↦ rfl⟩

end World

namespace Rig

variable {α : Type}

/-- Of watermarks that are brought in order, the forwarded ones are in order too, unless one that a
failed close has left behind is let go after a greater one has been forwarded. -/
theorem sorted_watermarks_iff (id : String) (checked : Checked) (timer : Timer)
    (failing : List Target) (moves : List (Move α))
    (hsorted : (offered ((created id checked timer failing).trace moves)).Pairwise (· ≤ ·)) :
    ((created id checked timer failing).run moves).recorder.journal.watermarks.Pairwise (· ≤ ·) ↔
      ¬ Regresses ((created id checked timer failing).trace moves) := by
  rw [(records_run id checked timer failing moves).journal]
  constructor
  · exact fun hforwarded hregresses ↦ hregresses.not_pairwise hforwarded
  · intro hnot
    exact ((reaches id checked timer failing moves).trails hsorted).sorted.resolve_left hnot

/-- A watermark is held, its close fails, a greater one is forwarded, and the next close lets the
first one go. -/
def staleWatermark : List (Move Nat) :=
  [.issue .start, .proceed 0 none, .issue (.submit 1), .proceed 1 none, .proceed 1 none,
    .issue (.watermark ⟨5⟩), .issue .endInput, .proceed 3 (some (.unit "finish_bundle" "injected")),
    .issue (.watermark ⟨10⟩), .proceed 4 none, .issue (.submit 2), .proceed 5 none,
    .proceed 5 none, .issue .endInput, .proceed 6 none, .proceed 6 none, .proceed 6 none,
    .proceed 6 none, .proceed 6 none]

theorem regresses_staleWatermark :
    (offered (plain.trace staleWatermark)).Pairwise (· ≤ ·) ∧
      (plain.run staleWatermark).recorder.journal.watermarks = [⟨10⟩, ⟨5⟩] ∧
      Regresses (plain.trace staleWatermark) := by
  have hsorted : (offered (plain.trace staleWatermark)).Pairwise (· ≤ ·) := by
    change [(⟨5⟩ : Watermark), ⟨10⟩].Pairwise (· ≤ ·)
    decide
  have hiff := sorted_watermarks_iff "plain" (Limits.check {}) { kind := .manual false, now := 0 }
    [] staleWatermark hsorted
  refine ⟨hsorted, rfl, not_not.mp ((not_congr hiff).mp ?_)⟩
  change ¬ [(⟨10⟩ : Watermark), ⟨5⟩].Pairwise (· ≤ ·)
  decide

/-- Watermarks that are brought in order do go back. -/
theorem not_sorted_watermarks :
    ¬ ∀ moves : List (Move Nat), (offered (plain.trace moves)).Pairwise (· ≤ ·) →
      (plain.run moves).recorder.journal.watermarks.Pairwise (· ≤ ·) := by
  intro h
  have hforwarded := h staleWatermark (by
    change [(⟨5⟩ : Watermark), ⟨10⟩].Pairwise (· ≤ ·)
    decide)
  change [(⟨10⟩ : Watermark), ⟨5⟩].Pairwise (· ≤ ·) at hforwarded
  exact absurd hforwarded (by decide)

end Rig

end Bundling
