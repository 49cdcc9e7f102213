import Bundling.Proofs.Accounts

/-!
How many results the sink has taken, and how many of them the counter knows of. Results go out one
by one, but they are counted all at once when the last one is out. Those of a close that has failed
at a later result are never counted. `Takings` reads off the history what the sink has taken of the
bundle under way, and what it has taken of bundles whose close has failed.
-/

set_option autoImplicit false
set_option relaxedAutoImplicit false

namespace Bundling

/-- What the sink has taken of the results of a run. -/
structure Takings where
  /-- Of the bundle that has been drained last. -/
  recent : Nat := 0
  /-- Of all bundles whose close has failed at a later result. -/
  stray : Nat := 0

namespace Takings

open History

variable {α β : Type} {i : Nat} {q : Request α} {s : Stage α β} {a : Except Failure (List β)}

def step (n : Takings) : Event α β → Takings
  | .answered _ .drainResults _ => { n with recent := 0 }
  | .answered _ (.emit _) (.ok _) => { n with recent := n.recent + 1 }
  | .answered _ (.emit _) (.error _) => { n with recent := 0, stray := n.stray + n.recent }
  | _ => n

/-- The takings of a history. -/
def after (h : History α β) : Takings := h.foldl step {}

theorem after_append (h new : History α β) : after (h ++ new) = new.foldl step (after h) :=
  List.foldl_append

theorem after_snoc (h : History α β) (e : Event α β) : after (h ++ [e]) = (after h).step e :=
  after_append h [e]

/-- How often the sink has taken a result. -/
def taken (h : History α β) : Nat := successes (· matches .emit _) h

theorem taken_snoc (h : History α β) (e : Event α β) :
    taken (h ++ [e]) = taken h + taken [e] :=
  List.countP_append

/-- Every result that is stray has been taken. -/
theorem stray_add_recent_le (h : History α β) :
    (after h).stray + (after h).recent ≤ taken h := by
  induction h using List.reverseRecOn with
  | nil => exact Nat.le_refl 0
  | append_singleton h e ih =>
    rw [after_snoc, taken_snoc]
    cases e with
    | answered i op a =>
      cases op with
      | emit r => cases a <;> simp [step, taken, successes] at ih ⊢ <;> omega
      | drainResults => simp [step, taken, successes] at ih ⊢; omega
      | _ => exact Nat.le_trans ih (Nat.le_add_right _ _)
    | _ => exact Nat.le_trans ih (Nat.le_add_right _ _)

/-- The sink has turned down a result after it had taken another one of the same bundle. -/
def BreaksOff (h : History α β) : Prop :=
  ∃ past i r f rest, h = past ++ .answered i (.emit r) (.error f) :: rest ∧ 0 < (after past).recent

theorem breaksOff_snoc (h : History α β) (e : Event α β) :
    BreaksOff (h ++ [e]) ↔ BreaksOff h ∨
      (∃ i r f, e = .answered i (.emit r) (.error f)) ∧ 0 < (after h).recent := by
  constructor
  · rintro ⟨past, i, r, f, rest, heq, hpos⟩
    rcases List.eq_nil_or_concat rest with rfl | ⟨rest', last, rfl⟩
    · obtain ⟨rfl, hlast⟩ := List.append_inj' heq rfl
      exact .inr ⟨⟨i, r, f, (List.cons.inj hlast).1⟩, hpos⟩
    · have hsplit : h ++ [e] = (past ++ .answered i (.emit r) (.error f) :: rest') ++ [last] := by
        simpa using heq
      exact .inl ⟨past, i, r, f, rest', (List.append_inj' hsplit rfl).1, hpos⟩
  · rintro (⟨past, i, r, f, rest, rfl, hpos⟩ | ⟨⟨i, r, f, rfl⟩, hpos⟩)
    · exact ⟨past, i, r, f, rest ++ [e], by simp, hpos⟩
    · exact ⟨h, i, r, f, [], rfl, hpos⟩

/-- A result is stray if and only if a close has failed between two results. -/
theorem stray_pos_iff (h : History α β) : 0 < (after h).stray ↔ BreaksOff h := by
  induction h using List.reverseRecOn with
  | nil =>
    refine ⟨fun hpos ↦ absurd hpos (Nat.lt_irrefl 0), ?_⟩
    rintro ⟨past, i, r, f, rest, heq, -⟩
    simp at heq
  | append_singleton h e ih =>
    rw [after_snoc, breaksOff_snoc, ← ih]
    cases e with
    | answered i op a =>
      cases op with
      | emit r =>
        cases a with
        | ok results => simp [step]
        | error f =>
          have hstep : ((after h).step (.answered i (.emit r) (.error f) : Event α β)).stray =
              (after h).stray + (after h).recent := rfl
          rw [hstep, Nat.add_pos_iff_pos_or_pos]
          simp
      | _ => simp [step]
    | _ => simp [step]

end Takings

namespace Stage

variable {α β : Type}

/-- While results go out: how many are still to go, and how many there are. -/
def emission? : Stage α β → Option (Nat × Nat)
  | emitting _ _ rest total => some (rest.length + 1, total)
  | _ => none

theorem emission?_of_rest {s : Stage α β} (hs : s.operation? = none) : s.emission? = none := by
  cases s <;> first | rfl | cases hs

end Stage

namespace Coordinator

open History Takings

variable {α β : Type} {c d : Coordinator} {i : Nat} {q : Request α} {s : Stage α β}
  {a : Except Failure (List β)} {t new : History α β} {out : Coordinator × Stage α β}

/-- The counter knows of all results that are out, but for the stray ones. -/
def Settled (c : Coordinator) (t : History α β) : Prop :=
  c.tally.resultsEmitted + .ofNat (after t).stray = .ofNat (taken t)

/-- So it does while results go out, but for the stray ones and those of the present bundle. -/
def Reckons (c : Coordinator) (s : Stage α β) (t : History α β) : Prop :=
  match s.emission? with
  | none => Settled c t
  | some (left, total) =>
    c.tally.resultsEmitted + .ofNat ((after t).stray + (after t).recent) = .ofNat (taken t) ∧
      (after t).recent + left = total

theorem reckons_of_rest (hs : s.emission? = none) : Reckons c s t ↔ Settled c t := by
  unfold Reckons
  rw [hs]

/-- Only an answer can be that of a sink. -/
theorem takings_of_unanswered (hnew : ∀ e ∈ new, ∀ i op a, e ≠ .answered i op a) :
    after (t ++ new) = after t ∧ taken (t ++ new) = taken t := by
  induction new using List.reverseRecOn with
  | nil => simp
  | append_singleton new e ih =>
    obtain ⟨hafter, htaken⟩ := ih fun e he ↦ hnew e (List.mem_append_left _ he)
    have he := hnew e (by simp)
    rw [← List.append_assoc, after_snoc, taken_snoc, hafter, htaken]
    cases e with
    | answered i op a => exact absurd rfl (he i op a)
    | _ => exact ⟨rfl, rfl⟩

theorem Reckons.mono (h : Reckons c s t) (htally : d.tally = c.tally)
    (hnew : ∀ e ∈ new, ∀ i op a, e ≠ .answered i op a) : Reckons d s (t ++ new) := by
  obtain ⟨hafter, htaken⟩ := takings_of_unanswered (t := t) hnew
  unfold Reckons Settled at h ⊢
  rw [htally, hafter, htaken]
  exact h

theorem unanswered_reached : ∀ e ∈ Event.reached i q s, ∀ j op a, e ≠ .answered j op a := by
  cases s <;> simp [Event.reached, Stage.operation?, Stage.reply?]

/-! ### Turns -/

/-- Results are out, or are given up, when the sink turns one down. -/
theorem Reckons.settled (h : Reckons c s t) (hs : s.emission? = none ∨ ∃ f, a = .error f) :
    Settled c (t ++ Event.left i s a) := by
  unfold Reckons Settled at h
  unfold Settled
  cases s with
  | emitting close r rest total =>
    obtain ⟨f, rfl⟩ := hs.resolve_left (by simp [Stage.emission?])
    have hafter : after (t ++ Event.left i (.emitting close r rest total) (.error f)) =
        ⟨0, (after t).stray + (after t).recent⟩ := after_snoc _ _
    have htaken : taken (t ++ Event.left i (.emitting close r rest total) (.error f)) =
        taken t := taken_snoc _ _
    rw [hafter, htaken]
    exact h.1
  | queued | queuedToRelease | ended =>
    rw [Event.left_eq_nil rfl, List.append_nil]
    exact h
  | _ =>
    rw [Event.left, Stage.operation?, after_snoc, taken_snoc]
    cases a <;> exact h

/-- A call that emits nothing does not touch the counter. -/
theorem Settled.turns (h : Settled c t)
    (htally : out.1.tally.resultsEmitted = c.tally.resultsEmitted) (hs : out.2.emission? = none) :
    Reckons out.1 out.2 (t ++ Event.reached i q out.2) := by
  obtain ⟨hafter, htaken⟩ := takings_of_unanswered (t := t) (unanswered_reached (i := i) (q := q)
    (s := out.2))
  rw [reckons_of_rest hs]
  unfold Settled at h ⊢
  rw [htally, hafter, htaken]
  exact h

theorem Parting.reckons {result : Except Failure Bool} (hout : Parting i q c result out)
    (h : Settled c t) : Reckons out.1 out.2 (t ++ Event.reached i q out.2) := by
  cases hout with
  | departs _ _ _ _ _ _ hdeparts =>
    cases hdeparts with
    | already => exact h.turns rfl rfl
    | waits | takes | settles =>
      exact h.turns (congrArg Tally.resultsEmitted (ceased_tally _)) rfl
  | _ => exact h.turns rfl rfl

/-- A close with results left to emit, of which the counter does not know yet. -/
theorem Emission.reckons {close : Close} {total : Nat} {results : List β}
    (hout : Emission i q c close total results out)
    (hcount : c.tally.resultsEmitted + .ofNat ((after t).stray + (after t).recent) =
      .ofNat (taken t))
    (htotal : (after t).recent + results.length = total) :
    Reckons out.1 out.2 (t ++ Event.reached i q out.2) := by
  have hsettled (hnone : results = []) : Settled (c.settled close total) t := by
    rw [hnone] at htotal
    change c.tally.resultsEmitted + .ofNat total + .ofNat (after t).stray = .ofNat (taken t)
    rw [← hcount, ← htotal]
    simp only [UInt64.ofNat_add, List.length_nil, Nat.add_zero]
    ac_rfl
  cases hout with
  | more r rest =>
    obtain ⟨hafter, htaken⟩ := takings_of_unanswered (t := t)
      (unanswered_reached (i := i) (q := q) (s := .emitting close r rest total))
    unfold Reckons
    dsimp only [Stage.emission?]
    rw [hafter, htaken]
    exact ⟨hcount, htotal⟩
  | lets w => exact (hsettled rfl).turns rfl rfl
  | last _ _ hparts => exact hparts.reckons (hsettled rfl)

theorem Turn.reckons (hout : Turn i q c s a out) (h : Reckons c s t) :
    Reckons out.1 out.2 (t ++ (Event.left i s a ++ Event.reached i q out.2)) := by
  rw [← List.append_assoc]
  cases hout with
  | idles _ _ _ _ _ _ hparts => exact hparts.reckons (h.settled (.inl rfl))
  | fillsNone _ _ _ _ _ hparts => exact hparts.reckons (h.settled (.inl rfl))
  | finishesNot _ _ _ hparts => exact hparts.reckons (h.settled (.inl rfl))
  | drainsNot _ _ _ hparts => exact hparts.reckons (h.settled (.inl rfl))
  | emitsNot _ _ _ _ f _ hparts => exact hparts.reckons (h.settled (.inr ⟨f, rfl⟩))
  | releasesNot _ _ _ _ hparts => exact hparts.reckons (h.settled (.inl rfl))
  | released _ w _ _ hparts => exact hparts.reckons (h.settled (.inl rfl))
  | drained close results _ hemission =>
    have hafter : after (t ++ Event.left i (.draining close) (.ok results)) =
        ⟨0, (after t).stray⟩ := after_snoc _ _
    refine hemission.reckons ?_ ?_
    · have hsettled := h.settled (a := .ok results) (i := i) (.inl rfl)
      unfold Settled at hsettled
      rw [hafter] at hsettled ⊢
      exact hsettled
    · rw [hafter, Nat.zero_add]
  | emitted close r rest total results _ hemission =>
    obtain ⟨hcount, htotal⟩ := h
    have hafter : after (t ++ Event.left i (.emitting close r rest total) (.ok results)) =
        ⟨(after t).recent + 1, (after t).stray⟩ := after_snoc _ _
    have htaken : taken (t ++ Event.left i (.emitting close r rest total) (.ok results)) =
        taken t + 1 := taken_snoc _ _
    refine hemission.reckons ?_ ?_
    · rw [hafter, htaken, ← Nat.add_assoc, UInt64.ofNat_add _ 1, ← UInt64.add_assoc, hcount,
        UInt64.ofNat_add]
    · rw [hafter, ← htotal, Nat.add_assoc, Nat.add_comm 1]
  | _ => exact (h.settled (.inl rfl)).turns rfl rfl

end Coordinator

namespace World

open History Takings

variable {α β : Type} {w : World α β} {t : History α β}

theorem kept_reckons : Kept (fun _ _ _ ↦ True)
    fun c _ (call : Call α β) t ↦ c.Reckons call.stage t where
  rest := by
    intro c i j call other t hcall hother h
    rw [Coordinator.reckons_of_rest (Stage.emission?_of_rest hother)]
    exact (Coordinator.reckons_of_rest (Stage.emission?_of_rest hcall)).mp h
  turns := fun _ _ hturn h ↦ hturn.reckons h
  joins := fun hjoins h ↦ h.mono hjoins.tally (by simp)
  declines := fun _ h ↦ h.mono rfl (by simp)
  retimes := fun h ↦ h

/-- The results that the counter does not know of are stray, or belong to the bundle whose results
are going out. -/
theorem Reaches.reckons {id : String} {checked : Checked} {timer : Timer}
    (h : Reaches (created id checked timer) w t) : w.coordinator.Reckons w.acting.2.stage t :=
  kept_reckons.reaches (orderly_created id checked timer) (fun _ _ _ ↦ trivial) rfl h

/-- Whatever has failed in a run, with no call in flight and short of a wrap the counter of results
falls short of what the sink has taken by the stray results. So it tells the number if and only if
no close has failed at a result after the sink had taken another one of the same bundle. -/
theorem resultsEmitted_iff (id : String) (checked : Checked) (timer : Timer)
    (moves : List (Move α β)) :
    let w : World α β := (created id checked timer).run moves
    let t := (created id checked timer : World α β).trace moves
    w.Idle → successes (· matches .emit _) t < 2 ^ 64 →
      w.coordinator.tally.resultsEmitted.toNat + (Takings.after t).stray =
          successes (· matches .emit _) t ∧
        (w.coordinator.tally.resultsEmitted.toNat = successes (· matches .emit _) t ↔
          ¬ BreaksOff t) := by
  intro w t hidle hlt
  have hcreated := orderly_created (α := α) (β := β) id checked timer
  have hreaches : Reaches (created id checked timer) w t := reaches_run hcreated moves
  have hlock := (hreaches.orderly hcreated).lock_of_idle hidle
  have hacting : w.acting.2.stage.emission? = none := by
    simp [acting, hlock, Stage.emission?]
  have hsettled : w.coordinator.Settled t :=
    (Coordinator.reckons_of_rest hacting).mp hreaches.reckons
  have hle := Nat.le_trans (Nat.le_add_right _ _) (stray_add_recent_le t)
  have hnumber : w.coordinator.tally.resultsEmitted.toNat + (Takings.after t).stray = taken t := by
    have hlt : taken t < 2 ^ 64 := hlt
    have hmod := congrArg UInt64.toNat hsettled
    rw [UInt64.toNat_add, UInt64.toNat_ofNat_of_lt' (Nat.lt_of_le_of_lt hle hlt),
      UInt64.toNat_ofNat_of_lt' hlt] at hmod
    have hword := w.coordinator.tally.resultsEmitted.toNat_lt
    omega
  refine ⟨hnumber, ?_⟩
  rw [← stray_pos_iff]
  change _ = taken t ↔ _
  omega

/-- The sink takes the first of two results and turns the second one down. -/
def secondRefused : List (Move Nat Nat) :=
  [.issue .start, .proceed 0 (.ok []), .issue (.submit 1), .proceed 1 (.ok []), .proceed 1 (.ok []),
    .issue (.submit 2), .proceed 2 (.ok []), .issue .endInput, .proceed 3 (.ok []),
    .proceed 3 (.ok [1, 2]), .proceed 3 (.ok []), .proceed 3 (.error (.sink "injected"))]

theorem resultsEmitted_secondRefused :
    (plain.run secondRefused).Idle ∧
      successes (· matches .emit _) (plain.trace secondRefused) < 2 ^ 64 ∧
      (plain.run secondRefused).coordinator.tally.resultsEmitted.toNat + 1 =
        successes (· matches .emit _) (plain.trace secondRefused) := by
  have hidle : (plain.run secondRefused).Idle := by decide
  have hlt : successes (· matches .emit _) (plain.trace secondRefused) < 2 ^ 64 := by decide
  exact ⟨hidle, hlt, (resultsEmitted_iff "plain" (Limits.check {})
    { kind := .manual false, now := 0 } secondRefused hidle hlt).1⟩

/-- The counter does not tell what the sink has taken. -/
theorem not_resultsEmitted :
    ¬ ∀ moves : List (Move Nat Nat), (plain.run moves).Idle →
      successes (· matches .emit _) (plain.trace moves) < 2 ^ 64 →
      (plain.run moves).coordinator.tally.resultsEmitted.toNat =
        successes (· matches .emit _) (plain.trace moves) := by
  intro h
  exact absurd (h secondRefused (by decide) (by decide)) (by decide)

end World

end Bundling
