import Bundling.Proofs.HoldBack
import Bundling.Proofs.Machine
import Bundling.Proofs.Serial

/-!
What failed closes leave in the slot. A close lowers the open flag first and clears the counter and
the held watermark last; one that fails in between leaves its items counted, and the watermark
behind them held, until a later close is completed. `Intake` is the account of this by the history
alone.
With no call in flight, counter and hold agree with the bundle exactly if nothing is left over, and
what is left over also tells how many items a bundle has when it is closed for being full.
-/

set_option autoImplicit false
set_option relaxedAutoImplicit false

namespace Bundling

/-- What has been taken in since a close was last completed. -/
structure Intake where
  /-- The items of the bundle in progress, or of the one that is being closed. -/
  taken : Nat := 0
  /-- The items of bundles whose closes have failed. -/
  left : Nat := 0
  /-- The last watermark accepted while a bundle was in progress. -/
  behind : Option Watermark := none

namespace Intake

variable {α β : Type} {h new : History α β} {i : Nat}

/-- The next event, with what the collaborators' calls have come to before it. A close is completed
by the drain or the emit that leaves nothing due. -/
def step (s : Standing α β) (n : Intake) : Event α β → Intake
  | .answered _ .startBundle (.ok _) => { n with taken := 0 }
  | .answered _ (.process _) (.ok _) => { n with taken := n.taken + 1 }
  | .answered _ .finishBundle (.error _) => { n with taken := 0, left := n.left + n.taken }
  | .answered _ .drainResults (.error _) => { n with taken := 0, left := n.left + n.taken }
  | .answered _ (.emit _) (.error _) => { n with taken := 0, left := n.left + n.taken }
  | .answered _ .drainResults (.ok results) => if results.isEmpty then {} else n
  | .answered _ (.emit _) (.ok _) => if s.due.tail.isEmpty then {} else n
  | .replied _ (.watermark w) .done => if s.inBundle then { n with behind := some w } else n
  | _ => n

/-- The intake after a history. -/
def after (h : History α β) : Intake :=
  (h.foldl (fun p e ↦ (p.1.step e, p.2.step p.1 e)) (({} : Standing α β), {})).2

theorem after_snoc (h : History α β) (e : Event α β) :
    after (h ++ [e]) = (after h).step (Standing.after h) e := by
  have hstanding : (h.foldl (fun p e ↦ (p.1.step e, step p.1 p.2 e))
      (({} : Standing α β), ({} : Intake))).1 = Standing.after h := by
    induction h using List.reverseRecOn with
    | nil => rfl
    | append_singleton h e ih =>
      rw [Standing.after_snoc, ← ih, List.foldl_append]
      rfl
  unfold after
  rw [List.foldl_append, ← hstanding]
  rfl

/-- An event that neither takes anything in nor begins or ends a bundle. -/
def Quiet (e : Event α β) : Prop :=
  ∀ (s : Standing α β) (n : Intake), n.step s e = n ∧ (s.step e).inBundle = s.inBundle

theorem after_append (hnew : ∀ e ∈ new, Quiet e) : after (h ++ new) = after h ∧
    (Standing.after (h ++ new)).inBundle = (Standing.after h).inBundle := by
  induction new generalizing h with
  | nil => simp
  | cons e new ih =>
    obtain ⟨hintake, hbundle⟩ := hnew e List.mem_cons_self (Standing.after h) (after h)
    obtain ⟨hrest, hrest'⟩ := ih (h := h ++ [e]) fun e' he' ↦ hnew e' (List.mem_cons_of_mem e he')
    rw [List.append_cons, hrest, hrest', after_snoc, Standing.after_snoc]
    exact ⟨hintake, hbundle⟩

theorem quiet_issued (q : Request α) : Quiet (.issued i q : Event α β) := fun _ _ ↦ ⟨rfl, rfl⟩

theorem quiet_asked {op : Operation α β} (hop : op ≠ .finishBundle) :
    Quiet (.asked i op : Event α β) := by
  intro s n
  cases op <;> first | exact ⟨rfl, rfl⟩ | exact absurd rfl hop

theorem quiet_replied {q : Request α} {r : Reply} (hq : (∀ w, q ≠ .watermark w) ∨ r ≠ .done) :
    Quiet (.replied i q r : Event α β) := by
  intro s n
  refine ⟨?_, rfl⟩
  cases q with
  | watermark w =>
    cases r with
    | done => exact absurd hq (by simp)
    | _ => rfl
  | _ => rfl

/-- Outside a bundle no reply is one for a watermark behind a bundle. -/
theorem step_replied {s : Standing α β} (n : Intake) (hbundle : s.inBundle = false)
    (q : Request α) (r : Reply) : n.step s (.replied i q r) = n := by
  cases q with
  | watermark w =>
    cases r with
    | done => exact if_neg (by simp [hbundle])
    | _ => rfl
  | _ => rfl

/-- Nothing has been taken in, and no bundle is in progress. -/
def Empty (h : History α β) : Prop :=
  after h = {} ∧ (Standing.after h).inBundle = false

theorem Empty.quiet (hempty : Empty h) (hnew : ∀ e ∈ new, Quiet e) : Empty (h ++ new) := by
  obtain ⟨hintake, hbundle⟩ := after_append (h := h) hnew
  exact ⟨hintake.trans hempty.1, hbundle.trans hempty.2⟩

/-- The counter has gone up item by item, from what was left over and past the largest word if need
be. -/
def Climbs (n : Intake) (items : UInt64) : Prop :=
  items.toNat + 1 = (n.left + 1) % 2 ^ 64 + n.taken

end Intake

/-- The slot agrees with the intake; `closing` says that a close has not got its results out yet. -/
structure Fill {α β : Type} (limit : UInt64) (h : History α β) (slot : Slot) (closing : Bool) :
    Prop where
  items : slot.items = UInt64.ofNat ((Intake.after h).left + (Intake.after h).taken)
  held : slot.held = (Intake.after h).behind
  fresh : (Standing.after h).inBundle = false → closing = false → (Intake.after h).taken = 0
  climbs : (Standing.after h).inBundle = true → (Intake.after h).taken ≠ 0 →
    (Intake.after h).Climbs slot.items ∧ ¬ limit ≤ slot.items

namespace Fill

variable {α β : Type} {limit : UInt64} {h : History α β} {slot : Slot} {closing : Bool} {i : Nat}
  {w : Watermark} {x : α}

theorem of_eq (hf : Fill limit h slot closing) {slot' : Slot} (hitems : slot'.items = slot.items)
    (hheld : slot'.held = slot.held) : Fill limit h slot' closing where
  items := hitems.trans hf.items
  held := hheld.trans hf.held
  fresh := hf.fresh
  climbs := by
    rw [hitems]
    exact hf.climbs

theorem of_after (hf : Fill limit h slot closing) {h' : History α β}
    (hintake : Intake.after h' = Intake.after h)
    (hbundle : (Standing.after h').inBundle = (Standing.after h).inBundle) :
    Fill limit h' slot closing := by
  constructor
  all_goals rw [hintake]
  · exact hf.items
  · exact hf.held
  · rw [hbundle]
    exact hf.fresh
  · rw [hbundle]
    exact hf.climbs

theorem snoc (hf : Fill limit h slot closing) {e : Event α β}
    (hintake : (Intake.after h).step (Standing.after h) e = Intake.after h)
    (hbundle : ((Standing.after h).step e).inBundle = (Standing.after h).inBundle) :
    Fill limit (h ++ [e]) slot closing :=
  hf.of_after ((Intake.after_snoc h e).trans hintake)
    ((congrArg Standing.inBundle (Standing.after_snoc h e)).trans hbundle)

theorem quiet (hf : Fill limit h slot closing) {new : History α β}
    (hnew : ∀ e ∈ new, Intake.Quiet e) : Fill limit (h ++ new) slot closing :=
  hf.of_after (Intake.after_append hnew).1 (Intake.after_append hnew).2

theorem note (hf : Fill limit h slot closing) {e : Event α β} (he : Intake.Quiet e) :
    Fill limit (h ++ [e]) slot closing :=
  hf.snoc (he _ _).1 (he _ (Intake.after h)).2

theorem starts (hf : Fill limit h slot false) (hbundle : (Standing.after h).inBundle = false)
    (results : List β) :
    Fill limit (h ++ [Event.answered i .startBundle (.ok results)]) slot false := by
  have htaken := hf.fresh hbundle rfl
  have hintake : Intake.after (h ++ [Event.answered i .startBundle (.ok results)]) =
      { Intake.after h with taken := 0 } := Intake.after_snoc _ _
  have hitems := hf.items
  rw [htaken] at hitems
  constructor
  all_goals rw [hintake]
  · exact hitems
  · exact hf.held
  · exact fun _ _ ↦ rfl
  · exact fun _ hne ↦ absurd rfl hne

/-- One more item makes the counter climb by one. -/
theorem climbs_succ (hf : Fill limit h slot false) (hbundle : (Standing.after h).inBundle = true) :
    Intake.Climbs { Intake.after h with taken := (Intake.after h).taken + 1 } (slot.items + 1) := by
  have hadd : (slot.items + 1).toNat = (slot.items.toNat + 1) % 2 ^ 64 := UInt64.toNat_add _ _
  unfold Intake.Climbs
  by_cases htaken : (Intake.after h).taken = 0
  · have hitems : slot.items.toNat = (Intake.after h).left % 2 ^ 64 := by
      rw [hf.items, htaken]
      exact UInt64.toNat_ofNat'
    rw [hadd, hitems, htaken]
    dsimp only
    omega
  · obtain ⟨hclimbs, hroom⟩ := hf.climbs hbundle htaken
    rw [UInt64.le_iff_toNat_le] at hroom
    have hlimit := limit.toNat_lt
    unfold Intake.Climbs at hclimbs
    rw [hadd]
    dsimp only
    omega

theorem after_process (h : History α β) (i : Nat) (x : α) (results : List β) :
    Intake.after (h ++ [Event.answered i (.process x) (.ok results)]) =
      { Intake.after h with taken := (Intake.after h).taken + 1 } := Intake.after_snoc _ _

theorem items_succ (hf : Fill limit h slot closing) :
    slot.items + 1 = UInt64.ofNat ((Intake.after h).left + ((Intake.after h).taken + 1)) := by
  rw [hf.items, ← Nat.add_assoc, UInt64.ofNat_add _ 1]
  rfl

theorem takes (hf : Fill limit h slot false) (hbundle : (Standing.after h).inBundle = true)
    (results : List β) (hroom : ¬ limit ≤ slot.items + 1) :
    Fill limit (h ++ [Event.answered i (.process x) (.ok results)]) slot.count.2 false := by
  constructor
  all_goals rw [after_process]
  · exact hf.items_succ
  · exact hf.held
  · intro hout
    rw [Standing.after_snoc] at hout
    exact absurd (hout.symm.trans hbundle) (by simp)
  · exact fun _ _ ↦ ⟨hf.climbs_succ hbundle, hroom⟩

theorem closes (hf : Fill limit h slot false) :
    Fill limit (h ++ [Event.asked i .finishBundle]) slot true := by
  have hintake : Intake.after (h ++ [Event.asked i .finishBundle]) = Intake.after h :=
    Intake.after_snoc _ _
  constructor
  all_goals rw [hintake]
  · exact hf.items
  · exact hf.held
  · exact fun _ hclosing ↦ by cases hclosing
  · intro hin
    rw [Standing.after_snoc] at hin
    cases hin

/-- A close is asked for by the item that fills the bundle. -/
theorem fills (hf : Fill limit h slot false) (results : List β) :
    Fill limit (h ++ [Event.answered i (.process x) (.ok results)] ++
      [Event.asked i .finishBundle]) slot.count.2 true := by
  have hintake : Intake.after (h ++ [Event.answered i (.process x) (.ok results)] ++
      [Event.asked i .finishBundle]) =
        { Intake.after h with taken := (Intake.after h).taken + 1 } :=
    (Intake.after_snoc _ _).trans (after_process h i x results)
  constructor
  all_goals rw [hintake]
  · exact hf.items_succ
  · exact hf.held
  · exact fun _ hclosing ↦ by cases hclosing
  · intro hin
    rw [Standing.after_snoc] at hin
    cases hin

/-- What a failed close had taken is left over. -/
theorem breaks (hf : Fill limit h slot closing) {op : Operation α β} (f : Failure)
    (hop : op = .finishBundle ∨ op = .drainResults ∨ ∃ r, op = .emit r)
    (hbundle : (Standing.after h).inBundle = false) :
    Fill limit (h ++ [Event.answered i op (.error f)]) slot false := by
  have hintake : Intake.after (h ++ [Event.answered i op (.error f)]) =
      { Intake.after h with
        taken := 0, left := (Intake.after h).left + (Intake.after h).taken } := by
    rw [Intake.after_snoc]
    rcases hop with rfl | rfl | ⟨r, rfl⟩ <;> rfl
  have hstill : (Standing.after (h ++ [Event.answered i op (.error f)])).inBundle = false := by
    rw [Standing.after_snoc]
    rcases hop with rfl | rfl | ⟨r, rfl⟩ <;> exact hbundle
  constructor
  all_goals rw [hintake]
  · exact hf.items
  · exact hf.held
  · exact fun _ _ ↦ rfl
  · exact fun hin ↦ absurd (hstill.symm.trans hin) (by simp)

/-- A completed close leaves nothing. -/
theorem completes {h : History α β} (hintake : Intake.after h = {}) (now : Int64) :
    Fill limit h (slot.reset now).release.2 closing := by
  constructor
  all_goals rw [hintake]
  · rfl
  · rfl
  · exact fun _ _ ↦ rfl
  · exact fun _ hne ↦ absurd rfl hne

theorem holds (hf : Fill limit h slot false) (hbundle : (Standing.after h).inBundle = true) :
    Fill limit (h ++ [Event.replied i (.watermark w) .done]) (slot.hold w).2 false := by
  have hintake : Intake.after (h ++ [Event.replied i (.watermark w) .done]) =
      { Intake.after h with behind := some w } := by
    rw [Intake.after_snoc]
    exact if_pos hbundle
  have hstanding : Standing.after (h ++ [Event.replied i (.watermark w) .done]) =
      Standing.after h := Standing.after_snoc _ _
  constructor
  all_goals rw [hintake]
  · exact hf.items
  · rfl
  · rw [hstanding]
    exact hf.fresh
  · rw [hstanding]
    exact hf.climbs

/-- A watermark that is accepted outside a bundle has been forwarded. -/
theorem passes (hf : Fill limit h slot closing) (hbundle : (Standing.after h).inBundle = false) :
    Fill limit (h ++ [Event.replied i (.watermark w) .done]) slot closing :=
  hf.snoc (if_neg (by simp [hbundle])) rfl

end Fill

namespace Intake

/-- The bundle has just been filled: it was not full before its last item, unless that is its only
one. -/
structure Full (n : Intake) (limit items : UInt64) : Prop where
  climbs : n.Climbs items
  taken : n.taken ≠ 0
  reached : limit ≤ items
  last : n.taken = 1 ∨ items = limit

end Intake

/-- With the open flag down no bundle is in progress. -/
theorem Conduct.not_inBundle {α β : Type} {c : Coordinator}
    {current : Option (Nat × Operation α β)} {next : List (Operation α β)} {h : History α β}
    (hconduct : Conduct c current next h) (hunit : c.hasUnit = true)
    (hopen : c.slot.isOpen = false) : (Standing.after h).inBundle = false := by
  rw [Bool.eq_false_iff]
  intro hin
  exact absurd (hopen.symm.trans ((hconduct.bundle hunit).mp hin).1) (by simp)

namespace Coordinator

variable {α β : Type} {c : Coordinator} {i : Nat} {q : Request α} {s : Stage α β}
  {h : History α β} {limit : UInt64} {slot : Slot}

/-! ### The limit of a coordinator -/

theorem Departure.policy {f : Option Failure} {out : Coordinator × Stage α β}
    (hout : Departure i f c out) : out.1.policy = c.policy := by
  cases hout with
  | already => rfl
  | waits | takes | settles => exact ceased_policy c

theorem Parting.policy {result : Except Failure Bool} {out : Coordinator × Stage α β}
    (hout : Parting i q c result out) : out.1.policy = c.policy := by
  cases hout with
  | departs _ _ _ _ _ _ hdeparts => exact hdeparts.policy
  | _ => rfl

theorem Emission.policy {close : Close} {total : Nat} {results : List β}
    {out : Coordinator × Stage α β} (hout : Emission i q c close total results out) :
    out.1.policy = c.policy := by
  cases hout with
  | more | lets => rfl
  | last _ _ hparts => exact hparts.policy

theorem Turn.policy {a : Except Failure (List β)} {out : Coordinator × Stage α β}
    (hout : Turn i q c s a out) : out.1.policy = c.policy := by
  cases hout with
  | idles _ _ _ _ _ _ h | fillsNone _ _ _ _ _ h | finishesNot _ _ _ h | drainsNot _ _ _ h
  | emitsNot _ _ _ _ _ _ h | releasesNot _ _ _ _ h | released _ _ _ _ h => exact h.policy
  | drained _ _ _ h | emitted _ _ _ _ _ _ h => exact h.policy
  | _ => rfl

/-! ### Before the unit has opened -/

/-- A turn that has not opened the unit yet has taken nothing in. -/
theorem Turn.unopened {a : Except Failure (List β)} {out : Coordinator × Stage α β}
    (hout : Turn i q c s a out) (hfits : c.Fits s)
    (hbefore : c.phase = .created ∨ s = .opening → Intake.Empty h)
    (hthen : out.1.phase = .created ∨ out.2 = .opening) :
    Intake.Empty (h ++ (Event.left i s a ++ Event.reached i q out.2)) := by
  have hunopened : c.phase = .created ∨ s = .opening := by
    left
    by_contra hphase
    rcases hthen with hcreated | hopening
    · exact hout.phase_ne_created hphase hcreated
    · exact hphase (hout.created_of_opening hopening)
  -- at this point only the opening and the closing of the unit can have been answered
  have hleft : Intake.Empty (h ++ Event.left i s a) := by
    have hempty := hbefore hunopened
    cases s with
    | queued | queuedToRelease | ended =>
      rw [Event.left_eq_nil rfl, List.append_nil]
      exact hempty
    | opening | closingUnit =>
      refine hempty.quiet fun e he ↦ ?_
      rw [List.mem_singleton.mp he]
      cases a <;> exact fun _ _ ↦ ⟨rfl, rfl⟩
    | _ => exact absurd hunopened (by simp [hfits.2.1])
  rw [← List.append_assoc]
  generalize h ++ Event.left i s a = before at hleft ⊢
  obtain ⟨hintake, hbundle⟩ := hleft
  unfold Event.reached
  split
  case h_1 op _ =>
    unfold Intake.Empty
    rw [Standing.after_snoc, Intake.after_snoc]
    exact ⟨hintake, by cases op <;> first | exact hbundle | rfl⟩
  case h_2 =>
    unfold Intake.Empty
    rw [Standing.after_snoc, Intake.after_snoc, Intake.step_replied _ hbundle]
    exact ⟨hintake, hbundle⟩
  case h_3 =>
    rw [List.append_nil]
    exact ⟨hintake, hbundle⟩

/-! ### Turns -/

theorem fill_of_rest (hs : s.operation? = none) (hf : Fill limit h slot false)
    (hquiet : ∀ r, s = .ended r → (∀ w, q ≠ .watermark w) ∨ r ≠ .done) :
    Fill limit (h ++ Event.reached i q s) slot s.closes := by
  rw [Stage.closes_eq_false hs]
  refine hf.quiet fun e he ↦ ?_
  cases s with
  | ended r =>
    rw [List.mem_singleton.mp he]
    exact Intake.quiet_replied (hquiet r rfl)
  | queued | queuedToRelease => cases he
  | _ => cases hs

theorem fill_of_asked {op : Operation α β} {closing : Bool} (hop : op ≠ .finishBundle)
    (hf : Fill limit h slot closing) : Fill limit (h ++ [Event.asked i op]) slot closing :=
  hf.note (Intake.quiet_asked hop)

theorem Departure.fill {f : Option Failure} {out : Coordinator × Stage α β}
    (hout : Departure i f c out) (hstop : q = .stop) (hf : Fill limit h c.slot false) :
    Fill limit (h ++ Event.reached i q out.2) out.1.slot out.2.closes := by
  have hquiet : ∀ w, q ≠ .watermark w := by simp [hstop]
  have hceased : Fill limit h (c.ceased.inLine i).slot false := by
    change Fill limit h c.ceased.slot false
    rw [ceased_slot]
    exact hf
  cases hout with
  | already => exact fill_of_rest rfl hf fun _ _ ↦ .inl hquiet
  | waits => exact fill_of_rest rfl hceased fun _ _ ↦ .inl hquiet
  | takes => exact fill_of_asked (by simp) hceased
  | settles => exact (fill_of_rest rfl hf fun _ _ ↦ .inl hquiet).of_eq rfl rfl

theorem Parting.fill {result : Except Failure Bool} {out : Coordinator × Stage α β}
    (hout : Parting i q c result out) (hf : Fill limit h c.slot false) :
    Fill limit (h ++ Event.reached i q out.2) out.1.slot out.2.closes := by
  cases hout with
  | forwards w => exact fill_of_asked (by simp) hf
  | answers _ _ _ hquiet => exact fill_of_rest rfl hf fun _ _ ↦ .inl hquiet
  | fails => exact fill_of_rest rfl hf fun r hr ↦ .inr (by cases hr; simp)
  | latches _ _ hq => exact fill_of_rest rfl hf fun _ _ ↦ .inl (by simp [hq])
  | departs _ _ _ _ hq _ hdeparts => exact hdeparts.fill hq hf

theorem Emission.fill {close : Close} {total : Nat} {results : List β}
    {out : Coordinator × Stage α β} (hout : Emission i q c close total results out)
    (hmore : results ≠ [] → Fill limit h c.slot true)
    (hdone : results = [] → Intake.after h = {}) :
    Fill limit (h ++ Event.reached i q out.2) out.1.slot out.2.closes := by
  cases hout with
  | more r rest => exact fill_of_asked (by simp) (hmore (by simp))
  | lets w => exact fill_of_asked (by simp) (Fill.completes (hdone rfl) c.timer.now)
  | last _ _ hparts => exact hparts.fill (Fill.completes (hdone rfl) c.timer.now)

/-- A turn that starts when the lock is granted. -/
theorem Turn.fill_of_grant {a : Except Failure (List β)} {out : Coordinator × Stage α β}
    (hout : Turn i q c s a out) (hs : s.operation? = none) (hsuits : Suits q s)
    (hconduct : Conduct c none [] h) (hf : Fill limit h c.slot false) :
    Fill limit (h ++ Event.reached i q out.2) out.1.slot out.2.closes := by
  cases hout with
  | refused => exact fill_of_rest rfl hf fun r hr ↦ .inr (by cases hr; simp)
  | passes _ hq => exact fill_of_rest rfl hf fun _ _ ↦ .inl (by simp [hq])
  | opens => exact fill_of_asked (by simp) hf
  | continues => exact fill_of_asked (by simp) hf
  | starts => exact fill_of_asked (by simp) (hf.of_eq rfl rfl)
  | holds _ w hq hadmitted _ hopen =>
    subst hq
    have hbundle : (Standing.after h).inBundle = true := by
      rw [hconduct.bundle hadmitted.2.2]
      simpa using hopen
    exact hf.holds hbundle
  | forwards => exact fill_of_asked (by simp) hf
  | closes => exact hf.closes.of_eq rfl rfl
  | idles _ _ _ _ _ _ hparts => exact hparts.fill hf
  | takesUnit => exact fill_of_asked (by simp) hf
  | findsNoUnit =>
    exact (fill_of_rest rfl hf fun _ _ ↦ .inl (hsuits.ne_watermark rfl)).of_eq rfl rfl
  | _ => cases hs

/-- A turn that starts with a collaborator's success. -/
theorem Turn.fill_of_success {results : List β} {out : Coordinator × Stage α β}
    (hout : Turn i q c s (.ok results) out) (hs : s.operation?.isSome = true) (hsuits : Suits q s)
    (hconducts : Conducts c i s h) (hunopened : s = .opening → Intake.after h = {})
    (hlimit : c.policy.maxItems = limit) (hf : Fill limit h c.slot s.closes) :
    Fill limit ((h ++ Event.left i s (.ok results)) ++ Event.reached i q out.2) out.1.slot
      out.2.closes := by
  obtain ⟨hconduct, hfits⟩ := hconducts
  -- an answer that the account does not look at
  have hanswered (op : Operation α β)
      (hquiet : Intake.Quiet (Event.answered i op (.ok []) : Event α β)) :
      Fill limit (h ++ [Event.answered i op (.ok [])]) c.slot s.closes := hf.note hquiet
  have hzero (hopening : s = .opening) : c.slot.items = 0 := by
    rw [hf.items, hunopened hopening]
    rfl
  have hmark {x : α} (hq : q = .submit x) : ∀ w, q ≠ .watermark w := by simp [hq]
  cases hout with
  | schedulesNot =>
    refine (fill_of_rest rfl (hanswered .openUnit fun _ _ ↦ ⟨rfl, rfl⟩) fun r hr ↦
      .inr (by cases hr; simp)).of_eq (hzero rfl).symm rfl
  | runs =>
    have hq : q = .start := hsuits
    exact (fill_of_rest rfl (hanswered .openUnit fun _ _ ↦ ⟨rfl, rfl⟩) fun _ _ ↦
      .inl (by simp [hq])).of_eq (hzero rfl).symm rfl
  | started x =>
    have hbundle : (Standing.after h).inBundle = false := by
      simpa [Stage.operation?] using hconduct.bundle hfits.1
    exact fill_of_asked (by simp) (hf.starts hbundle [])
  | accepts x _ hroom =>
    have hbundle : (Standing.after h).inBundle = true :=
      (hconduct.bundle hfits.1).mpr ⟨hfits.2.2, by simp [Stage.operation?]⟩
    rw [hlimit] at hroom
    exact fill_of_rest rfl (hf.takes hbundle [] hroom) fun _ _ ↦ .inl (hmark hsuits)
  | fills x => exact (hf.fills []).of_eq rfl rfl
  | fillsNone _ _ _ _ hidle =>
    exact absurd (hfits.2.2.symm.trans (hidle hfits.1)) (by simp)
  | finished =>
    exact fill_of_asked (by simp) (hanswered .finishBundle fun _ _ ↦ ⟨rfl, rfl⟩)
  | drained _ _ _ hemission =>
    refine hemission.fill (fun hne ↦ hf.snoc (if_neg (by simpa using hne)) rfl) fun hnil ↦ ?_
    exact (Intake.after_snoc _ _).trans (if_pos (by simpa using hnil))
  | emitted _ r rest _ _ _ hemission =>
    have hdue : (Standing.after h).due.tail = rest.map .emit := by
      rw [hconduct.due]
      rfl
    refine hemission.fill (fun hne ↦ hf.snoc (if_neg (by simpa [hdue] using hne)) rfl) fun hnil ↦ ?_
    exact (Intake.after_snoc _ _).trans (if_pos (by simpa [hdue] using hnil))
  | released _ w _ _ hparts =>
    exact hparts.fill (hanswered (.forward w) fun _ _ ↦ ⟨rfl, rfl⟩)
  | forwarded w =>
    have hq : q = .watermark w := hsuits
    subst hq
    have hbundle := hconduct.not_inBundle hfits.1 hfits.2.2
    refine (hanswered (.forward w) fun _ _ ↦ ⟨rfl, rfl⟩).passes ?_
    rw [Standing.after_snoc]
    exact hbundle
  | settles =>
    exact (fill_of_rest rfl (hanswered .closeUnit fun _ _ ↦ ⟨rfl, rfl⟩) fun _ _ ↦
      .inl (hsuits.ne_watermark rfl)).of_eq rfl rfl
  | _ => cases hs

/-- A turn that starts with a collaborator's failure. -/
theorem Turn.fill_of_failure {f : Failure} {out : Coordinator × Stage α β}
    (hout : Turn i q c s (.error f) out) (hs : s.operation?.isSome = true) (hsuits : Suits q s)
    (hconducts : Conducts c i s h) (hf : Fill limit h c.slot s.closes) :
    Fill limit ((h ++ Event.left i s (.error f)) ++ Event.reached i q out.2) out.1.slot
      out.2.closes := by
  obtain ⟨hconduct, hfits⟩ := hconducts
  have hfailed (op : Operation α β)
      (hquiet : Intake.Quiet (Event.answered i op (.error f) : Event α β)) :
      Fill limit (h ++ [Event.answered i op (.error f)]) c.slot s.closes := hf.note hquiet
  have hreply (r : Reply) (g : Failure) (hr : (.ended (.failed g) : Stage α β) = .ended r) :
      (∀ w, q ≠ .watermark w) ∨ r ≠ .done := .inr (by cases hr; simp)
  cases hout with
  | opensNot => exact fill_of_rest rfl (hfailed .openUnit fun _ _ ↦ ⟨rfl, rfl⟩) fun r ↦ hreply r _
  | startsNot =>
    exact (fill_of_rest rfl (hfailed .startBundle fun _ _ ↦ ⟨rfl, rfl⟩) fun r ↦
      hreply r _).of_eq rfl rfl
  | processesNot x =>
    exact fill_of_rest rfl (hfailed (.process x) fun _ _ ↦ ⟨rfl, rfl⟩) fun r ↦ hreply r _
  | finishesNot _ _ _ hparts =>
    exact hparts.fill (hf.breaks f (.inl rfl) (hconduct.not_inBundle hfits.1 hfits.2.2))
  | drainsNot _ _ _ hparts =>
    exact hparts.fill (hf.breaks f (.inr (.inl rfl)) (hconduct.not_inBundle hfits.1 hfits.2.2))
  | emitsNot _ r _ _ _ _ hparts =>
    exact hparts.fill (hf.breaks f (.inr (.inr ⟨r, rfl⟩)) (hconduct.not_inBundle hfits.1 hfits.2.2))
  | releasesNot _ w _ _ hparts => exact hparts.fill (hfailed (.forward w) fun _ _ ↦ ⟨rfl, rfl⟩)
  | forwardsNot w =>
    exact fill_of_rest rfl (hfailed (.forward w) fun _ _ ↦ ⟨rfl, rfl⟩) fun r ↦ hreply r _
  | settles =>
    exact (fill_of_rest rfl (hfailed .closeUnit fun _ _ ↦ ⟨rfl, rfl⟩) fun _ _ ↦
      .inl (hsuits.ne_watermark rfl)).of_eq rfl rfl
  | _ => cases hs

theorem Turn.fill {a : Except Failure (List β)} {out : Coordinator × Stage α β}
    (hout : Turn i q c s a out) (hsuits : Suits q s) (hconducts : Conducts c i s h)
    (hunopened : s = .opening → Intake.after h = {}) (hlimit : c.policy.maxItems = limit)
    (hf : Fill limit h c.slot s.closes) :
    Fill limit (h ++ (Event.left i s a ++ Event.reached i q out.2)) out.1.slot out.2.closes := by
  rw [← List.append_assoc]
  cases hs : s.operation? with
  | some op =>
    cases a with
    | ok results =>
      exact hout.fill_of_success (by rw [hs]; rfl) hsuits hconducts hunopened hlimit hf
    | error f => exact hout.fill_of_failure (by rw [hs]; rfl) hsuits hconducts hf
  | none =>
    have hconduct := hconducts.conduct
    rw [hs, Stage.due_eq_nil hs] at hconduct
    rw [Stage.closes_eq_false hs] at hf
    rw [Event.left_eq_nil hs, List.append_nil]
    exact hout.fill_of_grant hs hsuits hconduct hf

/-! ### Full bundles -/

theorem Departure.ne_finishing {f : Option Failure} {out : Coordinator × Stage α β}
    (hout : Departure i f c out) (close : Close) : out.2 ≠ .finishing close := by
  cases hout <;> exact fun h ↦ by cases h

theorem Parting.ne_finishing {result : Except Failure Bool} {out : Coordinator × Stage α β}
    (hout : Parting i q c result out) (close : Close) : out.2 ≠ .finishing close := by
  cases hout with
  | departs _ _ _ _ _ _ hdeparts => exact hdeparts.ne_finishing close
  | _ => exact fun h ↦ by cases h

theorem Emission.ne_finishing {close : Close} {total : Nat} {results : List β}
    {out : Coordinator × Stage α β} (hout : Emission i q c close total results out)
    (close' : Close) : out.2 ≠ .finishing close' := by
  cases hout with
  | more | lets => exact fun h ↦ by cases h
  | last _ _ hparts => exact hparts.ne_finishing close'

/-- A submit closes the bundle with the item that fills it. -/
theorem Turn.full {a : Except Failure (List β)} {out : Coordinator × Stage α β}
    (hout : Turn i q c s a out) (hconducts : Conducts c i s h)
    (hlimit : c.policy.maxItems = limit) (hf : Fill limit h c.slot s.closes) {x : α}
    (hq : q = .submit x) {close : Close} (hfinishing : out.2 = .finishing close) :
    (Intake.after (h ++ (Event.left i s a ++ Event.reached i q out.2))).Full limit
      out.1.slot.items := by
  subst hq
  cases hout with
  | closes _ _ htrigger => cases htrigger
  | fills y results hfull =>
    rw [hlimit] at hfull
    have hbundle : (Standing.after h).inBundle = true :=
      (hconducts.conduct.bundle hconducts.fits.1).mpr
        ⟨hconducts.fits.2.2, by simp [Stage.operation?]⟩
    have hintake : Intake.after (h ++ [Event.answered i (.process y) (.ok []),
        Event.asked i .finishBundle]) =
          { Intake.after h with taken := (Intake.after h).taken + 1 } := by
      rw [List.append_cons]
      exact (Intake.after_snoc _ _).trans (Fill.after_process h i y [])
    change (Intake.after (h ++ [Event.answered i (.process y) (.ok []),
      Event.asked i .finishBundle])).Full limit (c.slot.items + 1)
    rw [hintake]
    refine ⟨hf.climbs_succ hbundle, by simp, hfull, ?_⟩
    by_cases htaken : (Intake.after h).taken = 0
    · exact .inl (by rw [htaken])
    · have hroom := (hf.climbs hbundle htaken).2
      have hlt := limit.toNat_lt
      have hadd : (c.slot.items + 1).toNat = (c.slot.items.toNat + 1) % 2 ^ 64 :=
        UInt64.toNat_add _ _
      rw [UInt64.le_iff_toNat_le] at hroom hfull
      rw [hadd] at hfull
      exact .inr (UInt64.toNat.inj (by rw [hadd]; omega))
  | idles _ _ _ _ _ _ h | fillsNone _ _ _ _ _ h | finishesNot _ _ _ h | drainsNot _ _ _ h
  | emitsNot _ _ _ _ _ _ h | releasesNot _ _ _ _ h | released _ _ _ _ h =>
    exact absurd hfinishing (h.ne_finishing close)
  | drained _ _ _ h | emitted _ _ _ _ _ _ h => exact absurd hfinishing (h.ne_finishing close)
  | _ => cases hfinishing

/-- The invariant: the slot agrees with the intake, and with the call that acts. -/
structure Fills (limit : UInt64) (c : Coordinator) (q : Request α) (s : Stage α β)
    (h : History α β) : Prop where
  fill : Fill limit h c.slot s.closes
  full : ∀ x close, q = .submit x → s = .finishing close →
    (Intake.after h).Full limit c.slot.items
  unopened : c.phase = .created ∨ s = .opening → Intake.Empty h

/-- What other calls do in the meantime is nothing to the intake. -/
theorem Fills.mono {d : Coordinator} (hf : Fills limit c q s h) (hslot : d.slot = c.slot)
    (hphase : d.phase = .created → c.phase = .created) {new : History α β}
    (hnew : ∀ e ∈ new, Intake.Quiet e) : Fills limit d q s (h ++ new) where
  fill := by
    rw [hslot]
    exact hf.fill.quiet hnew
  full := by
    rw [(Intake.after_append hnew).1, hslot]
    exact hf.full
  unopened := fun hthen ↦ (hf.unopened (hthen.imp_left hphase)).quiet hnew

end Coordinator

namespace World

variable {α β : Type} {limit : UInt64} {w : World α β} {t : History α β}
  {id : String} {checked : Checked} {timer : Timer}

theorem kept_fills : Kept (fun _ (call : Call α β) _ ↦ Coordinator.Suits call.request call.stage)
    fun c i call t ↦ c.policy.maxItems = limit ∧ c.Conducts i call.stage t ∧
      c.Fills limit call.request call.stage t where
  rest := by
    intro c i j call other t hcall hother ⟨hlimit, hconducts, hfills⟩
    refine ⟨hlimit, kept_conducts.rest hcall hother hconducts, ?_, fun x close _ hs ↦ ?_,
      fun hthen ↦ hfills.unopened (.inl (hthen.resolve_right fun hs ↦ ?_))⟩
    · have hfill := hfills.fill
      rw [Stage.closes_eq_false hcall] at hfill
      rw [Stage.closes_eq_false hother]
      exact hfill
    all_goals
      rw [hs] at hother
      cases hother
  turns := by
    intro c i call answer out t _ hsuits hturn ⟨hlimit, hconducts, hfills⟩
    refine ⟨hturn.policy ▸ hlimit, hturn.conducts hconducts, ?_, ?_, ?_⟩
    · exact hturn.fill hsuits hconducts (fun hs ↦ (hfills.unopened (.inr hs)).1) hlimit hfills.fill
    · exact fun x close hq hs ↦ hturn.full hconducts hlimit hfills.fill hq hs
    · exact hturn.unopened hconducts.fits hfills.unopened
  joins := by
    intro c i n q d s call t hjoins ⟨hlimit, hconducts, hfills⟩
    have hpolicy : (d.inLine n).policy = c.policy := hjoins.policy
    have hslot : (d.inLine n).slot = c.slot := hjoins.slot
    refine ⟨hpolicy ▸ hlimit, kept_conducts.joins hjoins hconducts,
      hfills.mono hslot (fun hcreated ↦ ?_) fun e he ↦ ?_⟩
    · by_contra hphase
      exact Phase.ne_created_of_le hjoins.phase_le hphase hcreated
    · rw [List.mem_singleton.mp he]
      exact Intake.quiet_issued q
  declines := by
    intro c i n q r call t hdeclines ⟨hlimit, hconducts, hfills⟩
    refine ⟨hlimit, kept_conducts.declines hdeclines hconducts,
      hfills.mono rfl (fun h ↦ h) fun e he ↦ ?_⟩
    rcases List.mem_cons.mp he with rfl | he
    · exact Intake.quiet_issued q
    · rw [List.mem_singleton.mp he]
      exact Intake.quiet_replied hdeclines.watermark_or_done
  retimes := fun ⟨hlimit, hconducts, hfills⟩ ↦
    ⟨hlimit, kept_conducts.retimes hconducts, hfills.fill, hfills.full, hfills.unopened⟩

theorem Reaches.fills (h : Reaches (created id checked timer) w t) :
    w.coordinator.Fills checked.policy.maxItems w.acting.2.request w.acting.2.stage t := by
  have hcreated := orderly_created (α := α) (β := β) id checked timer
  refine (kept_fills.reaches hcreated (fun hreaches ↦ (hreaches.orderly hcreated).suits)
    ⟨rfl, conducts_created id checked timer, ?_, ?_, ?_⟩ h).2.2
  · exact ⟨rfl, rfl, fun _ _ ↦ rfl, fun _ hne ↦ absurd rfl hne⟩
  · intro x close hq
    cases hq
  · exact fun _ ↦ ⟨rfl, rfl⟩

end World

namespace Slot

/-- The counter and the hold are those of a bundle with this many items, or of none. -/
def Whole (s : Slot) (taken : Nat) : Prop :=
  (s.isOpen = false → s.items = 0 ∧ s.held = none) ∧ (s.isOpen = true → s.items.toNat = taken)

end Slot

namespace Intake

variable {n : Intake} {limit items : UInt64}

theorem dvd_iff_of_climbs (h : n.Climbs items) : 2 ^ 64 ∣ n.left ↔ items.toNat = n.taken := by
  have hlt := items.toNat_lt
  unfold Climbs at h
  omega

/-- A full bundle has as many items as the limit says if nothing was left over when it was started,
or if it is full with any item. -/
theorem Full.taken_eq_iff (h : n.Full limit items) (hlimit : 0 < limit.toNat) :
    n.taken = limit.toNat ↔ 2 ^ 64 ∣ n.left ∨ limit = 1 ∧ ¬ 2 ^ 64 ∣ n.left + 1 := by
  have hclimbs := h.climbs
  have hreached := UInt64.le_iff_toNat_le.mp h.reached
  have hone : limit = 1 ↔ limit.toNat = 1 := UInt64.toNat_inj.symm
  have hlt := items.toNat_lt
  unfold Climbs at hclimbs
  rw [hone]
  rcases h.last with htaken | hitems
  · omega
  · rw [← hitems] at hlimit hreached ⊢
    have htaken := h.taken
    omega

end Intake

/-- Between calls, the slot is that of the bundle exactly if nothing is left over. -/
theorem Fill.whole_iff_dvd_left {α β : Type} {limit : UInt64} {h : History α β} {slot : Slot}
    (hf : Fill limit h slot false)
    (hbundle : (Standing.after h).inBundle = true ↔ slot.isOpen = true) :
    slot.Whole (Intake.after h).taken ↔
      2 ^ 64 ∣ (Intake.after h).left ∧ (slot.isOpen = false → (Intake.after h).behind = none) := by
  have hitems : (Intake.after h).taken = 0 → slot.items.toNat = (Intake.after h).left % 2 ^ 64 := by
    intro htaken
    rw [hf.items, htaken]
    exact UInt64.toNat_ofNat'
  unfold Slot.Whole
  cases hopen : slot.isOpen with
  | false =>
    have hout : (Standing.after h).inBundle = false := by
      rw [Bool.eq_false_iff, ne_eq, hbundle, hopen]
      simp
    have hzero : slot.items = 0 ↔ 2 ^ 64 ∣ (Intake.after h).left := by
      rw [← UInt64.toNat_inj, hitems (hf.fresh hout rfl), UInt64.toNat_zero,
        Nat.dvd_iff_mod_eq_zero]
    simp [hzero, hf.held]
  | true =>
    have hin := hbundle.mpr hopen
    have hcount : slot.items.toNat = (Intake.after h).taken ↔ 2 ^ 64 ∣ (Intake.after h).left := by
      by_cases htaken : (Intake.after h).taken = 0
      · rw [hitems htaken, htaken, Nat.dvd_iff_mod_eq_zero]
      · exact (Intake.dvd_iff_of_climbs (hf.climbs hin htaken).1).symm
    simp [hcount]

namespace World

variable {α β : Type}

/-- With no call in flight and the unit not released, the counter and the hold agree with the bundle
exactly if no failed close has left anything behind since a close was last completed. A submit that
closes the bundle for being full has as many items in it as the limit says exactly if no item was
left over when it was started, or if one item is enough for any bundle. -/
theorem whole_iff (id : String) (l : Limits) (fallbacks : List Fallback) (timer : Timer)
    (moves : List (Move α β)) :
    let w : World α β := (created id ⟨l.policy, fallbacks⟩ timer).run moves
    let n := Intake.after
      ((created id ⟨l.policy, fallbacks⟩ timer : World α β).trace moves)
    (w.Idle → w.coordinator.hasUnit = true →
        (w.coordinator.slot.Whole n.taken ↔
          2 ^ 64 ∣ n.left ∧ (w.coordinator.slot.isOpen = false → n.behind = none))) ∧
      ∀ (i : Nat) (x : α) (close : Close),
        w.calls[i]? = some (⟨.submit x, .finishing close⟩ : Call α β) →
        (n.taken = l.policy.maxItems.toNat ↔
          2 ^ 64 ∣ n.left ∨ l.policy.maxItems = 1 ∧ ¬ 2 ^ 64 ∣ n.left + 1) := by
  intro w n
  have hcreated := orderly_created (α := α) (β := β) id ⟨l.policy, fallbacks⟩ timer
  have hreaches : Reaches (created id ⟨l.policy, fallbacks⟩ timer) w _ := reaches_run hcreated moves
  have horderly := hreaches.orderly hcreated
  have hfills := hreaches.fills
  have hconduct := hreaches.conducts.conduct
  refine ⟨fun hidle hunit ↦ ?_, fun i x close hcall ↦ ?_⟩
  · have hacting : w.acting = (0, ⟨.start, .queued⟩) := by
      simp [acting, horderly.lock_of_idle hidle]
    rw [hacting] at hfills hconduct
    refine hfills.fill.whole_iff_dvd_left ?_
    simpa [Stage.operation?] using hconduct.bundle hunit
  · have hacting := horderly.acting_of_operation hcall (by rfl)
    rw [hacting] at hfills
    exact (hfills.full x close rfl rfl).taken_eq_iff l.maxItems_pos

/-- The close at the end of the input fails. -/
def failedEnd : List (Move Nat Nat) :=
  [.issue .start, .proceed 0 (.ok []), .issue (.submit 1), .proceed 1 (.ok []),
    .proceed 1 (.ok []), .issue .endInput, .proceed 2 (.error (.unit "finish_bundle" "injected"))]

/-- Another item is taken, and the counter is at two. -/
def refill : List (Move Nat Nat) :=
  failedEnd ++ [.issue (.submit 2), .proceed 3 (.ok []), .proceed 3 (.ok [])]

/-- A coordinator with two items to a bundle. -/
def small : World Nat Nat :=
  created "small" ⟨({ size := 2 } : Limits).policy, []⟩ { kind := .manual false, now := 0 }

theorem whole_iff_refill :
    (small.run failedEnd).Idle ∧ (small.run failedEnd).coordinator.hasUnit = true ∧
      ¬ (small.run failedEnd).coordinator.slot.Whole
        (Intake.after (small.trace failedEnd)).taken ∧
      (small.run refill).calls[3]? = some ⟨.submit 2, .finishing ⟨.itemCount, 2⟩⟩ ∧
      (Intake.after (small.trace refill)).taken ≠ 2 := by
  have hidle : (small.run failedEnd).Idle := by decide
  have hunit : (small.run failedEnd).coordinator.hasUnit = true := by decide
  have hcall : (small.run refill).calls[3]? =
      some ⟨.submit 2, .finishing ⟨.itemCount, 2⟩⟩ := by decide
  have hleft : (Intake.after (small.trace failedEnd)).left = 1 := by decide
  have hleft' : (Intake.after (small.trace refill)).left = 1 := by decide
  have hwhole := (whole_iff "small" { size := 2 } [] { kind := .manual false, now := 0 }
    failedEnd).1 hidle hunit
  have hfull := (whole_iff "small" { size := 2 } [] { kind := .manual false, now := 0 }
    refill).2 3 2 _ hcall
  refine ⟨hidle, hunit, fun h ↦ ?_, hcall, fun htaken ↦ ?_⟩
  · have hdvd : 2 ^ 64 ∣ (Intake.after (small.trace failedEnd)).left := (hwhole.mp h).1
    rw [hleft] at hdvd
    omega
  · have hdvd : 2 ^ 64 ∣ (Intake.after (small.trace refill)).left ∨ _ := hfull.mp htaken
    rw [hleft'] at hdvd
    rcases hdvd with hdvd | ⟨hone, -⟩
    · omega
    · cases hone

/-- The bundle is closed, and its item still counts. -/
theorem not_whole :
    ¬ ∀ moves : List (Move Nat Nat), (plain.run moves).Idle →
      (plain.run moves).coordinator.hasUnit = true →
        (plain.run moves).coordinator.slot.Whole (Intake.after (plain.trace moves)).taken := by
  intro h
  have hwhole := h failedEnd (by decide) (by decide)
  exact absurd (hwhole.1 (by decide)).1 (by decide)

end World

end Bundling
