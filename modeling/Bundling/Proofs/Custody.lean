import Mathlib.Data.List.Perm.Basic
import Bundling.Proofs.Dealings
import Bundling.Proofs.Serial

/-!
Where accepted watermarks are kept. A watermark is accepted into the slot or after it has been
forwarded; it leaves the slot for a later one, or to be forwarded behind its bundle. All that have
been accepted are accounted for, one by one, and those whose way out of the slot has failed are lost.
-/

set_option autoImplicit false
set_option relaxedAutoImplicit false

namespace Bundling

namespace Dealing

/-- An accepted watermark, with the call that brought it. -/
def accepted? : Dealing → Option (Nat × Watermark)
  | held i w | passed i w => some (i, w)
  | _ => none

def forwarded? : Dealing → Option Watermark
  | forwarded w | released w => some w
  | _ => none

def dropped? : Dealing → Option Watermark
  | dropped w => some w
  | _ => none

end Dealing

/-- What has become of the watermarks of a run, each with the call that brought it. -/
structure Custody where
  holding : Option (Nat × Watermark) := none
  /-- On its way out of the slot. -/
  leaving : Option (Nat × Watermark) := none
  forwarded : List (Nat × Watermark) := []
  /-- Left the slot for a later one. -/
  replaced : List (Nat × Watermark) := []
  /-- Left the slot, and could not be forwarded. -/
  dropped : List (Nat × Watermark) := []

namespace Custody

def step (c : Custody) : Dealing → Custody
  | .held i w => { c with replaced := c.replaced ++ c.holding.toList, holding := some (i, w) }
  | .passed i w => { c with forwarded := c.forwarded ++ [(i, w)] }
  | .takenOut _ => { c with leaving := c.holding, holding := none }
  | .released _ => { c with forwarded := c.forwarded ++ c.leaving.toList, leaving := none }
  | .dropped _ => { c with dropped := c.dropped ++ c.leaving.toList, leaving := none }
  | _ => c

def after (ds : List Dealing) : Custody := ds.foldl step {}

theorem after_append (ds new : List Dealing) : after (ds ++ new) = new.foldl step (after ds) :=
  List.foldl_append

/-- The watermark has been forwarded, has been replaced or is held. -/
def Kept (c : Custody) (p : Nat × Watermark) : Prop :=
  p ∈ c.forwarded ∨ p ∈ c.replaced ∨ c.holding = some p

instance (c : Custody) (p : Nat × Watermark) : Decidable (c.Kept p) :=
  inferInstanceAs (Decidable (_ ∨ _ ∨ _))

/-- All that there is of the accepted watermarks. -/
def all (c : Custody) : List (Nat × Watermark) :=
  c.forwarded ++ c.replaced ++ c.dropped ++ c.leaving.toList ++ c.holding.toList

/-- What is kept moves within the custody, and what a dealing accepts comes in. -/
theorem all_step (c : Custody) (d : Dealing) (h : ∀ w, d = .takenOut w → c.leaving = none) :
    (c.step d).all.Perm (c.all ++ [d].filterMap Dealing.accepted?) := by
  rw [List.perm_iff_count]
  intro p
  cases d with
  | takenOut w => simp [all, step, List.filterMap_cons, Dealing.accepted?, h w rfl]
  | _ =>
    simp only [all, step, Dealing.accepted?, List.filterMap_cons, List.filterMap_nil,
      List.count_append, Option.toList_none, Option.toList_some, List.count_nil]
    omega

/-- Of distinct watermarks, what is kept has not been dropped. -/
theorem kept_iff_of_nodup {c : Custody} {p : Nat × Watermark} (hnodup : c.all.Nodup)
    (hleaving : c.leaving = none) (hp : p ∈ c.all) : c.Kept p ↔ p ∉ c.dropped := by
  simp only [all, hleaving, Option.toList_none, List.append_nil, List.mem_append,
    Option.mem_toList] at hnodup hp
  constructor
  · intro hkept hlost
    rw [List.nodup_append, List.nodup_append] at hnodup
    obtain ⟨⟨-, -, hbefore⟩, -, hafter⟩ := hnodup
    rcases hkept with h | h | h
    · exact hbefore p (List.mem_append_left _ h) p hlost rfl
    · exact hbefore p (List.mem_append_right _ h) p hlost rfl
    · exact hafter p (List.mem_append_right _ hlost) p (Option.mem_toList.mpr h) rfl
  · intro hlost
    rcases hp with ((h | h) | h) | h
    · exact .inl h
    · exact .inr (.inl h)
    · exact absurd h hlost
    · exact .inr (.inr h)

end Custody

namespace Holdings

open Custody Dealing

variable {b : Holdings} {ds : List Dealing}

theorem Deals.holding (h : Deals b ds) : (after ds).holding.map Prod.snd = b.held := by
  induction h with
  | start => rfl
  | shift _ hshift ih =>
    rw [after_append]
    cases hshift with
    | holds | lets => rfl
    | _ => exact ih

theorem Deals.leaving (h : Deals b ds) : (after ds).leaving.map Prod.snd = b.outgoing := by
  induction h with
  | start => rfl
  | shift hbefore hshift ih =>
    rw [after_append]
    cases hshift with
    | lets t results w hheld => exact hbefore.holding.trans hheld
    | releases | drops => rfl
    | _ => exact ih

theorem Deals.forwarded (h : Deals b ds) :
    (after ds).forwarded.map Prod.snd = ds.filterMap forwarded? := by
  induction h with
  | start => rfl
  | shift hbefore hshift ih =>
    rw [after_append]
    cases hshift with
    | releases w hout =>
      have hleaving := hbefore.leaving.trans hout
      obtain ⟨p, hp, rfl⟩ := Option.map_eq_some_iff.mp hleaving
      simp [step, hp, ih, forwarded?]
    | _ => simp [step, ih, forwarded?]

theorem Deals.dropped (h : Deals b ds) :
    (after ds).dropped.map Prod.snd = ds.filterMap dropped? := by
  induction h with
  | start => rfl
  | shift hbefore hshift ih =>
    rw [after_append]
    cases hshift with
    | drops w hout =>
      have hleaving := hbefore.leaving.trans hout
      obtain ⟨p, hp, rfl⟩ := Option.map_eq_some_iff.mp hleaving
      simp [step, hp, ih, dropped?]
    | _ => simp [step, ih, dropped?]

/-- A watermark that is replaced is counted as superseded. -/
theorem Deals.replaced (h : Deals b ds) :
    b.tally.watermarksSuperseded = .ofNat (after ds).replaced.length := by
  induction h with
  | start => rfl
  | shift hbefore hshift ih =>
    rw [after_append]
    cases hshift with
    | holds i w =>
      have hholding := hbefore.holding
      cases hkept : (after _).holding <;> rw [hkept] at hholding <;>
        simp [← hholding, step, hkept, ih, Tally.watermarkHeld]
    | _ => simp [step, ih, Tally.bundleStarted, Tally.itemProcessed, Tally.bundleFinished,
        Tally.watermarkForwarded]

/-- Nothing that has been accepted is missing from the custody, and nothing else is in it. -/
theorem Deals.all (h : Deals b ds) : (ds.filterMap accepted?).Perm (after ds).all := by
  induction h with
  | start => exact .nil
  | shift hbefore hshift ih =>
    rw [after_append, List.filterMap_append]
    refine (ih.append_right _).trans (.symm ?_)
    have hleaving := hbefore.leaving
    cases hshift with
    | nothing => simp
    | lets t results w hheld hout =>
      rw [hout, Option.map_eq_none_iff] at hleaving
      exact all_step _ (.takenOut w) fun _ _ ↦ hleaving
    | forwards i w => exact all_step _ (.passed i w) nofun
    | starts | takes | closes | holds | releases | drops =>
      rw [List.foldl_cons, List.foldl_nil]
      exact all_step _ _ nofun

/-- Where calls accept watermarks in order, each one that is replaced is replaced by a later one. -/
theorem Deals.replaced_lt (h : Deals b ds)
    (horder : (ds.filterMap accepted?).Pairwise fun p p' ↦ p.1 < p'.1) :
    ∀ p ∈ (after ds).replaced, ∃ later ∈ ds.filterMap accepted?, p.1 < later.1 := by
  induction h with
  | start => simp [after]
  | @shift b b' ds new hbefore hshift ih =>
    rw [List.filterMap_append] at horder ⊢
    obtain ⟨hdealt, -, hnew⟩ := List.pairwise_append.mp horder
    have hold (p : Nat × Watermark) (hp : p ∈ (after ds).replaced) :
        ∃ later ∈ ds.filterMap accepted? ++ new.filterMap accepted?, p.1 < later.1 := by
      obtain ⟨later, hlater, hlt⟩ := ih hdealt p hp
      exact ⟨later, List.mem_append_left _ hlater, hlt⟩
    rw [after_append]
    cases hshift with
    | holds i w =>
      intro p hp
      rcases List.mem_append.mp hp with hp | hp
      · exact hold p hp
      · have hheld : p ∈ ds.filterMap accepted? :=
          hbefore.all.mem_iff.mpr (by simp [Custody.all, Option.mem_toList.mp hp])
        have hcoming : (i, w) ∈ [Dealing.held i w].filterMap accepted? := List.mem_singleton.mpr rfl
        exact ⟨(i, w), List.mem_append_right _ hcoming, hnew p hheld _ hcoming⟩
    | _ => exact hold

end Holdings

namespace History

open Dealing

variable {α β : Type} {t : History α β}

theorem filterMap_dealings {γ : Type} {f : Dealing → Option γ} {g : Event α β → Option γ}
    (hone : ∀ h e, (dealing? h e).bind f = g e) (t : History α β) :
    (dealings t).filterMap f = t.filterMap g := by
  induction t using List.reverseRecOn with
  | nil => rfl
  | append_singleton h e ih =>
    rw [dealings_snoc, List.filterMap_append, List.filterMap_append, ih, List.filterMap_cons,
      ← hone h e]
    cases dealing? h e <;> simp [List.filterMap_cons]

theorem mem_dealings {d : Dealing} :
    d ∈ dealings t ↔ ∃ past e rest, t = past ++ e :: rest ∧ dealing? past e = some d := by
  induction t using List.reverseRecOn with
  | nil => simp [dealings, dealingsAfter]
  | append_singleton h e ih =>
    rw [dealings_snoc, List.mem_append, ih, Option.mem_toList]
    constructor
    · rintro (⟨past, e', rest, rfl, hd⟩ | hd)
      · exact ⟨past, e', rest ++ [e], by simp, hd⟩
      · exact ⟨h, e, [], rfl, hd⟩
    · rintro ⟨past, e', rest, heq, hd⟩
      rcases List.eq_nil_or_concat rest with rfl | ⟨rest, last, rfl⟩
      · obtain ⟨rfl, hlast⟩ := List.append_inj' heq rfl
        cases hlast
        exact .inr hd
      · rw [List.concat_eq_append, ← List.cons_append, ← List.append_assoc] at heq
        exact .inl ⟨past, e', rest, (List.append_inj' heq rfl).1, hd⟩

/-- A watermark that has been forwarded. -/
def forwarded? : Event α β → Option Watermark
  | .answered _ (.forward w) (.ok _) => some w
  | _ => none

/-- A watermark that was held could not be forwarded. -/
def Drops (t : History α β) (w : Watermark) : Prop :=
  ∃ past i f rest, t = past ++ Event.answered i (.forward w) (.error f) :: rest ∧
    brings past i w = false

theorem dealing?_eq_dropped {h : History α β} {e : Event α β} {w : Watermark} :
    dealing? h e = some (dropped w) ↔
      ∃ i f, e = .answered i (.forward w) (.error f) ∧ brings h i w = false := by
  constructor
  · intro hd
    fun_cases dealing? h e
    case case11 i v f hbrings =>
      obtain rfl : v = w := by simpa [dealing?, hbrings] using hd
      exact ⟨i, f, rfl, by simpa using hbrings⟩
    all_goals grind [dealing?, Option.map_eq_some_iff]
  · rintro ⟨i, f, rfl, hbrings⟩
    simp [dealing?, hbrings]

theorem accepted_dealings (t : History α β) :
    (dealings t).filterMap Dealing.accepted? = accepted t := by
  refine filterMap_dealings (fun h e ↦ ?_) t
  fun_cases dealing? h e <;> simp_all [Dealing.accepted?, accepted?]
  all_goals split_ifs <;> rfl

theorem forwarded_dealings (t : History α β) :
    (dealings t).filterMap Dealing.forwarded? = t.filterMap forwarded? := by
  refine filterMap_dealings (fun h e ↦ ?_) t
  fun_cases dealing? h e <;> simp_all [Dealing.forwarded?, forwarded?]
  all_goals split_ifs <;> rfl

theorem dropped_mem_dealings {w : Watermark} : dropped w ∈ dealings t ↔ Drops t w := by
  rw [mem_dealings]
  constructor
  · rintro ⟨past, e, rest, rfl, hd⟩
    obtain ⟨i, f, rfl, hbrings⟩ := dealing?_eq_dropped.mp hd
    exact ⟨past, i, f, rest, rfl, hbrings⟩
  · rintro ⟨past, i, f, rest, rfl, hbrings⟩
    exact ⟨past, _, rest, rfl, dealing?_eq_dropped.mpr ⟨i, f, rfl, hbrings⟩⟩

end History

namespace World

open History

variable {α β : Type}

/-- With no call in flight, every accepted watermark has been forwarded, has been replaced by a later
one or is held, unless it was taken out of the slot and could not be forwarded then; so none is lost
exactly if no held watermark has met with a failure on its way out. -/
theorem kept_iff_not_dropped (id : String) (checked : Checked) (timer : Timer)
    (moves : List (Move α β)) :
    let w : World α β := (created id checked timer).run moves
    let t := (created id checked timer : World α β).trace moves
    let c := Custody.after (dealings t)
    w.Idle →
      c.holding.map Prod.snd = w.coordinator.slot.held ∧
        c.forwarded.map Prod.snd = t.filterMap forwarded? ∧
        w.coordinator.tally.watermarksSuperseded = .ofNat c.replaced.length ∧
        (∀ p ∈ c.replaced, ∃ later ∈ accepted t, p.1 < later.1) ∧
        (∀ v, v ∈ c.dropped.map Prod.snd ↔ Drops t v) ∧
        (∀ p ∈ accepted t, c.Kept p ↔ p ∉ c.dropped) ∧
        ((∀ p ∈ accepted t, c.Kept p) ↔ ∀ v, ¬ Drops t v) := by
  intro w t c hidle
  have hcreated := orderly_created (α := α) (β := β) id checked timer
  have hreaches : Reaches (created id checked timer) w t := reaches_run hcreated moves
  have hdeals := hreaches.deals
  have horder := hreaches.arrives.order
  have houtgoing : w.holdings.outgoing = none := by
    have hacting : w.acting = (0, ⟨.start, .queued⟩) := by
      simp [acting, (hreaches.orderly hcreated).lock_of_idle hidle]
    simp [holdings, Coordinator.holdings, hacting, Stage.outgoing]
  have hleaving : c.leaving = none := by
    rw [← Option.map_eq_none_iff, hdeals.leaving, houtgoing]
  have hall : (accepted t).Perm c.all := accepted_dealings t ▸ hdeals.all
  have hdropped (v : Watermark) : v ∈ c.dropped.map Prod.snd ↔ Drops t v := by
    rw [hdeals.dropped, ← dropped_mem_dealings, List.mem_filterMap]
    constructor
    · rintro ⟨d, hd, hv⟩
      cases d <;> cases hv
      exact hd
    · exact fun hd ↦ ⟨_, hd, rfl⟩
  have hkept (p : Nat × Watermark) (hp : p ∈ accepted t) : c.Kept p ↔ p ∉ c.dropped := by
    have hnodup : c.all.Nodup :=
      hall.nodup_iff.mp (horder.imp fun {p p'} hlt heq ↦ absurd hlt (by simp [heq]))
    exact c.kept_iff_of_nodup hnodup hleaving (hall.mem_iff.mp hp)
  refine ⟨hdeals.holding, ?_, hdeals.replaced, ?_, hdropped, hkept, fun hnone v hdrops ↦ ?_,
    fun hnone p hp ↦ ?_⟩
  · rw [← forwarded_dealings]
    exact hdeals.forwarded
  · rw [← accepted_dealings] at horder ⊢
    exact hdeals.replaced_lt horder
  · obtain ⟨p, hlost, rfl⟩ := List.mem_map.mp ((hdropped v).mpr hdrops)
    have hp : p ∈ accepted t := hall.mem_iff.mpr (by simp [Custody.all, hlost])
    exact (hkept p hp).mp (hnone p hp) hlost
  · refine (hkept p hp).mpr fun hlost ↦ ?_
    exact hnone p.2 ((hdropped p.2).mp (List.mem_map_of_mem hlost))

/-- The watermark that could not be forwarded is not kept. -/
theorem dropped_releaseRefused :
    (plain.run releaseRefused).Idle ∧ accepted (plain.trace releaseRefused) = [(2, ⟨5⟩)] ∧
      (plain.run releaseRefused).coordinator.slot.held = none ∧
      ¬ (Custody.after (dealings (plain.trace releaseRefused))).Kept (2, ⟨5⟩) ∧
      ∃ v, Drops (plain.trace releaseRefused) v := by
  have hidle : (plain.run releaseRefused).Idle := by decide
  have haccepted : accepted (plain.trace releaseRefused) = [(2, ⟨5⟩)] := by decide
  have hlost : ¬ (Custody.after (dealings (plain.trace releaseRefused))).Kept (2, ⟨5⟩) := by decide
  obtain ⟨hheld, -, -, -, -, -, hall⟩ := kept_iff_not_dropped "plain" (Limits.check {})
    { kind := .manual false, now := 0 } releaseRefused hidle
  refine ⟨hidle, haccepted, hheld.symm.trans (by decide), hlost, ?_⟩
  by_contra hnone
  have hmem : (2, ⟨5⟩) ∈ accepted (plain.trace releaseRefused) := by
    rw [haccepted]
    exact List.mem_singleton.mpr rfl
  exact hlost (hall.mpr (fun v hv ↦ hnone ⟨v, hv⟩) (2, ⟨5⟩) hmem)

/-- No operation has failed but those of the sink. -/
def sinkFailsOnly (t : History Nat Nat) : Bool :=
  t.all fun
    | .answered _ (.emit _) _ | .answered _ (.forward _) _ => true
    | .answered _ _ a => a.isOk
    | _ => true

theorem not_kept :
    ¬ ∀ moves : List (Move Nat Nat), sinkFailsOnly (plain.trace moves) → (plain.run moves).Idle →
      ∀ p ∈ accepted (plain.trace moves), (Custody.after (dealings (plain.trace moves))).Kept p := by
  intro h
  have hkept := h releaseRefused (by decide) (by decide) (2, ⟨5⟩) (by decide)
  exact absurd hkept (by decide)

end World

end Bundling
