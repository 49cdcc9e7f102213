import Mathlib.Data.List.Induction
import Bundling.Proofs.Recording

/-!
The book kept over accepted watermarks. Each is written down with the bundle that was in progress
when it was accepted. A watermark survives unless a later one was accepted in the same bundle; in a
run without failures the survivors are forwarded in order, except for one that is on its way out or
still held.
-/

set_option autoImplicit false
set_option relaxedAutoImplicit false

namespace Bundling

/-- A watermark that a call has accepted, and the number of the bundle then in progress. -/
structure Acceptance where
  watermark : Watermark
  bundle : Option Nat
  deriving DecidableEq

namespace Acceptance

/-- A later watermark of the same bundle takes the place of an earlier one. -/
def isReplacedBy (a b : Acceptance) : Bool := a.bundle.isSome && a.bundle == b.bundle

/-- The watermarks that no later one of their bundle has replaced. -/
def survivors : List Acceptance → List Watermark
  | [] => []
  | [a] => [a.watermark]
  | a :: b :: rest =>
    if a.isReplacedBy b then survivors (b :: rest) else a.watermark :: survivors (b :: rest)

theorem survivors_sublist (xs : List Acceptance) :
    (survivors xs).Sublist (xs.map (·.watermark)) := by
  induction xs with
  | nil => exact List.Sublist.slnil
  | cons a rest ih =>
    cases rest with
    | nil => exact List.Sublist.refl _
    | cons b rest =>
      unfold survivors
      split
      · exact ih.cons a.watermark
      · exact ih.cons_cons a.watermark

/-- The last watermark survives, and which others do depends on its bundle only. -/
theorem exists_survivors_snoc (xs : List Acceptance) (bundle : Option Nat) :
    ∃ kept, ∀ w, survivors (xs ++ [⟨w, bundle⟩]) = kept ++ [w] := by
  induction xs with
  | nil => exact ⟨[], fun w ↦ rfl⟩
  | cons a rest ih =>
    obtain ⟨kept, hkept⟩ := ih
    cases rest with
    | nil =>
      have hsame (w : Watermark) :
          a.isReplacedBy ⟨w, bundle⟩ = a.isReplacedBy ⟨a.watermark, bundle⟩ := rfl
      by_cases hreplaced : a.isReplacedBy ⟨a.watermark, bundle⟩ = true
      · exact ⟨[], fun w ↦ by simp [survivors, hsame w, hreplaced]⟩
      · exact ⟨[a.watermark], fun w ↦ by simp [survivors, hsame w, hreplaced]⟩
    | cons b rest =>
      by_cases hreplaced : a.isReplacedBy b = true
      · exact ⟨kept, fun w ↦ by simpa [survivors, hreplaced] using hkept w⟩
      · exact ⟨a.watermark :: kept, fun w ↦ by simpa [survivors, hreplaced] using hkept w⟩

theorem survivors_snoc_replaced (xs : List Acceptance) (v w : Watermark) (n : Nat) :
    survivors (xs ++ [⟨v, some n⟩] ++ [⟨w, some n⟩]) = survivors (xs ++ [⟨w, some n⟩]) := by
  induction xs with
  | nil => simp [survivors, isReplacedBy]
  | cons a rest ih =>
    cases rest with
    | nil => simp [survivors, isReplacedBy]
    | cons b rest => simp_all [survivors]

theorem survivors_snoc_of_not_replaced {xs : List Acceptance} {a : Acceptance}
    (h : ∀ b ∈ xs, b.isReplacedBy a = false) :
    survivors (xs ++ [a]) = survivors xs ++ [a.watermark] := by
  induction xs with
  | nil => rfl
  | cons b rest ih =>
    have hrest := ih fun b' hb' ↦ h b' (List.mem_cons_of_mem b hb')
    cases rest with
    | nil => simp [survivors, h b List.mem_cons_self]
    | cons b' rest =>
      simp only [List.cons_append, survivors] at hrest ⊢
      rw [hrest]
      split <;> rfl

end Acceptance

/-- How many bundles have been started, whether one is in progress, and what has been accepted. -/
structure Ledger where
  started : Nat := 0
  inBundle : Bool := false
  accepted : List Acceptance := []

namespace Ledger

variable {α β : Type}

def step (l : Ledger) : Event α β → Ledger
  | .asked _ .finishBundle => { l with inBundle := false }
  | .answered _ .startBundle (.ok _) => { l with started := l.started + 1, inBundle := true }
  | .replied _ (.watermark w) .done =>
    { l with accepted := l.accepted ++ [⟨w, if l.inBundle then some l.started else none⟩] }
  | _ => l

/-- The ledger after a history. -/
def after (h : History α β) : Ledger := h.foldl step {}

theorem after_snoc (h : History α β) (e : Event α β) : after (h ++ [e]) = (after h).step e :=
  List.foldl_append

/-- The ledger agrees with what has been forwarded, what is being released and what is held. -/
structure Tallies (l : Ledger) (forwarded : List Watermark) (outgoing held : Option Watermark)
    (closing : Bool) : Prop where
  balance : forwarded ++ outgoing.toList ++ held.toList = Acceptance.survivors l.accepted
  terminal : ∀ v, held = some v → v.isTerminal = false
  latest : ∀ v, held = some v → (∃ earlier, l.accepted = earlier ++ [⟨v, some l.started⟩]) ∧
    (l.inBundle = true ∨ closing = true)
  fresh : l.inBundle = true → held = none → ∀ a ∈ l.accepted, a.bundle ≠ some l.started
  bound : ∀ a ∈ l.accepted, ∀ n, a.bundle = some n → n ≤ l.started

variable {l : Ledger} {forwarded : List Watermark} {outgoing held : Option Watermark}
  {closing : Bool} {w : Watermark}

theorem Tallies.held_eq_none (h : Tallies l forwarded outgoing held false)
    (hbundle : l.inBundle = false) : held = none := by
  cases hheld : held with
  | none => rfl
  | some v =>
    rcases (h.latest v hheld).2 with hin | hclosing
    · exact absurd (hbundle.symm.trans hin) (by simp)
    · cases hclosing

theorem Tallies.of_held_eq_none (h : Tallies l forwarded outgoing none closing)
    (closing' : Bool) : Tallies l forwarded outgoing none closing' :=
  ⟨h.balance, h.terminal, fun v hv ↦ (by cases hv), h.fresh, h.bound⟩

theorem Tallies.starts (h : Tallies l forwarded outgoing none closing) :
    Tallies { l with started := l.started + 1, inBundle := true } forwarded outgoing none
      closing where
  balance := h.balance
  terminal := h.terminal
  latest := fun v hv ↦ by cases hv
  fresh := fun _ _ a ha hnow ↦ absurd (h.bound a ha _ hnow) (by simp)
  bound := fun a ha n hn ↦ Nat.le_succ_of_le (h.bound a ha n hn)

theorem Tallies.closes (h : Tallies l forwarded outgoing held closing) :
    Tallies { l with inBundle := false } forwarded outgoing held true where
  balance := h.balance
  terminal := h.terminal
  latest := fun v hv ↦ ⟨(h.latest v hv).1, .inr rfl⟩
  fresh := fun hin ↦ by cases hin
  bound := h.bound

/-- A watermark that is accepted in a bundle is held, in place of one that is held already. -/
theorem Tallies.holds (h : Tallies l forwarded none held false) (hbundle : l.inBundle = true)
    (hterminal : w.isTerminal = false) :
    Tallies { l with accepted := l.accepted ++ [⟨w, some l.started⟩] } forwarded none (some w)
      false where
  balance := by
    have hbalance := h.balance
    cases hheld : held with
    | none =>
      rw [Acceptance.survivors_snoc_of_not_replaced, ← hbalance, hheld]
      · simp
      · intro a ha
        have hother := h.fresh hbundle hheld a ha
        simp [Acceptance.isReplacedBy, hother]
    | some v =>
      obtain ⟨earlier, haccepted⟩ := (h.latest v hheld).1
      obtain ⟨kept, hkept⟩ := Acceptance.exists_survivors_snoc earlier (some l.started)
      rw [haccepted, Acceptance.survivors_snoc_replaced, hkept]
      rw [hheld, haccepted, hkept] at hbalance
      have hforwarded : forwarded = kept := by simpa using hbalance
      simp [hforwarded]
  terminal := fun v hv ↦ Option.some.inj hv ▸ hterminal
  latest := fun v hv ↦ ⟨⟨l.accepted, by rw [Option.some.inj hv]⟩, .inl hbundle⟩
  fresh := fun _ hv ↦ by cases hv
  bound := by
    intro a ha n hn
    rcases List.mem_append.mp ha with ha | ha
    · exact h.bound a ha n hn
    · rw [List.mem_singleton.mp ha] at hn
      exact Nat.le_of_eq (Option.some.inj hn).symm

/-- A watermark that is accepted outside a bundle has been forwarded. -/
theorem Tallies.forwards (h : Tallies l forwarded none none closing)
    (hbundle : l.inBundle = false) :
    Tallies { l with accepted := l.accepted ++ [⟨w, none⟩] } (forwarded ++ [w]) none none
      closing where
  balance := by
    have hbalance := h.balance
    rw [Acceptance.survivors_snoc_of_not_replaced, ← hbalance]
    · simp
    · intro a _
      cases hbundle' : a.bundle <;> simp [Acceptance.isReplacedBy, hbundle']
  terminal := fun v hv ↦ by cases hv
  latest := fun v hv ↦ by cases hv
  fresh := fun hin ↦ absurd (hbundle.symm.trans hin) (by simp)
  bound := by
    intro a ha n hn
    rcases List.mem_append.mp ha with ha | ha
    · exact h.bound a ha n hn
    · rw [List.mem_singleton.mp ha] at hn
      cases hn

/-- The held watermark leaves the slot once its bundle is closed. -/
theorem Tallies.lets (h : Tallies l forwarded none (some w) closing)
    (hbundle : l.inBundle = false) : Tallies l forwarded (some w) none false where
  balance := by simpa using h.balance
  terminal := fun v hv ↦ by cases hv
  latest := fun v hv ↦ by cases hv
  fresh := fun hin ↦ absurd (hbundle.symm.trans hin) (by simp)
  bound := h.bound

theorem Tallies.released (h : Tallies l forwarded (some w) none closing) :
    Tallies l (forwarded ++ [w]) none none closing where
  balance := by simpa using h.balance
  terminal := h.terminal
  latest := h.latest
  fresh := h.fresh
  bound := h.bound

end Ledger

end Bundling
