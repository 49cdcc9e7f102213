/-!
Decimal text of integers. An integer is written with its digits and, below zero, a minus sign. It is
read from an optional single sign and one or more digits, so each integer has one written form and
several that are read. `toInt64?` reads the same language and refuses what 64 bits cannot hold.
-/

set_option autoImplicit false
set_option relaxedAutoImplicit false

namespace Bundling.Decimal

/-- The digits of a natural number, most significant first. -/
def ofNat (n : Nat) : List Char := Nat.toDigits 10 n

def ofInt (n : Int) : List Char :=
  if n < 0 then '-' :: ofNat n.natAbs else ofNat n.natAbs

/-- The number that a run of one or more digits stands for. -/
def toNat? (cs : List Char) : Option Nat :=
  if cs ≠ [] ∧ cs.all Char.isDigit = true then some (Nat.ofDigitChars 10 cs 0) else none

def toInt? : List Char → Option Int
  | '-' :: cs => (toNat? cs).map fun (n : Nat) ↦ -(n : Int)
  | '+' :: cs => (toNat? cs).map fun (n : Nat) ↦ (n : Int)
  | cs => (toNat? cs).map fun (n : Nat) ↦ (n : Int)

/-- The 64-bit word of an integer that 64 bits hold. -/
def fit? (n : Int) : Option Int64 :=
  if Int64.minValue.toInt ≤ n ∧ n ≤ Int64.maxValue.toInt then some (Int64.ofInt n) else none

def toInt64? (cs : List Char) : Option Int64 := (toInt? cs).bind fit?

def text (n : Int) : String := String.ofList (ofInt n)

theorem ofNat_ne_nil (n : Nat) : ofNat n ≠ [] := by
  intro h
  have hlen := congrArg List.length h
  simp [ofNat] at hlen

theorem all_isDigit_ofNat (n : Nat) : (ofNat n).all Char.isDigit = true := by
  rw [List.all_eq_true]
  intro c hc
  exact Nat.isDigit_of_mem_toDigits (by decide) (by decide) hc

@[simp] theorem toNat?_ofNat (n : Nat) : toNat? (ofNat n) = some n := by
  have hvalue : Nat.ofDigitChars 10 (ofNat n) 0 = n :=
    Nat.ofDigitChars_toDigits (by decide) (by decide)
  simp [toNat?, ofNat_ne_nil, all_isDigit_ofNat, hvalue]

theorem toInt?_of_all_isDigit {cs : List Char} (h : cs.all Char.isDigit = true) :
    toInt? cs = (toNat? cs).map fun (n : Nat) ↦ (n : Int) := by
  unfold toInt?
  split
  · simp at h
  · simp at h
  · rfl

@[simp] theorem toInt?_ofInt (n : Int) : toInt? (ofInt n) = some n := by
  by_cases h : n < 0
  · have hneg : -((n.natAbs : Nat) : Int) = n := by omega
    rw [ofInt, if_pos h, toInt?, toNat?_ofNat, Option.map_some, hneg]
  · have hpos : ((n.natAbs : Nat) : Int) = n := by omega
    rw [ofInt, if_neg h, toInt?_of_all_isDigit (all_isDigit_ofNat _), toNat?_ofNat, Option.map_some,
      hpos]

@[simp] theorem fit?_toInt (n : Int64) : fit? n.toInt = some n := by
  have hlow := Int64.le_toInt n
  have hhigh := Int64.toInt_le n
  have hmin : Int64.minValue.toInt = -2 ^ 63 := rfl
  have hmax : Int64.maxValue.toInt = 2 ^ 63 - 1 := rfl
  unfold fit?
  rw [if_pos (by omega)]
  simp

@[simp] theorem toInt64?_ofInt (n : Int64) : toInt64? (ofInt n.toInt) = some n := by
  simp [toInt64?]

end Bundling.Decimal
