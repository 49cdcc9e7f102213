/-!
Binary floating-point numbers of 64 bits, as exact values: a finite one is a significand of at most
53 bits times a power of two. `ofRatio` rounds a quotient of natural numbers to the nearest such
value, a tie going to the even significand; products and quotients are rounded the same way.
-/

set_option autoImplicit false
set_option relaxedAutoImplicit false

namespace Bundling

inductive Binary64 where
  | finite (negative : Bool) (significand : Nat) (exponent : Int)
  | infinite (negative : Bool)
  | nan
  deriving DecidableEq, Inhabited

namespace Binary64

def minExponent : Int := -1074

/-- The quotient rounded to the nearest integer, a tie to the even one. -/
def roundHalfEven (num den : Nat) : Nat :=
  let q := num / den
  let r := num % den
  if 2 * r < den then q
  else if den < 2 * r then q + 1
  else q + q % 2

/-- `num / den` divided by `2 ^ e`, as numerator and denominator. -/
def unscale (num den : Nat) (e : Int) : Nat × Nat :=
  if 0 ≤ e then (num, den * Nat.pow 2 e.toNat) else (num * Nat.pow 2 (-e).toNat, den)

/-- The exponent at which a positive quotient has a significand of 53 bits, or the least one. -/
def exponentOf (num den : Nat) : Int :=
  let b : Int := (num.log2 : Int) - (den.log2 : Int)
  let (p, q) := unscale num den b
  max (if q ≤ p then b - 52 else b - 53) minExponent

def ofRatio (negative : Bool) (num den : Nat) : Binary64 :=
  if num = 0 then .finite negative 0 minExponent
  else
    let e := exponentOf num den
    let (p, q) := unscale num den e
    let m := roundHalfEven p q
    let (m, e) := if m = Nat.pow 2 53 then (Nat.pow 2 52, e + 1) else (m, e)
    if 971 < e then .infinite negative else .finite negative m e

def ofNat (n : Nat) : Binary64 := ofRatio false n 1

def zero : Binary64 := ofNat 0

def neg : Binary64 → Binary64
  | finite s m e => finite (!s) m e
  | infinite s => infinite (!s)
  | nan => nan

/-- A finite value as numerator and denominator. -/
def ratio (m : Nat) (e : Int) : Nat × Nat :=
  if 0 ≤ e then (m * Nat.pow 2 e.toNat, 1) else (m, Nat.pow 2 (-e).toNat)

/-- The product with a positive quotient of natural numbers, rounded. -/
def scale (x : Binary64) (num den : Nat) : Binary64 :=
  match x with
  | finite s m e =>
    let (p, q) := ratio m e
    ofRatio s (p * num) (q * den)
  | x => x

/-- The quotient of two numbers, each rounded to a double before they are divided. -/
def quotient (a b : Nat) : Binary64 :=
  match ofNat b with
  | finite _ m e =>
    let (p, q) := ratio m e
    (ofNat a).scale q p
  | _ => zero

/-- The nearest integer, a half going away from zero. -/
def nearest (m : Nat) (e : Int) : Nat :=
  if 0 ≤ e then m * Nat.pow 2 e.toNat else (m + Nat.pow 2 ((-e).toNat - 1)) / Nat.pow 2 (-e).toNat

/-- The nearest of the integers that 64 bits hold; not a number reads as zero. -/
def toInt64 : Binary64 → Int64
  | finite s m e =>
    let n : Int := if s then -(nearest m e : Int) else nearest m e
    if n ≤ Int64.minValue.toInt then Int64.minValue
    else if Int64.maxValue.toInt ≤ n then Int64.maxValue
    else Int64.ofInt n
  | infinite s => if s then Int64.minValue else Int64.maxValue
  | nan => 0

/-- The word that stores a number: sign, biased exponent, fraction. -/
def bits : Binary64 → UInt64
  | finite s m e =>
    let biased : Nat := if m < Nat.pow 2 52 then 0 else (e - minExponent + 1).toNat
    UInt64.ofNat ((if s then Nat.pow 2 63 else 0) + biased * Nat.pow 2 52 + m % Nat.pow 2 52)
  | infinite s => UInt64.ofNat ((if s then Nat.pow 2 63 else 0) + 2047 * Nat.pow 2 52)
  | nan => UInt64.ofNat (2047 * Nat.pow 2 52 + Nat.pow 2 51)

end Binary64

end Bundling
