import Bundling.Binary64.Basic
import Bundling.Text.Decimal

/-!
Decimal text of doubles. `ofText?` reads an optional sign, digits with an optional point and an
optional power of ten, or one of the names of infinity and of not a number; the value is the double
nearest to the number written. `shortest` finds the fewest digits that read back as a given double,
and of those the nearest to it.
-/

set_option autoImplicit false
set_option relaxedAutoImplicit false

namespace Bundling.Binary64

/-- The double nearest to `digits * 10 ^ power`. A power so far out that the digits cannot matter is
answered without writing the number out. -/
def ofDecimal (negative : Bool) (digits : Nat) (power : Int) : Binary64 :=
  if digits = 0 then .finite negative 0 minExponent
  else if 400 < power then .infinite negative
  else if power + (digits.log2 : Int) < -1200 then .finite negative 0 minExponent
  else if 0 ≤ power then ofRatio negative (digits * Nat.pow 10 power.toNat) 1
  else ofRatio negative digits (Nat.pow 10 (-power).toNat)

def spanDigits (cs : List Char) : List Char × List Char := cs.span Char.isDigit

/-- A power of ten after an `e`, with nothing behind it. -/
def exponent? (cs : List Char) : Option Int :=
  match cs with
  | [] => some 0
  | c :: cs => if c.toLower = 'e' then Decimal.toInt? cs else none

/-- Digits, perhaps with a point among them, then perhaps a power of ten. -/
def unsigned? (negative : Bool) (cs : List Char) : Option Binary64 := do
  let (whole, rest) := spanDigits cs
  let (part, rest) := match rest with
    | '.' :: rest => spanDigits rest
    | rest => ([], rest)
  if whole = [] ∧ part = [] then none
  let power ← exponent? rest
  some (ofDecimal negative (Nat.ofDigitChars 10 (whole ++ part) 0) (power - part.length))

def named? (negative : Bool) (cs : List Char) : Option Binary64 :=
  let word := cs.map Char.toLower
  if word = "inf".toList ∨ word = "infinity".toList then some (.infinite negative)
  else if word = "nan".toList then some .nan
  else none

def magnitude? (negative : Bool) (cs : List Char) : Option Binary64 :=
  (named? negative cs).or (unsigned? negative cs)

def ofText? : List Char → Option Binary64
  | '-' :: cs => magnitude? true cs
  | '+' :: cs => magnitude? false cs
  | cs => magnitude? false cs

/-- Whether `digits * 10 ^ power` reads as the positive double `m * 2 ^ e`. -/
def readsBack (m : Nat) (e : Int) (digits : Nat) (power : Int) : Bool :=
  ofDecimal false digits power == .finite false m e

/-- The two neighbours of a positive quotient on the grid of `10 ^ power`, nearest first. -/
def gridNeighbours (num den : Nat) (power : Int) : List Nat :=
  let (p, q) := if 0 ≤ power then (num, den * Nat.pow 10 power.toNat)
    else (num * Nat.pow 10 (-power).toNat, den)
  let low := p / q
  if 2 * (p % q) ≤ q then [low, low + 1] else [low + 1, low]

/-- The power of ten of the first digit of a positive quotient. -/
def leadingPower (num den : Nat) : Int :=
  if den ≤ num then ((Nat.toDigits 10 (num / den)).length : Int) - 1
  else
    let places := (Nat.toDigits 10 ((den + num - 1) / num)).length
    if den ≤ num * Nat.pow 10 (places - 1) then -((places : Int) - 1) else -(places : Int)

/-- Digits and power of ten of the shortest decimal that reads back as `m * 2 ^ e`, tried with
`left` more digits at most. -/
def shortestFrom (m : Nat) (e : Int) (num den : Nat) (lead : Int) : Nat → Nat → Nat × Int
  | 0, _ => (m, 0)
  | left + 1, places =>
    let power := lead + 1 - places
    match (gridNeighbours num den power).find? (readsBack m e · power) with
    | some digits => (digits, power)
    | none => shortestFrom m e num den lead left (places + 1)

def shortest (m : Nat) (e : Int) : Nat × Int :=
  let (num, den) := ratio m e
  shortestFrom m e num den (leadingPower num den) 18 1

/-- `digits * 10 ^ power` without zeros at the end of the digits. -/
def strip (digits : List Char) (power : Int) : List Char × Int :=
  let kept := (digits.reverse.dropWhile (· == '0')).reverse
  (kept, power + (digits.length - kept.length : Nat))

/-- Data text of a finite double: positional with at least one place up to sixteen digits before the
point or four zeros behind it, with a power of ten beyond. -/
def dataText (negative : Bool) (m : Nat) (e : Int) : List Char :=
  let sign := if negative then ['-'] else []
  if m = 0 then sign ++ ['0', '.', '0']
  else
    let (found, power) := shortest m e
    let (digits, power) := strip (Decimal.ofNat found) power
    let point : Int := digits.length + power
    sign ++
      if 0 ≤ power ∧ point ≤ 16 then
        digits ++ List.replicate power.toNat '0' ++ ['.', '0']
      else if 0 < point ∧ point ≤ 16 then
        digits.take point.toNat ++ '.' :: digits.drop point.toNat
      else if -5 < point ∧ point ≤ 0 then
        '0' :: '.' :: List.replicate (-point).toNat '0' ++ digits
      else
        let tail := 'e' :: Decimal.ofInt (point - 1)
        match digits with
        | [d] => d :: tail
        | d :: ds => d :: '.' :: ds ++ tail
        | [] => tail

end Bundling.Binary64
