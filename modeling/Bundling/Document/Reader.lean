/-!
Readers: functions that read something at the start of a text and give it with the rest, or give
nothing.
-/

set_option autoImplicit false
set_option relaxedAutoImplicit false

namespace Bundling

abbrev Reader (α : Type) := List Char → Option (α × List Char)

namespace Reader

/-- The text behind a word that it starts with. -/
def after? (word : String) (cs : List Char) : Option (List Char) :=
  if word.toList.isPrefixOf cs then some (cs.drop word.length) else none

/-- One or more characters of a kind. -/
def some? (p : Char → Bool) : Reader (List Char) := fun cs ↦
  match cs.takeWhile p with
  | [] => none
  | found => some (found, cs.dropWhile p)

/-- Exactly so many digits, as a number. -/
def fixed? (count : Nat) : Reader Nat := fun cs ↦
  let digits := cs.take count
  if digits.length = count ∧ digits.all Char.isDigit = true then
    some (Nat.ofDigitChars 10 digits 0, cs.drop count)
  else none

def hexDigit? (c : Char) : Option Nat :=
  if c.isDigit then some (c.toNat - '0'.toNat)
  else if 'a' ≤ c ∧ c ≤ 'f' then some (c.toNat - 'a'.toNat + 10)
  else if 'A' ≤ c ∧ c ≤ 'F' then some (c.toNat - 'A'.toNat + 10)
  else none

/-- The number that digits of a base up to sixteen stand for. -/
def radix? (base : Nat) (cs : List Char) : Option Nat :=
  cs.foldlM (fun n c ↦ ((hexDigit? c).filter (· < base)).map (n * base + ·)) 0

/-- Exactly so many hexadecimal digits, as a number. -/
def hex? (count : Nat) : Reader Nat := fun cs ↦
  let digits := cs.take count
  if digits.length = count then (radix? 16 digits).map fun n ↦ (n, cs.drop count) else none

/-- The character of a code point, if there is one. -/
def scalar? (n : Nat) : Option Char := if n.isValidChar then some (Char.ofNat n) else none

end Reader

end Bundling
