import Bundling.Document.Json

/-!
Writing JSON values: on one line without blanks, or over several lines with two blanks for each
level of nesting. Both print the same tokens in the same order.
-/

set_option autoImplicit false
set_option relaxedAutoImplicit false

namespace Bundling.Json

namespace Numeral

def ofInt (n : Int) : Numeral := ⟨decide (n < 0), Decimal.ofNat n.natAbs, none, none⟩

def partText : Option (List Char) → List Char
  | none => []
  | some digits => '.' :: digits

def powerText : Option (Bool × List Char) → List Char
  | none => []
  | some (down, digits) => 'e' :: (if down then ['-'] else []) ++ digits

def text (n : Numeral) : List Char :=
  (if n.negative then ['-'] else []) ++ n.whole ++ partText n.part ++ powerText n.power

end Numeral

def integer (n : Int) : Json := .number (.ofInt n)

def scalarText : Json → List Char
  | .null => "null".toList
  | .flag b => (if b then "true" else "false").toList
  | .number n => n.text
  | .text s => (quoted s).toList
  | _ => []

def keyText (key : String) : List Char := (quoted key).toList ++ [':']

mutual

def compactText : Json → List Char
  | .list items => '[' :: compactItems items ++ [']']
  | .object members => '\x7b' :: compactMembers members ++ ['\x7d']
  | .null => scalarText .null
  | .flag b => scalarText (.flag b)
  | .number n => scalarText (.number n)
  | .text s => scalarText (.text s)

def compactItems : List Json → List Char
  | [] => []
  | [x] => compactText x
  | x :: y :: rest => compactText x ++ ',' :: compactItems (y :: rest)

def compactMembers : List (String × Json) → List Char
  | [] => []
  | [(key, x)] => keyText key ++ compactText x
  | (key, x) :: y :: rest => keyText key ++ compactText x ++ ',' :: compactMembers (y :: rest)

end

/-- A value on one line. -/
def compact (j : Json) : String := String.ofList (compactText j)

/-- The start of a line that is nested so deep. -/
def margin (depth : Nat) : List Char := '\n' :: List.replicate (2 * depth) ' '

mutual

def prettyText (depth : Nat) : Json → List Char
  | .list [] => ['[', ']']
  | .list (x :: rest) => '[' :: prettyItems (depth + 1) (x :: rest) ++ margin depth ++ [']']
  | .object [] => ['\x7b', '\x7d']
  | .object (m :: rest) =>
    '\x7b' :: prettyMembers (depth + 1) (m :: rest) ++ margin depth ++ ['\x7d']
  | .null => scalarText .null
  | .flag b => scalarText (.flag b)
  | .number n => scalarText (.number n)
  | .text s => scalarText (.text s)

def prettyItems (depth : Nat) : List Json → List Char
  | [] => []
  | [x] => margin depth ++ prettyText depth x
  | x :: y :: rest => margin depth ++ prettyText depth x ++ ',' :: prettyItems depth (y :: rest)

def prettyMembers (depth : Nat) : List (String × Json) → List Char
  | [] => []
  | [(key, x)] => margin depth ++ keyText key ++ ' ' :: prettyText depth x
  | (key, x) :: y :: rest =>
    margin depth ++ keyText key ++ ' ' :: prettyText depth x ++
      ',' :: prettyMembers depth (y :: rest)

end

/-- A value over several lines. -/
def pretty (j : Json) : String := String.ofList (prettyText 0 j)

end Bundling.Json
