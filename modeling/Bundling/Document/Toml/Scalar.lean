import Bundling.Binary64.Text
import Bundling.Document.Reader

/-!
The scalars of TOML: four kinds of strings, integers in four bases, doubles, and dates and times. A
date or time is given as text in one normal form.
-/

set_option autoImplicit false
set_option relaxedAutoImplicit false

namespace Bundling.Toml

def isBlank (c : Char) : Bool := c == ' ' || c == '\t'

def skipBlank (cs : List Char) : List Char := cs.dropWhile isBlank

/-- Characters that may stand in comments and, quotes and backslashes aside, in strings. -/
def isPlain (c : Char) : Bool := c == '\t' || (0x20 ≤ c.toNat && c.toNat != 0x7F)

/-- The text behind a line break. -/
def newline? : List Char → Option (List Char)
  | '\n' :: rest => some rest
  | '\r' :: '\n' :: rest => some rest
  | _ => none

/-- The text behind a line break, if there is one here. -/
def afterNewline (cs : List Char) : List Char := (newline? cs).getD cs

/-! ### Strings -/

/-- What follows a backslash in a basic string. -/
def escape? : Reader Char
  | 'b' :: rest => some ('\x08', rest)
  | 't' :: rest => some ('\t', rest)
  | 'n' :: rest => some ('\n', rest)
  | 'f' :: rest => some ('\x0c', rest)
  | 'r' :: rest => some ('\r', rest)
  | '"' :: rest => some ('"', rest)
  | '\\' :: rest => some ('\\', rest)
  | 'u' :: rest => do
    let (n, rest) ← Reader.hex? 4 rest
    let c ← Reader.scalar? n
    some (c, rest)
  | 'U' :: rest => do
    let (n, rest) ← Reader.hex? 8 rest
    let c ← Reader.scalar? n
    some (c, rest)
  | _ => none

/-- The rest of a basic string on one line. -/
def basic? : Nat → Reader (List Char)
  | 0, _ => none
  | fuel + 1, cs =>
    match cs with
    | '"' :: rest => some ([], rest)
    | '\\' :: rest => do
      let (c, rest) ← escape? rest
      let (s, rest) ← basic? fuel rest
      some (c :: s, rest)
    | c :: rest =>
      if isPlain c then (basic? fuel rest).map fun r ↦ (c :: r.1, r.2) else none
    | [] => none

/-- The rest of a literal string on one line. -/
def literal? : Reader (List Char)
  | '\'' :: rest => some ([], rest)
  | c :: rest => if isPlain c then (literal? rest).map fun r ↦ (c :: r.1, r.2) else none
  | [] => none

/-- The end of a string of several lines: three quotes, before which two more may belong to it. -/
def closing? (quote : Char) (cs : List Char) : Option (List Char × List Char) :=
  let quotes := (cs.take 5).takeWhile (· == quote)
  if 3 ≤ quotes.length then some (quotes.drop 3, cs.drop quotes.length) else none

/-- The text behind a backslash that ends a line: all blanks and line breaks are passed over. -/
def continued? (cs : List Char) : Option (List Char) :=
  (newline? (skipBlank cs)).map fun rest ↦
    rest.dropWhile fun c ↦ isBlank c || c == '\n' || c == '\r'

/-- The rest of a string of several lines; in a basic one a backslash escapes. -/
def multiline? (basic : Bool) (quote : Char) : Nat → Reader (List Char)
  | 0, _ => none
  | fuel + 1, cs =>
    match closing? quote cs with
    | some (last, rest) => some (last, rest)
    | none =>
      match newline? cs with
      | some rest => (multiline? basic quote fuel rest).map fun r ↦ ('\n' :: r.1, r.2)
      | none =>
        match cs with
        | [] => none
        | c :: rest =>
          if basic && c == '\\' then
            match continued? rest with
            | some rest => multiline? basic quote fuel rest
            | none => do
              let (c, rest) ← escape? rest
              let (s, rest) ← multiline? basic quote fuel rest
              some (c :: s, rest)
          else if isPlain c then
            (multiline? basic quote fuel rest).map fun r ↦ (c :: r.1, r.2)
          else none

/-- A string of any kind, from its first quote on. -/
def string? : Reader (List Char)
  | '"' :: '"' :: '"' :: rest => multiline? true '"' (rest.length + 1) (afterNewline rest)
  | '\'' :: '\'' :: '\'' :: rest => multiline? false '\'' (rest.length + 1) (afterNewline rest)
  | '"' :: rest => basic? (rest.length + 1) rest
  | '\'' :: rest => literal? rest
  | _ => none

/-! ### Numbers -/

/-- Digits that may have single underscores between them; the underscores are dropped. -/
def grouped (isDigit : Char → Bool) : List Char → List Char × List Char
  | [] => ([], [])
  | '_' :: d :: rest =>
    if isDigit d then
      let (ds, rest) := grouped isDigit rest
      (d :: ds, rest)
    else ([], '_' :: d :: rest)
  | c :: rest =>
    if isDigit c then
      let (ds, rest) := grouped isDigit rest
      (c :: ds, rest)
    else ([], c :: rest)

/-- At least one digit, and then grouped ones. -/
def groupedFrom? (isDigit : Char → Bool) : Reader (List Char)
  | d :: rest =>
    if isDigit d then
      let (ds, rest) := grouped isDigit rest
      some (d :: ds, rest)
    else none
  | [] => none

/-- A decimal integer: a lone zero, or digits that do not start with one. -/
def whole? : Reader (List Char)
  | '0' :: rest => some (['0'], rest)
  | cs => groupedFrom? Char.isDigit cs

def sign : List Char → List Char × List Char
  | '+' :: rest => (['+'], rest)
  | '-' :: rest => (['-'], rest)
  | cs => ([], cs)

def part? : Reader (List Char)
  | '.' :: rest => (groupedFrom? Char.isDigit rest).map fun r ↦ ('.' :: r.1, r.2)
  | cs => some ([], cs)

def power? : Reader (List Char) := fun cs ↦
  match cs with
  | 'e' :: rest | 'E' :: rest =>
    let (s, rest) := sign rest
    (groupedFrom? Char.isDigit rest).map fun r ↦ ('e' :: s ++ r.1, r.2)
  | cs => some ([], cs)

def special? (cs : List Char) : Option (List Char × List Char) :=
  match Reader.after? "inf" cs, Reader.after? "nan" cs with
  | some rest, _ => some ("inf".toList, rest)
  | none, some rest => some ("nan".toList, rest)
  | none, none => none

inductive Number where
  | integer (n : Int64)
  | real (x : Binary64)
  deriving DecidableEq, Inhabited

/-- A number written with a point or a power of ten; one that is too large is refused. -/
def real? (text : List Char) : Option Number :=
  match Binary64.ofText? text with
  | some (.infinite false) => none
  | some x => some (.real x)
  | none => none

def decimal? : Reader Number := fun cs ↦ do
  let (s, cs) := sign cs
  match special? cs with
  | some (word, rest) =>
    let x ← Binary64.ofText? (s ++ word)
    some (.real x, rest)
  | none =>
    let (whole, cs) ← whole? cs
    let (part, cs) ← part? cs
    let (power, cs) ← power? cs
    if part = [] ∧ power = [] then
      let n ← Decimal.toInt64? (s ++ whole)
      some (.integer n, cs)
    else
      let x ← real? (s ++ whole ++ part ++ power)
      some (x, cs)

def isHex (c : Char) : Bool := (Reader.hexDigit? c).isSome

def isOctal (c : Char) : Bool := '0' ≤ c && c ≤ '7'

def isBinary (c : Char) : Bool := c == '0' || c == '1'

def radix? (base : Nat) (isDigit : Char → Bool) : Reader Number := fun cs ↦ do
  let (ds, rest) ← groupedFrom? isDigit cs
  let n ← Reader.radix? base ds
  let n ← Decimal.fit? n
  some (.integer n, rest)

def number? : Reader Number
  | '0' :: 'x' :: rest => radix? 16 isHex rest
  | '0' :: 'o' :: rest => radix? 8 isOctal rest
  | '0' :: 'b' :: rest => radix? 2 isBinary rest
  | cs => decimal? cs

/-! ### Dates and times -/

def daysOf (year month : Nat) : Nat :=
  if month = 2 then
    if year % 4 = 0 ∧ (year % 100 ≠ 0 ∨ year % 400 = 0) then 29 else 28
  else if month = 4 ∨ month = 6 ∨ month = 9 ∨ month = 11 then 30
  else 31

def padded (places n : Nat) : List Char := (Decimal.ofNat n).leftpad places '0'

def symbol? (c : Char) : List Char → Option (List Char)
  | d :: rest => if d = c then some rest else none
  | [] => none

def date? : Reader (List Char) := fun cs ↦ do
  let (year, cs) ← Reader.fixed? 4 cs
  let cs ← symbol? '-' cs
  let (month, cs) ← Reader.fixed? 2 cs
  let cs ← symbol? '-' cs
  let (day, cs) ← Reader.fixed? 2 cs
  if month < 1 ∨ 12 < month ∨ day < 1 ∨ daysOf year month < day then none
  some (padded 4 year ++ '-' :: padded 2 month ++ '-' :: padded 2 day, cs)

/-- A fraction of a second, to nine places and without zeros at the end. -/
def fraction (digits : List Char) : List Char :=
  match ((digits.take 9).reverse.dropWhile (· == '0')).reverse with
  | [] => []
  | kept => '.' :: kept

def time? : Reader (List Char) := fun cs ↦ do
  let (hour, cs) ← Reader.fixed? 2 cs
  let cs ← symbol? ':' cs
  let (minute, cs) ← Reader.fixed? 2 cs
  let cs ← symbol? ':' cs
  let (second, cs) ← Reader.fixed? 2 cs
  if 23 < hour ∨ 59 < minute ∨ 60 < second then none
  let written := padded 2 hour ++ ':' :: padded 2 minute ++ ':' :: padded 2 second
  match cs with
  | '.' :: cs => do
    let (digits, cs) ← Reader.some? Char.isDigit cs
    some (written ++ fraction digits, cs)
  | cs => some (written, cs)

/-- An offset from universal time, if one follows. -/
def offset? : Reader (List Char)
  | 'Z' :: rest | 'z' :: rest => some (['Z'], rest)
  | '+' :: rest => shift? '+' rest
  | '-' :: rest => shift? '-' rest
  | cs => some ([], cs)
where
  shift? (s : Char) (cs : List Char) : Option (List Char × List Char) := do
    let (hour, cs) ← Reader.fixed? 2 cs
    let cs ← symbol? ':' cs
    let (minute, cs) ← Reader.fixed? 2 cs
    if 23 < hour ∨ 59 < minute then none
    let s := if hour = 0 ∧ minute = 0 then '+' else s
    some (s :: padded 2 hour ++ ':' :: padded 2 minute, cs)

/-- The time of a day behind its date, if one follows. -/
def timeOfDay? : Reader (List Char)
  | c :: cs =>
    if c = 'T' ∨ c = 't' ∨ c = ' ' then
      match time? cs with
      | some (time, rest) => (offset? rest).map fun r ↦ ('T' :: time ++ r.1, r.2)
      | none => some ([], c :: cs)
    else some ([], c :: cs)
  | [] => some ([], [])

def moment? : Reader (List Char) := fun cs ↦
  match date? cs with
  | some (date, rest) => (timeOfDay? rest).map fun r ↦ (date ++ r.1, r.2)
  | none => time? cs

end Bundling.Toml
