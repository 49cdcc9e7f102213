import Bundling.Notice
import Bundling.Text.Lowercase

/-!
Which records a reporter lets through. A filter is a list of directives; each opens the parts of the
library whose names start with its target up to a level. The directive with the longest target that
fits decides, and of two with one target the later; where none fits nothing is let through.

A filter is read from text: directives with commas between them, each a level, a target, or a target
and a level with an equals sign between them.
-/

set_option autoImplicit false
set_option relaxedAutoImplicit false

namespace Bundling

/-- A target without characters fits every part of the library. -/
structure Directive where
  target : List Char := []
  verbosity : Nat
  deriving DecidableEq, Inhabited

abbrev Filter := List Directive

namespace Directive

def fits (d : Directive) (target : String) : Bool := d.target.isPrefixOf target.toList

end Directive

namespace Filter

def everything : Filter := [{ verbosity := Level.trace.verbosity }]

/-- All parts of the library, up to a verbosity. -/
def upTo (verbosity : Nat) : Filter := [{ verbosity := verbosity }]

/-- Of two directives that fit, the one that decides. -/
def sharper (best : Option Directive) (d : Directive) : Option Directive :=
  match best with
  | none => some d
  | some b => if b.target.length ≤ d.target.length then some d else some b

def deciding (f : Filter) (target : String) : Option Directive :=
  (f.filter (·.fits target)).foldl sharper none

def allows (f : Filter) (level : Level) (target : String) : Bool :=
  match f.deciding target with
  | none => false
  | some d => level.verbosity ≤ d.verbosity

end Filter

/-! ### Reading filters -/

namespace Level

/-- The names of verbosities, and their numbers in the same order. -/
def verbosityNames : List (List Char) :=
  ["off".toList, "error".toList, "warn".toList, "info".toList, "debug".toList, "trace".toList]

def verbosityNumber? (cs : List Char) : Option Nat :=
  let digits := match cs with
    | '+' :: rest => rest
    | rest => rest
  (Decimal.toNat? digits).filter (· < verbosityNames.length)

/-- The verbosity that a name or a number asks for. -/
def verbosity? (cs : List Char) : Option Nat :=
  (verbosityNumber? cs).or (verbosityNames.idxOf? (cs.map Char.toLower))

end Level

namespace Directive

/-- Letters, digits and these marks start a target. Beyond ASCII only letters with a case do. -/
def isStart (c : Char) : Bool :=
  c.isAlphanum || c == '-' || c == ':' || c == '_' || Text.isCased c

/-- A level after an equals sign; nothing there means all levels. -/
def level? : List Char → Option Nat
  | [] => some Level.trace.verbosity
  | cs => Level.verbosity? cs

def ofText? (cs : List Char) : Option Directive :=
  let cs := Text.trimChars cs
  if (cs.head?.map isStart).getD false then
    match cs.span (· != '=') with
    | (target, _ :: level) => (level? level).map fun v ↦ ⟨target, v⟩
    | (target, []) =>
      match Level.verbosity? target with
      | some v => some ⟨[], v⟩
      | none => some ⟨target, Level.trace.verbosity⟩
  else none

end Directive

namespace Filter

def pieces (cs : List Char) : List (List Char) := (cs.splitOn ',').filter (· != [])

/-- The filter of a text; an empty one lets errors through. -/
def ofText? (cs : List Char) : Option Filter :=
  match pieces cs with
  | [] => some (upTo Level.error.verbosity)
  | ps => ps.mapM Directive.ofText?

end Filter

end Bundling
