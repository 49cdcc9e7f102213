/-!
The arguments of the tool that checks limits: switches, then the name of what is to be checked, then
that subject's own switches. They are read from left to right, and the first that stops the reading,
a request for the version or a misuse, decides.
-/

set_option autoImplicit false
set_option relaxedAutoImplicit false

namespace Bundling.CommandLine

/-- What is checked: the settings of a file and the environment, or parameters as given. -/
inductive Subject where
  | settings
  | parameters (raw : List String)
  deriving DecidableEq, Inhabited

structure Invocation where
  path : Option String := none
  verbosity : Nat := 0
  format : Option String := none
  subject : Subject := .settings
  deriving DecidableEq, Inhabited

/-- Why arguments start no check. -/
inductive Halt where
  | version
  | misuse
  deriving DecidableEq, Inhabited

inductive Switch where
  | path
  | verbose
  | format
  | version
  | parameter
  deriving DecidableEq, Inhabited

namespace Switch

def short? : Switch → Option Char
  | path => some 'c'
  | verbose => some 'v'
  | format => none
  | version => some 'V'
  | parameter => some 'p'

def long : Switch → String
  | path => "config"
  | verbose => "verbose"
  | format => "format"
  | version => "version"
  | parameter => "param"

def takesValue : Switch → Bool
  | path => true
  | verbose => false
  | format => true
  | version => false
  | parameter => true

end Switch

/-- Where in the arguments a reader is: before the subject's name or behind it. -/
inductive Place where
  | opening
  | settings
  | parameters
  deriving DecidableEq, Inhabited

namespace Place

/-- The switches that may stand in a place. -/
def switches : Place → List Switch
  | opening => [.path, .verbose, .format, .version]
  | settings => []
  | parameters => [.parameter]

/-- The place and the subject that a word leads to. -/
def enter? : Place → String → Option (Place × Subject)
  | opening, "config" => some (settings, .settings)
  | opening, "params" => some (parameters, .parameters [])
  | _, _ => none

def ofShort? (p : Place) (c : Char) : Option Switch := p.switches.find? fun s ↦ s.short? == some c

def ofLong? (p : Place) (name : List Char) : Option Switch :=
  p.switches.find? fun s ↦ s.long.toList == name

end Place

namespace Invocation

/-- Applies a switch without a value. -/
def raise (i : Invocation) : Switch → Except Halt Invocation
  | .verbose => .ok { i with verbosity := i.verbosity + 1 }
  | .version => .error .version
  | _ => .error .misuse

/-- Applies a switch with its value. A path is never empty; a path and a format are given once. -/
def give (i : Invocation) : Switch → String → Except Halt Invocation
  | .path, value =>
    if value = "" ∨ i.path.isSome then .error .misuse else .ok { i with path := some value }
  | .format, value =>
    if i.format.isSome then .error .misuse else .ok { i with format := some value }
  | .parameter, value =>
    match i.subject with
    | .parameters raw => .ok { i with subject := .parameters (raw ++ [value]) }
    | .settings => .error .misuse
  | _, _ => .error .misuse

end Invocation

/-- An invocation and, if the argument read last leaves one open, the switch that waits for the next
argument as its value. -/
abbrev Pending := Invocation × Option Switch

/-- Switches by letters, behind one dash. What follows one with a value is its value. -/
def letters (p : Place) (i : Invocation) : List Char → Except Halt Pending
  | [] => .ok (i, none)
  | c :: cs =>
    match p.ofShort? c with
    | none => .error .misuse
    | some s =>
      if s.takesValue then
        match cs with
        | [] => .ok (i, some s)
        | '=' :: value => (i.give s (String.ofList value)).map fun i ↦ (i, none)
        | value => (i.give s (String.ofList value)).map fun i ↦ (i, none)
      else
        match i.raise s with
        | .error h => .error h
        | .ok i => letters p i cs

/-- A switch by its name, behind two dashes, perhaps with a value behind an equals sign. -/
def named (p : Place) (i : Invocation) (cs : List Char) : Except Halt Pending :=
  let (name, rest) := cs.span (· != '=')
  match p.ofLong? name, rest with
  | none, _ => .error .misuse
  | some s, [] => if s.takesValue then .ok (i, some s) else (i.raise s).map fun i ↦ (i, none)
  | some s, _ :: value =>
    if s.takesValue then (i.give s (String.ofList value)).map fun i ↦ (i, none)
    else .error .misuse

/-- Whether an argument can be the value of a switch before it: a lone dash can. -/
def isValue (arg : String) : Bool :=
  match arg.toList with
  | '-' :: _ :: _ => false
  | _ => true

/-- Reads arguments from a place on, with a switch that perhaps waits for its value. -/
def readFrom (p : Place) (waiting : Option Switch) (i : Invocation) :
    List String → Except Halt Invocation
  | [] => if waiting.isSome then .error .misuse else .ok i
  | arg :: rest =>
    match waiting with
    | some s =>
      if isValue arg then
        match i.give s arg with
        | .error h => .error h
        | .ok i => readFrom p none i rest
      else .error .misuse
    | none =>
      match arg.toList with
      | ['-', '-'] => if rest = [] then .ok i else .error .misuse
      | '-' :: '-' :: cs =>
        match named p i cs with
        | .error h => .error h
        | .ok (i, waiting) => readFrom p waiting i rest
      | '-' :: c :: cs =>
        match letters p i (c :: cs) with
        | .error h => .error h
        | .ok (i, waiting) => readFrom p waiting i rest
      | _ =>
        match p.enter? arg with
        | none => .error .misuse
        | some (p, subject) => readFrom p none { i with subject := subject } rest

def read (args : List String) : Except Halt Invocation := readFrom .opening none {} args

end Bundling.CommandLine
