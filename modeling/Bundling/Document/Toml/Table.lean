import Bundling.Document.Datum

/-!
Tables of a TOML document while it is read. A table is made by a header, by a dotted key, or on the
way to a table further down; what may be added to it later depends on how it was made.
-/

set_option autoImplicit false
set_option relaxedAutoImplicit false

namespace Bundling.Toml

inductive Node where
  | value (d : Datum)
  /-- A table. `passing` ones were made on the way to another, `dotted` ones by a dotted key. -/
  | table (passing dotted : Bool) (entries : List (String × Node))
  | tables (elements : List (List (String × Node)))
  deriving Inhabited

abbrev Entries := List (String × Node)

namespace Entries

def get? (es : Entries) (key : String) : Option Node := es.lookup key

def put (es : Entries) (key : String) (n : Node) : Entries :=
  if (es.lookup key).isSome then es.map fun e ↦ if e.1 == key then (key, n) else e
  else es ++ [(key, n)]

/-- Changes the table at a path, making the tables on the way that are missing. The walk goes along
headers or along dotted keys, and a dotted key does not enter a table that a header made. `change`
is told whether the table it changes was made by a dotted key. -/
def update (dotted : Bool) (change : Bool → Entries → Option Entries) :
    List String → Bool → Entries → Option Entries
  | [], wasDotted, es => change wasDotted es
  | key :: path, _, es =>
    match es.get? key with
    | none => (update dotted change path dotted []).map fun sub ↦
        es.put key (.table true dotted sub)
    | some (.value _) => none
    | some (.table passing wasDotted sub) =>
      if dotted && !passing then none
      else (update dotted change path wasDotted sub).map fun sub ↦
        es.put key (.table passing wasDotted sub)
    | some (.tables elements) =>
      match elements.reverse with
      | [] => none
      | last :: before => (update dotted change path false last).map fun last ↦
          es.put key (.tables (before.reverse ++ [last]))

/-- Adds a value under a key that is not taken. A table takes values by plain keys or by dotted
keys, as it was made. -/
def addValue (path : List String) (key : String) (d : Datum) (wasDotted : Bool) (es : Entries) :
    Option Entries :=
  update true (fun wasDotted es ↦
    if wasDotted == path.isEmpty || (es.get? key).isSome then none
    else some (es ++ [(key, .value d)])) path wasDotted es

/-- Opens a table by its header. A table made on the way to another may still be opened, once. -/
def openTable (path : List String) (key : String) (es : Entries) : Option Entries :=
  update false (fun _ es ↦
    match es.get? key with
    | none => some (es ++ [(key, .table false false [])])
    | some (.table true false sub) => some (es.put key (.table false false sub))
    | some _ => none) path false es

/-- Opens one more table of a list by its header. -/
def openElement (path : List String) (key : String) (es : Entries) : Option Entries :=
  update false (fun _ es ↦
    match es.get? key with
    | none => some (es ++ [(key, .tables [[]])])
    | some (.tables elements) => some (es.put key (.tables (elements ++ [[]])))
    | some _ => none) path false es

def datum : Node → Datum
  | .value d => d
  | .table _ _ _ => .table
  | .tables _ => .list

def document (es : Entries) : Document := es.map fun e ↦ (e.1, datum e.2)

end Entries

end Bundling.Toml
