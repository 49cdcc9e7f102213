import Bundling.Binary64.Basic

/-!
Documents that hold settings. Only the top-level table matters to a setting, so a document is a list
of keys with what they hold, and what a list or a table holds in turn is not kept.
-/

set_option autoImplicit false
set_option relaxedAutoImplicit false

namespace Bundling

inductive Datum where
  | empty
  | flag (b : Bool)
  | integer (n : Int64)
  | real (x : Binary64)
  | text (s : String)
  | list
  | table
  deriving DecidableEq, Inhabited

/-- The top-level table of a document, each key once. -/
abbrev Document := List (String × Datum)

namespace Document

/-- Sets a key, in place of an earlier value. -/
def insert (d : Document) (key : String) (value : Datum) : Document :=
  d.filter (fun e ↦ e.1 != key) ++ [(key, value)]

/-- The document of a list of members, of which the last with a key counts. -/
def ofMembers (members : List (String × Datum)) : Document :=
  members.foldl (fun d m ↦ d.insert m.1 m.2) []

end Document

end Bundling
