import Bundling.Document.Datum
import Bundling.Environment

/-!
What loading settings asks of others: to read a file, to pick the variables of a program from the
environment, to merge what sources hold into settings, and to take a value for an integer. Loading
is written for any such backend. What a backend promises is stated apart from it, and
`Backend.standard` is one that keeps these promises.
-/

set_option autoImplicit false
set_option relaxedAutoImplicit false

namespace Bundling

/-- What is found at a path: nothing that opens as a file, bytes that are no text, or text. -/
inductive FileContent where
  | none
  | bytes
  | text (s : String)
  deriving DecidableEq, Inhabited

structure SettingsFile where
  path : String
  content : FileContent
  deriving DecidableEq, Inhabited

/-- A source of settings, as far as a failure tells it. -/
inductive Origin where
  | file (path : String)
  | environment
  deriving DecidableEq, Inhabited

/-- What a setting holds, and where it is said to come from. -/
structure Setting where
  datum : Datum
  origin : Option String
  deriving DecidableEq, Inhabited

abbrev Settings := List (String × Setting)

/-- A setting that should be an integer and is not. -/
structure Mismatch where
  key : String
  setting : Setting
  deriving DecidableEq, Inhabited

structure Backend where
  /-- The top-level table of a file that is there, or why there is none to be had. -/
  table : SettingsFile → Except String Document
  /-- The settings that the variables with a prefix hold. -/
  fromVariables : String → Environment → Document
  /-- The value of a text whose kind nobody gave. -/
  guess : String → Datum
  /-- Whether a key is a path into a table or a list. -/
  isPath : String → Bool
  /-- The setting that a key is about. -/
  subject : String → String
  /-- A value of a source as a setting. -/
  place : Origin → Datum → Setting
  /-- Sets one key of a source over what earlier sources have set. -/
  set : Settings → Origin → String → Datum → Settings
  /-- The integer that a value is taken for. -/
  int64? : Datum → Option Int64
  /-- What is said of a setting that is taken for no integer. -/
  reason : Mismatch → String

end Bundling
