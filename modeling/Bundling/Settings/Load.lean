import Bundling.Notice
import Bundling.Settings.Backend
import Bundling.Threshold.Data

/-!
Limits from a settings file and the environment. Variables of the environment with the right prefix
win over the file. Loading fails if the file is missing or cannot be read, or if a limit is no
integer; a limit that is an integer never makes it fail.
-/

set_option autoImplicit false
set_option relaxedAutoImplicit false

namespace Bundling

inductive LoadFailure where
  | missing (path : String)
  | unloadable (source reason : String)
  | unreadable (reason : String)
  deriving DecidableEq, Inhabited

namespace LoadFailure

def text : LoadFailure → String
  | missing path => "Configuration file not found: " ++ path
  | unloadable source reason => "Failed to load configuration from " ++ source ++ ": " ++ reason
  | unreadable reason => "Failed to deserialize configuration: " ++ reason

def failure (f : LoadFailure) : Failure := .settings f.text

end LoadFailure

/-- The prefix of the variables that hold settings. -/
def Environment.variablePrefix : String := "BUNDLER"

namespace Backend

/-- Merges all that a source holds. -/
def merge (b : Backend) (s : Settings) (origin : Origin) (d : Document) : Settings :=
  d.foldl (fun s e ↦ b.set s origin e.1 e.2) s

/-- The top-level table of a file. -/
def document (b : Backend) (f : SettingsFile) : Except LoadFailure Document :=
  if f.content = .none then .error (.missing f.path)
  else match b.table f with
    | .error reason => .error (.unloadable f.path reason)
    | .ok d => .ok d

/-- The settings of a file, if there is one, under those of the environment. -/
def sources (b : Backend) (file : Option SettingsFile) (env : Environment) :
    Except LoadFailure Settings := do
  let fromFile : Settings ← match file with
    | none => .ok []
    | some f => (b.document f).map (b.merge [] (.file f.path))
  return b.merge fromFile .environment (b.fromVariables Environment.variablePrefix env)

/-- A setting read as an integer, or the given value if it is missing. -/
def integer (b : Backend) (s : Settings) (name : String) (fallback : Int64) :
    Except Mismatch Int64 :=
  match s.lookup name with
  | none => .ok fallback
  | some v =>
    match b.int64? v.datum with
    | some n => .ok n
    | none => .error ⟨name, v⟩

def limits (b : Backend) (s : Settings) : Except Mismatch Limits := do
  let standard : Limits := {}
  let size ← b.integer s Limits.sizeName standard.size
  let age ← b.integer s Limits.ageName standard.ageMillis
  return ⟨size, age⟩

def load (b : Backend) (file : Option SettingsFile) (env : Environment) :
    Except LoadFailure Limits := do
  let settings ← b.sources file env
  match b.limits settings with
  | .error m => .error (.unreadable (b.reason m))
  | .ok limits => .ok limits

/-- What loading reports. -/
def loadNotices (b : Backend) (file : Option SettingsFile) (env : Environment) : List Notice :=
  let opening : List Notice := match file with
    | none => []
    | some f => if f.content = .none then [] else [.fileLoading f.path]
  match b.load file env with
  | .error _ => opening
  | .ok limits => opening ++ [.limitsLoaded limits]

end Backend

end Bundling
