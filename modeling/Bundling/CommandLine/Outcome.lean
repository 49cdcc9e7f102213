import Bundling.CommandLine.Arguments
import Bundling.CommandLine.Report
import Bundling.Reporter
import Bundling.Settings.Standard

/-!
What the tool does with its arguments: what it writes and the code it ends with. Fallbacks are part
of a report and no failure; the code is one only if there is nothing to report. Who loads settings
and who writes JSON text is left open.
-/

set_option autoImplicit false
set_option relaxedAutoImplicit false

namespace Bundling.CommandLine

inductive Refusal where
  | load (failure : LoadFailure)
  | notPair (raw : String)
  | unknownFormat (name : String)
  deriving DecidableEq, Inhabited

def Refusal.text : Refusal → String
  | load failure => "Failed to load bundle configuration: " ++ failure.text
  | notPair raw => "Parameter '" ++ raw ++ "' is not in KEY=VALUE form"
  | unknownFormat name => "Unknown output format: " ++ name ++ " (expected table or json)"

structure Outcome where
  code : Nat
  output : List String
  errors : List String := []
  deriving DecidableEq, Inhabited

/-! ### Parameters -/

/-- Key and value on the two sides of the first equals sign, without the blanks around them. -/
def pair? (raw : String) : Option (String × String) :=
  match raw.toList.span (· != '=') with
  | (_, []) => none
  | (key, _ :: value) =>
    some (String.ofList (Text.trimChars key), String.ofList (Text.trimChars value))

/-- The pairs of parameters as given; the first that is no pair is refused. -/
def pairs : List String → Except Refusal (List (String × String))
  | [] => .ok []
  | raw :: rest =>
    match pair? raw with
    | none => .error (.notPair raw)
    | some pair => (pairs rest).map fun ps ↦ pair :: ps

/-- The value of a key, the last one given for it. -/
def valueOf (ps : List (String × String)) (key : String) : Option String := ps.reverse.lookup key

/-! ### Checking -/

def settingsSource (path : Option String) : String :=
  match path with
  | none => "environment"
  | some path => path ++ " + environment"

def checkSettings (b : Backend) (file : Option SettingsFile) (env : Environment) :
    List Notice × Except Refusal Report :=
  let opening := b.loadNotices file env
  match b.load file env with
  | .error failure => (opening, .error (.load failure))
  | .ok limits =>
    (opening ++ limits.notices, .ok ⟨settingsSource (file.map (·.path)), limits.check⟩)

def checkParameters (raw : List String) : List Notice × Except Refusal Report :=
  match pairs raw with
  | .error refusal => ([], .error refusal)
  | .ok ps =>
    (Parameters.notices (valueOf ps), .ok ⟨"job parameters", Parameters.check (valueOf ps)⟩)

namespace Invocation

/-- The notices and the report of a check, given what is found at the path. -/
def check (b : Backend) (i : Invocation) (content : FileContent) (env : Environment) :
    List Notice × Except Refusal Report :=
  match i.subject with
  | .settings => checkSettings b (i.path.map fun path ↦ ⟨path, content⟩) env
  | .parameters raw => checkParameters raw

/-- Notices are shown up to warnings, information or details, the more the more is asked for. -/
def reporter (i : Invocation) : Reporter :=
  ⟨.upTo (min (i.verbosity + Level.error.verbosity) Level.debug.verbosity), .text false false⟩

/-- A report in the format asked for, whose name is read in any case. -/
def shown (codec : Json.Codec) (i : Invocation) (r : Report) : Except Refusal (List String) :=
  match Text.lower (i.format.getD "table") with
  | "json" => .ok [codec.pretty r.json]
  | "table" => .ok r.table
  | name => .error (.unknownFormat name)

def outcome (b : Backend) (codec : Json.Codec) (i : Invocation) (content : FileContent)
    (env : Environment) (time : String) : Outcome :=
  let (notices, report) := i.check b content env
  match report.bind (i.shown codec) with
  | .ok lines => ⟨0, i.reporter.lines time notices ++ lines, []⟩
  | .error refusal =>
    ⟨1, i.reporter.lines time (notices ++ [.checkFailed refusal.text]), ["❌ " ++ refusal.text]⟩

end Invocation

def name : String := "bundler-config-validator"

def version : String := "0.1.0"

def usage : List String :=
  ["Usage: " ++ name ++ " [-c FILE] [-v]... [--format table|json] [config]",
    "       " ++ name ++ " [-v]... [--format table|json] params [-p KEY=VALUE]..."]

/-- The outcome of arguments that start no check. -/
def Halt.outcome : Halt → Outcome
  | version => ⟨0, [name ++ " " ++ CommandLine.version], []⟩
  | misuse => ⟨2, [], usage⟩

/-- What the tool does with arguments, given what is found at paths. -/
def outcomeWith (b : Backend) (codec : Json.Codec) (args : List String)
    (contentAt : String → FileContent) (env : Environment) (time : String) : Outcome :=
  match read args with
  | .error halt => halt.outcome
  | .ok i => i.outcome b codec ((i.path.map contentAt).getD .none) env time

def outcome (args : List String) (contentAt : String → FileContent) (env : Environment)
    (time : String) : Outcome :=
  outcomeWith .standard .standard args contentAt env time

end Bundling.CommandLine
