import Bundling.Environment
import Bundling.Reporter.Filter
import Bundling.Reporter.Line

/-!
Reporters turn notices into lines. A process has at most one: the first that takes the place keeps
it, and setting up the library's own reporter a second time does nothing.
-/

set_option autoImplicit false
set_option relaxedAutoImplicit false

namespace Bundling

structure Reporter where
  filter : Filter
  layout : Layout
  deriving DecidableEq, Inhabited

namespace Reporter

def environmentKey : String := "BUNDLER_ENV"

def fallbackEnvironmentKey : String := "APP_ENV"

def formatKey : String := "BUNDLER_LOG_FORMAT"

def filterKey : String := "RUST_LOG"

/-- The name of the environment that the process runs in. -/
def environmentName (env : Environment) : String :=
  ((env.get? environmentKey).or (env.get? fallbackEnvironmentKey)).getD
    "development"

/-- What is reported unless a filter says otherwise. -/
def defaultLevel (environment : String) : Level :=
  if environment = "production" then .info else .debug

def asksForJson (env : Environment) : Bool :=
  (env.get? formatKey).any fun format ↦ format.toList.map Char.toLower == "json".toList

/-- The filter that variables ask for. One that cannot be read counts as none. -/
def filterOf (env : Environment) : Filter :=
  ((env.get? filterKey).bind fun text ↦ Filter.ofText? text.toList).getD
    (.upTo (defaultLevel (environmentName env)).verbosity)

def ofEnvironment (env : Environment) : Reporter where
  filter := filterOf env
  layout := if asksForJson env then .json else .text true true

/-- A reporter that shows all levels in lines of text without threads. -/
def verbose : Reporter := ⟨.everything, .text false true⟩

/-- The line of a notice, if the filter lets it through. -/
def line? (r : Reporter) (time : String) (n : Notice) : Option String :=
  let record := n.record time
  if r.filter.allows record.level record.target then some (record.line r.layout time) else none

def lines (r : Reporter) (time : String) (ns : List Notice) : List String :=
  ns.filterMap (r.line? time)

end Reporter

/-- A process's place for a reporter, and whether the library has set up its own. -/
structure Outlet where
  reporter : Option Reporter := none
  ready : Bool := false
  deriving DecidableEq, Inhabited

namespace Outlet

/-- Puts a reporter in place, if none is there. -/
def adopt (o : Outlet) (r : Reporter) : Outlet := { o with reporter := o.reporter.or (some r) }

/-- Sets up the library's reporter and says what there is to report about it. -/
def setUp (o : Outlet) (env : Environment) : Outlet × List Notice :=
  if o.ready then (o, [])
  else
    ({ o.adopt (.ofEnvironment env) with ready := true },
      (if o.reporter.isSome then [.reporterPresent] else []) ++
        [.reporterInstalled (Reporter.environmentName env) (Reporter.asksForJson env)])

/-- The lines of notices; none as long as nobody reports. -/
def lines (o : Outlet) (time : String) (ns : List Notice) : List String :=
  match o.reporter with
  | none => []
  | some r => r.lines time ns

/-- What a process can do with its outlet. -/
inductive Event where
  | setUp
  | adopt (r : Reporter)
  | report (ns : List Notice)
  deriving DecidableEq, Inhabited

def step (env : Environment) (time : String) (o : Outlet) :
    Event → Outlet × List String
  | .setUp =>
    let (o, ns) := o.setUp env
    (o, o.lines time ns)
  | .adopt r => (o.adopt r, [])
  | .report ns => (o, o.lines time ns)

/-- All lines of a process, in order. -/
def transcript (env : Environment) (time : String) (o : Outlet) :
    List Event → List String
  | [] => []
  | e :: es =>
    let (o, shown) := o.step env time e
    shown ++ o.transcript env time es

end Outlet

end Bundling
