import Bundling.Failure
import Bundling.Threshold.Parameters
import Bundling.Trigger
import Bundling.Watermark

/-!
What the library reports while it works. A `Notice` is the event itself; `Notice.record` gives it a
level, the part of the library it comes from, a message and its fields.
-/

set_option autoImplicit false
set_option relaxedAutoImplicit false

namespace Bundling

inductive Level where
  | error
  | warn
  | info
  | debug
  | trace
  deriving DecidableEq, Inhabited

namespace Level

def name : Level → String
  | error => "ERROR"
  | warn => "WARN"
  | info => "INFO"
  | debug => "DEBUG"
  | trace => "TRACE"

/-- How much a reader must ask for to see this level. -/
def verbosity : Level → Nat
  | error => 1
  | warn => 2
  | info => 3
  | debug => 4
  | trace => 5

end Level

/-- A field of a record. Shown text stands as it is; a string is quoted where lines are written. -/
inductive Field where
  | shown (text : String)
  | string (text : String)
  | number (n : Int)
  | flag (b : Bool)
  deriving DecidableEq, Inhabited

structure Record where
  level : Level
  target : String
  message : String
  fields : List (String × Field)
  deriving DecidableEq, Inhabited

inductive Notice where
  | sizeReplaced (configured : Int64)
  | sizeKept (size : Int64)
  | ageReplaced (configured : Int64)
  | ageKept (millis : Int64)
  | sizeUnreadable (raw : String)
  | ageUnreadable (raw : String)
  | fileLoading (name : String)
  | limitsLoaded (limits : Limits)
  | reporterPresent
  | reporterInstalled (environment : String) (json : Bool)
  | operation (name coordinator : String) (trigger : Option String) (items : Option UInt64)
      (status : String) (details : Option String)
  | problem (component doing error : String) (context : Option String)
  | checkFailed (reason : String)
  | bundleStarted
  | watermarkHeld (watermark : Watermark) (superseded : Option Watermark)
  | watermarkForwarded (watermark : Watermark)
  | bundleFinished (trigger : Trigger) (items : UInt64) (results : Nat)
  | barrierClear (id : UInt64) (closed : Bool)
  | lastCloseFailed (failure : Failure)
  | releasedWhileOpen
  | timerScheduled (millis : Nat)
  | timerCancelled
  | timerDropped
  | timerNotified
  | timerEnded
  deriving DecidableEq, Inhabited

namespace Notice

def settingsTarget : String := "bundler_core::config"

def loaderTarget : String := "bundler_core::config::loader"

def coordinatorTarget : String := "bundler_core::bundle::coordinator"

def timerTarget : String := "bundler_core::timer"

def loggingTarget : String := "bundler_core::logging"

def toolTarget : String := "bundler_config_validator"

def optional (name : String) (field : Option Field) : List (String × Field) :=
  (field.map fun f ↦ (name, f)).toList

def supersededText : Option Watermark → String
  | none => "None"
  | some w => "Some(" ++ Decimal.text w.timestamp.toInt ++ ")"

def operationFields (time name coordinator : String) (trigger : Option String)
    (items : Option UInt64) (status : String) (details : Option String) :
    List (String × Field) :=
  [("operation", .shown name), ("coordinator_id", .shown coordinator)] ++
    optional "trigger" (trigger.map .string) ++
    optional "item_count" (items.map fun n ↦ .number n.toNat) ++
    [("status", .shown status)] ++ optional "details" (details.map .string) ++
    [("timestamp", .shown time)]

/-- The record of a notice made at the given time. -/
def record (time : String) : Notice → Record
  | sizeReplaced configured => ⟨.warn, settingsTarget,
      "Invalid value for the maximum bundle size, using default",
      [("configured", .number configured.toInt), ("fallback", .number defaultMaxItems.toNat)]⟩
  | sizeKept size => ⟨.info, settingsTarget, "The maximum bundle size is configured",
      [("max_bundle_size", .number size.toInt)]⟩
  | ageReplaced configured => ⟨.warn, settingsTarget,
      "Invalid value for the maximum bundle time, using default",
      [("configured", .number configured.toInt),
        ("fallback_millis", .number defaultMaxAgeMillis.toNat)]⟩
  | ageKept millis => ⟨.info, settingsTarget, "The maximum bundle time is configured",
      [("max_bundle_time_millis", .number millis.toInt)]⟩
  | sizeUnreadable raw => ⟨.warn, settingsTarget,
      "Unparseable maximum bundle size, using default",
      [("key", .string Parameters.sizeKey), ("value", .shown raw),
        ("fallback", .number defaultMaxItems.toNat)]⟩
  | ageUnreadable raw => ⟨.warn, settingsTarget,
      "Unparseable maximum bundle time, using default",
      [("key", .string Parameters.ageKey), ("value", .shown raw),
        ("fallback_millis", .number defaultMaxAgeMillis.toNat)]⟩
  | fileLoading name => ⟨.debug, loaderTarget, "Loading bundle configuration file",
      [("config_file", .shown name)]⟩
  | limitsLoaded limits => ⟨.debug, loaderTarget, "Bundle configuration loaded",
      [("max_bundle_size", .number limits.size.toInt),
        ("max_bundle_time_millis", .number limits.ageMillis.toInt)]⟩
  | reporterPresent => ⟨.debug, loggingTarget,
      "Global tracing subscriber already initialized - continuing with existing subscriber", []⟩
  | reporterInstalled environment json => ⟨.info, loggingTarget,
      "🔧 STRUCTURED LOGGING: Initialized",
      [("environment", .shown environment), ("json", .flag json)]⟩
  | operation name coordinator trigger items status details => ⟨.info, loggingTarget,
      "📦 BUNDLE_OPERATION",
      operationFields time name coordinator trigger items status details⟩
  | problem component doing error context => ⟨.error, loggingTarget, "❌ ERROR",
      [("component", .shown component), ("operation", .shown doing), ("error", .shown error)] ++
        optional "context" (context.map .string) ++ [("timestamp", .shown time)]⟩
  | checkFailed reason => ⟨.error, toolTarget, "Configuration validation failed: " ++ reason, []⟩
  | bundleStarted => ⟨.debug, coordinatorTarget, "Bundle started", []⟩
  | watermarkHeld watermark superseded => ⟨.debug, coordinatorTarget,
      "Watermark held until bundle finishes",
      [("watermark", .number watermark.timestamp.toInt),
        ("superseded", .shown (supersededText superseded))]⟩
  | watermarkForwarded watermark => ⟨.debug, coordinatorTarget, "Watermark forwarded",
      [("watermark", .shown watermark.text)]⟩
  | bundleFinished trigger items results => ⟨.debug, coordinatorTarget, "Bundle finished",
      [("trigger", .shown trigger.name), ("item_count", .number items.toNat),
        ("result_count", .number results)]⟩
  | barrierClear id closed => ⟨.debug, coordinatorTarget, "No bundle in flight for checkpoint",
      [("checkpoint_id", .number id.toNat), ("closed_bundle", .flag closed)]⟩
  | lastCloseFailed failure => ⟨.error, coordinatorTarget,
      "Final bundle failed to finish, releasing resources anyway",
      [("error", .shown failure.message)]⟩
  | releasedWhileOpen => ⟨.warn, coordinatorTarget,
      "Execution unit released with a bundle still open", []⟩
  | timerScheduled millis => ⟨.info, timerTarget, "⏱️ Periodic timer scheduled",
      [("period_ms", .number millis)]⟩
  | timerCancelled => ⟨.debug, timerTarget, "Timer cancelled", []⟩
  | timerDropped => ⟨.debug, timerTarget, "🧹 Timer registration dropped, stopping task", []⟩
  | timerNotified => ⟨.debug, timerTarget, "Timer cancellation received", []⟩
  | timerEnded => ⟨.debug, timerTarget, "Timer task ended", []⟩

end Notice

/-- What checking limits reports: one notice for each of the two. -/
def Limits.notices (l : Limits) : List Notice :=
  [if l.size ≤ 0 then .sizeReplaced l.size else .sizeKept l.size,
    if l.ageMillis ≤ 0 then .ageReplaced l.ageMillis else .ageKept l.ageMillis]

/-- What reading job parameters reports: the unreadable ones, then what checking the limits does. -/
def Parameters.notices (get : String → Option String) : List Notice :=
  ((unreadable (get sizeKey)).map Notice.sizeUnreadable).toList ++
    ((unreadable (get ageKey)).map Notice.ageUnreadable).toList ++ (limits get).notices

end Bundling
