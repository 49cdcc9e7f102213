/-!
What makes a bundle close: one of the two thresholds, or the engine around the coordinator.
-/

set_option autoImplicit false
set_option relaxedAutoImplicit false

namespace Bundling

inductive Trigger where
  | itemCount
  | bundleAge
  | endOfInput
  | barrier
  | terminalWatermark
  | stop
  deriving DecidableEq, Inhabited

namespace Trigger

def all : List Trigger := [itemCount, bundleAge, endOfInput, barrier, terminalWatermark, stop]

/-- The name in reports and in data. -/
def name : Trigger → String
  | itemCount => "item_count"
  | bundleAge => "bundle_age"
  | endOfInput => "end_of_input"
  | barrier => "checkpoint_barrier"
  | terminalWatermark => "terminal_watermark"
  | stop => "stop"

/-- The name in diagnostic text. -/
def label : Trigger → String
  | itemCount => "ItemCount"
  | bundleAge => "BundleAge"
  | endOfInput => "EndOfInput"
  | barrier => "CheckpointBarrier"
  | terminalWatermark => "TerminalWatermark"
  | stop => "Stop"

def ofName? (s : String) : Option Trigger := all.find? (·.name == s)

/-- A close that the engine asks for, as opposed to one by a threshold. -/
def isForced : Trigger → Bool
  | itemCount | bundleAge => false
  | _ => true

theorem ofName?_name (t : Trigger) : ofName? t.name = some t := by
  cases t <;> decide

end Trigger

end Bundling
