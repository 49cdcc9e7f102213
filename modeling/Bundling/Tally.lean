import Bundling.Binary64.Text
import Bundling.Trigger

/-!
The counters of one coordinator. They are words and wrap; the average bundle size is taken from the
counters of the finished bundles when a report is made.
-/

set_option autoImplicit false
set_option relaxedAutoImplicit false

namespace Bundling

/-- Completed closes by what triggered them. -/
structure Closes where
  itemCount : UInt64 := 0
  bundleAge : UInt64 := 0
  endOfInput : UInt64 := 0
  barrier : UInt64 := 0
  terminalWatermark : UInt64 := 0
  stop : UInt64 := 0
  deriving DecidableEq, Inhabited

namespace Closes

def get (c : Closes) : Trigger → UInt64
  | .itemCount => c.itemCount
  | .bundleAge => c.bundleAge
  | .endOfInput => c.endOfInput
  | .barrier => c.barrier
  | .terminalWatermark => c.terminalWatermark
  | .stop => c.stop

def bump (c : Closes) : Trigger → Closes
  | .itemCount => { c with itemCount := c.itemCount + 1 }
  | .bundleAge => { c with bundleAge := c.bundleAge + 1 }
  | .endOfInput => { c with endOfInput := c.endOfInput + 1 }
  | .barrier => { c with barrier := c.barrier + 1 }
  | .terminalWatermark => { c with terminalWatermark := c.terminalWatermark + 1 }
  | .stop => { c with stop := c.stop + 1 }

theorem get_bump (c : Closes) (t u : Trigger) :
    (c.bump t).get u = c.get u + if t = u then 1 else 0 := by
  cases t <;> cases u <;> simp [get, bump]

end Closes

structure Tally where
  bundlesStarted : UInt64 := 0
  bundlesFinished : UInt64 := 0
  itemsProcessed : UInt64 := 0
  itemsFinished : UInt64 := 0
  resultsEmitted : UInt64 := 0
  closes : Closes := {}
  watermarksForwarded : UInt64 := 0
  watermarksHeld : UInt64 := 0
  watermarksSuperseded : UInt64 := 0
  deriving DecidableEq, Inhabited

namespace Tally

def bundleStarted (t : Tally) : Tally := { t with bundlesStarted := t.bundlesStarted + 1 }

def itemProcessed (t : Tally) : Tally := { t with itemsProcessed := t.itemsProcessed + 1 }

def bundleFinished (t : Tally) (trigger : Trigger) (items results : UInt64) : Tally :=
  { t with
    bundlesFinished := t.bundlesFinished + 1
    itemsFinished := t.itemsFinished + items
    resultsEmitted := t.resultsEmitted + results
    closes := t.closes.bump trigger }

def watermarkForwarded (t : Tally) : Tally :=
  { t with watermarksForwarded := t.watermarksForwarded + 1 }

def watermarkHeld (t : Tally) (superseded : Bool) : Tally :=
  { t with
    watermarksHeld := t.watermarksHeld + 1
    watermarksSuperseded := t.watermarksSuperseded + if superseded then 1 else 0 }

/-- Items per finished bundle, zero before the first. -/
def average (t : Tally) : Binary64 :=
  if t.bundlesFinished = 0 then Binary64.zero
  else Binary64.quotient t.itemsFinished.toNat t.bundlesFinished.toNat

end Tally

end Bundling
