import Bundling.Watermark

/-!
The bundle slot of a coordinator: whether a bundle is open, how many items it has taken, when the
last close completed, and the watermark held until the open bundle closes. Opening and closing test
the flag and flip it in one step, so of several closers only one succeeds.
-/

set_option autoImplicit false
set_option relaxedAutoImplicit false

namespace Bundling

/-- The word nearest to an integer. -/
def saturate (n : Int) : Int64 :=
  if n < Int64.minValue.toInt then Int64.minValue
  else if Int64.maxValue.toInt < n then Int64.maxValue
  else Int64.ofInt n

structure Slot where
  isOpen : Bool
  items : UInt64
  lastClose : Int64
  held : Option Watermark
  deriving DecidableEq, Inhabited

namespace Slot

def fresh (now : Int64) : Slot := ⟨false, 0, now, none⟩

/-- Opens a closed slot, and tells whether this step opened it. -/
def tryOpen (s : Slot) : Bool × Slot := (!s.isOpen, { s with isOpen := true })

/-- Closes an open slot, and tells whether this step closed it. -/
def tryClose (s : Slot) : Bool × Slot := (s.isOpen, { s with isOpen := false })

/-- Counts one more item and gives the new count. -/
def count (s : Slot) : UInt64 × Slot := (s.items + 1, { s with items := s.items + 1 })

/-- The time since the last close as the clock reads `now`, as far as a word can tell. -/
def age (s : Slot) (now : Int64) : Int64 := saturate (now.toInt - s.lastClose.toInt)

def reset (s : Slot) (now : Int64) : Slot := { s with items := 0, lastClose := now }

/-- Holds a watermark and gives back the one it replaces. -/
def hold (s : Slot) (w : Watermark) : Option Watermark × Slot := (s.held, { s with held := some w })

def release (s : Slot) : Option Watermark × Slot := (s.held, { s with held := none })

def heldText : Option Watermark → String
  | none => "None"
  | some w => "Some(" ++ w.rawText ++ ")"

def text (s : Slot) : String :=
  "BundleState \x7b open: " ++ (if s.isOpen then "true" else "false") ++
    ", item_count: " ++ Decimal.text s.items.toNat ++
    ", last_close_millis: " ++ Decimal.text s.lastClose.toInt ++
    ", held_watermark: Mutex \x7b data: " ++ heldText s.held ++ " \x7d \x7d"

/-- The atomic steps that callers may interleave in any order. -/
inductive Move where
  | tryOpen
  | tryClose
  | forceClose
  | count
  | age (now : Int64)
  | reset (now : Int64)
  | hold (w : Watermark)
  | release
  deriving DecidableEq, Inhabited

/-- What a step answers. -/
inductive Answer where
  | done
  | flag (b : Bool)
  | total (n : UInt64)
  | millis (n : Int64)
  | watermark (w : Option Watermark)
  deriving DecidableEq, Inhabited

def step (s : Slot) : Move → Answer × Slot
  | .tryOpen => (.flag s.tryOpen.1, s.tryOpen.2)
  | .tryClose => (.flag s.tryClose.1, s.tryClose.2)
  | .forceClose => (.flag s.tryClose.1, s.tryClose.2)
  | .count => (.total s.count.1, s.count.2)
  | .age now => (.millis (s.age now), s)
  | .reset now => (.done, s.reset now)
  | .hold w => (.watermark (s.hold w).1, (s.hold w).2)
  | .release => (.watermark s.release.1, s.release.2)

end Slot

end Bundling
