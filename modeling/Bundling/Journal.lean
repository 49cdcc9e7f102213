import Bundling.Watermark

/-!
A journal records what collaborators did, in order. Its views are the results emitted, the
watermarks forwarded, and the items processed bundle by bundle.
-/

set_option autoImplicit false
set_option relaxedAutoImplicit false

namespace Bundling

inductive Entry (α : Type) where
  | opened
  | started
  | processed (item : α)
  | finished
  | emitted (result : α)
  | forwarded (watermark : Watermark)
  | closed
  deriving DecidableEq, Inhabited, BEq

abbrev Journal (α : Type) := List (Entry α)

namespace Journal

variable {α : Type}

def processedItem? : Entry α → Option α
  | .processed x => some x
  | _ => none

def emittedResult? : Entry α → Option α
  | .emitted x => some x
  | _ => none

def forwardedWatermark? : Entry α → Option Watermark
  | .forwarded w => some w
  | _ => none

def processed (j : Journal α) : List α := j.filterMap processedItem?

def emitted (j : Journal α) : List α := j.filterMap emittedResult?

def watermarks (j : Journal α) : List Watermark := j.filterMap forwardedWatermark?

/-- Finished bundles so far, and the items of the one that is open. -/
structure Reading (α : Type) where
  finished : List (List α) := []
  current : Option (List α) := none

/-- A start opens a bundle, dropping one that is open; an item joins the open bundle; a finish ends
it. Without an open bundle items and finishes leave no trace. -/
def Reading.step (r : Reading α) : Entry α → Reading α
  | .started => { r with current := some [] }
  | .processed x => { r with current := r.current.map (· ++ [x]) }
  | .finished => ⟨r.finished ++ r.current.toList, none⟩
  | _ => r

def read (j : Journal α) : Reading α := j.foldl Reading.step {}

/-- The items processed in each finished bundle. -/
def bundles (j : Journal α) : List (List α) := (read j).finished

end Journal

end Bundling
