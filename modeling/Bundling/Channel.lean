import Bundling.Failure
import Bundling.Watermark

/-!
A bounded channel to a downstream receiver. A message waits while the channel is full, and is
refused once the receiver is gone; the receiver gets the messages in the order they were sent.
-/

set_option autoImplicit false
set_option relaxedAutoImplicit false

namespace Bundling

inductive Message (α : Type) where
  | result (x : α)
  | watermark (w : Watermark)
  deriving DecidableEq, Inhabited

namespace Message

variable {α : Type}

def isWatermark : Message α → Bool
  | result _ => false
  | watermark _ => true

/-- The name of the kind of message in data. -/
def kind : Message α → String
  | result _ => "result"
  | watermark _ => "watermark"

end Message

structure Channel (α : Type) where
  capacity : Nat
  waiting : List (Message α) := []
  hasReceiver : Bool := true
  deriving Inhabited

namespace Channel

variable {α : Type}

def receiverGone : Failure := .sink "Downstream receiver has been dropped"

/-- Sends a message; no answer while the channel is full. -/
def send (c : Channel α) (m : Message α) : Option (Except Failure (Channel α)) :=
  if !c.hasReceiver then some (.error receiverGone)
  else if c.waiting.length < c.capacity then some (.ok { c with waiting := c.waiting ++ [m] })
  else none

/-- The oldest message, if there is one. -/
def receive (c : Channel α) : Option (Message α × Channel α) :=
  match c.waiting with
  | [] => none
  | m :: ms => some (m, { c with waiting := ms })

def dropReceiver (c : Channel α) : Channel α := { c with hasReceiver := false, waiting := [] }

end Channel

end Bundling
