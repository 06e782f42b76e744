import Thumbnailer.Page.Size
import Thumbnailer.Raster.Bitmap

/-!
# Generator events and their bus

What the generator tells its consumers: a thumbnail was generated, a request was rejected or
failed for good, pending work for a page was dropped, the queue length or the number of jobs
in flight changed, or a summary of progress.

The bus fans events out to listeners (called on the emitting side, in registration order)
and to subscribers (each with an inbox). A subscriber that hangs up stays counted until the
next emit notices it and prunes it.
-/

namespace Thumbnailer
namespace Generator

/-- Something the generator wants consumers to know. -/
inductive Event where
  | generated (page : Nat) (size : Page.Target) (quality : Float) (bitmap : Raster.Bitmap)
  | error (page : Nat) (message : String)
  | cancelled (page : Nat)
  | queueSize (n : Nat)
  | activeJobs (n : Nat)
  | progress (completed total : Nat)

namespace Event

/-- The page the event is about, if any. -/
def page? : Event → Option Nat
  | .generated p .. | .error p _ | .cancelled p => some p
  | _ => none

/-- The event's short name. -/
def name : Event → String
  | .generated .. => "generated"
  | .error .. => "error"
  | .cancelled _ => "cancelled"
  | .queueSize _ => "queue"
  | .activeJobs _ => "active"
  | .progress .. => "progress"

end Event

/-- A subscriber: its inbox, and whether it still listens. -/
structure Subscriber where
  id : Nat
  listening : Bool := true
  inbox : List Event := []

/-- The bus. -/
structure Bus where
  subscribers : List Subscriber := []
  listeners : List Nat := []
  /-- What the listeners heard, in order. -/
  heard : List (Nat × Event) := []
  nextSubscriber : Nat := 0
  nextListener : Nat := 0

namespace Bus

/-- A new subscriber; answers its id. -/
def subscribe (b : Bus) : Nat × Bus :=
  let s : Subscriber := { id := b.nextSubscriber }
  (s.id, { b with subscribers := b.subscribers ++ [s], nextSubscriber := s.id + 1 })

/-- A subscriber hangs up; answers whether it was listening. -/
def unsubscribe (b : Bus) (id : Nat) : Bool × Bus :=
  if b.subscribers.any fun s => s.id == id && s.listening then
    (true, { b with subscribers := b.subscribers.map fun s =>
      if s.id == id then { s with listening := false, inbox := [] } else s })
  else (false, b)

/-- A new listener; answers its id. -/
def addListener (b : Bus) : Nat × Bus :=
  (b.nextListener, { b with listeners := b.listeners ++ [b.nextListener], nextListener := b.nextListener + 1 })

/-- The number of subscribers not yet pruned. -/
def subscriberCount (b : Bus) : Nat := b.subscribers.length

/-- Sends an event to every listener and every listening subscriber, pruning those that hung
up. -/
def emit (b : Bus) (e : Event) : Bus :=
  { b with heard := b.heard ++ b.listeners.map (·, e),
           subscribers := (b.subscribers.filter (·.listening)).map fun s => { s with inbox := s.inbox ++ [e] } }

/-- Takes a listening subscriber's inbox. -/
def drain (b : Bus) (id : Nat) : Option (List Event × Bus) :=
  match b.subscribers.find? fun s => s.id == id && s.listening with
  | none => none
  | some s => some (s.inbox, { b with subscribers := b.subscribers.map fun t =>
      if t.id == id then { t with inbox := [] } else t })

end Bus

end Generator
end Thumbnailer
