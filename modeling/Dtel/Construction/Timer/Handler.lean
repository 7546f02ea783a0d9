/-
This file models the timer objects and the sorted list of their handler.
-/
import Mathlib.Logic.Function.Basic
import Dtel.Library.StableSort

namespace Dtel

/-- Time points of the steady clock are integers that count nanoseconds. -/
def milliseconds (count : Int) : Int := 1000000 * count

/-- This is the greatest value of a 32-bit `int`. -/
def intMax : Int := 2147483647

/-- This is the least value of a 32-bit `int`. -/
def intMin : Int := -2147483648

structure TimeoutEvent where
  delay : Int
  oneShot : Bool
  id : Int
  removed : Bool
deriving DecidableEq

/-- A new timer has no id and no removal mark. -/
def TimeoutEvent.create (delay : Int) (oneShot : Bool) : TimeoutEvent := ⟨delay, oneShot, -1, false⟩

/-- A posting is one entry of the handler's list. The event is the address of a timer object.
The order numbers the calls of `postEvent`; the code never reads it. -/
structure Posting where
  deadline : Int
  event : Nat
  order : Nat
deriving DecidableEq

/-- The handler's list and id counter, with the timer objects that its pointers reach. -/
structure Timers where
  object : Nat → TimeoutEvent
  fresh : Nat
  events : List Posting
  lastId : Int
  posts : Nat

namespace Timers

/-- A new `SetTimeoutHandler` has an empty list and its counter at zero. -/
def initial : Timers := ⟨fun _ => .create 0 true, 0, [], 0, 0⟩

/-- This is the expression `new DefaultTimeoutEvent(handler, delay, oneShot)`. -/
def create (timers : Timers) (delay : Int) (oneShot : Bool) : Timers :=
  { timers with
    object := Function.update timers.object timers.fresh (.create delay oneShot)
    fresh := timers.fresh + 1 }

def setId (timers : Timers) (event : Nat) (id : Int) : Timers :=
  { timers with object := Function.update timers.object event { timers.object event with id := id } }

def setRemoved (timers : Timers) (event : Nat) : Timers :=
  { timers with object := Function.update timers.object event { timers.object event with removed := true } }

/-- The first part of `postEvent` gives an id to an event that has none.
The increment of a counter at `intMax` overflows, which C++ leaves undefined. -/
def assignId (timers : Timers) (event : Nat) : Option (Int × Timers) :=
  if (timers.object event).id ≤ 0 then
    if timers.lastId < intMax then
      some (timers.lastId + 1, { timers with lastId := timers.lastId + 1 }.setId event (timers.lastId + 1))
    else none
  else some ((timers.object event).id, timers)

/-- The second part of `postEvent` appends the deadline and sorts the list. -/
def insert (timers : Timers) (now : Int) (event : Nat) : Timers :=
  { timers with
    events := StableSort.sortBy Posting.deadline
      (timers.events ++ [⟨now + milliseconds (timers.object event).delay, event, timers.posts⟩])
    posts := timers.posts + 1 }

/-- `SetTimeoutHandler::postEvent` returns the id of the event. -/
def postEvent (timers : Timers) (now : Int) (event : Nat) : Option (Int × Timers) :=
  (timers.assignId event).map fun (newid, timers) => (newid, timers.insert now event)

/-- A new timer object is posted to the handler. -/
def postNew (timers : Timers) (now : Int) (delay : Int) (oneShot : Bool) : Option (Int × Timers) :=
  (timers.create delay oneShot).postEvent now timers.fresh

/-- After its call, a timer is removed when it is one-shot, and posted again when nothing has removed it. -/
def settle (timers : Timers) (now : Int) (event : Nat) : Option Timers :=
  if (timers.object event).oneShot then some (timers.setRemoved event)
  else if (timers.object event).removed then some timers
  else (timers.postEvent now event).map Prod.snd

/-- `SetTimeoutHandler::cancelEvent` marks the first listed event with the id. -/
def cancelEvent (timers : Timers) (id : Int) : Bool × Timers :=
  match timers.events.find? fun posting => (timers.object posting.event).id = id with
  | some posting => (true, timers.setRemoved posting.event)
  | none => (false, timers)

/-- One iteration of `checkTimeouts` takes the first event when it is removed or expired. -/
def takeFirst (timers : Timers) (now : Int) : Option (Posting × Timers) :=
  match timers.events with
  | [] => none
  | first :: rest =>
      if (timers.object first.event).removed ∨ first.deadline < now then
        some (first, { timers with events := rest })
      else none

/-- `checkTimeouts` returns the deadline of the first listed event. -/
def nextDeadline (timers : Timers) : Option Int := timers.events.head?.map Posting.deadline

end Timers

end Dtel
