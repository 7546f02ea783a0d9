/-
This file lists what the timer code does to its pointers: `RegisterSetTimeout`, the functions of the handler, and the
loop while it holds a timer. One thread uses them.
-/
import Dtel.Construction.Loop.Machine
import Dtel.Construction.Pointer.Store

namespace Dtel

/-- The `SetTimeoutHandler` is the first object. -/
def handlerObject : Nat := 0

/-- The `ST_LoopRunner` is the second object. -/
def runnerObject : Nat := 1

/-- The timer objects come next, in the order of their creation. -/
def timerObject (event : Nat) : Nat := event + 2

namespace IntrusiveRefCntPtr

/-- The storage in the heap stash and the host have this pointer. -/
def toHandler : IntrusiveRefCntPtr := ⟨none, some handlerObject⟩

/-- The event queue and the variables of the loop have this pointer. -/
def toTimer (event : Nat) : IntrusiveRefCntPtr := ⟨none, some (timerObject event)⟩

/-- The list of the handler has this pointer. -/
def listing (event : Nat) : IntrusiveRefCntPtr := ⟨some handlerObject, some (timerObject event)⟩

/-- The member `_handler` of a timer. -/
def ofTimer (event : Nat) : IntrusiveRefCntPtr := ⟨some (timerObject event), some handlerObject⟩

/-- The list of loop runners has this pointer. -/
def toRunner : IntrusiveRefCntPtr := ⟨none, some runnerObject⟩

/-- The member `_handler` of the runner. -/
def ofRunner : IntrusiveRefCntPtr := ⟨some runnerObject, some handlerObject⟩

end IntrusiveRefCntPtr

namespace PointerLabel

open IntrusiveRefCntPtr

/-- The destructor of a pointer that is not the last one of its object returns behind the release. -/
def leave (pointer : IntrusiveRefCntPtr) : List PointerLabel := [.destroy 0 pointer, .next 0]

/-- The destructor of the last pointer deletes the object and its only member, which is not the last one of its own
object. -/
def leaveLast (pointer member : IntrusiveRefCntPtr) : List PointerLabel :=
  [.destroy 0 pointer, .next 0] ++ leave member ++ [.next 0]

/-- The destructor of a pointer to a timer that has so many other pointers. -/
def leaveTimer (pointer : IntrusiveRefCntPtr) (event others : Nat) : List PointerLabel :=
  if others = 0 then leaveLast pointer (ofTimer event) else leave pointer

/-- A call with a pointer as its argument copies it to a parameter, and destroys that when the body has returned. -/
def passing (source : IntrusiveRefCntPtr) (body : List PointerLabel) : List PointerLabel :=
  .copy source none :: body ++ leave ⟨none, source.obj⟩

/-- `operator=` on a new variable copies the source to its parameter, swaps, and destroys the parameter. -/
def assign (source : IntrusiveRefCntPtr) : List PointerLabel :=
  [.empty none, .copy source none, .swap ⟨none, none⟩ ⟨none, source.obj⟩, .destroy 0 ⟨none, none⟩]

/-- `SetTimeoutHandler::postEvent`, called with a plain pointer to the timer. -/
def postEvent (event : Nat) : List PointerLabel :=
  [.construct (timerObject event) none, .copy (toTimer event) (some handlerObject)] ++ leave (toTimer event)

/-- `new DefaultTimeoutEvent(handler, delay, oneShot)` as the argument of `postEvent`. -/
def postNew (event : Nat) : List PointerLabel :=
  passing toHandler [.create, .copy toHandler (some (timerObject event))] ++ postEvent event

/-- `event = _events.front()`, followed by `pop_front()`. -/
def takeFront (front : IntrusiveRefCntPtr) : List PointerLabel := assign front ++ leave front

/-- `EventLoop::postEvent`, called with the variable of `checkTimeouts`. -/
def enqueue (event : Nat) : List PointerLabel := passing (toTimer event) [.copy (toTimer event) none]

/-- `_events.clear()` of the loop. -/
def clearQueue (listed : List Nat) : List Nat → List PointerLabel
  | [] => []
  | event :: rest => leaveTimer (toTimer event) event ((listed ++ rest).count event) ++ clearQueue listed rest

/-- `RegisterSetTimeout` gives its handler to the storage and to the runner, and returns it. -/
def registerSetTimeout : List PointerLabel :=
  [.create, .construct handlerObject none] ++ passing toHandler [.copy toHandler none] ++
    passing toHandler [.create, .copy toHandler (some runnerObject)] ++
      [.construct runnerObject none, .copy toRunner none] ++ leave toRunner

/-- The host destroys the loop outside of `run`, then the heap of Duktape with the storage, and its own pointer. The
members of the loop are destroyed in another order, in which the runner goes first. -/
def destroyAll (listed queued : List Nat) : List PointerLabel :=
  clearQueue listed queued ++ leaveLast toRunner ofRunner ++ leave toHandler ++
    -- The last pointer deletes the handler when its list is empty.
    if listed = [] then leave toHandler ++ [.next 0] else leave toHandler

end PointerLabel

/-- The variables of the loop thread hold these timers. -/
def Pc.timers {Other : Type} : Pc Other → List Nat
  | .checking _ _ _ _ (some posting) | .applying _ (.timeout posting) | .calling _ posting | .called _ posting _
  | .throwing _ posting | .releasing _ (.timeout posting) => [posting.event]
  | _ => []

namespace Machine

open IntrusiveRefCntPtr PointerLabel

variable {Other Runner Fn : Type}

/-- The list of the handler holds these timers. -/
def listedTimers (machine : Machine Other Runner Fn) : List Nat := machine.world.timers.events.map Posting.event

/-- The queue of the loop holds these timers. -/
def queuedTimers (machine : Machine Other Runner Fn) : List Nat :=
  machine.world.queue.filterMap fun event =>
    match event with
    | .timeout posting => some posting.event
    | .other _ => none

/-- The destructor of a variable of the loop. -/
def leaveVariable (machine : Machine Other Runner Fn) (event : Nat) : List PointerLabel :=
  leaveTimer (toTimer event) event ((machine.listedTimers ++ machine.queuedTimers).count event)

/-- These are the pointer operations of the next statement. The range loop also holds a copy of the pointer to the
runner while it calls `looped`. -/
def nextPointers (machine : Machine Other Runner Fn) : List PointerLabel :=
  match machine.pc with
  | .checking _ _ now (_ + 1) none =>
      match machine.world.timers.takeFirst now with
      | some (posting, _) => takeFront (listing posting.event)
      | none => []
  | .checking _ _ _ _ (some posting) =>
      if (machine.world.timers.object posting.event).removed then machine.leaveVariable posting.event
      else enqueue posting.event ++ leave (toTimer posting.event)
  | .draining _ =>
      match machine.world.queue with
      | .timeout posting :: _ => takeFront (toTimer posting.event)
      | _ => []
  | .called _ posting _ =>
      if (machine.world.timers.object posting.event).oneShot ∨ (machine.world.timers.object posting.event).removed then []
      else PointerLabel.postEvent posting.event
  | .releasing _ (.timeout posting) => machine.leaveVariable posting.event
  | .leaving => clearQueue machine.listedTimers machine.queuedTimers
  | _ => []

/-- These are the pointer operations of a step. An exception that leaves `run` destroys the variable of the loop. -/
def pointers (machine : Machine Other Runner Fn) : Label Other Runner Fn → List PointerLabel
  | .next => machine.nextPointers
  | .script (.setTimeout args _) =>
      match setTimeoutArguments args with
      | .ok _ => postNew machine.world.timers.fresh
      | .error _ => []
  | .ended (some false) =>
      match machine.pc with
      | .throwing _ posting => machine.leaveVariable posting.event
      | _ => []
  | .thread (.postTimeout _ _) => postNew machine.world.timers.fresh
  | _ => []

end Machine

end Dtel
