/-
This file models the event queue, the loop runners and the functions that scripts call.
-/
import Dtel.Construction.Timer.Handler

namespace Dtel

/-- An event of the loop queue is a timer, taken from one posting, or another event. -/
inductive Event (Other : Type) where
  | timeout (posting : Posting)
  | other (event : Other)
deriving DecidableEq

/-- A loop runner is the timer runner `ST_LoopRunner` or another runner. -/
inductive LoopRunner (Runner : Type) where
  | settimeout
  | other (runner : Runner)
deriving DecidableEq

/-- A node of the runner list has an address that sorting does not change. -/
structure RunnerNode (Runner : Type) where
  priority : Int
  runner : LoopRunner Runner
  address : Nat
deriving DecidableEq

/-- The state that the loop thread shares with its scripts and with other threads. -/
structure World (Other Runner Fn : Type) where
  clock : Int
  terminated : Bool
  queue : List (Event Other)
  looprunners : List (RunnerNode Runner)
  nodes : Nat
  timers : Timers
  refs : Int → Option Fn

/-- A script value, as far as the argument checks read it. The number is the value
after truncation, with zero for NaN. -/
inductive JsValue (Fn : Type) where
  | undefined
  | null
  | boolean (value : Bool)
  | number (truncated : Int)
  | string (value : String)
  | object
  | function (value : Fn)

/-- A script error carries its message, or the type that an argument must have. -/
inductive ScriptError where
  | error (message : String)
  | required (type : String) (index : Nat)
deriving DecidableEq

/-- This is `duk_require_function`. -/
def requireFunction {Fn : Type} (args : List (JsValue Fn)) (index : Nat) : Except ScriptError Fn :=
  match args[index]? with
  | some (.function value) => .ok value
  | _ => .error (.required "function" index)

/-- This is `duk_require_int`, which clamps to the range of `int`. -/
def requireInt {Fn : Type} (args : List (JsValue Fn)) (index : Nat) : Except ScriptError Int :=
  match args[index]? with
  | some (.number value) => .ok (max intMin (min intMax value))
  | _ => .error (.required "number" index)

/-- These are the argument checks of `r_setTimeoutBase`. -/
def setTimeoutArguments {Fn : Type} (args : List (JsValue Fn)) : Except ScriptError (Fn × Int) :=
  if args.length < 2 then
    .error (.error "setTimeout requires at least 2 parameters")
  else do
    let function ← requireFunction args 0
    let delay ← requireInt args 1
    return (function, delay)

/-- `duk_put_prop_index` stores a function in the REFS array. -/
def putRef {Fn : Type} (refs : Int → Option Fn) (id : Int) (function : Fn) : Int → Option Fn :=
  Function.update refs id (some function)

/-- `duk_del_prop_index` deletes the function of a removed timer from the REFS array. -/
def releaseRef {Fn : Type} (refs : Int → Option Fn) (object : TimeoutEvent) : Int → Option Fn :=
  if object.removed then Function.update refs object.id none else refs

namespace World

variable {Other Runner Fn : Type}

/-- `EventLoop::postEvent` appends the event to the queue. -/
def postEvent (world : World Other Runner Fn) (event : Event Other) : World Other Runner Fn :=
  { world with queue := world.queue ++ [event] }

/-- `EventLoop::addLoopRunner` appends a node and sorts the list by priority. -/
def addLoopRunner (world : World Other Runner Fn) (runner : LoopRunner Runner) (priority : Int) :
    World Other Runner Fn :=
  { world with
    looprunners := StableSort.sortBy RunnerNode.priority
      (world.looprunners ++ [⟨priority, runner, world.nodes⟩])
    nodes := world.nodes + 1 }

/-- `EventLoop::terminate` only sets the flag. -/
def terminate (world : World Other Runner Fn) : World Other Runner Fn :=
  { world with terminated := true }

/-- A new timer is posted to the handler. -/
def postTimeout (world : World Other Runner Fn) (delay : Int) (oneShot : Bool) :
    Option (Int × World Other Runner Fn) :=
  (world.timers.postNew world.clock delay oneShot).map fun (id, timers) => (id, { world with timers := timers })

/-- `r_setTimeoutBase` posts the timer before it stores the function. -/
def setTimeoutBase (world : World Other Runner Fn) (args : List (JsValue Fn)) (oneShot : Bool) :
    Option (Except ScriptError Int × World Other Runner Fn) :=
  match setTimeoutArguments args with
  | .error error => some (.error error, world)
  | .ok (function, delay) =>
      (world.postTimeout delay oneShot).map fun (id, world) =>
        (.ok id, { world with refs := putRef world.refs id function })

/-- `SetTimeoutHandler::cancelEvent` changes only the timers. -/
def cancelEvent (world : World Other Runner Fn) (id : Int) : Bool × World Other Runner Fn :=
  let (found, timers) := world.timers.cancelEvent id
  (found, { world with timers := timers })

/-- `r_clearTimeoutBase` serves `clearTimeout` and `clearInterval`. -/
def clearTimeoutBase (world : World Other Runner Fn) (args : List (JsValue Fn)) :
    Except ScriptError Bool × World Other Runner Fn :=
  match requireInt args 0 with
  | .error error => (.error error, world)
  | .ok id =>
      let (found, world) := world.cancelEvent id
      (.ok found, world)

/-- `DefaultTimeoutEvent::release` deletes the function of a removed timer. -/
def release (world : World Other Runner Fn) (event : Nat) : World Other Runner Fn :=
  { world with refs := releaseRef world.refs (world.timers.object event) }

/-- After the call, `DefaultTimeoutEvent::apply` removes a one-shot timer and posts an interval again. -/
def settle (world : World Other Runner Fn) (event : Nat) : Option (World Other Runner Fn) :=
  (world.timers.settle world.clock event).map fun timers => { world with timers := timers }

/-- An event that `checkTimeouts` took goes to the loop queue, or is released when it is removed. -/
def dispose (world : World Other Runner Fn) (posting : Posting) : World Other Runner Fn :=
  if (world.timers.object posting.event).removed then world.release posting.event
  else world.postEvent (.timeout posting)

end World

end Dtel
