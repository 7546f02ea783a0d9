/-
This file models `EventLoop::run` as one thread among other threads.
-/
import Dtel.Construction.Loop.World

namespace Dtel

/-- This is the constant of `checkTimeouts`. -/
def maxExpirys : Nat := 10

/-- The loop thread stands at one of these points, with its local variables. -/
inductive Pc (Other : Type) where
  /-- `run` is not active. -/
  | outside
  /-- `run` is called and has not yet written `_terminated`. -/
  | entered
  /-- The test of the outer loop comes next. -/
  | test
  /-- The range loop over the runners stands at a node, or at the end of the list. -/
  | runners (node : Option Nat) (timeout : Int)
  /-- Another runner executes `looped`. -/
  | looped (node : Nat) (timeout : Int)
  /-- The timer runner executes `checkTimeouts`. -/
  | checking (node : Nat) (timeout now : Int) (sanity : Nat) (taken : Option Posting)
  /-- The retrieval of the first event comes next. -/
  | draining (timeout : Int)
  /-- The event executes `apply`. A timer has not yet tested its flag. -/
  | applying (timeout : Int) (event : Event Other)
  /-- The timer executes `duk_pcall`. -/
  | calling (timeout : Int) (posting : Posting)
  /-- The call has returned and the timer has not yet been removed or posted again. -/
  | called (timeout : Int) (posting : Posting) (success : Bool)
  /-- The timer executes `ThrowError`, which may run script. -/
  | throwing (timeout : Int) (posting : Posting)
  /-- The event executes `release`. -/
  | releasing (timeout : Int) (event : Event Other)
  /-- The queue was empty and the loop has not yet entered `wait_until`. -/
  | locking (timeout : Int)
  /-- The loop is blocked in `wait_until`. -/
  | waiting (timeout : Int)
  /-- The outer loop has ended and the final `clear` comes next. -/
  | leaving
deriving DecidableEq

/-- The loop thread runs code that may call the loop and the timer functions. -/
def Pc.scripting {Other : Type} : Pc Other → Bool
  | .outside | .looped .. | .applying _ (.other _) | .calling .. | .throwing .. | .releasing _ (.other _) => true
  | _ => false

/-- The loop thread holds `_mutex` while the runners are called. -/
def Pc.holdsMutex {Other : Type} : Pc Other → Bool
  | .runners .. | .looped .. | .checking .. => true
  | _ => false

/-- Code on the loop thread calls one of these functions. -/
inductive Call (Other Runner Fn : Type) where
  | setTimeout (args : List (JsValue Fn)) (oneShot : Bool)
  | clearTimeout (args : List (JsValue Fn))
  | postEvent (event : Other)
  | addLoopRunner (runner : Runner) (priority : Int)
  | terminate

/-- Another thread takes one of these steps. The notification of `postEvent` follows its push. -/
inductive Signal (Other Runner : Type) where
  | push (event : Other)
  | notifyPushed
  | notify
  | postTimeout (delay : Int) (oneShot : Bool)
  | cancelEvent (id : Int)
  | addLoopRunner (runner : Runner) (priority : Int)
  | terminate

/-- A label fixes every choice that the loop code does not make itself. -/
inductive Label (Other Runner Fn : Type) where
  /-- The clock advances. -/
  | tick (elapsed : Nat)
  /-- The host calls `run`. -/
  | run
  /-- The loop thread executes its next statement. -/
  | next
  /-- Code on the loop thread calls a function. -/
  | script (call : Call Other Runner Fn)
  /-- The function of a timer returns or throws. -/
  | pcall (success : Bool)
  /-- The other runner returns from `looped`. -/
  | looped (newtimeout : Option Int)
  /-- The code ends normally, or with an exception that `processException` accepts or not. -/
  | ended (exception : Option Bool)
  /-- The wait ends without a notification. -/
  | wake
  /-- Another thread takes a step. -/
  | thread (signal : Signal Other Runner)

namespace Label

variable {Other Runner Fn : Type}

/-- A script calls `setTimeout(function, delay)` or `setInterval(function, delay)`. -/
def set (function : Fn) (delay : Int) (oneShot : Bool) : Label Other Runner Fn :=
  .script (.setTimeout [.function function, .number delay] oneShot)

/-- A script calls `clearTimeout(id)` or `clearInterval(id)`. -/
def clear (id : Int) : Label Other Runner Fn := .script (.clearTimeout [.number id])

/-- The loop thread executes this many statements. -/
def nexts (count : Nat) : List (Label Other Runner Fn) := List.replicate count .next

end Label

/-- The machine adds the loop thread's point and the number of threads between push and notification. -/
structure Machine (Other Runner Fn : Type) where
  world : World Other Runner Fn
  pc : Pc Other
  unnotified : Nat

namespace World

variable {Other Runner Fn : Type}

/-- A new event loop has an empty queue and no runner. -/
def initial : World Other Runner Fn := ⟨0, false, [], [], 0, Timers.initial, fun _ => none⟩

/-- `RegisterSetTimeout` adds the timer runner with priority 5. -/
def registerSetTimeout (world : World Other Runner Fn) : World Other Runner Fn :=
  world.addLoopRunner .settimeout 5

/-- The range loop starts at the first node. -/
def firstNode (world : World Other Runner Fn) : Option Nat :=
  world.looprunners.head?.map RunnerNode.address

/-- The range loop steps to the node behind the present one. -/
def nextNode (world : World Other Runner Fn) (node : Nat) : Option Nat :=
  ((world.looprunners.dropWhile fun entry => entry.address ≠ node).tail.head?).map RunnerNode.address

def runnerAt (world : World Other Runner Fn) (node : Nat) : Option (LoopRunner Runner) :=
  (world.looprunners.find? fun entry => entry.address = node).map RunnerNode.runner

/-- The code on the loop thread calls one function. A script error leaves the world unchanged. -/
def perform (world : World Other Runner Fn) : Call Other Runner Fn → Option (World Other Runner Fn)
  | .setTimeout args oneShot => (world.setTimeoutBase args oneShot).map Prod.snd
  | .clearTimeout args => some (world.clearTimeoutBase args).2
  | .postEvent event => some (world.postEvent (.other event))
  | .addLoopRunner runner priority => some (world.addLoopRunner (.other runner) priority)
  | .terminate => some world.terminate

end World

/-- The loop keeps the earlier of its timeout and the answer of a runner. -/
def earlierTimeout (timeout : Int) : Option Int → Int
  | some newtimeout => if newtimeout < timeout then newtimeout else timeout
  | none => timeout

namespace Machine

variable {Other Runner Fn : Type}

/-- Other runners may be registered before the timers. -/
def initial (runners : List (Runner × Int)) : Machine Other Runner Fn :=
  { world := (runners.foldl (fun world entry => world.addLoopRunner (.other entry.1) entry.2)
      World.initial).registerSetTimeout
    pc := .outside
    unnotified := 0 }

/-- The loop thread executes its next statement, where this needs no outer choice. -/
def nextStep (machine : Machine Other Runner Fn) : Option (Machine Other Runner Fn) :=
  let world := machine.world
  match machine.pc with
  | .entered => some { machine with world := { world with terminated := false }, pc := .test }
  | .test =>
      if world.terminated then some { machine with pc := .leaving }
      else some { machine with pc := .runners world.firstNode (world.clock + milliseconds 2000) }
  | .runners none timeout => some { machine with pc := .draining timeout }
  | .runners (some node) timeout =>
      match world.runnerAt node with
      | some .settimeout => some { machine with pc := .checking node timeout world.clock maxExpirys none }
      | some (.other _) => some { machine with pc := .looped node timeout }
      | none => none
  | .checking node timeout now sanity (some posting) =>
      some { machine with world := world.dispose posting, pc := .checking node timeout now sanity none }
  | .checking node timeout now (sanity + 1) none =>
      match world.timers.takeFirst now with
      | some (posting, timers) =>
          some { machine with
            world := { world with timers := timers }
            pc := .checking node timeout now sanity (some posting) }
      | none => some { machine with pc := .checking node timeout now sanity none }
  | .checking node timeout _ 0 none =>
      some { machine with
        pc := .runners (world.nextNode node) (earlierTimeout timeout world.timers.nextDeadline) }
  | .draining timeout =>
      match world.queue with
      | [] => some { machine with pc := .locking timeout }
      | event :: rest =>
          some { machine with world := { world with queue := rest }, pc := .applying timeout event }
  | .applying timeout (.timeout posting) =>
      -- A cancelled timer, or one without an id, does nothing.
      if (world.timers.object posting.event).removed = false ∧ 0 < (world.timers.object posting.event).id then
        match world.refs (world.timers.object posting.event).id with
        | some _ => some { machine with pc := .calling timeout posting }
        -- The call of `undefined` fails without running script.
        | none => some { machine with pc := .called timeout posting false }
      else some { machine with pc := .releasing timeout (.timeout posting) }
  | .called timeout posting success =>
      (world.settle posting.event).map fun world =>
        { machine with
          world := world
          pc := if success then .releasing timeout (.timeout posting) else .throwing timeout posting }
  | .releasing timeout (.timeout posting) =>
      some { machine with world := world.release posting.event, pc := .draining timeout }
  | .locking timeout => some { machine with pc := .waiting timeout }
  | .leaving => some { machine with world := { world with queue := [] }, pc := .outside }
  | .outside | .looped .. | .applying _ (.other _) | .calling .. | .throwing .. | .releasing _ (.other _)
  | .waiting _ => none

/-- The code that the loop thread runs ends. An exception that `processException` does not
accept leaves `run` at once, and so does one from a runner. An error that aborts the process is a step
of `Process`. -/
def endStep (machine : Machine Other Runner Fn) (exception : Option Bool) :
    Option (Machine Other Runner Fn) :=
  match machine.pc, exception with
  | .looped .., some false => some { machine with pc := .outside }
  | .applying timeout (.other event), none | .applying timeout (.other event), some true =>
      some { machine with pc := .releasing timeout (.other event) }
  | .applying _ (.other _), some false => some { machine with pc := .outside }
  | .throwing timeout posting, some true => some { machine with pc := .releasing timeout (.timeout posting) }
  | .throwing .., some false => some { machine with pc := .outside }
  | .releasing timeout (.other _), none | .releasing timeout (.other _), some true =>
      some { machine with pc := .draining timeout }
  | .releasing _ (.other _), some false => some { machine with pc := .outside }
  | _, _ => none

/-- A notification ends the wait of the loop and has no effect at any other point. -/
def notified (machine : Machine Other Runner Fn) : Machine Other Runner Fn :=
  match machine.pc with
  | .waiting _ => { machine with pc := .test }
  | _ => machine

/-- Another thread takes a step. It needs `_mutex` to change the queue or the runners. -/
def signalStep (machine : Machine Other Runner Fn) : Signal Other Runner → Option (Machine Other Runner Fn)
  | .push event =>
      if machine.pc.holdsMutex then none
      else some { machine with world := machine.world.postEvent (.other event), unnotified := machine.unnotified + 1 }
  | .notifyPushed =>
      if machine.unnotified = 0 then none
      else some { machine with unnotified := machine.unnotified - 1 }.notified
  | .notify => some machine.notified
  | .postTimeout delay oneShot =>
      (machine.world.postTimeout delay oneShot).map fun result => { machine with world := result.2 }
  | .cancelEvent id => some { machine with world := (machine.world.cancelEvent id).2 }
  | .addLoopRunner runner priority =>
      if machine.pc.holdsMutex then none
      else some { machine with world := machine.world.addLoopRunner (.other runner) priority }
  | .terminate => some { machine with world := machine.world.terminate }

/-- The whole system takes one step. -/
def step (machine : Machine Other Runner Fn) : Label Other Runner Fn → Option (Machine Other Runner Fn)
  | .tick elapsed =>
      some { machine with world := { machine.world with clock := machine.world.clock + elapsed } }
  | .run =>
      match machine.pc with
      | .outside => some { machine with pc := .entered }
      | _ => none
  | .next => machine.nextStep
  | .script call =>
      if machine.pc.scripting then
        (machine.world.perform call).map fun world => { machine with world := world }
      else none
  | .pcall success =>
      match machine.pc with
      | .calling timeout posting => some { machine with pc := .called timeout posting success }
      | _ => none
  | .looped newtimeout =>
      match machine.pc with
      | .looped node timeout =>
          some { machine with pc := .runners (machine.world.nextNode node) (earlierTimeout timeout newtimeout) }
      | _ => none
  | .ended exception => machine.endStep exception
  | .wake =>
      match machine.pc with
      | .waiting _ => some { machine with pc := .test }
      | _ => none
  | .thread signal => machine.signalStep signal

end Machine

end Dtel
