/-
This file models the locks of a worker: the parent thread and the worker thread
take `WorkerData::_lock` and the mutexes of the two event loops.
-/
import Mathlib.Logic.Function.Basic

namespace Dtel

/-- Each of the two threads runs an event loop. -/
inductive Party where
  | parent
  | worker
deriving DecidableEq

/-- A message of one thread goes to the event loop of the other. -/
def Party.other : Party → Party
  | .parent => .worker
  | .worker => .parent

/-- The threads share these recursive mutexes. -/
inductive Lock where
  /-- `WorkerData::_lock`. -/
  | data
  /-- `EventLoop::_mutex` of the event loop of a thread. -/
  | loop (party : Party)
deriving DecidableEq

/-- The code of the user is called at one of these places. -/
inductive Place where
  /-- Outside `EventLoop::run`. -/
  | host
  /-- Inside `looped` of the loop runners, under the mutex of the loop. -/
  | looped
  /-- Inside `apply`, `release` or `processException` of an event. -/
  | handler
deriving DecidableEq

/-- A thread stands before one of these statements. -/
inductive Point where
  /-- `_terminated = false`. -/
  | entered
  /-- `while (!_terminated)`. -/
  | test
  /-- The lock around the loop runners. -/
  | runnersLock
  /-- The code of the user. -/
  | code (place : Place)
  /-- The lock around the front of the queue. -/
  | popLock
  /-- The end of that block, with an event in hand or not. -/
  | popUnlock (event : Bool)
  /-- The return of `wait_until`. -/
  | waiting
  /-- The lock before `_events.clear()`. -/
  | clearLock
  /-- The end of `run`. -/
  | clearUnlock
  /-- Nothing: the thread has ended. -/
  | ended
  /-- The lock of `EventLoop::postEvent` on the own loop. -/
  | postLock (place : Place)
  /-- The end of that block. -/
  | postUnlock (place : Place)
  /-- The lock of `postMessage`, `callerPostMessage` or `onProcessException`. -/
  | sendLock (place : Place)
  /-- The lock of `postEvent` on the loop of the other thread. -/
  | sendLoopLock (place : Place)
  /-- The end of that block. -/
  | sendLoopUnlock (place : Place)
  /-- The end of the function that sends. -/
  | sendUnlock (place : Place)
  /-- The lock of the destructor `~WorkerData`. -/
  | destroyLock (place : Place)
  /-- `_eventloop->terminate()`. -/
  | destroyTerminate (place : Place)
  /-- `_thread->join()`. -/
  | destroyJoin (place : Place)
  /-- `delete _eventloop`. -/
  | destroyDelete (place : Place)
  /-- The end of the destructor. -/
  | destroyUnlock (place : Place)
deriving DecidableEq

/-- The loop runners are called under the mutex of the loop. -/
def Place.held (party : Party) : Place → List Lock
  | .looped => [.loop party]
  | .host | .handler => []

/-- A thread that stands at a point holds these locks, each as often as it has taken it. -/
def Point.held (party : Party) : Point → List Lock
  | .popUnlock _ | .clearUnlock => [.loop party]
  | .code place | .postLock place | .sendLock place | .destroyLock place => place.held party
  | .postUnlock place => .loop party :: place.held party
  | .sendLoopUnlock place => .loop party.other :: .data :: place.held party
  | .sendLoopLock place | .sendUnlock place | .destroyTerminate place | .destroyJoin place
  | .destroyDelete place | .destroyUnlock place => .data :: place.held party
  | .entered | .test | .runnersLock | .popLock | .waiting | .clearLock | .ended => []

/-- The next statement of the thread takes this lock. -/
def Point.wants (party : Party) : Point → Option Lock
  | .runnersLock | .popLock | .clearLock | .postLock _ => some (.loop party)
  | .sendLock _ | .destroyLock _ => some .data
  | .sendLoopLock _ => some (.loop party.other)
  | _ => none

/-- The code of the user calls one of these functions, or the thread goes on. -/
inductive Action where
  | next
  /-- `EventLoop::run`. -/
  | run
  /-- `EventLoop::postEvent` on the own loop. -/
  | post
  /-- `WorkerData::postMessage` on the parent, `callerPostMessage` or `onProcessException` on the worker. -/
  | send
  /-- The finalizer of the worker object. -/
  | destroy

/-- One of the two threads takes a step, or another thread terminates the parent's loop. -/
inductive PairLabel where
  | thread (party : Party) (action : Action)
  | terminate

/-- The two threads, their loops and the worker's data. -/
structure Pair where
  point : Party → Point
  terminated : Party → Bool
  events : Party → Nat
  alive : Bool

namespace Pair

/-- The worker's thread has been created, and the parent's loop does not run yet. -/
def initial : Pair where
  point
    | .parent => .code .host
    | .worker => .entered
  terminated _ := false
  events _ := 0
  alive := true

/-- The locks that a thread holds. -/
def held (pair : Pair) (party : Party) : List Lock := (pair.point party).held party

/-- The lock that a thread takes next. -/
def wants (pair : Pair) (party : Party) : Option Lock := (pair.point party).wants party

/-- The other thread holds the lock that the thread takes next. -/
def blocked (pair : Pair) (party : Party) : Bool :=
  match pair.wants party with
  | some lock => (pair.held party.other).contains lock
  | none => false

/-- The thread moves on to a point. -/
def move (pair : Pair) (party : Party) (point : Point) : Pair :=
  { pair with point := Function.update pair.point party point }

/-- A loop gets another queue. -/
def queue (pair : Pair) (party : Party) (events : Nat) : Pair :=
  { pair with events := Function.update pair.events party events }

/-- The flag of a loop is written. -/
def flag (pair : Pair) (party : Party) (terminated : Bool) : Pair :=
  { pair with terminated := Function.update pair.terminated party terminated }

/-- The thread executes its next statement. -/
def next (pair : Pair) (party : Party) : Option Pair :=
  match pair.point party with
  | .entered => some ((pair.flag party false).move party .test)
  | .test => some (pair.move party (if pair.terminated party then .clearLock else .runnersLock))
  | .runnersLock => some (pair.move party (.code .looped))
  | .code .looped => some (pair.move party .popLock)
  | .code .handler => some (pair.move party .popLock)
  | .code .host => none
  | .popLock =>
      some ((pair.queue party (pair.events party - 1)).move party (.popUnlock (pair.events party != 0)))
  | .popUnlock true => some (pair.move party (.code .handler))
  | .popUnlock false => some (pair.move party .waiting)
  | .waiting => some (pair.move party .test)
  | .clearLock => some ((pair.queue party 0).move party .clearUnlock)
  | .clearUnlock =>
      match party with
      | .parent => some (pair.move party (.code .host))
      | .worker => some (pair.move party .ended)
  | .ended => none
  | .postLock place => some ((pair.queue party (pair.events party + 1)).move party (.postUnlock place))
  | .postUnlock place => some (pair.move party (.code place))
  | .sendLock place => some (pair.move party (.sendLoopLock place))
  | .sendLoopLock place =>
      some ((pair.queue party.other (pair.events party.other + 1)).move party (.sendLoopUnlock place))
  | .sendLoopUnlock place => some (pair.move party (.sendUnlock place))
  | .sendUnlock place => some (pair.move party (.code place))
  | .destroyLock place => some (pair.move party (.destroyTerminate place))
  | .destroyTerminate place => some ((pair.flag .worker true).move party (.destroyJoin place))
  | .destroyJoin place =>
      if pair.point .worker = .ended then some (pair.move party (.destroyDelete place)) else none
  | .destroyDelete place => some ({ pair with alive := false }.move party (.destroyUnlock place))
  | .destroyUnlock place => some (pair.move party (.code place))

/-- The parent sends until the worker is destroyed, and the worker sends while it handles an event. -/
def sends (pair : Pair) : Party → Place → Bool
  | .parent, _ => pair.alive
  | .worker, .handler => true
  | .worker, _ => false

/-- Only the parent runs the finalizer, once. -/
def destroys (pair : Pair) : Party → Bool
  | .parent => pair.alive
  | .worker => false

/-- The thread executes its next statement, or the code of the user calls a function. -/
def act (pair : Pair) (party : Party) (action : Action) : Option Pair :=
  match action, pair.point party with
  | .next, _ => pair.next party
  | .run, .code .host => some (pair.move party .entered)
  | .post, .code place => some (pair.move party (.postLock place))
  | .send, .code place => if pair.sends party place then some (pair.move party (.sendLock place)) else none
  | .destroy, .code place => if pair.destroys party then some (pair.move party (.destroyLock place)) else none
  | _, _ => none

/-- A thread whose next lock is taken by the other thread has no step. -/
def step (pair : Pair) : PairLabel → Option Pair
  | .thread party action => if pair.blocked party then none else pair.act party action
  | .terminate => some (pair.flag .parent true)

end Pair

end Dtel
