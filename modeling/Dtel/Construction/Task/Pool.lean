/-
This file models the task pool of an event loop, `ctpl::thread_pool`, as `EventLoop` uses it:
the constructor, `postTask`, `setTaskThreadCount` and the destructor.
-/
namespace Dtel

/-- A thread of the pool stands before one of these statements of `set_thread`. -/
inductive PoolPoint (Task : Type) where
  /-- `isPop = this->q.pop(_f)`, at the start and behind each function. -/
  | pop
  /-- The function runs. -/
  | running (task : Task)
  /-- The function calls `postTask`, which has pushed and will notify. -/
  | pushing (task : Task)
  /-- `if (_flag)`. -/
  | returned
  /-- `std::unique_lock<std::mutex> lock(this->mutex)`. -/
  | lock
  /-- `isPop = this->q.pop(_f)` of the predicate, under the mutex. -/
  | test
  /-- `isPop || this->isDone || _flag` behind a pop that found nothing, under the mutex. -/
  | check
  /-- Nothing: the thread sleeps in `wait`, without the mutex. -/
  | blocked
  /-- `wait` takes the mutex again. -/
  | woken
  /-- `--this->nWaiting`, with the function that the predicate found, under the mutex. -/
  | leave (found : Option Task)
  /-- Nothing: the thread has ended. -/
  | ended
deriving DecidableEq

/-- A thread has its own flag, which tells it to stop. -/
structure PoolThread (Task : Type) where
  flag : Bool
  detached : Bool
  point : PoolPoint Task
deriving DecidableEq

/-- The thread that owns the pool stands before one of these statements. -/
inductive PoolOwner where
  /-- No call of `resize` or of the destructor. -/
  | idle
  /-- The loop of `resize` that creates threads. -/
  | growing (count : Nat)
  /-- The loop of `resize` that stops threads: the next one is in front of the index. -/
  | shrinking (count index : Nat)
  /-- The notification of `resize`. -/
  | shrinkNotify (count : Nat)
  /-- The notification of `stop`. -/
  | stopNotify
  /-- The loop of `stop` that joins the threads. -/
  | joining (index : Nat)
  /-- `this->clear_queue()`. -/
  | clearing
  /-- The pool is destroyed. -/
  | destroyed
deriving DecidableEq

/-- The pool knows all threads that it has created. The vector `threads` of the source holds
the numbers of those that it has not detached. -/
structure TaskPool (Task : Type) where
  threads : List (PoolThread Task)
  slots : List Nat
  queue : List Task
  isDone : Bool
  nWaiting : Nat
  mutex : Option Nat
  unnotified : Nat
  owner : PoolOwner

/-- A thread of the pool, another thread or the owner of the pool takes a step. -/
inductive PoolLabel (Task : Type) where
  /-- A thread of the pool executes its next statement. -/
  | thread (number : Nat)
  /-- The function that a thread runs returns or throws, which the packaged task catches. -/
  | finish (number : Nat)
  /-- The wait of a thread ends without a notification. -/
  | spurious (number : Nat)
  /-- `postTask` pushes, called by a function of the pool or by another thread. -/
  | push (client : Option Nat) (task : Task)
  /-- `postTask` notifies one thread, if one sleeps. -/
  | notify (client : Option Nat) (woken : Option Nat)
  /-- The owner calls `setTaskThreadCount`. -/
  | setTaskThreadCount (count : Nat)
  /-- The owner destroys the pool. -/
  | destroy
  /-- The owner executes its next statement. -/
  | owner

namespace PoolPoint

variable {Task : Type}

/-- The thread holds the mutex. -/
def holds : PoolPoint Task → Bool
  | .test | .check | .leave _ => true
  | _ => false

/-- The next statement reads or writes the pool, and not only the function and the flag of the thread. -/
def usesPool : PoolPoint Task → Bool
  | .running _ | .returned | .ended => false
  | _ => true

/-- The thread sleeps until a notification. -/
def sleeps : PoolPoint Task → Bool
  | .blocked => true
  | _ => false

/-- A `join` of the thread returns. -/
def hasEnded : PoolPoint Task → Bool
  | .ended => true
  | _ => false

/-- A notification ends the sleep of a thread. -/
def wake : PoolPoint Task → PoolPoint Task
  | .blocked => .woken
  | point => point

end PoolPoint

namespace TaskPool

variable {Task : Type}

/-- The constructor `_tasks(3)` creates three threads. -/
def initial : TaskPool Task := ⟨[], [], [], false, 0, none, 0, .growing 3⟩

/-- A thread moves on to a point. -/
def move (pool : TaskPool Task) (number : Nat) (thread : PoolThread Task) (point : PoolPoint Task) : TaskPool Task :=
  { pool with threads := pool.threads.set number { thread with point := point } }

/-- `notify_all` wakes each thread that sleeps. -/
def notifyAll (pool : TaskPool Task) : TaskPool Task :=
  { pool with threads := pool.threads.map fun thread => { thread with point := thread.point.wake } }

/-- `notify_one` wakes one thread that sleeps, and has no effect when none does. -/
def notifyOne (pool : TaskPool Task) (woken : Option Nat) : Option (TaskPool Task) :=
  match woken with
  | some number =>
      match pool.threads[number]? with
      | some thread => if thread.point.sleeps then some (pool.move number thread .woken) else none
      | none => none
  | none => if pool.threads.any fun thread => thread.point.sleeps then none else some pool

/-- A thread executes its next statement, where this needs no outer choice. -/
def threadStep (pool : TaskPool Task) (number : Nat) (thread : PoolThread Task) : Option (TaskPool Task) :=
  match thread.point with
  | .pop =>
      match pool.queue with
      | [] => some (pool.move number thread .lock)
      | task :: rest => some ({ pool with queue := rest }.move number thread (.running task))
  | .returned => some (pool.move number thread (if thread.flag then .ended else .pop))
  | .lock =>
      if pool.mutex = none then
        some ({ pool with mutex := some number, nWaiting := pool.nWaiting + 1 }.move number thread .test)
      else none
  | .test =>
      match pool.queue with
      | [] => some (pool.move number thread .check)
      | task :: rest => some ({ pool with queue := rest }.move number thread (.leave (some task)))
  | .check =>
      if pool.isDone || thread.flag then some (pool.move number thread (.leave none))
      else some ({ pool with mutex := none }.move number thread .blocked)
  | .woken => if pool.mutex = none then some ({ pool with mutex := some number }.move number thread .test) else none
  | .leave (some task) =>
      some ({ pool with mutex := none, nWaiting := pool.nWaiting - 1 }.move number thread (.running task))
  | .leave none => some ({ pool with mutex := none, nWaiting := pool.nWaiting - 1 }.move number thread .ended)
  | .running _ | .pushing _ | .blocked | .ended => none

/-- The function of a thread runs, and may end or call `postTask`. -/
def functionStep (pool : TaskPool Task) (number : Nat) (thread : PoolThread Task) : Option (TaskPool Task) :=
  match thread.point with
  | .running _ => some (pool.move number thread .returned)
  | _ => none

/-- `q.push` in `postTask`. A call on a destroyed pool is undefined. -/
def push (pool : TaskPool Task) (client : Option Nat) (task : Task) : Option (TaskPool Task) :=
  if pool.owner = .destroyed then none
  else
    match client with
    | none => some { pool with queue := pool.queue ++ [task], unnotified := pool.unnotified + 1 }
    | some number =>
        match pool.threads[number]? with
        | some thread =>
            match thread.point with
            | .running present => some ({ pool with queue := pool.queue ++ [task] }.move number thread (.pushing present))
            | _ => none
        | none => none

/-- The client notifies under the mutex and returns from `postTask`. -/
def notify (pool : TaskPool Task) (client woken : Option Nat) : Option (TaskPool Task) :=
  if pool.mutex = none ∧ pool.owner ≠ .destroyed then
    match client with
    | none =>
        if pool.unnotified = 0 then none else { pool with unnotified := pool.unnotified - 1 }.notifyOne woken
    | some number =>
        match pool.threads[number]? with
        | some thread =>
            match thread.point with
            | .pushing present => (pool.move number thread (.running present)).notifyOne woken
            | _ => none
        | none => none
  else none

/-- `resize` creates threads, or stops those behind the new count. -/
def resize (pool : TaskPool Task) (count : Nat) : TaskPool Task :=
  if pool.isDone then pool
  else if pool.slots.length ≤ count then { pool with owner := .growing count }
  else { pool with owner := .shrinking count pool.slots.length }

/-- The owner executes its next statement. -/
def ownerStep (pool : TaskPool Task) : Option (TaskPool Task) :=
  match pool.owner with
  | .idle | .destroyed => none
  | .growing count =>
      if pool.slots.length < count then
        some { pool with
          threads := pool.threads ++ [⟨false, false, .pop⟩]
          slots := pool.slots ++ [pool.threads.length] }
      else some { pool with owner := .idle }
  | .shrinking count index =>
      if count < index then
        -- The flag is set before the thread is detached.
        (pool.slots[index - 1]?).map fun number =>
          { pool with
            threads := pool.threads.modify number fun thread => { thread with flag := true, detached := true }
            owner := .shrinking count (index - 1) }
      else some { pool with owner := .shrinkNotify count }
  | .shrinkNotify count =>
      if pool.mutex = none then some { pool.notifyAll with slots := pool.slots.take count, owner := .idle } else none
  | .stopNotify => if pool.mutex = none then some { pool.notifyAll with owner := .joining 0 } else none
  | .joining index =>
      match pool.slots[index]? with
      | none => some { pool with owner := .clearing }
      | some number =>
          match pool.threads[number]? with
          | some thread =>
              if thread.point.hasEnded then some { pool with owner := .joining (index + 1) } else none
          | none => none
  | .clearing =>
      match pool.queue with
      | [] => some { pool with slots := [], owner := .destroyed }
      | _ :: rest => some { pool with queue := rest }

/-- The pool and its clients take one step. A statement that uses a destroyed pool is undefined. -/
def step (pool : TaskPool Task) : PoolLabel Task → Option (TaskPool Task)
  | .thread number =>
      match pool.threads[number]? with
      | some thread =>
          if pool.owner = .destroyed ∧ thread.point.usesPool then none else pool.threadStep number thread
      | none => none
  | .finish number =>
      match pool.threads[number]? with
      | some thread => pool.functionStep number thread
      | none => none
  | .spurious number =>
      match pool.threads[number]? with
      | some thread =>
          if thread.point.sleeps ∧ pool.owner ≠ .destroyed then some (pool.move number thread .woken) else none
      | none => none
  | .push client task => pool.push client task
  | .notify client woken => pool.notify client woken
  | .setTaskThreadCount count => if pool.owner = .idle then some (pool.resize count) else none
  | .destroy =>
      if pool.owner = .idle ∧ pool.isDone = false then some { pool with isDone := true, owner := .stopNotify } else none
  | .owner => pool.ownerStep

end TaskPool

end Dtel
