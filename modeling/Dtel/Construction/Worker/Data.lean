/-
This file models the thread of a worker and the destructor that stops it.
-/
import Dtel.Construction.Loop.Machine

namespace Dtel

/-- The destructor of `WorkerData` stands at one of these points. -/
inductive Destructor where
  /-- The destructor has not been called. -/
  | uncalled
  /-- The destructor holds `_lock` and will call `terminate`. -/
  | locked
  /-- The call of `terminate` has returned, and the destructor is in `join`. -/
  | terminated
  /-- The thread has ended, and the event loop will be deleted. -/
  | joined
  /-- The event loop is deleted. -/
  | destroyed
deriving DecidableEq

/-- The destructor has called `terminate`. -/
def Destructor.afterTerminate : Destructor → Bool
  | .terminated | .joined | .destroyed => true
  | .uncalled | .locked => false

/-- A worker owns an event loop and the thread that runs it. -/
structure WorkerData (Other Runner Fn : Type) where
  eventloop : Machine Other Runner Fn
  thread : Bool
  destructor : Destructor

/-- The parent thread, the worker thread or the destructor takes a step. -/
inductive WorkerLabel (Other Runner Fn : Type) where
  /-- The parent calls `WorkerData::run`. -/
  | run
  /-- The worker's event loop takes a step, on its own thread or on another. -/
  | eventloop (label : Label Other Runner Fn)
  /-- The destructor executes its next statement. -/
  | destroy

namespace WorkerData

variable {Other Runner Fn : Type}

/-- After `init`, the worker has an event loop and no thread. -/
def initial (world : World Other Runner Fn) : WorkerData Other Runner Fn := ⟨⟨world, .outside, 0⟩, false, .uncalled⟩

/-- The worker thread is inside `internalRun`. -/
def running (data : WorkerData Other Runner Fn) : Bool :=
  match data.eventloop.pc with
  | .outside => false
  | _ => data.thread

/-- The worker thread runs its event loop once. An exception that left `run` would end the process. -/
def enabled (data : WorkerData Other Runner Fn) : Label Other Runner Fn → Bool
  | .tick _ | .thread _ => true
  | .run | .ended (some false) => false
  | _ => data.running

/-- `WorkerData::run` creates the thread, which starts with the call of `EventLoop::run`. -/
def run (data : WorkerData Other Runner Fn) : WorkerData Other Runner Fn :=
  if data.thread then data
  else { data with eventloop := { data.eventloop with pc := .entered }, thread := true }

/-- The destructor executes its next statement. A `join` without a thread is undefined. -/
def destroyStep (data : WorkerData Other Runner Fn) : Option (WorkerData Other Runner Fn) :=
  match data.destructor with
  | .uncalled => some { data with destructor := .locked }
  | .locked =>
      some { data with
        eventloop := { data.eventloop with world := data.eventloop.world.terminate }
        destructor := .terminated }
  | .terminated => if data.thread && !data.running then some { data with destructor := .joined } else none
  | .joined => some { data with destructor := .destroyed }
  | .destroyed => none

/-- The worker and its owner take one step. -/
def step (data : WorkerData Other Runner Fn) :
    WorkerLabel Other Runner Fn → Option (WorkerData Other Runner Fn)
  | .run => if data.destructor = .uncalled then some data.run else none
  | .eventloop label =>
      if data.destructor ≠ .destroyed ∧ data.enabled label then
        (data.eventloop.step label).map fun eventloop => { data with eventloop := eventloop }
      else none
  | .destroy => data.destroyStep

end WorkerData

end Dtel
