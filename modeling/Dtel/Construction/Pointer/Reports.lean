/-
This file models what the threads do to the pointers of `WorkerData` and of its reports: the parent's thread constructs
the worker, applies its reports and destroys it, and the worker's thread makes the reports.
-/
import Dtel.Construction.Pointer.Store
import Dtel.Library.Execution

namespace Dtel

/-- A `WorkerData` has the pointer `_workerref` until its destructor has joined the thread. -/
structure ReportWorker where
  workerref : Nat
  started : Bool
  ended : Bool
  deleted : Bool
deriving DecidableEq

/-- The parent's thread has the number 0, and the thread of a worker the number behind its index. The variables of each
thread and the queue of the parent's loop point to these objects. -/
structure Reports where
  store : PointerStore
  workers : List ReportWorker
  queue : List Nat
  locals : List (List Nat)

/-- A thread takes a step. The parent's thread holds the lock of its loop where it uses the queue. -/
inductive ReportLabel where
  /-- `new WorkerData(handler, new Ref(ctx))`. -/
  | construct
  /-- `WorkerData::run`. -/
  | run (index : Nat)
  /-- `make_intrusive` creates an `ErrorEvent` or a `PostMessageEvent` from `_workerref`. -/
  | report (thread index : Nat)
  /-- `_events.push_back(event)`. -/
  | push (thread event : Nat)
  /-- `event = _events.front()`, followed by `pop_front()`. -/
  | pop
  /-- `_events.clear()`, or the destructor of the loop, destroys the first pointer of the queue. -/
  | clear
  /-- `apply` copies the member `_ref` of the event. -/
  | read (event ref : Nat)
  /-- A variable of the parent's thread is copied. -/
  | copy (object : Nat)
  /-- A variable is destroyed. -/
  | leave (thread object : Nat)
  /-- The thread of a worker ends. -/
  | finish (index : Nat)
  /-- The destructor of `WorkerData`, which has joined the thread, destroys `_workerref`. -/
  | deleteData (index : Nat)
  /-- The innermost call of the thread goes on. -/
  | next (thread : Nat)
deriving DecidableEq

/-- The innermost call of the thread destroys a member of its object before it goes on. -/
def PointerStore.goOn (store : PointerStore) (thread : Nat) : PointerLabel :=
  match store.threads[thread]? with
  | some (.delete object :: _) =>
      match store.pointers.find? fun pointer => pointer.owner = some object with
      | some pointer => .destroy thread pointer
      | none => .next thread
  | _ => .next thread

namespace ReportWorker

/-- A script of the worker reports from `init` and `loadUrl` on the parent's thread, and then from its own thread. -/
def reportsOn (worker : ReportWorker) (index thread : Nat) : Bool :=
  !worker.deleted && if worker.started then !worker.ended && thread == index + 1 else thread == 0

end ReportWorker

namespace Reports

def initial (threads : Nat) : Reports := ⟨.initial threads, [], [], List.replicate threads []⟩

/-- A thread performs these operations, and its variables change. A destructor may run scripts, but `Release` does not. -/
def perform (reports : Reports) (thread : Nat) (operations : List PointerLabel) (change : List Nat → List Nat) :
    Option Reports :=
  match reports.locals[thread]?, reports.store.threads[thread]? with
  | _, some (.release _ :: _) => none
  | some objects, some _ =>
      (Execution.exec PointerStore.step reports.store operations).map fun store =>
        { reports with store := store, locals := reports.locals.set thread (change objects) }
  | _, _ => none

/-- A variable of the thread points to the object. -/
def holds (reports : Reports) (thread object : Nat) : Bool :=
  match reports.locals[thread]? with
  | some objects => objects.contains object
  | none => false

/-- The object is a `Ref` and no event. -/
def isRef (reports : Reports) (object : Nat) : Bool :=
  reports.workers.any fun worker => worker.workerref == object

/-- The worker changes. -/
def setWorker (reports : Reports) (index : Nat) (worker : ReportWorker) : Reports :=
  { reports with workers := reports.workers.set index worker }

/-- The member keeps the pointer of the parameter, which is destroyed later. -/
def construct (reports : Reports) : Option Reports :=
  let ref := reports.store.objects.length
  (reports.perform 0 [.create, .construct ref none, .copy ⟨none, some ref⟩ none] fun objects => ref :: objects).map
    fun reports => { reports with workers := reports.workers ++ [⟨ref, false, false, false⟩] }

/-- The constructor of the event has a parameter, too. -/
def report (reports : Reports) (thread index : Nat) : Option Reports :=
  match reports.workers[index]? with
  | some worker =>
      let event := reports.store.objects.length
      if worker.reportsOn index thread then
        reports.perform thread [.copy ⟨none, some worker.workerref⟩ none, .create,
          .copy ⟨none, some worker.workerref⟩ (some event), .construct event none]
            fun objects => event :: worker.workerref :: objects
      else none
  | none => none

/-- A thread takes a step. -/
def step (reports : Reports) : ReportLabel → Option Reports
  | .construct => reports.construct
  | .run index =>
      match reports.workers[index]? with
      | some worker => if worker.deleted then none else some (reports.setWorker index { worker with started := true })
      | none => none
  | .report thread index => reports.report thread index
  | .push thread event =>
      if reports.holds thread event ∧ reports.isRef event = false then
        (reports.perform thread [.copy ⟨none, some event⟩ none] id).map fun reports =>
          { reports with queue := reports.queue ++ [event] }
      else none
  | .pop =>
      match reports.queue with
      | event :: rest =>
          (reports.perform 0 [.copy ⟨none, some event⟩ none, .destroy 0 ⟨none, some event⟩] fun objects =>
            event :: objects).map fun reports => { reports with queue := rest }
      | [] => none
  | .clear =>
      match reports.queue with
      | event :: rest =>
          (reports.perform 0 [.destroy 0 ⟨none, some event⟩] id).map fun reports => { reports with queue := rest }
      | [] => none
  | .read event ref =>
      if reports.holds 0 event then
        reports.perform 0 [.copy ⟨some event, some ref⟩ none] fun objects => ref :: objects
      else none
  | .copy object =>
      if reports.holds 0 object then
        reports.perform 0 [.copy ⟨none, some object⟩ none] fun objects => object :: objects
      else none
  | .leave thread object =>
      if reports.holds thread object then
        reports.perform thread [.destroy thread ⟨none, some object⟩] fun objects => objects.erase object
      else none
  | .finish index =>
      match reports.workers[index]? with
      | some worker =>
          if worker.started ∧ reports.locals[index + 1]? = some [] ∧ reports.store.threads[index + 1]? = some [] then
            some (reports.setWorker index { worker with ended := true })
          else none
      | none => none
  | .deleteData index =>
      match reports.workers[index]? with
      | some worker =>
          if worker.ended ∧ worker.deleted = false then
            (reports.perform 0 [.destroy 0 ⟨none, some worker.workerref⟩] id).map fun reports =>
              reports.setWorker index { worker with deleted := true }
          else none
      | none => none
  | .next thread =>
      (reports.store.step (reports.store.goOn thread)).map fun store => { reports with store := store }

end Reports

end Dtel
