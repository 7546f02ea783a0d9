/-
This file models the JavaScript object `Worker`: its constructor, its method `postMessage`, and its finalizer.
-/
import Mathlib.Data.List.Basic

namespace Dtel

/-- The members of `WorkerData` that its destructor reads. The event loop holds the posted messages. -/
structure WorkerPointers (Message : Type) where
  ctx : Bool
  eventloop : Option (List Message)
  thread : Bool

/-- The constructor of `WorkerData` sets all pointers to null. -/
def WorkerPointers.null {Message : Type} : WorkerPointers Message := ⟨false, none, false⟩

/-- The destructor of `WorkerData` calls these functions. -/
inductive Release where
  | terminate
  | join
  | deleteEventLoop
  | destroyContext
deriving DecidableEq

/-- The property `PROP_DATA` points to the data. The errors of `init` are reported to the parent's event loop. -/
structure WorkerObject (Message : Type) where
  data : Option (WorkerPointers Message)
  reported : List String
  released : List Release

/-- A call throws, or the code follows a null pointer, which C++ leaves undefined. -/
inductive WorkerError where
  | thrown (what : String)
  | nullPointer
deriving DecidableEq

/-- These calls of the constructor and of `postMessage` can throw. -/
inductive Fallible where
  | requireString
  | abstractWorker
  | workerHandler
  | newRef
  | createContext
  | registerEventTarget
  /-- The statements in the `try` block of `init`. -/
  | globalScope
  | putData
  | setFinalizer
  | loadUrl
  /-- The creation of the thread in `run`. -/
  | newThread
  | encode
deriving DecidableEq

namespace WorkerObject

variable {Message : Type}

abbrev Script (Message : Type) := EStateM WorkerError (WorkerObject Message)

/-- This call throws when the outcome says so. -/
def attempt (outcome : Fallible → Option String) (call : Fallible) : Script Message Unit :=
  match outcome call with
  | some what => throw (.thrown what)
  | none => return

def onProcessException (what : String) : Script Message Unit :=
  modify fun object => { object with reported := object.reported ++ [what] }

/-- The `try` block of `init` reports what it catches. -/
def tryGlobalScope (outcome : Fallible → Option String) : Script Message Unit :=
  match outcome .globalScope with
  | some what => onProcessException what
  | none => return

def init (outcome : Fallible → Option String) (data : WorkerPointers Message) : Script Message (WorkerPointers Message) := do
  attempt outcome .createContext
  let data := { data with ctx := true }
  let data := { data with eventloop := some [] }
  attempt outcome .registerEventTarget
  tryGlobalScope outcome
  return data

/-- `WorkerData::run` starts the thread once. -/
def run (outcome : Fallible → Option String) (data : WorkerPointers Message) : Script Message (WorkerPointers Message) := do
  if data.thread then
    return data
  attempt outcome .newThread
  return { data with thread := true }

/-- The property `PROP_DATA` points to the data. -/
def pointTo (data : WorkerPointers Message) : Script Message Unit :=
  modify fun object => { object with data := some data }

def rWorkerConstruct (outcome : Fallible → Option String) : Script Message Unit := do
  attempt outcome .requireString
  attempt outcome .abstractWorker
  attempt outcome .workerHandler
  attempt outcome .newRef
  let data ← init outcome .null
  attempt outcome .putData
  pointTo data
  attempt outcome .setFinalizer
  attempt outcome .loadUrl
  let started ← run outcome data
  pointTo started

/-- `WorkerData::postMessage` posts to the worker's event loop, if there is one. -/
def postMessage (message : Message) (data : WorkerPointers Message) : WorkerPointers Message :=
  { data with eventloop := data.eventloop.map (· ++ [message]) }

def rWorkerPostMessage (outcome : Fallible → Option String) (message : Message) : Script Message Unit := do
  let object ← get
  attempt outcome .encode
  match object.data with
  | some data => pointTo (postMessage message data)
  | none => throw .nullPointer

def release (call : Release) : Script Message Unit :=
  modify fun object => { object with released := object.released ++ [call] }

/-- The destructor tests the event loop and the context, but not the thread. -/
def destructor (data : WorkerPointers Message) : Script Message Unit := do
  if data.eventloop.isSome then
    release .terminate
    if !data.thread then
      throw .nullPointer
    release .join
    release .deleteEventLoop
  if data.ctx then
    release .destroyContext

def rWorkerFinalizer : Script Message Unit := do
  match (← get).data with
  | some data =>
      destructor data
      modify fun object => { object with data := none }
  | none => return

inductive ObjectLabel (Message : Type) where
  | construct (outcome : Fallible → Option String)
  | postMessage (outcome : Fallible → Option String) (message : Message)
  | finalize

/-- A script of the parent continues after a call that throws. Nothing is known after a null pointer. -/
def after {A : Type} : EStateM.Result WorkerError (WorkerObject Message) A → Option (WorkerObject Message)
  | .ok _ object => some object
  | .error (.thrown _) object => some object
  | .error .nullPointer _ => none

def step (object : WorkerObject Message) : ObjectLabel Message → Option (WorkerObject Message)
  | .construct outcome => after (rWorkerConstruct outcome object)
  | .postMessage outcome message => after (rWorkerPostMessage outcome message object)
  | .finalize => after (rWorkerFinalizer object)

end WorkerObject

end Dtel
