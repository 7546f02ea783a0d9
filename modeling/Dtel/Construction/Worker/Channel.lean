/-
This file models the message channels between a parent's event loop and its workers.
-/
import Dtel.Construction.Worker.Data

namespace Dtel

/-- `Duktape.enc` and `Duktape.dec` are fixed functions, and `dec` accepts all that `enc` returns. -/
structure Codec (Value Message Payload : Type) where
  encode : Value → Message
  decode : Message → Option Payload
  defined : ∀ value, (decode (encode value)).isSome

/-- This is the payload of a value that is encoded, posted and decoded. -/
def Codec.roundTrip {Value Message Payload : Type} (codec : Codec Value Message Payload) (value : Value) : Payload :=
  (codec.decode (codec.encode value)).get (codec.defined value)

/-- The parent's event loop receives messages and errors of its workers. Both keep a reference to the worker object. -/
inductive ParentEvent (Message Other : Type) where
  | postMessageEvent (ref : Nat) (message : Message)
  | errorEvent (ref : Nat) (message : String)
  | other (event : Other)
deriving DecidableEq

/-- The event loop of a worker receives messages of the parent. -/
inductive WorkerEvent (Message Other : Type) where
  | workerPostMessageEvent (message : Message)
  | other (event : Other)
deriving DecidableEq

/-- A worker reports an event "message" with `data`, or an event "error" with `message`. -/
inductive WorkerReport (Data : Type) where
  | message (data : Data)
  | error (what : String)
deriving DecidableEq

/-- The error text of a report stays as it is. -/
def WorkerReport.map {Value Payload : Type} (convert : Value → Payload) : WorkerReport Value → WorkerReport Payload
  | .message data => .message (convert data)
  | .error what => .error what

section Apply

variable {Value Message Payload Other : Type}

/-- `apply` dispatches on the object of the reference. It throws before when the message cannot be decoded. -/
def ParentEvent.apply (codec : Codec Value Message Payload) :
    ParentEvent Message Other → Option (Nat × WorkerReport Payload)
  | .postMessageEvent ref message => (codec.decode message).map fun data => (ref, .message data)
  | .errorEvent ref message => some (ref, .error message)
  | .other _ => none

/-- `apply` decodes the message for an event "message" on the worker's global object. `init` has replaced this object,
so `dispatchEvent` finds the constructor `Event` on it only when `loadUrl` registers the constructor again. -/
def WorkerEvent.apply (codec : Codec Value Message Payload) : WorkerEvent Message Other → Option Payload
  | .workerPostMessageEvent message => codec.decode message
  | .other _ => none

/-- Only the functions of `WorkerData` create this event. -/
def ParentEvent.ofWorker : ParentEvent Message Other → Bool
  | .postMessageEvent .. | .errorEvent .. => true
  | .other _ => false

def WorkerEvent.ofParent : WorkerEvent Message Other → Bool
  | .workerPostMessageEvent _ => true
  | .other _ => false

end Apply

/-- The step is a call of `postEvent` with this event. -/
def Label.posted {Other Runner Fn : Type} : Label Other Runner Fn → Option Other
  | .script (.postEvent event) | .thread (.push event) => some event
  | _ => none

/-- A worker has its data and the reference to the object that `new Worker` created. -/
structure Channel (Message Other Runner Fn : Type) where
  data : WorkerData (WorkerEvent Message Other) Runner Fn
  workerref : Nat

/-- The parent's event loop and its workers, in the order of their construction. -/
structure Channels (Message Other Runner Fn : Type) where
  parent : Machine (ParentEvent Message Other) Runner Fn
  workers : List (Channel Message Other Runner Fn)

/-- The parent thread, a worker thread or another thread takes a step. -/
inductive ChannelLabel (Value Message Other Runner Fn : Type) where
  /-- The parent's event loop takes a step that no other label describes. -/
  | parent (label : Label (ParentEvent Message Other) Runner Fn)
  /-- `new Worker` creates the object `this`, and `init` creates the event loop and may report an error. -/
  | construct (this : Nat) (error : Option String) (world : World (WorkerEvent Message Other) Runner Fn)
  /-- A worker takes a step that no other label describes. -/
  | worker (index : Nat) (label : WorkerLabel (WorkerEvent Message Other) Runner Fn)
  /-- A script of the parent calls `postMessage` of a worker. -/
  | postMessage (index : Nat) (value : Value)
  /-- A script of a worker calls its `postMessage`. -/
  | callerPostMessage (index : Nat) (value : Value)
  /-- An exception of an event or of its `release` reaches the loop of a worker. -/
  | onProcessException (index : Nat) (what : String)

namespace Channel

variable {Message Other Runner Fn : Type}

/-- Scripts of a worker run on its thread, or before that on the parent's thread in `loadUrl`. The destructor
keeps `_lock` from its first statement on. -/
def sends (worker : Channel Message Other Runner Fn) : Bool :=
  worker.data.destructor == .uncalled && worker.data.eventloop.pc.scripting &&
    (worker.data.running || !worker.data.thread)

/-- The thread of the worker, or `loadUrl` on the parent's thread, calls `postEvent` of the parent's loop. -/
def postEvent (worker : Channel Message Other Runner Fn) (event : ParentEvent Message Other) :
    Label (ParentEvent Message Other) Runner Fn :=
  if worker.data.thread then .thread (.push event) else .script (.postEvent event)

end Channel

/-- This step of a worker neither brings a message of the parent nor lets an exception out of an event. -/
def WorkerLabel.silent {Message Other Runner Fn : Type} : WorkerLabel (WorkerEvent Message Other) Runner Fn → Bool
  | .eventloop (.ended (some _)) => false
  | .eventloop label => !label.posted.any WorkerEvent.ofParent
  | .run | .destroy => true

namespace Channels

variable {Value Message Payload Other Runner Fn : Type}

/-- Other runners may be registered before the timers, and there is no worker. -/
def initial (runners : List (Runner × Int)) : Channels Message Other Runner Fn := ⟨.initial runners, []⟩

def stepParent (channels : Channels Message Other Runner Fn) (label : Label (ParentEvent Message Other) Runner Fn) :
    Option (Channels Message Other Runner Fn) :=
  (channels.parent.step label).map fun parent => { channels with parent := parent }

def stepWorker (channels : Channels Message Other Runner Fn) (index : Nat)
    (label : WorkerLabel (WorkerEvent Message Other) Runner Fn) : Option (Channels Message Other Runner Fn) :=
  match channels.workers[index]? with
  | some worker =>
      (worker.data.step label).map fun data =>
        { channels with workers := channels.workers.set index { worker with data := data } }
  | none => none

/-- The constructor reports the error of `init` before `loadUrl` and `run`. -/
def construct (channels : Channels Message Other Runner Fn) (this : Nat) (error : Option String)
    (world : World (WorkerEvent Message Other) Runner Fn) : Option (Channels Message Other Runner Fn) :=
  let channels := { channels with workers := channels.workers ++ [⟨.initial world, this⟩] }
  match error with
  | some what => channels.stepParent (.script (.postEvent (.errorEvent this what)))
  | none => some channels

/-- `WorkerData::postMessage` posts to the worker's event loop. -/
def postMessage (codec : Codec Value Message Payload) (channels : Channels Message Other Runner Fn) (index : Nat)
    (value : Value) : Option (Channels Message Other Runner Fn) :=
  channels.stepWorker index (.eventloop (.thread (.push (.workerPostMessageEvent (codec.encode value)))))

/-- `WorkerData::callerPostMessage` posts to the parent's event loop. -/
def callerPostMessage (codec : Codec Value Message Payload) (channels : Channels Message Other Runner Fn) (index : Nat)
    (value : Value) : Option (Channels Message Other Runner Fn) :=
  match channels.workers[index]? with
  | some worker =>
      if worker.sends then
        channels.stepParent (worker.postEvent (.postMessageEvent worker.workerref (codec.encode value)))
      else none
  | none => none

/-- `WorkerData::onProcessException` posts to the parent's event loop, and the worker's loop goes on. -/
def onProcessException (channels : Channels Message Other Runner Fn) (index : Nat) (what : String) :
    Option (Channels Message Other Runner Fn) :=
  match channels.workers[index]? with
  | some worker =>
      if worker.data.destructor = .uncalled then
        (channels.stepParent (.thread (.push (.errorEvent worker.workerref what)))).bind fun channels =>
          channels.stepWorker index (.eventloop (.ended (some true)))
      else none
  | none => none

/-- The parent and its workers take one step. -/
def step (codec : Codec Value Message Payload) (channels : Channels Message Other Runner Fn) :
    ChannelLabel Value Message Other Runner Fn → Option (Channels Message Other Runner Fn)
  | .parent label => if label.posted.any ParentEvent.ofWorker then none else channels.stepParent label
  | .construct this error world =>
      -- `new` creates another object for each worker.
      if channels.parent.pc.scripting ∧ this ∉ channels.workers.map Channel.workerref ∧ world.queue.isEmpty then
        channels.construct this error world
      else none
  | .worker index label => if label.silent then channels.stepWorker index label else none
  | .postMessage index value =>
      if channels.parent.pc.scripting then channels.postMessage codec index value else none
  | .callerPostMessage index value => channels.callerPostMessage codec index value
  | .onProcessException index what => channels.onProcessException index what

end Channels

end Dtel
