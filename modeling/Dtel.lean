import Dtel.Library.Execution
import Dtel.Library.StableSort
import Dtel.Library.Line
import Dtel.Library.Walk
import Dtel.Library.Sweep
import Dtel.Library.Mutex
import Dtel.Library.FreeList
import Dtel.Library.Calls
import Dtel.Construction.Timer.Handler
import Dtel.Construction.Loop.World
import Dtel.Construction.Loop.Machine
import Dtel.Construction.Timer.Life
import Dtel.Construction.Timer.Check
import Dtel.Construction.Timer.Registrations
import Dtel.Proof.Timer.Handler
import Dtel.Proof.Timer.Life
import Dtel.Proof.Timer.Sound
import Dtel.Proof.Loop.Step
import Dtel.Proof.Timer.Refinement
import Dtel.Proof.Timer.Clear
import Dtel.Proof.Timer.Waiting
import Dtel.Proof.Timer.Order
import Dtel.Proof.Timer.Table
import Dtel.Proof.Timer.Count
import Dtel.Construction.Loop.Process
import Dtel.Proof.Timer.Abort
import Dtel.Proof.Timer.Starvation
import Dtel.Proof.Timer.Check
import Dtel.Proof.Timer.Ids
import Dtel.Proof.Timer.Registrations
import Dtel.Proof.Loop.Sleep
import Dtel.Proof.Loop.Runners
import Dtel.Proof.Loop.Release
import Dtel.Proof.Loop.WakeUp
import Dtel.Proof.Loop.Queue
import Dtel.Proof.Loop.Terminate
import Dtel.Proof.Loop.Progress
import Dtel.Proof.Loop.Stop
import Dtel.Proof.Loop.Drain
import Dtel.Construction.Worker.Data
import Dtel.Proof.Worker.Shutdown
import Dtel.Construction.Worker.Locks
import Dtel.Proof.Worker.Locks
import Dtel.Construction.Worker.Object
import Dtel.Construction.Worker.Channel
import Dtel.Proof.Worker.Finalizer
import Dtel.Proof.Worker.Delivery
import Dtel.Proof.Worker.Channel
import Dtel.Construction.EventTarget.Target
import Dtel.Proof.EventTarget.Listeners
import Dtel.Proof.EventTarget.Removal
import Dtel.Proof.EventTarget.Dispatch
import Dtel.Proof.EventTarget.Types
import Dtel.Construction.EventTarget.Attribute
import Dtel.Proof.EventTarget.Attribute
import Dtel.Construction.Duktape.Context
import Dtel.Construction.Duktape.Refs
import Dtel.Construction.Duktape.ValueObject
import Dtel.Construction.Duktape.Script
import Dtel.Proof.Duktape.Api
import Dtel.Proof.Duktape.Refs
import Dtel.Proof.Duktape.References
import Dtel.Proof.Duktape.ValueTree
import Dtel.Proof.Duktape.ValueObject
import Dtel.Proof.Duktape.Script
import Dtel.Proof.Duktape.Balance
import Dtel.Construction.Console.Output
import Dtel.Proof.Console.Output
import Dtel.Proof.Duktape.Failure
import Dtel.Construction.Duktape.Finalizers
import Dtel.Proof.Duktape.Finalizers
import Dtel.Library.Threads
import Dtel.Construction.Task.Pool
import Dtel.Proof.Task.Step
import Dtel.Proof.Task.Wake
import Dtel.Proof.Task.Size
import Dtel.Proof.Task.Order
import Dtel.Proof.Task.Crew
import Dtel.Proof.Task.Settle
import Dtel.Proof.Task.Shutdown
import Dtel.Proof.Task.Resize
import Dtel.Library.Ownership
import Dtel.Construction.Pointer.Store
import Dtel.Construction.Pointer.Timers
import Dtel.Proof.Pointer.Step
import Dtel.Proof.Pointer.Sound
import Dtel.Proof.Pointer.Counter
import Dtel.Proof.Pointer.Survivors
import Dtel.Proof.Pointer.Effect
import Dtel.Proof.Pointer.Timers
import Dtel.Proof.Pointer.Loop
import Dtel.Construction.Worker.Collect
import Dtel.Proof.Worker.Retention
import Dtel.Proof.Worker.Completion
import Dtel.Proof.Worker.Arrival
import Dtel.Construction.Pointer.Reports
import Dtel.Proof.Pointer.Reports
