/-
This file models the objects `Worker` in the heap of the parent, and the collector that finalizes objects.
-/
import Mathlib.Logic.Relation
import Dtel.Construction.Duktape.Refs

namespace Dtel.Duktape

/-- A property lookup follows at most this many prototypes. -/
def prototypeChainSanity : Nat := 10000

/-- A `WorkerData` keeps a reference to the object for which it was created. -/
structure HeapData where
  object : Nat
  workerref : Ref
  deleted : Bool
deriving DecidableEq

/-- The heap of the parent has its references, and the prototypes of its objects. An object with the own property
`PROP_DATA` points to one of the data, which are in the order of their creation. -/
structure WorkerHeap where
  table : RefTable
  prototype : Nat → Option Nat
  pointer : Nat → Option Nat
  data : List HeapData

inductive WorkerHeapLabel where
  /-- A script changes the stack, the objects and their prototypes. Hidden properties are out of its reach. -/
  | script (stack : List Value) (reserve : Nat) (objects : Nat → Object) (allocated : Nat)
      (prototype : Nat → Option Nat)
  /-- Native code uses references of its own. -/
  | refs (label : RefLabel)
  /-- `r_Worker_construct` creates the data for the object `this` at the top. -/
  | construct
  /-- `r_Worker_postMessage` is called on the object. -/
  | postMessage (this : Nat)
  /-- The engine runs `r_Worker_finalizer` on an object that has or inherits this finalizer. A queued event may share
  the reference of the data. -/
  | finalize (address : Nat) (shared : Bool)
  /-- A script calls the finalizer on the object. `Duktape.fin` returns the finalizer of a worker. -/
  | fin (address : Nat) (shared : Bool)

namespace WorkerHeap

def initial (context : Context) : WorkerHeap := ⟨⟨context, [], 0⟩, fun _ => none, fun _ => none, []⟩

/-- A property, an item or the prototype of the object is the other one. -/
def PointsTo (heap : WorkerHeap) (here next : Nat) : Prop :=
  (∃ key, (heap.table.context.heap here).properties key = some (.object next)) ∨
    (∃ item, (heap.table.context.heap here).items item = some (.object next)) ∨ heap.prototype here = some next

/-- The heap stash, the global object and the value stack are roots of the heap. -/
def Root (heap : WorkerHeap) (address : Nat) : Prop :=
  address = heap.table.context.stash ∨ address = heap.table.context.global ∨
    .object address ∈ heap.table.context.stack

/-- A way leads from a root to the object. -/
def Reachable (heap : WorkerHeap) (address : Nat) : Prop :=
  ∃ root, heap.Root root ∧ Relation.ReflTransGen heap.PointsTo root address

/-- `duk_get_prop_string` reads `PROP_DATA` of the object or of the first prototype that has it. -/
def propData (heap : WorkerHeap) : Nat → Nat → Option Nat
  | 0, _ => none
  | limit + 1, address =>
      match heap.pointer address, heap.prototype address with
      | some number, _ => some number
      | none, some parent => heap.propData limit parent
      | none, none => none

/-- The step destroys the reference of a worker that is not deleted. -/
def destroysWorkerref (heap : WorkerHeap) : RefLabel → Bool
  | .destroy position =>
      match heap.table.live[position]? with
      | some (ref, _) => heap.data.any fun entry => !entry.deleted && entry.workerref == ref
      | none => false
  | _ => false

def useRefs (heap : WorkerHeap) (label : RefLabel) : Option WorkerHeap :=
  if heap.destroysWorkerref label then none
  else (heap.table.step label).map fun table => { heap with table := table }

/-- `new WorkerData` keeps the reference that `new Ref(ctx)` makes of the object at the top. -/
def rWorkerConstruct (heap : WorkerHeap) : Option WorkerHeap :=
  match heap.table.context.stack with
  | .object this :: _ => do
      let table ← heap.table.step .construct
      let (ref, _) ← table.live.head?
      return { heap with
        table := table
        pointer := Function.update heap.pointer this (some heap.data.length)
        data := heap.data ++ [⟨this, ref, false⟩] }
  | _ => none

/-- `workerdata_from_this` follows the pointer. A null pointer, or one to deleted data, is undefined in C++. -/
def rWorkerPostMessage (heap : WorkerHeap) (this : Nat) : Option WorkerHeap := do
  let number ← heap.propData prototypeChainSanity this
  let entry ← heap.data[number]?
  if entry.deleted then none else some heap

/-- The destructor of `WorkerData` drops its pointer to the reference. -/
def dropWorkerref (heap : WorkerHeap) (entry : HeapData) (shared : Bool) : Option RefTable :=
  if shared then some heap.table
  else do
    let position ← heap.table.live.findIdx? fun other => other.1 = entry.workerref
    heap.table.step (.destroy position)

/-- The finalizer reads the property of the object or of a prototype, deletes the data, and deletes only an own
property. To delete the data twice is undefined in C++. -/
def rWorkerFinalizer (heap : WorkerHeap) (address : Nat) (shared : Bool) : Option WorkerHeap :=
  match heap.propData prototypeChainSanity address with
  | none => some heap
  | some number => do
      let entry ← heap.data[number]?
      if entry.deleted then none
      else
        let table ← heap.dropWorkerref entry shared
        return { heap with
          table := table
          pointer := Function.update heap.pointer address none
          data := heap.data.set number { entry with deleted := true } }

def step (heap : WorkerHeap) : WorkerHeapLabel → Option WorkerHeap
  | .script stack reserve objects allocated prototype =>
      (heap.useRefs (.script stack reserve objects allocated)).map fun after => { after with prototype := prototype }
  | .refs label => heap.useRefs label
  | .construct => heap.rWorkerConstruct
  | .postMessage this => heap.rWorkerPostMessage this
  | .finalize address shared | .fin address shared => heap.rWorkerFinalizer address shared

end WorkerHeap

end Dtel.Duktape
