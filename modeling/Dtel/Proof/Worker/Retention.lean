import Dtel.Construction.Worker.Collect
import Dtel.Proof.Duktape.References

namespace Dtel.Duktape
open Execution

namespace RefTable

variable {table next : RefTable} {label : RefLabel} {refs : Nat}

/-- This relation lists what a step does to the live references. -/
inductive Moves (table : RefTable) : RefLabel → List (Ref × Value) → Prop where
  | script (stack : List Value) (reserve : Nat) (objects : Nat → Object) (allocated : Nat) :
      Moves table (.script stack reserve objects allocated) table.live
  | setup : Moves table .setup table.live
  | push (position : Nat) : Moves table (.push position) table.live
  | construct (ref : Ref) (value : Value) (rest : List Value) (top : table.context.stack = value :: rest) :
      Moves table .construct ((ref, value) :: table.live)
  | destroy (position : Nat) (entry : Ref × Value) (there : table.live[position]? = some entry) :
      Moves table (.destroy position) (table.live.eraseIdx position)

theorem step_moves (taken : table.step label = some next) : table.Moves label next.live := by
  cases label with
  | script stack reserve objects allocated =>
      cases taken
      exact .script stack reserve objects allocated
  | setup =>
      obtain ⟨result, -, rfl⟩ := Option.map_eq_some_iff.mp taken
      exact .setup
  | construct =>
      rw [RefTable.step] at taken
      split at taken
      case h_1 => cases taken
      case h_2 value rest top =>
          obtain ⟨⟨ref, after⟩, -, rfl⟩ := Option.map_eq_some_iff.mp taken
          exact .construct ref value rest top
  | push position =>
      obtain ⟨entry, there, taken⟩ := Option.bind_eq_some_iff.mp taken
      obtain ⟨result, -, rfl⟩ := Option.map_eq_some_iff.mp taken
      exact .push position
  | destroy position =>
      obtain ⟨entry, there, taken⟩ := Option.bind_eq_some_iff.mp taken
      obtain ⟨result, -, rfl⟩ := Option.map_eq_some_iff.mp taken
      exact .destroy position entry there

end RefTable

namespace WorkerHeap

variable {heap next final : WorkerHeap} {refs number address : Nat} {label : WorkerHeapLabel}
  {labels : List WorkerHeapLabel} {context after : Context} {entry : HeapData} {shown : List Nat}

/-- The engine finalizes only objects that are not reachable. -/
def Collects (heap : WorkerHeap) : WorkerHeapLabel → Prop
  | .finalize address _ => ¬heap.Reachable address
  | _ => True

/-- The finalizer does not find the data of a prototype. -/
def Underived (heap : WorkerHeap) : WorkerHeapLabel → Prop
  | .finalize address _ | .fin address _ => heap.propData prototypeChainSanity address = heap.pointer address
  | _ => True

/-- The engine finalizes no object that inherits data, and no script calls the finalizer on an object with data. -/
def Spares (heap : WorkerHeap) : WorkerHeapLabel → Prop
  | .finalize address _ => heap.propData prototypeChainSanity address = heap.pointer address
  | .fin address _ => heap.propData prototypeChainSanity address = none
  | _ => True

/-- The step constructs the worker of this object. -/
def constructed (heap : WorkerHeap) : WorkerHeapLabel → List Nat
  | .construct =>
      match heap.table.context.stack with
      | .object this :: _ => [this]
      | _ => []
  | _ => []

/-- An object that a live reference holds is reachable from the heap stash. -/
theorem reachable_of_live {ref : Ref} (invariant : RefTable.Invariant refs heap.table)
    (member : (ref, .object address) ∈ heap.table.live) : heap.Reachable address := by
  obtain ⟨free, holds⟩ := invariant.holds
  have kept := holds.kept _ (RefTable.owned_mem member (by simp))
  have array : heap.PointsTo heap.table.context.stash refs := Or.inl ⟨propDtelRefs, invariant.ready⟩
  have item : heap.PointsTo refs address := Or.inr (Or.inl ⟨ref.refid, kept⟩)
  exact ⟨heap.table.context.stash, Or.inl rfl, (Relation.ReflTransGen.single array).tail item⟩

/-- An own property comes before those of the prototypes. -/
theorem propData_own (own : heap.pointer address = some number) (limit : Nat) :
    heap.propData (limit + 1) address = some number := by
  simp only [propData, own]

/-- No worker is deleted, and each one keeps a live reference to its object, which points to it or to a later one. -/
structure Retained (refs : Nat) (heap : WorkerHeap) : Prop where
  table : RefTable.Invariant refs heap.table
  alive : ∀ entry ∈ heap.data, entry.deleted = false
  live : ∀ entry ∈ heap.data, (entry.workerref, .object entry.object) ∈ heap.table.live
  owned : ∀ address number, heap.pointer address = some number →
    ∃ entry, heap.data[number]? = some entry ∧ entry.object = address
  pointed : ∀ entry ∈ heap.data, (heap.pointer entry.object).isSome

/-- Another reference is destroyed, and the one of the worker stays. -/
theorem mem_of_spared {position : Nat} {ref : Ref} {value : Value}
    (spared : heap.destroysWorkerref (.destroy position) = false) (member : entry ∈ heap.data)
    (alive : entry.deleted = false) (there : heap.table.live[position]? = some (ref, value))
    (held : (entry.workerref, .object entry.object) ∈ heap.table.live) :
    (entry.workerref, .object entry.object) ∈ heap.table.live.eraseIdx position := by
  have parts := RefTable.erase_perm there
  rcases List.mem_cons.mp (parts.subset held) with same | left
  · have ours : entry.workerref = ref := congrArg Prod.fst same
    simp only [destroysWorkerref, there, List.any_eq_false] at spared
    simpa [alive, ours] using spared entry member
  · exact left

theorem useRefs_cases {label : RefLabel} (taken : heap.useRefs label = some next) :
    heap.destroysWorkerref label = false ∧
      ∃ table, heap.table.step label = some table ∧ next = { heap with table := table } := by
  simp only [useRefs, Option.ite_none_left_eq_some, Bool.not_eq_true] at taken
  obtain ⟨spared, taken⟩ := taken
  obtain ⟨table, moved, rfl⟩ := Option.map_eq_some_iff.mp taken
  exact ⟨spared, table, moved, rfl⟩

/-- A step of other code keeps the references of the workers. -/
theorem Retained.useRefs {label : RefLabel} (retained : heap.Retained refs) (taken : heap.useRefs label = some next) :
    next.Retained refs := by
  obtain ⟨spared, table, moved, rfl⟩ := useRefs_cases taken
  refine ⟨retained.table.step moved, retained.alive, fun entry member => ?_, retained.owned, retained.pointed⟩
  have held := retained.live entry member
  have moves := RefTable.step_moves moved
  generalize table.live = live at moves ⊢
  cases moves with
  | script | setup | push => exact held
  | construct ref value rest top => exact List.mem_cons_of_mem _ held
  | destroy position other there => exact mem_of_spared spared member (retained.alive entry member) there held

theorem construct_cases (taken : heap.rWorkerConstruct = some next) :
    ∃ this rest ref table, heap.table.context.stack = .object this :: rest ∧
      heap.table.step .construct = some table ∧ table.live = (ref, .object this) :: heap.table.live ∧
      next = { heap with
        table := table
        pointer := Function.update heap.pointer this (some heap.data.length)
        data := heap.data ++ [⟨this, ref, false⟩] } := by
  unfold rWorkerConstruct at taken
  split at taken
  case h_2 => cases taken
  case h_1 this rest top =>
      obtain ⟨table, made, taken⟩ := Option.bind_eq_some_iff.mp taken
      obtain ⟨⟨ref, value⟩, first, taken⟩ := Option.bind_eq_some_iff.mp taken
      cases taken
      have moves := RefTable.step_moves made
      generalize listed : table.live = live at moves first
      cases moves with
      | construct newest held later same =>
          cases top.symm.trans same
          cases first
          exact ⟨this, rest, ref, table, top, made, listed, rfl⟩

/-- A new worker gets a live reference to its object. -/
theorem Retained.construct (retained : heap.Retained refs) (taken : heap.rWorkerConstruct = some next) :
    next.Retained refs := by
  obtain ⟨this, rest, ref, table, top, made, listed, rfl⟩ := construct_cases taken
  refine ⟨retained.table.step made, fun entry member => ?_, fun entry member => ?_, fun address number points => ?_,
    fun entry member => ?_⟩
  · rcases List.mem_append.mp member with old | new
    · exact retained.alive entry old
    · cases List.mem_singleton.mp new
      rfl
  · rw [listed]
    rcases List.mem_append.mp member with old | new
    · exact List.mem_cons_of_mem _ (retained.live entry old)
    · cases List.mem_singleton.mp new
      exact List.mem_cons_self
  · simp only [Function.update_apply] at points
    split at points
    case isTrue same =>
        cases points
        exact ⟨⟨this, ref, false⟩, by simp, same.symm⟩
    case isFalse other =>
        obtain ⟨entry, there, same⟩ := retained.owned address number points
        exact ⟨entry, by rw [List.getElem?_append_left (List.getElem?_eq_some_iff.mp there).1]; exact there, same⟩
  · simp only [Function.update_apply]
    split
    case isTrue => rfl
    case isFalse other =>
        rcases List.mem_append.mp member with old | new
        · exact retained.pointed entry old
        · cases List.mem_singleton.mp new
          exact absurd rfl other

theorem postMessage_cases (taken : heap.rWorkerPostMessage address = some next) : next = heap := by
  obtain ⟨number, -, taken⟩ := Option.bind_eq_some_iff.mp taken
  obtain ⟨entry, -, taken⟩ := Option.bind_eq_some_iff.mp taken
  simp only [Option.ite_none_left_eq_some] at taken
  exact (Option.some.inj taken.2).symm

/-- The finalizer finds nothing, or it deletes the data that it finds. -/
theorem finalizer_cases {shared : Bool} (taken : heap.rWorkerFinalizer address shared = some next) :
    heap.propData prototypeChainSanity address = none ∧ next = heap ∨
      ∃ number entry table, heap.propData prototypeChainSanity address = some number ∧
        heap.data[number]? = some entry ∧ entry.deleted = false ∧
        next = { heap with
          table := table
          pointer := Function.update heap.pointer address none
          data := heap.data.set number { entry with deleted := true } } := by
  unfold rWorkerFinalizer at taken
  split at taken
  case h_1 nothing => exact Or.inl ⟨nothing, (Option.some.inj taken).symm⟩
  case h_2 number found =>
      obtain ⟨entry, there, taken⟩ := Option.bind_eq_some_iff.mp taken
      simp only [Option.ite_none_left_eq_some, Bool.not_eq_true] at taken
      obtain ⟨alive, taken⟩ := taken
      obtain ⟨table, -, taken⟩ := Option.bind_eq_some_iff.mp taken
      cases taken
      exact Or.inr ⟨number, entry, table, found, there, alive, rfl⟩

/-- Each step keeps the workers when it spares their data. -/
theorem Retained.step (retained : heap.Retained refs) (collects : heap.Collects label) (spares : heap.Spares label)
    (taken : heap.step label = some next) : next.Retained refs := by
  cases label with
  | script stack reserve objects allocated prototype =>
      simp only [WorkerHeap.step, Option.map_eq_some_iff] at taken
      obtain ⟨kept, used, rfl⟩ := taken
      have same := retained.useRefs used
      exact ⟨same.table, same.alive, same.live, same.owned, same.pointed⟩
  | refs label => exact retained.useRefs taken
  | construct => exact retained.construct taken
  | postMessage this =>
      rw [postMessage_cases taken]
      exact retained
  | finalize address shared =>
      rcases finalizer_cases taken with ⟨-, rfl⟩ | ⟨number, entry, table, found, -, -, -⟩
      · exact retained
      · obtain ⟨owner, there, same⟩ := retained.owned address number (spares.symm.trans found)
        have held := retained.live owner (List.mem_of_getElem? there)
        rw [same] at held
        exact absurd (reachable_of_live retained.table held) collects
  | fin address shared =>
      rcases finalizer_cases taken with ⟨-, rfl⟩ | ⟨number, entry, table, found, -, -, -⟩
      · exact retained
      · cases spares.symm.trans found

/-- This relation lists what a step does to the data of the workers. -/
inductive Changes (heap : WorkerHeap) : WorkerHeapLabel → List HeapData → Prop where
  | stay (label : WorkerHeapLabel) (silent : heap.constructed label = []) : Changes heap label heap.data
  | construct (entry : HeapData) (shows : heap.constructed .construct = [entry.object]) :
      Changes heap .construct (heap.data ++ [entry])
  | delete (label : WorkerHeapLabel) (address : Nat) (shared : Bool) (number : Nat) (entry : HeapData)
      (found : heap.propData prototypeChainSanity address = some number) (there : heap.data[number]? = some entry)
      (kind : label = .finalize address shared ∨ label = .fin address shared) :
      Changes heap label (heap.data.set number { entry with deleted := true })

theorem step_changes (taken : heap.step label = some next) : heap.Changes label next.data := by
  cases label with
  | script stack reserve objects allocated prototype =>
      simp only [step, Option.map_eq_some_iff] at taken
      obtain ⟨kept, used, rfl⟩ := taken
      obtain ⟨-, table, -, rfl⟩ := useRefs_cases used
      exact .stay _ rfl
  | refs label =>
      obtain ⟨-, table, -, rfl⟩ := useRefs_cases taken
      exact .stay _ rfl
  | construct =>
      obtain ⟨this, rest, ref, table, top, -, -, rfl⟩ := construct_cases taken
      exact .construct ⟨this, ref, false⟩ (by simp [constructed, top])
  | postMessage this =>
      obtain rfl := postMessage_cases taken
      exact .stay _ rfl
  | finalize address shared | fin address shared =>
      rcases finalizer_cases taken with ⟨-, rfl⟩ | ⟨number, entry, table, found, there, -, rfl⟩
      · exact .stay _ rfl
      · exact .delete _ address shared number entry found there (by simp)

/-- The data of a worker are deleted. -/
def Deleted (heap : WorkerHeap) : Prop := ∃ entry ∈ heap.data, entry.deleted = true

/-- Deleted data stay deleted. -/
theorem Deleted.step (deleted : heap.Deleted) (taken : heap.step label = some next) : next.Deleted := by
  obtain ⟨entry, member, gone⟩ := deleted
  have changes := step_changes taken
  unfold Deleted
  generalize next.data = data at changes ⊢
  cases changes with
  | stay => exact ⟨entry, member, gone⟩
  | construct new => exact ⟨entry, List.mem_append_left _ member, gone⟩
  | delete label address shared number other found there =>
      have below := (List.getElem?_eq_some_iff.mp there).1
      exact ⟨{ other with deleted := true }, List.mem_set below _, rfl⟩

/-- A finalizer that finds the data of a prototype deletes them, and the prototype still points to them. -/
theorem derived_cases {shared : Bool} (derived : heap.propData prototypeChainSanity address ≠ heap.pointer address)
    (taken : heap.rWorkerFinalizer address shared = some next) :
    ∃ (number : Nat) (entry : HeapData) (table : RefTable), heap.propData prototypeChainSanity address = some number ∧
      heap.pointer address ≠ some number ∧ number < heap.data.length ∧ next = { heap with
        table := table
        pointer := Function.update heap.pointer address none
        data := heap.data.set number { entry with deleted := true } } := by
  rcases finalizer_cases taken with ⟨nothing, -⟩ | ⟨number, entry, table, found, there, -, same⟩
  · refine absurd ?_ derived
    cases own : heap.pointer address with
    | none => exact nothing
    | some number => exact propData_own own _
  · exact ⟨number, entry, table, found, fun own => derived (found.trans own.symm),
      (List.getElem?_eq_some_iff.mp there).1, same⟩

/-- A step that does not spare the data deletes some. -/
theorem unsparing_deletes (unsparing : ¬heap.Spares label) (taken : heap.step label = some next) : next.Deleted := by
  cases label with
  | finalize address shared =>
      obtain ⟨number, entry, table, -, -, below, rfl⟩ := derived_cases unsparing taken
      exact ⟨{ entry with deleted := true }, List.mem_set below _, rfl⟩
  | fin address shared =>
      rcases finalizer_cases taken with ⟨nothing, -⟩ | ⟨number, entry, table, -, there, -, rfl⟩
      · exact absurd nothing unsparing
      · exact ⟨{ entry with deleted := true }, List.mem_set (List.getElem?_eq_some_iff.mp there).1 _, rfl⟩
  | _ => exact absurd trivial unsparing

/-- The data are those of the constructed workers, in their order. -/
def Records (heap : WorkerHeap) (shown : List Nat) : Prop := heap.data.map HeapData.object = shown

theorem Records.step (shows : heap.Records shown) (taken : heap.step label = some next) :
    next.Records (shown ++ heap.constructed label) := by
  have changes := step_changes taken
  unfold Records at shows ⊢
  generalize next.data = data at changes ⊢
  cases changes with
  | stay label silent => rw [silent, List.append_nil, shows]
  | construct entry new =>
      rw [new, List.map_append, shows]
      rfl
  | delete label address shared number entry found there kind =>
      obtain ⟨below, same⟩ := List.getElem?_eq_some_iff.mp there
      have silent : heap.constructed label = [] := by rcases kind with rfl | rfl <;> rfl
      have within : number < (heap.data.map HeapData.object).length := by simpa using below
      have here : entry.object = (heap.data.map HeapData.object)[number] := by simp [same]
      rw [silent, List.append_nil, ← shows, List.map_set, here, List.set_getElem_self]

/-- The data that a lookup finds are those of the object or of one of its prototypes. -/
theorem propData_holder {limit : Nat} (found : heap.propData limit address = some number) :
    ∃ holder, heap.pointer holder = some number := by
  induction limit generalizing address with
  | zero => cases found
  | succ limit ih =>
      unfold propData at found
      split at found
      case h_1 own => exact ⟨address, own.trans found⟩
      case h_2 => exact ih found
      case h_3 => cases found

/-- A call of `postMessage` on an object that points to deleted data is undefined. -/
theorem postMessage_deleted (points : heap.pointer address = some number) (there : heap.data[number]? = some entry)
    (gone : entry.deleted = true) : heap.step (.postMessage address) = none := by
  have found : heap.propData prototypeChainSanity address = some number := propData_own points _
  simp [step, rWorkerPostMessage, found, there, gone]

/-- A finalizer that finds the data of a prototype leaves an object that points to deleted data. -/
theorem derived_dangles (derived : ¬heap.Underived label) (taken : heap.step label = some next) :
    ∃ holder, (next.pointer holder).isSome ∧ next.step (.postMessage holder) = none := by
  cases label with
  | finalize address shared | fin address shared =>
      obtain ⟨number, entry, table, found, inherited, below, rfl⟩ := derived_cases derived taken
      obtain ⟨holder, points⟩ := propData_holder found
      have other : holder ≠ address := by
        rintro rfl
        exact inherited points
      have kept : Function.update heap.pointer address none holder = some number :=
        (Function.update_of_ne other none heap.pointer).trans points
      exact ⟨holder, Option.isSome_iff_exists.mpr ⟨number, kept⟩,
        postMessage_deleted kept (List.getElem?_set_self below) rfl⟩
  | _ => exact absurd trivial derived

/-- Data that no finalizer has deleted serve the calls of `postMessage`. -/
theorem Retained.postMessage (retained : heap.Retained refs) (member : entry ∈ heap.data) :
    heap.step (.postMessage entry.object) = some heap := by
  obtain ⟨number, points⟩ := Option.isSome_iff_exists.mp (retained.pointed entry member)
  obtain ⟨owner, there, -⟩ := retained.owned entry.object number points
  have alive := retained.alive owner (List.mem_of_getElem? there)
  have found : heap.propData prototypeChainSanity entry.object = some number := propData_own points _
  simp [WorkerHeap.step, rWorkerPostMessage, found, there, alive]

/-- As long as the heap lives and the engine finalizes only unreachable objects, the data of a worker are deleted
exactly when an object is finalized that inherits from an object `Worker`, or a script calls the finalizer itself.
Otherwise each worker that was constructed keeps its object reachable, whatever the scripts have dropped, and its data
can be used. A finalized object that inherits from an object `Worker` leaves that one with a pointer to deleted data. -/
theorem worker_data_survives (unset : (context.heap context.stash).properties propDtelRefs = none)
    (setup : duvRefSetup context = .ok () after) (run : exec step (initial after) labels = some final)
    (collects : Along step Collects (initial after) labels) :
    final.data.map HeapData.object = trace step constructed (initial after) labels ∧
      ((∀ entry ∈ final.data, entry.deleted = false) ↔ Along step Spares (initial after) labels) ∧
      (Along step Spares (initial after) labels → ∀ entry ∈ final.data,
        (entry.workerref, .object entry.object) ∈ final.table.live ∧ final.Reachable entry.object ∧
          final.step (.postMessage entry.object) = some final) ∧
      ∀ label next, final.step label = some next → ¬final.Underived label →
        ∃ holder, (next.pointer holder).isSome ∧ next.step (.postMessage holder) = none := by
  have start : (initial after).Retained context.fresh :=
    ⟨RefTable.setup_invariant unset setup, by simp [initial], by simp [initial], by simp [initial], by simp [initial]⟩
  have retained (spares : Along step Spares (initial after) labels) : final.Retained context.fresh :=
    exec_invariant_along (fun _ _ _ holds guard taken => Retained.step holds guard.1 guard.2 taken) start
      (collects.and spares) run
  refine ⟨?_, ⟨fun alive => ?_, fun spares => (retained spares).alive⟩, fun spares entry member => ?_,
    fun label next taken derived => derived_dangles derived taken⟩
  · have begins : (initial after).Records [] := rfl
    exact trace_invariant (fun _ _ _ _ shows taken => Records.step shows taken) begins run
  · have unmarked : ¬final.Deleted := fun ⟨entry, member, gone⟩ => by simp [alive entry member] at gone
    exact Along.of_unmarked (fun _ _ _ unsparing taken => unsparing_deletes unsparing taken)
      (fun _ _ _ deleted taken => Deleted.step deleted taken) run unmarked
  · have holds := retained spares
    have held := holds.live entry member
    exact ⟨held, reachable_of_live holds.table held, holds.postMessage member⟩

/-- A script creates a worker, and drops all that it has. -/
def droppingRun : List WorkerHeapLabel :=
  [.script [.object 5] 110 (fun _ => Object.empty) 4 fun _ => none, .construct,
    .script [] 110 (fun _ => Object.empty) 0 fun _ => none]

theorem worker_data_survives_here : ∃ after final, duvRefSetup newHeap = .ok () after ∧
    exec step (initial after) droppingRun = some final ∧ final.table.context.stack = [] ∧
      final.data = [⟨5, ⟨1⟩, false⟩] ∧ final.Reachable 5 ∧ final.step (.postMessage 5) = some final := by
  have runs : (RefTable.returned (duvRefSetup newHeap)).bind (fun setup =>
      (exec step (initial setup.2) droppingRun).map fun final => (final.table.context.stack, final.data)) =
      some ([], [⟨5, ⟨1⟩, false⟩]) := by decide +kernel
  obtain ⟨⟨result, after⟩, returned, runs⟩ := Option.bind_eq_some_iff.mp runs
  obtain ⟨final, run, seen⟩ := Option.map_eq_some_iff.mp runs
  simp only [Prod.mk.injEq] at seen
  obtain ⟨stack, data⟩ := seen
  have setup : duvRefSetup newHeap = .ok () after := by
    cases called : duvRefSetup newHeap with
    | ok value context =>
        rw [called] at returned
        cases returned
        rfl
    | error error context =>
        rw [called] at returned
        cases returned
  have collects : Along step Collects (initial after) droppingRun :=
    Along.of_forall fun label member heap => by
      simp only [droppingRun, List.mem_cons, List.not_mem_nil, or_false] at member
      rcases member with rfl | rfl | rfl <;> trivial
  obtain ⟨-, survives, serves, -⟩ := worker_data_survives rfl setup run collects
  obtain ⟨-, reachable, serving⟩ := serves (survives.mp (by simp [data])) ⟨5, ⟨1⟩, false⟩ (by simp [data])
  exact ⟨after, final, setup, run, stack, data, reachable, serving⟩

section Derived

/-- A script creates a worker and keeps it, creates an object with the worker as its prototype, and drops that one. -/
def derivingRun : List WorkerHeapLabel :=
  [.script [.object 5] 110 (fun _ => Object.empty) 5 (fun _ => none), .construct,
    .script [.object 5] 110 (fun _ => Object.empty) 0 fun object => if object = 6 then some 5 else none]

def derivedHeap : WorkerHeap :=
  ((RefTable.returned (duvRefSetup newHeap)).bind fun setup => exec step (initial setup.2) derivingRun).getD
    (initial newHeap)

/-- Ways from the roots lead to the stash, the global object, the array of references and the worker. -/
theorem derivedHeap_reachable {address : Nat} (reachable : derivedHeap.Reachable address) : address ∈ [0, 1, 2, 5] := by
  have stash : derivedHeap.table.context.heap 0 =
    ⟨Function.update (fun _ => none) propDtelRefs (some (.object 2)), fun _ => none, 0⟩ := rfl
  have global : derivedHeap.table.context.heap 1 = Object.empty := rfl
  have array : derivedHeap.table.context.heap 2 =
    ⟨fun _ => none, Function.update (Function.update (fun _ => none) 0 (some (.number (.finite 0)))) 1
      (some (.object 5)), 2⟩ := rfl
  have worker : derivedHeap.table.context.heap 5 = Object.empty := rfl
  have prototype (object : Nat) : derivedHeap.prototype object = if object = 6 then some 5 else none := rfl
  obtain ⟨root, first, way⟩ := reachable
  induction way with
  | refl =>
      rcases first with same | same | onStack
      · simp [same, show derivedHeap.table.context.stash = 0 from rfl]
      · simp [same, show derivedHeap.table.context.global = 1 from rfl]
      · have stack : derivedHeap.table.context.stack = [.object 5] := rfl
        simp only [stack, List.mem_singleton, Value.object.injEq] at onStack
        simp [onStack]
  | tail _ points ih =>
      simp only [List.mem_cons, List.not_mem_nil, or_false] at ih
      rcases ih with rfl | rfl | rfl | rfl
      · simp only [PointsTo, stash, prototype, Function.update_apply] at points
        grind
      · simp [PointsTo, global, Object.empty, prototype] at points
      · simp only [PointsTo, array, prototype, Function.update_apply] at points
        grind
      · simp [PointsTo, worker, Object.empty, prototype] at points

/-- The collection of the derived object deletes the data of the worker that the script still has. -/
theorem derived_object_deletes : ∃ next,
    (RefTable.returned (duvRefSetup newHeap)).bind (fun setup => exec step (initial setup.2) derivingRun) =
      some derivedHeap ∧ derivedHeap.Reachable 5 ∧ ¬derivedHeap.Reachable 6 ∧
    derivedHeap.step (.finalize 6 false) = some next ∧ next.step (.postMessage 5) = none := by
  have runs : ((derivedHeap.step (.finalize 6 false)).map fun next => (next.step (.postMessage 5)).isNone) =
      some true := by decide +kernel
  obtain ⟨next, taken, seen⟩ := Option.map_eq_some_iff.mp runs
  have kept : derivedHeap.Reachable 5 := ⟨5, Or.inr (Or.inr List.mem_cons_self), Relation.ReflTransGen.refl⟩
  refine ⟨next, rfl, kept, fun dropped => ?_, taken, by simpa using seen⟩
  have inside := derivedHeap_reachable dropped
  simp at inside

end Derived

end WorkerHeap

end Dtel.Duktape
