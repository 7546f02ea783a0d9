/-
This file models the smart pointers `IntrusiveRefCntPtr` and the objects that they count, with the base class
`ThreadSafeRefCountedBase`. Any number of threads use them.
-/
namespace Dtel

/-- An object goes through these phases. -/
inductive Phase where
  /-- `new` has returned the object, and no pointer has retained it. -/
  | fresh
  /-- A pointer has retained the object. -/
  | held
  /-- `delete` runs the destructor. -/
  | dying
  /-- The memory is free. -/
  | freed
deriving DecidableEq

/-- The class of the object is derived from `ThreadSafeRefCountedBase`. -/
structure CountedObject where
  refCount : Int
  phase : Phase
deriving DecidableEq

/-- A pointer is a member of a counted object, or it has no owner: it is a variable or a member of another structure. -/
structure IntrusiveRefCntPtr where
  owner : Option Nat
  obj : Option Nat
deriving DecidableEq

/-- A thread has entered one of these calls, and all that is behind it in the list. -/
inductive PointerCall where
  /-- `Release`, before `fetch_sub`. -/
  | release (object : Nat)
  /-- `delete`, which destroys the members of the object and then frees its memory. -/
  | delete (object : Nat)
deriving DecidableEq

/-- All objects that `new` has returned, the pointers that exist, and the calls of each thread. Pointers with the
same owner and the same object are told apart by no operation. -/
structure PointerStore where
  objects : List CountedObject
  pointers : List IntrusiveRefCntPtr
  threads : List (List PointerCall)

/-- A thread takes a step. A pointer is not written while another thread uses it, which would be a data race. So a
constructor that copies the pointer takes one step, in which it retains. -/
inductive PointerLabel where
  /-- `new` runs the constructor of the base class. -/
  | create
  /-- `IntrusiveRefCntPtr(T* obj)`. -/
  | construct (object : Nat) (owner : Option Nat)
  /-- `IntrusiveRefCntPtr()`. -/
  | empty (owner : Option Nat)
  /-- `IntrusiveRefCntPtr(const IntrusiveRefCntPtr& S)`. -/
  | copy (source : IntrusiveRefCntPtr) (owner : Option Nat)
  /-- `IntrusiveRefCntPtr(IntrusiveRefCntPtr&& S)`. -/
  | move (source : IntrusiveRefCntPtr) (owner : Option Nat)
  /-- `swap`. -/
  | swap (first second : IntrusiveRefCntPtr)
  /-- `~IntrusiveRefCntPtr()` enters `Release`. -/
  | destroy (thread : Nat) (pointer : IntrusiveRefCntPtr)
  /-- The innermost call of the thread executes its next statement. -/
  | next (thread : Nat)
deriving DecidableEq

namespace PointerStore

/-- There is no object and no pointer. -/
def initial (threads : Nat) : PointerStore := ⟨[], [], List.replicate threads []⟩

/-- The destructor of the object has not begun. -/
def alive (store : PointerStore) (object : Nat) : Bool :=
  match store.objects[object]? with
  | some counted => counted.phase = .fresh ∨ counted.phase = .held
  | none => false

/-- A pointer can be constructed outside of all objects, and as a member of an object that is alive. -/
def admits (store : PointerStore) : Option Nat → Bool
  | none => true
  | some object => store.alive object

/-- `Retain` increments the count. -/
def retain (store : PointerStore) (object : Nat) : PointerStore :=
  { store with
    objects := store.objects.modify object fun counted => { refCount := counted.refCount + 1, phase := .held } }

def add (store : PointerStore) (pointer : IntrusiveRefCntPtr) : PointerStore :=
  { store with pointers := pointer :: store.pointers }

def remove (store : PointerStore) (pointer : IntrusiveRefCntPtr) : PointerStore :=
  { store with pointers := store.pointers.erase pointer }

/-- The calls of a thread change. -/
def setCalls (store : PointerStore) (thread : Nat) (calls : List PointerCall) : PointerStore :=
  { store with threads := store.threads.set thread calls }

/-- The counter and the phase of an object change. -/
def setObject (store : PointerStore) (object : Nat) (counted : CountedObject) : PointerStore :=
  { store with objects := store.objects.set object counted }

/-- A new pointer gets the object of the source. -/
def copy (store : PointerStore) (source : IntrusiveRefCntPtr) (owner : Option Nat) : PointerStore :=
  match source.obj with
  | some object => (store.retain object).add ⟨owner, some object⟩
  | none => store.add ⟨owner, none⟩

/-- The destructor of a pointer releases its object, if it has one. -/
def destroy (store : PointerStore) (thread : Nat) (calls : List PointerCall) (pointer : IntrusiveRefCntPtr) :
    PointerStore :=
  match pointer.obj with
  | some object => (store.remove pointer).setCalls thread (.release object :: calls)
  | none => store.remove pointer

/-- The innermost call of the thread executes its next statement. -/
def callStep (store : PointerStore) (thread : Nat) : List PointerCall → Option PointerStore
  | [] => none
  | .release object :: calls =>
      match store.objects[object]? with
      | some counted =>
          if counted.refCount - 1 = 0 then
            some ((store.setObject object ⟨counted.refCount - 1, .dying⟩).setCalls thread (.delete object :: calls))
          else some ((store.setObject object ⟨counted.refCount - 1, counted.phase⟩).setCalls thread calls)
      | none => none
  | .delete object :: calls =>
      match store.objects[object]? with
      | some counted =>
          -- The destructors of the members come first, in any order.
          if store.pointers.any fun pointer => pointer.owner = some object then none
          else some ((store.setObject object ⟨counted.refCount, .freed⟩).setCalls thread calls)
      | none => none

/-- A thread takes a step, and no count is too large. The client names only pointers that exist and objects that are
alive. -/
def step (store : PointerStore) : PointerLabel → Option PointerStore
  | .create => some { store with objects := store.objects ++ [⟨0, .fresh⟩] }
  | .construct object owner =>
      if store.alive object ∧ store.admits owner then some ((store.retain object).add ⟨owner, some object⟩) else none
  | .empty owner => if store.admits owner then some (store.add ⟨owner, none⟩) else none
  | .copy source owner =>
      if source ∈ store.pointers ∧ store.admits owner then some (store.copy source owner) else none
  | .move source owner =>
      if source ∈ store.pointers ∧ store.admits owner then
        some (((store.remove source).add ⟨source.owner, none⟩).add ⟨owner, source.obj⟩)
      else none
  | .swap first second =>
      if first ∈ store.pointers ∧ second ∈ store.pointers.erase first then
        some ((((store.remove first).remove second).add ⟨first.owner, second.obj⟩).add ⟨second.owner, first.obj⟩)
      else none
  | .destroy thread pointer =>
      match store.threads[thread]? with
      | some calls => if pointer ∈ store.pointers then some (store.destroy thread calls pointer) else none
      | none => none
  | .next thread =>
      match store.threads[thread]? with
      | some calls => store.callStep thread calls
      | none => none

/-- `RefCount` is a `std::atomic<int>`, which wraps around after 32 bits. -/
def wrap (store : PointerStore) : PointerStore :=
  { store with
    objects := store.objects.map fun counted => { counted with refCount := counted.refCount.bmod 4294967296 } }

/-- A thread takes a step, for counts of any size. -/
def wrappingStep (store : PointerStore) (label : PointerLabel) : Option PointerStore := (store.step label).map wrap

end PointerStore

end Dtel
