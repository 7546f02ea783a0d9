import Dtel.Construction.Pointer.Store
import Dtel.Library.Execution
import Dtel.Library.Threads

namespace Dtel.PointerStore

variable {store next : PointerStore} {label : PointerLabel} {object other : Nat} {pointer : IntrusiveRefCntPtr}

/-- This relation lists the changes that keep the number of pointers to each object. -/
inductive Rearrangement (store : PointerStore) : PointerLabel → PointerStore → Prop where
  | empty (owner : Option Nat) (admitted : store.admits owner = true) :
      Rearrangement store (.empty owner) (store.add ⟨owner, none⟩)
  | copyEmpty (source : IntrusiveRefCntPtr) (owner : Option Nat) (member : source ∈ store.pointers)
      (obj : source.obj = none) (admitted : store.admits owner = true) :
      Rearrangement store (.copy source owner) (store.add ⟨owner, none⟩)
  | move (source : IntrusiveRefCntPtr) (owner : Option Nat) (member : source ∈ store.pointers)
      (admitted : store.admits owner = true) :
      Rearrangement store (.move source owner)
        (((store.remove source).add ⟨source.owner, none⟩).add ⟨owner, source.obj⟩)
  | swap (first second : IntrusiveRefCntPtr) (member : first ∈ store.pointers)
      (distinct : second ∈ store.pointers.erase first) :
      Rearrangement store (.swap first second)
        ((((store.remove first).remove second).add ⟨first.owner, second.obj⟩).add ⟨second.owner, first.obj⟩)
  | destroyEmpty (thread : Nat) (pointer : IntrusiveRefCntPtr) (member : pointer ∈ store.pointers)
      (obj : pointer.obj = none) : Rearrangement store (.destroy thread pointer) (store.remove pointer)

/-- This relation lists everything that one step can do to the store. -/
inductive Step (store : PointerStore) : PointerLabel → PointerStore → Prop where
  | rearrange (label : PointerLabel) (next : PointerStore) (changed : Rearrangement store label next) :
      Step store label next
  | create : Step store .create { store with objects := store.objects ++ [⟨0, .fresh⟩] }
  | construct (object : Nat) (owner : Option Nat) (alive : store.alive object = true)
      (admitted : store.admits owner = true) :
      Step store (.construct object owner) ((store.retain object).add ⟨owner, some object⟩)
  | copy (source : IntrusiveRefCntPtr) (owner : Option Nat) (object : Nat) (member : source ∈ store.pointers)
      (obj : source.obj = some object) (admitted : store.admits owner = true) :
      Step store (.copy source owner) ((store.retain object).add ⟨owner, some object⟩)
  | destroy (thread : Nat) (calls : List PointerCall) (pointer : IntrusiveRefCntPtr) (object : Nat)
      (there : store.threads[thread]? = some calls) (member : pointer ∈ store.pointers)
      (obj : pointer.obj = some object) :
      Step store (.destroy thread pointer) ((store.remove pointer).setCalls thread (.release object :: calls))
  | release (thread : Nat) (calls : List PointerCall) (object : Nat) (counted : CountedObject)
      (there : store.threads[thread]? = some (.release object :: calls))
      (found : store.objects[object]? = some counted) (more : counted.refCount - 1 ≠ 0) :
      Step store (.next thread)
        ((store.setObject object ⟨counted.refCount - 1, counted.phase⟩).setCalls thread calls)
  | last (thread : Nat) (calls : List PointerCall) (object : Nat) (counted : CountedObject)
      (there : store.threads[thread]? = some (.release object :: calls))
      (found : store.objects[object]? = some counted) (zero : counted.refCount - 1 = 0) :
      Step store (.next thread)
        ((store.setObject object ⟨counted.refCount - 1, .dying⟩).setCalls thread (.delete object :: calls))
  | free (thread : Nat) (calls : List PointerCall) (object : Nat) (counted : CountedObject)
      (there : store.threads[thread]? = some (.delete object :: calls))
      (found : store.objects[object]? = some counted)
      (destroyed : ∀ pointer ∈ store.pointers, pointer.owner ≠ some object) :
      Step store (.next thread) ((store.setObject object ⟨counted.refCount, .freed⟩).setCalls thread calls)

/-- The executable step takes only listed steps. -/
theorem step_cases (taken : store.step label = some next) : Step store label next := by
  cases label with
  | create =>
      cases taken
      exact .create
  | construct object owner =>
      simp only [step, Option.ite_none_right_eq_some, Option.some.injEq] at taken
      obtain ⟨⟨alive, admitted⟩, rfl⟩ := taken
      exact .construct object owner alive admitted
  | empty owner =>
      simp only [step, Option.ite_none_right_eq_some, Option.some.injEq] at taken
      obtain ⟨admitted, rfl⟩ := taken
      exact .rearrange _ _ (.empty owner admitted)
  | copy source owner =>
      simp only [step, Option.ite_none_right_eq_some, Option.some.injEq] at taken
      obtain ⟨⟨member, admitted⟩, rfl⟩ := taken
      unfold PointerStore.copy
      cases obj : source.obj with
      | none => exact .rearrange _ _ (.copyEmpty source owner member obj admitted)
      | some object => exact .copy source owner object member obj admitted
  | move source owner =>
      simp only [step, Option.ite_none_right_eq_some, Option.some.injEq] at taken
      obtain ⟨⟨member, admitted⟩, rfl⟩ := taken
      exact .rearrange _ _ (.move source owner member admitted)
  | swap first second =>
      simp only [step, Option.ite_none_right_eq_some, Option.some.injEq] at taken
      obtain ⟨⟨member, distinct⟩, rfl⟩ := taken
      exact .rearrange _ _ (.swap first second member distinct)
  | destroy thread pointer =>
      simp only [step] at taken
      split at taken
      case h_1 calls there =>
          simp only [Option.ite_none_right_eq_some, Option.some.injEq] at taken
          obtain ⟨member, rfl⟩ := taken
          unfold PointerStore.destroy
          cases obj : pointer.obj with
          | none => exact .rearrange _ _ (.destroyEmpty thread pointer member obj)
          | some object => exact .destroy thread calls pointer object there member obj
      case h_2 => cases taken
  | next thread =>
      simp only [step] at taken
      split at taken
      case h_1 calls there =>
          cases calls with
          | nil => cases taken
          | cons call calls =>
              cases call with
              | release object =>
                  simp only [callStep] at taken
                  split at taken
                  case h_1 counted found =>
                      split at taken
                      case isTrue zero =>
                          cases taken
                          exact .last thread calls object counted there found zero
                      case isFalse more =>
                          cases taken
                          exact .release thread calls object counted there found more
                  case h_2 => cases taken
              | delete object =>
                  simp only [callStep] at taken
                  split at taken
                  case h_1 counted found =>
                      simp only [Option.ite_none_left_eq_some, Option.some.injEq, List.any_eq_true, not_exists,
                        not_and, decide_eq_true_eq] at taken
                      obtain ⟨destroyed, rfl⟩ := taken
                      exact .free thread calls object counted there found destroyed
                  case h_2 => cases taken
      case h_2 => cases taken

/-- The number of pointers that hold the object. -/
def holders (store : PointerStore) (object : Nat) : Nat :=
  store.pointers.countP fun pointer => pointer.obj = some object

/-- The number of calls of this kind that the threads have entered. -/
def calling (store : PointerStore) (call : PointerCall) : Nat :=
  Threads.weight (fun calls => calls.count call) store.threads

section Counts

/-- A new pointer adds to the count of its object. -/
theorem holders_add (pointer : IntrusiveRefCntPtr) :
    (store.add pointer).holders object = store.holders object + if pointer.obj = some object then 1 else 0 := by
  simp only [holders, add, List.countP_cons, decide_eq_true_eq]

/-- A pointer that is gone no longer counts. -/
theorem holders_remove (object : Nat) (member : pointer ∈ store.pointers) :
    (store.remove pointer).holders object + (if pointer.obj = some object then 1 else 0) = store.holders object := by
  have split : store.pointers.Perm (pointer :: store.pointers.erase pointer) := List.perm_cons_erase member
  have counted := split.countP_eq fun pointer : IntrusiveRefCntPtr => decide (pointer.obj = some object)
  rw [List.countP_cons] at counted
  simp only [decide_eq_true_eq] at counted
  exact counted.symm

/-- The calls of one thread change. -/
theorem calling_setCalls {thread : Nat} {before : List PointerCall} (after : List PointerCall) (call : PointerCall)
    (there : store.threads[thread]? = some before) :
    (store.setCalls thread after).calling call + before.count call = store.calling call + after.count call :=
  Threads.weight_set (fun calls => calls.count call) after there

/-- The object is found as it was, or it is the one that has changed. -/
theorem setObject_cases {before after found : CountedObject}
    (there : (store.setObject object after).objects[other]? = some found)
    (here : store.objects[object]? = some before) :
    (other = object ∧ found = after) ∨ (other ≠ object ∧ store.objects[other]? = some found) := by
  rcases Threads.set_cases there with ⟨rfl, rfl⟩ | ⟨apart, same⟩
  · exact Or.inl ⟨rfl, rfl⟩
  · exact Or.inr ⟨apart, same⟩

/-- The count of a retained object is greater. -/
theorem retain_self : (store.retain object).objects[object]? =
    store.objects[object]?.map fun counted => ⟨counted.refCount + 1, .held⟩ := by
  simp [retain]

/-- Every other object stays as it was. -/
theorem retain_other (apart : other ≠ object) : (store.retain object).objects[other]? = store.objects[other]? := by
  simp [retain, Ne.symm apart]

/-- An object is the retained one, or it was there before. -/
theorem retain_cases {found : CountedObject} (there : (store.retain object).objects[other]? = some found) :
    (other = object ∧ ∃ counted, store.objects[object]? = some counted ∧ found = ⟨counted.refCount + 1, .held⟩) ∨
      (other ≠ object ∧ store.objects[other]? = some found) := by
  by_cases same : other = object
  · subst same
    rw [retain_self] at there
    obtain ⟨counted, here, rfl⟩ := Option.map_eq_some_iff.mp there
    exact Or.inl ⟨rfl, counted, here, rfl⟩
  · rw [retain_other same] at there
    exact Or.inr ⟨same, there⟩

/-- An object that is alive is fresh or held. -/
theorem alive_iff : store.alive object = true ↔
    ∃ counted, store.objects[object]? = some counted ∧ (counted.phase = .fresh ∨ counted.phase = .held) := by
  unfold alive
  cases store.objects[object]? with
  | none => simp
  | some counted => simp

end Counts

end Dtel.PointerStore
