import Dtel.Library.Execution
import Dtel.Library.FreeList
import Dtel.Proof.Duktape.Api

namespace Dtel.Duktape
open Calls

variable {context after : Context} {refs slot : Nat} {value second : Value} {stack : List Value}

/-- The item that leads to a free slot is its number. -/
def link (slot : Nat) : Option Value := some (.number (.finite (slot : Int)))

/-- The array of references is a table of cells. -/
def Context.table (context : Context) (refs : Nat) : FreeList.Table (Option Value) :=
  ⟨(context.heap refs).items, (context.heap refs).length⟩

/-- A link is the first one of a chain, and so the item is there. -/
theorem chain_some {cells : Nat → Option Value} {first : Option Value} {free : List Nat}
    (chain : FreeList.Chain link cells first free) : ∃ second, first = some second := by
  cases free with
  | nil => exact ⟨_, chain⟩
  | cons slot free => exact ⟨_, chain.1⟩

/-- The heap stash has an array of references. -/
def Context.Ready (context : Context) (refs : Nat) : Prop :=
  (context.heap context.stash).properties propDtelRefs = some (.object refs)

/-- One item of the array changes and nothing else. -/
def Context.putItem (context : Context) (refs slot : Nat) (value : Value) : Context :=
  context.withObject refs ((context.heap refs).setItem slot value)

section Frame

@[simp] theorem putItem_table :
    (context.putItem refs slot value).table refs = (context.table refs).put slot (some value) := by
  simp only [Context.table, Context.putItem, withObject_same]
  rfl

@[simp] theorem withStack_table : (context.withStack stack).table refs = context.table refs := rfl

theorem putItem_properties (address : Nat) :
    ((context.putItem refs slot value).heap address).properties = (context.heap address).properties := by
  by_cases same : address = refs
  · subst same
    rw [Context.putItem, withObject_same]
    rfl
  · rw [Context.putItem, withObject_other same]

@[simp] theorem ready_putItem : (context.putItem refs slot value).Ready refs ↔ context.Ready refs := by
  unfold Context.Ready
  rw [putItem_properties]
  rfl

@[simp] theorem ready_withStack : (context.withStack stack).Ready refs ↔ context.Ready refs := Iff.rfl

end Frame

/-- A link within the range of `int` is read back. -/
theorem toInt_link {first : Value} (linked : some first = link slot) (small : slot ≤ maxProperties) :
    first.toInt = slot := by
  cases linked
  have range : slot ≤ 1073741823 := small
  have whole : ((slot : Int).tdiv ((1 : Nat) : Int)) = slot := Int.tdiv_one _
  simp only [Value.toInt, Rat.num_intCast, Rat.den_intCast, whole]
  omega

theorem cString_refs : cString propDtelRefs = propDtelRefs := by decide

/-- The array of references is pushed. -/
theorem pushRefs_run (ready : context.Ready refs) (space : stack.length + 4 ≤ context.reserve) :
    pushRefs (context.withStack stack) = .ok () (context.withStack (.object refs :: stack)) := by
  unfold Context.Ready at ready
  rw [pushRefs, bind_ok (pushHeapStash_run space), bind_ok (getPropString_run space), remove_run, cString_refs, ready]
  rfl

/-- Without space for the heap stash and its keys, the array of references is not pushed. -/
theorem pushRefs_throws (short : ¬context.Space 4) : pushRefs context = .error .range context := by
  have stash : pushHeapStash context = .error .range context := bind_error (requireSpace_throws short)
  rw [pushRefs, bind_error stash]

/-- An item of the array is pushed. -/
theorem getItem_run (found : (context.table refs).cells slot = some value) (space : stack.length + 4 ≤ context.reserve) :
    getPropIndex (-1) slot (context.withStack (.object refs :: stack)) =
      .ok () (context.withStack (value :: .object refs :: stack)) := by
  have item : (context.heap refs).items slot = some value := found
  rw [getPropIndex_run space, item]
  rfl

/-- An item of the array is replaced in place. -/
theorem setItem_run {old : Value} (found : (context.table refs).cells slot = some old) (small : slot < maxProperties)
    (space : stack.length + 3 ≤ context.reserve) :
    putPropIndex (-2) slot (context.withStack (value :: .object refs :: stack)) =
      .ok () ((context.putItem refs slot value).withStack (.object refs :: stack)) := by
  have item : (context.heap refs).items slot = some old := found
  have enough : stack.length + 2 + (context.heap refs).itemSpace slot ≤ context.reserve := by
    rw [itemSpace_there item]
    exact space
  exact putPropIndex_run small enough

/-- The value `undefined` needs no slot. -/
theorem duvRef_undefined :
    duvRef (context.withStack (.undefined :: stack)) = .ok 0 (context.withStack stack) := by
  rw [duvRef, bind_ok isUndefined_run, if_pos (by simp), bind_ok pop_run]
  rfl

variable (stack)

/-- A free slot takes the value, and the next free slot becomes the first. -/
theorem duvRef_reuse (ready : context.Ready refs) (defined : value ≠ .undefined)
    (first : (context.table refs).cells 0 = link slot) (next : (context.table refs).cells slot = some second)
    (positive : 0 < slot) (small : slot < maxProperties) (space : (value :: stack).length + 4 ≤ context.reserve) :
    duvRef (context.withStack (value :: stack)) =
      .ok slot (((context.putItem refs 0 second).putItem refs slot value).withStack stack) := by
  have room : 0 < maxProperties := Nat.lt_trans positive small
  have read : (Value.number (.finite (slot : Int))).toInt = slot := toInt_link rfl (Nat.le_of_lt small)
  have nonzero : ((slot : Nat) : Int) ≠ 0 := by omega
  have three : (value :: stack).length + 3 ≤ context.reserve := Nat.le_of_succ_le space
  have below : stack.length + 3 ≤ context.reserve := Nat.le_of_succ_le three
  have there : ((context.putItem refs 0 second).table refs).cells slot = some second := by
    rw [putItem_table]
    exact (Function.update_of_ne (Nat.ne_of_gt positive) _ _).trans next
  rw [duvRef, bind_ok isUndefined_run, if_neg (by simpa using defined), bind_ok (pushRefs_run ready space),
    bind_ok (getItem_run first space), bind_ok getInt_run, bind_ok pop_run, read, if_pos nonzero, Int.toNat_natCast]
  rw [bind_ok (getItem_run next space), bind_ok (setItem_run first room three), pure_bind]
  beta_reduce
  rw [bind_ok insert_run, bind_ok (setItem_run there small below), bind_ok pop_run]
  rfl

/-- Without a free slot, a new one takes the value. -/
theorem duvRef_grow (ready : context.Ready refs) (defined : value ≠ .undefined)
    (first : (context.table refs).cells 0 = link 0) (small : (context.table refs).length < maxProperties)
    (space : (value :: stack).length + 4 ≤ context.reserve) :
    duvRef (context.withStack (value :: stack)) =
      .ok (context.table refs).length
        ((context.putItem refs (context.table refs).length value).withStack stack) := by
  have read : (Value.number (.finite ((0 : Nat) : Int))).toInt = (0 : Nat) := toInt_link rfl (Nat.zero_le _)
  have room : (context.heap refs).length < maxProperties := small
  have enough : stack.length + 2 + (context.heap refs).itemSpace (context.heap refs).length ≤ context.reserve :=
    Nat.le_trans (Nat.add_le_add_left itemSpace_most _) space
  rw [duvRef, bind_ok isUndefined_run, if_neg (by simpa using defined), bind_ok (pushRefs_run ready space),
    bind_ok (getItem_run first space), bind_ok getInt_run, bind_ok pop_run, read, if_neg (by simp), bind_ok getLength_run]
  beta_reduce
  rw [bind_ok insert_run, bind_ok (putPropIndex_run room enough), bind_ok pop_run]
  rfl

/-- A full table takes no further value. -/
theorem duvRef_full (ready : context.Ready refs) (defined : value ≠ .undefined)
    (first : (context.table refs).cells 0 = link 0) (full : maxProperties ≤ (context.table refs).length)
    (space : (value :: stack).length + 4 ≤ context.reserve) :
    ∃ after, duvRef (context.withStack (value :: stack)) = .error .alloc after := by
  have beyond : maxProperties ≤ (context.heap refs).length := full
  have read : (Value.number (.finite ((0 : Nat) : Int))).toInt = (0 : Nat) := toInt_link rfl (Nat.zero_le _)
  rw [duvRef, bind_ok isUndefined_run, if_neg (by simpa using defined), bind_ok (pushRefs_run ready space),
    bind_ok (getItem_run first space), bind_ok getInt_run, bind_ok pop_run, read, if_neg (by simp), bind_ok getLength_run]
  beta_reduce
  rw [bind_ok insert_run, bind_error (putPropIndex_full beyond)]
  exact ⟨_, rfl⟩

/-- A defined value needs space for the array of references. -/
theorem duvRef_short (defined : value ≠ .undefined) (short : ¬(context.withStack (value :: stack)).Space 4) :
    duvRef (context.withStack (value :: stack)) = .error .range (context.withStack (value :: stack)) := by
  rw [duvRef, bind_ok isUndefined_run, if_neg (by simpa using defined), bind_error (pushRefs_throws short)]

/-- A live reference pushes its value. -/
theorem duvPushRef_run (ready : context.Ready refs) (positive : 0 < slot)
    (found : (context.table refs).cells slot = some value) (space : stack.length + 4 ≤ context.reserve) :
    duvPushRef slot (context.withStack stack) = .ok () (context.withStack (value :: stack)) := by
  rw [duvPushRef, if_neg (Nat.ne_of_gt positive), bind_ok (pushRefs_run ready space), bind_ok (getItem_run found space),
    remove_run]

theorem duvPushRef_short (positive : 0 < slot) (short : ¬context.Space 4) :
    duvPushRef slot context = .error .range context := by
  rw [duvPushRef, if_neg (Nat.ne_of_gt positive), bind_error (pushRefs_throws short)]

/-- The slot of a dead reference becomes the first free one. -/
theorem duvUnref_run (ready : context.Ready refs) (positive : 0 < slot) (small : slot < maxProperties)
    (first : (context.table refs).cells 0 = some second) (found : (context.table refs).cells slot = some value)
    (space : stack.length + 4 ≤ context.reserve) :
    duvUnref slot (context.withStack stack) =
      .ok () (((context.putItem refs slot second).putItem refs 0 (.number (.finite (slot : Int)))).withStack stack) := by
  have room : 0 < maxProperties := Nat.lt_trans positive small
  have three : stack.length + 3 ≤ context.reserve := Nat.le_of_succ_le space
  have one : (Value.object refs :: stack).length + 1 ≤ (context.putItem refs slot second).reserve :=
    Nat.le_of_succ_le three
  have there : ((context.putItem refs slot second).table refs).cells 0 = some second := by
    rw [putItem_table]
    exact (Function.update_of_ne (Nat.ne_of_lt positive) _ _).trans first
  rw [duvUnref, if_neg (Nat.ne_of_gt positive), bind_ok (pushRefs_run ready space), bind_ok (getItem_run first space),
    bind_ok (setItem_run found small three), pushInt, bind_ok (push_run one),
    bind_ok (setItem_run there room three), pop_run]

theorem duvUnref_short (positive : 0 < slot) (short : ¬context.Space 4) :
    duvUnref slot context = .error .range context := by
  rw [duvUnref, if_neg (Nat.ne_of_gt positive), bind_error (pushRefs_throws short)]

/-- The setup of a heap stash without references creates a table without free slots. -/
theorem duvRefSetup_new (unset : (context.heap context.stash).properties propDtelRefs = none)
    (space : stack.length + 6 ≤ context.reserve) :
    ∃ after : Context, duvRefSetup (context.withStack stack) = .ok () (after.withStack stack) ∧
      after.reserve = context.reserve ∧ after.Ready context.fresh ∧
      after.table context.fresh = ⟨Function.update (fun _ => none) 0 (link 0), 1⟩ := by
  have room : 0 < maxProperties := by decide
  have apart : context.stash ≠ context.fresh := Nat.ne_of_lt context.stashKnown
  have four : stack.length + 4 ≤ context.reserve := by omega
  have three : stack.length + 3 ≤ context.reserve := by omega
  have one : (Value.object context.stash :: stack).length + 1 ≤ context.reserve := Nat.le_of_succ_le three
  have second : (Value.object context.fresh :: .object context.stash :: stack).length + 1 ≤ context.allocate.reserve :=
    three
  have enough : (Value.object context.stash :: stack).length + 2 +
      (context.allocate.heap context.fresh).itemSpace 0 ≤ context.reserve :=
    Nat.le_trans (Nat.add_le_add_left itemSpace_most _) space
  rw [duvRefSetup, bind_ok (pushHeapStash_run four), bind_ok (hasPropString_run three), cString_refs, unset,
    if_neg (by simp), pushArray, bind_ok (pushObject_run one), pushInt, bind_ok (push_run second),
    bind_ok (putPropIndex_run room enough), bind_ok (putPropString_run ?space), pop_run, cString_refs]
  case space => exact four
  refine ⟨_, rfl, rfl, ?_, ?_⟩
  · simp [Context.Ready, Context.withObject, Context.allocate, Object.setProperty]
  · simp [Context.table, Context.withObject, Context.allocate, Object.setProperty, Object.setItem, Object.empty, link,
      Function.update_of_ne apart.symm]

/-- The setup of a heap stash without references has returned, and so there was space for the first item. -/
theorem duvRefSetup_space {result : Unit} (unset : (context.heap context.stash).properties propDtelRefs = none)
    (returned : duvRefSetup context = .ok result after) : context.Space 6 := by
  obtain ⟨_, stashed, first, returned⟩ := bind_returned returned
  obtain ⟨rfl, four⟩ := pushHeapStash_returned first
  have three : context.stack.length + 3 ≤ context.reserve := four.fewer (by decide)
  have one : (Value.object context.stash :: context.stack).length + 1 ≤ context.reserve := Nat.le_of_succ_le three
  have second : (Value.object context.fresh :: .object context.stash :: context.stack).length + 1 ≤
      context.allocate.reserve := three
  rw [bind_ok (hasPropString_run three), cString_refs, unset, if_neg (by simp), pushArray, bind_ok (pushObject_run one),
    pushInt, bind_ok (push_run second)] at returned
  obtain ⟨_, stored, put, -⟩ := bind_returned returned
  have enough := putPropIndex_space put
  have empty : (context.allocate.heap context.fresh).itemSpace 0 = 3 := by
    simp [Context.allocate, Object.itemSpace, Object.empty]
  rw [empty] at enough
  exact enough

/-- The setup keeps a table that is there. -/
theorem duvRefSetup_ready (ready : context.Ready refs) (space : stack.length + 4 ≤ context.reserve) :
    duvRefSetup (context.withStack stack) = .ok () (context.withStack stack) := by
  unfold Context.Ready at ready
  rw [duvRefSetup, bind_ok (pushHeapStash_run space), bind_ok (hasPropString_run (Nat.le_of_succ_le space)), cString_refs,
    ready, if_pos (by simp), pop_run]

theorem duvRefSetup_short (short : ¬context.Space 4) : duvRefSetup context = .error .range context := by
  have stash : pushHeapStash context = .error .range context := bind_error (requireSpace_throws short)
  rw [duvRefSetup, bind_error stash]

end Dtel.Duktape
