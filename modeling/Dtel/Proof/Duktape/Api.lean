import Dtel.Construction.Duktape.Refs
import Dtel.Library.Calls

namespace Dtel.Duktape
open Calls

variable {context before after : Context} {value second : Value} {stack rest : List Value} {address : Nat}

/-- The stack changes and nothing else. -/
def Context.withStack (context : Context) (stack : List Value) : Context := { context with stack := stack }

/-- One object changes and nothing else. -/
def Context.withObject (context : Context) (address : Nat) (object : Object) : Context :=
  { context with heap := Function.update context.heap address object }

@[simp] theorem withStack_stack : (context.withStack stack).stack = stack := rfl
@[simp] theorem withStack_reserve : (context.withStack stack).reserve = context.reserve := rfl
@[simp] theorem withStack_heap : (context.withStack stack).heap = context.heap := rfl
@[simp] theorem withStack_fresh : (context.withStack stack).fresh = context.fresh := rfl
@[simp] theorem withStack_stash : (context.withStack stack).stash = context.stash := rfl
@[simp] theorem withStack_global : (context.withStack stack).global = context.global := rfl
@[simp] theorem withStack_twice : (context.withStack stack).withStack rest = context.withStack rest := rfl
@[simp] theorem withStack_self : context.withStack context.stack = context := rfl

@[simp] theorem withObject_same {object : Object} : (context.withObject address object).heap address = object := by
  simp [Context.withObject]

theorem withObject_other {other : Nat} {object : Object} (different : other ≠ address) :
    (context.withObject address object).heap other = context.heap other := by
  simp [Context.withObject, different]

/-- So many values can still be pushed. -/
def Context.Space (context : Context) (values : Nat) : Prop := context.stack.length + values ≤ context.reserve

/-- The stash and the global object stay below the next address. -/
theorem Context.stash_succ (context : Context) : context.stash < context.fresh + 1 :=
  Nat.lt_succ_of_lt context.stashKnown

theorem Context.global_succ (context : Context) : context.global < context.fresh + 1 :=
  Nat.lt_succ_of_lt context.globalKnown

/-- The heap gets one more object. -/
def Context.allocate (context : Context) : Context :=
  { context with
    heap := Function.update context.heap context.fresh Object.empty
    fresh := context.fresh + 1
    stashKnown := context.stash_succ
    globalKnown := context.global_succ }

section Indices

variable {index : Int} {position : Nat}

theorem normalizeIndex_top : normalizeIndex (context.withStack (value :: rest)) (-1) = some 0 := by
  simp [normalizeIndex]

theorem normalizeIndex_second : normalizeIndex (context.withStack (value :: second :: rest)) (-2) = some 1 := by
  simp [normalizeIndex]

theorem requireNormalizeIndex_run (valid : normalizeIndex context index = some position) :
    requireNormalizeIndex index context = .ok position context := by
  rw [requireNormalizeIndex, get_bind, valid]
  rfl

theorem requireNormalizeIndex_throws (invalid : normalizeIndex context index = none) :
    requireNormalizeIndex index context = .error .range context := by
  rw [requireNormalizeIndex, get_bind, invalid]
  rfl

theorem lookup_top : lookup (context.withStack (value :: rest)) (-1) = some value := by
  rw [lookup, normalizeIndex_top]
  rfl

theorem valueAt_top : valueAt (context.withStack (value :: rest)) (-1) = value := by
  rw [valueAt, lookup_top]
  rfl

theorem valueAt_second : valueAt (context.withStack (value :: second :: rest)) (-2) = second := by
  rw [valueAt, lookup, normalizeIndex_second]
  rfl

end Indices

section Space

variable {values less : Nat}

theorem Context.Space.fewer (space : context.Space values) (atMost : less ≤ values) : context.Space less :=
  Nat.le_trans (Nat.add_le_add_left atMost _) space

theorem requireSpace_run (space : context.Space values) : requireSpace values context = .ok () context := by
  unfold Context.Space at space
  rw [requireSpace, get_bind, if_neg (Nat.not_lt.mpr space)]
  rfl

theorem requireSpace_throws (short : ¬context.Space values) : requireSpace values context = .error .range context := by
  unfold Context.Space at short
  rw [requireSpace, get_bind, if_pos (Nat.not_le.mp short)]
  rfl

theorem requireSpace_returned {result : Unit} (returned : requireSpace values before = .ok result after) :
    after = before ∧ before.Space values := by
  by_cases space : before.Space values
  · rw [requireSpace_run space] at returned
    cases returned
    exact ⟨rfl, space⟩
  · rw [requireSpace_throws space] at returned
    cases returned

end Space

section Calls

theorem push_run (space : stack.length + 1 ≤ context.reserve) :
    push value (context.withStack stack) = .ok () (context.withStack (value :: stack)) := by
  have one : (context.withStack stack).Space 1 := space
  rw [push, bind_ok (requireSpace_run one)]
  rfl

theorem pushHeapStash_run (space : stack.length + 4 ≤ context.reserve) :
    pushHeapStash (context.withStack stack) = .ok () (context.withStack (.object context.stash :: stack)) := by
  have four : (context.withStack stack).Space 4 := space
  rw [pushHeapStash, bind_ok (requireSpace_run four), get_bind]
  exact push_run (four.fewer (by decide))

theorem pushObject_run (space : stack.length + 1 ≤ context.reserve) :
    pushObject (context.withStack stack) = .ok () (context.allocate.withStack (.object context.fresh :: stack)) := by
  have one : (context.withStack stack).Space 1 := space
  rw [pushObject, bind_ok (requireSpace_run one)]
  rfl

theorem pop_run : pop (context.withStack (value :: rest)) = .ok () (context.withStack rest) := rfl

theorem remove_run : remove (-2) (context.withStack (value :: second :: rest)) =
    .ok () (context.withStack (value :: rest)) := by
  rw [remove, bind_ok (requireNormalizeIndex_run normalizeIndex_second)]
  rfl

theorem insert_run : insert (-2) (context.withStack (value :: second :: rest)) =
    .ok () (context.withStack (second :: value :: rest)) := by
  rw [insert, bind_ok (requireNormalizeIndex_run normalizeIndex_second)]
  rfl

theorem isUndefined_run : isUndefined (-1) (context.withStack (value :: rest)) =
    .ok (value = .undefined) (context.withStack (value :: rest)) := by
  rw [isUndefined, get_bind, lookup_top]
  simp only [Option.some.injEq]
  rfl

theorem getInt_run : getInt (-1) (context.withStack (value :: rest)) =
    .ok value.toInt (context.withStack (value :: rest)) := by
  rw [getInt, get_bind, valueAt_top]
  rfl

theorem getLength_run : getLength (-1) (context.withStack (.object address :: rest)) =
    .ok (context.heap address).length (context.withStack (.object address :: rest)) := by
  rw [getLength, get_bind, valueAt_top]
  rfl

theorem hasPropString_run {key : String} (space : rest.length + 3 ≤ context.reserve) :
    hasPropString (-1) key (context.withStack (.object address :: rest)) =
      .ok ((context.heap address).properties (cString key)).isSome (context.withStack (.object address :: rest)) := by
  have two : (context.withStack (.object address :: rest)).Space 2 := space
  rw [hasPropString, bind_ok (requireNormalizeIndex_run normalizeIndex_top),
    bind_ok (requireSpace_run (two.fewer (by decide))), get_bind, valueAt_top]
  exact bind_ok (requireSpace_run two)

/-- The value that is read is pushed when there is space for it and for the keys below it. -/
theorem getProp_run {found missing : Nat} {read : Object → Option Value} (space : rest.length + 4 ≤ context.reserve)
    (fewFound : found ≤ 3) (fewMissing : missing ≤ 3) :
    getProp (-1) found missing read (context.withStack (.object address :: rest)) =
      .ok () (context.withStack ((read (context.heap address)).getD .undefined :: .object address :: rest)) := by
  have three : (context.withStack (.object address :: rest)).Space 3 := space
  have one : (context.withStack (.object address :: rest)).Space 1 := three.fewer (by decide)
  have pushed : ∀ value, push value (context.withStack (.object address :: rest)) =
      .ok () (context.withStack (value :: .object address :: rest)) := fun value => push_run one
  have base : readBase (context.withStack (.object address :: rest)) (.object address) = .ok (context.heap address) := rfl
  rw [getProp, bind_ok (requireNormalizeIndex_run normalizeIndex_top), bind_ok (requireSpace_run one), get_bind, get_bind,
    valueAt_top]
  simp only [base]
  cases read (context.heap address) with
  | some value => exact (bind_ok (requireSpace_run (three.fewer fewFound))).trans (pushed value)
  | none => exact (bind_ok (requireSpace_run (three.fewer fewMissing))).trans (pushed .undefined)

theorem getPropString_run {key : String} (space : rest.length + 4 ≤ context.reserve) :
    getPropString (-1) key (context.withStack (.object address :: rest)) =
      .ok () (context.withStack
        (((context.heap address).properties (cString key)).getD .undefined :: .object address :: rest)) :=
  getProp_run space (by decide) (by decide)

theorem getPropIndex_run {item : Nat} (space : rest.length + 4 ≤ context.reserve) :
    getPropIndex (-1) item (context.withStack (.object address :: rest)) =
      .ok () (context.withStack (((context.heap address).items item).getD .undefined :: .object address :: rest)) :=
  getProp_run space (by decide) (by decide)

theorem putProp_run {space : Object → Nat} {write : Value → Object → Object}
    (key : rest.length + 3 ≤ context.reserve) (enough : rest.length + 2 + space (context.heap address) ≤ context.reserve) :
    putProp (-2) space write (context.withStack (value :: .object address :: rest)) =
      .ok () ((context.withObject address (write value (context.heap address))).withStack (.object address :: rest)) := by
  have one : (context.withStack (value :: .object address :: rest)).Space 1 := key
  rw [putProp, bind_ok (requireNormalizeIndex_run normalizeIndex_second), bind_ok (requireSpace_run one), get_bind, get_bind,
    valueAt_second]
  have more : (context.withStack (value :: .object address :: rest)).Space (space (context.heap address)) := enough
  change (do
    requireSpace (space (context.heap address))
    modify fun context => { context with
      stack := .object address :: rest
      heap := Function.update context.heap address (write value (context.heap address)) } : Api Unit) _ = _
  rw [bind_ok (requireSpace_run more)]
  rfl

theorem putPropString_run {key : String} (space : rest.length + 4 ≤ context.reserve) :
    putPropString (-2) key (context.withStack (value :: .object address :: rest)) =
      .ok () ((context.withObject address ((context.heap address).setProperty (cString key) value)).withStack
        (.object address :: rest)) :=
  putProp_run (Nat.le_of_succ_le space) space

theorem itemSpace_positive {item : Nat} {object : Object} : 1 ≤ object.itemSpace item := by
  unfold Object.itemSpace
  split <;> decide

/-- An item that is there needs space for its key only. -/
theorem itemSpace_there {item : Nat} {object : Object} (there : object.items item = some value) :
    object.itemSpace item = 1 := by
  rw [Object.itemSpace, there]
  rfl

theorem itemSpace_most {item : Nat} {object : Object} : object.itemSpace item ≤ 3 := by
  unfold Object.itemSpace
  split <;> decide

theorem putPropIndex_run {item : Nat} (room : item < maxProperties)
    (space : rest.length + 2 + (context.heap address).itemSpace item ≤ context.reserve) :
    putPropIndex (-2) item (context.withStack (value :: .object address :: rest)) =
      .ok () ((context.withObject address ((context.heap address).setItem item value)).withStack
        (.object address :: rest)) := by
  unfold putPropIndex
  rw [if_neg (Nat.not_le.mpr room)]
  exact putProp_run (Nat.le_trans (Nat.add_le_add_left itemSpace_positive _) space) space

/-- A value was stored, and so there was space for its keys. -/
theorem putProp_space {space : Object → Nat} {write : Value → Object → Object} {result : Unit}
    (returned : putProp (-2) space write (context.withStack (value :: .object address :: rest)) = .ok result after) :
    rest.length + 2 + space (context.heap address) ≤ context.reserve := by
  obtain ⟨_, same, first, returned⟩ := bind_returned returned
  rw [requireNormalizeIndex_run normalizeIndex_second] at first
  cases first
  obtain ⟨_, same, pushed, returned⟩ := bind_returned returned
  obtain ⟨rfl, -⟩ := requireSpace_returned pushed
  rw [get_bind, get_bind, valueAt_second] at returned
  obtain ⟨_, read, got, returned⟩ := bind_returned returned
  cases got
  obtain ⟨_, middle, enough, -⟩ := bind_returned returned
  exact (requireSpace_returned enough).2

theorem putPropIndex_space {item : Nat} {result : Unit}
    (returned : putPropIndex (-2) item (context.withStack (value :: .object address :: rest)) = .ok result after) :
    rest.length + 2 + (context.heap address).itemSpace item ≤ context.reserve := by
  unfold putPropIndex at returned
  split at returned
  · cases returned
  · exact putProp_space returned

/-- An array that is full cannot grow. -/
theorem putPropIndex_full {item : Nat} (full : maxProperties ≤ item) :
    putPropIndex (-2) item context = .error .alloc context := by
  unfold putPropIndex
  rw [if_pos full]
  rfl

end Calls

section Heights

variable {index : Int} {position : Nat} {result : Unit}

theorem push_returned (returned : push value before = .ok result after) :
    after = before.withStack (value :: before.stack) ∧ before.Space 1 := by
  obtain ⟨_, middle, required, pushed⟩ := bind_returned returned
  obtain ⟨rfl, space⟩ := requireSpace_returned required
  cases pushed
  exact ⟨rfl, space⟩

theorem pushObject_returned (returned : pushObject before = .ok result after) :
    after = before.allocate.withStack (.object before.fresh :: before.stack) ∧ before.Space 1 := by
  obtain ⟨_, middle, required, pushed⟩ := bind_returned returned
  obtain ⟨rfl, space⟩ := requireSpace_returned required
  cases pushed
  exact ⟨rfl, space⟩

theorem pushHeapStash_returned (returned : pushHeapStash before = .ok result after) :
    after = before.withStack (.object before.stash :: before.stack) ∧ before.Space 4 := by
  obtain ⟨_, middle, required, pushed⟩ := bind_returned returned
  obtain ⟨rfl, space⟩ := requireSpace_returned required
  exact ⟨(push_returned pushed).1, space⟩

/-- A valid index is a position in the stack. -/
theorem normalizeIndex_below (valid : normalizeIndex context index = some position) :
    position < context.stack.length := by
  unfold normalizeIndex at valid
  grind

theorem requireNormalizeIndex_returned (returned : requireNormalizeIndex index before = .ok position after) :
    after = before ∧ position < before.stack.length := by
  cases valid : normalizeIndex before index with
  | none =>
      rw [requireNormalizeIndex_throws valid] at returned
      cases returned
  | some position =>
      rw [requireNormalizeIndex_run valid] at returned
      cases returned
      exact ⟨rfl, normalizeIndex_below valid⟩

theorem remove_height (returned : remove index before = .ok result after) :
    after.stack.length + 1 = before.stack.length := by
  obtain ⟨position, middle, required, removed⟩ := bind_returned returned
  obtain ⟨rfl, below⟩ := requireNormalizeIndex_returned required
  cases removed
  change (List.eraseIdx _ _).length + 1 = _
  rw [List.length_eraseIdx_of_lt below]
  omega

/-- A property that was read is pushed. -/
theorem getProp_returned {found missing : Nat} {read : Object → Option Value}
    (returned : getProp index found missing read before = .ok result after) :
    ∃ value, after = before.withStack (value :: before.stack) := by
  obtain ⟨position, middle, required, keyed⟩ := bind_returned returned
  obtain ⟨rfl, -⟩ := requireNormalizeIndex_returned required
  obtain ⟨_, same, pushed, looked⟩ := bind_returned keyed
  obtain ⟨rfl, -⟩ := requireSpace_returned pushed
  rw [get_bind, get_bind] at looked
  cases base : readBase same (valueAt same index) with
  | ok object =>
      rw [base] at looked
      cases there : read object with
      | some value | none =>
          simp only [there] at looked
          obtain ⟨_, copied, enough, added⟩ := bind_returned looked
          obtain ⟨rfl, -⟩ := requireSpace_returned enough
          exact ⟨_, (push_returned added).1⟩
  | error error =>
      rw [base] at looked
      cases looked

/-- A value that was stored has left the stack, and there was space for the keys. -/
theorem putProp_returned {space : Object → Nat} {write : Value → Object → Object}
    (returned : putProp index space write before = .ok result after) :
    after.stack.length + 1 = before.stack.length ∧ after.reserve = before.reserve ∧
      ∃ object, before.Space (space object) := by
  obtain ⟨position, middle, required, keyed⟩ := bind_returned returned
  obtain ⟨rfl, -⟩ := requireNormalizeIndex_returned required
  obtain ⟨_, same, pushed, looked⟩ := bind_returned keyed
  obtain ⟨rfl, -⟩ := requireSpace_returned pushed
  rw [get_bind, get_bind] at looked
  cases base : valueAt same index with
  | object address =>
      cases onTop : same.stack with
      | nil =>
          rw [base, onTop] at looked
          cases looked
      | cons value below =>
          rw [base, onTop] at looked
          obtain ⟨_, read, got, looked⟩ := bind_returned looked
          cases got
          obtain ⟨_, copied, enough, stored⟩ := bind_returned looked
          obtain ⟨rfl, more⟩ := requireSpace_returned enough
          cases stored
          exact ⟨rfl, rfl, _, more⟩
  | _ =>
      rw [base] at looked
      cases looked

end Heights

end Dtel.Duktape
