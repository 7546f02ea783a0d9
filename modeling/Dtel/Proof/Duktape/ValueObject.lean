import Dtel.Proof.Duktape.References
import Dtel.Proof.Duktape.ValueTree

namespace Dtel.Duktape
open Calls

variable {script : Script} {base context before after : Context} {stack : List Value} {address : Nat}

section References

/-- A reference needs a slot only when it refers to a defined value. -/
def Context.Serves (context : Context) (ref : Ref) : Prop :=
  ref.refid = 0 ∨ ∃ refs, context.Ready refs ∧ refs < context.fresh

/-- The value that the table holds for the reference. -/
def Context.referred (context : Context) (ref : Ref) : Value :=
  if ref.refid = 0 then .undefined
  else match (context.heap context.stash).properties propDtelRefs with
    | some (.object refs) => ((context.heap refs).items ref.refid).getD .undefined
    | _ => .undefined

theorem referred_ready {ref : Ref} {refs : Nat} (positive : ref.refid ≠ 0) (ready : context.Ready refs) :
    context.referred ref = ((context.heap refs).items ref.refid).getD .undefined := by
  unfold Context.Ready at ready
  rw [Context.referred, if_neg positive, ready]

theorem ref_push_run {ref : Ref} (served : context.Serves ref)
    (space : stack.length + (NativeValue.ref ref).need ≤ context.reserve) :
    ref.push (context.withStack stack) = .ok 1 (context.withStack (context.referred ref :: stack)) := by
  rw [NativeValue.need] at space
  by_cases zero : ref.refid = 0
  · rw [if_pos zero] at space
    rw [Context.referred, if_pos zero, Ref.push, duvPushRef, if_pos zero]
    exact bind_ok (push_run space)
  · rw [if_neg zero] at space
    obtain ⟨refs, ready, -⟩ := served.resolve_left zero
    have pushed : duvPushRef ref.refid (context.withStack stack) =
        .ok () (context.withStack (context.referred ref :: stack)) := by
      rw [referred_ready zero ready, duvPushRef, if_neg zero, bind_ok (pushRefs_run ready space),
        bind_ok (getPropIndex_run space), remove_run]
    rw [Ref.push, bind_ok pushed]
    rfl

/-- A reference that was pushed had enough space. -/
theorem ref_push_space {ref : Ref} {count : Nat} (returned : ref.push before = .ok count after) :
    before.Space (NativeValue.ref ref).need := by
  obtain ⟨_, middle, pushed, -⟩ := bind_returned returned
  rw [NativeValue.need]
  by_cases zero : ref.refid = 0
  · rw [duvPushRef, if_pos zero] at pushed
    rw [if_pos zero]
    exact (push_returned pushed).2
  · rw [if_neg zero]
    by_contra short
    rw [duvPushRef_short (Nat.pos_of_ne_zero zero) short] at pushed
    cases pushed

/-- New objects change no reference. -/
theorem Context.Serves.grown {ref : Ref} (served : base.Serves ref) (grown : Grown (fun _ => False) base context) :
    context.Serves ref ∧ context.referred ref = base.referred ref := by
  have stash : (context.heap context.stash).properties = (base.heap base.stash).properties := by
    rw [grown.stash, grown.heap _ base.stashKnown id]
  by_cases zero : ref.refid = 0
  · refine ⟨Or.inl zero, ?_⟩
    rw [Context.referred, Context.referred, if_pos zero, if_pos zero]
  · obtain ⟨refs, ready, known⟩ := served.resolve_left zero
    have later : context.Ready refs := by
      unfold Context.Ready
      rwa [stash]
    refine ⟨Or.inr ⟨refs, later, known.trans_le grown.fresh⟩, ?_⟩
    rw [referred_ready zero later, referred_ready zero ready, grown.heap refs known id]

end References

section Runs

/-- A property that is put into a new object does not change the older ones. -/
theorem Grown.putProperty (key : String) (value : Value) (grown : Grown (fun _ => False) base context)
    (new : base.fresh ≤ address) : Grown (fun _ => False) base (context.putProperty address key value) := by
  have weak := grown.weaken (fun _ _ nothing => nothing.elim : ∀ other < base.fresh, False → other = address)
  exact (weak.trans putProperty_grown).weaken fun other below same => Nat.not_le_of_lt below (same ▸ new)

/-- The first property needs space for its value and for its keys, and the others need theirs. -/
theorem Properties.need_cons {key : String} {value : AnyValue} {rest : Properties} {height reserve : Nat} :
    height + (Properties.cons key value rest).need ≤ reserve ↔
      height + value.need ≤ reserve ∧ height + 3 ≤ reserve ∧ height + rest.need ≤ reserve := by
  rw [Properties.need]
  omega

/-- An object needs space for itself and, above it, for its properties. -/
theorem NativeValue.need_valueObject {properties : Properties} (some : properties.size ≠ 0) :
    (valueObject properties).need = properties.need + 1 := by
  rw [NativeValue.need, if_neg some]

mutual

/-- A plain value without hollow objects pushes what is built from it, when there is enough space. -/
theorem AnyValue.push_run (value : AnyValue) (context : Context) (stack : List Value)
    (grown : Grown (fun _ => False) base context) (served : ∀ ref ∈ value.refs, base.Serves ref)
    (plain : value.Plain) (full : value.hollow = 0) (space : stack.length + value.need ≤ context.reserve) :
    pushAnyValue script value (context.withStack stack) =
      .ok () ((value.build base.referred base.global context).2.withStack
        ((value.build base.referred base.global context).1 :: stack)) := by
  cases value with
  | value value =>
      rw [pushAnyValue, bind_ok (value.push_run context stack grown served plain full space)]
      rfl
  | other => exact plain.elim
  | _ => exact Duktape.push_run space

theorem NativeValue.push_run (value : NativeValue) (context : Context) (stack : List Value)
    (grown : Grown (fun _ => False) base context) (served : ∀ ref ∈ value.refs, base.Serves ref)
    (plain : value.Plain) (full : value.hollow = 0) (space : stack.length + value.need ≤ context.reserve) :
    value.push script (context.withStack stack) =
      .ok 1 ((value.build base.referred base.global context).2.withStack
        ((value.build base.referred base.global context).1 :: stack)) := by
  cases value with
  | ref ref =>
      obtain ⟨later, same⟩ := (served ref (by simp [NativeValue.refs])).grown grown
      rw [NativeValue.push, ref_push_run later space, same]
      rfl
  | valueGlobal =>
      have pushed : pushGlobalObject (context.withStack stack) =
          .ok () (context.withStack (.object context.global :: stack)) := Duktape.push_run space
      rw [NativeValue.build, ← grown.global, NativeValue.push, bind_ok pushed]
      rfl
  | valueObject properties =>
      obtain ⟨some, solid⟩ := NativeValue.hollow_valueObject.mp full
      rw [NativeValue.need_valueObject some] at space
      have inside : context.fresh < context.allocate.fresh := Nat.lt_succ_self _
      have one : stack.length + 1 ≤ context.reserve := (Nat.add_le_add_left (Nat.le_add_left 1 _) _).trans space
      have enough : (Value.object context.fresh :: stack).length + properties.need ≤ context.allocate.reserve := by
        rw [List.length_cons, Nat.add_right_comm]
        exact space
      have put := properties.putAll_run context.fresh context.allocate stack (grown.trans allocate_grown) grown.fresh
        inside served plain solid enough
      rw [NativeValue.push, pushValueObject, if_neg some, bind_ok (pushObject_run one), bind_ok put]
      rfl
  | event => exact plain.elim

/-- The object on the stack gets the properties. -/
theorem Properties.putAll_run (properties : Properties) (address : Nat) (context : Context) (stack : List Value)
    (grown : Grown (fun _ => False) base context) (new : base.fresh ≤ address) (inside : address < context.fresh)
    (served : ∀ ref ∈ properties.refs, base.Serves ref) (plain : properties.Plain) (full : properties.hollow = 0)
    (space : (Value.object address :: stack).length + properties.need ≤ context.reserve) :
    properties.putAll script (context.withStack (.object address :: stack)) =
      .ok () ((properties.fill base.referred base.global address context).withStack (.object address :: stack)) := by
  cases properties with
  | nil => rfl
  | cons key value rest =>
      rw [Properties.hollow, Nat.add_eq_zero_iff] at full
      obtain ⟨forValue, forKeys, forRest⟩ := Properties.need_cons.mp space
      have built := value.build_grown base.referred base.global context
      have first := value.push_run context (.object address :: stack) grown
        (fun ref member => served ref (List.mem_append_left _ member)) plain.1 full.1 forValue
      have later := (grown.trans built).putProperty key (value.build base.referred base.global context).1 new
      have four : stack.length + 4 ≤ (value.build base.referred base.global context).2.reserve := by
        rw [built.reserve]
        exact (Nat.add_right_comm stack.length 1 3).symm.trans_le forKeys
      rw [Properties.putAll, bind_ok first, bind_ok (putPropString_run four)]
      refine rest.putAll_run address _ stack later new (inside.trans_le built.fresh)
        (fun ref member => served ref (List.mem_append_right _ member)) plain.2 full.2 ?_
      exact forRest.trans_eq built.reserve.symm

end

mutual

/-- A plain value that was pushed had enough space. -/
theorem AnyValue.push_space (value : AnyValue) (context : Context) (stack : List Value)
    (grown : Grown (fun _ => False) base context) (served : ∀ ref ∈ value.refs, base.Serves ref)
    (plain : value.Plain) (full : value.hollow = 0) {after : Context} {result : Unit}
    (returned : pushAnyValue script value (context.withStack stack) = .ok result after) :
    stack.length + value.need ≤ context.reserve := by
  cases value with
  | value value =>
      obtain ⟨count, middle, pushed, -⟩ := bind_returned returned
      exact value.push_space context stack grown served plain full pushed
  | other => exact plain.elim
  | _ => exact (push_returned returned).2

theorem NativeValue.push_space (value : NativeValue) (context : Context) (stack : List Value)
    (grown : Grown (fun _ => False) base context) (served : ∀ ref ∈ value.refs, base.Serves ref)
    (plain : value.Plain) (full : value.hollow = 0) {after : Context} {count : Nat}
    (returned : value.push script (context.withStack stack) = .ok count after) :
    stack.length + value.need ≤ context.reserve := by
  cases value with
  | ref ref => exact ref_push_space returned
  | valueGlobal =>
      obtain ⟨_, middle, pushed, -⟩ := bind_returned returned
      exact (push_returned pushed).2
  | valueObject properties =>
      obtain ⟨some, solid⟩ := NativeValue.hollow_valueObject.mp full
      have inside : context.fresh < context.allocate.fresh := Nat.lt_succ_self _
      rw [NativeValue.push, pushValueObject, if_neg some] at returned
      obtain ⟨_, object, pushed, -⟩ := bind_returned returned
      have one : stack.length + 1 ≤ context.reserve := (pushObject_returned pushed).2
      rw [bind_ok (pushObject_run one)] at returned
      obtain ⟨_, filled, put, -⟩ := bind_returned returned
      have enough := properties.putAll_space context.fresh context.allocate stack (grown.trans allocate_grown)
        grown.fresh inside served plain solid one put
      rw [List.length_cons, Nat.add_right_comm] at enough
      rw [NativeValue.need_valueObject some]
      exact enough
  | event => exact plain.elim

theorem Properties.putAll_space (properties : Properties) (address : Nat) (context : Context) (stack : List Value)
    (grown : Grown (fun _ => False) base context) (new : base.fresh ≤ address) (inside : address < context.fresh)
    (served : ∀ ref ∈ properties.refs, base.Serves ref) (plain : properties.Plain) (full : properties.hollow = 0)
    (one : stack.length + 1 ≤ context.reserve) {after : Context} {result : Unit}
    (returned : properties.putAll script (context.withStack (.object address :: stack)) = .ok result after) :
    (Value.object address :: stack).length + properties.need ≤ context.reserve := by
  cases properties with
  | nil => exact one
  | cons key value rest =>
      rw [Properties.hollow, Nat.add_eq_zero_iff] at full
      have here : ∀ ref ∈ value.refs, base.Serves ref := fun ref member => served ref (List.mem_append_left _ member)
      have built := value.build_grown base.referred base.global context
      have later := (grown.trans built).putProperty key (value.build base.referred base.global context).1 new
      obtain ⟨_, pushed, first, -⟩ := bind_returned returned
      have forValue := value.push_space context (.object address :: stack) grown here plain.1 full.1 first
      rw [Properties.putAll, bind_ok (value.push_run context (.object address :: stack) grown here plain.1 full.1 forValue)]
        at returned
      obtain ⟨_, stored, put, -⟩ := bind_returned returned
      have four : stack.length + 4 ≤ (value.build base.referred base.global context).2.reserve := putProp_space put
      have below : stack.length + 1 ≤ (value.build base.referred base.global context).2.reserve :=
        (Nat.add_le_add_left (by decide) _).trans four
      rw [bind_ok (putPropString_run four)] at returned
      have forRest := rest.putAll_space address _ stack later new (inside.trans_le built.fresh)
        (fun ref member => served ref (List.mem_append_right _ member)) plain.2 full.2 below returned
      rw [built.reserve] at four
      refine Properties.need_cons.mpr ⟨forValue, ?_, forRest.trans_eq built.reserve⟩
      exact (Nat.add_right_comm stack.length 1 3).trans_le four

end

end Runs

section Heights

theorem duvPushRef_height {id : Nat} {result : Unit} (returned : duvPushRef id before = .ok result after) :
    after.stack.length = before.stack.length + 1 := by
  rw [duvPushRef] at returned
  split at returned
  · obtain ⟨rfl, -⟩ := push_returned returned
    rfl
  · obtain ⟨_, array, pushed, returned⟩ := bind_returned returned
    obtain ⟨_, item, got, removed⟩ := bind_returned returned
    obtain ⟨_, stash, top, returned⟩ := bind_returned pushed
    obtain ⟨_, below, read, dropped⟩ := bind_returned returned
    obtain ⟨rfl, -⟩ := pushHeapStash_returned top
    obtain ⟨_, rfl⟩ := getProp_returned read
    have array := remove_height dropped
    obtain ⟨_, rfl⟩ := getProp_returned got
    have value := remove_height removed
    simp only [withStack_stack, List.length_cons] at array value
    omega

/-- A protected call leaves one value in the place of those that it has taken. -/
theorem protectedCall_height {popped : Nat} {outcome : Context → Outcome} {failed : Bool}
    (returned : protectedCall popped outcome before = .ok failed after) :
    after.stack.length + popped = before.stack.length + 1 := by
  rw [protectedCall, get_bind] at returned
  split at returned
  · cases returned
  · next enough =>
    cases returned
    change (_ :: before.stack.drop popped).length + popped = _
    rw [List.length_cons, List.length_drop]
    omega

/-- An error is always thrown. -/
theorem throwScriptError_never {index : Int} {result : Unit} :
    throwScriptError script index before ≠ .ok result after := by
  intro returned
  obtain ⟨_, read, -, returned⟩ := bind_returned returned
  obtain ⟨_, stacked, -, returned⟩ := bind_returned returned
  obtain ⟨_, removed, -, returned⟩ := bind_returned returned
  cases returned

/-- An object with properties counts as one value. -/
theorem pushValueObject_height {properties : Properties} {count : Nat}
    (put : ∀ {before after : Context} {result : Unit}, properties.putAll script before = .ok result after →
      after.stack.length + properties.hollow = before.stack.length)
    (returned : pushValueObject properties (properties.putAll script) before = .ok count after) :
    after.stack.length + properties.hollow = before.stack.length + count ∧
      count = if properties.size = 0 then 0 else 1 := by
  rw [pushValueObject] at returned
  split at returned
  · next none =>
    cases returned
    cases properties with
    | nil => exact ⟨rfl, (if_pos none).symm⟩
    | cons key value rest => cases none
  · next some =>
    obtain ⟨_, object, pushed, returned⟩ := bind_returned returned
    obtain ⟨_, filled, stored, returned⟩ := bind_returned returned
    cases returned
    obtain ⟨rfl, -⟩ := pushObject_returned pushed
    exact ⟨put stored, (if_neg some).symm⟩

/-- The constructor and its arguments are replaced by the event. -/
theorem constructEvent_height {eventClass eventType : String} {pushInit : Api Nat} {hollow : Nat} {result : Unit}
    (init : ∀ {before after : Context} {count : Nat}, pushInit before = .ok count after →
      after.stack.length + hollow = before.stack.length + count)
    (returned : constructEvent script eventClass eventType pushInit before = .ok result after) :
    after.stack.length + hollow = before.stack.length + 1 := by
  obtain ⟨_, global, pushed, returned⟩ := bind_returned returned
  obtain ⟨rfl, -⟩ := push_returned pushed
  obtain ⟨_, constructor, got, returned⟩ := bind_returned returned
  obtain ⟨_, rfl⟩ := getProp_returned got
  obtain ⟨_, removed, dropped, returned⟩ := bind_returned returned
  have one := remove_height dropped
  obtain ⟨_, typed, pushed, returned⟩ := bind_returned returned
  obtain ⟨rfl, -⟩ := push_returned pushed
  obtain ⟨count, middle, pushed, returned⟩ := bind_returned returned
  have two := init pushed
  obtain ⟨failed, created, called, returned⟩ := bind_returned returned
  have three := protectedCall_height called
  simp only [withStack_stack, List.length_cons] at one two
  split at returned
  · exact absurd returned throwScriptError_never
  · cases returned
    omega

mutual

/-- Each hollow object pushes one value less than its place needs. -/
theorem AnyValue.push_height (value : AnyValue) {before after : Context} {result : Unit}
    (returned : pushAnyValue script value before = .ok result after) :
    after.stack.length + value.hollow = before.stack.length + 1 := by
  cases value with
  | value value =>
      obtain ⟨count, middle, pushed, returned⟩ := bind_returned returned
      cases returned
      exact value.push_height pushed
  | other => cases returned
  | _ =>
      obtain ⟨rfl, -⟩ := push_returned returned
      rfl

theorem NativeValue.push_height (value : NativeValue) {before after : Context} {count : Nat}
    (returned : value.push script before = .ok count after) :
    after.stack.length + value.hollow = before.stack.length + 1 := by
  cases value with
  | ref ref =>
      obtain ⟨_, middle, pushed, returned⟩ := bind_returned returned
      cases returned
      exact duvPushRef_height pushed
  | valueGlobal =>
      obtain ⟨_, middle, pushed, returned⟩ := bind_returned returned
      cases returned
      obtain ⟨rfl, -⟩ := push_returned pushed
      rfl
  | valueObject properties =>
      obtain ⟨height, counted⟩ := pushValueObject_height (fun put => properties.putAll_height put) returned
      rw [NativeValue.hollow]
      split at counted
      · next none =>
        rw [if_pos none]
        cases properties with
        | nil => exact congrArg (· + 1) (height.trans (congrArg _ counted))
        | cons key value rest => cases none
      · next some =>
        rw [if_neg some, height, counted]
  | event target eventClass eventType eventInit =>
      unfold NativeValue.push at returned
      obtain ⟨_, created, constructed, returned⟩ := bind_returned returned
      have one := constructEvent_height (fun pushed =>
        (pushValueObject_height (fun put => eventInit.putAll_height put) pushed).1) constructed
      cases target with
      | none =>
          cases returned
          exact one
      | some target =>
          obtain ⟨_, placed, pushed, returned⟩ := bind_returned returned
          have two := target.push_height pushed
          obtain ⟨_, stored, put, returned⟩ := bind_returned returned
          have three := (putProp_returned put).1
          cases returned
          change _ + (eventInit.hollow + target.hollow) = _
          omega

theorem Properties.putAll_height (properties : Properties) {before after : Context} {result : Unit}
    (returned : properties.putAll script before = .ok result after) :
    after.stack.length + properties.hollow = before.stack.length := by
  cases properties with
  | nil =>
      cases returned
      rfl
  | cons key value rest =>
      obtain ⟨_, pushed, first, returned⟩ := bind_returned returned
      obtain ⟨_, put, second, others⟩ := bind_returned returned
      have one := value.push_height first
      have two := (putProp_returned second).1
      have three := rest.putAll_height others
      rw [Properties.hollow]
      omega

end

end Heights

/-- The push adds as many values as it returns, and the object is the image of the properties. -/
def Declared (script : Script) (properties : Properties) (context : Context) : Prop :=
  ∃ count after added, (NativeValue.valueObject properties).push script context = .ok count after ∧
    after.stack = added ++ context.stack ∧ added.length = count ∧
    (∀ address < context.fresh, after.heap address = context.heap address) ∧
    (0 < properties.size → ∃ image, added = [image] ∧
      (NativeValue.valueObject properties).Image context.referred context.global after.heap image)

/-- A push that returns one value has pushed no hollow object. -/
theorem Declared.solid {properties : Properties} (declared : Declared script properties context)
    (some : properties.size ≠ 0) : properties.Plain ∧ properties.hollow = 0 := by
  obtain ⟨count, after, added, pushed, stack, length, -, image⟩ := declared
  obtain ⟨value, rfl, address, -, -, bound⟩ := image (Nat.pos_of_ne_zero some)
  have height := (NativeValue.valueObject properties).push_height pushed
  rw [NativeValue.hollow, if_neg some, stack, List.singleton_append, List.length_cons] at height
  exact ⟨Properties.Bound.plain _ _ bound, by omega⟩

/-- The push of an object with properties has its declared effect exactly when no object inside is hollow,
all values are plain, no NUL cuts a key or a string, and the stack has enough space. -/
theorem value_object_declared {properties : Properties} (distinct : properties.Distinct)
    (served : ∀ ref ∈ properties.refs, context.Serves ref) :
    Declared script properties context ↔
      properties.size = 0 ∨ (properties.hollow = 0 ∧ properties.Plain ∧ properties.Whole ∧
        context.Space (NativeValue.valueObject properties).need) := by
  by_cases none : properties.size = 0
  · refine iff_of_true ⟨0, context, [], ?_, rfl, rfl, fun _ _ => rfl, ?_⟩ (Or.inl none)
    · rw [NativeValue.push, pushValueObject, if_pos none]
      rfl
    · intro some
      omega
  · have root : (NativeValue.valueObject properties).hollow = properties.hollow := by
      rw [NativeValue.hollow, if_neg none]
    have same : Grown (fun _ => False) context context := Grown.refl
    have run : properties.Plain → properties.hollow = 0 →
        context.Space (NativeValue.valueObject properties).need → (NativeValue.valueObject properties).push script context =
          .ok 1 (((NativeValue.valueObject properties).build context.referred context.global context).2.withStack
            (((NativeValue.valueObject properties).build context.referred context.global context).1 :: context.stack)) :=
      fun plain full => (NativeValue.valueObject properties).push_run context context.stack same served plain
        (root.trans full)
    have built := (NativeValue.valueObject properties).build_grown context.referred
      context.global context
    have image := fun plain => (NativeValue.valueObject properties).image_build context.referred
      context.global context distinct plain fun _ _ _ => rfl
    constructor
    · intro declared
      obtain ⟨plain, full⟩ := declared.solid none
      obtain ⟨count, after, added, pushed, stack, -, -, imaged⟩ := declared
      obtain ⟨value, rfl, whole⟩ := imaged (Nat.pos_of_ne_zero none)
      have space : context.Space (NativeValue.valueObject properties).need :=
        (NativeValue.valueObject properties).push_space context context.stack same served plain (root.trans full) pushed
      rw [run plain full space] at pushed
      cases pushed
      cases stack
      exact Or.inr ⟨full, plain, (image plain).mp whole, space⟩
    · intro condition
      obtain ⟨full, plain, whole, space⟩ := condition.resolve_left none
      refine ⟨1, _, [_], run plain full space, rfl, rfl, fun address below => built.heap address below id, fun _ => ?_⟩
      exact ⟨_, rfl, (image plain).mpr whole⟩

/-- Every call of this script returns `undefined`. -/
def idle : Script where
  call _ context := ⟨false, .undefined, ⟨context.heap, 0, 0⟩⟩
  convert _ context := ⟨false, "", ⟨context.heap, 0, 0⟩⟩
  read _ _ context := ⟨false, .undefined, ⟨context.heap, 0, 0⟩⟩

/-- A tree with a string, a reference to `undefined`, and an inner object is pushed. -/
theorem value_object_declared_here :
    Declared idle (.cons "inner" (.value (.valueObject (.cons "text" (.string "a") .nil)))
      (.cons "nothing" (.value (.ref ⟨0⟩)) .nil)) newHeap :=
  (value_object_declared (by simp [Properties.Distinct, AnyValue.Distinct, NativeValue.Distinct, Properties.keys])
    (by simp [Properties.refs, AnyValue.refs, NativeValue.refs, Context.Serves])).mpr
    (Or.inr ⟨by decide, ⟨⟨trivial, trivial⟩, trivial, trivial⟩,
      ⟨by decide, ⟨by decide, (by decide : cString "a" = "a"), trivial⟩, by decide, trivial, trivial⟩,
      (by decide : 0 + 5 ≤ 110)⟩)

/-- An inner object without properties makes the outer one a property of the value below it. -/
theorem hollow_object_shifts :
    (∃ after, (NativeValue.valueObject (.cons "inner" (.value (.valueObject .nil)) .nil)).push idle
        (newHeap.withStack [.object 1]) = .ok 1 after ∧ after.stack = [.object 1] ∧
      (after.heap 1).properties "inner" = some (.object 2)) ∧
    ¬Declared idle (.cons "inner" (.value (.valueObject .nil)) .nil) (newHeap.withStack [.object 1]) := by
  constructor
  · exact ⟨_, rfl, rfl, by decide⟩
  · intro declared
    have full := (declared.solid (by decide)).2
    cases full

end Dtel.Duktape
