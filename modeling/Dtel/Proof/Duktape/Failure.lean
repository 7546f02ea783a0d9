import Dtel.Proof.Duktape.Balance

namespace Dtel.Duktape
open Calls

variable {script : Script} {base context before after : Context} {value : Value} {stack : List Value}
  {target : NativeValue} {event : Event} {properties : Properties} {A : Type} {what : String} {bound : Nat}

/-- The values in an event are plain. -/
def Event.Plain (event : Event) : Prop := event.eventInit.Plain ∧ ∀ target ∈ event.target, target.Plain

section Exits

/-- A push that returns adds the event, and one that fails keeps the entries below. -/
theorem Event.push_adds (solid : ∀ target ∈ event.target, target.hollow = 0) (stack : List Value) :
    Turns stack stack (event.push script) fun _ after => ∃ top, after = top :: stack :=
  event_adds fun native there stack => native.push_adds stack (solid native there)

end Exits

section Dispatch

theorem Above.longer (above : Above stack context) : context.stack ≠ stack := by
  obtain ⟨top, kept⟩ := above
  intro same
  have length := kept.length_le
  rw [same, List.length_cons] at length
  omega

end Dispatch

section Refusal

/-- Constructors fail as soon as the heap has grown beyond the bound, and every other call fails. -/
def refusing (bound : Nat) : Script where
  call invocation context := match invocation with
    | .construct _ _ => ⟨bound < context.fresh, .object context.global, ⟨context.heap, 1, 0⟩⟩
    | _ => ⟨true, .string "refused", ⟨context.heap, 0, 0⟩⟩
  convert _ context := ⟨false, "refused", ⟨context.heap, 0, 0⟩⟩
  read _ _ context := ⟨false, .undefined, ⟨context.heap, 0, 0⟩⟩

theorem errorMessage_refusing (space : stack.length + 3 ≤ context.reserve) :
    errorMessage (refusing bound) (-1) (context.withStack (value :: stack)) =
      .ok "refused" (context.withStack (value :: stack)) := by
  have two : (context.withStack (value :: value :: stack)).Space 1 := space
  have copied : dup (-1) (context.withStack (value :: stack)) = .ok () (context.withStack (value :: value :: stack)) := by
    rw [dup, bind_ok (requireNormalizeIndex_run normalizeIndex_top)]
    exact push_run (Nat.le_of_succ_le space)
  have text : safeToString (refusing bound) (context.withStack (value :: value :: stack)) =
      .ok "refused" (context.withStack (.string "refused" :: value :: stack)) := by
    rw [safeToString, bind_ok (requireSpace_run two)]
    rfl
  rw [errorMessage, bind_ok copied, bind_ok text, bind_ok pop_run]
  rfl

theorem errorStack_refusing (space : stack.length + 3 ≤ context.reserve) :
    errorStack (refusing bound) (-1) (context.withStack (value :: stack)) =
      .ok "" (context.withStack (value :: stack)) := by
  have object : isObject (-1) (context.withStack (value :: stack)) =
      .ok value.isObject (context.withStack (value :: stack)) := by
    rw [isObject, get_bind, valueAt_top]
    rfl
  have two : (context.withStack (value :: stack)).Space 2 := space
  have read : readThrown (refusing bound) (-1) "stack" (context.withStack (value :: stack)) =
      .ok () (context.withStack (.undefined :: value :: stack)) := by
    rw [readThrown, bind_ok (requireNormalizeIndex_run normalizeIndex_top), bind_ok (requireSpace_run two)]
    exact push_run (Nat.le_of_succ_le space)
  have none : getString (-1) (context.withStack (.undefined :: value :: stack)) =
      .ok none (context.withStack (.undefined :: value :: stack)) := by
    rw [getString, get_bind, valueAt_top]
    rfl
  rw [errorStack, bind_ok object]
  split
  case isTrue =>
      rw [bind_ok read, bind_ok none, bind_ok pop_run]
      rfl
  case isFalse => rfl

/-- With space, each error becomes an exception. -/
theorem throwScriptError_refusing (space : stack.length + 3 ≤ context.reserve) :
    ∃ after, throwScriptError (refusing bound) (-1) (context.withStack (value :: stack)) =
      .error (.exception "refused") after := by
  have removed : remove (-1) (context.withStack (value :: stack)) = .ok () (context.withStack stack) := by
    rw [remove, bind_ok (requireNormalizeIndex_run normalizeIndex_top)]
    rfl
  rw [throwScriptError, bind_ok (errorMessage_refusing space), bind_ok (errorStack_refusing space), bind_ok removed]
  exact ⟨_, rfl⟩

/-- The properties of a plain event are pushed, whatever the scripts do. -/
theorem init_run (stack : List Value) (grown : Grown (fun _ => False) base context)
    (served : ∀ ref ∈ properties.refs, base.Serves ref) (plain : properties.Plain) (full : properties.hollow = 0)
    (space : stack.length + (properties.need + 1) ≤ context.reserve) :
    ∃ args after, Grown (fun _ => False) base after ∧ ∀ script,
      pushValueObject properties (properties.putAll script) (context.withStack stack) =
        .ok args.length (Context.withStack after (args ++ stack)) := by
  by_cases none : properties.size = 0
  · refine ⟨[], context, grown, fun script => ?_⟩
    rw [pushValueObject, if_pos none]
    rfl
  · have root : (NativeValue.valueObject properties).hollow = 0 := NativeValue.hollow_valueObject.mpr ⟨none, full⟩
    have built := (NativeValue.valueObject properties).build_grown base.referred base.global context
    exact ⟨[_], _, grown.trans built, fun script => (NativeValue.valueObject properties).push_run context stack grown
      served plain root ((NativeValue.need_valueObject none).symm ▸ space)⟩

/-- The class and the type are pushed, and then the properties. -/
theorem constructEvent_run (eventClass eventType : String) (space : stack.length + 4 ≤ context.reserve) :
    ∃ constructor, ∀ script pushInit, constructEvent script eventClass eventType pushInit (context.withStack stack) = (do
      let oc ← pushInit
      if ← pnew script (1 + oc) then throwScriptError script (-1))
      (context.withStack (.string (cString eventType) :: constructor :: stack)) := by
  have global : pushGlobalObject (context.withStack stack) =
      .ok () (context.withStack (.object context.global :: stack)) := push_run (by omega)
  have two : ∀ value : Value, (value :: stack).length + 1 ≤ context.reserve := fun _ => by
    rw [List.length_cons]
    omega
  refine ⟨((context.heap context.global).properties (cString eventClass)).getD .undefined, fun script pushInit => ?_⟩
  rw [constructEvent, bind_ok global, bind_ok (getPropString_run space), bind_ok remove_run, pushString,
    bind_ok (push_run (two _))]

/-- The constructor succeeds up to the bound, and fails behind it. -/
theorem pnew_refusing (bound : Nat) (context : Context) (stack args : List Value) (first constructor : Value) :
    ∃ after value, pnew (refusing bound) (1 + args.length) (context.withStack (args ++ first :: constructor :: stack)) =
      .ok (bound < context.fresh) (Context.withStack after (value :: stack)) ∧ Grown (fun _ => False) context after ∧
      context.fresh < after.fresh := by
  obtain ⟨split, taken⟩ := arguments_taken args first constructor stack rfl
  rw [split, pnew, protectedCall_run _ taken]
  exact ⟨_, _, rfl, ⟨Nat.le_succ _, rfl, rfl, rfl, fun _ _ _ => rfl⟩, Nat.lt_succ_self _⟩

/-- Behind the bound, no event is constructed. -/
theorem constructEvent_refused {eventClass eventType : String} (grown : Grown (fun _ => False) base context)
    (served : ∀ ref ∈ properties.refs, base.Serves ref) (late : bound < base.fresh) (full : properties.hollow = 0)
    (space : stack.length + max 4 (properties.need + 3) ≤ context.reserve)
    (strange : ¬properties.Plain → ∀ stack : List Value, stack.length + (properties.need + 1) ≤ context.reserve →
      ∃ what after, pushValueObject properties (properties.putAll (refusing bound)) (context.withStack stack) =
        .error (.exception what) after) :
    ∃ what after, constructEvent (refusing bound) eventClass eventType
      (pushValueObject properties (properties.putAll (refusing bound))) (context.withStack stack) =
        .error (.exception what) after := by
  have four : stack.length + 4 ≤ context.reserve := (Nat.add_le_add_left (le_max_left _ _) _).trans space
  have init : ∀ first second : Value, (first :: second :: stack).length + (properties.need + 1) ≤ context.reserve := by
    intro first second
    have more := (Nat.add_le_add_left (le_max_right _ _) _).trans space
    rw [List.length_cons, List.length_cons]
    omega
  obtain ⟨constructor, run⟩ := constructEvent_run eventClass eventType four
  rw [run]
  by_cases plain : properties.Plain
  · obtain ⟨args, middle, later, pushed⟩ := init_run _ grown served plain full (init _ _)
    obtain ⟨after, value, created, same, -⟩ := pnew_refusing bound middle stack args (.string (cString eventType)) constructor
    have beyond : bound < middle.fresh := late.trans_le later.fresh
    have three : stack.length + 3 ≤ after.reserve := by
      rw [same.reserve, later.reserve, ← grown.reserve]
      exact Nat.le_of_succ_le four
    obtain ⟨last, threw⟩ := throwScriptError_refusing three
    rw [bind_ok (pushed _), bind_ok created, decide_eq_true beyond, if_pos rfl]
    exact ⟨_, _, threw⟩
  · obtain ⟨what, after, threw⟩ := strange plain _ (init _ _)
    exact ⟨what, after, bind_error threw⟩

theorem Properties.size_strange (strange : ¬properties.Plain) : properties.size ≠ 0 := by
  intro none
  cases properties with
  | nil => exact strange trivial
  | cons key value rest => cases none

theorem pushValueObject_refused (strange : ¬properties.Plain)
    (space : stack.length + (properties.need + 1) ≤ context.reserve)
    (refused : ∃ what after,
      properties.putAll (refusing bound) (context.allocate.withStack (.object context.fresh :: stack)) =
      .error (.exception what) after) :
    ∃ what after, pushValueObject properties (properties.putAll (refusing bound)) (context.withStack stack) =
      .error (.exception what) after := by
  obtain ⟨what, after, threw⟩ := refused
  have some := Properties.size_strange strange
  have one : stack.length + 1 ≤ context.reserve := (Nat.add_le_add_left (Nat.le_add_left 1 _) _).trans space
  rw [pushValueObject, if_neg some, bind_ok (pushObject_run one)]
  exact ⟨what, after, bind_error threw⟩

mutual

/-- Behind the bound, a value that is not plain throws an exception when no object in it is hollow. -/
theorem AnyValue.push_refused (value : AnyValue) (context : Context) (stack : List Value)
    (grown : Grown (fun _ => False) base context) (served : ∀ ref ∈ value.refs, base.Serves ref)
    (late : bound < base.fresh) (strange : ¬value.Plain) (full : value.hollow = 0)
    (space : stack.length + value.need ≤ context.reserve) :
    ∃ what after, pushAnyValue (refusing bound) value (context.withStack stack) = .error (.exception what) after := by
  cases value with
  | value value =>
      obtain ⟨what, after, threw⟩ := value.push_refused context stack grown served late strange full space
      exact ⟨what, after, bind_error threw⟩
  | other => exact ⟨_, _, rfl⟩
  | _ => exact absurd trivial strange

theorem NativeValue.push_refused (value : NativeValue) (context : Context) (stack : List Value)
    (grown : Grown (fun _ => False) base context) (served : ∀ ref ∈ value.refs, base.Serves ref)
    (late : bound < base.fresh) (strange : ¬value.Plain) (full : value.hollow = 0)
    (space : stack.length + value.need ≤ context.reserve) :
    ∃ what after, value.push (refusing bound) (context.withStack stack) = .error (.exception what) after := by
  cases value with
  | valueObject properties =>
      obtain ⟨some, solid⟩ := NativeValue.hollow_valueObject.mp full
      rw [NativeValue.need_valueObject some] at space
      have inside : context.fresh < context.allocate.fresh := Nat.lt_succ_self _
      have enough : (Value.object context.fresh :: stack).length + properties.need ≤ context.allocate.reserve := by
        rw [List.length_cons, Nat.add_right_comm]
        exact space
      exact pushValueObject_refused strange space (properties.putAll_refused context.fresh context.allocate stack
        (grown.trans allocate_grown) grown.fresh inside served late strange solid enough)
  | event target eventClass eventType eventInit =>
      have solid : eventInit.hollow = 0 := (NativeValue.hollow_event full).1
      have inside : context.fresh < context.allocate.fresh := Nat.lt_succ_self _
      have here : ∀ ref ∈ eventInit.refs, base.Serves ref := fun ref member => served ref (NativeValue.refs_event member)
      have enough : stack.length + max 4 (eventInit.need + 3) ≤ context.reserve :=
        (Nat.add_le_add_left NativeValue.need_event.1 _).trans space
      have refused : ∃ what after, constructEvent (refusing bound) eventClass eventType
          (pushValueObject eventInit (eventInit.putAll (refusing bound))) (context.withStack stack) =
            .error (.exception what) after := by
        refine constructEvent_refused grown here late solid enough fun strange stack space => ?_
        refine pushValueObject_refused strange space (eventInit.putAll_refused context.fresh context.allocate stack
          (grown.trans allocate_grown) grown.fresh inside here late strange solid ?_)
        rw [List.length_cons, Nat.add_right_comm]
        exact space
      obtain ⟨what, after, threw⟩ := refused
      unfold NativeValue.push
      exact ⟨what, after, bind_error threw⟩
  | _ => exact absurd trivial strange

theorem Properties.putAll_refused (properties : Properties) (address : Nat) (context : Context) (stack : List Value)
    (grown : Grown (fun _ => False) base context) (new : base.fresh ≤ address) (inside : address < context.fresh)
    (served : ∀ ref ∈ properties.refs, base.Serves ref) (late : bound < base.fresh) (strange : ¬properties.Plain)
    (full : properties.hollow = 0) (space : (Value.object address :: stack).length + properties.need ≤ context.reserve) :
    ∃ what after, properties.putAll (refusing bound) (context.withStack (.object address :: stack)) =
      .error (.exception what) after := by
  cases properties with
  | nil => exact absurd trivial strange
  | cons key value rest =>
      rw [Properties.hollow, Nat.add_eq_zero_iff] at full
      obtain ⟨forValue, forKeys, forRest⟩ := Properties.need_cons.mp space
      have here : ∀ ref ∈ value.refs, base.Serves ref := fun ref member => served ref (List.mem_append_left _ member)
      by_cases plain : value.Plain
      · have built := value.build_grown base.referred base.global context
        have first : pushAnyValue (refusing bound) value (context.withStack (.object address :: stack)) = _ :=
          value.push_run context (.object address :: stack) grown here plain full.1 forValue
        have later := (grown.trans built).putProperty key (value.build base.referred base.global context).1 new
        have four : stack.length + 4 ≤ (value.build base.referred base.global context).2.reserve := by
          rw [built.reserve]
          exact (Nat.add_right_comm stack.length 1 3).symm.trans_le forKeys
        rw [Properties.putAll, bind_ok first, bind_ok (putPropString_run four)]
        exact rest.putAll_refused address _ stack later new (inside.trans_le built.fresh)
          (fun ref member => served ref (List.mem_append_right _ member)) late (fun others => strange ⟨plain, others⟩) full.2
          (forRest.trans_eq built.reserve.symm)
      · obtain ⟨what, after, threw⟩ := value.push_refused context (.object address :: stack) grown here late plain full.1
          forValue
        exact ⟨what, after, bind_error threw⟩

end

end Refusal

end Dtel.Duktape
