import Dtel.Construction.EventTarget.Attribute
import Dtel.Proof.EventTarget.Types
import Mathlib.Data.List.Count

namespace Dtel

section Abstract

variable {Fn : Type} [DecidableEq Fn]

/-- An attribute is for one replaceable value beside the listeners. -/
structure Slot (Fn : Type) where
  value : Value Fn
  listeners : List Fn

namespace Slot

def initial : Slot Fn := ⟨.undefined, []⟩

/-- An assignment changes only the value, and the other calls change only the listeners. -/
def use (slot : Slot Fn) : Use Fn → Slot Fn
  | .assign val => { slot with value := val }
  | .add fn => { slot with listeners := slot.listeners ++ [fn] }
  | .remove fn => { slot with listeners := slot.listeners.filter fun listener => listener ≠ fn }

/-- An event calls the value and the listeners. -/
def calls (slot : Slot Fn) : List Fn :=
  match slot.value with
  | .function fn => fn :: slot.listeners
  | _ => slot.listeners

/-- The code deletes all listeners of this function: the one that an assignment replaces, or the one that is
removed. -/
def sweeps (slot : Slot Fn) : Use Fn → Option Fn
  | .assign _ =>
      match slot.value with
      | .function fn => some fn
      | _ => none
  | .add _ => none
  | .remove fn => some fn

/-- The deletion takes too much: the replaced function is a listener, or the removed one is the value. -/
def spoils (slot : Slot Fn) : Use Fn → Bool
  | .assign _ =>
      match slot.value with
      | .function fn => fn ∈ slot.listeners
      | _ => false
  | .add _ => false
  | .remove fn => slot.value = .function fn

/-- The last deletion of a function's listeners took too much. -/
def spoilt (fn : Fn) : Slot Fn → List (Use Fn) → Bool → Bool
  | _, [], spoiled => spoiled
  | slot, step :: uses, spoiled =>
      spoilt fn (slot.use step) uses (if slot.sweeps step = some fn then slot.spoils step else spoiled)

end Slot

end Abstract

variable {Fn Mark : Type} [DecidableEq Fn] {name : String} {mark : Mark}

/-- This is the effect of the code on the callbacks of the listener list. -/
def Use.rewrite (on : Value Fn) (callbacks : List (Value Fn)) : Use Fn → List (Value Fn)
  | .assign val => (if on.defined then callbacks.filter fun callback => callback ≠ on else callbacks) ++ [val]
  | .add fn => callbacks ++ [.function fn]
  | .remove fn => callbacks.filter fun callback => callback ≠ .function fn

/-- The assignment gives the attribute a value that is no function. -/
def Use.voids : Use Fn → Bool
  | .assign val => !val.defined
  | _ => false

/-- The number of listeners with this function that are added. -/
def Use.puts (fn : Fn) : Use Fn → Nat
  | .assign val => if val = .function fn then 1 else 0
  | .add listener => if listener = fn then 1 else 0
  | .remove _ => 0

section Counts

variable {slot : Slot Fn} {step : Use Fn} {fn : Fn} {callbacks : List (Value Fn)}

theorem count_filter_ne {A : Type} [DecidableEq A] (list : List A) (gone entry : A) :
    (list.filter fun other => other ≠ gone).count entry = if entry = gone then 0 else list.count entry := by
  by_cases same : entry = gone
  · simp [same, List.count_eq_zero]
  · rw [if_neg same, List.count_filter (by simpa using same)]

theorem Slot.calls_count : slot.calls.count fn = slot.listeners.count fn + if slot.value = .function fn then 1 else 0 := by
  unfold Slot.calls
  cases value : slot.value with
  | undefined | null => simp
  | function other => simp [List.count_cons]

/-- An assignment deletes the listeners of the old value, which is a function. -/
theorem Use.rewrite_assign {val : Value Fn} :
    (Use.assign val).rewrite (.function fn) callbacks =
      (callbacks.filter fun callback => callback ≠ .function fn) ++ [val] := rfl

/-- When the listeners of a function are swept, only the new ones are left. -/
theorem Use.rewrite_swept (swept : slot.sweeps step = some fn) :
    (step.rewrite slot.value callbacks).count (.function fn) = step.puts fn := by
  cases step with
  | assign val =>
      cases value : slot.value with
      | undefined | null => simp [Slot.sweeps, value] at swept
      | function other =>
          simp only [Slot.sweeps, value, Option.some.injEq] at swept
          subst swept
          rw [rewrite_assign, List.count_append, count_filter_ne, if_pos rfl, Nat.zero_add, List.count_singleton]
          simp [puts]
  | add listener => cases swept
  | remove listener =>
      cases swept
      rw [rewrite, count_filter_ne, if_pos rfl]
      rfl

/-- The listeners of a function that is not swept are kept. -/
theorem Use.rewrite_unswept (unswept : slot.sweeps step ≠ some fn) :
    (step.rewrite slot.value callbacks).count (.function fn) = callbacks.count (.function fn) + step.puts fn := by
  cases step with
  | assign val =>
      have new : [val].count (.function fn) = (Use.assign val).puts fn := by simp [puts, List.count_singleton]
      cases value : slot.value with
      | undefined | null =>
          rw [← new, ← List.count_append]
          rfl
      | function other =>
          have different : fn ≠ other := by
            rintro rfl
            simp [Slot.sweeps, value] at unswept
          rw [rewrite_assign, List.count_append, count_filter_ne, if_neg (by simpa using different), new]
  | add listener => simp [rewrite, puts, List.count_singleton]
  | remove listener =>
      have different : fn ≠ listener := by
        rintro rfl
        exact unswept rfl
      rw [rewrite, count_filter_ne, if_neg (by simpa using different)]
      rfl

/-- When the listeners of a function are swept, the slot still calls it for what the sweep spoils. -/
theorem Slot.use_swept (swept : slot.sweeps step = some fn) :
    ∃ lost, (slot.use step).calls.count fn = lost + step.puts fn ∧ (slot.spoils step = true ↔ 0 < lost) := by
  cases step with
  | assign val =>
      refine ⟨slot.listeners.count fn, calls_count, ?_⟩
      cases value : slot.value with
      | undefined | null => simp [sweeps, value] at swept
      | function other =>
          simp only [sweeps, value, Option.some.injEq] at swept
          subst swept
          simp [spoils, value]
  | add listener => cases swept
  | remove listener =>
      cases swept
      refine ⟨if slot.value = .function fn then 1 else 0, ?_, ?_⟩
      · rw [calls_count, use, count_filter_ne, if_pos rfl, Nat.zero_add]
        rfl
      · by_cases same : slot.value = .function fn <;> simp [spoils, same]

/-- The calls of a function that is not swept stay. -/
theorem Slot.use_unswept (unswept : slot.sweeps step ≠ some fn) :
    (slot.use step).calls.count fn = slot.calls.count fn + step.puts fn := by
  rw [calls_count, calls_count]
  cases step with
  | assign val =>
      have different : slot.value ≠ .function fn := by
        intro value
        simp [sweeps, value] at unswept
      rw [if_neg different]
      rfl
  | add listener =>
      simp only [use, Use.puts, List.count_append, List.count_singleton, beq_iff_eq]
      exact Nat.add_right_comm _ _ _
  | remove listener =>
      have different : fn ≠ listener := by
        rintro rfl
        exact unswept rfl
      rw [use, count_filter_ne, if_neg different]
      rfl

/-- A value that is no function stays in the list when the listeners of a function are deleted. -/
theorem void_filter : (∃ callback ∈ callbacks.filter fun callback => callback ≠ .function fn, callback.defined = false) ↔
    ∃ callback ∈ callbacks, callback.defined = false := by
  constructor
  · rintro ⟨callback, member, void⟩
    exact ⟨callback, List.mem_of_mem_filter member, void⟩
  · rintro ⟨callback, member, void⟩
    refine ⟨callback, List.mem_filter.mpr ⟨member, ?_⟩, void⟩
    rw [decide_eq_true_eq]
    rintro rfl
    cases void

/-- Only an assignment puts a value into the list that is no function, and nothing deletes it. -/
theorem Use.rewrite_void {on : Value Fn} :
    (∃ callback ∈ step.rewrite on callbacks, callback.defined = false) ↔
      (∃ callback ∈ callbacks, callback.defined = false) ∨ step.voids = true := by
  cases step with
  | assign val =>
      have kept : (∃ callback ∈ (if on.defined then callbacks.filter fun callback => callback ≠ on else callbacks),
          callback.defined = false) ↔ ∃ callback ∈ callbacks, callback.defined = false := by
        cases on with
        | undefined | null => exact Iff.rfl
        | function fn => exact void_filter
      simp only [rewrite, voids, List.mem_append, List.mem_singleton, or_and_right, exists_or, exists_eq_left, kept,
        Bool.not_eq_true']
  | add listener => simp [rewrite, voids, or_and_right, exists_or, Value.defined]
  | remove listener => simp only [rewrite, voids, void_filter, Bool.false_eq_true, or_false]

end Counts

namespace EventTarget

/-- The callbacks that are registered for a type. -/
def callbacks (target : EventTarget Fn Mark) (type : String) : List (Value Fn) :=
  (target.stack type).map Listener.callback

variable {target : EventTarget Fn Mark} {type : String}

omit [DecidableEq Fn] in
theorem addEventListener_callbacks (mark : Mark) (callback : Value Fn) (new : target.inherited type = none) :
    ∃ after, target.addEventListener mark type callback = .ok after ∧ after.inherited = target.inherited ∧
      after.callbacks type = target.callbacks type ++ [callback] := by
  refine ⟨_, addEventListener_new new, rfl, ?_⟩
  simp [callbacks, setListeners_stack]

theorem removeEventListener_callbacks (callback : Value Fn) (new : target.inherited type = none) :
    ∃ after, target.removeEventListener type callback = .ok after ∧ after.inherited = target.inherited ∧
      after.callbacks type = (target.callbacks type).filter fun other => other ≠ callback := by
  cases own : target.listeners type with
  | none =>
      refine ⟨target, by simp [removeEventListener, own, new], rfl, ?_⟩
      simp [callbacks, EventTarget.stack, own]
  | some stack =>
      refine ⟨target.setListeners type (removeCalls callback (stack.length + 1) stack), ?_, rfl, ?_⟩
      · simp [removeEventListener, own]
      · have same : target.stack type = stack := by simp [EventTarget.stack, own]
        rw [callbacks, setListeners_stack, if_pos rfl, removeCalls_eq_filter (Nat.lt_succ_self _), callbacks, same,
          List.filter_map]
        rfl

end EventTarget

namespace AttributeTarget

variable {object : AttributeTarget Fn Mark} {slot : Slot Fn} {step : Use Fn}

/-- Each use of an attribute returns and rewrites the listeners of its name. -/
theorem use_returns (mark : Mark) (step : Use Fn) (value : object.on name = slot.value)
    (new : object.target.inherited name = none) :
    ∃ after, object.use mark name step = .ok after ∧ after.target.inherited = object.target.inherited ∧
      after.on name = (slot.use step).value ∧
      after.target.callbacks name = step.rewrite slot.value (object.target.callbacks name) := by
  rw [← value]
  cases step with
  | assign val =>
      have removed : ∃ middle, (if (object.on name).defined then
            object.target.removeEventListener name (object.on name) else .ok object.target) = .ok middle ∧
          middle.inherited = object.target.inherited ∧ middle.callbacks name =
            if (object.on name).defined then
              (object.target.callbacks name).filter fun callback => callback ≠ object.on name
            else object.target.callbacks name := by
        by_cases defined : (object.on name).defined = true
        · obtain ⟨middle, returned, inherited, callbacks⟩ :=
            EventTarget.removeEventListener_callbacks (object.on name) new
          exact ⟨middle, by rw [if_pos defined, returned], inherited, by rw [if_pos defined, callbacks]⟩
        · exact ⟨object.target, by rw [if_neg defined], rfl, by rw [if_neg defined]⟩
      obtain ⟨middle, first, inherited, kept⟩ := removed
      obtain ⟨after, second, same, callbacks⟩ :=
        EventTarget.addEventListener_callbacks mark val ((congrFun inherited name).trans new)
      refine ⟨⟨after, Function.update object.on name val⟩, ?_, same.trans inherited, ?_, ?_⟩
      · simp only [use, set, first, second]
      · simp [Slot.use]
      · rw [callbacks, kept]
        rfl
  | add fn =>
      obtain ⟨after, returned, inherited, callbacks⟩ :=
        EventTarget.addEventListener_callbacks mark (.function fn) new
      exact ⟨{ object with target := after }, by simp [use, withTarget, returned], inherited, value, callbacks⟩
  | remove fn =>
      obtain ⟨after, returned, inherited, callbacks⟩ :=
        EventTarget.removeEventListener_callbacks (.function fn) new
      exact ⟨{ object with target := after }, by simp [use, withTarget, returned], inherited, value, callbacks⟩

/-- The object has the value of the slot. Each function has at most as many listeners as the slot calls it, and
fewer only when they are spoilt. A listener that is no function comes from such a value. -/
structure Tracks (name : String) (slot : Slot Fn) (spoiled : Fn → Bool) (voided : Prop)
    (object : AttributeTarget Fn Mark) : Prop where
  value : object.on name = slot.value
  atMost : ∀ fn, (object.target.callbacks name).count (.function fn) ≤ slot.calls.count fn
  fewer : ∀ fn, spoiled fn = true ↔
    (object.target.callbacks name).count (.function fn) < slot.calls.count fn
  void : (∃ callback ∈ object.target.callbacks name, callback.defined = false) ↔ voided

/-- Each use keeps the account of the listeners. -/
theorem Tracks.use {spoiled : Fn → Bool} {voided : Prop} {after : AttributeTarget Fn Mark}
    (tracks : object.Tracks name slot spoiled voided) (value : after.on name = (slot.use step).value)
    (callbacks : after.target.callbacks name = step.rewrite slot.value (object.target.callbacks name)) :
    after.Tracks name (slot.use step)
      (fun fn => if slot.sweeps step = some fn then slot.spoils step else spoiled fn)
      (voided ∨ step.voids = true) where
  value := value
  atMost fn := by
    rw [callbacks]
    by_cases swept : slot.sweeps step = some fn
    · obtain ⟨lost, count, -⟩ := Slot.use_swept swept
      rw [Use.rewrite_swept swept, count]
      exact Nat.le_add_left _ _
    · rw [Use.rewrite_unswept swept, Slot.use_unswept swept]
      exact Nat.add_le_add_right (tracks.atMost fn) _
  fewer fn := by
    rw [callbacks]
    by_cases swept : slot.sweeps step = some fn
    · obtain ⟨lost, count, spoils⟩ := Slot.use_swept swept
      rw [if_pos swept, Use.rewrite_swept swept, count, spoils]
      omega
    · rw [if_neg swept, Use.rewrite_unswept swept, Slot.use_unswept swept, tracks.fewer fn]
      omega
  void := by
    rw [callbacks, Use.rewrite_void, tracks.void]

/-- All uses return and keep the account. -/
theorem Tracks.useAll {spoiled : Fn → Bool} {voided : Prop} {uses : List (Use Fn)} (mark : Mark)
    (tracks : object.Tracks name slot spoiled voided) (new : object.target.inherited name = none) :
    ∃ after, object.useAll mark name uses = .ok after ∧ after.target.inherited = object.target.inherited ∧
      after.Tracks name (uses.foldl Slot.use slot) (fun fn => Slot.spoilt fn slot uses (spoiled fn))
        (voided ∨ ∃ step ∈ uses, step.voids = true) := by
  induction uses generalizing object slot spoiled voided with
  | nil =>
      have none : (voided ∨ ∃ step ∈ ([] : List (Use Fn)), step.voids = true) ↔ voided := by simp
      exact ⟨object, rfl, rfl, { tracks with void := tracks.void.trans none.symm }⟩
  | cons step uses inductionHypothesis =>
      obtain ⟨middle, first, inherited, value, callbacks⟩ := use_returns mark step tracks.value new
      obtain ⟨after, later, same, kept⟩ :=
        inductionHypothesis (tracks.use value callbacks) ((congrFun inherited name).trans new)
      refine ⟨after, ?_, same.trans inherited, { kept with void := kept.void.trans ?_ }⟩
      · simp only [AttributeTarget.useAll, first, later]
      · simp only [List.mem_cons, exists_eq_or_imp, or_assoc]

/-- A new object has no listeners. -/
theorem construct_tracks : (construct objectPrototype : AttributeTarget Fn Mark).Tracks name Slot.initial
    (fun _ => false) False where
  value := rfl
  atMost fn := Nat.zero_le _
  fewer fn := by simp [Slot.calls, Slot.initial]
  void := by simp [EventTarget.callbacks, EventTarget.stack, construct, EventTarget.construct]

end AttributeTarget

namespace EventTarget

variable {target : EventTarget Fn Mark} {behaviour : List Fn → List (Change Fn)}

omit [DecidableEq Fn] in
/-- The callbacks of a list are all functions, or there is a first one that is not. -/
theorem listeners_cases (stack : List (Listener Fn Mark)) :
    (∃ entries, stack = registrations entries) ∨
      ∃ entries void rest, void.callback.defined = false ∧ stack = registrations entries ++ void :: rest := by
  induction stack with
  | nil => exact Or.inl ⟨[], rfl⟩
  | cons listener stack inductionHypothesis =>
      obtain ⟨callback, mark⟩ := listener
      cases callback with
      | undefined | null => exact Or.inr ⟨[], _, stack, rfl, rfl⟩
      | function fn =>
          rcases inductionHypothesis with ⟨entries, rfl⟩ | ⟨entries, void, rest, undefined, rfl⟩
          · exact Or.inl ⟨(fn, mark) :: entries, rfl⟩
          · exact Or.inr ⟨(fn, mark) :: entries, void, rest, undefined, rfl⟩

/-- A dispatch throws when it comes to a callback that is no function. -/
theorem dispatchEvent_void {entries : List (Fn × Mark)} {void : Listener Fn Mark} {rest : List (Listener Fn Mark)}
    (adding : ∀ history, ∀ change ∈ behaviour history, change.Adding target.inherited)
    (new : target.inherited name = none) (undefined : void.callback.defined = false)
    (listeners : target.stack name = registrations entries ++ void :: rest) :
    ∃ thrown, target.dispatchEvent mark name behaviour = .error thrown := by
  have length : (target.stack name).length = entries.length + (rest.length + 1) := by
    simp [listeners, registrations]
  have own : target.stack name = registrations ([] ++ entries) ++ void :: rest := listeners
  obtain ⟨after, more, grown, same⟩ := dispatchLoop_ahead (rest.length + 1) adding own
  refine ⟨⟨after, entries⟩, ?_⟩
  rw [dispatchEvent_eq_loop (Or.inl new), length]
  refine same.trans ?_
  have read : (after.stack name)[entries.length]? = some void := by
    rw [grown, listeners, List.append_assoc, List.getElem?_append_right (by simp [registrations])]
    simp [registrations]
  obtain ⟨callback, mark⟩ := void
  cases callback with
  | undefined | null => simp only [List.nil_append, dispatchLoop, read]
  | function fn => cases undefined

omit [DecidableEq Fn] in
/-- The listeners of registered functions are counted by function. -/
theorem registrations_count [DecidableEq Fn] {entries : List (Fn × Mark)} (fn : Fn)
    (listeners : target.stack name = registrations entries) :
    (target.callbacks name).count (.function fn) = (entries.map Prod.fst).count fn := by
  have functions : target.callbacks name = (entries.map Prod.fst).map Value.function := by
    simp [callbacks, listeners, registrations]
  rw [functions]
  exact List.count_map_of_injective _ _ (fun _ _ => Value.function.inj) fn

end EventTarget

namespace AttributeTarget

/-- No attribute has the name of an inherited property. -/
theorem attributes_new {scope : Scope} (named : name ∈ scope.attributes) : objectPrototype name = none := by
  have all : ∀ other ∈ scope.attributes, objectPrototype other = none := by cases scope <;> decide
  exact all name named

/-- The attributes of an object behave as one replaceable slot beside the listeners, if and only if no value but a
function is assigned, and for each function the last deletion of its listeners takes no other ones with it: an
assignment replaces it only when it is no listener, and it is removed only when it is not the value. -/
theorem attribute_is_slot {scope : Scope} {uses : List (Use Fn)} {behaviour : List Fn → List (Change Fn)}
    (named : name ∈ scope.attributes)
    (adding : ∀ history, ∀ change ∈ behaviour history, change.Adding objectPrototype) :
    (∃ (object : AttributeTarget Fn Mark) (dispatch : Dispatch Fn Mark),
      (construct objectPrototype).useAll mark name uses = .ok object ∧
      object.target.dispatchEvent mark name behaviour = .ok dispatch ∧
      dispatch.called.Perm (uses.foldl Slot.use Slot.initial).calls) ↔
    (∀ step ∈ uses, step.voids = false) ∧ ∀ fn, Slot.spoilt fn Slot.initial uses false = false := by
  have new := attributes_new named
  have tracked : ∃ object, (construct objectPrototype : AttributeTarget Fn Mark).useAll mark name uses = .ok object ∧
      object.target.inherited = objectPrototype ∧
      object.Tracks name (uses.foldl Slot.use Slot.initial) (fun fn => Slot.spoilt fn Slot.initial uses false)
        (False ∨ ∃ step ∈ uses, step.voids = true) := construct_tracks.useAll mark new
  obtain ⟨object, returned, inherited, tracks⟩ := tracked
  have empty : object.target.inherited name = none := (congrFun inherited name).trans new
  constructor
  · rintro ⟨object', dispatch, returned', dispatched, perm⟩
    cases returned.symm.trans returned'
    rcases EventTarget.listeners_cases (object.target.stack name) with
      ⟨entries, listeners⟩ | ⟨entries, void, rest, undefined, listeners⟩
    · obtain ⟨after, same⟩ := EventTarget.dispatchEvent_adding (inherited ▸ adding) (Or.inl empty) listeners
      cases same.symm.trans dispatched
      constructor
      · intro step member
        by_contra voids
        obtain ⟨callback, inside, undefined⟩ := tracks.void.mpr (Or.inr ⟨step, member, by simpa using voids⟩)
        simp only [EventTarget.callbacks, listeners, EventTarget.registrations, List.map_map, List.mem_map] at inside
        obtain ⟨entry, -, rfl⟩ := inside
        cases undefined
      · intro fn
        by_contra spoilt
        have fewer := (tracks.fewer fn).mp (by simpa using spoilt)
        rw [EventTarget.registrations_count fn listeners] at fewer
        exact absurd (perm.count_eq fn) (Nat.ne_of_lt fewer)
    · obtain ⟨thrown, same⟩ := EventTarget.dispatchEvent_void (inherited ▸ adding) empty undefined listeners
      cases same.symm.trans dispatched
  · rintro ⟨functions, unspoilt⟩
    rcases EventTarget.listeners_cases (object.target.stack name) with
      ⟨entries, listeners⟩ | ⟨entries, void, rest, undefined, listeners⟩
    · obtain ⟨after, dispatched⟩ := EventTarget.dispatchEvent_adding (inherited ▸ adding) (Or.inl empty) listeners
      refine ⟨object, ⟨after, entries⟩, returned, dispatched, ?_⟩
      rw [List.perm_iff_count]
      intro fn
      have atMost := tracks.atMost fn
      rw [EventTarget.registrations_count fn listeners] at atMost
      refine Nat.le_antisymm atMost (Nat.le_of_not_lt fun fewer => ?_)
      rw [Dispatch.called, ← EventTarget.registrations_count fn listeners, ← tracks.fewer fn, unspoilt fn] at fewer
      cases fewer
    · have inside : void.callback ∈ object.target.callbacks name := by
        simp [EventTarget.callbacks, listeners]
      rcases tracks.void.mp ⟨void.callback, inside, undefined⟩ with absurdity | ⟨step, member, voids⟩
      · exact absurdity.elim
      · rw [functions step member] at voids
        cases voids

/-- One handler replaces another, beside a listener. -/
theorem attribute_is_slot_here : ∃ (object : AttributeTarget Nat Unit) (dispatch : Dispatch Nat Unit),
    (construct objectPrototype).useAll () "message"
      [.assign (.function 0), .add 1, .assign (.function 2)] = .ok object ∧
    object.target.dispatchEvent () "message" (fun _ => []) = .ok dispatch ∧ dispatch.called.Perm [2, 1] := by
  have named : "message" ∈ Scope.dedicatedWorkerGlobalScope.attributes := by decide
  refine (attribute_is_slot named (by simp)).2 ⟨by decide, fun fn => ?_⟩
  simp [Slot.spoilt, Slot.initial, Slot.use, Slot.sweeps, Slot.spoils]

/-- An assignment of `null` registers `null`, so that each later dispatch throws. -/
theorem cleared_attribute_throws :
    ¬∀ uses : List (Use Nat), ∃ (object : AttributeTarget Nat Unit) (dispatch : Dispatch Nat Unit),
      (construct objectPrototype).useAll () "message" uses = .ok object ∧
      object.target.dispatchEvent () "message" (fun _ => []) = .ok dispatch ∧
      dispatch.called.Perm (uses.foldl Slot.use Slot.initial).calls := by
  intro claim
  obtain ⟨object, dispatch, returned, dispatched, -⟩ := claim [.assign .null]
  have thrown : (((construct objectPrototype : AttributeTarget Nat Unit).useAll () "message"
      [.assign .null]).toOption.bind fun object =>
        (object.target.dispatchEvent () "message" fun _ => []).toOption).isNone := by decide
  rw [returned] at thrown
  simp only [Except.toOption, Option.bind_some, dispatched] at thrown
  cases thrown

end AttributeTarget

end Dtel
