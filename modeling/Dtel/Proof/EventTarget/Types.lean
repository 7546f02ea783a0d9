import Dtel.Proof.EventTarget.Dispatch

namespace Dtel

variable {Fn Mark : Type}

/-- The change adds a listener of a type that is not the name of an inherited property. -/
def Change.Adding (inherited : String → Option Nat) : Change Fn → Prop
  | .add type _ => inherited type = none
  | .remove _ _ => False

/-- The changes add these listeners of one type. -/
def additions (mark : Mark) (type : String) (changes : List (Change Fn)) : List (Listener Fn Mark) :=
  changes.filterMap fun
    | .add name callback => if name = type then some ⟨callback, mark⟩ else none
    | .remove _ _ => none

namespace EventTarget

variable {target after : EventTarget Fn Mark} {type name : String} {callback : Value Fn} {mark : Mark}
  {stack : List (Listener Fn Mark)}

@[simp] theorem setListeners_inherited : (target.setListeners type stack).inherited = target.inherited := rfl

theorem setListeners_stack :
    (target.setListeners type stack).stack name = if name = type then stack else target.stack name := by
  by_cases same : name = type <;> simp [EventTarget.stack, setListeners, same]

/-- A listener of a type that is not inherited is added behind the listeners of its type. -/
theorem addEventListener_new (new : target.inherited type = none) :
    target.addEventListener mark type callback =
      .ok (target.setListeners type (target.stack type ++ [⟨callback, mark⟩])) := by
  cases own : target.listeners type with
  | none => simp [addEventListener, has, own, new, EventTarget.stack]
  | some stack => simp [addEventListener, has, own, EventTarget.stack]

/-- An inherited value has no `push`, so that no listener of its type is added. -/
theorem addEventListener_inherited (unowned : target.listeners type = none) (old : target.inherited type ≠ none) :
    target.addEventListener mark type callback = .error target := by
  have inherits : (target.inherited type).isSome := Option.isSome_iff_ne_none.mpr old
  simp [addEventListener, has, unowned, inherits]

variable [DecidableEq Fn] {changes : List (Change Fn)}

/-- A list of additions returns, adds each listener behind those of its type, and changes no other type. -/
theorem performAll_adding (mark : Mark) (adding : ∀ change ∈ changes, change.Adding target.inherited) :
    ∃ after, target.performAll mark changes = .ok after ∧ after.inherited = target.inherited ∧
      (∀ type, after.stack type = target.stack type ++ additions mark type changes) ∧
      ∀ type, target.inherited type ≠ none → after.listeners type = target.listeners type := by
  induction changes generalizing target with
  | nil => exact ⟨target, rfl, rfl, by simp [additions], fun _ _ => rfl⟩
  | cons change changes inductionHypothesis =>
      cases change with
      | remove type callback => exact (adding _ List.mem_cons_self).elim
      | add name callback =>
          have new : target.inherited name = none := adding _ List.mem_cons_self
          obtain ⟨after, returned, inherited, stacked, others⟩ :=
            @inductionHypothesis (target.setListeners name (target.stack name ++ [⟨callback, mark⟩]))
              (fun change member => adding change (List.mem_cons_of_mem _ member))
          refine ⟨after, ?_, inherited, ?_, ?_⟩
          · simp only [performAll, perform, addEventListener_new new, returned]
          · intro type
            rw [stacked, setListeners_stack]
            by_cases same : type = name
            · simp [additions, same]
            · simp [additions, same, Ne.symm same]
          · intro type old
            rw [others type old, setListeners_other]
            rintro rfl
            exact old new

/-- These calls register the functions, each for its type. -/
def registering (adds : List (String × Fn)) : List (Change Fn) := adds.map fun entry => .add entry.1 (.function entry.2)

/-- Calls that return have types that are not inherited, when no inherited type has listeners. -/
theorem adding_of_performAll {adds : List (String × Fn)}
    (unowned : ∀ type, target.inherited type ≠ none → target.listeners type = none)
    (returned : target.performAll mark (registering adds) = .ok after) :
    ∀ entry ∈ adds, target.inherited entry.1 = none := by
  induction adds generalizing target with
  | nil => simp
  | cons add adds inductionHypothesis =>
      simp only [registering, List.map_cons, performAll, perform] at returned
      by_cases new : target.inherited add.1 = none
      · rw [addEventListener_new new] at returned
        intro entry member
        rcases List.mem_cons.mp member with rfl | later
        · exact new
        · refine inductionHypothesis ?_ returned entry later
          intro type old
          rw [setListeners_other]
          · exact unowned type old
          · rintro rfl
            exact old new
      · rw [addEventListener_inherited (unowned _ new) new] at returned
        cases returned

omit [DecidableEq Fn] in
/-- The registered functions of one type are its listeners. -/
theorem additions_registering {adds : List (String × Fn)} :
    additions mark type (registering adds) =
      registrations ((adds.filter fun entry => entry.1 = type).map fun entry => (entry.2, mark)) := by
  induction adds with
  | nil => rfl
  | cons add adds inductionHypothesis =>
      unfold additions registering registrations at inductionHypothesis ⊢
      by_cases same : add.1 = type
      · simp [same, inductionHypothesis]
      · simp [same, inductionHypothesis]

variable {behaviour : List Fn → List (Change Fn)} {entries done pending : List (Fn × Mark)}
  {added : List (Listener Fn Mark)} {dispatch : Dispatch Fn Mark}

/-- The loop of a type that is not inherited, or whose inherited value has no `length`, reads its own listeners. -/
theorem dispatchEvent_eq_loop (empty : target.inherited type = none ∨ target.inherited type = some 0) :
    target.dispatchEvent mark type behaviour =
      dispatchLoop mark type behaviour 0 (target.stack type).length ⟨target, []⟩ := by
  cases own : target.listeners type with
  | some stack => simp [dispatchEvent, own, EventTarget.stack]
  | none =>
      rcases empty with none | zero
      · simp [dispatchEvent, dispatchLoop, own, none, EventTarget.stack]
      · simp [dispatchEvent, own, zero, EventTarget.stack]

/-- An inherited value with a positive `length` has no function at its first index. -/
theorem dispatchEvent_inherited {length : Nat} (unowned : target.listeners type = none)
    (old : target.inherited type = some (length + 1)) :
    target.dispatchEvent mark type behaviour = .error ⟨target, []⟩ := by
  simp [dispatchEvent, dispatchLoop, unowned, old, EventTarget.stack]

/-- Listeners that only add listeners are called one after another, up to the first value that is no function. -/
theorem dispatchLoop_ahead (turns : Nat)
    (adding : ∀ history, ∀ change ∈ behaviour history, change.Adding target.inherited)
    (listeners : target.stack type = registrations (done ++ pending) ++ added) :
    ∃ after more, after.stack type = target.stack type ++ more ∧
      dispatchLoop mark type behaviour done.length (pending.length + turns) ⟨target, done⟩ =
        dispatchLoop mark type behaviour (done ++ pending).length turns ⟨after, done ++ pending⟩ := by
  induction pending generalizing done target added with
  | nil => exact ⟨target, [], by simp, by simp⟩
  | cons entry pending inductionHypothesis =>
      have whole : done ++ entry :: pending = done ++ [entry] ++ pending := by simp
      have length : done.length + 1 = (done ++ [entry]).length := by simp
      have read : (target.stack type)[done.length]? = some ⟨.function entry.1, entry.2⟩ := by
        simp [listeners, registrations]
      obtain ⟨next, returned, inherited, stacked, -⟩ :=
        performAll_adding mark (adding (Dispatch.called ⟨target, done ++ [(entry.1, entry.2)]⟩))
      obtain ⟨after, more, grown, same⟩ := inductionHypothesis (inherited ▸ adding)
        (by rw [stacked, listeners, whole, List.append_assoc])
      refine ⟨after, _, by rw [grown, stacked, List.append_assoc], ?_⟩
      rw [List.length_cons, Nat.add_right_comm, dispatchLoop, read]
      simp only [returned]
      rw [length, whole]
      exact same

/-- A dispatch to listeners that only add listeners calls all of them, in the order of their registration. -/
theorem dispatchEvent_adding (adding : ∀ history, ∀ change ∈ behaviour history, change.Adding target.inherited)
    (empty : target.inherited type = none ∨ target.inherited type = some 0)
    (listeners : target.stack type = registrations entries) :
    ∃ after, target.dispatchEvent mark type behaviour = .ok ⟨after, entries⟩ := by
  have own : target.stack type = registrations ([] ++ entries) ++ [] := by simpa using listeners
  have length : (target.stack type).length = entries.length + 0 := by simp [listeners, registrations]
  obtain ⟨after, -, -, same⟩ := dispatchLoop_ahead 0 adding own
  refine ⟨after, ?_⟩
  rw [dispatchEvent_eq_loop empty, length]
  exact same

/-- On a fresh event target, all calls of `addEventListener` return and the dispatch of an event calls exactly
the listeners of its type in order, if and only if no property of `Object.prototype` has the name of a type
that is added, and the value of one that has the name of the event's type has no `length`. -/
theorem any_type_listens {inherited : String → Option Nat} {adds : List (String × Fn)}
    (adding : ∀ history, ∀ change ∈ behaviour history, change.Adding inherited) :
    (∃ target dispatch, (construct inherited).performAll mark (registering adds) = .ok target ∧
      target.dispatchEvent mark type behaviour = .ok dispatch ∧
      dispatch.called = (adds.filter fun entry => entry.1 = type).map Prod.snd) ↔
    (∀ entry ∈ adds, inherited entry.1 = none) ∧ (inherited type = none ∨ inherited type = some 0) := by
  have registered : (∀ entry ∈ adds, inherited entry.1 = none) →
      ∀ change ∈ registering adds, change.Adding (construct inherited : EventTarget Fn Mark).inherited := by
    intro new change member
    obtain ⟨entry, entered, rfl⟩ := List.mem_map.mp member
    exact new entry entered
  constructor
  · rintro ⟨target, dispatch, returned, dispatched, -⟩
    have new : ∀ entry ∈ adds, inherited entry.1 = none := adding_of_performAll (fun _ _ => rfl) returned
    refine ⟨new, ?_⟩
    obtain ⟨target', returned', same, -, others⟩ := performAll_adding mark (registered new)
    cases returned.symm.trans returned'
    cases old : inherited type with
    | none => exact Or.inl rfl
    | some length =>
        cases length with
        | zero => exact Or.inr rfl
        | succ length =>
            have unowned : target.listeners type = none := others type (by simp [construct, old])
            rw [dispatchEvent_inherited unowned (by rw [same]; exact old)] at dispatched
            cases dispatched
  · rintro ⟨new, empty⟩
    obtain ⟨target, returned, same, stacked, -⟩ := performAll_adding mark (registered new)
    have inherits : target.inherited = inherited := same
    have listeners := stacked type
    rw [additions_registering] at listeners
    generalize functions : (adds.filter fun entry => entry.1 = type).map (fun entry => (entry.2, mark)) = entries
      at listeners
    have own : target.stack type = registrations entries := listeners
    obtain ⟨after, dispatched⟩ := dispatchEvent_adding (inherits ▸ adding) (inherits ▸ empty) own
    refine ⟨target, ⟨after, entries⟩, returned, dispatched, ?_⟩
    simp [Dispatch.called, ← functions, Function.comp_def]

/-- Two functions listen to one type, and the second dispatched function adds a third. -/
theorem any_type_listens_here : ∃ target dispatch,
    (construct objectPrototype).performAll () (registering [("message", 0), ("error", 1), ("message", 2)]) = .ok target ∧
    target.dispatchEvent () "message" (fun _ => [.add "message" (.function 3)]) = .ok dispatch ∧
    dispatch.called = [0, 2] := by
  have added : ([("message", 0), ("error", 1), ("message", 2)].filter fun entry => entry.1 = "message").map Prod.snd =
      [0, 2] := by decide
  have new : objectPrototype "message" = none := by decide
  have adding : ∀ history : List Nat, ∀ change ∈ (fun _ => [.add "message" (.function 3)]) history,
      Change.Adding objectPrototype change := by
    intro history change member
    rw [List.mem_singleton.mp member]
    exact new
  rw [← added]
  exact (any_type_listens adding).2 ⟨by decide, Or.inl new⟩

/-- No listener can be added for a type with the name of an inherited property, and the dispatch of an event of
such a type throws, too. -/
theorem inherited_type_throws :
    ((construct objectPrototype : EventTarget Nat Unit).addEventListener () "toString" (.function 0)).isOk = false ∧
    ((construct objectPrototype : EventTarget Nat Unit).dispatchEvent () "constructor" fun _ => []).isOk = false := by
  decide

end EventTarget

end Dtel
