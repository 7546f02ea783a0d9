/-
This file models an event target: its listeners, and the dispatch of an event to them.
-/
import Mathlib.Logic.Function.Basic

namespace Dtel

/-- A script registers one of these values. -/
inductive Value (Fn : Type) where
  | undefined
  | null
  | function (fn : Fn)
deriving DecidableEq

/-- One entry of a listener list. No function reads the mark: it tells two registrations of one
callback apart. -/
structure Listener (Fn Mark : Type) where
  callback : Value Fn
  mark : Mark
deriving DecidableEq

/-- The object `this.listeners` has own properties, and it inherits those of `Object.prototype`. -/
structure EventTarget (Fn Mark : Type) where
  listeners : String → Option (List (Listener Fn Mark))
  /-- An inherited value counts with its `length`, which is zero when it is not a number. -/
  inherited : String → Option Nat

/-- These are the properties of `Object.prototype`, each with its `length`. -/
def objectPrototype (name : String) : Option Nat :=
  [("constructor", 1), ("toString", 0), ("toLocaleString", 0), ("valueOf", 0), ("hasOwnProperty", 1),
    ("isPrototypeOf", 1), ("propertyIsEnumerable", 1), ("__proto__", 0), ("__defineGetter__", 2),
    ("__defineSetter__", 2), ("__lookupGetter__", 1), ("__lookupSetter__", 1)].lookup name

/-- A call returns or throws a `TypeError`, and leaves a state in both cases. -/
abbrev Completion (State : Type) := Except State State

/-- A listener changes the listener lists by these calls. -/
inductive Change (Fn : Type) where
  | add (type : String) (callback : Value Fn)
  | remove (type : String) (callback : Value Fn)
deriving DecidableEq

/-- The lists change while the listeners of an event are called in turn. -/
structure Dispatch (Fn Mark : Type) where
  target : EventTarget Fn Mark
  calls : List (Fn × Mark)

/-- The functions that have been called. -/
def Dispatch.called {Fn Mark : Type} (dispatch : Dispatch Fn Mark) : List Fn := dispatch.calls.map Prod.fst

namespace EventTarget

variable {Fn Mark : Type}

/-- The constructor assigns an empty object to `this.listeners`. -/
def construct (inherited : String → Option Nat) : EventTarget Fn Mark := ⟨fun _ => none, inherited⟩

/-- This is the test `type in this.listeners`. -/
def has (target : EventTarget Fn Mark) (type : String) : Bool :=
  (target.listeners type).isSome || (target.inherited type).isSome

/-- This is the list that a type has, and an inherited value has no entries. -/
def stack (target : EventTarget Fn Mark) (type : String) : List (Listener Fn Mark) :=
  (target.listeners type).getD []

/-- This is the assignment `this.listeners[type] = stack`. -/
def setListeners (target : EventTarget Fn Mark) (type : String) (stack : List (Listener Fn Mark)) :
    EventTarget Fn Mark :=
  { target with listeners := Function.update target.listeners type (some stack) }

/-- An inherited value has no function `push`. -/
def addEventListener (mark : Mark) (target : EventTarget Fn Mark) (type : String) (callback : Value Fn) :
    Completion (EventTarget Fn Mark) :=
  let target := if target.has type then target else target.setListeners type []
  match target.listeners type with
  | some stack => .ok (target.setListeners type (stack ++ [⟨callback, mark⟩]))
  | none => .error target

variable [DecidableEq Fn]

/-- The loop of `removeEventListener` deletes the first listener with the callback, if it finds one. -/
def splice (callback : Value Fn) : List (Listener Fn Mark) → Option (List (Listener Fn Mark))
  | [] => none
  | listener :: stack =>
      if listener.callback = callback then some stack
      else (splice callback stack).map fun stack => listener :: stack

/-- After each deletion `removeEventListener` calls itself again. -/
def removeCalls (callback : Value Fn) : Nat → List (Listener Fn Mark) → List (Listener Fn Mark)
  | 0, stack => stack
  | calls + 1, stack =>
      match splice callback stack with
      | some stack => removeCalls callback calls stack
      | none => stack

/-- Each call deletes one listener, so that a list needs at most one call more than it has entries.
An inherited value has no entries and no function `splice`. -/
def removeEventListener (target : EventTarget Fn Mark) (type : String) (callback : Value Fn) :
    Completion (EventTarget Fn Mark) :=
  match target.listeners type, target.inherited type with
  | some stack, _ => .ok (target.setListeners type (removeCalls callback (stack.length + 1) stack))
  | none, some length => if callback = .undefined ∧ 0 < length then .error target else .ok target
  | none, none => .ok target

/-- A listener calls one of the two functions. -/
def perform (mark : Mark) (target : EventTarget Fn Mark) : Change Fn → Completion (EventTarget Fn Mark)
  | .add type callback => target.addEventListener mark type callback
  | .remove type callback => target.removeEventListener type callback

/-- A call that throws ends the listener. -/
def performAll (mark : Mark) (target : EventTarget Fn Mark) : List (Change Fn) → Completion (EventTarget Fn Mark)
  | [] => .ok target
  | change :: changes =>
      match target.perform mark change with
      | .ok target => target.performAll mark changes
      | .error target => .error target

/-- The loop of `dispatchEvent` reads the list again in each turn. The changes that a listener makes
depend on the functions that have been called, the last of which is its own. -/
def dispatchLoop (mark : Mark) (type : String) (behaviour : List Fn → List (Change Fn)) (index : Nat) :
    Nat → Dispatch Fn Mark → Completion (Dispatch Fn Mark)
  | 0, dispatch => .ok dispatch
  | turns + 1, dispatch =>
      match (dispatch.target.stack type)[index]? with
      | some ⟨.function fn, registration⟩ =>
          let dispatch := { dispatch with calls := dispatch.calls ++ [(fn, registration)] }
          match dispatch.target.performAll mark (behaviour dispatch.called) with
          | .ok target => dispatchLoop mark type behaviour (index + 1) turns { dispatch with target := target }
          | .error target => .error { dispatch with target := target }
      | _ => .error dispatch

/-- The length of the list is read once, before the first turn. -/
def dispatchEvent (mark : Mark) (target : EventTarget Fn Mark) (type : String)
    (behaviour : List Fn → List (Change Fn)) : Completion (Dispatch Fn Mark) :=
  match target.listeners type, target.inherited type with
  | some stack, _ => dispatchLoop mark type behaviour 0 stack.length ⟨target, []⟩
  | none, some length => dispatchLoop mark type behaviour 0 length ⟨target, []⟩
  | none, none => .ok ⟨target, []⟩

end EventTarget

end Dtel
