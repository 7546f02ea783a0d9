/-
This file models the event-handler attributes that `defevt` defines.
-/
import Dtel.Construction.EventTarget.Target

namespace Dtel

/-- These constructors define event-handler attributes. -/
inductive Scope where
  | abstractWorker
  | workerGlobalScope
  | dedicatedWorkerGlobalScope
deriving DecidableEq

/-- These are the names that the constructor passes to `defevt`. The last constructor calls the second one. -/
def Scope.attributes : Scope → List String
  | .abstractWorker => ["error"]
  | .workerGlobalScope => ["error", "offline", "online", "languagechange"]
  | .dedicatedWorkerGlobalScope => ["error", "offline", "online", "languagechange", "message"]

/-- The object is an event target with one more property for each attribute. -/
structure AttributeTarget (Fn Mark : Type) where
  target : EventTarget Fn Mark
  /-- The value of the property `_on` + name. -/
  on : String → Value Fn

/-- This is the test `!= undefined`, which `null` fails, too. -/
def Value.defined {Fn : Type} : Value Fn → Bool
  | .function _ => true
  | .undefined | .null => false

/-- A script uses the attribute and the listeners of one event type in these ways. -/
inductive Use (Fn : Type) where
  | assign (val : Value Fn)
  | add (fn : Fn)
  | remove (fn : Fn)
deriving DecidableEq

namespace AttributeTarget

variable {Fn Mark : Type}

/-- Each constructor calls `EventTarget` for the object. -/
def construct (inherited : String → Option Nat) : AttributeTarget Fn Mark :=
  ⟨EventTarget.construct inherited, fun _ => .undefined⟩

variable [DecidableEq Fn]

/-- This is the setter of the property `on` + name. A call that throws ends it. -/
def set (mark : Mark) (object : AttributeTarget Fn Mark) (name : String) (val : Value Fn) :
    Completion (AttributeTarget Fn Mark) :=
  let removed :=
    if (object.on name).defined then object.target.removeEventListener name (object.on name)
    else .ok object.target
  match removed with
  | .error target => .error { object with target := target }
  | .ok target =>
      let on := Function.update object.on name val
      match target.addEventListener mark name val with
      | .ok target => .ok ⟨target, on⟩
      | .error target => .error ⟨target, on⟩

/-- A call of a function of the event target leaves the attributes alone. -/
def withTarget (object : AttributeTarget Fn Mark) :
    Completion (EventTarget Fn Mark) → Completion (AttributeTarget Fn Mark)
  | .ok target => .ok { object with target := target }
  | .error target => .error { object with target := target }

def use (mark : Mark) (object : AttributeTarget Fn Mark) (name : String) : Use Fn → Completion (AttributeTarget Fn Mark)
  | .assign val => object.set mark name val
  | .add fn => object.withTarget (object.target.addEventListener mark name (.function fn))
  | .remove fn => object.withTarget (object.target.removeEventListener name (.function fn))

def useAll (mark : Mark) (object : AttributeTarget Fn Mark) (name : String) :
    List (Use Fn) → Completion (AttributeTarget Fn Mark)
  | [] => .ok object
  | step :: uses =>
      match object.use mark name step with
      | .ok object => object.useAll mark name uses
      | .error object => .error object

end AttributeTarget

end Dtel
