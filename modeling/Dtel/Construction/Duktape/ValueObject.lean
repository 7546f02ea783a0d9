/-
This file models the C++ values that push themselves onto the value stack.
-/
import Dtel.Construction.Duktape.Script

namespace Dtel.Duktape

mutual

/-- A property holds one of these types. The type `other` stands for each type that the bindings do not know. -/
inductive AnyValue where
  | empty
  | int (value : Int)
  | float (value : Number)
  | double (value : Number)
  | string (value : String)
  | value (value : NativeValue)
  | other

/-- The four subclasses of the C++ class `Value`. An event becomes a JavaScript event. -/
inductive NativeValue where
  | ref (ref : Ref)
  | valueGlobal
  | valueObject (properties : Properties)
  | event (target : Option NativeValue) (eventClass eventType : String) (eventInit : Properties)

/-- The map of the properties is listed in the order of its keys. -/
inductive Properties where
  | nil
  | cons (key : String) (value : AnyValue) (rest : Properties)

end

def Properties.size : Properties → Nat
  | .nil => 0
  | .cons _ _ rest => rest.size + 1

/-- This is `ValueObject::push`, with the loop that puts the properties. The result is the number of pushed values. -/
def pushValueObject (properties : Properties) (putAll : Api Unit) : Api Nat := do
  if properties.size = 0 then
    return 0
  pushObject
  putAll
  return 1

/-- This is the first part of `Event::push`, which creates the event. -/
def constructEvent (script : Script) (eventClass eventType : String) (pushInit : Api Nat) : Api Unit := do
  pushGlobalObject
  getPropString (-1) eventClass
  remove (-2)
  pushString eventType
  let oc ← pushInit
  if ← pnew script (1 + oc) then throwScriptError script (-1)

section Push

variable (script : Script)

mutual

/-- `PushAnyValue` ignores the number of values that a nested value has pushed. -/
def pushAnyValue : AnyValue → Api Unit
  | .empty => pushUndefined
  | .int value => pushInt value
  | .float value => pushNumber value
  | .double value => pushNumber value
  | .string value => pushString value
  | .value value => do let _ ← value.push
  | .other => throw (.exception "Unknown 'any' value type")

/-- An event is created by its constructor, and then gets its target. -/
def NativeValue.push : NativeValue → Api Nat
  | .ref ref => ref.push
  | .valueGlobal => do
      pushGlobalObject
      return 1
  | .valueObject properties => pushValueObject properties properties.putAll
  | .event target eventClass eventType eventInit => do
      constructEvent script eventClass eventType (pushValueObject eventInit eventInit.putAll)
      match target with
      | some target =>
          let _ ← target.push
          putPropString (-2) "target"
          return 1
      | none => return 1

def Properties.putAll : Properties → Api Unit
  | .nil => return
  | .cons key value rest => do
      pushAnyValue value
      putPropString (-2) key
      rest.putAll

end

end Push

/-- The C++ object for a JavaScript event. -/
structure Event where
  target : Option NativeValue
  eventClass : String
  eventType : String
  eventInit : Properties

/-- An event is a value. -/
def Event.value (event : Event) : NativeValue := .event event.target event.eventClass event.eventType event.eventInit

def Event.push (script : Script) (event : Event) : Api Nat := event.value.push script

/-- An event without a target gets the one that it is dispatched to. -/
def Event.withTarget (event : Event) (target : NativeValue) : Event :=
  { event with target := event.target.or (some target) }

/-- This is `EventTarget_dispatchEvent`. -/
def dispatchEvent (script : Script) (target : NativeValue) (event : Event) : Api Unit := do
  let _ ← target.push script
  pushString "dispatchEvent"
  let _ ← (event.withTarget target).push script
  if ← pcallProp script (-3) 1 then throwScriptError script (-1)
  pop
  pop

end Dtel.Duktape
