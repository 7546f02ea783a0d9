/-
This file models the calls from C++ into scripts, which may fail.
-/
import Dtel.Construction.Duktape.Refs
import Dtel.Construction.Timer.Handler

namespace Dtel.Duktape

/-- Script changes the objects, and it allocates some. A call that fails may leave a larger reserve behind. -/
structure Effect where
  objects : Nat → Object
  allocated : Nat
  reserved : Nat

def Effect.apply (effect : Effect) (context : Context) (stack : List Value) : Context :=
  { context with
    stack := stack
    reserve := context.reserve + effect.reserved
    heap := effect.objects
    fresh := context.fresh + effect.allocated
    stashKnown := Nat.lt_add_right effect.allocated context.stashKnown
    globalKnown := Nat.lt_add_right effect.allocated context.globalKnown }

/-- A protected call gives a result, or fails with an error. -/
structure Outcome where
  failed : Bool
  value : Value
  effect : Effect

/-- These are the protected calls. -/
inductive Invocation where
  | method (object key : Value) (args : List Value)
  | function (function : Value) (args : List Value)
  | construct (constructor : Value) (args : List Value)

/-- A conversion to a string runs script, too, and may fail. -/
structure Conversion where
  failed : Bool
  text : String
  effect : Effect

/-- The scripts determine what each call from C++ does, and what a property of an error reads, which may be a getter. -/
structure Script where
  call : Invocation → Context → Outcome
  convert : Value → Context → Conversion
  read : Value → String → Context → Outcome

/-- The values at the top are replaced by the result or the error of the call. -/
def protectedCall (popped : Nat) (outcome : Context → Outcome) : Api Bool := do
  let context ← get
  if context.stack.length < popped then throw .type
  let called := outcome context
  set (called.effect.apply context (called.value :: context.stack.drop popped))
  return called.failed

/-- The arguments of a call are the values at the top, of which the last one is first. -/
def arguments (context : Context) (nargs : Nat) : List Value := (context.stack.take nargs).reverse

/-- The key and the arguments are replaced, and the object stays. The result tells whether the call failed, as it does
with an invalid index. -/
def pcallProp (script : Script) (index : Int) (nargs : Nat) : Api Bool :=
  protectedCall (nargs + 1) fun context =>
    let key := context.stack.getD nargs .undefined
    let called := script.call (.method (valueAt context index) key (arguments context nargs)) context
    { called with failed := called.failed || (normalizeIndex context index).isNone }

/-- The function and the arguments are replaced. -/
def pcall (script : Script) (nargs : Nat) : Api Bool :=
  protectedCall (nargs + 1) fun context =>
    script.call (.function (context.stack.getD nargs .undefined) (arguments context nargs)) context

/-- The constructor and the arguments are replaced. -/
def pnew (script : Script) (nargs : Nat) : Api Bool :=
  protectedCall (nargs + 1) fun context =>
    script.call (.construct (context.stack.getD nargs .undefined) (arguments context nargs)) context

/-- The value at the top becomes a string. -/
def convertTop (script : Script) : Api Conversion := do
  let context ← get
  match context.stack with
  | [] => throw .range
  | value :: rest =>
      let conversion := script.convert value context
      set (conversion.effect.apply context (.string conversion.text :: rest))
      return conversion

/-- A copy is converted. A conversion that fails gives the text of its error. -/
def safeToString (script : Script) : Api String := do
  requireSpace 1
  return (← convertTop script).text

def dup (index : Int) : Api Unit := do
  let position ← requireNormalizeIndex index
  push ((← get).stack.getD position .undefined)

def Value.isObject : Value → Bool
  | .object _ => true
  | _ => false

def isObject (index : Int) : Api Bool := do return (valueAt (← get) index).isObject

/-- A value that is no string reads none. -/
def getString (index : Int) : Api (Option String) := do
  match valueAt (← get) index with
  | .string value => return some value
  | _ => return none

def errorMessage (script : Script) (index : Int) : Api String := do
  dup index
  let text ← safeToString script
  pop
  return text

/-- This is `duk_get_prop_string` on the object that a script has thrown. No call protects the getter. -/
def readThrown (script : Script) (index : Int) (key : String) : Api Unit := do
  let _ ← requireNormalizeIndex index
  requireSpace 2
  let context ← get
  let got := script.read (valueAt context index) key context
  set (got.effect.apply context context.stack)
  if got.failed then throw .script
  push got.value

/-- The property `stack` counts only when it is a string. -/
def errorStack (script : Script) (index : Int) : Api String := do
  if ← isObject index then
    readThrown script index "stack"
    let text ← getString (-1)
    pop
    return text.getD ""
  else return ""

/-- This is `ThrowError`: the error leaves the stack and becomes an exception. -/
def throwScriptError (script : Script) (index : Int) : Api Unit := do
  let message ← errorMessage script index
  let _ ← errorStack script index
  remove index
  throw (.exception message)

end Dtel.Duktape
