/-
This file models the functions of the Duktape API that the bindings call. They lose the prefix `duk_`.
-/
import Mathlib.Logic.Function.Basic

namespace Dtel.Duktape

/-- A JavaScript number is a double. -/
inductive Number where
  | finite (value : Rat)
  | negativeZero
  | infinity (negative : Bool)
  | nan
deriving DecidableEq

/-- The value stack holds these values. An object is the address of its properties in the heap. -/
inductive Value where
  | undefined
  | null
  | boolean (value : Bool)
  | number (value : Number)
  | string (value : String)
  | object (address : Nat)
deriving DecidableEq

/-- An object has own properties, and an array has items and a length, too. -/
structure Object where
  properties : String → Option Value
  items : Nat → Option Value
  length : Nat

def Object.empty : Object := ⟨fun _ => none, fun _ => none, 0⟩

/-- The value stack is a list that starts with the top, and the reserve is the number of values that it has space for.
The heap stash and the global object are in the heap. -/
structure Context where
  stack : List Value
  reserve : Nat
  heap : Nat → Object
  fresh : Nat
  stash : Nat
  global : Nat
  stashKnown : stash < fresh
  globalKnown : global < fresh

/-- Duktape throws the first three kinds, a script throws the fourth kind where no call is protected, and the bindings
throw exceptions of their own. -/
inductive Error where
  | type
  | range
  | alloc
  | script
  | exception (what : String)
deriving DecidableEq

/-- A call of the API changes the context, and returns or throws. -/
abbrev Api := EStateM Error Context

/-- An array with more items than this cannot be allocated. -/
def maxProperties : Nat := 1073741823

/-- A negative index counts from the top. The result is the position below the top. -/
def normalizeIndex (context : Context) (index : Int) : Option Nat :=
  let top := context.stack.length
  if index < 0 then
    if (-index).toNat ≤ top then some ((-index).toNat - 1) else none
  else if index.toNat < top then some (top - 1 - index.toNat) else none

def lookup (context : Context) (index : Int) : Option Value :=
  (normalizeIndex context index).bind fun position => context.stack[position]?

/-- An invalid index reads `undefined`. -/
def valueAt (context : Context) (index : Int) : Value := (lookup context index).getD .undefined

def requireNormalizeIndex (index : Int) : Api Nat := do
  match normalizeIndex (← get) index with
  | some position => return position
  | none => throw .range

/-- This is the check that each push makes. A call may have several values of its own on the stack while it runs. -/
def requireSpace (values : Nat) : Api Unit := do
  let context ← get
  if context.reserve < context.stack.length + values then throw .range

def push (value : Value) : Api Unit := do
  requireSpace 1
  modify fun context => { context with stack := value :: context.stack }

def pushUndefined : Api Unit := push .undefined
def pushInt (value : Int) : Api Unit := push (.number (.finite value))
def pushNumber (value : Number) : Api Unit := push (.number value)

/-- A C string ends at its first NUL. -/
def cString (string : String) : String := String.ofList (string.toList.takeWhile fun char => char ≠ Char.ofNat 0)

def pushString (string : String) : Api Unit := push (.string (cString string))

/-- The new object has the next address. -/
def pushObject : Api Unit := do
  requireSpace 1
  modify fun context =>
    { context with
      stack := .object context.fresh :: context.stack
      heap := Function.update context.heap context.fresh Object.empty
      fresh := context.fresh + 1
      stashKnown := Nat.lt_succ_of_lt context.stashKnown
      globalKnown := Nat.lt_succ_of_lt context.globalKnown }

/-- A new array has no items. -/
def pushArray : Api Unit := pushObject

/-- The stash is read from the heap object, with a key and the copy of the key between them. -/
def pushHeapStash : Api Unit := do
  requireSpace 4
  push (.object (← get).stash)

def pushGlobalObject : Api Unit := do push (.object (← get).global)

def pop : Api Unit := do
  match (← get).stack with
  | [] => throw .range
  | _ :: rest => modify fun context => { context with stack := rest }

def remove (index : Int) : Api Unit := do
  let position ← requireNormalizeIndex index
  modify fun context => { context with stack := context.stack.eraseIdx position }

/-- The top moves to the index, and the values from there on move up. -/
def insert (index : Int) : Api Unit := do
  let position ← requireNormalizeIndex index
  match (← get).stack with
  | [] => throw .range
  | top :: rest => modify fun context => { context with stack := rest.take position ++ top :: rest.drop position }

/-- An invalid index is not `undefined`. -/
def isUndefined (index : Int) : Api Bool := do return lookup (← get) index = some .undefined

/-- A number is truncated and clamped to an `int`, and any other value is zero. -/
def Value.toInt : Value → Int
  | .number (.finite value) => max (-2147483648) (min 2147483647 (value.num.tdiv value.den))
  | .number (.infinity true) => -2147483648
  | .number (.infinity false) => 2147483647
  | _ => 0

def getInt (index : Int) : Api Int := do return (valueAt (← get) index).toInt

/-- A primitive base other than `undefined` and `null` has none of the properties that the bindings read. -/
def readBase (context : Context) : Value → Except Error Object
  | .undefined | .null => .error .type
  | .object address => .ok (context.heap address)
  | _ => .ok Object.empty

/-- The key is pushed, and then the value or `undefined`. These need some space together. -/
def getProp (index : Int) (found missing : Nat) (read : Object → Option Value) : Api Unit := do
  let _ ← requireNormalizeIndex index
  requireSpace 1
  match readBase (← get) (valueAt (← get) index) with
  | .ok object =>
      match read object with
      | some value => do
          requireSpace found
          push value
      | none => do
          requireSpace missing
          pushUndefined
  | .error error => throw error

/-- The key is copied, and the value is pushed above the copy. -/
def getPropString (index : Int) (key : String) : Api Unit :=
  getProp index 3 2 fun object => object.properties (cString key)

/-- An item that is there is read without a copy of the key. Any other key becomes a string. -/
def getPropIndex (index : Int) (item : Nat) : Api Unit := getProp index 2 3 fun object => object.items item

def hasPropString (index : Int) (key : String) : Api Bool := do
  let _ ← requireNormalizeIndex index
  requireSpace 1
  match valueAt (← get) index with
  | .object address => do
      requireSpace 2
      return ((← get).heap address).properties (cString key) |>.isSome
  | _ => throw .type

/-- The value at the top is popped and stored in the object at the index. The key is pushed and may be copied. A base
that is no object throws. -/
def putProp (index : Int) (space : Object → Nat) (write : Value → Object → Object) : Api Unit := do
  let _ ← requireNormalizeIndex index
  requireSpace 1
  match valueAt (← get) index, (← get).stack with
  | .object address, value :: rest => do
      requireSpace (space ((← get).heap address))
      modify fun context =>
        { context with
          stack := rest
          heap := Function.update context.heap address (write value (context.heap address)) }
  | _, _ => throw .type

def Object.setProperty (key : String) (value : Value) (object : Object) : Object :=
  { object with properties := Function.update object.properties key (some value) }

def Object.setItem (item : Nat) (value : Value) (object : Object) : Object :=
  { object with
    items := Function.update object.items item (some value)
    length := max object.length (item + 1) }

def putPropString (index : Int) (key : String) : Api Unit := putProp index (fun _ => 2) (Object.setProperty (cString key))

/-- An item that is there is written in place. For a new one, the copy of the key becomes a string. -/
def Object.itemSpace (item : Nat) (object : Object) : Nat := if (object.items item).isSome then 1 else 3

def putPropIndex (index : Int) (item : Nat) : Api Unit := do
  if maxProperties ≤ item then throw .alloc
  putProp index (Object.itemSpace item) (Object.setItem item)

def getLength (index : Int) : Api Nat := do
  match valueAt (← get) index with
  | .object address => return ((← get).heap address).length
  | .string value => return value.length
  | _ => return 0

end Dtel.Duktape
