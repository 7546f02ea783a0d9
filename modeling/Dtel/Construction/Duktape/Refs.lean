/-
This file models the reference table that `duv_ref_setup` creates in the heap stash.
-/
import Dtel.Construction.Duktape.Context

namespace Dtel.Duktape

def propDtelRefs : String := "\xffDTEL_REFS"

/-- The setup creates an array with the item zero at index zero, unless there is one. -/
def duvRefSetup : Api Unit := do
  pushHeapStash
  if ← hasPropString (-1) propDtelRefs then
    pop
  else
    pushArray
    pushInt 0
    putPropIndex (-2) 0
    putPropString (-2) propDtelRefs
    pop

/-- The array replaces the heap stash at the top. -/
def pushRefs : Api Unit := do
  pushHeapStash
  getPropString (-1) propDtelRefs
  remove (-2)

/-- The value at the top is stored in a free slot, or in a new one. -/
def duvRef : Api Nat := do
  if ← isUndefined (-1) then
    pop
    return 0
  else
    pushRefs
    getPropIndex (-1) 0
    let first ← getInt (-1)
    pop
    let ref ←
      if first ≠ 0 then do
        -- refs[0] = refs[ref]
        getPropIndex (-1) first.toNat
        putPropIndex (-2) 0
        pure first.toNat
      else getLength (-1)
    insert (-2)
    putPropIndex (-2) ref
    pop
    return ref

def duvPushRef (ref : Nat) : Api Unit := do
  if ref = 0 then
    pushUndefined
  else
    pushRefs
    getPropIndex (-1) ref
    remove (-2)

/-- The slot becomes the first free one. -/
def duvUnref (ref : Nat) : Api Unit := do
  if ref = 0 then
    return
  else
    pushRefs
    getPropIndex (-1) 0
    putPropIndex (-2) ref
    pushInt ref
    putPropIndex (-2) 0
    pop

/-- A `Ref` holds the number of its slot. -/
structure Ref where
  refid : Nat
deriving DecidableEq

namespace Ref

def construct : Api Ref := do return ⟨← duvRef⟩

def destroy (ref : Ref) : Api Unit := duvUnref ref.refid

def push (ref : Ref) : Api Nat := do
  duvPushRef ref.refid
  return 1

end Ref

/-- The live references are listed with the values that they were constructed from.
The peak is the largest number of references to defined values that were alive together. -/
structure RefTable where
  context : Context
  live : List (Ref × Value)
  peak : Nat

inductive RefLabel where
  | script (stack : List Value) (reserve : Nat) (objects : Nat → Object) (allocated : Nat)
  | setup
  | construct
  | push (position : Nat)
  | destroy (position : Nat)

namespace RefTable

/-- A script changes the stack and the objects, but neither the heap stash nor the array of references. Each call of a
native function has a stack of its own, with a reserve. -/
def script (context : Context) (stack : List Value) (reserve : Nat) (objects : Nat → Object) (allocated : Nat) :
    Context :=
  { context with
    stack := stack
    reserve := reserve
    heap := fun address =>
      if address = context.stash ∨ (context.heap context.stash).properties propDtelRefs = some (.object address) then
        context.heap address
      else objects address
    fresh := context.fresh + allocated
    stashKnown := Nat.lt_add_right allocated context.stashKnown
    globalKnown := Nat.lt_add_right allocated context.globalKnown }

def defined (live : List (Ref × Value)) : List (Ref × Value) := live.filter fun entry => entry.2 ≠ .undefined

/-- The next context of a call that returns. -/
def returned {A : Type} : EStateM.Result Error Context A → Option (A × Context)
  | .ok result after => some (result, after)
  | .error _ _ => none

def step (table : RefTable) : RefLabel → Option RefTable
  | .script stack reserve objects allocated =>
      some { table with context := script table.context stack reserve objects allocated }
  | .setup => (returned (duvRefSetup table.context)).map fun (_, after) => { table with context := after }
  | .construct =>
      match table.context.stack with
      | [] => none
      | value :: _ => (returned (Ref.construct table.context)).map fun (ref, after) =>
          let live := (ref, value) :: table.live
          ⟨after, live, max table.peak (defined live).length⟩
  | .push position => table.live[position]?.bind fun entry =>
      (returned (entry.1.push table.context)).map fun (_, after) => { table with context := after }
  | .destroy position => table.live[position]?.bind fun entry =>
      (returned (entry.1.destroy table.context)).map fun (_, after) =>
        { table with context := after, live := table.live.eraseIdx position }

end RefTable

end Dtel.Duktape
