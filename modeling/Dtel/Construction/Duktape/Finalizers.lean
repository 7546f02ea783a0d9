/-
This file models the destruction of references to objects with finalizers.
-/
import Dtel.Construction.Duktape.Refs

namespace Dtel.Duktape

/-- The first part of `duv_unref` ends with the store that takes the value out of the array. -/
def duvUnrefStore (ref : Nat) : Api Unit := do
  pushRefs
  getPropIndex (-1) 0
  putPropIndex (-2) ref

/-- The second part makes the slot the first free one. -/
def duvUnrefLink (ref : Nat) : Api Unit := do
  pushInt ref
  putPropIndex (-2) 0
  pop

/-- References are used by the steps of the table, and by destructions that run a finalizer. It uses them in turn. -/
inductive RefUse where
  | plain (label : RefLabel)
  | destroy (position : Nat) (finalizer : List RefUse)

namespace RefTable

/-- A native function has space for this many values besides its arguments. -/
def entryReserve : Nat := 96

/-- The finalizer starts inside the store, in a frame that has only its object. -/
def finalizing (table : RefTable) (position : Nat) (value : Value) (stored : Context) : RefTable :=
  { table with
    context := { stored with stack := [value], reserve := entryReserve + 1 }
    live := table.live.eraseIdx position }

/-- The frame of `duv_unref` is there again when the finalizer has returned. -/
def finalized (ended : RefTable) (ref : Nat) (frame : Context) : Option RefTable :=
  (returned (duvUnrefLink ref { ended.context with stack := frame.stack, reserve := frame.reserve })).map
    fun (_, after) => { ended with context := after }

mutual

/-- A reference to `undefined` has no slot, and so no finalizer runs. -/
def use (table : RefTable) : RefUse → Option RefTable
  | .plain label => table.step label
  | .destroy position finalizer => table.live[position]?.bind fun entry =>
      if entry.1.refid = 0 then some { table with live := table.live.eraseIdx position }
      else (returned (duvUnrefStore entry.1.refid table.context)).bind fun (_, stored) =>
        (useAll (table.finalizing position entry.2 stored) finalizer).bind fun ended =>
          ended.finalized entry.1.refid stored

def useAll (table : RefTable) : List RefUse → Option RefTable
  | [] => some table
  | first :: rest => (table.use first).bind fun next => next.useAll rest

end

end RefTable

end Dtel.Duktape
