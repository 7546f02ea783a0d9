/-
This file models the process around `EventLoop::run`. An error that no call protects aborts it.
-/
import Dtel.Construction.Loop.Machine

namespace Dtel

/-- The function of a timer returns, or it throws. An object is unreadable when a getter for its property `stack` throws
in turn: `ErrorStack` reads the property, and no call protects the getter. -/
inductive CallOutcome where
  | returned
  | threw (unreadable : Bool)
deriving DecidableEq

/-- `duk_pcall` catches what the function throws. -/
def CallOutcome.success : CallOutcome → Bool
  | .returned => true
  | .threw _ => false

def CallOutcome.unreadable : CallOutcome → Bool
  | .returned => false
  | .threw unreadable => unreadable

inductive ProcessLabel (Other Runner Fn : Type) where
  /-- The loop takes a step that no other label describes. -/
  | loop (label : Label Other Runner Fn)
  /-- The function of a timer has this outcome. -/
  | pcall (outcome : CallOutcome)
  /-- An error without a protected call reaches the fatal handler. -/
  | fatal

/-- This is the step of the loop. -/
def ProcessLabel.label {Other Runner Fn : Type} : ProcessLabel Other Runner Fn → Option (Label Other Runner Fn)
  | .loop label => some label
  | .pcall outcome => some (.pcall outcome.success)
  | .fatal => none

/-- The process takes these steps of the loop. -/
def ProcessLabel.loops {Other Runner Fn : Type} (labels : List (Label Other Runner Fn)) :
    List (ProcessLabel Other Runner Fn) := labels.map .loop

/-- The process remembers whether the last function has thrown an unreadable object. -/
structure Process (Other Runner Fn : Type) where
  machine : Machine Other Runner Fn
  unreadable : Bool
  aborted : Bool

namespace Process

variable {Other Runner Fn : Type}

def initial (runners : List (Runner × Int)) : Process Other Runner Fn := ⟨.initial runners, false, false⟩

/-- `ThrowError` gets no further than an unreadable object, and the fatal handler aborts the process. -/
def step (process : Process Other Runner Fn) (label : ProcessLabel Other Runner Fn) :
    Option (Process Other Runner Fn) :=
  if process.aborted then none
  else match label with
    | .loop (.pcall _) => none
    | .loop (.ended exception) =>
        if process.unreadable then none
        else (process.machine.step (.ended exception)).map fun machine => { process with machine := machine }
    | .loop label => (process.machine.step label).map fun machine => { process with machine := machine }
    | .pcall outcome =>
        (process.machine.step (.pcall outcome.success)).map fun machine =>
          { process with machine := machine, unreadable := outcome.unreadable }
    | .fatal =>
        match process.machine.pc with
        | .throwing .. => if process.unreadable then some { process with aborted := true } else none
        | _ => none

end Process

end Dtel
