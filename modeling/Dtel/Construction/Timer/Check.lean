/-
This file models a call of `SetTimeoutHandler::checkTimeouts` as a whole.
-/
import Dtel.Construction.Loop.Machine

namespace Dtel

/-- A call of `checkTimeouts` posts an event to the loop, releases it, or returns. -/
inductive Report where
  | posted (posting : Posting)
  | released (posting : Posting)
  | returned
deriving DecidableEq

namespace World

variable {Other Runner Fn : Type}

/-- This is what `checkTimeouts` does with an event that it took. -/
def report (world : World Other Runner Fn) (posting : Posting) : Report :=
  if (world.timers.object posting.event).removed then .released posting else .posted posting

/-- The loop of `checkTimeouts`, with no step of another thread between its statements, reports what it does. -/
def checkLoop (now : Int) : Nat → World Other Runner Fn → List Report → World Other Runner Fn × List Report
  | 0, world, shown => (world, shown)
  | sanity + 1, world, shown =>
      match world.timers.takeFirst now with
      | some (posting, timers) =>
          let world := { world with timers := timers }
          checkLoop now sanity (world.dispose posting) (shown ++ [world.report posting])
      | none => checkLoop now sanity world shown

/-- `checkTimeouts` reads the clock once and returns the first deadline. -/
def checkTimeouts (world : World Other Runner Fn) : Option Int × World Other Runner Fn × List Report :=
  let (after, shown) := checkLoop world.clock maxExpirys world []
  (after.timers.nextDeadline, after, shown)

end World

end Dtel
