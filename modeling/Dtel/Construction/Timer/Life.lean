/-
This file models the timers of one handler without the other points of the event loop.
-/
import Dtel.Construction.Loop.World

namespace Dtel

/-- A timer that has left the queue passes through these stages. -/
inductive Stage where
  | starting
  | calling
  | called
  | settled
deriving DecidableEq

/-- The life of the timers abstracts from the loop: a timer is listed, in the hand of
`checkTimeouts`, queued, or active. -/
structure Life (Fn : Type) where
  clock : Int
  timers : Timers
  refs : Int → Option Fn
  hand : Option Posting
  queue : List Posting
  active : Option (Posting × Stage)

/-- One act changes the life of the timers. -/
inductive Act (Fn : Type) where
  | idle
  | elapse (elapsed : Nat)
  | create (function : Option Fn) (delay : Int) (oneShot : Bool)
  | cancel (id : Int)
  | take (now : Int)
  | dispose
  | start
  | invoke
  | complete
  | settle
  | release
  | abandon
  | clear

namespace Life

variable {Fn : Type}

/-- A script stores its function at the new id; another thread stores none. -/
def putFunction (refs : Int → Option Fn) (id : Int) : Option Fn → Int → Option Fn
  | some function => putRef refs id function
  | none => refs

def step (life : Life Fn) : Act Fn → Option (Life Fn)
  | .idle => some life
  | .elapse elapsed => some { life with clock := life.clock + elapsed }
  | .create function delay oneShot =>
      (life.timers.postNew life.clock delay oneShot).map fun (id, timers) =>
        { life with timers := timers, refs := putFunction life.refs id function }
  | .cancel id => some { life with timers := (life.timers.cancelEvent id).2 }
  | .take now =>
      match life.hand, life.active, life.timers.takeFirst now with
      | none, none, some (posting, timers) =>
          if now ≤ life.clock then some { life with timers := timers, hand := some posting } else none
      | _, _, _ => none
  | .dispose =>
      match life.hand with
      | some posting =>
          if (life.timers.object posting.event).removed then
            some { life with hand := none, refs := releaseRef life.refs (life.timers.object posting.event) }
          else some { life with hand := none, queue := life.queue ++ [posting] }
      | none => none
  | .start =>
      match life.hand, life.active, life.queue with
      | none, none, posting :: rest => some { life with queue := rest, active := some (posting, .starting) }
      | _, _, _ => none
  | .invoke =>
      match life.active with
      | some (posting, .starting) =>
          if (life.timers.object posting.event).removed = false ∧ 0 < (life.timers.object posting.event).id then
            match life.refs (life.timers.object posting.event).id with
            | some _ => some { life with active := some (posting, .calling) }
            | none => some { life with active := some (posting, .called) }
          else some { life with active := some (posting, .settled) }
      | _ => none
  | .complete =>
      match life.active with
      | some (posting, .calling) => some { life with active := some (posting, .called) }
      | _ => none
  | .settle =>
      match life.active with
      | some (posting, .called) =>
          (life.timers.settle life.clock posting.event).map fun timers =>
            { life with timers := timers, active := some (posting, .settled) }
      | _ => none
  | .release =>
      match life.active with
      | some (posting, .settled) =>
          some { life with active := none, refs := releaseRef life.refs (life.timers.object posting.event) }
      | _ => none
  | .abandon =>
      match life.active with
      | some (_, .settled) => some { life with active := none }
      | _ => none
  | .clear =>
      match life.hand, life.active with
      | none, none => some { life with queue := [] }
      | _, _ => none

end Life

end Dtel
