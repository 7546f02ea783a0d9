/-
This file models several calls of `RegisterSetTimeout` on one context: each one makes a handler of its own, and all
handlers share the array of references.
-/
import Dtel.Construction.Timer.Life

namespace Dtel

/-- Each registration has its own handler, and its event loop has the timers that left the handler's list. -/
structure Registration where
  timers : Timers
  hand : Option Posting
  queue : List Posting
  active : Option (Posting × Stage)

/-- A new handler has no timers. -/
def Registration.initial : Registration := ⟨.initial, none, [], none⟩

/-- All registrations on one context share the array `REFS`. The last one is the handler in the stash. -/
structure Registrations (Fn : Type) where
  clock : Int
  refs : Int → Option Fn
  registered : List Registration

/-- The host registers a handler, a script calls a function, or an event loop moves a timer. -/
inductive RegistrationLabel (Fn : Type) where
  | register
  | setTimeout (args : List (JsValue Fn)) (oneShot : Bool)
  | clearTimeout (id : Int)
  | loop (index : Nat) (act : Act Fn)

/-- Only scripts create and cancel timers. -/
def Act.moves {Fn : Type} : Act Fn → Bool
  | .create _ _ _ | .cancel _ => false
  | _ => true

namespace Registrations

variable {Fn : Type}

/-- One registration has the life of a single handler, in an array that others may change. -/
def life (all : Registrations Fn) (registration : Registration) : Life Fn :=
  ⟨all.clock, registration.timers, all.refs, registration.hand, registration.queue, registration.active⟩

/-- The registration takes one step of its life. -/
def act (all : Registrations Fn) (index : Nat) (act : Act Fn) : Option (Registrations Fn) :=
  all.registered[index]?.bind fun registration =>
    ((all.life registration).step act).map fun next =>
      ⟨next.clock, next.refs, all.registered.set index ⟨next.timers, next.hand, next.queue, next.active⟩⟩

def step (all : Registrations Fn) : RegistrationLabel Fn → Option (Registrations Fn)
  | .register => some { all with registered := all.registered ++ [.initial] }
  | .setTimeout args oneShot =>
      match setTimeoutArguments args with
      | .error _ => some all
      | .ok (function, delay) => all.act (all.registered.length - 1) (.create (some function) delay oneShot)
  | .clearTimeout id => all.act (all.registered.length - 1) (.cancel id)
  | .loop index act => if act.moves then all.act index act else none

end Registrations

end Dtel
