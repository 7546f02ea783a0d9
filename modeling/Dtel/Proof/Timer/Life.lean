import Dtel.Construction.Timer.Life
import Dtel.Library.Execution
import Dtel.Proof.Timer.Handler

namespace Dtel

namespace Life

variable {Fn : Type}

/-- This relation lists everything that one act can do to the life of the timers. -/
inductive Step : Life Fn → Act Fn → Life Fn → Prop where
  | idle (life : Life Fn) : Step life .idle life
  | elapse (life : Life Fn) (elapsed : Nat) :
      Step life (.elapse elapsed) { life with clock := life.clock + elapsed }
  | create (life : Life Fn) (function : Option Fn) (delay : Int) (oneShot : Bool)
      (room : life.timers.lastId < intMax) :
      Step life (.create function delay oneShot) { life with
        timers := ({ life.timers with
          object := Function.update life.timers.object life.timers.fresh
            ⟨delay, oneShot, life.timers.lastId + 1, false⟩
          fresh := life.timers.fresh + 1
          lastId := life.timers.lastId + 1 } : Timers).insert life.clock life.timers.fresh
        refs := putFunction life.refs (life.timers.lastId + 1) function }
  | miss (life : Life Fn) (id : Int)
      (absent : ∀ posting ∈ life.timers.events, (life.timers.object posting.event).id ≠ id) :
      Step life (.cancel id) life
  | cancel (life : Life Fn) (posting : Posting) (member : posting ∈ life.timers.events) :
      Step life (.cancel (life.timers.object posting.event).id)
        { life with timers := life.timers.setRemoved posting.event }
  | take (life : Life Fn) (now : Int) (posting : Posting) (rest : List Posting)
      (list : life.timers.events = posting :: rest) (noHand : life.hand = none) (noActive : life.active = none)
      (past : now ≤ life.clock)
      (due : (life.timers.object posting.event).removed = true ∨ posting.deadline < now) :
      Step life (.take now)
        { life with timers := { life.timers with events := rest }, hand := some posting }
  | discard (life : Life Fn) (posting : Posting) (hand : life.hand = some posting)
      (removed : (life.timers.object posting.event).removed = true) :
      Step life .dispose
        { life with hand := none, refs := Function.update life.refs (life.timers.object posting.event).id none }
  | enqueue (life : Life Fn) (posting : Posting) (hand : life.hand = some posting)
      (live : (life.timers.object posting.event).removed = false) :
      Step life .dispose { life with hand := none, queue := life.queue ++ [posting] }
  | start (life : Life Fn) (posting : Posting) (rest : List Posting) (noHand : life.hand = none)
      (noActive : life.active = none) (queue : life.queue = posting :: rest) :
      Step life .start { life with queue := rest, active := some (posting, .starting) }
  | skip (life : Life Fn) (posting : Posting) (active : life.active = some (posting, .starting))
      (dead : (life.timers.object posting.event).removed = true ∨ (life.timers.object posting.event).id ≤ 0) :
      Step life .invoke { life with active := some (posting, .settled) }
  | call (life : Life Fn) (posting : Posting) (function : Fn) (active : life.active = some (posting, .starting))
      (live : (life.timers.object posting.event).removed = false)
      (positive : 0 < (life.timers.object posting.event).id)
      (stored : life.refs (life.timers.object posting.event).id = some function) :
      Step life .invoke { life with active := some (posting, .calling) }
  | callMissing (life : Life Fn) (posting : Posting) (active : life.active = some (posting, .starting))
      (live : (life.timers.object posting.event).removed = false)
      (positive : 0 < (life.timers.object posting.event).id)
      (missing : life.refs (life.timers.object posting.event).id = none) :
      Step life .invoke { life with active := some (posting, .called) }
  | complete (life : Life Fn) (posting : Posting) (active : life.active = some (posting, .calling)) :
      Step life .complete { life with active := some (posting, .called) }
  | settle (life : Life Fn) (posting : Posting) (timers : Timers) (active : life.active = some (posting, .called))
      (settled : life.timers.settle life.clock posting.event = some timers) :
      Step life .settle { life with timers := timers, active := some (posting, .settled) }
  | release (life : Life Fn) (posting : Posting) (active : life.active = some (posting, .settled)) :
      Step life .release
        { life with active := none, refs := releaseRef life.refs (life.timers.object posting.event) }
  | abandon (life : Life Fn) (posting : Posting) (active : life.active = some (posting, .settled)) :
      Step life .abandon { life with active := none }
  | clear (life : Life Fn) (noHand : life.hand = none) (noActive : life.active = none) :
      Step life .clear { life with queue := [] }

/-- A new timer is in the list, and the table holds what the functions say. -/
abbrev withNew (life : Life Fn) (refs : Int → Option Fn) (delay : Int) (oneShot : Bool) : Life Fn :=
  { life with
    timers := ({ life.timers with
      object := Function.update life.timers.object life.timers.fresh ⟨delay, oneShot, life.timers.lastId + 1, false⟩
      fresh := life.timers.fresh + 1
      lastId := life.timers.lastId + 1 } : Timers).insert life.clock life.timers.fresh
    refs := refs }

/-- The executable step takes only listed steps. -/
theorem step_cases {life next : Life Fn} {act : Act Fn} (taken : life.step act = some next) :
    Step life act next := by
  cases act with
  | idle =>
      cases taken
      exact .idle life
  | elapse elapsed =>
      cases taken
      exact .elapse life elapsed
  | create function delay oneShot =>
      obtain ⟨⟨id, timers⟩, posted, rfl⟩ := Option.map_eq_some_iff.mp taken
      obtain ⟨room, rfl, rfl⟩ := Timers.postNew_some posted
      exact .create life function delay oneShot room
  | cancel id =>
      cases taken
      rcases Timers.cancelEvent_cases life.timers id with ⟨same, absent⟩ | ⟨posting, member, rfl, marked⟩
      · rw [same]
        exact .miss life id absent
      · rw [marked]
        exact .cancel life posting member
  | take now =>
      simp only [step] at taken
      split at taken
      case h_1 posting timers noHand noActive first =>
          simp only [Option.ite_none_right_eq_some, Option.some.injEq] at taken
          obtain ⟨past, rfl⟩ := taken
          obtain ⟨list, same, due⟩ := Timers.takeFirst_some first
          rw [same]
          exact .take life now posting timers.events list noHand noActive past due
      case h_2 => cases taken
  | dispose =>
      simp only [step] at taken
      split at taken
      case h_1 posting hand =>
          split at taken
          case isTrue removed =>
              cases taken
              rw [releaseRef, if_pos removed]
              exact .discard life posting hand removed
          case isFalse live =>
              cases taken
              exact .enqueue life posting hand (by simpa using live)
      case h_2 => cases taken
  | start =>
      simp only [step] at taken
      split at taken
      case h_1 posting rest noHand noActive queue =>
          cases taken
          exact .start life posting rest noHand noActive queue
      case h_2 => cases taken
  | invoke =>
      simp only [step] at taken
      split at taken
      case h_1 posting active =>
          split at taken
          case isTrue ready =>
              split at taken
              case h_1 function stored =>
                  cases taken
                  exact .call life posting function active ready.1 ready.2 stored
              case h_2 missing =>
                  cases taken
                  exact .callMissing life posting active ready.1 ready.2 missing
          case isFalse blocked =>
              cases taken
              refine .skip life posting active ?_
              by_cases removed : (life.timers.object posting.event).removed = true
              · exact Or.inl removed
              · exact Or.inr (not_lt.mp fun positive => blocked ⟨by simpa using removed, positive⟩)
      case h_2 => cases taken
  | complete =>
      simp only [step] at taken
      split at taken
      case h_1 posting active =>
          cases taken
          exact .complete life posting active
      case h_2 => cases taken
  | settle =>
      simp only [step] at taken
      split at taken
      case h_1 posting active =>
          obtain ⟨timers, settled, rfl⟩ := Option.map_eq_some_iff.mp taken
          exact .settle life posting timers active settled
      case h_2 => cases taken
  | release =>
      simp only [step] at taken
      split at taken
      case h_1 posting active =>
          cases taken
          exact .release life posting active
      case h_2 => cases taken
  | abandon =>
      simp only [step] at taken
      split at taken
      case h_1 posting active =>
          cases taken
          exact .abandon life posting active
      case h_2 => cases taken
  | clear =>
      simp only [step] at taken
      split at taken
      case h_1 noHand noActive =>
          cases taken
          exact .clear life noHand noActive
      case h_2 => cases taken

end Life

end Dtel
