import Dtel.Construction.Task.Pool
import Dtel.Library.Execution
import Dtel.Library.Threads

namespace Dtel.TaskPool

variable {Task : Type} {pool next : TaskPool Task} {number : Nat} {thread : PoolThread Task} {label : PoolLabel Task}

/-- This relation lists what a thread of the pool can do: it changes the pool and moves on to a point. -/
inductive Turn (pool : TaskPool Task) (number : Nat) (thread : PoolThread Task) :
    PoolLabel Task → TaskPool Task → PoolPoint Task → Prop where
  | popNone (point : thread.point = .pop) (queue : pool.queue = []) :
      Turn pool number thread (.thread number) pool .lock
  | popTask (task : Task) (rest : List Task) (point : thread.point = .pop) (queue : pool.queue = task :: rest) :
      Turn pool number thread (.thread number) { pool with queue := rest } (.running task)
  | stop (point : thread.point = .returned) (flag : thread.flag = true) :
      Turn pool number thread (.thread number) pool .ended
  | again (point : thread.point = .returned) (flag : thread.flag = false) :
      Turn pool number thread (.thread number) pool .pop
  | lock (point : thread.point = .lock) (free : pool.mutex = none) :
      Turn pool number thread (.thread number)
        { pool with mutex := some number, nWaiting := pool.nWaiting + 1 } .test
  | testNone (point : thread.point = .test) (queue : pool.queue = []) :
      Turn pool number thread (.thread number) pool .check
  | testTask (task : Task) (rest : List Task) (point : thread.point = .test) (queue : pool.queue = task :: rest) :
      Turn pool number thread (.thread number) { pool with queue := rest } (.leave (some task))
  | giveUp (point : thread.point = .check) (told : pool.isDone = true ∨ thread.flag = true) :
      Turn pool number thread (.thread number) pool (.leave none)
  | block (point : thread.point = .check) (done : pool.isDone = false) (flag : thread.flag = false) :
      Turn pool number thread (.thread number) { pool with mutex := none } .blocked
  | relock (point : thread.point = .woken) (free : pool.mutex = none) :
      Turn pool number thread (.thread number) { pool with mutex := some number } .test
  | resume (task : Task) (point : thread.point = .leave (some task)) :
      Turn pool number thread (.thread number)
        { pool with mutex := none, nWaiting := pool.nWaiting - 1 } (.running task)
  | exit (point : thread.point = .leave none) :
      Turn pool number thread (.thread number) { pool with mutex := none, nWaiting := pool.nWaiting - 1 } .ended
  | finish (task : Task) (point : thread.point = .running task) :
      Turn pool number thread (.finish number) pool .returned
  | spurious (point : thread.point = .blocked) : Turn pool number thread (.spurious number) pool .woken
  | push (present task : Task) (point : thread.point = .running present) :
      Turn pool number thread (.push (some number) task) { pool with queue := pool.queue ++ [task] } (.pushing present)

/-- This relation lists everything that one step can do to the pool. -/
inductive Step (pool : TaskPool Task) : PoolLabel Task → TaskPool Task → Prop where
  | turn (number : Nat) (thread : PoolThread Task) (label : PoolLabel Task) (shared : TaskPool Task)
      (point : PoolPoint Task) (there : pool.threads[number]? = some thread)
      (alive : pool.owner = .destroyed → thread.point.usesPool = false)
      (turn : Turn pool number thread label shared point) : Step pool label (shared.move number thread point)
  | push (task : Task) (alive : pool.owner ≠ .destroyed) :
      Step pool (.push none task)
        { pool with queue := pool.queue ++ [task], unnotified := pool.unnotified + 1 }
  | notifyInside (number : Nat) (thread : PoolThread Task) (present : Task) (woken : Option Nat)
      (next : TaskPool Task) (there : pool.threads[number]? = some thread) (point : thread.point = .pushing present)
      (free : pool.mutex = none) (alive : pool.owner ≠ .destroyed)
      (notified : (pool.move number thread (.running present)).notifyOne woken = some next) :
      Step pool (.notify (some number) woken) next
  | notify (woken : Option Nat) (next : TaskPool Task) (pushed : pool.unnotified ≠ 0) (free : pool.mutex = none)
      (alive : pool.owner ≠ .destroyed)
      (notified : { pool with unnotified := pool.unnotified - 1 }.notifyOne woken = some next) :
      Step pool (.notify none woken) next
  | grow (count : Nat) (idle : pool.owner = .idle) (done : pool.isDone = false) (more : pool.slots.length ≤ count) :
      Step pool (.setTaskThreadCount count) { pool with owner := .growing count }
  | shrink (count : Nat) (idle : pool.owner = .idle) (done : pool.isDone = false) (fewer : count < pool.slots.length) :
      Step pool (.setTaskThreadCount count) { pool with owner := .shrinking count pool.slots.length }
  | unsized (count : Nat) (idle : pool.owner = .idle) (done : pool.isDone = true) :
      Step pool (.setTaskThreadCount count) pool
  | destroy (idle : pool.owner = .idle) (done : pool.isDone = false) :
      Step pool .destroy { pool with isDone := true, owner := .stopNotify }
  | create (count : Nat) (point : pool.owner = .growing count) (more : pool.slots.length < count) :
      Step pool .owner { pool with
        threads := pool.threads ++ [⟨false, false, .pop⟩]
        slots := pool.slots ++ [pool.threads.length] }
  | grown (count : Nat) (point : pool.owner = .growing count) (all : count ≤ pool.slots.length) :
      Step pool .owner { pool with owner := .idle }
  | flag (count index number : Nat) (point : pool.owner = .shrinking count (index + 1)) (more : count ≤ index)
      (slot : pool.slots[index]? = some number) :
      Step pool .owner { pool with
        threads := pool.threads.modify number fun thread => { thread with flag := true, detached := true }
        owner := .shrinking count index }
  | flagged (count index : Nat) (point : pool.owner = .shrinking count index) (all : index ≤ count) :
      Step pool .owner { pool with owner := .shrinkNotify count }
  | shrunk (count : Nat) (point : pool.owner = .shrinkNotify count) (free : pool.mutex = none) :
      Step pool .owner { pool.notifyAll with slots := pool.slots.take count, owner := .idle }
  | stopNotify (point : pool.owner = .stopNotify) (free : pool.mutex = none) :
      Step pool .owner { pool.notifyAll with owner := .joining 0 }
  | join (index number : Nat) (thread : PoolThread Task) (point : pool.owner = .joining index)
      (slot : pool.slots[index]? = some number) (there : pool.threads[number]? = some thread)
      (ended : thread.point = .ended) : Step pool .owner { pool with owner := .joining (index + 1) }
  | joined (index : Nat) (point : pool.owner = .joining index) (all : pool.slots[index]? = none) :
      Step pool .owner { pool with owner := .clearing }
  | delete (task : Task) (rest : List Task) (point : pool.owner = .clearing) (queue : pool.queue = task :: rest) :
      Step pool .owner { pool with queue := rest }
  | cleared (point : pool.owner = .clearing) (queue : pool.queue = []) :
      Step pool .owner { pool with slots := [], owner := .destroyed }

theorem sleeps_iff {point : PoolPoint Task} : point.sleeps = true ↔ point = .blocked := by
  cases point <;> simp [PoolPoint.sleeps]

theorem hasEnded_iff {point : PoolPoint Task} : point.hasEnded = true ↔ point = .ended := by
  cases point <;> simp [PoolPoint.hasEnded]

/-- A notification wakes a thread that sleeps, or none sleeps. -/
theorem notifyOne_cases {woken : Option Nat} (notified : pool.notifyOne woken = some next) :
    (∃ number thread, pool.threads[number]? = some thread ∧ thread.point = .blocked ∧
      next = pool.move number thread .woken) ∨
      ((∀ thread ∈ pool.threads, thread.point ≠ .blocked) ∧ next = pool) := by
  unfold notifyOne at notified
  split at notified
  case h_1 number =>
      split at notified
      case h_1 thread there =>
          split at notified
          case isTrue sleeps =>
              exact Or.inl ⟨number, thread, there, sleeps_iff.mp sleeps, (Option.some.inj notified).symm⟩
          case isFalse => cases notified
      case h_2 => cases notified
  case h_2 =>
      split at notified
      case isTrue => cases notified
      case isFalse none =>
          refine Or.inr ⟨fun thread member point => none ?_, (Option.some.inj notified).symm⟩
          exact List.any_eq_true.mpr ⟨thread, member, sleeps_iff.mpr point⟩

theorem threadStep_cases (there : pool.threads[number]? = some thread)
    (alive : pool.owner = .destroyed → thread.point.usesPool = false)
    (taken : pool.threadStep number thread = some next) : Step pool (.thread number) next := by
  have step {shared : TaskPool Task} {point : PoolPoint Task}
      (turn : Turn pool number thread (.thread number) shared point) :
      Step pool (.thread number) (shared.move number thread point) :=
    .turn number thread _ shared point there alive turn
  unfold threadStep at taken
  split at taken
  case h_1 point =>
      split at taken
      case h_1 queue => cases taken; exact step (.popNone point queue)
      case h_2 task rest queue => cases taken; exact step (.popTask task rest point queue)
  case h_2 point =>
      cases taken
      cases flag : thread.flag with
      | true => exact step (.stop point flag)
      | false => exact step (.again point flag)
  case h_3 point =>
      obtain ⟨free, taken⟩ := Option.ite_none_right_eq_some.mp taken
      cases taken
      exact step (.lock point free)
  case h_4 point =>
      split at taken
      case h_1 queue => cases taken; exact step (.testNone point queue)
      case h_2 task rest queue => cases taken; exact step (.testTask task rest point queue)
  case h_5 point =>
      split at taken
      case isTrue told => cases taken; exact step (.giveUp point (Bool.or_eq_true_iff.mp told))
      case isFalse untold =>
          cases taken
          simp only [Bool.or_eq_true, not_or, Bool.not_eq_true] at untold
          exact step (.block point untold.1 untold.2)
  case h_6 point =>
      obtain ⟨free, taken⟩ := Option.ite_none_right_eq_some.mp taken
      cases taken
      exact step (.relock point free)
  case h_7 task point => cases taken; exact step (.resume task point)
  case h_8 point => cases taken; exact step (.exit point)
  all_goals cases taken

theorem push_cases {client : Option Nat} {task : Task} (taken : pool.push client task = some next) :
    Step pool (.push client task) next := by
  unfold push at taken
  split at taken
  case isTrue => cases taken
  case isFalse alive =>
      split at taken
      case h_1 => cases taken; exact .push task alive
      case h_2 number =>
          split at taken
          case h_2 => cases taken
          case h_1 thread there =>
              split at taken
              case h_2 => cases taken
              case h_1 present point =>
                  cases taken
                  exact .turn number thread _ _ _ there (absurd · alive) (.push present task point)

theorem notify_cases {client woken : Option Nat} (taken : pool.notify client woken = some next) :
    Step pool (.notify client woken) next := by
  unfold notify at taken
  split at taken
  case isFalse => cases taken
  case isTrue condition =>
      obtain ⟨free, alive⟩ := condition
      split at taken
      case h_1 =>
          obtain ⟨pushed, notified⟩ := Option.ite_none_left_eq_some.mp taken
          exact .notify woken next pushed free alive notified
      case h_2 number =>
          split at taken
          case h_2 => cases taken
          case h_1 thread there =>
              split at taken
              case h_2 => cases taken
              case h_1 present point => exact .notifyInside number thread present woken next there point free alive taken

theorem ownerStep_cases (taken : pool.ownerStep = some next) : Step pool .owner next := by
  unfold ownerStep at taken
  split at taken
  case h_1 | h_2 => cases taken
  case h_3 count point =>
      split at taken
      case isTrue more => cases taken; exact .create count point more
      case isFalse all => cases taken; exact .grown count point (Nat.le_of_not_lt all)
  case h_4 count index point =>
      split at taken
      case isTrue more =>
          obtain ⟨number, slot, rfl⟩ := Option.map_eq_some_iff.mp taken
          cases index with
          | zero => cases more
          | succ index => exact .flag count index number point (Nat.le_of_lt_succ more) slot
      case isFalse all => cases taken; exact .flagged count index point (Nat.le_of_not_lt all)
  case h_5 count point =>
      obtain ⟨free, taken⟩ := Option.ite_none_right_eq_some.mp taken
      cases taken
      exact .shrunk count point free
  case h_6 point =>
      obtain ⟨free, taken⟩ := Option.ite_none_right_eq_some.mp taken
      cases taken
      exact .stopNotify point free
  case h_7 index point =>
      split at taken
      case h_1 all => cases taken; exact .joined index point all
      case h_2 number slot =>
          split at taken
          case h_2 => cases taken
          case h_1 thread there =>
              split at taken
              case isFalse => cases taken
              case isTrue ended => cases taken; exact .join index number thread point slot there (hasEnded_iff.mp ended)
  case h_8 point =>
      split at taken
      case h_1 queue => cases taken; exact .cleared point queue
      case h_2 task rest queue => cases taken; exact .delete task rest point queue

/-- Each step of the pool is one of the listed ones. -/
theorem step_cases (taken : pool.step label = some next) : Step pool label next := by
  cases label with
  | thread number =>
      simp only [step] at taken
      split at taken
      case h_2 => cases taken
      case h_1 thread there =>
          obtain ⟨usable, taken⟩ := Option.ite_none_left_eq_some.mp taken
          refine threadStep_cases there (fun destroyed => ?_) taken
          simpa [destroyed] using usable
  | finish number =>
      simp only [step] at taken
      split at taken
      case h_2 => cases taken
      case h_1 thread there =>
          unfold functionStep at taken
          split at taken
          case h_1 task point =>
              cases taken
              exact .turn number thread _ _ _ there (fun _ => by rw [point]; rfl) (.finish task point)
          case h_2 => cases taken
  | spurious number =>
      simp only [step] at taken
      split at taken
      case h_2 => cases taken
      case h_1 thread there =>
          obtain ⟨⟨sleeps, alive⟩, taken⟩ := Option.ite_none_right_eq_some.mp taken
          cases taken
          exact .turn number thread _ _ _ there (absurd · alive) (.spurious (sleeps_iff.mp sleeps))
  | push client task => exact push_cases taken
  | notify client woken => exact notify_cases taken
  | setTaskThreadCount count =>
      obtain ⟨idle, taken⟩ := Option.ite_none_right_eq_some.mp taken
      cases taken
      unfold resize
      split
      case isTrue done => exact .unsized count idle done
      case isFalse undone =>
          have done := Bool.eq_false_iff.mpr undone
          split
          case isTrue more => exact .grow count idle done more
          case isFalse fewer => exact .shrink count idle done (Nat.lt_of_not_le fewer)
  | destroy =>
      obtain ⟨⟨idle, done⟩, taken⟩ := Option.ite_none_right_eq_some.mp taken
      cases taken
      exact .destroy idle done
  | owner => exact ownerStep_cases taken

end Dtel.TaskPool
