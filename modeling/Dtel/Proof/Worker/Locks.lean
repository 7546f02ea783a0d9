import Dtel.Construction.Worker.Locks
import Dtel.Library.Execution
import Dtel.Library.Mutex

namespace Dtel

/-- A thread passes from one point to the next by an action. -/
inductive Passes (party : Party) : Point → Action → Point → Prop where
  | enter : Passes party .entered .next .test
  | stop : Passes party .test .next .clearLock
  | loop : Passes party .test .next .runnersLock
  | runners : Passes party .runnersLock .next (.code .looped)
  | looped : Passes party (.code .looped) .next .popLock
  | handled : Passes party (.code .handler) .next .popLock
  | pop (event : Bool) : Passes party .popLock .next (.popUnlock event)
  | handle : Passes party (.popUnlock true) .next (.code .handler)
  | sleep : Passes party (.popUnlock false) .next .waiting
  | wake : Passes party .waiting .next .test
  | clear : Passes party .clearLock .next .clearUnlock
  | leave (parent : party = .parent) : Passes party .clearUnlock .next (.code .host)
  | finish (worker : party = .worker) : Passes party .clearUnlock .next .ended
  | run : Passes party (.code .host) .run .entered
  | post (place : Place) : Passes party (.code place) .post (.postLock place)
  | posting (place : Place) : Passes party (.postLock place) .next (.postUnlock place)
  | posted (place : Place) : Passes party (.postUnlock place) .next (.code place)
  | send (place : Place) (sender : party = .worker → place = .handler) :
      Passes party (.code place) .send (.sendLock place)
  | sending (place : Place) : Passes party (.sendLock place) .next (.sendLoopLock place)
  | sendingLoop (place : Place) : Passes party (.sendLoopLock place) .next (.sendLoopUnlock place)
  | sentLoop (place : Place) : Passes party (.sendLoopUnlock place) .next (.sendUnlock place)
  | sent (place : Place) : Passes party (.sendUnlock place) .next (.code place)
  | destroy (place : Place) (parent : party = .parent) : Passes party (.code place) .destroy (.destroyLock place)
  | destroying (place : Place) : Passes party (.destroyLock place) .next (.destroyTerminate place)
  | terminated (place : Place) : Passes party (.destroyTerminate place) .next (.destroyJoin place)
  | joined (place : Place) : Passes party (.destroyJoin place) .next (.destroyDelete place)
  | deleted (place : Place) : Passes party (.destroyDelete place) .next (.destroyUnlock place)
  | destroyed (place : Place) : Passes party (.destroyUnlock place) .next (.code place)

/-- A thread gains only the lock that it wanted. -/
theorem Passes.held {party : Party} {point after : Point} {action : Action} {lock : Lock}
    (passes : Passes party point action after) (holds : lock ∈ after.held party) :
    lock ∈ point.held party ∨ point.wants party = some lock := by
  cases passes with
  | runners | pop | clear | posting | sending | sendingLoop | destroying =>
      rcases List.mem_cons.mp holds with rfl | kept
      · exact .inr rfl
      · exact .inl kept
  | posted | sentLoop | sent | destroyed => exact .inl (List.mem_cons_of_mem _ holds)
  | post | send | destroy | terminated | joined | deleted => exact .inl holds
  | _ => cases holds

namespace Pair

variable {pair after : Pair} {party : Party} {action : Action} {label : PairLabel} {labels : List PairLabel}

/-- Each action of a thread moves only its own point. -/
theorem act_cases (taken : pair.act party action = some after) :
    ∃ point, Passes party (pair.point party) action point ∧
      after.point = Function.update pair.point party point := by
  unfold act at taken
  split at taken
  case h_1 =>
      unfold next at taken
      split at taken
      case h_2 point =>
          rw [point]
          cases taken
          cases pair.terminated party with
          | true => exact ⟨_, .stop, rfl⟩
          | false => exact ⟨_, .loop, rfl⟩
      case h_12 point =>
          rw [point]
          cases party with
          | parent => cases taken; exact ⟨_, .leave rfl, rfl⟩
          | worker => cases taken; exact ⟨_, .finish rfl, rfl⟩
      case h_22 place point =>
          rw [point]
          simp only [Option.ite_none_right_eq_some, Option.some.injEq] at taken
          obtain ⟨-, rfl⟩ := taken
          exact ⟨_, .joined place, rfl⟩
      case h_6 | h_13 => cases taken
      all_goals
        rename_i point
        rw [point]
        cases taken
        exact ⟨_, by constructor, rfl⟩
  case h_2 point => rw [point]; cases taken; exact ⟨_, .run, rfl⟩
  case h_3 place point => rw [point]; cases taken; exact ⟨_, .post place, rfl⟩
  case h_4 place point =>
      rw [point]
      simp only [Option.ite_none_right_eq_some, Option.some.injEq] at taken
      obtain ⟨sender, rfl⟩ := taken
      refine ⟨_, .send place ?_, rfl⟩
      rintro rfl
      cases place with
      | handler => rfl
      | host | looped => cases sender
  case h_5 place point =>
      rw [point]
      simp only [Option.ite_none_right_eq_some, Option.some.injEq] at taken
      obtain ⟨destroyer, rfl⟩ := taken
      refine ⟨_, .destroy place ?_, rfl⟩
      cases party with
      | parent => rfl
      | worker => cases destroyer
  case h_6 => cases taken

/-- A thread takes only locks that the other thread does not hold. -/
theorem not_blocked {lock : Lock} (free : pair.blocked party = false) (wanted : pair.wants party = some lock) :
    lock ∉ pair.held party.other := by
  simpa [blocked, wanted] using free

/-- Each step moves one thread that is not blocked, or only sets a flag. -/
theorem step_cases (taken : pair.step label = some after) :
    (label = .terminate ∧ after.point = pair.point) ∨
    ∃ party action point, label = .thread party action ∧ pair.blocked party = false ∧
      Passes party (pair.point party) action point ∧
      after.point = Function.update pair.point party point := by
  cases label with
  | terminate =>
      cases taken
      exact .inl ⟨rfl, rfl⟩
  | thread party action =>
      simp only [step, Option.ite_none_left_eq_some, Bool.not_eq_true] at taken
      obtain ⟨free, acted⟩ := taken
      obtain ⟨point, passes, same⟩ := act_cases acted
      exact .inr ⟨party, action, point, rfl, free, passes, same⟩

theorem other_of_ne {first second : Party} (different : second ≠ first) : first.other = second := by
  cases first <;> cases second <;> simp_all [Party.other]

/-- No mutex is held by both threads. -/
theorem exclusive_step (exclusive : Mutex.Exclusive pair.held) (taken : pair.step label = some after) :
    Mutex.Exclusive after.held := by
  rcases step_cases taken with ⟨-, still⟩ | ⟨party, action, point, -, free, passes, moved⟩
  · have same : after.held = pair.held := by
      funext party
      simp only [held, still]
    rwa [same]
  · have mine : after.held party = point.held party := by simp [held, moved]
    have others (other : Party) (different : other ≠ party) : after.held other = pair.held other := by
      simp [held, moved, different]
    have gained (lock : Lock) (holds : lock ∈ after.held party) :
        lock ∈ pair.held party ∨ ∀ other, other ≠ party → lock ∉ pair.held other := by
      rw [mine] at holds
      rcases passes.held holds with kept | wanted
      · exact .inl kept
      · right
        intro other different
        rw [← other_of_ne different]
        exact not_blocked free wanted
    exact exclusive.move others gained

/-- The parent is in the call of `join`, and the worker thread runs. -/
def Joins (pair : Pair) : Prop :=
  (∃ place, pair.point .parent = .destroyJoin place) ∧ pair.point .worker ≠ .ended

/-- The parent waits for a lock or in `join`, and the worker waits for a lock that the parent holds. -/
def Deadlock (pair : Pair) : Prop :=
  Mutex.Awaits pair.held pair.wants .worker .parent ∧
    (Mutex.Awaits pair.held pair.wants .parent .worker ∨ pair.Joins)

/-- A thread that awaits another one is blocked. -/
theorem blocked_of_awaits (awaits : Mutex.Awaits pair.held pair.wants party party.other) :
    pair.blocked party = true := by
  obtain ⟨lock, wanted, holds⟩ := awaits
  simpa [blocked, wanted] using holds

/-- In a deadlock neither thread has a step. -/
theorem Deadlock.stuck (deadlock : pair.Deadlock) : pair.step (.thread party action) = none := by
  obtain ⟨worker, parent⟩ := deadlock
  cases party with
  | worker => simp [step, blocked_of_awaits worker]
  | parent =>
      rcases parent with awaits | ⟨⟨place, point⟩, runs⟩
      · simp [step, blocked_of_awaits awaits]
      · cases action <;> simp [step, act, next, point, runs]

/-- A deadlock is never left. -/
theorem Deadlock.step (deadlock : pair.Deadlock) (taken : pair.step label = some after) : after.Deadlock := by
  cases label with
  | thread party action => simp [deadlock.stuck] at taken
  | terminate =>
      cases taken
      exact deadlock

/-- No run leads out of a deadlock. -/
theorem Deadlock.run (deadlock : pair.Deadlock) (run : Execution.exec Pair.step pair labels = some after) :
    after.Deadlock :=
  Execution.exec_invariant (fun _ _ _ holds taken => Deadlock.step holds taken) deadlock run

end Pair

/-- The destructor holds `_lock` and has not joined the thread. -/
def Point.joining : Point → Bool
  | .destroyTerminate _ | .destroyJoin _ => true
  | _ => false

/-- A message is about to be sent, and `_lock` has not been taken. -/
def Point.sendLocks : Point → Bool
  | .sendLock _ => true
  | _ => false

/-- A message is about to be posted on the loop of the other thread. -/
def Point.sendLoopLocks : Point → Bool
  | .sendLoopLock _ => true
  | _ => false

/-- The destructor has not taken `_lock`. -/
def Point.destroyLocks : Point → Bool
  | .destroyLock _ => true
  | _ => false

/-- Looped code is about to take `_lock`. -/
def Point.loopedLocks : Point → Bool
  | .sendLock .looped | .destroyLock .looped => true
  | _ => false

/-- The worker thread is never outside its loop, and it sends only when it handles an event. -/
def Point.inWorker : Point → Bool
  | .code place | .postLock place | .postUnlock place => place != .host
  | .sendLock place | .sendLoopLock place | .sendLoopUnlock place | .sendUnlock place => place == .handler
  | .destroyLock _ | .destroyTerminate _ | .destroyJoin _ | .destroyDelete _ | .destroyUnlock _ => false
  | _ => true

namespace Passes

variable {party : Party} {point after : Point} {action : Action}

theorem joining (passes : Passes party point action after) (joining : after.joining = true) :
    point.joining = true ∨ point.destroyLocks = true ∧ action = .next := by
  cases passes with
  | destroying => exact .inr ⟨rfl, rfl⟩
  | terminated => exact .inl rfl
  | _ => cases joining

theorem sendLocks (passes : Passes party point action after) (locks : after.sendLocks = true) : action = .send := by
  cases passes with
  | send => rfl
  | _ => cases locks

theorem sendLoopLocks (passes : Passes party point action after) (locks : after.sendLoopLocks = true) :
    point.sendLocks = true ∧ action = .next := by
  cases passes with
  | sending => exact ⟨rfl, rfl⟩
  | _ => cases locks

theorem loopedLocks (passes : Passes party point action after) (locks : after.loopedLocks = true) :
    point = .code .looped ∧ (action = .send ∨ action = .destroy) := by
  cases passes with
  | send place =>
      cases place with
      | looped => exact ⟨rfl, .inl rfl⟩
      | host | handler => cases locks
  | destroy place =>
      cases place with
      | looped => exact ⟨rfl, .inr rfl⟩
      | host | handler => cases locks
  | _ => cases locks

theorem sends (passes : Passes party point .send after) : after.sendLocks = true := by
  cases passes
  rfl

theorem takesData (passes : Passes party point .next after) (locks : point.sendLocks = true) :
    after.sendLoopLocks = true := by
  cases passes with
  | sending => rfl
  | _ => cases locks

theorem destroyLocks (passes : Passes party point .next after) (locks : point.destroyLocks = true) :
    ∃ place, after = .destroyTerminate place := by
  cases passes with
  | destroying place => exact ⟨place, rfl⟩
  | _ => cases locks

theorem loopedCode (passes : Passes party point action after) (code : point = .code .looped)
    (calls : action = .send ∨ action = .destroy) : after.loopedLocks = true := by
  subst code
  rcases calls with rfl | rfl
  · cases passes
    rfl
  · cases passes
    rfl

theorem inWorker (passes : Passes .worker point action after) (inside : point.inWorker = true) :
    after.inWorker = true := by
  cases passes with
  | leave parent | destroy _ parent => cases parent
  | send place sender =>
      rw [sender rfl]
      rfl
  | sent place =>
      have handler : place = .handler := by simpa [Point.inWorker] using inside
      rw [handler]
      rfl
  | post | posting | posted | sending | sendingLoop | sentLoop => exact inside
  | run | destroying | terminated | joined | deleted | destroyed => cases inside
  | _ => rfl

end Passes

namespace Pair

variable {pair after : Pair} {party : Party} {action : Action} {label : PairLabel} {labels : List PairLabel}

/-- The worker begins no message while the destructor holds `_lock` before its `join`, and the
destructor takes `_lock` only when the worker does not wait for it. Looped code of the parent waits
for `_lock` only when the worker, holding it, does not wait for the parent's mutex. -/
def careful (pair : Pair) : PairLabel → Bool
  | .thread .worker .send => !(pair.point .parent).joining
  | .thread .worker .next => !((pair.point .worker).sendLocks && (pair.point .parent).loopedLocks)
  | .thread .parent .next => !((pair.point .parent).destroyLocks && (pair.point .worker).sendLocks)
  | .thread .parent .send | .thread .parent .destroy =>
      !(pair.point .parent == .code .looped && (pair.point .worker).sendLoopLocks)
  | _ => true

/-- The two threads are not on their way into a deadlock. -/
structure Uncrossed (pair : Pair) : Prop where
  exclusive : Mutex.Exclusive pair.held
  inWorker : (pair.point .worker).inWorker = true
  joining : (pair.point .parent).joining = true → (pair.point .worker).sendLocks = false
  looped : (pair.point .parent).loopedLocks = true → (pair.point .worker).sendLoopLocks = false

theorem uncrossed_initial : initial.Uncrossed := by
  constructor
  · intro first second lock first_holds
    cases first <;> cases first_holds
  · rfl
  · intro joining
    cases joining
  · intro locks
    cases locks

/-- Each careful step keeps the threads uncrossed. -/
theorem Uncrossed.step (uncrossed : pair.Uncrossed) (careful : pair.careful label = true)
    (taken : pair.step label = some after) : after.Uncrossed := by
  have exclusive := exclusive_step uncrossed.exclusive taken
  rcases step_cases taken with ⟨-, still⟩ | ⟨party, action, point, rfl, -, passes, moved⟩
  · exact ⟨exclusive, still ▸ uncrossed.inWorker, still ▸ uncrossed.joining, still ▸ uncrossed.looped⟩
  cases party with
  | parent =>
      have parent : after.point .parent = point := by simp [moved]
      have worker : after.point .worker = pair.point .worker := by simp [moved]
      refine ⟨exclusive, worker ▸ uncrossed.inWorker, ?_, ?_⟩
      · intro joining
        rw [parent] at joining
        rw [worker]
        rcases passes.joining joining with before | ⟨locks, rfl⟩
        · exact uncrossed.joining before
        · simpa [Pair.careful, locks] using careful
      · intro looped
        rw [parent] at looped
        rw [worker]
        obtain ⟨code, rfl | rfl⟩ := passes.loopedLocks looped
        · simpa [Pair.careful, code] using careful
        · simpa [Pair.careful, code] using careful
  | worker =>
      have parent : after.point .parent = pair.point .parent := by simp [moved]
      have worker : after.point .worker = point := by simp [moved]
      refine ⟨exclusive, worker ▸ passes.inWorker uncrossed.inWorker, ?_, ?_⟩
      · intro joining
        rw [parent] at joining
        rw [worker]
        by_contra locks
        rw [Bool.not_eq_false] at locks
        cases passes.sendLocks locks
        simp [Pair.careful, joining] at careful
      · intro looped
        rw [parent] at looped
        rw [worker]
        by_contra locks
        rw [Bool.not_eq_false] at locks
        obtain ⟨before, rfl⟩ := passes.sendLoopLocks locks
        simp [Pair.careful, looped, before] at careful

/-- A thread that wants the mutex of the other loop holds `_lock`. -/
theorem wants_other_loop (wanted : pair.wants party = some (.loop party.other)) :
    (pair.point party).sendLoopLocks = true ∧ Lock.data ∈ pair.held party := by
  have different : party ≠ party.other := by cases party <;> decide
  unfold wants at wanted
  unfold held
  cases point : pair.point party with
  | sendLoopLock => exact ⟨rfl, List.mem_cons_self⟩
  | _ => simp [Point.wants, point, different] at wanted

/-- A parent that wants `_lock` under its own mutex is inside looped code. -/
theorem wants_data_looped (wanted : pair.wants .parent = some .data)
    (holds : Lock.loop .parent ∈ pair.held .parent) : (pair.point .parent).loopedLocks = true := by
  unfold wants at wanted
  unfold held at holds
  cases point : pair.point .parent with
  | sendLock place | destroyLock place =>
      rw [point] at holds
      cases place with
      | looped => rfl
      | host | handler => cases holds
  | _ => simp [Point.wants, point] at wanted

/-- A worker that wants `_lock` is about to send. -/
theorem wants_data (inWorker : (pair.point .worker).inWorker = true) (wanted : pair.wants .worker = some .data) :
    (pair.point .worker).sendLocks = true ∧ pair.held .worker = [] := by
  unfold wants at wanted
  unfold held
  cases point : pair.point .worker with
  | sendLock place =>
      rw [point] at inWorker
      have handler : place = .handler := by simpa [Point.inWorker] using inWorker
      rw [handler]
      exact ⟨rfl, rfl⟩
  | destroyLock => simp [point, Point.inWorker] at inWorker
  | _ => simp [Point.wants, point] at wanted

/-- A parent that holds the worker's mutex waits for nothing. -/
theorem held_worker_loop (holds : Lock.loop .worker ∈ pair.held .parent) :
    pair.wants .parent = none ∧ ¬pair.Joins := by
  unfold held at holds
  unfold wants Joins
  cases point : pair.point .parent with
  | sendLoopUnlock => simp [Point.wants]
  | popUnlock | clearUnlock => simp [point, Point.held] at holds
  | code place | postLock place | postUnlock place | sendLock place | sendLoopLock place | sendUnlock place
  | destroyLock place | destroyTerminate place | destroyJoin place | destroyDelete place | destroyUnlock place =>
      cases place <;> simp [point, Point.held, Place.held] at holds
  | _ => simp [point, Point.held] at holds

/-- Uncrossed threads do not wait for each other. -/
theorem Uncrossed.not_deadlock (uncrossed : pair.Uncrossed) : ¬pair.Deadlock := by
  rintro ⟨⟨lock, wanted, holds⟩, waits⟩
  cases lock with
  | data =>
      obtain ⟨locks, nothing⟩ := wants_data uncrossed.inWorker wanted
      rcases waits with ⟨other, -, worker_holds⟩ | ⟨⟨place, point⟩, -⟩
      · rw [nothing] at worker_holds
        cases worker_holds
      · have free := uncrossed.joining (by rw [point]; rfl)
        rw [locks] at free
        cases free
  | loop party =>
      cases party with
      | worker =>
          obtain ⟨nothing, apart⟩ := held_worker_loop holds
          rcases waits with ⟨other, parent_wanted, -⟩ | joins
          · rw [nothing] at parent_wanted
            cases parent_wanted
          · exact apart joins
      | parent =>
          obtain ⟨locks, data⟩ := wants_other_loop wanted
          have shared (lock : Lock) (parent_holds : lock ∈ pair.held .parent)
              (worker_holds : lock ∈ pair.held .worker) : False := by
            cases uncrossed.exclusive _ _ lock parent_holds worker_holds
          rcases waits with ⟨other, parent_wanted, worker_holds⟩ | ⟨⟨place, point⟩, -⟩
          · match other with
            | .data =>
                have free := uncrossed.looped (wants_data_looped parent_wanted holds)
                rw [locks] at free
                cases free
            | .loop .parent => exact shared _ holds worker_holds
            | .loop .worker => exact shared _ (wants_other_loop parent_wanted).2 data
          · exact shared .data (by simp [held, point, Point.held]) data

/-- The destructor joins a thread that waits for `_lock`. -/
theorem deadlock_join {place : Place} (parent : pair.point .parent = .destroyJoin place)
    (worker : (pair.point .worker).sendLocks = true) : pair.Deadlock := by
  cases point : pair.point .worker with
  | sendLock =>
      constructor
      · exact ⟨.data, by simp [wants, point, Point.wants], by simp [held, parent, Point.held]⟩
      · exact .inr ⟨⟨place, parent⟩, by simp [point]⟩
  | _ =>
      rw [point] at worker
      cases worker

/-- After `terminate`, the destructor joins a thread that waits for `_lock`. -/
theorem deadlock_terminate {place : Place} (parent : pair.point .parent = .destroyTerminate place)
    (worker : (pair.point .worker).sendLocks = true) :
    ∃ deadlocked, Execution.exec step pair [.thread .parent .next] = some deadlocked ∧ deadlocked.Deadlock := by
  refine ⟨(pair.flag .worker true).move .parent (.destroyJoin place), ?_, ?_⟩
  · simp [Execution.exec_cons, step, blocked, wants, Point.wants, act, next, parent]
  · exact deadlock_join rfl worker

/-- Looped code waits for `_lock`, and its owner waits for the mutex of the parent's loop. -/
theorem deadlock_looped (parent : (pair.point .parent).loopedLocks = true)
    (worker : (pair.point .worker).sendLoopLocks = true) : pair.Deadlock := by
  have wanted : pair.wants .parent = some .data ∧ Lock.loop .parent ∈ pair.held .parent := by
    unfold wants held
    cases point : pair.point .parent with
    | sendLock place | destroyLock place =>
        rw [point] at parent
        cases place with
        | looped => exact ⟨rfl, List.mem_cons_self⟩
        | host | handler => cases parent
    | _ =>
        rw [point] at parent
        cases parent
  have wanted' : pair.wants .worker = some (.loop .parent) ∧ Lock.data ∈ pair.held .worker := by
    unfold wants held
    cases point : pair.point .worker with
    | sendLoopLock => exact ⟨rfl, List.mem_cons_self⟩
    | _ =>
        rw [point] at worker
        cases worker
  exact ⟨⟨.loop .parent, wanted'.1, wanted.2⟩, .inl ⟨.data, wanted.1, wanted'.2⟩⟩

/-- After a careless step, the two threads can reach a deadlock. -/
theorem careless_deadlock (taken : pair.step label = some after) (careless : pair.careful label = false) :
    ∃ rest deadlocked, Execution.exec step after rest = some deadlocked ∧ deadlocked.Deadlock := by
  rcases step_cases taken with ⟨rfl, -⟩ | ⟨party, action, point, rfl, -, passes, moved⟩
  · cases careless
  cases party with
  | parent =>
      have parent : after.point .parent = point := by simp [moved]
      have worker : after.point .worker = pair.point .worker := by simp [moved]
      cases action with
      | next =>
          simp only [careful, Bool.not_eq_false', Bool.and_eq_true] at careless
          obtain ⟨place, entered⟩ := passes.destroyLocks careless.1
          obtain ⟨deadlocked, last, deadlock⟩ :=
            deadlock_terminate (parent.trans entered) (worker ▸ careless.2)
          exact ⟨_, deadlocked, last, deadlock⟩
      | send | destroy =>
          simp only [careful, Bool.not_eq_false', Bool.and_eq_true, beq_iff_eq] at careless
          have locks : point.loopedLocks = true := passes.loopedCode careless.1 (by simp)
          exact ⟨[], after, rfl, deadlock_looped (parent ▸ locks) (worker ▸ careless.2)⟩
      | run | post => cases careless
  | worker =>
      have parent : after.point .parent = pair.point .parent := by simp [moved]
      have worker : after.point .worker = point := by simp [moved]
      cases action with
      | send =>
          simp only [careful, Bool.not_eq_false'] at careless
          have locks : (after.point .worker).sendLocks = true := worker ▸ passes.sends
          cases joining : pair.point .parent with
          | destroyTerminate place =>
              obtain ⟨deadlocked, last, deadlock⟩ := deadlock_terminate (parent.trans joining) locks
              exact ⟨_, deadlocked, last, deadlock⟩
          | destroyJoin place => exact ⟨[], after, rfl, deadlock_join (parent.trans joining) locks⟩
          | _ => simp [joining, Point.joining] at careless
      | next =>
          simp only [careful, Bool.not_eq_false', Bool.and_eq_true] at careless
          have locks : point.sendLoopLocks = true := passes.takesData careless.1
          exact ⟨[], after, rfl, deadlock_looped (parent ▸ careless.2) (worker ▸ locks)⟩
      | run | post | destroy => cases careless

/-- Careful threads never reach a deadlock, and one careless step lets them reach it. -/
theorem threads_never_deadlock (run : Execution.exec step initial labels = some pair) :
    (Execution.Along step (fun pair label => pair.careful label = true) initial labels → ¬pair.Deadlock) ∧
    ∀ label after, pair.step label = some after → pair.careful label = false →
      ∃ rest deadlocked, Execution.exec step after rest = some deadlocked ∧ deadlocked.Deadlock := by
  constructor
  · intro careful
    have uncrossed := Execution.exec_invariant_along
      (fun _ _ _ holds careful taken => Uncrossed.step holds careful taken) uncrossed_initial careful run
    exact uncrossed.not_deadlock
  · intro label after taken careless
    exact careless_deadlock taken careless

/-- The destructor runs while the worker sleeps. -/
theorem threads_never_deadlock_here : ∃ pair,
    Execution.exec step initial ([.thread .parent .destroy, .thread .parent .next] ++
      List.replicate 3 (.thread .worker .next) ++ [.thread .parent .next]) = some pair ∧
      pair.Joins ∧ ¬pair.Deadlock := by
  have ends : (Execution.exec step initial ([.thread .parent .destroy, .thread .parent .next] ++
      List.replicate 3 (.thread .worker .next) ++ [.thread .parent .next])).map (fun pair =>
        (pair.point .parent, pair.point .worker)) = some (.destroyJoin .host, .code .looped) := by decide
  obtain ⟨pair, run, same⟩ := Option.map_eq_some_iff.mp ends
  simp only [Prod.mk.injEq] at same
  refine ⟨pair, run, ⟨⟨.host, same.1⟩, by simp [same.2]⟩, ?_⟩
  exact (threads_never_deadlock run).1 (by decide)

/-- The worker answers a message while its owner is destroyed, and neither thread ever takes a step again. -/
theorem destructor_deadlocks : ∃ labels pair, Execution.exec step initial labels = some pair ∧ pair.Deadlock ∧
    ∀ rest final party action, Execution.exec step pair rest = some final →
      final.step (.thread party action) = none := by
  have ends : (Execution.exec step initial
      ([.thread .parent .send] ++ List.replicate 4 (.thread .parent .next) ++
        List.replicate 6 (.thread .worker .next) ++
        [.thread .parent .destroy, .thread .parent .next, .thread .parent .next, .thread .worker .send])).map
      (fun pair => (pair.point .parent, pair.point .worker)) =
        some (.destroyJoin .host, .sendLock .handler) := by decide
  obtain ⟨pair, run, same⟩ := Option.map_eq_some_iff.mp ends
  simp only [Prod.mk.injEq] at same
  have deadlock := deadlock_join same.1 (by rw [same.2]; rfl)
  exact ⟨_, pair, run, deadlock, fun rest final party action further => (deadlock.run further).stuck⟩

end Pair

end Dtel
