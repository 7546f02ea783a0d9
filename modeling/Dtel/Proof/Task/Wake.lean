import Dtel.Proof.Task.Step

namespace Dtel

namespace PoolPoint

variable {Task : Type}

/-- The thread will look for a function before it sleeps, or it will notify another thread. -/
def due : PoolPoint Task → Bool
  | .woken | .test | .pushing _ => true
  | _ => false

/-- The thread has found no function, and sleeps or is about to sleep. -/
def dozing : PoolPoint Task → Bool
  | .blocked | .check => true
  | _ => false

/-- The thread is between `++this->nWaiting` and `--this->nWaiting`. -/
def waits : PoolPoint Task → Bool
  | .test | .check | .blocked | .woken | .leave _ => true
  | _ => false

@[simp] theorem wake_holds (point : PoolPoint Task) : point.wake.holds = point.holds := by
  cases point <;> rfl

@[simp] theorem wake_waits (point : PoolPoint Task) : point.wake.waits = point.waits := by
  cases point <;> rfl

theorem wake_of_ne {point : PoolPoint Task} (awake : point ≠ .blocked) : point.wake = point := by
  cases point <;> first | rfl | exact absurd rfl awake

end PoolPoint

namespace TaskPool

variable {Task : Type} {pool next shared : TaskPool Task} {number : Nat} {thread : PoolThread Task}
  {label : PoolLabel Task} {labels : List (PoolLabel Task)} {point : PoolPoint Task}

/-- The points at which the threads stand. -/
def points (pool : TaskPool Task) : List (PoolPoint Task) := pool.threads.map PoolThread.point

theorem points_there (there : pool.threads[number]? = some thread) : pool.points[number]? = some thread.point := by
  rw [points, List.getElem?_map, there]
  rfl

/-- A thread stands at each point. -/
theorem points_thread (found : pool.points[number]? = some point) :
    ∃ thread, pool.threads[number]? = some thread ∧ thread.point = point := by
  rw [points, List.getElem?_map] at found
  exact Option.map_eq_some_iff.mp found

@[simp] theorem move_points (pool : TaskPool Task) (number : Nat) (thread : PoolThread Task) (point : PoolPoint Task) :
    (pool.move number thread point).points = pool.points.set number point := by
  rw [points, move, List.map_set]
  rfl

@[simp] theorem notifyAll_points (pool : TaskPool Task) : pool.notifyAll.points = pool.points.map PoolPoint.wake := by
  simp only [points, notifyAll, List.map_map]
  rfl

/-- The flag of a thread does not move it. -/
theorem flag_points (threads : List (PoolThread Task)) (number : Nat) :
    (threads.modify number fun thread => { thread with flag := true, detached := true }).map PoolThread.point =
      threads.map PoolThread.point := by
  apply List.ext_getElem?
  intro other
  rw [List.getElem?_map, List.getElem?_map, List.getElem?_modify]
  cases threads[other]? with
  | none => rfl
  | some thread =>
      by_cases same : number = other
      · simp [same]
      · simp [same]

/-- What a thread does leaves the rest of the pool as it was. -/
theorem Turn.frame (turn : Turn pool number thread label shared point) :
    shared.threads = pool.threads ∧ shared.slots = pool.slots ∧ shared.isDone = pool.isDone ∧
      shared.unnotified = pool.unnotified ∧ shared.owner = pool.owner := by
  cases turn <;> exact ⟨rfl, rfl, rfl, rfl, rfl⟩

theorem Turn.points (turn : Turn pool number thread label shared point) : shared.points = pool.points := by
  rw [TaskPool.points, turn.frame.1]
  rfl

section Mutex

/-- The mutex belongs to the thread that stands behind its lock. -/
def Locked (pool : TaskPool Task) : Prop :=
  ∀ number, pool.mutex = some number ↔ ∃ point, pool.points[number]? = some point ∧ point.holds = true

/-- A thread keeps the mutex, takes the free mutex or frees it. -/
theorem Turn.mutex_cases (turn : Turn pool number thread label shared point) :
    (shared.mutex = pool.mutex ∧ point.holds = thread.point.holds) ∨
      (pool.mutex = none ∧ shared.mutex = some number ∧ point.holds = true) ∨
      (shared.mutex = none ∧ point.holds = false ∧ thread.point.holds = true) := by
  cases turn <;> simp [*, PoolPoint.holds]

/-- No thread holds a free mutex. -/
theorem Locked.free (locked : pool.Locked) (free : pool.mutex = none) (member : point ∈ pool.points) :
    point.holds = false := by
  obtain ⟨number, there⟩ := List.mem_iff_getElem?.mp member
  by_contra holds
  have taken := (locked number).mpr ⟨point, there, by simpa using holds⟩
  rw [free] at taken
  cases taken

theorem Locked.unchanged (locked : pool.Locked) (mutex : next.mutex = pool.mutex)
    (same : ∀ number : Nat, (next.points[number]?).map PoolPoint.holds = (pool.points[number]?).map PoolPoint.holds) :
    next.Locked := by
  intro number
  rw [mutex, locked number]
  have holding := same number
  constructor
  · rintro ⟨point, there, holds⟩
    rw [there] at holding
    obtain ⟨other, found, equal⟩ := Option.map_eq_some_iff.mp holding
    exact ⟨other, found, equal.trans holds⟩
  · rintro ⟨point, there, holds⟩
    rw [there] at holding
    obtain ⟨other, found, equal⟩ := Option.map_eq_some_iff.mp holding.symm
    exact ⟨other, found, equal.trans holds⟩

/-- A thread that moves between points without the mutex leaves it. -/
theorem Locked.move (locked : pool.Locked) (there : pool.points[number]? = some point) {after : PoolPoint Task}
    (same : after.holds = point.holds) (mutex : next.mutex = pool.mutex) (moved : next.points = pool.points.set number after) :
    next.Locked := by
  refine locked.unchanged mutex fun other => ?_
  rw [moved]
  by_cases equal : number = other
  · subst equal
    rw [Threads.set_self there, there, Option.map_some, Option.map_some, same]
  · rw [List.getElem?_set_ne equal]

/-- A notification leaves the mutex. -/
theorem Locked.notifyOne {woken : Option Nat} (locked : pool.Locked) (notified : pool.notifyOne woken = some next) :
    next.Locked := by
  rcases notifyOne_cases notified with ⟨number, thread, there, sleeps, rfl⟩ | ⟨-, rfl⟩
  · refine locked.move (points_there there) ?_ rfl (move_points _ _ _ _)
    rw [sleeps]
    rfl
  · exact locked

/-- Each step keeps the mutex with its owner. -/
theorem Locked.step (locked : pool.Locked) (taken : pool.step label = some next) : next.Locked := by
  cases step_cases taken with
  | turn number thread label shared point there alive turn =>
      have here := points_there there
      have moved : (shared.move number thread point).points = pool.points.set number point := by
        rw [move_points, turn.points]
      rcases turn.mutex_cases with ⟨mutex, same⟩ | ⟨free, mutex, holds⟩ | ⟨mutex, freed, held⟩
      · exact locked.move here same mutex moved
      · intro other
        rw [moved]
        constructor
        · intro owner
          cases (show shared.mutex = some other from owner).symm.trans mutex
          exact ⟨point, Threads.set_self here, holds⟩
        · rintro ⟨found, member, holding⟩
          rcases Threads.set_cases member with ⟨rfl, rfl⟩ | ⟨-, old⟩
          · exact mutex
          · rw [locked.free free (List.mem_of_getElem? old)] at holding
            cases holding
      · intro other
        rw [moved]
        constructor
        · intro owner
          cases (show shared.mutex = some other from owner).symm.trans mutex
        · rintro ⟨found, member, holding⟩
          have mine := (locked number).mpr ⟨_, here, held⟩
          rcases Threads.set_cases member with ⟨rfl, rfl⟩ | ⟨different, old⟩
          · rw [freed] at holding
            cases holding
          · have yours := (locked other).mpr ⟨found, old, holding⟩
            cases mine.symm.trans yours
            exact absurd rfl different
  | notifyInside number thread present woken next there point free alive notified =>
      have returned : (pool.move number thread (.running present)).Locked :=
        locked.move (points_there there) (by rw [point]; rfl) rfl (move_points _ _ _ _)
      exact returned.notifyOne notified
  | notify woken next pushed free alive notified =>
      have fewer : ({ pool with unnotified := pool.unnotified - 1 } : TaskPool Task).Locked :=
        locked.unchanged rfl fun _ => rfl
      exact fewer.notifyOne notified
  | create count point more =>
      intro other
      rw [locked other]
      have added : ({ pool with
          threads := pool.threads ++ [⟨false, false, .pop⟩]
          slots := pool.slots ++ [pool.threads.length] } : TaskPool Task).points = pool.points ++ [.pop] := by
        simp [points]
      rw [added]
      constructor
      · rintro ⟨found, there, holds⟩
        refine ⟨found, ?_, holds⟩
        rw [List.getElem?_append_left (List.getElem?_eq_some_iff.mp there).1]
        exact there
      · rintro ⟨found, there, holds⟩
        rcases Nat.lt_or_ge other pool.points.length with old | new
        · rw [List.getElem?_append_left old] at there
          exact ⟨found, there, holds⟩
        · rw [List.getElem?_append_right new] at there
          cases List.mem_singleton.mp (List.mem_of_getElem? there)
          cases holds
  | flag count index number point more slot =>
      refine locked.unchanged rfl fun other => ?_
      rw [points, flag_points]
      rfl
  | shrunk count point free | stopNotify point free =>
      refine locked.unchanged rfl fun other => ?_
      have woken : (pool.points.map PoolPoint.wake)[other]?.map PoolPoint.holds =
          (pool.points[other]?).map PoolPoint.holds := by
        rw [List.getElem?_map, Option.map_map]
        congr 1
        funext point
        exact point.wake_holds
      rw [← woken, ← notifyAll_points]
      rfl
  | _ => exact locked.unchanged rfl fun _ => rfl

theorem initial_locked : (initial : TaskPool Task).Locked := by
  intro number
  constructor
  · intro taken
    cases taken
  · rintro ⟨point, there, -⟩
    cases there

end Mutex

section Sleep

/-- The threads that will look for a function or will notify, and the other clients that will. -/
def dueCount (pool : TaskPool Task) : Nat := pool.unnotified + pool.points.countP PoolPoint.due

/-- While a thread sleeps, the queue holds no more functions than threads that are due. -/
def Alert (pool : TaskPool Task) : Prop :=
  (∃ point ∈ pool.points, point.dozing = true) → pool.queue.length ≤ pool.dueCount

/-- Under a free mutex, only threads that sleep are dozing. -/
theorem Locked.blocked (locked : pool.Locked) (free : pool.mutex = none) (member : point ∈ pool.points)
    (dozing : point.dozing = true) : point = .blocked := by
  have unlocked := locked.free free member
  cases point <;> simp [PoolPoint.dozing, PoolPoint.holds] at dozing unlocked ⊢

/-- A thread that dozes behind the move of another one dozed before. -/
theorem dozing_set {after : PoolPoint Task} (dozes : ∃ point ∈ pool.points.set number after, point.dozing = true)
    (awake : after.dozing = false) : ∃ point ∈ pool.points, point.dozing = true := by
  obtain ⟨point, member, dozing⟩ := dozes
  rcases Threads.mem_set member with rfl | old
  · rw [awake] at dozing
    cases dozing
  · exact ⟨point, old, dozing⟩

/-- Each statement of a thread keeps the others alert. -/
theorem Alert.turn (alert : pool.Alert) (there : pool.threads[number]? = some thread)
    (turn : Turn pool number thread label shared point) : (shared.move number thread point).Alert := by
  intro dozes
  have here := points_there there
  have counted := Threads.countP_set PoolPoint.due point here
  have same : (shared.move number thread point).unnotified = pool.unnotified := turn.frame.2.2.2.1
  rw [move_points, turn.points] at dozes
  rw [dueCount, same, move_points, turn.points]
  cases turn with
  | popNone from_ queue | testNone from_ queue =>
      have empty : pool.queue.length = 0 := by rw [queue, List.length_nil]
      exact Nat.le_trans (Nat.le_of_eq empty) (Nat.zero_le _)
  | popTask task rest from_ queue | testTask task rest from_ queue =>
      have before := alert (dozing_set dozes rfl)
      rw [queue, List.length_cons, dueCount] at before
      simp only [from_, PoolPoint.due, if_true, Bool.false_eq_true, if_false] at counted
      change rest.length ≤ _
      omega
  | push present task from_ =>
      have before := alert (dozing_set dozes rfl)
      rw [dueCount] at before
      simp only [from_, PoolPoint.due, if_true, Bool.false_eq_true, if_false] at counted
      change (pool.queue ++ [task]).length ≤ _
      rw [List.length_append, List.length_singleton]
      omega
  | block from_ done flag | spurious from_ =>
      have before := alert ⟨_, List.mem_of_getElem? here, by rw [from_]; rfl⟩
      rw [dueCount] at before
      simp only [from_, PoolPoint.due, if_true, Bool.false_eq_true, if_false] at counted
      change pool.queue.length ≤ _
      omega
  | stop from_ | again from_ | lock from_ | giveUp from_ | relock from_ | resume _ from_ | exit from_ | finish _ from_ =>
      have before := alert (dozing_set dozes rfl)
      rw [dueCount] at before
      simp only [from_, PoolPoint.due, if_true, Bool.false_eq_true, if_false] at counted
      change pool.queue.length ≤ _
      omega

/-- A notification that is due wakes a thread, or none dozes. -/
theorem Alert.notifyOne {woken : Option Nat} (locked : pool.Locked) (free : pool.mutex = none)
    (alert : (∃ point ∈ pool.points, point.dozing = true) → pool.queue.length ≤ pool.dueCount + 1)
    (notified : pool.notifyOne woken = some next) : next.Alert := by
  rcases notifyOne_cases notified with ⟨number, thread, there, sleeps, rfl⟩ | ⟨none, rfl⟩
  · intro dozes
    have here := points_there there
    have before := alert ⟨_, List.mem_of_getElem? here, by rw [sleeps]; rfl⟩
    have counted := Threads.countP_set PoolPoint.due .woken here
    simp only [sleeps, PoolPoint.due, if_true, Bool.false_eq_true, if_false] at counted
    rw [dueCount] at before ⊢
    rw [move_points]
    change pool.queue.length ≤ pool.unnotified + _
    omega
  · rintro ⟨point, member, dozing⟩
    obtain ⟨thread, found, rfl⟩ := List.mem_map.mp member
    exact absurd (locked.blocked free member dozing) (none thread found)

/-- Each step keeps the pool alert. -/
theorem Alert.step (locked : pool.Locked) (alert : pool.Alert) (taken : pool.step label = some next) : next.Alert := by
  cases step_cases taken with
  | turn number thread label shared point there alive turn => exact alert.turn there turn
  | push task alive =>
      intro dozes
      have before := alert dozes
      rw [dueCount] at before ⊢
      change (pool.queue ++ [task]).length ≤ pool.unnotified + 1 + pool.points.countP PoolPoint.due
      rw [List.length_append, List.length_singleton]
      omega
  | notifyInside number thread present woken next there point free alive notified =>
      have here := points_there there
      have counted := Threads.countP_set PoolPoint.due (PoolPoint.running present) here
      simp only [point, PoolPoint.due, if_true, Bool.false_eq_true, if_false] at counted
      have returned : (pool.move number thread (.running present)).Locked :=
        locked.move here (by rw [point]; rfl) rfl (move_points _ _ _ _)
      refine Alert.notifyOne returned free (fun dozes => ?_) notified
      rw [move_points] at dozes
      have before := alert (dozing_set dozes rfl)
      rw [dueCount] at before ⊢
      rw [move_points]
      change pool.queue.length ≤ pool.unnotified + _ + 1
      omega
  | notify woken next pushed free alive notified =>
      have fewer : ({ pool with unnotified := pool.unnotified - 1 } : TaskPool Task).Locked :=
        locked.unchanged rfl fun _ => rfl
      refine Alert.notifyOne fewer free (fun dozes => ?_) notified
      have before := alert dozes
      rw [dueCount] at before ⊢
      change pool.queue.length ≤ pool.unnotified - 1 + pool.points.countP PoolPoint.due + 1
      omega
  | create count point more =>
      have added : ({ pool with
          threads := pool.threads ++ [⟨false, false, .pop⟩]
          slots := pool.slots ++ [pool.threads.length] } : TaskPool Task).points = pool.points ++ [.pop] := by
        simp [points]
      intro dozes
      rw [dueCount, added, List.countP_append]
      rw [added] at dozes
      obtain ⟨found, member, dozing⟩ := dozes
      rcases List.mem_append.mp member with old | new
      · exact alert ⟨found, old, dozing⟩
      · cases List.mem_singleton.mp new
        cases dozing
  | flag count index number point more slot =>
      intro dozes
      rw [dueCount, points, flag_points]
      rw [points, flag_points] at dozes
      exact alert dozes
  | shrunk count point free | stopNotify point free =>
      rintro ⟨point, member, dozing⟩
      have woken : point ∈ pool.points.map PoolPoint.wake := by
        rw [← notifyAll_points]
        exact member
      obtain ⟨old, found, rfl⟩ := List.mem_map.mp woken
      have unlocked := locked.free free found
      cases old <;> simp [PoolPoint.wake, PoolPoint.dozing, PoolPoint.holds] at dozing unlocked
  | delete task rest point queue =>
      intro dozes
      have before := alert dozes
      rw [queue, List.length_cons] at before
      exact Nat.le_of_succ_le before
  | _ => exact alert

end Sleep

section Idle

/-- The counter holds the number of threads that wait. -/
def Counted (pool : TaskPool Task) : Prop := pool.nWaiting = pool.points.countP PoolPoint.waits

theorem Counted.turn (counted : pool.Counted) (there : pool.threads[number]? = some thread)
    (turn : Turn pool number thread label shared point) : (shared.move number thread point).Counted := by
  have moved := Threads.countP_set PoolPoint.waits point (points_there there)
  rw [Counted] at counted ⊢
  rw [move_points, turn.points]
  change shared.nWaiting = (pool.points.set number point).countP _
  cases turn with
  | popNone from_ | popTask _ _ from_ | stop from_ | again from_ | lock from_ | testNone from_ | testTask _ _ from_
  | giveUp from_ | block from_ | relock from_ | finish _ from_ | spurious from_ | push _ _ from_ =>
      simp only [from_, PoolPoint.waits, if_true, Bool.false_eq_true, if_false] at moved ⊢
      omega
  | resume _ from_ | exit from_ =>
      have some : 0 < pool.points.countP PoolPoint.waits :=
        List.countP_pos_iff.mpr ⟨_, List.mem_of_getElem? (points_there there), by rw [from_]; rfl⟩
      simp only [from_, PoolPoint.waits, if_true, Bool.false_eq_true, if_false] at moved ⊢
      omega

theorem Counted.notifyOne {woken : Option Nat} (counted : pool.Counted) (notified : pool.notifyOne woken = some next) :
    next.Counted := by
  rcases notifyOne_cases notified with ⟨number, thread, there, sleeps, rfl⟩ | ⟨-, rfl⟩
  · have moved := Threads.countP_set PoolPoint.waits .woken (points_there there)
    simp only [sleeps, PoolPoint.waits, if_true] at moved
    rw [Counted] at counted ⊢
    rw [move_points]
    change pool.nWaiting = _
    omega
  · exact counted

/-- Each step keeps the counter. -/
theorem Counted.step (counted : pool.Counted) (taken : pool.step label = some next) : next.Counted := by
  cases step_cases taken with
  | turn number thread label shared point there alive turn => exact counted.turn there turn
  | notifyInside number thread present woken next there point free alive notified =>
      have moved := Threads.countP_set PoolPoint.waits (PoolPoint.running present) (points_there there)
      simp only [point, PoolPoint.waits, Bool.false_eq_true, if_false] at moved
      have returned : (pool.move number thread (.running present)).Counted := by
        rw [Counted] at counted ⊢
        rw [move_points]
        change pool.nWaiting = _
        omega
      exact returned.notifyOne notified
  | notify woken next pushed free alive notified =>
      have fewer : ({ pool with unnotified := pool.unnotified - 1 } : TaskPool Task).Counted := counted
      exact fewer.notifyOne notified
  | create count point more =>
      rw [Counted] at counted ⊢
      change pool.nWaiting = _
      rw [counted, points, points, List.map_append, List.countP_append]
      rfl
  | flag count index number point more slot =>
      rw [Counted] at counted ⊢
      rw [points, flag_points]
      exact counted
  | shrunk count point free | stopNotify point free =>
      rw [Counted] at counted ⊢
      change pool.nWaiting = pool.notifyAll.points.countP PoolPoint.waits
      rw [counted, notifyAll_points, Threads.countP_map _ _ PoolPoint.wake_waits]
  | _ => exact counted

end Idle

/-- In each state at most one thread holds the mutex, and `n_idle` is the number of threads that wait. While a thread
sleeps, each queued task has a thread that is awake and will look for it, or a notification that is still to come. -/
theorem no_wake_up_is_lost (run : Execution.exec step (initial : TaskPool Task) labels = some pool) :
    (∀ (first second : Nat) (one other : PoolPoint Task), pool.points[first]? = some one → pool.points[second]? = some other →
      one.holds = true → other.holds = true → first = second) ∧
    pool.nWaiting = pool.points.countP PoolPoint.waits ∧
    ((∃ thread ∈ pool.threads, thread.point = .blocked) →
      pool.queue.length ≤ pool.unnotified + pool.points.countP PoolPoint.due) := by
  obtain ⟨locked, alert, counted⟩ : pool.Locked ∧ pool.Alert ∧ pool.Counted := by
    have start : (initial : TaskPool Task).Locked ∧ (initial : TaskPool Task).Alert ∧ (initial : TaskPool Task).Counted :=
      ⟨initial_locked, fun _ => Nat.zero_le _, rfl⟩
    have preserved (pool : TaskPool Task) (label : PoolLabel Task) (next : TaskPool Task)
        (holds : pool.Locked ∧ pool.Alert ∧ pool.Counted) (taken : pool.step label = some next) :
        next.Locked ∧ next.Alert ∧ next.Counted :=
      ⟨holds.1.step taken, holds.2.1.step holds.1 taken, holds.2.2.step taken⟩
    exact Execution.exec_invariant preserved start run
  refine ⟨fun first second one other there found holds held => ?_, counted, ?_⟩
  · have mine := (locked first).mpr ⟨one, there, holds⟩
    have yours := (locked second).mpr ⟨other, found, held⟩
    exact Option.some.inj (mine.symm.trans yours)
  · rintro ⟨thread, member, sleeps⟩
    exact alert ⟨thread.point, List.mem_map_of_mem member, by rw [sleeps]; rfl⟩

/-- A thread sleeps, and another thread is between its push and its notification. -/
theorem no_wake_up_is_lost_here : ∃ pool : TaskPool Nat,
    Execution.exec step initial [.owner, .thread 0, .thread 0, .thread 0, .thread 0, .push none 5] = some pool ∧
      pool.nWaiting = 1 ∧ pool.queue.length ≤ 1 + 0 := by
  have ends : (Execution.exec step (initial : TaskPool Nat) [.owner, .thread 0, .thread 0, .thread 0, .thread 0,
      .push none 5]).map (fun pool => (pool.threads, pool.unnotified)) =
        some ([⟨false, false, .blocked⟩], 1) := by decide
  obtain ⟨pool, run, same⟩ := Option.map_eq_some_iff.mp ends
  obtain ⟨threads, unnotified⟩ := Prod.mk.inj same
  obtain ⟨-, counted, awaited⟩ := no_wake_up_is_lost run
  have sleeps := awaited ⟨_, threads ▸ List.mem_singleton_self _, rfl⟩
  rw [unnotified, points, threads] at sleeps
  rw [points, threads] at counted
  exact ⟨pool, run, counted, sleeps⟩

end TaskPool

end Dtel
