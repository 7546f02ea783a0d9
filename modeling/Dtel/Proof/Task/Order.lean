import Dtel.Proof.Task.Wake

namespace Dtel

namespace PoolPoint

variable {Task : Type}

/-- The thread has this function in hand: it has popped it, and the function has not returned. -/
def inHand : PoolPoint Task → Option Task
  | .running task | .pushing task | .leave (some task) => some task
  | _ => none

/-- The next statement of the thread pops a function. -/
def popping : PoolPoint Task → Bool
  | .pop | .test => true
  | _ => false

@[simp] theorem wake_inHand (point : PoolPoint Task) : point.wake.inHand = point.inHand := by
  cases point <;> rfl

end PoolPoint

namespace TaskPool

variable {Task : Type} {pool next shared : TaskPool Task} {number : Nat} {thread : PoolThread Task}
  {label : PoolLabel Task} {labels : List (PoolLabel Task)} {point : PoolPoint Task}

/-- The step posts this task. -/
def pushes (_ : TaskPool Task) : PoolLabel Task → List Task
  | .push _ task => [task]
  | _ => []

/-- A thread takes this task. -/
def takes (pool : TaskPool Task) : PoolLabel Task → List Task
  | .thread number =>
      match pool.points[number]? with
      | some point => if point.popping then pool.queue.head?.toList else []
      | none => []
  | _ => []

/-- The destructor deletes this task without running it. -/
def deletes (pool : TaskPool Task) : PoolLabel Task → List Task
  | .owner => if pool.owner = .clearing then pool.queue.head?.toList else []
  | _ => []

/-- The function of this task returns. -/
def completes (pool : TaskPool Task) : PoolLabel Task → List Task
  | .finish number => ((pool.points[number]?).bind PoolPoint.inHand).toList
  | _ => []

/-- The tasks that threads have taken and not completed. -/
def inHand (pool : TaskPool Task) : List Task := pool.points.filterMap PoolPoint.inHand

/-- A notification leaves the queue and the tasks in hand. -/
theorem notifyOne_frame {woken : Option Nat} (notified : pool.notifyOne woken = some next) :
    next.queue = pool.queue ∧ next.inHand.Perm pool.inHand := by
  rcases notifyOne_cases notified with ⟨number, thread, there, sleeps, rfl⟩ | ⟨-, rfl⟩
  · have moved := Threads.filterMap_set PoolPoint.inHand .woken (points_there there)
    rw [sleeps] at moved
    simp only [PoolPoint.inHand, Option.toList_none, List.append_nil] at moved
    refine ⟨rfl, ?_⟩
    rw [inHand, move_points]
    exact moved
  · exact ⟨rfl, List.Perm.refl _⟩

theorem notifyAll_inHand (pool : TaskPool Task) : pool.notifyAll.inHand = pool.inHand := by
  rw [inHand, notifyAll_points, List.filterMap_map, inHand]
  congr 1
  funext point
  exact point.wake_inHand

/-- What a thread takes and what stays in the queue was in the queue or is posted. -/
theorem takes_queue (there : pool.threads[number]? = some thread) (turn : Turn pool number thread label shared point) :
    pool.takes label ++ shared.queue = pool.queue ++ pool.pushes label := by
  have here := points_there there
  cases turn with
  | popNone from_ queue | testNone from_ queue | popTask _ _ from_ queue | testTask _ _ from_ queue =>
      simp [takes, pushes, here, from_, PoolPoint.popping, queue]
  | stop from_ | again from_ | lock from_ | giveUp from_ | block from_ | relock from_ | resume _ from_ | exit from_ =>
      simp [takes, pushes, here, from_, PoolPoint.popping]
  | finish | spurious | push => simp [takes, pushes]

/-- What a thread has in hand is what it had, with what it takes and without what it completes. -/
theorem takes_inHand (there : pool.threads[number]? = some thread) (turn : Turn pool number thread label shared point) :
    (thread.point.inHand.toList ++ pool.takes label).Perm (pool.completes label ++ point.inHand.toList) := by
  have here := points_there there
  cases turn with
  | popNone from_ queue | testNone from_ queue | popTask _ _ from_ queue | testTask _ _ from_ queue =>
      simp [takes, completes, here, from_, PoolPoint.popping, PoolPoint.inHand, queue]
  | stop from_ | again from_ | lock from_ | giveUp from_ | block from_ | relock from_ | resume _ from_ | exit from_
  | finish _ from_ | spurious from_ | push _ _ from_ =>
      simp [takes, completes, here, from_, PoolPoint.popping, PoolPoint.inHand]

/-- What leaves the queue and what stays in it was in the queue or is posted by the step. -/
theorem queue_step (taken : pool.step label = some next) :
    pool.takes label ++ pool.deletes label ++ next.queue = pool.queue ++ pool.pushes label := by
  cases step_cases taken with
  | turn number thread label shared point there alive turn =>
      have kept : pool.deletes label = [] := by cases turn <;> rfl
      have queue : (shared.move number thread point).queue = shared.queue := rfl
      rw [kept, List.append_nil, queue]
      exact takes_queue there turn
  | notifyInside number thread present woken next there point free alive notified =>
      simp [takes, deletes, pushes, (notifyOne_frame notified).1, move]
  | notify woken next pushed free alive notified => simp [takes, deletes, pushes, (notifyOne_frame notified).1]
  | delete task rest point queue => simp [takes, deletes, pushes, point, queue]
  | cleared point queue => simp [takes, deletes, pushes, queue]
  | create _ point | grown _ point | flag _ _ _ point | flagged _ _ point | shrunk _ point | stopNotify point
  | join _ _ _ point | joined _ point => simp [takes, deletes, pushes, point, notifyAll]
  | _ => simp [takes, deletes, pushes]

/-- What threads have in hand and take, they complete or still have in hand. -/
theorem inHand_step (taken : pool.step label = some next) :
    (pool.inHand ++ pool.takes label).Perm (pool.completes label ++ [] ++ next.inHand) := by
  have still (same : next.inHand = pool.inHand) (takes : pool.takes label = []) (completes : pool.completes label = []) :
      (pool.inHand ++ pool.takes label).Perm (pool.completes label ++ [] ++ next.inHand) := by
    rw [takes, completes, same, List.append_nil]
    exact List.Perm.refl _
  cases step_cases taken with
  | turn number thread label shared point there alive turn =>
      classical
      have moved := Threads.filterMap_set PoolPoint.inHand point (points_there there)
      have mine := takes_inHand there turn
      have result : (shared.move number thread point).inHand = (pool.points.set number point).filterMap PoolPoint.inHand := by
        rw [inHand, move_points, turn.points]
      rw [result, List.perm_iff_count]
      intro task
      have one := moved.count_eq task
      have two := mine.count_eq task
      simp only [List.count_append, List.count_nil, inHand] at one two ⊢
      omega
  | notifyInside number thread present woken next there point free alive notified =>
      have moved := Threads.filterMap_set PoolPoint.inHand (PoolPoint.running present) (points_there there)
      rw [point] at moved
      have returned : (pool.move number thread (.running present)).inHand.Perm pool.inHand := by
        rw [inHand, move_points]
        exact (List.perm_append_right_iff _).mp moved
      have same := (notifyOne_frame notified).2.trans returned
      simpa [takes, completes] using same.symm
  | notify woken next pushed free alive notified =>
      have same : next.inHand.Perm pool.inHand := (notifyOne_frame notified).2
      simpa [takes, completes] using same.symm
  | create count point more => exact still (by simp [inHand, points, PoolPoint.inHand]) rfl rfl
  | flag count index number point more slot => exact still (by rw [inHand, points, flag_points]; rfl) rfl rfl
  | shrunk | stopNotify => exact still (notifyAll_inHand pool) rfl rfl
  | _ => exact still rfl rfl rfl

/-- Only the destructor deletes tasks. -/
theorem deletes_eq_nil (owner : pool.owner ≠ .clearing) : pool.deletes label = [] := by
  unfold deletes
  split
  · exact if_neg owner
  · rfl

/-- The tasks that have left the queue and those in it are the posted ones in their order. -/
theorem popped_trace (run : Execution.exec step (initial : TaskPool Task) labels = some pool) :
    Execution.trace step (fun pool label => pool.takes label ++ pool.deletes label) initial labels ++ pool.queue =
      Execution.trace step pushes initial labels := by
  have start : [] ++ (initial : TaskPool Task).queue = [] := rfl
  have reset (pool : TaskPool Task) (label : PoolLabel Task) (next : TaskPool Task) (_ : pool.step label = some next)
      (again : false = true) : [] ++ next.queue = [] := nomatch again
  have preserved (pool : TaskPool Task) (label : PoolLabel Task) (next : TaskPool Task) (popped pushed : List Task)
      (before : popped ++ pool.queue = pushed) (taken : pool.step label = some next) (_ : false = false) :
      popped ++ (pool.takes label ++ pool.deletes label) ++ next.queue = pushed ++ pushes pool label := by
    rw [List.append_assoc, queue_step taken, ← List.append_assoc, before]
  have kept := Execution.since_invariant (fun (pool : TaskPool Task) popped pushed => popped ++ pool.queue = pushed)
    reset preserved start run
  rwa [Execution.since_never _ run, Execution.since_never _ run] at kept

/-- The tasks that threads have taken are the completed ones and those in hand. -/
theorem taken_trace (run : Execution.exec step (initial : TaskPool Task) labels = some pool) :
    (Execution.trace step takes initial labels).Perm (Execution.trace step completes initial labels ++ pool.inHand) := by
  have conserves (pool : TaskPool Task) (label : PoolLabel Task) (next : TaskPool Task)
      (taken : pool.step label = some next) :
      (pool.inHand ++ takes pool label).Perm (completes pool label ++ [] ++ next.inHand) := inHand_step taken
  have conserved := Execution.trace_conserves conserves run
  have nothing : Execution.trace step (fun (_ : TaskPool Task) (_ : PoolLabel Task) => ([] : List Task)) initial labels = [] :=
    (Execution.trace_eq_nil run).mpr (Execution.Along.of_forall fun _ _ _ => rfl)
  rw [nothing, List.append_nil] at conserved
  exact conserved

/-- Tasks leave the queue in the order in which they were posted, and each leaves it once: a thread takes it, or the
destructor deletes it. A task that a thread has taken is completed once, or still in hand. -/
theorem tasks_run_once_in_order (run : Execution.exec step (initial : TaskPool Task) labels = some pool) :
    Execution.trace step (fun pool label => pool.takes label ++ pool.deletes label) initial labels ++ pool.queue =
        Execution.trace step pushes initial labels ∧
      (Execution.trace step takes initial labels).Perm
        (Execution.trace step completes initial labels ++ pool.inHand) :=
  ⟨popped_trace run, taken_trace run⟩

/-- Two threads run two of three tasks at once, and the second one returns first. -/
theorem tasks_run_once_in_order_here : ∃ pool : TaskPool Nat,
    Execution.exec step initial [.owner, .owner, .push none 5, .push none 6, .push none 7, .thread 0, .thread 1,
      .finish 1] = some pool ∧ pool.queue = [7] ∧ [5, 6].Perm ([6] ++ pool.inHand) := by
  have ends : (Execution.exec step (initial : TaskPool Nat) [.owner, .owner, .push none 5, .push none 6, .push none 7,
      .thread 0, .thread 1, .finish 1]).map queue = some [7] := by decide
  obtain ⟨pool, run, left⟩ := Option.map_eq_some_iff.mp ends
  exact ⟨pool, run, left, (tasks_run_once_in_order run).2⟩

end TaskPool

end Dtel
