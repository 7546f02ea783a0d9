import Dtel.Proof.Task.Crew

namespace Dtel

/-- The tasks that a thread whose flag is set takes at most from here. -/
def PoolPoint.remaining {Task : Type} : PoolPoint Task → Nat
  | .pop | .lock | .test | .blocked | .woken => 1
  | _ => 0

namespace TaskPool

variable {Task : Type} {pool next shared : TaskPool Task} {number : Nat} {thread : PoolThread Task}
  {label : PoolLabel Task} {labels : List (PoolLabel Task)} {point : PoolPoint Task}

section Count

/-- The step asks for this number of threads. -/
def requests (_ : TaskPool Task) : PoolLabel Task → List Nat
  | .setTaskThreadCount count => [count]
  | _ => []

/-- The pool has as many threads as the constructor or the last call asked for, or it is on the way there. -/
structure Sized (pool : TaskPool Task) (asked : List Nat) : Prop where
  idle : pool.owner = .idle → pool.slots.length = asked.getLast?.getD 3
  growing : ∀ count, pool.owner = .growing count → count = asked.getLast?.getD 3
  shrinking : ∀ count index, pool.owner = .shrinking count index → count = asked.getLast?.getD 3
  notifying : ∀ count, pool.owner = .shrinkNotify count → count = asked.getLast?.getD 3 ∧ count ≤ pool.slots.length

theorem Sized.unchanged {asked : List Nat} (sized : pool.Sized asked) (owner : next.owner = pool.owner)
    (slots : next.slots = pool.slots) : next.Sized asked where
  idle point := slots ▸ sized.idle (owner ▸ point)
  growing count point := sized.growing count (owner ▸ point)
  shrinking count index point := sized.shrinking count index (owner ▸ point)
  notifying count point := slots ▸ sized.notifying count (owner ▸ point)

/-- Each step keeps the size, or works towards it. -/
theorem Sized.step {asked : List Nat} (sized : pool.Sized asked) (staffed : pool.Staffed)
    (taken : pool.step label = some next) : next.Sized (asked ++ pool.requests label) := by
  have away (owner : next.owner.stopping = true) (silent : pool.requests label = []) :
      next.Sized (asked ++ pool.requests label) := by
    rw [silent, List.append_nil]
    refine ⟨fun point => ?_, fun count point => ?_, fun count index point => ?_, fun count point => ?_⟩ <;>
      (rw [point] at owner; cases owner)
  cases step_cases taken with
  | turn number thread label shared point there alive turn =>
      have silent : pool.requests label = [] := by cases turn <;> rfl
      rw [silent, List.append_nil]
      exact sized.unchanged turn.frame.2.2.2.2 turn.frame.2.1
  | notifyInside _ _ _ _ _ _ _ _ _ notified | notify _ _ _ _ _ notified =>
      obtain ⟨owner, -, slots⟩ := notifyOne_owner notified
      simpa [requests] using sized.unchanged owner slots
  | push task alive =>
      have silent : pool.requests (.push none task) = [] := rfl
      rw [silent, List.append_nil]
      exact sized.unchanged rfl rfl
  | grow count idle done more =>
      exact ⟨by simp, fun limit same => by cases same; simp [requests], by simp, by simp⟩
  | shrink count idle done fewer =>
      exact ⟨by simp, by simp, fun limit index same => by cases same; simp [requests], by simp⟩
  | unsized count idle done =>
      rw [staffed.stopping, idle] at done
      cases done
  | destroy | stopNotify | join | joined | cleared => exact away rfl rfl
  | delete task rest point queue => exact away (by rw [point]; rfl) rfl
  | create count point more =>
      refine ⟨by simp [point], fun limit same => ?_, by simp [point], by simp [point]⟩
      simpa [requests] using sized.growing limit same
  | grown count point all =>
      have bound := staffed.growing count point
      have size := sized.growing count point
      refine ⟨fun _ => ?_, by simp, by simp, by simp⟩
      simp only [requests, List.append_nil]
      omega
  | flag count index number point more slot =>
      refine ⟨by simp, by simp, fun limit other same => ?_, by simp⟩
      cases same
      simpa [requests] using sized.shrinking count (index + 1) point
  | flagged count index point all =>
      have size := sized.shrinking count index point
      obtain ⟨lower, upper⟩ := staffed.shrinking count index point
      refine ⟨by simp, by simp, by simp, fun limit same => ?_⟩
      cases same
      simp only [requests, List.append_nil]
      exact ⟨size, Nat.le_trans lower upper⟩
  | shrunk count point free =>
      obtain ⟨size, bound⟩ := sized.notifying count point
      refine ⟨fun _ => ?_, by simp, by simp, by simp⟩
      simp only [requests, List.append_nil, List.length_take]
      omega

end Count

section Flagged

/-- The step lets this thread take this task. -/
def takesBy (number : Nat) (pool : TaskPool Task) (label : PoolLabel Task) : List Task :=
  match label with
  | .thread other => if other = number then pool.takes label else []
  | _ => []

/-- The flag of this thread is set, and the thread takes at most this number of tasks. -/
def Leaves (pool : TaskPool Task) (number taken : Nat) : Prop :=
  ∃ thread, pool.threads[number]? = some thread ∧ thread.flag = true ∧ taken + thread.point.remaining ≤ 1

/-- A thread takes a task only where it has one left to take. -/
theorem turn_remaining (there : pool.threads[number]? = some thread) (flag : thread.flag = true)
    (turn : Turn pool number thread label shared point) :
    (takesBy number pool label).length + point.remaining ≤ thread.point.remaining := by
  have here := points_there there
  cases turn with
  | popNone from_ queue | testNone from_ queue | popTask _ _ from_ queue | testTask _ _ from_ queue =>
      simp [takesBy, takes, here, from_, PoolPoint.popping, PoolPoint.remaining, queue]
  | again from_ unflagged => cases flag.symm.trans unflagged
  | block from_ done unflagged => cases flag.symm.trans unflagged
  | stop from_ | lock from_ | giveUp from_ | relock from_ | resume _ from_ | exit from_ =>
      simp [takesBy, takes, here, from_, PoolPoint.popping, PoolPoint.remaining]
  | finish _ from_ | spurious from_ | push _ _ from_ => simp [takesBy, from_, PoolPoint.remaining]

/-- The pool forgets no thread. -/
theorem threads_length (taken : pool.step label = some next) : pool.threads.length ≤ next.threads.length := by
  cases step_cases taken with
  | turn number thread label shared point there alive turn =>
      have same : (shared.move number thread point).threads.length = pool.threads.length := by
        rw [move, List.length_set, turn.frame.1]
      exact Nat.le_of_eq same.symm
  | notifyInside _ _ _ _ _ _ _ _ _ notified | notify _ _ _ _ _ notified =>
      rcases notifyOne_cases notified with ⟨_, _, _, _, rfl⟩ | ⟨_, rfl⟩ <;> simp [move]
  | create => simp
  | flag => simp
  | shrunk | stopNotify => simp [notifyAll]
  | _ => exact Nat.le_refl _

/-- A step that gives this thread no task brings it no further from its end. -/
theorem Leaves.quiet {count : Nat} (leaves : pool.Leaves number count) (taken : pool.step label = some next) :
    next.Leaves number count := by
  obtain ⟨before, there, flag, bound⟩ := leaves
  have below := (List.getElem?_eq_some_iff.mp there).1
  have within := Nat.lt_of_lt_of_le below (threads_length taken)
  have here : next.threads[number]? = some next.threads[number] := List.getElem?_eq_getElem within
  refine ⟨_, here, ?_⟩
  cases step_changed taken here with
  | same there' =>
      cases there.symm.trans there'
      exact ⟨flag, bound⟩
  | moved other shared label point there' turn result =>
      cases there.symm.trans there'
      have fewer := turn_remaining there flag turn
      rw [result]
      refine ⟨flag, ?_⟩
      change count + point.remaining ≤ 1
      omega
  | woken other there' sleeps result =>
      cases there.symm.trans there'
      rw [sleeps] at bound
      rw [result]
      exact ⟨flag, bound⟩
  | notified other present there' pushing result =>
      cases there.symm.trans there'
      rw [pushing] at bound
      rw [result]
      exact ⟨flag, bound⟩
  | flagged other limit index owner slot there' result =>
      cases there.symm.trans there'
      rw [result]
      exact ⟨rfl, bound⟩
  | created limit growing new result => exact absurd new (Nat.ne_of_lt below)

/-- Each step counts the tasks that the thread takes. -/
theorem Leaves.step {count : Nat} (leaves : pool.Leaves number count) (taken : pool.step label = some next) :
    next.Leaves number (count + (takesBy number pool label).length) := by
  cases step_cases taken with
  | turn other thread label shared point there alive turn =>
      by_cases same : other = number
      · subst same
        obtain ⟨before, there', flag, bound⟩ := leaves
        cases there.symm.trans there'
        have fewer := turn_remaining there flag turn
        refine ⟨{ thread with point := point }, ?_, flag, ?_⟩
        · rw [move, turn.frame.1]
          exact Threads.set_self there
        · change count + _ + point.remaining ≤ 1
          omega
      · have silent : takesBy number pool label = [] := by cases turn <;> simp [takesBy, same]
        rw [silent]
        exact leaves.quiet taken
  | _ => exact leaves.quiet taken

end Flagged

/-- When no call of `setTaskThreadCount` is under way, the pool serves its tasks with as many threads as the last call
asked for, none of which has ended. A thread that was told to stop takes at most one more task. -/
theorem thread_count_takes_effect (run : Execution.exec step (initial : TaskPool Task) labels = some pool) :
    (pool.owner = .idle →
      pool.slots.length = (Execution.trace step requests initial labels).getLast?.getD 3 ∧ pool.slots.Nodup ∧
        ∀ (number : Nat) (thread : PoolThread Task), pool.threads[number]? = some thread →
          (number ∈ pool.slots ↔ thread.flag = false) ∧ (number ∈ pool.slots → thread.point ≠ .ended)) ∧
      ∀ (number : Nat) (thread : PoolThread Task) (later : List (PoolLabel Task)) (final : TaskPool Task),
        pool.threads[number]? = some thread → thread.flag = true → Execution.exec step pool later = some final →
          (Execution.trace step (takesBy number) pool later).length ≤ 1 := by
  have sound := reachable_sound run
  constructor
  · intro idle
    have start : (initial : TaskPool Task).Sized [] :=
      ⟨by simp [initial], fun count same => by cases same; rfl, by simp [initial], by simp [initial]⟩
    have both : pool.Staffed ∧ pool.Sized ([] ++ Execution.trace step requests initial labels) := by
      have preserved (pool : TaskPool Task) (label : PoolLabel Task) (next : TaskPool Task) (asked : List Nat)
          (holds : pool.Staffed ∧ pool.Sized asked) (taken : pool.step label = some next) :
          next.Staffed ∧ next.Sized (asked ++ requests pool label) := ⟨holds.1.step taken, holds.2.step holds.1 taken⟩
      exact Execution.trace_invariant preserved ⟨initial_staffed, start⟩ run
    have undone : pool.isDone = false := by
      rw [sound.staffed.stopping, idle]
      rfl
    have kept : pool.kept = pool.slots := by simp [kept, idle]
    refine ⟨both.2.idle idle, sound.staffed.distinct, fun number thread there => ?_⟩
    have flags := sound.staffed.flags (by simp [idle]) number thread there
    rw [kept] at flags
    exact ⟨flags.symm, fun slot => (sound.lasting number thread there (flags.mpr slot) undone).1⟩
  · intro number thread later final there flag run
    have start : pool.Leaves number ([] : List Task).length := by
      refine ⟨thread, there, flag, ?_⟩
      cases thread.point <;> simp [PoolPoint.remaining]
    have leaves : final.Leaves number ([] ++ Execution.trace step (takesBy number) pool later).length := by
      have preserved (pool : TaskPool Task) (label : PoolLabel Task) (next : TaskPool Task) (shown : List Task)
          (holds : pool.Leaves number shown.length) (taken : pool.step label = some next) :
          next.Leaves number (shown ++ takesBy number pool label).length := by
        rw [List.length_append]
        exact holds.step taken
      exact Execution.trace_invariant preserved start run
    obtain ⟨last, -, -, few⟩ := leaves
    exact Nat.le_trans (Nat.le_add_right _ _) few

theorem thread_count_takes_effect_here : ∃ pool : TaskPool Nat,
    Execution.exec step initial (List.replicate 4 .owner ++ [.push none 5, .push none 6, .setTaskThreadCount 1, .owner,
      .owner, .owner, .owner]) = some pool ∧ pool.slots.length = 1 ∧
      ∀ later final, Execution.exec step pool later = some final →
        (Execution.trace step (takesBy 2) pool later).length ≤ 1 := by
  have ends : (Execution.exec step (initial : TaskPool Nat) (List.replicate 4 .owner ++ [.push none 5, .push none 6,
      .setTaskThreadCount 1, .owner, .owner, .owner, .owner])).map (fun pool => (pool.owner, pool.threads[2]?)) =
        some (.idle, some ⟨true, true, .pop⟩) := by decide
  obtain ⟨pool, run, same⟩ := Option.map_eq_some_iff.mp ends
  obtain ⟨idle, there⟩ := Prod.mk.inj same
  obtain ⟨size, takes⟩ := thread_count_takes_effect run
  exact ⟨pool, run, (size idle).1, fun later final => takes 2 _ later final there rfl⟩

end TaskPool

end Dtel
