import Dtel.Proof.Task.Crew

namespace Dtel

/-- The thread will pop from the queue before it ends, or it has a function. -/
def PoolPoint.seeks {Task : Type} : PoolPoint Task → Bool
  | .check | .leave none | .ended => false
  | _ => true

namespace TaskPool

variable {Task : Type} {pool next shared : TaskPool Task} {number : Nat} {thread : PoolThread Task}
  {label : PoolLabel Task} {labels : List (PoolLabel Task)} {point : PoolPoint Task}

/-- The owner destroys a pool with a thread when no thread that it has detached runs any more and all clients
outside have returned from `postTask`, and none of them posts behind that. -/
def orderly (pool : TaskPool Task) : PoolLabel Task → Bool
  | .destroy =>
      !pool.slots.isEmpty && pool.unnotified == 0 && pool.threads.all fun thread => !thread.flag || thread.point.hasEnded
  | .push none _ => !pool.owner.stopping
  | _ => true

/-- While the destructor runs, a queued task has a thread that will look for it. -/
structure Drains (pool : TaskPool Task) : Prop where
  unnotified : pool.unnotified = 0
  detached : ∀ (number : Nat) (thread : PoolThread Task), pool.threads[number]? = some thread → thread.flag = true →
    thread.point = .ended
  sought : pool.queue ≠ [] → ∃ (number : Nat) (thread : PoolThread Task), pool.threads[number]? = some thread ∧
    thread.flag = false ∧ thread.point.seeks = true

/-- When the destructor is called in an orderly way, a queued task has a thread. -/
theorem Drains.begin (sound : pool.Sound) (idle : pool.owner = .idle) (orderly : pool.orderly .destroy = true)
    (threads : next.threads = pool.threads) (queue : next.queue = pool.queue)
    (unnotified : next.unnotified = pool.unnotified) : next.Drains := by
  simp only [TaskPool.orderly, Bool.and_eq_true, Bool.not_eq_true', List.isEmpty_eq_false_iff, beq_iff_eq,
    List.all_eq_true, Bool.or_eq_true] at orderly
  obtain ⟨⟨some, silent⟩, done⟩ := orderly
  have detached (number : Nat) (thread : PoolThread Task) (there : pool.threads[number]? = Option.some thread)
      (flag : thread.flag = true) : thread.point = .ended := by
    refine hasEnded_iff.mp ((done thread (List.mem_of_getElem? there)).resolve_left ?_)
    simp [flag]
  refine ⟨unnotified.trans silent, threads ▸ detached, fun queued => ?_⟩
  rw [queue] at queued
  rw [threads]
  obtain ⟨number, slot⟩ := List.exists_mem_of_ne_nil _ some
  have below := sound.staffed.bounded number slot
  have there : pool.threads[number]? = Option.some pool.threads[number] := List.getElem?_eq_getElem below
  have unflagged : pool.threads[number].flag = false :=
    (sound.staffed.flags (by simp [idle]) number _ there).mpr (by simpa [kept, idle] using slot)
  have undone : pool.isDone = false := by
    rw [sound.staffed.stopping, idle]
    rfl
  obtain ⟨unended, unleft⟩ := sound.lasting number _ there unflagged undone
  by_cases seeks : pool.threads[number].point.seeks = true
  · exact ⟨number, _, there, unflagged, seeks⟩
  · have checks : pool.threads[number].point = .check := by
      cases point : pool.threads[number].point with
      | check => rfl
      | leave found => cases found <;> simp_all [PoolPoint.seeks]
      | _ => simp_all [PoolPoint.seeks]
    -- It has found the queue empty, so another thread is due for the task that came later.
    have few := sound.alert ⟨_, List.mem_of_getElem? (points_there there), by rw [checks]; rfl⟩
    have due : 0 < pool.points.countP PoolPoint.due := by
      have long := List.length_pos_iff.mpr queued
      rw [dueCount, silent] at few
      omega
    obtain ⟨point, member, awake⟩ := List.countP_pos_iff.mp due
    obtain ⟨other, found⟩ := List.mem_iff_getElem?.mp member
    obtain ⟨thread, there, rfl⟩ := points_thread found
    refine ⟨other, thread, there, ?_, ?_⟩
    · cases flag : thread.flag with
      | false => rfl
      | true =>
          rw [detached other thread there flag] at awake
          cases awake
    · cases point : thread.point <;> simp [point, PoolPoint.due] at awake <;> rfl

/-- A thread keeps its flag while the destructor runs, and looks on unless it has moved on itself. -/
theorem sought_notifyOne {woken : Option Nat} (notified : pool.notifyOne woken = some next)
    (sought : ∃ (number : Nat) (thread : PoolThread Task), pool.threads[number]? = some thread ∧
      thread.flag = false ∧ thread.point.seeks = true) :
    ∃ (number : Nat) (thread : PoolThread Task), next.threads[number]? = some thread ∧
      thread.flag = false ∧ thread.point.seeks = true := by
  obtain ⟨number, thread, there, flag, seeks⟩ := sought
  rcases notifyOne_cases notified with ⟨other, sleeper, asleep, sleeps, rfl⟩ | ⟨-, rfl⟩
  · by_cases same : other = number
    · subst same
      cases there.symm.trans asleep
      exact ⟨other, _, Threads.set_self asleep, flag, rfl⟩
    · exact ⟨number, thread, (List.getElem?_set_ne same).trans there, flag, seeks⟩
  · exact ⟨number, thread, there, flag, seeks⟩

theorem sought_notifyAll (sought : ∃ (number : Nat) (thread : PoolThread Task), pool.threads[number]? = some thread ∧
      thread.flag = false ∧ thread.point.seeks = true) :
    ∃ (number : Nat) (thread : PoolThread Task), pool.notifyAll.threads[number]? = some thread ∧
      thread.flag = false ∧ thread.point.seeks = true := by
  obtain ⟨number, thread, there, flag, seeks⟩ := sought
  refine ⟨number, { thread with point := thread.point.wake }, ?_, flag, ?_⟩
  · rw [notifyAll, List.getElem?_map, there]
    rfl
  · cases point : thread.point with
    | leave found => cases found <;> simp_all [PoolPoint.seeks, PoolPoint.wake]
    | _ => simp_all [PoolPoint.seeks, PoolPoint.wake]

/-- What a thread does keeps a thread that looks for each queued task. -/
theorem Drains.turn (drains : pool.Drains) (there : pool.threads[number]? = some thread)
    (turn : Turn pool number thread label shared point) (queued : shared.queue ≠ []) :
    ∃ (other : Nat) (after : PoolThread Task), (shared.move number thread point).threads[other]? = some after ∧
      after.flag = false ∧ after.point.seeks = true := by
  have threads : (shared.move number thread point).threads = pool.threads.set number { thread with point := point } := by
    rw [move, turn.frame.1]
  have unflagged : thread.flag = false := by
    cases flag : thread.flag with
    | false => rfl
    | true =>
        have ended := drains.detached number thread there flag
        cases turn <;> simp_all
  rw [threads]
  have mine (seeks : point.seeks = true) : ∃ (other : Nat) (after : PoolThread Task),
      (pool.threads.set number { thread with point := point })[other]? = some after ∧ after.flag = false ∧
        after.point.seeks = true := ⟨number, _, Threads.set_self there, unflagged, seeks⟩
  have another (blind : thread.point.seeks = false) (queue : shared.queue = pool.queue) :
      ∃ (other : Nat) (after : PoolThread Task),
        (pool.threads.set number { thread with point := point })[other]? = some after ∧ after.flag = false ∧
          after.point.seeks = true := by
    obtain ⟨other, found, here, flag, seeks⟩ := drains.sought (queue ▸ queued)
    have different : number ≠ other := by
      rintro rfl
      cases there.symm.trans here
      rw [blind] at seeks
      cases seeks
    exact ⟨other, found, (List.getElem?_set_ne different).trans here, flag, seeks⟩
  cases turn with
  | testNone from_ queue => exact absurd queue queued
  | giveUp from_ | exit from_ => exact another (by rw [from_]; rfl) rfl
  | stop from_ flag => cases unflagged.symm.trans flag
  | _ => exact mine rfl

/-- Each orderly step of a pool that is being destroyed keeps a thread for the queued tasks. -/
theorem Drains.step (drains : pool.Drains) (sound : pool.Sound) (done : pool.isDone = true)
    (orderly : pool.orderly label = true) (taken : pool.step label = some next) : next.Drains := by
  have stopping : pool.owner.stopping = true := sound.staffed.stopping ▸ done
  have detached (number : Nat) (after : PoolThread Task) (found : next.threads[number]? = some after)
      (flag : after.flag = true) : after.point = .ended := by
    have old (before : PoolThread Task) (there : pool.threads[number]? = some before) (same : before.flag = after.flag) :
        after.point = .ended := by
      refine ended_step taken (List.getElem?_eq_some_iff.mp there).1 (fun other found' => ?_) found
      cases there.symm.trans found'
      exact drains.detached number before there (same.trans flag)
    cases step_changed taken found with
    | same there => exact old after there rfl
    | moved before shared label point there turn result => exact old before there (by rw [result])
    | woken before there sleeps result => exact old before there (by rw [result])
    | notified before present there pushing result => exact old before there (by rw [result])
    | flagged before count index owner slot there result =>
        rw [owner] at stopping
        cases stopping
    | created count growing new result =>
        rw [growing] at stopping
        cases stopping
  refine ⟨?_, detached, fun queued => ?_⟩
  · cases step_cases taken with
    | turn _ _ _ _ _ _ _ turn => exact turn.frame.2.2.2.1.trans drains.unnotified
    | push task alive => simp [TaskPool.orderly, stopping] at orderly
    | notify woken next pushed free alive notified => exact absurd drains.unnotified pushed
    | notifyInside number thread present woken next there point free alive notified =>
        rcases notifyOne_cases notified with ⟨_, _, _, _, rfl⟩ | ⟨_, rfl⟩ <;> exact drains.unnotified
    | _ => exact drains.unnotified
  · cases step_cases taken with
    | turn number thread label shared point there alive turn => exact drains.turn there turn queued
    | push task alive => simp [TaskPool.orderly, stopping] at orderly
    | notify woken next pushed free alive notified => exact absurd drains.unnotified pushed
    | notifyInside number thread present woken next there point free alive notified =>
        refine sought_notifyOne notified ⟨number, _, Threads.set_self there, ?_, rfl⟩
        cases flag : thread.flag with
        | false => rfl
        | true =>
            have ended := drains.detached number thread there flag
            rw [point] at ended
            cases ended
    | stopNotify point free => exact sought_notifyAll (drains.sought queued)
    | delete task rest point queue =>
        obtain ⟨number, thread, there, flag, seeks⟩ := drains.sought (by simp [queue])
        exact ⟨number, thread, there, flag, seeks⟩
    | cleared point queue => exact absurd queue queued
    | grow _ point | shrink _ point | unsized _ point | destroy point | create _ point | grown _ point | flag _ _ _ point
    | flagged _ _ point | shrunk _ point =>
        rw [point] at stopping
        cases stopping
    | _ => exact drains.sought queued

/-- A pool whose destructor is called in an orderly way drains. -/
def Ordered (pool : TaskPool Task) : Prop := pool.Sound ∧ (pool.isDone = true → pool.Drains)

theorem Ordered.step (ordered : pool.Ordered) (orderly : pool.orderly label = true)
    (taken : pool.step label = some next) : next.Ordered := by
  obtain ⟨sound, drains⟩ := ordered
  refine ⟨sound.step taken, fun after => ?_⟩
  cases done : pool.isDone with
  | true => exact (drains done).step sound done orderly taken
  | false =>
      cases step_cases taken with
      | turn _ _ _ _ _ _ _ turn => cases (turn.frame.2.2.1.trans done).symm.trans after
      | notifyInside _ _ _ _ _ _ _ _ _ notified | notify _ _ _ _ _ notified =>
          cases ((notifyOne_owner notified).2.1.trans done).symm.trans after
      | destroy idle => exact Drains.begin sound idle orderly rfl rfl rfl
      | _ => cases done.symm.trans after

/-- When the threads have been joined, no task is left. -/
theorem Ordered.empty (ordered : pool.Ordered) (point : pool.owner = .clearing ∨ pool.owner = .destroyed) :
    (∀ thread ∈ pool.threads, thread.point = .ended) ∧ pool.queue = [] := by
  obtain ⟨sound, drains⟩ := ordered
  have done : pool.isDone = true := by
    rw [sound.staffed.stopping]
    rcases point with point | point <;> (rw [point]; rfl)
  have drains := drains done
  have unflagged (number : Nat) (thread : PoolThread Task) (there : pool.threads[number]? = some thread)
      (flag : thread.flag = false) : thread.point = .ended := by
    rcases point with clearing | destroyed
    · have slot := (sound.staffed.flags (by simp [clearing]) number thread there).mp flag
      exact sound.joined.clearing clearing number (by simpa [kept, clearing] using slot) thread there
    · exact sound.joined.destroyed destroyed number thread there flag
  refine ⟨fun thread member => ?_, by_contra fun queued => ?_⟩
  · obtain ⟨number, there⟩ := List.mem_iff_getElem?.mp member
    cases flag : thread.flag with
    | true => exact drains.detached number thread there flag
    | false => exact unflagged number thread there flag
  · obtain ⟨number, thread, there, flag, seeks⟩ := drains.sought queued
    rw [unflagged number thread there flag] at seeks
    cases seeks

/-- A pool that is destroyed in an orderly way has completed all tasks that were posted, deleted none of them, and
has no thread left that could use it. -/
theorem destructor_completes_tasks (run : Execution.exec step (initial : TaskPool Task) labels = some pool)
    (orderly : Execution.Along step (fun pool label => pool.orderly label = true) initial labels)
    (destroyed : pool.owner = .destroyed) :
    (Execution.trace step completes initial labels).Perm (Execution.trace step pushes initial labels) ∧
      Execution.trace step deletes initial labels = [] ∧ ∀ thread ∈ pool.threads, thread.point = .ended := by
  have start : (initial : TaskPool Task).Ordered := ⟨initial_sound, fun done => by cases done⟩
  have ordered : pool.Ordered :=
    Execution.exec_invariant_along (fun _ _ _ holds guard taken => Ordered.step holds guard taken) start orderly run
  obtain ⟨ended, empty⟩ := ordered.empty (Or.inr destroyed)
  have kept : Execution.Along step (fun pool label => pool.deletes label = []) (initial : TaskPool Task) labels := by
    refine Execution.Along.of_invariant (fun _ _ _ holds guard taken => Ordered.step holds guard taken) ?_ start orderly
    intro pool label ordered _
    by_cases clearing : pool.owner = .clearing
    · have none := (ordered.empty (Or.inl clearing)).2
      unfold deletes
      split <;> simp [none]
    · exact deletes_eq_nil clearing
  refine ⟨?_, (Execution.trace_eq_nil run).mpr kept, ended⟩
  have none : pool.inHand = [] := by
    refine List.filterMap_eq_nil_iff.mpr fun point member => ?_
    obtain ⟨thread, found, rfl⟩ := List.mem_map.mp member
    rw [ended thread found]
    rfl
  have hand := taken_trace run
  rw [none, List.append_nil] at hand
  have order := popped_trace run
  rw [empty, List.append_nil, Execution.trace_append_nil kept] at order
  rw [← order]
  exact hand.symm

/-- A thread of the pool executes this many statements. -/
def threadSteps (number count : Nat) : List (PoolLabel Task) := List.replicate count (.thread number)

/-- Three threads are created, one of them runs the only task, and the owner joins them. -/
def drainingRun : List (PoolLabel Nat) :=
  List.replicate 4 .owner ++ [.push none 5, .notify none none, .thread 0, .destroy, .owner, .finish 0] ++
    threadSteps 0 6 ++ threadSteps 1 5 ++ threadSteps 2 5 ++ List.replicate 5 .owner

theorem destructor_completes_tasks_here : ∃ pool : TaskPool Nat,
    Execution.exec step initial drainingRun = some pool ∧
      (Execution.trace step completes initial drainingRun).Perm [5] ∧ ∀ thread ∈ pool.threads, thread.point = .ended := by
  have ends : (Execution.exec step initial drainingRun).map owner = some .destroyed := by decide
  have posted : Execution.trace step pushes initial drainingRun = [5] := by decide
  obtain ⟨pool, run, destroyed⟩ := Option.map_eq_some_iff.mp ends
  obtain ⟨completed, -, ended⟩ := destructor_completes_tasks run (by decide) destroyed
  exact ⟨pool, run, posted ▸ completed, ended⟩

/-- A thread that `setTaskThreadCount` has detached before its first statement is not joined. It looks for a task
in the pool that is destroyed. -/
theorem detached_thread_outlives_pool : ∃ pool : TaskPool Nat,
    Execution.exec step initial (List.replicate 4 .owner ++ [.setTaskThreadCount 2, .owner, .owner, .owner, .destroy,
      .owner] ++ threadSteps 0 5 ++ threadSteps 1 5 ++ List.replicate 4 .owner) = some pool ∧
      pool.owner = .destroyed ∧ pool.threads[2]? = some ⟨true, true, .pop⟩ ∧ (PoolPoint.pop : PoolPoint Nat).usesPool = true := by
  have ends : (Execution.exec step (initial : TaskPool Nat) (List.replicate 4 .owner ++ [.setTaskThreadCount 2, .owner,
      .owner, .owner, .destroy, .owner] ++ threadSteps 0 5 ++ threadSteps 1 5 ++ List.replicate 4 .owner)).map
        (fun pool => (pool.owner, pool.threads[2]?)) = some (.destroyed, some ⟨true, true, .pop⟩) := by decide
  obtain ⟨pool, run, same⟩ := Option.map_eq_some_iff.mp ends
  obtain ⟨destroyed, there⟩ := Prod.mk.inj same
  exact ⟨pool, run, destroyed, there, rfl⟩

end TaskPool

end Dtel
