import Dtel.Proof.Task.Crew

namespace Dtel

/-- The statements that a thread executes at most before it ends or sleeps, with the wake-up that a notification
of its own may cause. -/
def PoolPoint.rank {Task : Type} : PoolPoint Task → Nat
  | .pushing _ => 12
  | .leave (some _) => 8
  | .running _ => 7
  | .returned => 6
  | .pop => 5
  | .lock | .woken => 4
  | .test => 3
  | .check => 2
  | .leave none => 1
  | .blocked | .ended => 0

/-- The pool takes this step on its own: a thread goes on, a function returns, a client notifies, the owner goes on. -/
def PoolLabel.work {Task : Type} : PoolLabel Task → Nat
  | .thread _ | .finish _ | .notify .. | .owner => 1
  | _ => 0

/-- A posted task brings this work, and a wake-up without a notification. -/
def PoolLabel.cost {Task : Type} : PoolLabel Task → Nat
  | .push .. => 11
  | .spurious _ => 4
  | _ => 0

/-- The owner calls no function of the pool. -/
def PoolLabel.unowned {Task : Type} : PoolLabel Task → Prop
  | .setTaskThreadCount _ | .destroy => False
  | _ => True

namespace TaskPool

variable {Task : Type} {pool next shared : TaskPool Task} {number : Nat} {thread : PoolThread Task}
  {label : PoolLabel Task} {labels : List (PoolLabel Task)} {point : PoolPoint Task}

/-- The work that the present call of the owner brings. -/
def ownerWork (pool : TaskPool Task) : Nat :=
  match pool.owner with
  | .idle | .destroyed => 0
  | .growing count => 6 * (count - pool.slots.length) + 1
  | .shrinking _ index => index + 4 * pool.threads.length + 2
  | .shrinkNotify _ => 4 * pool.threads.length + 1
  | .stopNotify => 4 * pool.threads.length + pool.slots.length + 3
  | .joining index => pool.slots.length - index + 2
  | .clearing => 1

/-- The work that is left for the pool when nothing more is posted. -/
def workLeft (pool : TaskPool Task) : Nat :=
  Threads.weight PoolPoint.rank pool.points + 6 * pool.queue.length + 5 * pool.unnotified + pool.ownerWork

theorem turn_pays (there : pool.threads[number]? = some thread) (turn : Turn pool number thread label shared point) :
    (shared.move number thread point).workLeft + label.work ≤ pool.workLeft + label.cost := by
  have moved := Threads.weight_set PoolPoint.rank point (points_there there)
  obtain ⟨threads, slots, -, unnotified, owner⟩ := turn.frame
  have owned : (shared.move number thread point).ownerWork = pool.ownerWork := by
    simp only [ownerWork, move, slots, owner, threads, List.length_set]
  have same : (shared.move number thread point).unnotified = pool.unnotified := unnotified
  rw [workLeft, workLeft, owned, same, move_points, turn.points]
  change _ + 6 * shared.queue.length + _ + _ + _ ≤ _
  cases turn with
  | popNone from_ queue | testNone from_ queue | popTask _ _ from_ queue | testTask _ _ from_ queue =>
      simp only [from_, PoolPoint.rank, queue, List.length_cons, List.length_nil, PoolLabel.work, PoolLabel.cost]
        at moved ⊢
      omega
  | push present task from_ =>
      simp only [from_, PoolPoint.rank, List.length_append, List.length_singleton, PoolLabel.work, PoolLabel.cost]
        at moved ⊢
      omega
  | stop from_ | again from_ | lock from_ | giveUp from_ | block from_ | relock from_ | resume _ from_ | exit from_
  | finish _ from_ | spurious from_ =>
      simp only [from_, PoolPoint.rank, PoolLabel.work, PoolLabel.cost] at moved ⊢
      omega

/-- A notification wakes at most one thread. -/
theorem notifyOne_work {woken : Option Nat} (notified : pool.notifyOne woken = some next) :
    next.workLeft ≤ pool.workLeft + 4 := by
  rcases notifyOne_cases notified with ⟨number, thread, there, sleeps, rfl⟩ | ⟨-, rfl⟩
  · have moved := Threads.weight_set PoolPoint.rank .woken (points_there there)
    have owned : (pool.move number thread .woken).ownerWork = pool.ownerWork := by
      simp only [ownerWork, move, List.length_set]
    simp only [sleeps, PoolPoint.rank] at moved
    rw [workLeft, workLeft, owned, move_points]
    change _ + 6 * pool.queue.length + 5 * pool.unnotified + _ ≤ _
    omega
  · exact Nat.le_add_right _ _

theorem notifyAll_work (pool : TaskPool Task) :
    Threads.weight PoolPoint.rank pool.notifyAll.points ≤
      Threads.weight PoolPoint.rank pool.points + 4 * pool.threads.length := by
  have each (point : PoolPoint Task) : point.wake.rank ≤ point.rank + 4 := by
    cases point <;> simp [PoolPoint.wake, PoolPoint.rank]
  have all : Threads.weight PoolPoint.rank (pool.points.map PoolPoint.wake) ≤ _ := Threads.weight_map_le PoolPoint.rank PoolPoint.wake 4 each
  have length : pool.points.length = pool.threads.length := List.length_map ..
  rw [notifyAll_points, ← length]
  exact all

/-- Each step pays for its work. -/
theorem step_pays (unowned : label.unowned) (taken : pool.step label = some next) :
    next.workLeft + label.work ≤ pool.workLeft + label.cost := by
  cases step_cases taken with
  | turn number thread label shared point there alive turn => exact turn_pays there turn
  | push task alive =>
      have owned : ({ pool with queue := pool.queue ++ [task], unnotified := pool.unnotified + 1 } :
        TaskPool Task).ownerWork = pool.ownerWork := rfl
      have same : ({ pool with queue := pool.queue ++ [task], unnotified := pool.unnotified + 1 } :
        TaskPool Task).points = pool.points := rfl
      rw [workLeft, workLeft, owned, same, List.length_append]
      simp only [List.length_singleton, PoolLabel.work, PoolLabel.cost]
      omega
  | notifyInside number thread present woken next there point free alive notified =>
      have woke := notifyOne_work notified
      have moved := Threads.weight_set PoolPoint.rank (PoolPoint.running present) (points_there there)
      have owned : (pool.move number thread (.running present)).ownerWork = pool.ownerWork := by
        simp only [ownerWork, move, List.length_set]
      have left : (pool.move number thread (.running present)).workLeft + 5 = pool.workLeft := by
        simp only [point, PoolPoint.rank] at moved
        rw [workLeft, workLeft, owned, move_points]
        change _ + 6 * pool.queue.length + 5 * pool.unnotified + _ + 5 = _
        omega
      simp only [PoolLabel.work, PoolLabel.cost]
      omega
  | notify woken next pushed free alive notified =>
      have woke := notifyOne_work notified
      have left : ({ pool with unnotified := pool.unnotified - 1 } : TaskPool Task).workLeft + 5 = pool.workLeft := by
        change _ + 6 * pool.queue.length + 5 * (pool.unnotified - 1) + pool.ownerWork + 5 =
          _ + 6 * pool.queue.length + 5 * pool.unnotified + pool.ownerWork
        simp only [points]
        omega
      simp only [PoolLabel.work, PoolLabel.cost]
      omega
  | grow | shrink | unsized | destroy => cases unowned
  | create count point more =>
      have added : ({ pool with
          threads := pool.threads ++ [⟨false, false, .pop⟩]
          slots := pool.slots ++ [pool.threads.length] } : TaskPool Task).points = pool.points ++ [.pop] := by
        simp [points]
      rw [workLeft, workLeft, added, Threads.weight_append, Threads.weight_singleton]
      simp only [ownerWork, point, List.length_append, List.length_singleton, PoolPoint.rank, PoolLabel.work,
        PoolLabel.cost]
      omega
  | flag count index number point more slot =>
      have same : ({ pool with
          threads := pool.threads.modify number fun thread => { thread with flag := true, detached := true }
          owner := .shrinking count index } : TaskPool Task).points = pool.points := flag_points _ _
      rw [workLeft, workLeft, same]
      simp only [ownerWork, point, List.length_modify, PoolLabel.work, PoolLabel.cost]
      omega
  | shrunk count point free | stopNotify point free =>
      have woke := notifyAll_work pool
      rw [workLeft, workLeft]
      simp only [ownerWork, point, PoolLabel.work, PoolLabel.cost]
      simp only [points, notifyAll] at woke ⊢
      omega
  | join index number thread point slot there ended =>
      have below : index < pool.slots.length := (List.getElem?_eq_some_iff.mp slot).1
      simp only [workLeft, ownerWork, point, PoolLabel.work, PoolLabel.cost, points]
      omega
  | joined index point all =>
      simp only [workLeft, ownerWork, point, PoolLabel.work, PoolLabel.cost, points]
      omega
  | delete task rest point queue =>
      simp only [workLeft, ownerWork, point, queue, List.length_cons, PoolLabel.work, PoolLabel.cost, points]
      omega
  | grown count point all | flagged count index point all | cleared point queue =>
      simp only [workLeft, ownerWork, point, PoolLabel.work, PoolLabel.cost, points]
      omega

section Rest

/-- The pool has no step of its own: it waits for a task, for a wake-up or for its owner. -/
def AtRest (pool : TaskPool Task) : Prop := ∀ label : PoolLabel Task, label.work = 1 → pool.step label = none

/-- Some thread can be woken, or none sleeps. -/
theorem notifyOne_enabled (pool : TaskPool Task) : ∃ woken next, pool.notifyOne woken = some next := by
  by_cases sleeps : pool.threads.any (fun thread => thread.point.sleeps) = true
  · obtain ⟨thread, member, asleep⟩ := List.any_eq_true.mp sleeps
    obtain ⟨number, there⟩ := List.mem_iff_getElem?.mp member
    refine ⟨some number, pool.move number thread .woken, ?_⟩
    simp only [notifyOne, there]
    rw [if_pos asleep]
  · exact ⟨none, pool, if_neg sleeps⟩

theorem thread_taken (there : pool.threads[number]? = some thread) (alive : pool.owner ≠ .destroyed) :
    pool.step (.thread number) = pool.threadStep number thread := by
  simp only [step, there]
  exact if_neg fun dead => alive dead.1

/-- A pool at rest has its mutex free. -/
theorem AtRest.free (rest : pool.AtRest) (locked : pool.Locked) (alive : pool.owner ≠ .destroyed) :
    pool.mutex = none := by
  cases mutex : pool.mutex with
  | none => rfl
  | some number =>
      obtain ⟨point, found, holds⟩ := (locked number).mp mutex
      obtain ⟨thread, there, rfl⟩ := points_thread found
      have stuck := rest (.thread number) rfl
      rw [thread_taken there alive] at stuck
      unfold threadStep at stuck
      cases point : thread.point with
      | test => cases queue : pool.queue <;> simp [point, queue] at stuck
      | check =>
          simp only [point] at stuck
          split at stuck <;> cases stuck
      | leave found => cases found <;> simp [point] at stuck
      | _ => simp [point, PoolPoint.holds] at holds

/-- A thread of a pool at rest sleeps or has ended. -/
theorem AtRest.points (rest : pool.AtRest) (locked : pool.Locked) (alive : pool.owner ≠ .destroyed)
    (there : pool.threads[number]? = some thread) : thread.point = .blocked ∨ thread.point = .ended := by
  have free := rest.free locked alive
  have stuck := rest (.thread number) rfl
  rw [thread_taken there alive] at stuck
  unfold threadStep at stuck
  have unlocked := locked.free free (List.mem_of_getElem? (points_there there))
  cases point : thread.point with
  | blocked => exact Or.inl rfl
  | ended => exact Or.inr rfl
  | pop => cases queue : pool.queue <;> simp [point, queue] at stuck
  | returned => simp [point] at stuck
  | lock | woken => simp [point, free] at stuck
  | test | check | leave => simp [point, PoolPoint.holds] at unlocked
  | running task =>
      have unfinished := rest (.finish number) rfl
      simp [step, there, functionStep, point] at unfinished
  | pushing task =>
      obtain ⟨woken, next, notified⟩ := notifyOne_enabled (pool.move number thread (.running task))
      have silent := rest (.notify (some number) woken) rfl
      simp only [step, notify, free, there, point] at silent
      rw [if_pos ⟨trivial, alive⟩, notified] at silent
      cases silent

/-- No other client is about to notify a pool at rest. -/
theorem AtRest.unnotified (rest : pool.AtRest) (locked : pool.Locked) (alive : pool.owner ≠ .destroyed) :
    pool.unnotified = 0 := by
  by_contra pushed
  obtain ⟨woken, next, notified⟩ := notifyOne_enabled { pool with unnotified := pool.unnotified - 1 }
  have silent := rest (.notify none woken) rfl
  simp only [step, notify] at silent
  rw [if_pos ⟨rest.free locked alive, alive⟩, if_neg pushed, notified] at silent
  cases silent

/-- The owner of a pool at rest is in no call of the pool. -/
theorem AtRest.owner (rest : pool.AtRest) (sound : pool.Sound) : pool.owner = .idle ∨ pool.owner = .destroyed := by
  by_cases alive : pool.owner = .destroyed
  · exact Or.inr alive
  have free := rest.free sound.locked alive
  have stuck : pool.ownerStep = none := rest .owner rfl
  unfold ownerStep at stuck
  cases point : pool.owner with
  | idle => exact Or.inl rfl
  | destroyed => exact Or.inr rfl
  | growing count =>
      simp only [point] at stuck
      split at stuck <;> cases stuck
  | shrinking count index =>
      simp only [point] at stuck
      split at stuck
      case isFalse => cases stuck
      case isTrue more =>
          obtain ⟨-, within⟩ := sound.staffed.shrinking count index point
          have below : index - 1 < pool.slots.length := by omega
          rw [List.getElem?_eq_getElem below] at stuck
          cases stuck
  | shrinkNotify count | stopNotify => simp [point, free] at stuck
  | clearing => cases queue : pool.queue <;> simp [point, queue] at stuck
  | joining index =>
      simp only [point] at stuck
      split at stuck
      case h_1 => cases stuck
      case h_2 number slot =>
          have below := sound.staffed.bounded number (List.mem_of_getElem? slot)
          have there : pool.threads[number]? = some pool.threads[number] := List.getElem?_eq_getElem below
          rw [there] at stuck
          rcases rest.points sound.locked alive there with asleep | ended
          · have done : pool.isDone = true := by
              rw [sound.staffed.stopping, point]
              rfl
            -- The notification of `stop` has woken all threads that slept.
            have waiting := (sound.told number _ there asleep).2 done
            rw [point] at waiting
            cases waiting
          · simp [hasEnded_iff.mpr ended] at stuck

/-- A pool at rest has run all its tasks if it has a thread. -/
theorem AtRest.idle (rest : pool.AtRest) (sound : pool.Sound) (idle : pool.owner = .idle) :
    (∀ thread ∈ pool.threads, thread.flag = true → thread.point = .ended) ∧
      pool.inHand = [] ∧ (pool.slots ≠ [] → pool.queue = []) := by
  have alive : pool.owner ≠ .destroyed := by simp [idle]
  have asleep (point : PoolPoint Task) (member : point ∈ pool.points) : point = .blocked ∨ point = .ended := by
    obtain ⟨number, found⟩ := List.mem_iff_getElem?.mp member
    obtain ⟨thread, there, rfl⟩ := points_thread found
    exact rest.points sound.locked alive there
  refine ⟨fun thread member flag => ?_, ?_, fun some => ?_⟩
  · obtain ⟨number, there⟩ := List.mem_iff_getElem?.mp member
    rcases rest.points sound.locked alive there with sleeps | ended
    · have flagging := (sound.told number thread there sleeps).1 flag
      rw [idle] at flagging
      cases flagging
    · exact ended
  · refine List.filterMap_eq_nil_iff.mpr fun point member => ?_
    rcases asleep point member with rfl | rfl <;> rfl
  · obtain ⟨number, slot⟩ := List.exists_mem_of_ne_nil _ some
    have below := sound.staffed.bounded number slot
    have there : pool.threads[number]? = Option.some pool.threads[number] := List.getElem?_eq_getElem below
    have kept : number ∈ pool.kept := by simpa [kept, idle] using slot
    have unflagged := (sound.staffed.flags alive number _ there).mpr kept
    have undone : pool.isDone = false := by
      rw [sound.staffed.stopping, idle]
      rfl
    have sleeps := (rest.points sound.locked alive there).resolve_right
      (sound.lasting number _ there unflagged undone).1
    have few := sound.alert ⟨_, List.mem_of_getElem? (points_there there), by rw [sleeps]; rfl⟩
    have none : pool.points.countP PoolPoint.due = 0 := by
      refine List.countP_eq_zero.mpr fun point member => ?_
      rcases asleep point member with rfl | rfl <;> simp [PoolPoint.due]
    rw [dueCount, none, rest.unnotified sound.locked alive] at few
    exact List.eq_nil_of_length_eq_zero (Nat.le_zero.mp few)

end Rest

/-- Between two calls of its owner, the pool executes no more statements than its work and that of the tasks which
are posted. When it has none left, a call of the destructor has returned. In a pool that is not destroyed all tasks
have then run if it has a thread, and the threads that were told to stop have ended. -/
theorem pool_settles (run : Execution.exec step (initial : TaskPool Task) labels = some pool) :
    (∀ later final, Execution.exec step pool later = some final → (∀ label ∈ later, label.unowned) →
      (later.map PoolLabel.work).sum ≤ pool.workLeft + (later.map PoolLabel.cost).sum) ∧
    (pool.AtRest → (pool.isDone = true → pool.owner = .destroyed) ∧
      (pool.isDone = false → pool.owner = .idle ∧ pool.unnotified = 0 ∧ pool.inHand = [] ∧
        (pool.slots ≠ [] → pool.queue = []) ∧ ∀ thread ∈ pool.threads, thread.flag = true → thread.point = .ended)) := by
  have sound := reachable_sound run
  constructor
  · intro later final run unowned
    have guarded : Execution.Along step (fun _ label => label.unowned) pool later :=
      Execution.Along.of_forall fun label member _ => unowned label member
    have paid := Execution.exec_amortized (fun _ _ _ unowned taken => step_pays unowned taken) guarded run
    exact Nat.le_trans (Nat.le_add_left _ _) paid
  · intro rest
    have stopping := sound.staffed.stopping
    rcases rest.owner sound with idle | destroyed
    · obtain ⟨ended, hand, queue⟩ := rest.idle sound idle
      rw [idle] at stopping
      refine ⟨fun done => ?_, fun _ => ⟨idle, rest.unnotified sound.locked (by simp [idle]), hand, queue, ended⟩⟩
      rw [stopping] at done
      cases done
    · rw [destroyed] at stopping
      refine ⟨fun _ => destroyed, fun undone => ?_⟩
      rw [stopping] at undone
      cases undone

/-- Three new threads and one task bring at most 26 statements. -/
theorem pool_settles_here : ∃ pool : TaskPool Nat,
    Execution.exec step initial [.owner, .owner, .owner, .owner, .push none 7] = some pool ∧
      ∀ later final, Execution.exec step pool later = some final → (∀ label ∈ later, label.unowned) →
        (later.map PoolLabel.work).sum ≤ 26 + (later.map PoolLabel.cost).sum := by
  have ends : (Execution.exec step (initial : TaskPool Nat) [.owner, .owner, .owner, .owner, .push none 7]).map
      workLeft = some 26 := by decide
  obtain ⟨pool, run, left⟩ := Option.map_eq_some_iff.mp ends
  exact ⟨pool, run, left ▸ (pool_settles run).1⟩

end TaskPool

end Dtel
