import Dtel.Proof.Task.Wake

namespace Dtel

namespace PoolOwner

/-- The destructor has set `isDone`. -/
def stopping : PoolOwner → Bool
  | .stopNotify | .joining _ | .clearing | .destroyed => true
  | _ => false

/-- `resize` sets flags, and has not notified the threads. -/
def flagging : PoolOwner → Bool
  | .shrinking .. | .shrinkNotify _ => true
  | _ => false

end PoolOwner

namespace TaskPool

variable {Task : Type} {pool next shared : TaskPool Task} {number : Nat} {thread : PoolThread Task}
  {label : PoolLabel Task} {labels : List (PoolLabel Task)} {point : PoolPoint Task}

/-- The numbers of the threads whose flags `resize` has not set. -/
def kept (pool : TaskPool Task) : List Nat :=
  match pool.owner with
  | .shrinking _ index => pool.slots.take index
  | .shrinkNotify count => pool.slots.take count
  | _ => pool.slots

section Threads

/-- This change leaves each thread, or lets it move, or sets its flag, or adds a thread. -/
inductive Changed (pool : TaskPool Task) (number : Nat) (after : PoolThread Task) : Prop where
  | same (there : pool.threads[number]? = some after)
  | moved (before : PoolThread Task) (shared : TaskPool Task) (label : PoolLabel Task) (point : PoolPoint Task)
      (there : pool.threads[number]? = some before) (turn : Turn pool number before label shared point)
      (result : after = { before with point := point })
  | woken (before : PoolThread Task) (there : pool.threads[number]? = some before) (sleeps : before.point = .blocked)
      (result : after = { before with point := .woken })
  | notified (before : PoolThread Task) (present : Task) (there : pool.threads[number]? = some before)
      (pushing : before.point = .pushing present) (result : after = { before with point := .running present })
  | flagged (before : PoolThread Task) (count index : Nat) (owner : pool.owner = .shrinking count (index + 1))
      (slot : pool.slots[index]? = some number) (there : pool.threads[number]? = some before)
      (result : after = { before with flag := true, detached := true })
  | created (count : Nat) (owner : pool.owner = .growing count) (new : number = pool.threads.length)
      (result : after = ⟨false, false, .pop⟩)

theorem changed_move {after : PoolThread Task} {next : TaskPool Task}
    (moved : Changed pool number { thread with point := point })
    (others : ∀ other found, pool.threads[other]? = some found → Changed pool other found)
    (threads : next.threads = pool.threads.set number { thread with point := point }) {other : Nat}
    (found : next.threads[other]? = some after) : Changed pool other after := by
  rw [threads] at found
  rcases Threads.set_cases found with ⟨rfl, rfl⟩ | ⟨-, old⟩
  · exact moved
  · exact others other after old

/-- A thread behind a wake-up. -/
theorem notifyAll_there {other : Nat} {after : PoolThread Task} (found : pool.notifyAll.threads[other]? = some after) :
    Changed pool other after ∧ after.point ≠ .blocked := by
  rw [notifyAll, List.getElem?_map] at found
  obtain ⟨before, there, rfl⟩ := Option.map_eq_some_iff.mp found
  by_cases sleeps : before.point = .blocked
  · have awake : before.point.wake = .woken := by
      rw [sleeps]
      rfl
    exact ⟨.woken before there sleeps (by rw [awake]), by simp [awake]⟩
  · rw [PoolPoint.wake_of_ne sleeps]
    exact ⟨.same there, sleeps⟩

/-- What one step does to each thread. -/
theorem step_changed (taken : pool.step label = some next) {other : Nat} {after : PoolThread Task}
    (found : next.threads[other]? = some after) : Changed pool other after := by
  have kept : ∀ other found, pool.threads[other]? = some found → Changed pool other found := fun _ _ => .same
  cases step_cases taken with
  | turn number thread label shared point there alive turn =>
      refine changed_move (.moved thread shared label point there turn rfl) kept ?_ found
      rw [move, turn.frame.1]
  | notifyInside number thread present woken next there point free alive notified =>
      have mine : Changed pool number { thread with point := .running present } :=
        .notified thread present there point rfl
      rcases notifyOne_cases notified with ⟨sleeper, sleeping, asleep, sleeps, rfl⟩ | ⟨-, rfl⟩
      · rcases Threads.set_cases found with ⟨rfl, rfl⟩ | ⟨-, old⟩
        · rcases Threads.set_cases asleep with ⟨rfl, rfl⟩ | ⟨-, asleep⟩
          · cases sleeps
          · exact .woken sleeping asleep sleeps rfl
        · exact changed_move mine kept rfl old
      · exact changed_move mine kept rfl found
  | notify woken next pushed free alive notified =>
      rcases notifyOne_cases notified with ⟨sleeper, sleeping, asleep, sleeps, rfl⟩ | ⟨-, rfl⟩
      · rcases Threads.set_cases found with ⟨rfl, rfl⟩ | ⟨-, old⟩
        · exact .woken sleeping asleep sleeps rfl
        · exact .same old
      · exact .same found
  | create count point more =>
      rcases Nat.lt_or_ge other pool.threads.length with old | new
      · rw [List.getElem?_append_left old] at found
        exact .same found
      · have last : other = pool.threads.length := by
          have below := (List.getElem?_eq_some_iff.mp found).1
          rw [List.length_append, List.length_singleton] at below
          omega
        rw [last, List.getElem?_concat_length] at found
        exact .created count point last (Option.some.inj found).symm
  | flag count index number point more slot =>
      rw [List.getElem?_modify] at found
      obtain ⟨before, there, rfl⟩ := Option.map_eq_some_iff.mp found
      by_cases same : number = other
      · subst same
        rw [if_pos rfl]
        exact .flagged before count index point slot there rfl
      · rw [if_neg same]
        exact .same there
  | shrunk count point free | stopNotify point free => exact (notifyAll_there found).1
  | _ => exact .same found

end Threads

section Flags

/-- The slots hold different threads, and the flags tell which of them are kept. -/
structure Staffed (pool : TaskPool Task) : Prop where
  distinct : pool.slots.Nodup
  bounded : ∀ number ∈ pool.slots, number < pool.threads.length
  flags : pool.owner ≠ .destroyed → ∀ (number : Nat) (thread : PoolThread Task), pool.threads[number]? = some thread →
    (thread.flag = false ↔ number ∈ pool.kept)
  stopping : pool.isDone = pool.owner.stopping
  growing : ∀ count, pool.owner = .growing count → pool.slots.length ≤ count
  shrinking : ∀ count index, pool.owner = .shrinking count index → count ≤ index ∧ index ≤ pool.slots.length

/-- A step that changes neither flags nor slots keeps the staff. -/
theorem Staffed.unchanged (staffed : pool.Staffed) (slots : next.slots = pool.slots)
    (threads : next.threads.length = pool.threads.length)
    (flags : ∀ (number : Nat) (after : PoolThread Task), next.threads[number]? = some after →
      ∃ before, pool.threads[number]? = some before ∧ before.flag = after.flag)
    (kept : next.owner ≠ .destroyed → pool.owner ≠ .destroyed ∧ next.kept = pool.kept)
    (stopping : next.isDone = next.owner.stopping)
    (growing : ∀ count, next.owner = .growing count → pool.slots.length ≤ count)
    (shrinking : ∀ count index, next.owner = .shrinking count index → count ≤ index ∧ index ≤ pool.slots.length) :
    next.Staffed where
  distinct := slots ▸ staffed.distinct
  bounded number member := by
    rw [threads]
    exact staffed.bounded number (slots ▸ member)
  flags alive number after found := by
    obtain ⟨before, there, same⟩ := flags number after found
    obtain ⟨lives, list⟩ := kept alive
    rw [← same, list]
    exact staffed.flags lives number before there
  stopping := stopping
  growing count point := slots ▸ growing count point
  shrinking count index point := slots ▸ shrinking count index point

/-- A change of the points alone keeps the staff. -/
theorem Staffed.points (staffed : pool.Staffed) (slots : next.slots = pool.slots)
    (threads : next.threads.length = pool.threads.length)
    (flags : ∀ (number : Nat) (after : PoolThread Task), next.threads[number]? = some after →
      ∃ before, pool.threads[number]? = some before ∧ before.flag = after.flag)
    (done : next.isDone = pool.isDone) (owner : next.owner = pool.owner) : next.Staffed := by
  refine staffed.unchanged slots threads flags (fun alive => ⟨owner ▸ alive, ?_⟩) ?_ ?_ ?_
  · simp only [kept, owner, slots]
  · rw [done, owner]
    exact staffed.stopping
  · rw [owner]
    exact staffed.growing
  · rw [owner]
    exact staffed.shrinking

/-- A change of the owner alone keeps the staff when the same threads are kept. -/
theorem Staffed.owned (staffed : pool.Staffed) (owner : PoolOwner) (done : Bool) (queue : List Task)
    (lives : pool.owner ≠ .destroyed) (same : ({ pool with isDone := done, owner := owner, queue := queue } : TaskPool Task).kept = pool.kept)
    (stopping : done = owner.stopping) (growing : ∀ count, owner = .growing count → pool.slots.length ≤ count)
    (shrinking : ∀ count index, owner = .shrinking count index → count ≤ index ∧ index ≤ pool.slots.length) :
    ({ pool with isDone := done, owner := owner, queue := queue } : TaskPool Task).Staffed :=
  staffed.unchanged rfl rfl (fun _ after found => ⟨after, found, rfl⟩) (fun _ => ⟨lives, same⟩) stopping growing shrinking

theorem Staffed.move {after : PoolPoint Task} (staffed : pool.Staffed) (there : pool.threads[number]? = some thread) :
    (pool.move number thread after).Staffed := by
  refine staffed.points rfl (List.length_set ..) (fun other found there' => ?_) rfl rfl
  rcases Threads.set_cases there' with ⟨rfl, rfl⟩ | ⟨-, old⟩
  · exact ⟨thread, there, rfl⟩
  · exact ⟨found, old, rfl⟩

theorem Staffed.notifyOne {woken : Option Nat} (staffed : pool.Staffed) (notified : pool.notifyOne woken = some next) :
    next.Staffed := by
  rcases notifyOne_cases notified with ⟨number, thread, there, -, rfl⟩ | ⟨-, rfl⟩
  · exact staffed.move there
  · exact staffed

theorem notifyAll_flags {other : Nat} {after : PoolThread Task} (found : pool.notifyAll.threads[other]? = some after) :
    ∃ before, pool.threads[other]? = some before ∧ before.flag = after.flag := by
  rw [notifyAll, List.getElem?_map] at found
  obtain ⟨before, there, rfl⟩ := Option.map_eq_some_iff.mp found
  exact ⟨before, there, rfl⟩

theorem notifyAll_length (pool : TaskPool Task) : pool.notifyAll.threads.length = pool.threads.length :=
  List.length_map ..

/-- Each step keeps the staff. -/
theorem Staffed.step (staffed : pool.Staffed) (taken : pool.step label = some next) : next.Staffed := by
  cases step_cases taken with
  | turn number thread label shared point there alive turn =>
      obtain ⟨threads, slots, done, -, owner⟩ := turn.frame
      have base : shared.Staffed :=
        staffed.points slots (by rw [threads]) (fun other found there' => ⟨found, threads ▸ there', rfl⟩) done owner
      exact base.move (threads ▸ there)
  | notifyInside number thread present woken next there point free alive notified =>
      exact (staffed.move there).notifyOne notified
  | notify woken next pushed free alive notified =>
      have fewer : ({ pool with unnotified := pool.unnotified - 1 } : TaskPool Task).Staffed :=
        staffed.points rfl rfl (fun _ found there => ⟨found, there, rfl⟩) rfl rfl
      exact fewer.notifyOne notified
  | push task alive => exact staffed.points rfl rfl (fun _ found there => ⟨found, there, rfl⟩) rfl rfl
  | unsized count idle done => exact staffed
  | grow count idle done more =>
      refine staffed.owned (.growing count) pool.isDone pool.queue (by simp [idle]) (by simp [kept, idle]) done ?_ (by simp)
      rintro _ ⟨⟩
      exact more
  | shrink count idle done fewer =>
      refine staffed.owned (.shrinking count pool.slots.length) pool.isDone pool.queue (by simp [idle])
        (by simp [kept, idle]) done (by simp) ?_
      rintro _ _ ⟨⟩
      exact ⟨Nat.le_of_lt fewer, Nat.le_refl _⟩
  | destroy idle done =>
      exact staffed.owned .stopNotify true pool.queue (by simp [idle]) (by simp [kept, idle]) rfl (by simp) (by simp)
  | create count point more =>
      have bound := staffed.bounded
      refine ⟨?_, ?_, fun alive number thread found => ?_, ?_, ?_, ?_⟩
      · refine List.nodup_append.mpr ⟨staffed.distinct, List.nodup_cons.mpr ⟨by simp, List.nodup_nil⟩, ?_⟩
        rintro old member new last rfl
        exact Nat.lt_irrefl _ (List.mem_singleton.mp last ▸ bound old member)
      · intro number member
        rw [List.length_append, List.length_singleton]
        rcases List.mem_append.mp member with old | new
        · exact Nat.lt_succ_of_lt (bound number old)
        · rw [List.mem_singleton.mp new]
          exact Nat.lt_succ_self _
      · have here : ({ pool with
            threads := pool.threads ++ [⟨false, false, .pop⟩]
            slots := pool.slots ++ [pool.threads.length] } : TaskPool Task).kept =
              pool.slots ++ [pool.threads.length] := by simp [kept, point]
        have before : pool.kept = pool.slots := by simp [kept, point]
        rw [here]
        rcases Nat.lt_or_ge number pool.threads.length with old | new
        · rw [List.getElem?_append_left old] at found
          rw [staffed.flags alive number thread found, before, List.mem_append, List.mem_singleton]
          exact ⟨Or.inl, fun member => member.resolve_right (Nat.ne_of_lt old)⟩
        · have below := (List.getElem?_eq_some_iff.mp found).1
          rw [List.length_append, List.length_singleton] at below
          have last : number = pool.threads.length := by omega
          subst last
          rw [List.getElem?_concat_length] at found
          cases found
          simp
      · exact staffed.stopping
      · intro limit same
        cases point.symm.trans same
        rw [List.length_append, List.length_singleton]
        exact more
      · intro limit index same
        cases point.symm.trans same
  | grown count point all =>
      exact staffed.owned .idle pool.isDone pool.queue (by simp [point]) (by simp [kept, point])
        (by rw [staffed.stopping, point]; rfl) (by simp) (by simp)
  | flag count index number point more slot =>
      obtain ⟨-, within⟩ := staffed.shrinking count (index + 1) point
      have before : pool.kept = pool.slots.take index ++ [number] := by
        simp only [kept, point]
        rw [List.take_add_one, slot]
        rfl
      refine ⟨staffed.distinct, fun other member => ?_, fun alive other after found => ?_, ?_, by simp, ?_⟩
      · rw [List.length_modify]
        exact staffed.bounded other member
      · change after.flag = false ↔ other ∈ pool.slots.take index
        rw [List.getElem?_modify] at found
        obtain ⟨old, there, rfl⟩ := Option.map_eq_some_iff.mp found
        have flags := staffed.flags (by simp [point]) other old there
        rw [before, List.mem_append, List.mem_singleton] at flags
        by_cases same : number = other
        · subst same
          have apart : number ∉ pool.slots.take index := by
            have distinct : (pool.slots.take index ++ [number]).Nodup := by
              have part : (pool.slots.take (index + 1)).Nodup := staffed.distinct.sublist (List.take_sublist ..)
              rwa [List.take_add_one, slot] at part
            exact fun member => (List.nodup_append.mp distinct).2.2 _ member _ (List.mem_singleton_self _) rfl
          simp [apart]
        · rw [if_neg same]
          exact flags.trans ⟨fun member => member.resolve_right (Ne.symm same), Or.inl⟩
      · rw [staffed.stopping, point]
        rfl
      · rintro _ _ ⟨⟩
        exact ⟨more, Nat.le_of_succ_le within⟩
  | flagged count index point all =>
      obtain ⟨lower, -⟩ := staffed.shrinking count index point
      have same : count = index := Nat.le_antisymm lower all
      exact staffed.owned (.shrinkNotify count) pool.isDone pool.queue (by simp [point]) (by simp [kept, point, same])
        (by rw [staffed.stopping, point]; rfl) (by simp) (by simp)
  | shrunk count point free =>
      have before : pool.kept = pool.slots.take count := by simp [kept, point]
      refine ⟨staffed.distinct.sublist (List.take_sublist ..), fun number member => ?_, fun alive number after found => ?_,
        ?_, by simp, by simp⟩
      · exact (notifyAll_length pool).symm ▸ staffed.bounded number (List.mem_of_mem_take member)
      · obtain ⟨old, there, same⟩ := notifyAll_flags found
        rw [← same]
        change old.flag = false ↔ number ∈ pool.slots.take count
        rw [← before]
        exact staffed.flags (by simp [point]) number old there
      · change pool.isDone = _
        rw [staffed.stopping, point]
        rfl
  | stopNotify point free =>
      refine staffed.unchanged rfl (notifyAll_length pool) (fun other after found => notifyAll_flags found)
        (fun _ => ⟨by simp [point], by simp [kept, point, notifyAll]⟩) ?_ (by simp) (by simp)
      change pool.isDone = _
      rw [staffed.stopping, point]
      rfl
  | join index number thread point slot there ended =>
      exact staffed.owned (.joining (index + 1)) pool.isDone pool.queue (by simp [point]) (by simp [kept, point])
        (by rw [staffed.stopping, point]; rfl) (by simp) (by simp)
  | joined index point all =>
      exact staffed.owned .clearing pool.isDone pool.queue (by simp [point]) (by simp [kept, point])
        (by rw [staffed.stopping, point]; rfl) (by simp) (by simp)
  | delete task rest point queue =>
      exact staffed.owned pool.owner pool.isDone rest (by simp [point]) (by simp [kept, point]) staffed.stopping
        staffed.growing staffed.shrinking
  | cleared point queue =>
      refine ⟨List.nodup_nil, by simp, by simp, ?_, by simp, by simp⟩
      rw [staffed.stopping, point]
      rfl

theorem initial_staffed : (initial : TaskPool Task).Staffed where
  distinct := List.nodup_nil
  bounded := by simp [initial]
  flags := by simp [initial]
  stopping := rfl
  growing _ _ := Nat.zero_le _
  shrinking := by simp [initial]

end Flags

end TaskPool

end Dtel
