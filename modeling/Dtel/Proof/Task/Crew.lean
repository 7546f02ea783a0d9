import Dtel.Proof.Task.Order
import Dtel.Proof.Task.Size

namespace Dtel.TaskPool

variable {Task : Type} {pool next shared : TaskPool Task} {number : Nat} {thread : PoolThread Task}
  {label : PoolLabel Task} {labels : List (PoolLabel Task)} {point : PoolPoint Task}

section Owner

/-- A notification leaves what belongs to the owner. -/
theorem notifyOne_owner {woken : Option Nat} (notified : pool.notifyOne woken = some next) :
    next.owner = pool.owner ∧ next.isDone = pool.isDone ∧ next.slots = pool.slots := by
  rcases notifyOne_cases notified with ⟨_, _, _, _, rfl⟩ | ⟨_, rfl⟩ <;> exact ⟨rfl, rfl, rfl⟩

/-- What one step does to the owner and to `isDone`. -/
theorem owner_cases (taken : pool.step label = some next) :
    next.threads = pool.notifyAll.threads ∨
      (pool.owner = .idle ∧ next.owner = .stopNotify ∧ next.threads = pool.threads) ∨
      (next.isDone = pool.isDone ∧ (pool.owner.flagging = true → next.owner.flagging = true) ∧
        (pool.owner = .stopNotify → next.owner = .stopNotify)) := by
  cases step_cases taken with
  | turn number thread label shared point there alive turn =>
      obtain ⟨-, -, done, -, owner⟩ := turn.frame
      exact Or.inr (Or.inr ⟨done, fun flagging => owner ▸ flagging, fun stop => owner.trans stop⟩)
  | notifyInside _ _ _ _ _ _ _ _ _ notified | notify _ _ _ _ _ notified =>
      obtain ⟨owner, done, -⟩ := notifyOne_owner notified
      exact Or.inr (Or.inr ⟨done, fun flagging => by rw [owner]; exact flagging, fun stop => owner.trans stop⟩)
  | shrunk | stopNotify => exact Or.inl rfl
  | destroy idle => exact Or.inr (Or.inl ⟨idle, rfl, rfl⟩)
  | grow _ point | shrink _ point | create _ point | grown _ point | flag _ _ _ point | flagged _ _ point
  | join _ _ _ point | joined _ point | cleared point =>
      exact Or.inr (Or.inr ⟨rfl, by simp [point, PoolOwner.flagging], by simp [point]⟩)
  | push | unsized | delete => exact Or.inr (Or.inr ⟨rfl, id, id⟩)

/-- The destructor does not clear `isDone`. -/
theorem isDone_step (taken : pool.step label = some next) (done : pool.isDone = true) : next.isDone = true := by
  cases step_cases taken with
  | turn _ _ _ _ _ _ _ turn => exact turn.frame.2.2.1.trans done
  | notifyInside _ _ _ _ _ _ _ _ _ notified | notify _ _ _ _ _ notified => exact (notifyOne_owner notified).2.1.trans done
  | destroy => rfl
  | _ => exact done

end Owner

section Ending

/-- A thread whose flag is not set ends only when the pool is done. -/
def Lasting (pool : TaskPool Task) : Prop :=
  ∀ (number : Nat) (thread : PoolThread Task), pool.threads[number]? = some thread → thread.flag = false → pool.isDone = false →
    thread.point ≠ .ended ∧ thread.point ≠ .leave none

/-- A thread that is told to stop sleeps only until the notification that follows. -/
def Told (pool : TaskPool Task) : Prop :=
  ∀ (number : Nat) (thread : PoolThread Task), pool.threads[number]? = some thread → thread.point = .blocked →
    (thread.flag = true → pool.owner.flagging = true) ∧ (pool.isDone = true → pool.owner = .stopNotify)

theorem Lasting.step (lasting : pool.Lasting) (taken : pool.step label = some next) : next.Lasting := by
  intro number after found flag done
  have undone : pool.isDone = false := by
    cases before : pool.isDone with
    | false => rfl
    | true =>
        rw [isDone_step taken before] at done
        cases done
  cases step_changed taken found with
  | same there => exact lasting number after there flag undone
  | moved before shared label point there turn result =>
      subst result
      have old := lasting number before there flag undone
      cases turn with
      | stop from_ told =>
          rw [show before.flag = false from flag] at told
          cases told
      | exit from_ => exact absurd from_ old.2
      | giveUp from_ told =>
          rw [undone, show before.flag = false from flag] at told
          simp at told
      | _ => simp
  | woken before there sleeps result | notified before present there pushing result | created count growing new result =>
      rw [result]
      simp
  | flagged before count index owner slot there result =>
      rw [result] at flag
      cases flag

theorem Told.step (told : pool.Told) (taken : pool.step label = some next) : next.Told := by
  intro number after found sleeps
  rcases owner_cases taken with woken | ⟨idle, stop, same⟩ | ⟨done, flagging, stop⟩
  · rw [woken] at found
    exact absurd sleeps (notifyAll_there found).2
  · rw [same] at found
    refine ⟨fun flag => ?_, fun _ => stop⟩
    have before := (told number after found sleeps).1 flag
    rw [idle] at before
    cases before
  · have old (before : PoolThread Task) (there : pool.threads[number]? = some before) (asleep : before.point = .blocked)
        (flag : before.flag = after.flag) :
        (after.flag = true → next.owner.flagging = true) ∧ (next.isDone = true → next.owner = .stopNotify) := by
      obtain ⟨flagged, stopped⟩ := told number before there asleep
      exact ⟨fun set => flagging (flagged (flag.trans set)), fun finished => stop (stopped (done.symm.trans finished))⟩
    cases step_changed taken found with
    | same there => exact old after there sleeps rfl
    | moved before shared label point there turn result =>
        subst result
        cases turn with
        | block from_ undone unflagged =>
            constructor
            · intro flag
              rw [show before.flag = true from flag] at unflagged
              cases unflagged
            · intro finished
              rw [done, undone] at finished
              cases finished
        | _ => cases sleeps
    | woken before there asleep result | notified before present there pushing result | created count growing new result =>
        rw [result] at sleeps
        cases sleeps
    | flagged before count index owner slot there result =>
        have shrinking : pool.owner.flagging = true := by
          rw [owner]
          rfl
        subst result
        refine ⟨fun _ => flagging shrinking, fun finished => ?_⟩
        have stopped := (told number before there sleeps).2 (done.symm.trans finished)
        rw [owner] at stopped
        cases stopped

/-- A thread that has ended stays ended. -/
theorem ended_step (taken : pool.step label = some next) (below : number < pool.threads.length)
    (ended : ∀ before, pool.threads[number]? = some before → before.point = .ended) {after : PoolThread Task}
    (found : next.threads[number]? = some after) : after.point = .ended := by
  cases step_changed taken found with
  | same there => exact ended after there
  | moved before shared label point there turn result =>
      have dead := ended before there
      cases turn <;> simp_all
  | woken before there sleeps result => cases (ended before there).symm.trans sleeps
  | notified before present there pushing result => cases (ended before there).symm.trans pushing
  | flagged before count index owner slot there result =>
      rw [result]
      exact ended before there
  | created count growing new result => exact absurd new (Nat.ne_of_lt below)

/-- The threads behind the loop of `join` have ended. -/
structure Joined (pool : TaskPool Task) : Prop where
  joining : ∀ index, pool.owner = .joining index → ∀ number ∈ pool.slots.take index, ∀ thread : PoolThread Task,
    pool.threads[number]? = some thread → thread.point = .ended
  clearing : pool.owner = .clearing → ∀ number ∈ pool.slots, ∀ thread : PoolThread Task,
    pool.threads[number]? = some thread → thread.point = .ended
  destroyed : pool.owner = .destroyed → ∀ (number : Nat) (thread : PoolThread Task), pool.threads[number]? = some thread → thread.flag = false →
    thread.point = .ended

/-- A step that leaves the owner keeps the joined threads ended. -/
theorem Joined.unchanged (joined : pool.Joined) (staffed : pool.Staffed) (taken : pool.step label = some next)
    (owner : next.owner = pool.owner) (slots : next.slots = pool.slots) : next.Joined where
  joining index point number member after found := by
    rw [slots] at member
    exact ended_step taken (staffed.bounded number (List.mem_of_mem_take member))
      (joined.joining index (owner ▸ point) number member) found
  clearing point number member after found := by
    rw [slots] at member
    exact ended_step taken (staffed.bounded number member) (joined.clearing (owner ▸ point) number member) found
  destroyed point number after found flag := by
    have dead : pool.owner = .destroyed := owner ▸ point
    have old (before : PoolThread Task) (there : pool.threads[number]? = some before) (same : before.flag = after.flag) :
        after.point = .ended := by
      have finished := joined.destroyed dead number before there (same.trans flag)
      refine ended_step taken (List.getElem?_eq_some_iff.mp there).1 (fun other found' => ?_) found
      cases there.symm.trans found'
      exact finished
    cases step_changed taken found with
    | same there => exact old after there rfl
    | moved before shared label point there turn result => exact old before there (by rw [result])
    | woken before there sleeps result => exact old before there (by rw [result])
    | notified before present there pushing result => exact old before there (by rw [result])
    | flagged before count index owner slot there result => cases dead.symm.trans owner
    | created count growing new result => cases dead.symm.trans growing

/-- Each step of the owner joins one more thread, or finds all of them joined. -/
theorem Joined.step (joined : pool.Joined) (staffed : pool.Staffed) (taken : pool.step label = some next) :
    next.Joined := by
  have away (owner : next.owner.stopping = false) : next.Joined := by
    refine ⟨fun index point => ?_, fun point => ?_, fun point => ?_⟩ <;>
      (rw [point] at owner; cases owner)
  cases step_cases taken with
  | turn number thread label shared point there alive turn =>
      exact joined.unchanged staffed taken turn.frame.2.2.2.2 turn.frame.2.1
  | notifyInside _ _ _ _ _ _ _ _ _ notified | notify _ _ _ _ _ notified =>
      obtain ⟨owner, -, slots⟩ := notifyOne_owner notified
      exact joined.unchanged staffed taken owner slots
  | push | unsized | delete => exact joined.unchanged staffed taken rfl rfl
  | grow | shrink | grown | flag | flagged | shrunk => exact away rfl
  | create count point more => exact away (by rw [point]; rfl)
  | destroy idle done => exact ⟨by simp, by simp, by simp⟩
  | stopNotify point free =>
      refine ⟨fun index same number member => ?_, by simp, by simp⟩
      cases same
      cases member
  | join index number thread point slot there ended =>
      refine ⟨fun count same other member found there' => ?_, by simp, by simp⟩
      cases same
      rw [List.take_add_one, slot] at member
      rcases List.mem_append.mp member with old | new
      · exact joined.joining index point other old found there'
      · cases List.mem_singleton.mp new
        cases there.symm.trans there'
        exact ended
  | joined index point all =>
      refine ⟨by simp, fun _ number member thread there => ?_, by simp⟩
      refine joined.joining index point number ?_ thread there
      rw [List.take_of_length_le (List.getElem?_eq_none_iff.mp all)]
      exact member
  | cleared point queue =>
      refine ⟨by simp, by simp, fun _ number thread there flag => ?_⟩
      refine joined.clearing point number ?_ thread there
      have here := (staffed.flags (by simp [point]) number thread there).mp flag
      simpa [kept, point] using here

end Ending

section Reached

/-- These invariants hold of the pool in each state. -/
structure Sound (pool : TaskPool Task) : Prop where
  locked : pool.Locked
  alert : pool.Alert
  staffed : pool.Staffed
  lasting : pool.Lasting
  told : pool.Told
  joined : pool.Joined

theorem Sound.step (sound : pool.Sound) (taken : pool.step label = some next) : next.Sound where
  locked := sound.locked.step taken
  alert := sound.alert.step sound.locked taken
  staffed := sound.staffed.step taken
  lasting := sound.lasting.step taken
  told := sound.told.step taken
  joined := sound.joined.step sound.staffed taken

theorem initial_sound : (initial : TaskPool Task).Sound where
  locked := initial_locked
  alert := fun _ => Nat.zero_le _
  staffed := initial_staffed
  lasting := by simp [Lasting, initial]
  told := by simp [Told, initial]
  joined := ⟨by simp [initial], by simp [initial], by simp [initial]⟩

theorem reachable_sound (run : Execution.exec step (initial : TaskPool Task) labels = some pool) : pool.Sound :=
  Execution.exec_invariant (fun _ _ _ holds taken => Sound.step holds taken) initial_sound run

end Reached

end Dtel.TaskPool
