import Dtel.Construction.Pointer.Reports
import Dtel.Proof.Pointer.Survivors

namespace Dtel

namespace PointerStore

variable {store next : PointerStore} {thread object : Nat} {owner source : Option Nat}

/-- A copy of a pointer to an object retains this object. -/
theorem copy_cases (taken : store.step (.copy ⟨source, some object⟩ owner) = some next) :
    ⟨source, some object⟩ ∈ store.pointers ∧ next = (store.retain object).add ⟨owner, some object⟩ := by
  simp only [step, copy, Option.ite_none_right_eq_some, Option.some.injEq] at taken
  exact ⟨taken.1.1, taken.2.symm⟩

theorem construct_cases (taken : store.step (.construct object owner) = some next) :
    store.alive object = true ∧ next = (store.retain object).add ⟨owner, some object⟩ := by
  simp only [step, Option.ite_none_right_eq_some, Option.some.injEq] at taken
  exact ⟨taken.1.1, taken.2.symm⟩

/-- The destructor of a pointer to an object enters the release of this object. -/
theorem destroy_cases (taken : store.step (.destroy thread ⟨owner, some object⟩) = some next) :
    ∃ calls, store.threads[thread]? = some calls ∧ ⟨owner, some object⟩ ∈ store.pointers ∧
      next = (store.remove ⟨owner, some object⟩).setCalls thread (.release object :: calls) := by
  simp only [step] at taken
  split at taken
  case h_1 calls there =>
      simp only [destroy, Option.ite_none_right_eq_some, Option.some.injEq] at taken
      exact ⟨calls, there, taken.1, taken.2.symm⟩
  case h_2 => cases taken

/-- The new pointer counts for its own object. -/
theorem count_pointer (pointers : List IntrusiveRefCntPtr) (first second : Nat) :
    (⟨none, some first⟩ :: pointers).count ⟨none, some second⟩ =
      pointers.count ⟨none, some second⟩ + if second = first then 1 else 0 := by
  by_cases same : second = first
  · simp [same]
  · rw [List.count_cons_of_ne (by simpa using Ne.symm same), if_neg same, Nat.add_zero]

end PointerStore

namespace Reports
open Execution PointerStore

variable {reports next final : Reports} {label : ReportLabel} {labels : List ReportLabel} {thread threads : Nat}
  {made : List Nat}

/-- The number of pointers `_workerref` of a worker to an object. -/
def points (object : Nat) (worker : ReportWorker) : Nat :=
  if worker.deleted = false ∧ worker.workerref = object then 1 else 0

/-- The worker's thread has ended, and nothing of it is left. -/
def Gone (reports : Reports) (index : Nat) : Prop :=
  reports.locals[index + 1]? = some [] ∧ reports.store.threads[index + 1]? = some []

/-- Each object is made for one worker. The pointers outside of objects are the variables, the queue and `_workerref`,
and the thread of a worker uses only objects that are made for this worker. -/
structure Owned (made : List Nat) (reports : Reports) : Prop where
  sound : reports.store.Sound
  length : made.length = reports.store.objects.length
  retained : ∀ object, reports.store.phase? object ≠ some .fresh
  account : ∀ object, reports.store.pointers.count ⟨none, some object⟩ = reports.queue.count object +
    Threads.weight (fun objects => objects.count object) reports.locals + Threads.weight (points object) reports.workers
  members : ∀ owner object, ⟨some owner, some object⟩ ∈ reports.store.pointers →
    reports.isRef owner = false ∧ reports.isRef object = true ∧
      ∃ index, made[owner]? = some index ∧ made[object]? = some index
  locals : ∀ index objects, reports.locals[index + 1]? = some objects → ∀ object ∈ objects, made[object]? = some index
  calls : ∀ (index : Nat) calls, reports.store.threads[index + 1]? = some calls → ∀ object,
    PointerCall.release object ∈ calls ∨ PointerCall.delete object ∈ calls → made[object]? = some index
  refs : ∀ (index : Nat) worker, reports.workers[index]? = some worker → made[worker.workerref]? = some index
  ends : ∀ (index : Nat) worker, reports.workers[index]? = some worker →
    (worker.deleted = true → worker.ended = true) ∧ (worker.ended = true → reports.Gone index)

theorem perform_cases {operations : List PointerLabel} {change : List Nat → List Nat}
    (taken : reports.perform thread operations change = some next) :
    ∃ objects store, reports.locals[thread]? = some objects ∧
      exec PointerStore.step reports.store operations = some store ∧
        next = { reports with store := store, locals := reports.locals.set thread (change objects) } := by
  unfold perform at taken
  split at taken
  case h_2 objects _ _ there _ =>
      obtain ⟨store, run, rfl⟩ := Option.map_eq_some_iff.mp taken
      exact ⟨objects, store, there, run, rfl⟩
  case h_1 | h_3 => cases taken

theorem holds_iff {object : Nat} : reports.holds thread object = true ↔
    ∃ objects, reports.locals[thread]? = some objects ∧ object ∈ objects := by
  unfold holds
  split
  case h_1 objects there => simp [there]
  case h_2 missing => simp [missing]

/-- A worker keeps its reference. -/
theorem isRef_set {index : Nat} {worker after : ReportWorker} (found : reports.workers[index]? = some worker)
    (same : after.workerref = worker.workerref) (object : Nat) :
    (reports.setWorker index after).isRef object = reports.isRef object := by
  have refs : (reports.workers.set index after).map ReportWorker.workerref =
      reports.workers.map ReportWorker.workerref := by
    apply List.ext_getElem?
    intro other
    rw [List.getElem?_map, List.getElem?_map]
    by_cases here : other = index
    · rw [here, List.getElem?_set_self', found]
      simp [same]
    · rw [List.getElem?_set_ne (Ne.symm here)]
  have any (workers : List ReportWorker) : (workers.any fun worker => worker.workerref == object) =
      (workers.map ReportWorker.workerref).any (· == object) := by
    rw [List.any_map]
    rfl
  change ((reports.workers.set index after).any fun worker => worker.workerref == object) = reports.workers.any _
  rw [any, refs, any]

section Operations

variable {objects changed queue : List Nat} {object : Nat} {source : Option Nat} {store : PointerStore}

/-- The variables of one thread change. -/
theorem Owned.set_locals (owned : reports.Owned made)
    (mine : ∀ index, thread = index + 1 → ∀ other ∈ changed, made[other]? = some index) :
    ∀ index objects, (reports.locals.set thread changed)[index + 1]? = some objects →
      ∀ object ∈ objects, made[object]? = some index := by
  intro index list found other member
  rcases Threads.set_cases found with ⟨same, rfl⟩ | ⟨-, before⟩
  · exact mine index same.symm other member
  · exact owned.locals index list before other member

/-- A thread that has ended is left alone by the others. -/
theorem Owned.set_gone (owned : reports.Owned made)
    (free : ∀ (index : Nat) worker, reports.workers[index]? = some worker → worker.ended = true → thread ≠ index + 1)
    (threads : ∀ index, thread ≠ index + 1 → store.threads[index + 1]? = reports.store.threads[index + 1]?) :
    ∀ (index : Nat) worker, reports.workers[index]? = some worker → (worker.deleted = true → worker.ended = true) ∧
      (worker.ended = true → ({ reports with store := store, queue := queue, locals := reports.locals.set thread changed } :
        Reports).Gone index) := by
  intro index worker found
  obtain ⟨dead, gone⟩ := owned.ends index worker found
  refine ⟨dead, fun ended => ?_⟩
  have apart := free index worker found ended
  obtain ⟨empty, idle⟩ := gone ended
  exact ⟨(List.getElem?_set_ne apart).trans empty, (threads index apart).trans idle⟩

/-- A thread copies a pointer to a variable or to the queue. -/
theorem Owned.grow (owned : reports.Owned made) (there : reports.locals[thread]? = some objects)
    (free : ∀ (index : Nat) worker, reports.workers[index]? = some worker → worker.ended = true → thread ≠ index + 1)
    (taken : reports.store.step (.copy ⟨source, some object⟩ none) = some store)
    (mine : ∀ index, thread = index + 1 → ∀ other ∈ changed, made[other]? = some index)
    (counts : ∀ other, queue.count other + changed.count other =
      reports.queue.count other + objects.count other + if other = object then 1 else 0) :
    Owned made { reports with store := store, queue := queue, locals := reports.locals.set thread changed } := by
  have sound := owned.sound.step taken
  obtain ⟨here, rfl⟩ := copy_cases taken
  have alive := owned.sound.alive here rfl
  refine ⟨sound, owned.length.trans (List.length_modify ..).symm, fun other => ?_, fun other => ?_, ?_,
    owned.set_locals mine, owned.calls, owned.refs, owned.set_gone free fun _ _ => rfl⟩
  · rw [phase_retain alive]
    split
    case isTrue => simp
    case isFalse => exact owned.retained other
  · have account := owned.account other
    have moved := Threads.weight_set (fun objects => objects.count other) changed there
    have count := counts other
    have pointers := count_pointer reports.store.pointers object other
    change (_ :: reports.store.pointers).count _ = _
    dsimp only at moved ⊢
    omega
  · intro owner other member
    rcases List.mem_cons.mp member with same | old
    · cases same
    · exact owned.members owner other old

/-- A thread copies a pointer to a new variable. -/
theorem Owned.gain (owned : reports.Owned made) (there : reports.locals[thread]? = some objects)
    (free : ∀ (index : Nat) worker, reports.workers[index]? = some worker → worker.ended = true → thread ≠ index + 1)
    (taken : reports.store.step (.copy ⟨source, some object⟩ none) = some store)
    (mine : ∀ index, thread = index + 1 → made[object]? = some index) :
    Owned made { reports with store := store, locals := reports.locals.set thread (object :: objects) } := by
  refine owned.grow there free taken (fun index same other inside => ?_) fun other => ?_
  · rcases List.mem_cons.mp inside with rfl | old
    · exact mine index same
    · exact owned.locals index objects (same ▸ there) other old
  · rw [List.count_cons]
    simp only [beq_iff_eq, eq_comm (b := other)]
    omega

/-- A thread destroys a pointer of a variable or of the queue. -/
theorem Owned.drop (owned : reports.Owned made) (there : reports.locals[thread]? = some objects)
    (free : ∀ (index : Nat) worker, reports.workers[index]? = some worker → worker.ended = true → thread ≠ index + 1)
    (taken : reports.store.step (.destroy thread ⟨none, some object⟩) = some store)
    (mine : ∀ index, thread = index + 1 → made[object]? = some index ∧ ∀ other ∈ changed, made[other]? = some index)
    (counts : ∀ other, queue.count other + changed.count other + (if other = object then 1 else 0) =
      reports.queue.count other + objects.count other) :
    Owned made { reports with store := store, queue := queue, locals := reports.locals.set thread changed } := by
  have sound := owned.sound.step taken
  obtain ⟨calls, idle, here, rfl⟩ := destroy_cases taken
  refine ⟨sound, owned.length, owned.retained, fun other => ?_, ?_,
    owned.set_locals fun index same => (mine index same).2, fun index list found other => ?_, owned.refs,
    owned.set_gone free fun index apart => List.getElem?_set_ne apart⟩
  · have account := owned.account other
    have moved := Threads.weight_set (fun objects => objects.count other) changed there
    have count := counts other
    have pointers := count_pointer (reports.store.pointers.erase ⟨none, some object⟩) object other
    rw [← (List.perm_cons_erase here).count_eq] at pointers
    change (reports.store.pointers.erase _).count _ = _
    dsimp only at moved ⊢
    omega
  · intro owner other member
    exact owned.members owner other (List.mem_of_mem_erase member)
  · rcases Threads.set_cases found with ⟨same, rfl⟩ | ⟨-, before⟩
    · rintro (release | delete)
      · rcases List.mem_cons.mp release with now | later
        · cases now
          exact (mine index same.symm).1
        · exact owned.calls index calls (same ▸ idle) other (Or.inl later)
      · rcases List.mem_cons.mp delete with now | later
        · cases now
        · exact owned.calls index calls (same ▸ idle) other (Or.inr later)
    · exact owned.calls index list before other

/-- A new object gets a pointer of a variable, and it may have a member for the reference of its worker. -/
theorem Owned.born (index : Nat) (members : List IntrusiveRefCntPtr) (owned : reports.Owned made)
    (there : reports.locals[thread]? = some objects)
    (free : ∀ (index : Nat) worker, reports.workers[index]? = some worker → worker.ended = true → thread ≠ index + 1)
    (sound : store.Sound) (length : store.objects.length = reports.store.objects.length + 1)
    (retained : ∀ other, store.phase? other ≠ some .fresh) (threads : store.threads = reports.store.threads)
    (pointers : store.pointers = ⟨none, some reports.store.objects.length⟩ :: (members ++ reports.store.pointers))
    (member : ∀ pointer ∈ members, ∃ ref, pointer = ⟨some reports.store.objects.length, some ref⟩ ∧
      reports.isRef ref = true ∧ made[ref]? = some index)
    (mine : ∀ other, thread = other + 1 → other = index) :
    Owned (made ++ [index]) { reports with
      store := store, locals := reports.locals.set thread (reports.store.objects.length :: objects) } := by
  have last : (made ++ [index])[reports.store.objects.length]? = some index := by
    rw [← owned.length]
    exact List.getElem?_concat_length
  have kept {other index' : Nat} (before : made[other]? = some index') : (made ++ [index])[other]? = some index' :=
    (List.getElem?_append_left (List.getElem?_eq_some_iff.mp before).1).trans before
  have fresh (worker : ReportWorker) (found : worker ∈ reports.workers) :
      worker.workerref ≠ reports.store.objects.length := by
    obtain ⟨index', there⟩ := List.getElem?_of_mem found
    have below := (List.getElem?_eq_some_iff.mp (owned.refs index' worker there)).1
    rw [owned.length] at below
    exact Nat.ne_of_lt below
  refine ⟨sound, by simp [owned.length, length], retained, fun other => ?_, ?_, ?_, ?_,
    fun index' worker found => kept (owned.refs index' worker found),
    owned.set_gone free fun index' _ => by rw [threads]⟩
  · have account := owned.account other
    have moved := Threads.weight_set (fun objects => objects.count other)
      (reports.store.objects.length :: objects) there
    have outside : members.count ⟨none, some other⟩ = 0 := by
      refine List.count_eq_zero.mpr fun inside => ?_
      obtain ⟨ref, same, -⟩ := member _ inside
      cases same
    have grown := count_pointer (members ++ reports.store.pointers) reports.store.objects.length other
    rw [List.count_append, outside] at grown
    rw [List.count_cons] at moved
    simp only [beq_iff_eq, eq_comm (b := other)] at moved
    change store.pointers.count _ = _
    rw [pointers]
    dsimp only
    omega
  · intro owner other inside
    change _ ∈ store.pointers at inside
    rw [pointers] at inside
    rcases List.mem_cons.mp inside with same | inside
    · cases same
    · rcases List.mem_append.mp inside with now | old
      · obtain ⟨ref, same, isRef, owns⟩ := member _ now
        cases same
        refine ⟨?_, isRef, index, last, kept owns⟩
        change reports.workers.any _ = false
        simpa using fresh
      · obtain ⟨event, ref, index', first, second⟩ := owned.members owner other old
        exact ⟨event, ref, index', kept first, kept second⟩
  · intro index' list found other inside
    rcases Threads.set_cases found with ⟨same, rfl⟩ | ⟨-, before⟩
    · rcases List.mem_cons.mp inside with rfl | old
      · rw [mine index' same.symm]
        exact last
      · exact kept (owned.locals index' objects (same ▸ there) other old)
    · exact kept (owned.locals index' list before other inside)
  · intro index' list found other call
    change store.threads[index' + 1]? = some list at found
    rw [threads] at found
    exact kept (owned.calls index' list found other call)

/-- A variable of the parent's thread becomes the `_workerref` of a new worker. -/
theorem Owned.adopt {ref : Nat} (owned : reports.Owned made) (there : reports.locals[0]? = some (ref :: objects))
    (made' : made[ref]? = some reports.workers.length)
    (bare : ∀ object, ⟨some ref, some object⟩ ∉ reports.store.pointers) :
    Owned made { reports with
      workers := reports.workers ++ [⟨ref, false, false, false⟩], locals := reports.locals.set 0 objects } := by
  have isRef (object : Nat) : ({ reports with
      workers := reports.workers ++ [⟨ref, false, false, false⟩], locals := reports.locals.set 0 objects } :
      Reports).isRef object = (reports.isRef object || ref == object) := by
    simp [Reports.isRef, List.any_append]
  refine ⟨owned.sound, owned.length, owned.retained, fun other => ?_, fun owner other member => ?_,
    owned.set_locals fun index same => (nomatch same), owned.calls, fun index worker found => ?_,
    fun index worker found => ?_⟩
  · have account := owned.account other
    have moved := Threads.weight_set (fun objects => objects.count other) objects there
    rw [List.count_cons] at moved
    simp only [beq_iff_eq] at moved
    simp only [Threads.weight_append, Threads.weight_singleton, points, true_and]
    omega
  · obtain ⟨event, reference, known⟩ := owned.members owner other member
    refine ⟨?_, by rw [isRef, reference, Bool.true_or], known⟩
    rw [isRef, event, Bool.false_or, beq_eq_false_iff_ne]
    rintro rfl
    exact bare other member
  · rw [List.getElem?_append] at found
    split at found
    case isTrue => exact owned.refs index worker found
    case isFalse beyond =>
        obtain ⟨same, rfl⟩ : index - reports.workers.length = 0 ∧ worker = ⟨ref, false, false, false⟩ := by
          have inside := (List.getElem?_eq_some_iff.mp found).1
          have zero : index - reports.workers.length = 0 := by simpa using inside
          rw [zero] at found
          exact ⟨zero, (Option.some.inj found).symm⟩
        rw [made', show index = reports.workers.length by omega]
  · rw [List.getElem?_append] at found
    split at found
    case isTrue =>
        obtain ⟨dead, gone⟩ := owned.ends index worker found
        refine ⟨dead, fun ended => ⟨?_, (gone ended).2⟩⟩
        exact (List.getElem?_set_ne (by simp)).trans (gone ended).1
    case isFalse =>
        have fresh : worker = ⟨ref, false, false, false⟩ := List.mem_singleton.mp (List.mem_of_getElem? found)
        simp [fresh]

/-- The parent's thread destroys the `_workerref` of a worker that has ended, as if a variable had taken it. -/
theorem Owned.resign {index : Nat} {worker : ReportWorker} (owned : reports.Owned made)
    (there : reports.locals[0]? = some objects) (found : reports.workers[index]? = some worker)
    (ended : worker.ended = true) (lives : worker.deleted = false) :
    Owned made { reports with
      workers := reports.workers.set index { worker with deleted := true }
      locals := reports.locals.set 0 (worker.workerref :: objects) } := by
  have isRef (object : Nat) : ({ reports with
      workers := reports.workers.set index { worker with deleted := true }
      locals := reports.locals.set 0 (worker.workerref :: objects) } : Reports).isRef object = reports.isRef object :=
    isRef_set found (show ({ worker with deleted := true } : ReportWorker).workerref = _ from rfl) object
  refine ⟨owned.sound, owned.length, owned.retained, fun other => ?_, fun owner other member => ?_,
    owned.set_locals fun index same => (nomatch same), owned.calls, fun other worker' found' => ?_,
    fun other worker' found' => ?_⟩
  · have account := owned.account other
    have moved := Threads.weight_set (fun objects => objects.count other) (worker.workerref :: objects) there
    have workers := Threads.weight_set (points other) { worker with deleted := true } found
    rw [List.count_cons] at moved
    simp only [beq_iff_eq] at moved
    simp only [points, lives, true_and, Bool.true_eq_false, false_and, if_false] at workers
    dsimp only
    omega
  · obtain ⟨event, reference, known⟩ := owned.members owner other member
    exact ⟨(isRef owner).trans event, (isRef other).trans reference, known⟩
  · rcases Threads.set_cases found' with ⟨rfl, rfl⟩ | ⟨-, before⟩
    · exact owned.refs other worker found
    · exact owned.refs other worker' before
  · have kept : (reports.locals.set 0 (worker.workerref :: objects))[other + 1]? = reports.locals[other + 1]? :=
      List.getElem?_set_ne (by simp)
    rcases Threads.set_cases found' with ⟨rfl, rfl⟩ | ⟨-, before⟩
    · have gone := (owned.ends other worker found).2 ended
      exact ⟨fun _ => ended, fun _ => ⟨kept.trans gone.1, gone.2⟩⟩
    · obtain ⟨dead, gone⟩ := owned.ends other worker' before
      exact ⟨dead, fun ended => ⟨kept.trans (gone ended).1, (gone ended).2⟩⟩

end Operations

section Steps

/-- The parent's thread is the thread of no worker. -/
theorem parent_free (reports : Reports) (index : Nat) (worker : ReportWorker)
    (_ : reports.workers[index]? = some worker) (_ : worker.ended = true) : 0 ≠ index + 1 := by
  omega

/-- A thread with a variable has not ended. -/
theorem Owned.holder_free {objects : List Nat} {object : Nat} (owned : reports.Owned made)
    (there : reports.locals[thread]? = some objects) (member : object ∈ objects) (index : Nat) (worker : ReportWorker)
    (found : reports.workers[index]? = some worker) (ended : worker.ended = true) : thread ≠ index + 1 := by
  rintro rfl
  obtain ⟨empty, -⟩ := (owned.ends index worker found).2 ended
  cases there.symm.trans empty
  cases member

/-- The object of a thread's variable is made for the worker of the thread. -/
theorem Owned.mine {objects : List Nat} {index : Nat} (owned : reports.Owned made)
    (there : reports.locals[thread]? = some objects) (same : thread = index + 1) :
    ∀ object ∈ objects, made[object]? = some index :=
  owned.locals index objects (same ▸ there)

theorem Owned.construct (owned : reports.Owned made) (taken : reports.construct = some next) :
    ∃ made, next.Owned made := by
  obtain ⟨after, performed, rfl⟩ := Option.map_eq_some_iff.mp taken
  obtain ⟨objects, store, there, run, rfl⟩ := perform_cases performed
  obtain ⟨first, created, run⟩ := exec_cons_some.mp run
  obtain ⟨second, constructed, run⟩ := exec_cons_some.mp run
  obtain ⟨third, copied, run⟩ := exec_cons_some.mp run
  cases run
  have sound := (owned.sound.step created).step constructed
  obtain ⟨alive, rfl⟩ := construct_cases constructed
  cases created
  -- The parameter holds the new reference, and this is as good as the member.
  have born := Owned.born reports.workers.length [] owned there (parent_free reports) sound (by simp [retain, add])
    (fun other => by
      rw [phase_retain alive, phase_created]
      split
      case isTrue => simp
      case isFalse => exact owned.retained other)
    rfl rfl (fun _ none => nomatch none) (fun _ same => by omega)
  have last : (made ++ [reports.workers.length])[reports.store.objects.length]? = some reports.workers.length := by
    rw [← owned.length]
    exact List.getElem?_concat_length
  have member := born.adopt (Threads.set_self there) last fun object inside => by
    rcases List.mem_cons.mp inside with same | old
    · cases same
    · obtain ⟨phase, known, -⟩ := owned.sound.owned _ old reports.store.objects.length rfl
      obtain ⟨counted, found, -⟩ := phase?_iff.mp known
      exact Nat.lt_irrefl _ (List.getElem?_eq_some_iff.mp found).1
  have kept := member.gain (Threads.set_self (Threads.set_self there)) (parent_free _) copied fun _ same => by omega
  simp only [List.set_set] at kept
  exact ⟨_, kept⟩

/-- A thread that makes a report has not ended, and the thread of a worker makes only reports of this worker. -/
theorem reporter {index : Nat} {worker : ReportWorker} (found : reports.workers[index]? = some worker)
    (may : worker.reportsOn index thread = true) :
    (∀ other, thread = other + 1 → other = index) ∧
      ∀ (other : Nat) found', reports.workers[other]? = some found' → found'.ended = true → thread ≠ other + 1 := by
  unfold ReportWorker.reportsOn at may
  cases started : worker.started with
  | false =>
      simp only [started, Bool.false_eq_true, if_false, Bool.and_eq_true, beq_iff_eq] at may
      exact ⟨fun other same => by omega, fun other _ _ _ same => by omega⟩
  | true =>
      simp only [started, if_true, Bool.and_eq_true, Bool.not_eq_true', beq_iff_eq] at may
      obtain ⟨-, running, rfl⟩ := may
      refine ⟨fun other same => (Nat.succ.inj same).symm, fun other found' there ended same => ?_⟩
      cases Nat.succ.inj same
      cases found.symm.trans there
      cases running.symm.trans ended

theorem Owned.report {index : Nat} (owned : reports.Owned made) (taken : reports.report thread index = some next) :
    ∃ made, next.Owned made := by
  unfold Reports.report at taken
  split at taken
  case h_2 => cases taken
  case h_1 worker found =>
      dsimp only at taken
      split at taken
      case isFalse => cases taken
      case isTrue may =>
          obtain ⟨own, free⟩ := reporter found may
          obtain ⟨objects, store, there, run, rfl⟩ := perform_cases taken
          obtain ⟨first, copied, run⟩ := exec_cons_some.mp run
          obtain ⟨second, created, run⟩ := exec_cons_some.mp run
          obtain ⟨third, joined, run⟩ := exec_cons_some.mp run
          obtain ⟨fourth, constructed, run⟩ := exec_cons_some.mp run
          cases run
          have ref := owned.refs index worker found
          have passed := owned.gain there free copied fun other same => (own other same).symm ▸ ref
          have length : first.objects.length = reports.store.objects.length := passed.length.symm.trans owned.length
          have sound := ((passed.sound.step created).step joined).step constructed
          rw [← length] at joined constructed ⊢
          have held := (passed.sound.step created).alive (copy_cases joined).1 rfl
          obtain ⟨-, rfl⟩ := copy_cases joined
          obtain ⟨alive, rfl⟩ := construct_cases constructed
          cases created
          have born := Owned.born index [⟨some first.objects.length, some worker.workerref⟩] passed (Threads.set_self there)
            free sound (by simp [retain, add])
            (fun other => by
              rw [phase_retain alive, phase_retain held, phase_created]
              split
              case isTrue => simp
              case isFalse =>
                  split
                  case isTrue => simp
                  case isFalse => exact passed.retained other)
            rfl rfl
            (fun pointer inside => by
              cases List.mem_singleton.mp inside
              refine ⟨worker.workerref, rfl, ?_, ref⟩
              exact List.any_eq_true.mpr ⟨worker, List.mem_of_getElem? found, beq_self_eq_true _⟩)
            own
          simp only [List.set_set] at born
          exact ⟨_, born⟩

/-- A call of a thread goes on. Pointers outside of objects stay. -/
theorem Owned.goes {store : PointerStore} {before after : List PointerCall} (owned : reports.Owned made)
    (there : reports.store.threads[thread]? = some before) (busy : before ≠ [])
    {label : PointerLabel}
    (taken : reports.store.step label = some store) (length : store.objects.length = reports.store.objects.length)
    (retained : ∀ object, store.phase? object ≠ some .fresh)
    (roots : ∀ object, store.pointers.count ⟨none, some object⟩ = reports.store.pointers.count ⟨none, some object⟩)
    (members : ∀ pointer ∈ store.pointers, pointer ∈ reports.store.pointers)
    (threads : store.threads = reports.store.threads.set thread after)
    (mine : ∀ index, thread = index + 1 → ∀ object, PointerCall.release object ∈ after ∨ PointerCall.delete object ∈ after →
      made[object]? = some index) : Owned made { reports with store := store } := by
  refine ⟨owned.sound.step taken, owned.length.trans length.symm, retained, fun object => ?_,
    fun owner object inside => owned.members owner object (members _ inside), owned.locals,
    fun index calls found object call => ?_, owned.refs, fun index worker found => ?_⟩
  · exact (roots object).trans (owned.account object)
  · change store.threads[index + 1]? = some calls at found
    rw [threads] at found
    rcases Threads.set_cases found with ⟨same, rfl⟩ | ⟨-, old⟩
    · exact mine index same.symm object call
    · exact owned.calls index calls old object call
  · obtain ⟨dead, gone⟩ := owned.ends index worker found
    refine ⟨dead, fun ended => ⟨(gone ended).1, ?_⟩⟩
    have idle := (gone ended).2
    change store.threads[index + 1]? = some []
    rw [threads, List.getElem?_set_ne, idle]
    rintro rfl
    exact busy (Option.some.inj (there.symm.trans idle))

/-- The thread goes on with the destructor of a member or with its innermost call. -/
theorem goOn_cases (store : PointerStore) (thread : Nat) :
    (∃ object calls pointer, store.threads[thread]? = some (.delete object :: calls) ∧ pointer ∈ store.pointers ∧
      pointer.owner = some object ∧ store.goOn thread = .destroy thread pointer) ∨ store.goOn thread = .next thread := by
  unfold goOn
  split
  case h_1 object calls there =>
      split
      case h_1 pointer found =>
          have owner := List.find?_some found
          exact Or.inl ⟨object, calls, pointer, there, List.mem_of_find?_eq_some found, of_decide_eq_true owner, rfl⟩
      case h_2 => exact Or.inr rfl
  case h_2 => exact Or.inr rfl

theorem Owned.proceed {store : PointerStore} (owned : reports.Owned made)
    (taken : reports.store.step (reports.store.goOn thread) = some store) : Owned made { reports with store := store } := by
  have mine {calls : List PointerCall} (there : reports.store.threads[thread]? = some calls) (index : Nat)
      (same : thread = index + 1) (object : Nat)
      (call : PointerCall.release object ∈ calls ∨ PointerCall.delete object ∈ calls) : made[object]? = some index :=
    owned.calls index calls (same ▸ there) object call
  have phases {object : Nat} {counted after : CountedObject} (found : reports.store.objects[object]? = some counted)
      (later : after.phase ≠ .fresh) {next : PointerStore} (objects : next.objects = reports.store.objects.set object after)
      (other : Nat) : next.phase? other ≠ some .fresh := by
    rw [phase_set found objects]
    split
    case isTrue => simpa using later
    case isFalse => exact owned.retained other
  rcases goOn_cases reports.store thread with ⟨dying, calls, ⟨owner, obj⟩, there, member, rfl, label⟩ | label
  · rw [label] at taken
    have roots (object : Nat) : (reports.store.pointers.erase ⟨some dying, obj⟩).count ⟨none, some object⟩ =
        reports.store.pointers.count ⟨none, some object⟩ := List.count_erase_of_ne (by simp)
    cases obj with
    | none =>
        have removed : store = reports.store.remove ⟨some dying, none⟩ := by
          simp only [PointerStore.step, there, member, if_true, Option.some.injEq] at taken
          exact taken.symm
        subst removed
        have same : reports.store.threads.set thread (.delete dying :: calls) = reports.store.threads := by
          obtain ⟨below, here⟩ := List.getElem?_eq_some_iff.mp there
          rw [← here, List.set_getElem_self]
        exact owned.goes there (by simp) taken rfl owned.retained roots (fun _ inside => List.mem_of_mem_erase inside)
          same.symm (mine there)
    | some target =>
        obtain ⟨calls', found, -, rfl⟩ := destroy_cases taken
        cases there.symm.trans found
        refine owned.goes there (by simp) taken rfl owned.retained roots (fun _ inside => List.mem_of_mem_erase inside)
          rfl fun index same object call => ?_
        obtain ⟨-, -, index', first, second⟩ := owned.members dying target member
        cases first.symm.trans (mine there index same dying (by simp))
        by_cases now : object = target
        · exact now ▸ second
        · refine mine there index same object ?_
          simpa [now] using call
  · rw [label] at taken
    cases step_cases taken with
    | release thread calls object counted there found more =>
        obtain ⟨same, found', held, -⟩ := owned.sound.pending there
        cases found.symm.trans found'
        exact owned.goes there (by simp) taken List.length_set (phases found (by simp [held]) rfl) (fun _ => rfl)
          (fun _ inside => inside) rfl fun index same other call => mine there index same other
            (call.imp (List.mem_cons_of_mem _) (List.mem_cons_of_mem _))
    | last thread calls object counted there found zero =>
        refine owned.goes there (by simp) taken List.length_set (phases found (by simp) rfl) (fun _ => rfl)
          (fun _ inside => inside) rfl fun index same other call => ?_
        by_cases now : other = object
        · exact mine there index same other (Or.inl (by simp [now]))
        · refine mine there index same other ?_
          simpa [now] using call
    | free thread calls object counted there found destroyed =>
        exact owned.goes there (by simp) taken List.length_set (phases found (by simp) rfl) (fun _ => rfl)
          (fun _ inside => inside) rfl fun index same other call => mine there index same other
            (call.imp (List.mem_cons_of_mem _) (List.mem_cons_of_mem _))
    | rearrange _ _ changed => cases changed

/-- The thread of a worker changes the worker, whose references stay. -/
theorem Owned.set_worker {index : Nat} {worker after : ReportWorker} (owned : reports.Owned made)
    (found : reports.workers[index]? = some worker) (same : after.workerref = worker.workerref)
    (kept : after.deleted = worker.deleted) (later : worker.ended = true → after.ended = true)
    (gone : after.ended = true → reports.Gone index) : (reports.setWorker index after).Owned made := by
  refine ⟨owned.sound, owned.length, owned.retained, fun object => ?_, fun owner object inside => ?_, owned.locals,
    owned.calls, fun other worker' found' => ?_, fun other worker' found' => ?_⟩
  · have account := owned.account object
    have workers := Threads.weight_set (points object) after found
    have pointed : points object after = points object worker := by rw [points, points, same, kept]
    dsimp only [setWorker]
    omega
  · rw [isRef_set found same, isRef_set found same]
    exact owned.members owner object inside
  · rcases Threads.set_cases found' with ⟨rfl, rfl⟩ | ⟨-, before⟩
    · rw [same]
      exact owned.refs other worker found
    · exact owned.refs other worker' before
  · rcases Threads.set_cases found' with ⟨rfl, rfl⟩ | ⟨-, before⟩
    · exact ⟨fun deleted => later ((owned.ends other worker found).1 (kept.symm.trans deleted)), gone⟩
    · exact owned.ends other worker' before

/-- Each step keeps the invariant. -/
theorem Owned.step (owned : reports.Owned made) (taken : reports.step label = some next) : ∃ made, next.Owned made := by
  cases label with
  | construct => exact owned.construct taken
  | run index =>
      simp only [Reports.step] at taken
      split at taken
      case h_2 => cases taken
      case h_1 worker found =>
          simp only [Option.ite_none_left_eq_some, Option.some.injEq] at taken
          obtain ⟨-, rfl⟩ := taken
          exact ⟨made, owned.set_worker found rfl rfl id (owned.ends index worker found).2⟩
  | report thread index => exact owned.report taken
  | push thread event =>
      simp only [Reports.step, Option.ite_none_right_eq_some, Option.map_eq_some_iff] at taken
      obtain ⟨⟨holds, -⟩, after, performed, rfl⟩ := taken
      obtain ⟨objects, store, there, run, rfl⟩ := perform_cases performed
      obtain ⟨first, copied, run⟩ := exec_cons_some.mp run
      cases run
      obtain ⟨objects', there', member⟩ := holds_iff.mp holds
      cases there.symm.trans there'
      refine ⟨made, owned.grow there (owned.holder_free there member) copied (fun index same => owned.mine there same)
        fun other => ?_⟩
      rw [List.count_append, List.count_singleton]
      simp only [beq_iff_eq, eq_comm (b := other), id]
      omega
  | pop =>
      simp only [Reports.step] at taken
      split at taken
      case h_2 => cases taken
      case h_1 event rest queued =>
          obtain ⟨after, performed, rfl⟩ := Option.map_eq_some_iff.mp taken
          obtain ⟨objects, store, there, run, rfl⟩ := perform_cases performed
          obtain ⟨first, copied, run⟩ := exec_cons_some.mp run
          obtain ⟨second, destroyed, run⟩ := exec_cons_some.mp run
          cases run
          have gained := owned.gain there (parent_free reports) copied fun _ same => by omega
          have dropped : Owned made { reports with
              store := store, queue := rest
              locals := (reports.locals.set 0 (event :: objects)).set 0 (event :: objects) } := by
            refine gained.drop (Threads.set_self there) (parent_free _) destroyed (fun _ same => by omega) fun other => ?_
            dsimp only
            rw [queued, List.count_cons (b := event) (l := rest)]
            simp only [beq_iff_eq, eq_comm (b := other)]
            omega
          simp only [List.set_set] at dropped
          exact ⟨made, dropped⟩
  | clear =>
      simp only [Reports.step] at taken
      split at taken
      case h_2 => cases taken
      case h_1 event rest queued =>
          obtain ⟨after, performed, rfl⟩ := Option.map_eq_some_iff.mp taken
          obtain ⟨objects, store, there, run, rfl⟩ := perform_cases performed
          obtain ⟨first, destroyed, run⟩ := exec_cons_some.mp run
          cases run
          refine ⟨made, owned.drop there (parent_free reports) destroyed (fun _ same => by omega) fun other => ?_⟩
          rw [queued, List.count_cons]
          simp only [beq_iff_eq, eq_comm (b := other), id]
          omega
  | read event ref =>
      simp only [Reports.step, Option.ite_none_right_eq_some] at taken
      obtain ⟨objects, store, there, run, rfl⟩ := perform_cases taken.2
      obtain ⟨first, copied, run⟩ := exec_cons_some.mp run
      cases run
      exact ⟨made, owned.gain there (parent_free reports) copied fun _ same => by omega⟩
  | copy object =>
      simp only [Reports.step, Option.ite_none_right_eq_some] at taken
      obtain ⟨objects, store, there, run, rfl⟩ := perform_cases taken.2
      obtain ⟨first, copied, run⟩ := exec_cons_some.mp run
      cases run
      exact ⟨made, owned.gain there (parent_free reports) copied fun _ same => by omega⟩
  | leave thread object =>
      simp only [Reports.step, Option.ite_none_right_eq_some] at taken
      obtain ⟨holds, performed⟩ := taken
      obtain ⟨objects, store, there, run, rfl⟩ := perform_cases performed
      obtain ⟨first, destroyed, run⟩ := exec_cons_some.mp run
      cases run
      obtain ⟨objects', there', member⟩ := holds_iff.mp holds
      cases there.symm.trans there'
      refine ⟨made, owned.drop there (owned.holder_free there member) destroyed
        (fun index same => ⟨owned.mine there same object member,
          fun other inside => owned.mine there same other (List.mem_of_mem_erase inside)⟩) fun other => ?_⟩
      have split := (List.perm_cons_erase member).count_eq other
      rw [List.count_cons] at split
      simp only [beq_iff_eq, eq_comm (b := other)] at split
      omega
  | finish index =>
      simp only [Reports.step] at taken
      split at taken
      case h_2 => cases taken
      case h_1 worker found =>
          simp only [Option.ite_none_right_eq_some, Option.some.injEq] at taken
          obtain ⟨⟨-, empty, idle⟩, rfl⟩ := taken
          exact ⟨made, owned.set_worker found rfl rfl (fun _ => rfl) fun _ => ⟨empty, idle⟩⟩
  | deleteData index =>
      simp only [Reports.step] at taken
      split at taken
      case h_2 => cases taken
      case h_1 worker found =>
          simp only [Option.ite_none_right_eq_some, Option.map_eq_some_iff] at taken
          obtain ⟨⟨ended, lives⟩, after, performed, rfl⟩ := taken
          obtain ⟨objects, store, there, run, rfl⟩ := perform_cases performed
          obtain ⟨first, destroyed, run⟩ := exec_cons_some.mp run
          cases run
          have resigned := owned.resign there found ended lives
          have dropped : Owned made { reports.setWorker index { worker with deleted := true } with
              store := store, locals := (reports.locals.set 0 (worker.workerref :: objects)).set 0 objects } := by
            refine resigned.drop (Threads.set_self there) (parent_free _) destroyed (fun _ same => by omega) fun other => ?_
            rw [List.count_cons]
            simp only [beq_iff_eq, eq_comm (b := other)]
            dsimp only [setWorker]
            omega
          simp only [List.set_set] at dropped
          exact ⟨made, dropped⟩
  | next thread =>
      obtain ⟨store, went, rfl⟩ := Option.map_eq_some_iff.mp taken
      exact ⟨made, owned.proceed went⟩

end Steps

section Run

theorem initial_owned (threads : Nat) : (initial threads).Owned [] := by
  have bare {Entry : Type} {index : Nat} {list : List Entry}
      (found : (List.replicate threads ([] : List Entry))[index]? = some list) : list = [] :=
    List.eq_of_mem_replicate (List.mem_of_getElem? found)
  refine ⟨initial_sound threads, rfl, fun object => ?_, fun object => ?_, fun owner object inside => ?_,
    fun index objects found => ?_, fun index calls found => ?_, fun index worker found => ?_,
    fun index worker found => ?_⟩
  · simp [initial, PointerStore.initial, phase?]
  · simp [initial, PointerStore.initial, Threads.weight]
  · cases inside
  · simp [bare found]
  · simp [bare found]
  · cases found
  · cases found

/-- After each run, every object is made for a worker. -/
theorem run_owned (run : exec Reports.step (initial threads) labels = some reports) : ∃ made, reports.Owned made := by
  have kept (reports : Reports) (label : ReportLabel) (next : Reports) (owned : ∃ made, reports.Owned made)
      (taken : reports.step label = some next) : ∃ made, next.Owned made := by
    obtain ⟨made, owned⟩ := owned
    exact owned.step taken
  exact exec_invariant kept ⟨[], initial_owned threads⟩ run

end Run

/-- A variable, the queue or a worker points to the object. -/
def inUse (reports : Reports) (object : Nat) : Prop :=
  object ∈ reports.queue ∨ (∃ objects ∈ reports.locals, object ∈ objects) ∨
    ∃ worker ∈ reports.workers, worker.deleted = false ∧ worker.workerref = object

/-- The pointers outside of objects are those in use. -/
theorem Owned.rooted_iff (owned : reports.Owned made) (object : Nat) :
    reports.store.rooted object ↔ reports.inUse object := by
  have local' : 0 < Threads.weight (fun objects => objects.count object) reports.locals ↔
      ∃ objects ∈ reports.locals, object ∈ objects := by
    simp only [Threads.weight_pos, List.count_pos_iff]
  have workers : 0 < Threads.weight (points object) reports.workers ↔
      ∃ worker ∈ reports.workers, worker.deleted = false ∧ worker.workerref = object := by
    rw [Threads.weight_pos]
    refine exists_congr fun worker => and_congr_right fun _ => ?_
    unfold points
    split
    case isTrue used => simp [used]
    case isFalse unused => simp [unused]
  rw [rooted, ← List.count_pos_iff, owned.account, inUse, ← local', ← workers, ← List.count_pos_iff]
  omega

/-- A member of an object points to the reference of an event that is in use. -/
theorem Owned.event (owned : reports.Owned made) (quiet : reports.store.Quiet) {event object : Nat}
    (alive : reports.store.held event) (edge : reports.store.pointsTo event object) : reports.inUse event := by
  rcases quiet.supported owned.sound event alive with root | ⟨owner, -, above⟩
  · exact (owned.rooted_iff event).mp root
  · have ref := (owned.members owner event above).2.1
    rw [(owned.members event object edge).1] at ref
    cases ref

/-- All that is in use is alive: the variables of the threads, the queued reports and the references of the workers.
The reference of a worker is destroyed on the parent's thread, after the data of the worker. When all calls have
returned, the freed objects are those that are neither in use nor the reference of a report in use. -/
theorem workerrefs_stay_with_parent (run : exec Reports.step (initial threads) labels = some reports) :
    (∀ object, reports.inUse object → reports.store.held object) ∧
    (∀ (thread : Nat) calls, reports.store.threads[thread]? = some calls → ∀ worker ∈ reports.workers,
      PointerCall.delete worker.workerref ∈ calls → thread = 0 ∧ worker.deleted = true) ∧
    ((∀ calls ∈ reports.store.threads, calls = []) → ∀ object, object < reports.store.objects.length →
      (reports.store.phase? object = some .freed ↔
        ¬ reports.inUse object ∧ ∀ event, reports.inUse event → ¬ reports.store.pointsTo event object)) := by
  obtain ⟨made, owned⟩ := run_owned run
  have alive (object : Nat) (used : reports.inUse object) : reports.store.held object :=
    phase?_iff.mpr (owned.sound.pointed ((owned.rooted_iff object).mpr used) rfl)
  refine ⟨alive, fun thread calls there worker member deletes => ?_, fun returned object below => ?_⟩
  · have dying := owned.sound.dying there deletes
    obtain ⟨index, found⟩ := List.getElem?_of_mem member
    have deleted : worker.deleted = true := by
      by_contra lives
      have held := alive worker.workerref (Or.inr (Or.inr ⟨worker, member, by simpa using lives, rfl⟩))
      cases held.symm.trans dying
    refine ⟨?_, deleted⟩
    -- The thread of another worker has nothing to do with the reference, and the worker's own thread has ended.
    rcases thread with _ | other
    · rfl
    · cases (owned.calls other calls there _ (Or.inr deletes)).symm.trans (owned.refs index worker found)
      obtain ⟨dead, gone⟩ := owned.ends index worker found
      cases there.symm.trans (gone (dead deleted)).2
      cases deletes
  · have quiet : reports.store.Quiet := ⟨returned, owned.retained⟩
    constructor
    · intro freed
      refine ⟨fun used => ?_, fun event _ edge => ?_⟩
      · cases freed.symm.trans (alive object used)
      · cases freed.symm.trans (phase?_iff.mpr (owned.sound.pointed edge rfl))
    · rintro ⟨unused, unread⟩
      obtain ⟨phase, there⟩ : ∃ phase, reports.store.phase? object = some phase :=
        ⟨_, by rw [phase?, List.getElem?_eq_getElem below, Option.map_some]⟩
      rcases quiet.phase owned.sound there with rfl | rfl
      · rcases quiet.supported owned.sound object there with root | ⟨event, held, edge⟩
        · exact absurd ((owned.rooted_iff object).mp root) unused
        · exact absurd edge (unread event (owned.event quiet held edge))
      · exact there

/-- The thread of a worker makes a report, which the parent applies after it has destroyed the worker. -/
def lateReport : List ReportLabel :=
  [.construct, .leave 0 0, .next 0, .run 0, .report 1 0, .leave 1 0, .next 1, .push 1 1, .leave 1 1, .next 1, .finish 0,
    .deleteData 0, .next 0, .pop, .next 0, .read 1 0, .leave 0 0, .next 0, .leave 0 1, .next 0, .next 0, .next 0, .next 0,
    .next 0]

theorem workerrefs_stay_with_parent_here : ∃ reports, exec Reports.step (initial 2) lateReport = some reports ∧
    reports.store.phase? 0 = some .freed ∧ reports.store.phase? 1 = some .freed := by
  have ends : (exec Reports.step (initial 2) lateReport).map (fun reports =>
      (reports.queue, reports.locals, reports.workers, reports.store.threads, reports.store.objects.length)) =
      some ([], [[], []], [⟨0, true, true, true⟩], [[], []], 2) := rfl
  obtain ⟨reports, run, same⟩ := Option.map_eq_some_iff.mp ends
  simp only [Prod.mk.injEq] at same
  obtain ⟨queue, locals, workers, threads, length⟩ := same
  have unused (object : Nat) : ¬ reports.inUse object := by simp [inUse, queue, locals, workers]
  obtain ⟨-, -, freed⟩ := workerrefs_stay_with_parent run
  have gone (object : Nat) (below : object < 2) : reports.store.phase? object = some .freed :=
    (freed (by simp [threads]) object (length ▸ below)).mpr ⟨unused object, fun event used => absurd used (unused event)⟩
  exact ⟨reports, run, gone 0 (by decide), gone 1 (by decide)⟩

end Reports

end Dtel
