import Dtel.Construction.Pointer.Timers
import Dtel.Proof.Pointer.Sound

namespace Dtel.PointerStore

open PointerLabel

variable {store next middle : PointerStore} {pointer member source : IntrusiveRefCntPtr} {object : Nat}
  {calls : List PointerCall} {removed added more fewer : List IntrusiveRefCntPtr} {labels : List PointerLabel}

/-- The operations of one thread return, change the pointers in this way, and lead to these phases. -/
structure Effect (store : PointerStore) (labels : List PointerLabel) (removed added : List IntrusiveRefCntPtr)
    (next : PointerStore) : Prop where
  run : Execution.exec step store labels = some next
  threads : next.threads = store.threads
  pointers : ∀ pointer, next.pointers.count pointer + removed.count pointer =
    store.pointers.count pointer + added.count pointer

/-- Operations in sequence add up their effects. -/
theorem Effect.trans {first second : List PointerLabel} (left : Effect store first removed added middle)
    (right : Effect middle second fewer more next) : Effect store (first ++ second) (removed ++ fewer) (added ++ more) next where
  run := Execution.exec_append_some.mpr ⟨middle, left.run, right.run⟩
  threads := right.threads.trans left.threads
  pointers pointer := by
    have one := left.pointers pointer
    have two := right.pointers pointer
    rw [List.count_append, List.count_append]
    omega

/-- Operations keep the invariant. -/
theorem Effect.sound (effect : Effect store labels removed added next) (sound : store.Sound) : next.Sound :=
  Execution.exec_invariant (fun _ _ _ holds taken => Sound.step holds taken) sound effect.run

/-- A pointer that is not removed is still there. -/
theorem Effect.mem (effect : Effect store labels removed added next) (here : pointer ∈ store.pointers)
    (kept : pointer ∉ removed) : pointer ∈ next.pointers := by
  have count := effect.pointers pointer
  have before := List.count_pos_iff.mpr here
  rw [List.count_eq_zero.mpr kept] at count
  exact List.count_pos_iff.mp (by omega)

/-- An added pointer that is not removed is there. -/
theorem Effect.mem_added (effect : Effect store labels removed added next) (new : pointer ∈ added)
    (kept : pointer ∉ removed) : pointer ∈ next.pointers := by
  have count := effect.pointers pointer
  have after := List.count_pos_iff.mpr new
  rw [List.count_eq_zero.mpr kept] at count
  exact List.count_pos_iff.mp (by omega)

/-- The changed pointers are arranged as expected. -/
theorem Effect.perm {before after : List IntrusiveRefCntPtr} (effect : Effect store labels removed added next)
    (arranged : store.pointers.Perm before)
    (same : ∀ pointer, after.count pointer + removed.count pointer = before.count pointer + added.count pointer) :
    next.pointers.Perm after := by
  refine List.perm_iff_count.mpr fun pointer => ?_
  have count := effect.pointers pointer
  have old := arranged.count_eq pointer
  have new := same pointer
  omega

/-- When no pointer is removed, the added ones count with those that were there. -/
theorem Effect.grows (effect : Effect store labels [] added next) (object : Nat) :
    next.holders object = added.countP (fun pointer => pointer.obj = some object) + store.holders object := by
  have all : next.pointers.Perm (added ++ store.pointers) := by
    refine effect.perm (List.Perm.refl _) fun pointer => ?_
    rw [List.count_append, List.count_nil]
    omega
  rw [holders, all.countP_eq, List.countP_append, holders]

section Operations

/-- A copy of a pointer retains its object. -/
theorem copy_effect (sound : store.Sound) (here : source ∈ store.pointers) (obj : source.obj = some object)
    {owner : Option Nat} (admitted : store.admits owner = true) :
    ∃ next, Effect store [.copy source owner] [] [⟨owner, some object⟩] next ∧
      next.objects.length = store.objects.length ∧ ∀ other, next.phase? other = store.phase? other := by
  have taken : store.step (.copy source owner) = some ((store.retain object).add ⟨owner, some object⟩) := by
    simp [step, here, admitted, copy, obj]
  refine ⟨_, ⟨Execution.exec_cons_some.mpr ⟨_, taken, rfl⟩, rfl, fun pointer => ?_⟩, List.length_modify ..,
    fun other => ?_⟩
  · change (_ :: store.pointers).count pointer + _ = _
    rw [List.count_cons, List.count_cons, List.count_nil]
    omega
  · rw [phase_retain (sound.alive here obj)]
    split
    case isTrue same =>
        subst same
        exact (phase?_iff.mpr (sound.pointed here obj)).symm
    case isFalse => rfl

/-- A pointer that is constructed from a plain one makes its object held. -/
theorem construct_effect (alive : store.alive object = true) {owner : Option Nat} (admitted : store.admits owner = true) :
    ∃ next, Effect store [.construct object owner] [] [⟨owner, some object⟩] next ∧
      next.objects.length = store.objects.length ∧
      ∀ other, next.phase? other = if other = object then some .held else store.phase? other := by
  have taken : store.step (.construct object owner) = some ((store.retain object).add ⟨owner, some object⟩) := by
    simp [step, alive, admitted]
  refine ⟨_, ⟨Execution.exec_cons_some.mpr ⟨_, taken, rfl⟩, rfl, fun pointer => ?_⟩, List.length_modify ..,
    fun other => phase_retain alive _⟩
  change (_ :: store.pointers).count pointer + _ = _
  rw [List.count_cons, List.count_cons, List.count_nil]
  omega

/-- A new object is fresh. -/
theorem create_effect (store : PointerStore) : ∃ next, Effect store [.create] [] [] next ∧
    next.objects.length = store.objects.length + 1 ∧
      ∀ other, next.phase? other = if other = store.objects.length then some .fresh else store.phase? other :=
  ⟨_, ⟨Execution.exec_cons_some.mpr ⟨_, rfl, rfl⟩, rfl, fun pointer => rfl⟩, by simp, phase_created store⟩

/-- A pointer that is erased counts once less. -/
theorem count_erase_add {pointers : List IntrusiveRefCntPtr} (here : pointer ∈ pointers) (other : IntrusiveRefCntPtr) :
    (pointers.erase pointer).count other + [pointer].count other = pointers.count other := by
  have split := (List.perm_cons_erase here).count_eq other
  rw [List.count_cons] at split
  rw [List.count_singleton, split]

/-- The destructor of a pointer enters the release of its object. -/
theorem destroy_run (threads : store.threads = [calls]) (here : pointer ∈ store.pointers)
    (obj : pointer.obj = some object) :
    store.step (.destroy 0 pointer) = some ((store.remove pointer).setCalls 0 (.release object :: calls)) := by
  simp [step, threads, here, destroy, obj]

/-- A pointer leaves an object that has another pointer. -/
theorem leave_effect (sound : store.Sound) (threads : store.threads = [calls]) (here : pointer ∈ store.pointers)
    (obj : pointer.obj = some object) (shared : 2 ≤ store.holders object) :
    ∃ next, Effect store (leave pointer) [pointer] [] next ∧ next.objects.length = store.objects.length ∧
      ∀ other, next.phase? other = store.phase? other := by
  obtain ⟨counted, found, held⟩ := sound.pointed here obj
  have right := sound.counted object counted found
  have more : counted.refCount - 1 ≠ 0 := by
    rw [uses] at right
    omega
  have second : ((store.remove pointer).setCalls 0 (.release object :: calls)).step (.next 0) =
      some ((((store.remove pointer).setCalls 0 (.release object :: calls)).setObject object
        ⟨counted.refCount - 1, counted.phase⟩).setCalls 0 calls) := by
    simp [step, setCalls, remove, threads, callStep, found, more]
  refine ⟨_, ⟨Execution.exec_cons_some.mpr ⟨_, destroy_run threads here obj,
    Execution.exec_cons_some.mpr ⟨_, second, rfl⟩⟩, ?_, fun other => ?_⟩, ?_, fun other => ?_⟩
  · simp [setCalls, setObject, remove, threads]
  · exact count_erase_add here other
  · exact List.length_set
  · rw [phase_set found rfl]
    split
    case isTrue same => rw [same, phase?, found, Option.map_some]
    case isFalse => rfl

/-- The release of the last pointer begins to delete the object. -/
theorem last_run (sound : store.Sound) (threads : store.threads = [calls]) (here : pointer ∈ store.pointers)
    (obj : pointer.obj = some object) (last : store.holders object = 1)
    (unentered : calls.count (.release object) = 0) :
    ∃ next, Execution.exec step store [.destroy 0 pointer, .next 0] = some next ∧
      next.threads = [.delete object :: calls] ∧ next.pointers = store.pointers.erase pointer ∧
      next.objects.length = store.objects.length ∧
      ∀ other, next.phase? other = if other = object then some .dying else store.phase? other := by
  obtain ⟨counted, found, held⟩ := sound.pointed here obj
  have right := sound.counted object counted found
  have none : store.calling (.release object) = 0 := by
    rw [calling, threads]
    simpa [Threads.weight] using unentered
  have zero : counted.refCount - 1 = 0 := by
    rw [uses, none] at right
    omega
  have second : ((store.remove pointer).setCalls 0 (.release object :: calls)).step (.next 0) =
      some ((((store.remove pointer).setCalls 0 (.release object :: calls)).setObject object
        ⟨counted.refCount - 1, .dying⟩).setCalls 0 (.delete object :: calls)) := by
    simp [step, setCalls, remove, threads, callStep, found, zero]
  refine ⟨_, Execution.exec_cons_some.mpr ⟨_, destroy_run threads here obj,
    Execution.exec_cons_some.mpr ⟨_, second, rfl⟩⟩, ?_, rfl, List.length_set, fun other => by rw [phase_set found rfl]⟩
  simp [setCalls, setObject, remove, threads]

/-- The memory of an object without members is freed. -/
theorem free_run {counted : CountedObject} (threads : store.threads = [.delete object :: calls])
    (found : store.objects[object]? = some counted) (destroyed : ∀ pointer ∈ store.pointers, pointer.owner ≠ some object) :
    ∃ next, Execution.exec step store [.next 0] = some next ∧ next.threads = [calls] ∧ next.pointers = store.pointers ∧
      next.objects.length = store.objects.length ∧
      ∀ other, next.phase? other = if other = object then some .freed else store.phase? other := by
  have taken : store.step (.next 0) =
      some ((store.setObject object ⟨counted.refCount, .freed⟩).setCalls 0 calls) := by
    simpa [step, threads, callStep, found] using destroyed
  refine ⟨_, Execution.exec_cons_some.mpr ⟨_, taken, rfl⟩, ?_, rfl, List.length_set,
    fun other => by rw [phase_set found rfl]⟩
  simp [setCalls, setObject, threads]

/-- The last pointer of an object deletes it, with its only member. -/
theorem leaveLast_effect {target : Nat} (sound : store.Sound) (threads : store.threads = [calls])
    (here : pointer ∈ store.pointers) (obj : pointer.obj = some object) (last : store.holders object = 1)
    (unentered : calls.count (.release object) = 0) (there : member ∈ store.pointers.erase pointer)
    (only : ∀ other ∈ (store.pointers.erase pointer).erase member, other.owner ≠ some object)
    (goal : member.obj = some target) (apart : target ≠ object) (shared : 2 ≤ store.holders target) :
    ∃ next, Effect store (leaveLast pointer member) [pointer, member] [] next ∧
      next.objects.length = store.objects.length ∧
        ∀ other, next.phase? other = if other = object then some .freed else store.phase? other := by
  obtain ⟨dying, first, threads₁, pointers₁, length₁, phases₁⟩ := last_run sound threads here obj last unentered
  have sound₁ : dying.Sound := Execution.exec_invariant (fun _ _ _ holds taken => Sound.step holds taken) sound first
  have shared₁ : 2 ≤ dying.holders target := by
    have removed := holders_remove target here
    rw [obj, if_neg (by simpa using apart.symm)] at removed
    rw [holders, pointers₁]
    change 2 ≤ (store.remove pointer).holders target
    omega
  obtain ⟨bare, second, length₂, phases₂⟩ := leave_effect sound₁ threads₁ (pointers₁ ▸ there) goal shared₁
  have left : bare.pointers.Perm ((store.pointers.erase pointer).erase member) := by
    refine List.perm_iff_count.mpr fun other => ?_
    have one := second.pointers other
    have two := count_erase_add there other
    rw [pointers₁, List.count_nil] at one
    omega
  obtain ⟨counted, found, -⟩ : ∃ counted, bare.objects[object]? = some counted ∧ counted.phase = .dying := by
    rw [← phase?_iff, phases₂, phases₁, if_pos rfl]
  obtain ⟨next, third, threads₃, pointers₃, length₃, phases₃⟩ :=
    free_run (second.threads.trans threads₁) found fun other there => only other (left.subset there)
  refine ⟨next, ⟨?_, ?_, fun other => ?_⟩, ?_, fun other => ?_⟩
  · exact Execution.exec_append_some.mpr ⟨_, Execution.exec_append_some.mpr ⟨_, first, second.run⟩, third⟩
  · rw [threads₃, threads]
  · have one := second.pointers other
    have two := count_erase_add here other
    rw [pointers₁, List.count_nil] at one
    rw [pointers₃, List.count_cons, List.count_nil]
    rw [List.count_singleton] at two
    omega
  · rw [length₃, length₂, length₁]
  · rw [phases₃, phases₂, phases₁]
    split <;> rfl

/-- A rearrangement that keeps the calls has the effect that its counts say. -/
theorem rearrange_effect {label : PointerLabel} (taken : store.step label = some next)
    (changed : Rearrangement store label next)
    (pointers : ∀ pointer, next.pointers.count pointer + removed.count pointer =
      store.pointers.count pointer + added.count pointer) : Effect store [label] removed added next :=
  ⟨Execution.exec_cons_some.mpr ⟨_, taken, rfl⟩, by cases changed <;> rfl, pointers⟩

/-- A swap exchanges the objects of two pointers. -/
theorem swap_effect {first second : IntrusiveRefCntPtr} (here : first ∈ store.pointers)
    (there : second ∈ store.pointers.erase first) :
    ∃ next, Effect store [.swap first second] [first, second] [⟨first.owner, second.obj⟩, ⟨second.owner, first.obj⟩]
      next ∧ next.objects = store.objects := by
  have taken : store.step (.swap first second) = some ((((store.remove first).remove second).add
      ⟨first.owner, second.obj⟩).add ⟨second.owner, first.obj⟩) := by
    simp [step, here, there]
  refine ⟨_, rearrange_effect taken (.swap first second here there) fun pointer => ?_, rfl⟩
  have one := count_erase_add here pointer
  have two := count_erase_add there pointer
  change (_ :: _ :: (store.pointers.erase first).erase second).count pointer + _ = _
  rw [List.count_singleton] at one two
  simp only [List.count_cons, List.count_nil]
  omega

/-- The destructor of an empty pointer releases nothing. -/
theorem destroyEmpty_effect (threads : store.threads = [calls]) (here : pointer ∈ store.pointers)
    (obj : pointer.obj = none) :
    ∃ next, Effect store [.destroy 0 pointer] [pointer] [] next ∧ next.objects = store.objects := by
  have taken : store.step (.destroy 0 pointer) = some (store.remove pointer) := by
    simp [step, threads, here, destroy, obj]
  exact ⟨_, rearrange_effect taken (.destroyEmpty 0 pointer here obj) fun other => count_erase_add here other, rfl⟩

/-- An effect is determined by its counts. -/
theorem Effect.change (effect : Effect store labels removed added next)
    (same : ∀ pointer, fewer.count pointer + added.count pointer = more.count pointer + removed.count pointer) :
    Effect store labels fewer more next :=
  ⟨effect.run, effect.threads, fun pointer => by
    have one := effect.pointers pointer
    have two := same pointer
    omega⟩

/-- An assignment to a new variable adds a pointer to the object of the source. -/
theorem assign_effect (sound : store.Sound) (threads : store.threads = [calls]) (here : source ∈ store.pointers)
    (obj : source.obj = some object) :
    ∃ next, Effect store (assign source) [] [⟨none, some object⟩] next ∧ next.objects.length = store.objects.length ∧
      ∀ other, next.phase? other = store.phase? other := by
  -- The variable is empty, and the parameter holds the object.
  have made : store.step (.empty none) = some (store.add ⟨none, none⟩) := by simp [step, admits]
  have empty : Effect store [.empty none] [] [⟨none, none⟩] (store.add ⟨none, none⟩) := by
    refine rearrange_effect made (.empty none rfl) fun pointer => ?_
    change (_ :: store.pointers).count pointer + _ = _
    rw [List.count_cons, List.count_cons, List.count_nil]
    omega
  obtain ⟨copied, copy, length, phases⟩ := copy_effect (empty.sound sound) (List.mem_cons_of_mem _ here) obj
    (show (store.add ⟨none, none⟩).admits none = true from rfl)
  have event : (⟨none, none⟩ : IntrusiveRefCntPtr) ∈ copied.pointers :=
    copy.mem (List.mem_cons_self ..) List.not_mem_nil
  have parameter : (⟨none, some object⟩ : IntrusiveRefCntPtr) ∈ copied.pointers.erase ⟨none, none⟩ :=
    (List.mem_erase_of_ne (by simp)).mpr (copy.mem_added (List.mem_singleton_self _) List.not_mem_nil)
  -- Behind the swap, the parameter is empty.
  obtain ⟨swapped, swap, same⟩ := swap_effect event parameter
  have last : (⟨none, none⟩ : IntrusiveRefCntPtr) ∈ swapped.pointers := by
    refine List.count_pos_iff.mp ?_
    have count := swap.pointers ⟨none, none⟩
    have before := List.count_pos_iff.mpr event
    simp only [List.count_cons, List.count_nil] at count
    simp at count
    omega
  obtain ⟨next, destroy, same'⟩ :=
    destroyEmpty_effect (swap.threads.trans (copy.threads.trans threads)) last rfl
  refine ⟨next, ?_, ?_, fun other => ?_⟩
  · rw [assign, obj]
    refine Effect.change (((empty.trans copy).trans swap).trans destroy) fun pointer => ?_
    simp only [List.nil_append, List.append_nil, List.cons_append, List.count_cons, List.count_nil]
    omega
  · rw [same', same, length]
    rfl
  · rw [phase?, same', same, ← phase?, phases]
    rfl

/-- When the body of a call has returned, the parameter is destroyed, and what the body added stays. -/
theorem passing_effect {after : PointerStore} {body : List PointerLabel} (sound : store.Sound)
    (threads : store.threads = [calls]) (here : source ∈ store.pointers) (obj : source.obj = some object)
    (copy : Effect store [.copy source none] [] [⟨none, some object⟩] middle)
    (inside : Effect middle body [] added after) :
    ∃ next, Effect store (passing source body) [] added next ∧ next.objects.length = after.objects.length ∧
      ∀ other, next.phase? other = after.phase? other := by
  have both := copy.trans inside
  have parameter : (⟨none, some object⟩ : IntrusiveRefCntPtr) ∈ after.pointers :=
    both.mem_added (List.mem_cons_self ..) List.not_mem_nil
  have shared : 2 ≤ after.holders object := by
    have before : 0 < store.holders object := List.countP_pos_iff.mpr ⟨source, here, by simp [obj]⟩
    rw [both.grows object]
    simp only [List.nil_append, List.cons_append, List.countP_cons, decide_true, if_true]
    omega
  obtain ⟨next, leave, length, phases⟩ :=
    leave_effect (both.sound sound) (both.threads.trans threads) parameter rfl shared
  refine ⟨next, ?_, length, phases⟩
  rw [passing, obj]
  refine Effect.change (both.trans leave) fun pointer => ?_
  simp only [List.nil_append, List.append_nil, List.cons_append, List.count_cons, List.count_nil]
  omega

end Operations

end Dtel.PointerStore
