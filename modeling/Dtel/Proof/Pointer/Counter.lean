import Dtel.Proof.Pointer.Sound

namespace Dtel.PointerStore

variable {store next : PointerStore} {label : PointerLabel} {labels : List PointerLabel} {threads object : Nat}

/-- The step gives no pointer to an object that already has `INT_MAX` pointers and pending releases. -/
def Room (store : PointerStore) : PointerLabel → Prop
  | .construct object _ => store.uses object < 2147483647
  | .copy source _ => ∀ object ∈ source.obj, store.uses object < 2147483647
  | _ => True

instance Room.decidable (store : PointerStore) : (label : PointerLabel) → Decidable (store.Room label)
  | .construct object _ => inferInstanceAs (Decidable (store.uses object < 2147483647))
  | .copy source _ => inferInstanceAs (Decidable (∀ object ∈ source.obj, store.uses object < 2147483647))
  | .create | .empty _ | .move .. | .swap .. | .destroy .. | .next _ => .isTrue trivial

/-- Each counter stays in the range of `int`. -/
def Bounded (store : PointerStore) : Prop :=
  ∀ (object : Nat) (counted : CountedObject), store.objects[object]? = some counted → counted.refCount ≤ 2147483647

/-- A retained object keeps its counter in the range, when there is room. -/
theorem Bounded.retain (bounded : store.Bounded) (sound : store.Sound) (room : store.uses object < 2147483647)
    (pointer : IntrusiveRefCntPtr) : ((store.retain object).add pointer).Bounded := by
  intro other counted there
  rcases retain_cases there with ⟨-, old, found, rfl⟩ | ⟨apart, found⟩
  · have right := sound.counted object old found
    dsimp only
    omega
  · exact bounded other counted found

/-- An object whose counter does not grow keeps it in the range. -/
theorem Bounded.setObject {before after : CountedObject} (bounded : store.Bounded)
    (found : store.objects[object]? = some before) (less : after.refCount ≤ before.refCount) :
    (store.setObject object after).Bounded := by
  intro other counted there
  rcases setObject_cases there found with ⟨-, rfl⟩ | ⟨apart, there⟩
  · exact Int.le_trans less (bounded object before found)
  · exact bounded other counted there

/-- A step keeps all counters in the range, when there is room. -/
theorem Bounded.step (bounded : store.Bounded) (sound : store.Sound) (room : store.Room label)
    (taken : store.step label = some next) : next.Bounded := by
  cases step_cases taken with
  | rearrange label next changed => cases changed <;> exact bounded
  | create =>
      intro object counted there
      rw [List.getElem?_append] at there
      split at there
      case isTrue => exact bounded object counted there
      case isFalse =>
          cases List.mem_singleton.mp (List.mem_of_getElem? there)
          decide
  | construct object owner alive admitted => exact bounded.retain sound room _
  | copy source owner object member obj admitted => exact bounded.retain sound (room object obj) _
  | destroy thread calls pointer object there member obj => exact bounded
  | release thread calls object counted there found more => exact bounded.setObject found (by dsimp only; omega)
  | last thread calls object counted there found zero => exact bounded.setObject found (by dsimp only; omega)
  | free thread calls object counted there found destroyed => exact bounded.setObject found (by dsimp only; omega)

/-- A counter in the range of `int` does not wrap. -/
theorem wrap_of_bounded (bounded : store.Bounded) (sound : store.Sound) : store.wrap = store := by
  have same (counted : CountedObject) (member : counted ∈ store.objects) :
      { counted with refCount := counted.refCount.bmod 4294967296 } = counted := by
    obtain ⟨object, there⟩ := List.mem_iff_getElem?.mp member
    have right := sound.counted object counted there
    have less := bounded object counted there
    rw [Int.bmod_eq_of_le_mul_two (by omega) (by omega)]
  rw [wrap, List.map_congr_left same, List.map_id']

/-- With room, a step does what it does to unbounded counters. -/
theorem wrappingStep_eq (bounded : store.Bounded) (sound : store.Sound) (room : store.Room label) :
    store.wrappingStep label = store.step label := by
  cases taken : store.step label with
  | none => rw [wrappingStep, taken, Option.map_none]
  | some next =>
      rw [wrappingStep, taken, Option.map_some, wrap_of_bounded (bounded.step sound room taken) (sound.step taken)]

/-- A further pointer to an object with `INT_MAX` uses makes its counter negative. -/
theorem wrap_retain (bounded : store.Bounded) (sound : store.Sound) (alive : store.alive object = true)
    (full : 2147483647 ≤ store.uses object) (pointer : IntrusiveRefCntPtr) :
    ∃ counted, ((store.retain object).add pointer).wrap.objects[object]? = some counted ∧ counted.refCount < 0 := by
  obtain ⟨counted, there, -⟩ := alive_iff.mp alive
  have right := sound.counted object counted there
  have less := bounded object counted there
  have most : counted.refCount = 2147483647 := by omega
  refine ⟨⟨(counted.refCount + 1).bmod 4294967296, .held⟩, ?_, ?_⟩
  · change (List.map _ (store.retain object).objects)[object]? = _
    rw [List.getElem?_map, retain_self, there]
    rfl
  · rw [most]
    decide

/-- Without room, a step makes a counter negative. -/
theorem wraps_without_room (bounded : store.Bounded) (sound : store.Sound) (full : ¬store.Room label)
    (taken : store.wrappingStep label = some next) :
    ∃ (object : Nat) (counted : CountedObject), next.objects[object]? = some counted ∧ counted.refCount < 0 := by
  obtain ⟨after, stepped, rfl⟩ := Option.map_eq_some_iff.mp taken
  cases step_cases stepped with
  | construct object owner alive admitted =>
      exact ⟨object, wrap_retain bounded sound alive (Nat.not_lt.mp full) _⟩
  | copy source owner object member obj admitted =>
      refine ⟨object, wrap_retain bounded sound (sound.alive member obj) ?_ _⟩
      by_contra less
      refine full fun other same => ?_
      cases obj.symm.trans same
      omega
  | rearrange label next changed =>
      cases changed with
      | copyEmpty source owner member obj admitted => exact absurd (fun object same => by simp [obj] at same) full
      | _ => exact absurd trivial full
  | _ => exact absurd trivial full

/-- While no object gets more than `INT_MAX` pointers, every pointer holds an object that exists and has not been
deleted, and the count of the object is the number of its pointers and pending releases. A release never finds a count
of zero. Each object is freed at most once, after all pointers to it and all its members. A pointer too many makes a
count negative. -/
theorem pointers_never_dangle (room : Execution.Along wrappingStep Room (initial threads) labels)
    (run : Execution.exec wrappingStep (initial threads) labels = some store) :
    (∀ pointer ∈ store.pointers,
      (∀ object, pointer.obj = some object → ∃ counted, store.objects[object]? = some counted ∧
        counted.phase = .held ∧ counted.refCount = store.holders object + store.calling (.release object)) ∧
      ∀ object, pointer.owner = some object → store.phase? object ≠ some .freed) ∧
    (∀ (thread object : Nat) (calls : List PointerCall), store.threads[thread]? = some (.release object :: calls) →
      ∃ counted, store.objects[object]? = some counted ∧ 0 ≤ counted.refCount - 1) ∧
    (Execution.trace wrappingStep frees (initial threads) labels).Nodup ∧
    (∀ object, object ∈ Execution.trace wrappingStep frees (initial threads) labels ↔
      store.phase? object = some .freed) ∧
    ∀ label next, ¬store.Room label → store.wrappingStep label = some next →
      ∃ (object : Nat) (counted : CountedObject), next.objects[object]? = some counted ∧ counted.refCount < 0 := by
  have kept (store : PointerStore) (label : PointerLabel) (next : PointerStore) (shown : List Nat)
      (holds : (store.Sound ∧ store.Bounded) ∧ shown.Nodup ∧
        ∀ object, object ∈ shown ↔ store.phase? object = some .freed)
      (room : store.Room label) (taken : store.wrappingStep label = some next) :
      (next.Sound ∧ next.Bounded) ∧ (shown ++ frees store label).Nodup ∧
        ∀ object, object ∈ shown ++ frees store label ↔ next.phase? object = some .freed := by
    obtain ⟨⟨sound, bounded⟩, once, freed⟩ := holds
    rw [wrappingStep_eq bounded sound room] at taken
    refine ⟨⟨sound.step taken, bounded.step sound room taken⟩,
      List.nodup_append.mpr ⟨once, frees_nodup, ?_⟩, fun object => ?_⟩
    · rintro object member other now rfl
      have dying := sound.frees_dying now
      rw [(freed object).mp member] at dying
      cases dying
    · rw [List.mem_append, freed, sound.freed_step taken]
  have start : ((initial threads).Sound ∧ (initial threads).Bounded) ∧ ([] : List Nat).Nodup ∧
      ∀ object, object ∈ ([] : List Nat) ↔ (initial threads).phase? object = some .freed :=
    ⟨⟨initial_sound threads, fun object counted there => by simp [initial] at there⟩, List.nodup_nil,
      fun object => by simp [initial, phase?]⟩
  obtain ⟨⟨sound, bounded⟩, once, freed⟩ := Execution.trace_invariant_along kept start room run
  rw [List.nil_append] at once freed
  refine ⟨fun pointer member => ⟨fun object obj => ?_, fun object owner gone => ?_⟩,
    fun thread object calls there => ?_, once, freed, fun label next => wraps_without_room bounded sound⟩
  · obtain ⟨counted, there, held⟩ := sound.pointed member obj
    have right := sound.counted object counted there
    rw [uses] at right
    exact ⟨counted, there, held, by omega⟩
  · obtain ⟨phase, there, kept⟩ := sound.owned pointer member object owner
    exact kept (Option.some.inj (there.symm.trans gone))
  · obtain ⟨counted, found, -, positive⟩ := sound.pending there
    exact ⟨counted, found, by omega⟩

/-- Two threads release the two pointers to an object, and the second one deletes it. -/
def sharedRun : List PointerLabel :=
  [.create, .construct 0 none, .copy ⟨none, some 0⟩ none, .destroy 0 ⟨none, some 0⟩, .destroy 1 ⟨none, some 0⟩,
    .next 0, .next 1, .next 1]

theorem pointers_never_dangle_here : ∃ store, Execution.exec wrappingStep (initial 2) sharedRun = some store ∧
    store.pointers = [] ∧ [0].Nodup ∧ store.phase? 0 = some .freed := by
  have ends : (Execution.exec wrappingStep (initial 2) sharedRun).map pointers = some [] := by decide
  have freed : Execution.trace wrappingStep frees (initial 2) sharedRun = [0] := by decide
  have room : Execution.Along wrappingStep Room (initial 2) sharedRun := by decide
  obtain ⟨store, run, empty⟩ := Option.map_eq_some_iff.mp ends
  obtain ⟨-, -, once, gone, -⟩ := pointers_never_dangle room run
  rw [freed] at once gone
  exact ⟨store, run, empty, once, (gone 0).mp (List.mem_singleton_self 0)⟩

end Dtel.PointerStore
