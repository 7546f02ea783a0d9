import Dtel.Proof.Pointer.Step

namespace Dtel.PointerStore

variable {store next : PointerStore} {label : PointerLabel} {labels : List PointerLabel} {threads object other : Nat}

/-- The object has this number of pointers and of releases that have not decremented the count. -/
def uses (store : PointerStore) (object : Nat) : Nat := store.holders object + store.calling (.release object)

/-- The phase of an object that exists. -/
def phase? (store : PointerStore) (object : Nat) : Option Phase := store.objects[object]?.map CountedObject.phase

theorem phase?_iff {phase : Phase} : store.phase? object = some phase ↔
    ∃ counted, store.objects[object]? = some counted ∧ counted.phase = phase :=
  Option.map_eq_some_iff

/-- The retained object is held. -/
theorem phase_retain (alive : store.alive object = true) (pointer : IntrusiveRefCntPtr) :
    ((store.retain object).add pointer).phase? other = if other = object then some .held else store.phase? other := by
  obtain ⟨counted, here, -⟩ := alive_iff.mp alive
  change (store.retain object).objects[other]?.map CountedObject.phase = _
  split
  case isTrue same =>
      rw [same, retain_self, here]
      rfl
  case isFalse apart => rw [retain_other apart, phase?]

/-- A changed object has its new phase. -/
theorem phase_set {before after : CountedObject} (here : store.objects[object]? = some before)
    (objects : next.objects = store.objects.set object after) :
    next.phase? other = if other = object then some after.phase else store.phase? other := by
  rw [phase?, objects]
  split
  case isTrue same =>
      rw [same, Threads.set_self here]
      rfl
  case isFalse apart => rw [List.getElem?_set_ne (Ne.symm apart), phase?]

/-- The phase of a new object is `fresh`, and the other phases stay. -/
theorem phase_create {phase : Phase} (later : phase ≠ .fresh) :
    ({ store with objects := store.objects ++ [⟨0, .fresh⟩] } : PointerStore).phase? object = some phase ↔
      store.phase? object = some phase := by
  rw [phase?_iff, phase?_iff]
  constructor
  · rintro ⟨counted, there, same⟩
    rw [List.getElem?_append] at there
    split at there
    case isTrue => exact ⟨counted, there, same⟩
    case isFalse =>
        cases List.mem_singleton.mp (List.mem_of_getElem? there)
        exact absurd same.symm later
  · rintro ⟨counted, there, same⟩
    exact ⟨counted, (List.getElem?_append_left (List.getElem?_eq_some_iff.mp there).1).trans there, same⟩

/-- A new object is fresh. -/
theorem phase_created (store : PointerStore) (other : Nat) :
    ({ store with objects := store.objects ++ [⟨0, .fresh⟩] } : PointerStore).phase? other =
      if other = store.objects.length then some .fresh else store.phase? other := by
  rw [phase?, phase?, List.getElem?_append]
  split
  case isTrue below => rw [if_neg (Nat.ne_of_lt below)]
  case isFalse beyond =>
      by_cases same : other = store.objects.length
      · simp [same]
      · rw [if_neg same, List.getElem?_eq_none (Nat.not_lt.mp beyond), List.getElem?_eq_none]
        simp
        omega

/-- The counts are right, an object in use is held, and one thread deletes each dying object. -/
structure Sound (store : PointerStore) : Prop where
  counted : ∀ (object : Nat) (counted : CountedObject), store.objects[object]? = some counted →
    counted.refCount = store.uses object
  live : ∀ object, 0 < store.uses object ↔ store.phase? object = some .held
  owned : ∀ pointer ∈ store.pointers, ∀ object, pointer.owner = some object →
    ∃ phase, store.phase? object = some phase ∧ phase ≠ .freed
  deleting : ∀ object, store.calling (.delete object) = if store.phase? object = some .dying then 1 else 0

section Steps

/-- A step that keeps the objects, their uses and the deletions keeps the invariant. -/
theorem Sound.same (sound : store.Sound) (objects : next.objects = store.objects)
    (uses : ∀ object, next.uses object = store.uses object)
    (deletes : ∀ object, next.calling (.delete object) = store.calling (.delete object))
    (owners : ∀ pointer ∈ next.pointers, store.admits pointer.owner = true ∨
      ∃ old ∈ store.pointers, old.owner = pointer.owner) : next.Sound := by
  have phases (object : Nat) : next.phase? object = store.phase? object := by rw [phase?, phase?, objects]
  refine ⟨?_, ?_, ?_, ?_⟩
  · intro object counted there
    rw [uses]
    exact sound.counted object counted (objects ▸ there)
  · intro object
    rw [uses, phases]
    exact sound.live object
  · intro pointer member object owner
    rw [phases]
    rcases owners pointer member with admitted | ⟨old, before, same⟩
    · rw [owner, admits, alive_iff] at admitted
      obtain ⟨counted, there, fresh | held⟩ := admitted
      · exact ⟨.fresh, phase?_iff.mpr ⟨counted, there, fresh⟩, by decide⟩
      · exact ⟨.held, phase?_iff.mpr ⟨counted, there, held⟩, by decide⟩
    · exact sound.owned old before object (same.trans owner)
  · intro object
    rw [deletes, phases]
    exact sound.deleting object

/-- A rearrangement keeps the uses of each object. -/
theorem Rearrangement.uses (changed : Rearrangement store label next) : next.uses object = store.uses object := by
  have holders : next.holders object = store.holders object := by
    cases changed with
    | empty owner admitted => simp [holders_add]
    | copyEmpty source owner member obj admitted => simp [holders_add]
    | move source owner member admitted =>
        have removed := holders_remove object member
        rw [holders_add, holders_add]
        simp only [reduceCtorEq, if_false]
        omega
    | swap first second member distinct =>
        have removed := holders_remove object member
        have again : ((store.remove first).remove second).holders object +
            (if second.obj = some object then 1 else 0) = (store.remove first).holders object :=
          holders_remove object distinct
        rw [holders_add, holders_add]
        dsimp only
        omega
    | destroyEmpty thread pointer member obj =>
        have removed := holders_remove object member
        rw [obj] at removed
        simpa using removed
  have calls : next.calling (.release object) = store.calling (.release object) := by cases changed <;> rfl
  rw [PointerStore.uses, PointerStore.uses, holders, calls]

/-- A rearrangement puts pointers where a pointer was, or where one may be. -/
theorem Rearrangement.owners (changed : Rearrangement store label next) :
    ∀ pointer ∈ next.pointers, store.admits pointer.owner = true ∨ ∃ old ∈ store.pointers, old.owner = pointer.owner := by
  have kept {pointer : IntrusiveRefCntPtr} (member : pointer ∈ store.pointers) :
      store.admits pointer.owner = true ∨ ∃ old ∈ store.pointers, old.owner = pointer.owner :=
    Or.inr ⟨pointer, member, rfl⟩
  intro pointer member
  cases changed with
  | empty owner admitted | copyEmpty source owner _ _ admitted =>
      rcases List.mem_cons.mp member with rfl | old
      · exact Or.inl admitted
      · exact kept old
  | move source owner there admitted =>
      rcases List.mem_cons.mp member with rfl | member
      · exact Or.inl admitted
      · rcases List.mem_cons.mp member with rfl | old
        · exact Or.inr ⟨source, there, rfl⟩
        · exact kept (List.mem_of_mem_erase old)
  | swap first second there distinct =>
      rcases List.mem_cons.mp member with rfl | member
      · exact Or.inr ⟨second, List.mem_of_mem_erase distinct, rfl⟩
      · rcases List.mem_cons.mp member with rfl | old
        · exact Or.inr ⟨first, there, rfl⟩
        · exact kept (List.mem_of_mem_erase (List.mem_of_mem_erase old))
  | destroyEmpty thread pointer there obj => exact kept (List.mem_of_mem_erase member)

/-- A new pointer to an object retains it. -/
theorem Sound.retain (sound : store.Sound) {owner : Option Nat} (alive : store.alive object = true)
    (admitted : store.admits owner = true) : ((store.retain object).add ⟨owner, some object⟩).Sound := by
  obtain ⟨before, here, phase⟩ := alive_iff.mp alive
  have uses (other : Nat) : ((store.retain object).add ⟨owner, some object⟩).uses other =
      store.uses other + if other = object then 1 else 0 := by
    have added : ((store.retain object).add ⟨owner, some object⟩).holders other = _ := holders_add _
    have same : (store.retain object).holders other = store.holders other := rfl
    simp only [Option.some.injEq, same, eq_comm (a := object)] at added
    rw [PointerStore.uses, PointerStore.uses, added]
    change _ + _ + store.calling _ = _
    omega
  have phases (other : Nat) : ((store.retain object).add ⟨owner, some object⟩).phase? other =
      if other = object then some .held else store.phase? other := phase_retain alive _
  refine ⟨?_, ?_, ?_, ?_⟩
  · intro other counted there
    rcases retain_cases there with ⟨rfl, old, found, rfl⟩ | ⟨apart, found⟩
    · have right := sound.counted other old found
      simp only [uses, if_true]
      omega
    · rw [uses, if_neg apart]
      exact sound.counted other counted found
  · intro other
    rw [uses, phases]
    by_cases same : other = object
    · simp [same]
    · simpa [same] using sound.live other
  · intro pointer member other owned
    rw [phases]
    split
    case isTrue => exact ⟨.held, rfl, by decide⟩
    case isFalse apart =>
        rcases List.mem_cons.mp member with rfl | old
        · cases owned
          obtain ⟨counted, there, fresh | held⟩ := alive_iff.mp admitted
          · exact ⟨.fresh, phase?_iff.mpr ⟨counted, there, fresh⟩, by decide⟩
          · exact ⟨.held, phase?_iff.mpr ⟨counted, there, held⟩, by decide⟩
        · exact sound.owned pointer old other owned
  · intro other
    change store.calling (.delete other) = _
    rw [phases, sound.deleting]
    by_cases same : other = object
    · subst same
      have undying : store.phase? other ≠ some .dying := by
        rcases phase with fresh | held
        · simp [phase?, here, fresh]
        · simp [phase?, here, held]
      simp [undying]
    · simp [same]

/-- A new object has no uses. -/
theorem Sound.create (sound : store.Sound) :
    ({ store with objects := store.objects ++ [⟨0, .fresh⟩] } : PointerStore).Sound := by
  refine ⟨?_, ?_, ?_, ?_⟩
  · intro object counted there
    rw [List.getElem?_append] at there
    split at there
    case isTrue => exact sound.counted object counted there
    case isFalse beyond =>
        cases List.mem_singleton.mp (List.mem_of_getElem? there)
        have unused : ¬ 0 < store.uses object := by
          rw [sound.live, phase?, List.getElem?_eq_none (Nat.not_lt.mp beyond)]
          simp
        change (0 : Int) = store.uses object
        omega
  · intro object
    exact (sound.live object).trans (phase_create (by decide)).symm
  · intro pointer member object owner
    obtain ⟨phase, there, kept⟩ := sound.owned pointer member object owner
    obtain ⟨counted, found, same⟩ := phase?_iff.mp there
    exact ⟨phase, phase?_iff.mpr
      ⟨counted, (List.getElem?_append_left (List.getElem?_eq_some_iff.mp found).1).trans found, same⟩, kept⟩
  · intro object
    change store.calling _ = _
    rw [sound.deleting]
    simp only [phase_create (show Phase.dying ≠ .fresh by decide)]

/-- A step that changes one object that is in use, its uses and its deletion keeps the invariant. -/
theorem Sound.change (sound : store.Sound) {before after : CountedObject}
    (here : store.objects[object]? = some before) (objects : next.objects = store.objects.set object after)
    (uses : ∀ other, other ≠ object → next.uses other = store.uses other)
    (counted : after.refCount = next.uses object) (live : 0 < next.uses object ↔ after.phase = .held)
    (pointers : next.pointers = store.pointers)
    (freed : after.phase = .freed → ∀ pointer ∈ store.pointers, pointer.owner ≠ some object)
    (deletes : ∀ other, other ≠ object → next.calling (.delete other) = store.calling (.delete other))
    (deleting : next.calling (.delete object) = if after.phase = .dying then 1 else 0) : next.Sound := by
  have self : next.phase? object = some after.phase := by rw [phase_set here objects, if_pos rfl]
  have apart (other : Nat) (apart : other ≠ object) : next.phase? other = store.phase? other := by
    rw [phase_set here objects, if_neg apart]
  refine ⟨?_, ?_, ?_, ?_⟩
  · intro other found there
    rw [objects] at there
    rcases Threads.set_cases there with ⟨rfl, rfl⟩ | ⟨different, there⟩
    · exact counted
    · rw [uses other different]
      exact sound.counted other found there
  · intro other
    by_cases same : other = object
    · subst same
      rw [self, Option.some.injEq]
      exact live
    · rw [uses other same, apart other same]
      exact sound.live other
  · intro pointer member other owner
    rw [pointers] at member
    by_cases same : other = object
    · subst same
      exact ⟨after.phase, self, fun gone => freed gone pointer member owner⟩
    · rw [apart other same]
      exact sound.owned pointer member other owner
  · intro other
    by_cases same : other = object
    · subst same
      rw [self, deleting]
      simp only [Option.some.injEq]
    · rw [apart other same, deletes other same]
      exact sound.deleting other

end Steps

/-- A pointer holds an object that is held. -/
theorem Sound.pointed (sound : store.Sound) {pointer : IntrusiveRefCntPtr} (member : pointer ∈ store.pointers)
    (obj : pointer.obj = some object) :
    ∃ counted, store.objects[object]? = some counted ∧ counted.phase = .held := by
  have holder : 0 < store.holders object := List.countP_pos_iff.mpr ⟨pointer, member, by simp [obj]⟩
  exact phase?_iff.mp ((sound.live object).mp (Nat.lt_of_lt_of_le holder (Nat.le_add_right _ _)))

/-- A pointer holds an object that is alive. -/
theorem Sound.alive (sound : store.Sound) {pointer : IntrusiveRefCntPtr} (member : pointer ∈ store.pointers)
    (obj : pointer.obj = some object) : store.alive object = true := by
  obtain ⟨counted, there, held⟩ := sound.pointed member obj
  exact alive_iff.mpr ⟨counted, there, Or.inr held⟩

/-- A pending release finds an object that is held, with a count above zero. -/
theorem Sound.pending (sound : store.Sound) {thread : Nat} {calls : List PointerCall}
    (there : store.threads[thread]? = some (.release object :: calls)) :
    ∃ counted, store.objects[object]? = some counted ∧ counted.phase = .held ∧ 0 < counted.refCount := by
  have moved := calling_setCalls calls (.release object) there
  have used : 0 < store.uses object := by
    simp only [List.count_cons_self] at moved
    rw [uses]
    omega
  obtain ⟨counted, found, held⟩ := phase?_iff.mp ((sound.live object).mp used)
  have right := sound.counted object counted found
  exact ⟨counted, found, held, by omega⟩

/-- The calls of a thread change together with an object. -/
theorem uses_setCalls {thread : Nat} {before : List PointerCall} (after : List PointerCall) (object : Nat)
    (counted : CountedObject) (there : store.threads[thread]? = some before) (other : Nat) :
    ((store.setObject object counted).setCalls thread after).uses other + before.count (.release other) =
      store.uses other + after.count (.release other) := by
  have moved := calling_setCalls after (.release other) there
  change store.holders other + (store.setCalls thread after).calling _ + _ = store.holders other + store.calling _ + _
  omega

/-- Each step keeps the invariant. -/
theorem Sound.step (sound : store.Sound) (taken : store.step label = some next) : next.Sound := by
  cases step_cases taken with
  | rearrange label next changed =>
      refine sound.same ?_ (fun object => changed.uses) (fun object => ?_) changed.owners
      · cases changed <;> rfl
      · cases changed <;> rfl
  | create =>
      exact sound.create
  | construct object owner alive admitted => exact sound.retain alive admitted
  | copy source owner object member obj admitted =>
      exact sound.retain (sound.alive member obj) admitted
  | destroy thread calls pointer object there member obj =>
      have removed (other : Nat) := holders_remove other member
      have entered (call : PointerCall) : (store.setCalls thread (.release object :: calls)).calling call + calls.count call =
          store.calling call + (PointerCall.release object :: calls).count call := calling_setCalls _ call there
      refine sound.same rfl (fun other => ?_) (fun other => ?_) fun pointer member => ?_
      · have count := entered (.release other)
        have gone := removed other
        change (store.remove pointer).holders other + (store.setCalls thread _).calling _ =
          store.holders other + store.calling _
        simp only [obj, Option.some.injEq] at gone
        rw [List.count_cons] at count
        simp only [beq_iff_eq, PointerCall.release.injEq] at count
        omega
      · have count := entered (.delete other)
        change (store.setCalls thread _).calling _ = store.calling _
        rw [List.count_cons_of_ne (by simp)] at count
        omega
      · exact Or.inr ⟨pointer, List.mem_of_mem_erase member, rfl⟩
  | release thread calls object counted there found more =>
      obtain ⟨same, found', held, positive⟩ := sound.pending there
      cases found.symm.trans found'
      have right := sound.counted object counted found
      have uses := uses_setCalls calls object ⟨counted.refCount - 1, counted.phase⟩ there
      have calling (call : PointerCall) := calling_setCalls calls call there
      have left := uses object
      simp only [List.count_cons_self] at left
      refine sound.change found rfl (fun other apart => ?_) (by dsimp only; omega) ?_ rfl (by simp [held])
        (fun other apart => ?_) ?_
      · have moved := uses other
        rw [List.count_cons_of_ne (by simpa using apart.symm)] at moved
        omega
      · exact ⟨fun _ => held, fun _ => by omega⟩
      · have moved := calling (.delete other)
        rw [List.count_cons_of_ne (by simp)] at moved
        exact Nat.add_right_cancel moved
      · have moved := calling (.delete object)
        rw [List.count_cons_of_ne (by simp)] at moved
        have alive : store.phase? object = some .held := phase?_iff.mpr ⟨counted, found, held⟩
        have none := sound.deleting object
        rw [alive, if_neg (by decide)] at none
        rw [held, if_neg (by decide), ← none]
        exact Nat.add_right_cancel moved
  | last thread calls object counted there found zero =>
      have right := sound.counted object counted found
      have uses := uses_setCalls (.delete object :: calls) object ⟨counted.refCount - 1, .dying⟩ there
      have calling (call : PointerCall) := calling_setCalls (.delete object :: calls) call there
      have left := uses object
      simp only [List.count_cons_self, List.count_cons_of_ne (show PointerCall.delete object ≠ .release object by simp)]
        at left
      refine sound.change found rfl (fun other apart => ?_) (by dsimp only; omega) ?_ rfl (by simp)
        (fun other apart => ?_) ?_
      · have moved := uses other
        rw [List.count_cons_of_ne (by simpa using apart.symm), List.count_cons_of_ne (by simp)] at moved
        omega
      · simp only [reduceCtorEq, iff_false]
        omega
      · have moved := calling (.delete other)
        rw [List.count_cons_of_ne (by simp), List.count_cons_of_ne (by simpa using apart.symm)] at moved
        exact Nat.add_right_cancel moved
      · obtain ⟨same, found', held, positive⟩ := sound.pending there
        cases found.symm.trans found'
        have moved := calling (.delete object)
        have alive : store.phase? object = some .held := phase?_iff.mpr ⟨counted, found, held⟩
        have none := sound.deleting object
        rw [alive, if_neg (by decide)] at none
        rw [List.count_cons_of_ne (by simp), List.count_cons_self] at moved
        change (store.setCalls thread _).calling _ = 1
        omega
  | free thread calls object counted there found destroyed =>
      have uses := uses_setCalls calls object ⟨counted.refCount, .freed⟩ there
      have calling (call : PointerCall) := calling_setCalls calls call there
      have entered := calling (.delete object)
      have once := sound.deleting object
      rw [List.count_cons_self] at entered
      have dying : store.phase? object = some .dying := by
        by_contra undying
        rw [if_neg undying] at once
        omega
      rw [if_pos dying] at once
      have unused : ¬ 0 < store.uses object := by
        rw [sound.live, dying]
        decide
      have left := uses object
      rw [List.count_cons_of_ne (by simp)] at left
      have right := sound.counted object counted found
      refine sound.change found rfl (fun other apart => ?_) (by dsimp only; omega) ?_ rfl
        (fun _ pointer member => destroyed pointer member) (fun other apart => ?_) ?_
      · have moved := uses other
        rw [List.count_cons_of_ne (by simp)] at moved
        omega
      · simp only [reduceCtorEq, iff_false]
        omega
      · have moved := calling (.delete other)
        rw [List.count_cons_of_ne (by simpa using apart.symm)] at moved
        exact Nat.add_right_cancel moved
      · change (store.setCalls thread _).calling _ = 0
        omega

/-- A thread that has entered no call counts for nothing. -/
theorem initial_calling (threads : Nat) (call : PointerCall) : (initial threads).calling call = 0 := by
  simp [calling, initial, Threads.weight]

theorem initial_sound (threads : Nat) : (initial threads).Sound := by
  have unused (object : Nat) : (initial threads).uses object = 0 := by
    rw [uses, initial_calling]
    rfl
  refine ⟨?_, ?_, ?_, ?_⟩
  · intro object counted there
    cases there
  · intro object
    rw [unused]
    simp [phase?, initial]
  · intro pointer member
    cases member
  · intro object
    rw [initial_calling]
    simp [phase?, initial]

/-- The step frees this object. -/
def frees (store : PointerStore) : PointerLabel → List Nat
  | .next thread =>
      match store.threads[thread]? with
      | some (.delete object :: _) => [object]
      | _ => []
  | _ => []

/-- An object is dying when a thread deletes it. -/
theorem Sound.dying (sound : store.Sound) {thread : Nat} {calls : List PointerCall}
    (there : store.threads[thread]? = some calls) (member : .delete object ∈ calls) :
    store.phase? object = some .dying := by
  have entered : 0 < store.calling (.delete object) :=
    Threads.weight_pos.mpr ⟨calls, List.mem_of_getElem? there, List.count_pos_iff.mpr member⟩
  by_contra undying
  rw [sound.deleting, if_neg undying] at entered
  cases entered

/-- A step frees at most one object. -/
theorem frees_nodup : (frees store label).Nodup := by
  unfold frees
  split
  case h_1 =>
      split
      case h_1 => simp
      case h_2 => exact List.nodup_nil
  case h_2 => exact List.nodup_nil

/-- An object that a step frees was dying. -/
theorem Sound.frees_dying (sound : store.Sound) (freed : object ∈ frees store label) :
    store.phase? object = some .dying := by
  unfold frees at freed
  split at freed
  case h_1 thread =>
      split at freed
      case h_1 other calls there =>
          cases List.mem_singleton.mp freed
          exact sound.dying there List.mem_cons_self
      case h_2 => cases freed
  case h_2 => cases freed

/-- A step frees what it says, and no other object. -/
theorem Sound.freed_step (sound : store.Sound) (taken : store.step label = some next) :
    next.phase? object = some .freed ↔ store.phase? object = some .freed ∨ object ∈ frees store label := by
  have retained {other : Nat} (alive : store.alive other = true) (pointer : IntrusiveRefCntPtr) :
      ((store.retain other).add pointer).phase? object = some .freed ↔ store.phase? object = some .freed := by
    rw [phase_retain alive]
    split
    case isTrue same =>
        obtain ⟨counted, here, phase⟩ := alive_iff.mp alive
        rw [same, phase?, here]
        rcases phase with fresh | held
        · simp [fresh]
        · simp [held]
    case isFalse => exact Iff.rfl
  cases step_cases taken with
  | rearrange label next changed => cases changed <;> simp [frees, phase?, add, remove]
  | create => simp [frees, phase_create]
  | construct other owner alive admitted =>
      rw [retained alive]
      simp [frees]
  | copy source owner other member obj admitted =>
      rw [retained (sound.alive member obj)]
      simp [frees]
  | destroy thread calls pointer other there member obj => simp [frees, phase?, setCalls, remove]
  | release thread calls other counted there found more =>
      obtain ⟨same, found', held, -⟩ := sound.pending there
      cases found.symm.trans found'
      rw [phase_set found rfl, frees, there]
      split
      case isTrue same => simp [same, phase?, found]
      case isFalse => simp
  | last thread calls other counted there found zero =>
      obtain ⟨same, found', held, -⟩ := sound.pending there
      cases found.symm.trans found'
      rw [phase_set found rfl, frees, there]
      split
      case isTrue same => simp [same, phase?, found, held]
      case isFalse => simp
  | free thread calls other counted there found destroyed =>
      rw [phase_set found rfl, frees, there]
      split
      case isTrue same => simp [same]
      case isFalse apart => simp [apart]

end Dtel.PointerStore
