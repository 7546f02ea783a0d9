import Dtel.Proof.Loop.Step
import Dtel.Proof.Pointer.Effect
import Dtel.Proof.Timer.Handler

namespace Dtel.PointerStore

open PointerLabel IntrusiveRefCntPtr

variable {store next : PointerStore} {listed outside living : List Nat} {fresh event : Nat}

/-- Beside the pointers of the runner and to it, the store has those to the timers that the handler lists or that the
loop holds, and one member of each timer that lives. -/
def arranged (listed outside living : List Nat) : List IntrusiveRefCntPtr :=
  [toRunner, ofRunner, toHandler, toHandler] ++ listed.map listing ++ outside.map toTimer ++ living.map ofTimer

/-- The living timers are those that a list, the queue or a variable of the loop holds. The others are freed. -/
structure Layout (store : PointerStore) (listed outside living : List Nat) (fresh : Nat) : Prop where
  sound : store.Sound
  threads : store.threads = [[]]
  length : store.objects.length = fresh + 2
  pointers : store.pointers.Perm (arranged listed outside living)
  distinct : living.Nodup
  alive : ∀ event, event ∈ living ↔ event ∈ listed ∨ event ∈ outside
  gone : ∀ event < fresh, event ∉ living → store.phase? (timerObject event) = some .freed

section Counts

theorem count_map_timers (place : Nat → IntrusiveRefCntPtr) (obj : ∀ other, (place other).obj = some (timerObject other))
    (events : List Nat) (event : Nat) :
    (events.map place).countP (fun pointer => pointer.obj = some (timerObject event)) = events.count event := by
  rw [List.countP_map, List.count]
  refine List.countP_congr fun other _ => ?_
  simp [obj, timerObject]

/-- The handler and the loop have all pointers to a timer. -/
theorem Layout.holders_timer (layout : Layout store listed outside living fresh) (event : Nat) :
    store.holders (timerObject event) = listed.count event + outside.count event := by
  have members : (living.map ofTimer).countP (fun pointer => pointer.obj = some (timerObject event)) = 0 := by
    rw [List.countP_map]
    exact List.countP_eq_zero.mpr fun other _ => by simp [ofTimer, handlerObject, timerObject]
  rw [holders, layout.pointers.countP_eq, arranged, List.countP_append, List.countP_append, List.countP_append, members,
    count_map_timers listing (fun _ => rfl), count_map_timers toTimer (fun _ => rfl)]
  simp [toRunner, ofRunner, toHandler, handlerObject, runnerObject, timerObject]

/-- The runner, the storage, the host and each living timer have a pointer to the handler. -/
theorem Layout.holders_handler (layout : Layout store listed outside living fresh) :
    store.holders handlerObject = 3 + living.length := by
  have none (place : Nat → IntrusiveRefCntPtr) (obj : ∀ other, (place other).obj = some (timerObject other))
      (events : List Nat) : (events.map place).countP (fun pointer => pointer.obj = some handlerObject) = 0 := by
    rw [List.countP_map]
    exact List.countP_eq_zero.mpr fun other _ => by simp [obj, handlerObject, timerObject]
  have members : (living.map ofTimer).countP (fun pointer => pointer.obj = some handlerObject) = living.length := by
    rw [List.countP_map, List.countP_eq_length]
    intro other _
    simp [ofTimer]
  rw [holders, layout.pointers.countP_eq, arranged, List.countP_append, List.countP_append, List.countP_append, members,
    none listing (fun _ => rfl), none toTimer (fun _ => rfl)]
  simp [toRunner, ofRunner, toHandler, handlerObject, runnerObject]

/-- Only the list of loop runners has a pointer to the runner. -/
theorem Layout.holders_runner (layout : Layout store listed outside living fresh) : store.holders runnerObject = 1 := by
  have none (place : Nat → IntrusiveRefCntPtr) (other : ∀ event, (place event).obj ≠ some runnerObject)
      (events : List Nat) : (events.map place).countP (fun pointer => pointer.obj = some runnerObject) = 0 := by
    rw [List.countP_map]
    exact List.countP_eq_zero.mpr fun event _ => by simpa using other event
  rw [holders, layout.pointers.countP_eq, arranged, List.countP_append, List.countP_append, List.countP_append,
    none listing (by simp [listing, timerObject, runnerObject]), none toTimer (by simp [toTimer, timerObject, runnerObject]),
    none ofTimer (by simp [ofTimer, handlerObject, runnerObject])]
  simp [toRunner, ofRunner, toHandler, handlerObject, runnerObject]

theorem count_arranged (listed outside living : List Nat) (pointer : IntrusiveRefCntPtr) :
    (arranged listed outside living).count pointer =
      [toRunner, ofRunner, toHandler, toHandler].count pointer + (listed.map listing).count pointer +
        (outside.map toTimer).count pointer + (living.map ofTimer).count pointer := by
  rw [arranged, List.count_append, List.count_append, List.count_append]

theorem Layout.mem_outside (layout : Layout store listed outside living fresh) (held : event ∈ outside) :
    toTimer event ∈ store.pointers :=
  layout.pointers.mem_iff.mpr (List.mem_append_left _ (List.mem_append_right _ (List.mem_map_of_mem held)))

theorem Layout.mem_listed (layout : Layout store listed outside living fresh) (held : event ∈ listed) :
    listing event ∈ store.pointers :=
  layout.pointers.mem_iff.mpr
    (List.mem_append_left _ (List.mem_append_left _ (List.mem_append_right _ (List.mem_map_of_mem held))))

theorem Layout.mem_handler (layout : Layout store listed outside living fresh) : toHandler ∈ store.pointers :=
  layout.pointers.mem_iff.mpr (List.mem_append_left _ (List.mem_append_left _ (List.mem_append_left _ (by simp))))

/-- A living timer is held. -/
theorem Layout.held (layout : Layout store listed outside living fresh) (lives : event ∈ living) :
    store.phase? (timerObject event) = some .held := by
  rcases (layout.alive event).mp lives with here | here
  · exact phase?_iff.mpr (layout.sound.pointed (layout.mem_listed here) rfl)
  · exact phase?_iff.mpr (layout.sound.pointed (layout.mem_outside here) rfl)

/-- A living timer has been created. -/
theorem Layout.below (layout : Layout store listed outside living fresh) (lives : event ∈ living) : event < fresh := by
  obtain ⟨counted, there, -⟩ := phase?_iff.mp (layout.held lives)
  have below := (List.getElem?_eq_some_iff.mp there).1
  rw [layout.length, timerObject] at below
  omega

end Counts

section Moves

/-- Operations that delete nothing arrange the pointers anew. -/
theorem Layout.move {labels : List PointerLabel} {removed added : List IntrusiveRefCntPtr} {listed' outside' : List Nat}
    (layout : Layout store listed outside living fresh) (effect : Effect store labels removed added next)
    (length : next.objects.length = store.objects.length) (phases : ∀ other, next.phase? other = store.phase? other)
    (same : ∀ pointer, (arranged listed' outside' living).count pointer + removed.count pointer =
      (arranged listed outside living).count pointer + added.count pointer)
    (alive : ∀ event, event ∈ living ↔ event ∈ listed' ∨ event ∈ outside') :
    Layout next listed' outside' living fresh where
  sound := effect.sound layout.sound
  threads := effect.threads.trans layout.threads
  length := length.trans layout.length
  pointers := effect.perm layout.pointers same
  distinct := layout.distinct
  alive := alive
  gone event below dead := (phases _).trans (layout.gone event below dead)

/-- The order of the timers does not matter. -/
theorem Layout.congr {listed' outside' : List Nat} (layout : Layout store listed outside living fresh)
    (list : listed.Perm listed') (places : outside.Perm outside') : Layout store listed' outside' living fresh where
  sound := layout.sound
  threads := layout.threads
  length := layout.length
  pointers := layout.pointers.trans
    ((((list.map listing).append_left _).append (places.map toTimer)).append_right _)
  distinct := layout.distinct
  alive event := by rw [layout.alive, list.mem_iff, places.mem_iff]
  gone := layout.gone

/-- The first timer of the list goes to a variable of the loop. -/
theorem Layout.takeListed (layout : Layout store (event :: listed) outside living fresh) :
    ∃ next, Execution.exec step store (takeFront (listing event)) = some next ∧
      Layout next listed (event :: outside) living fresh := by
  have here := layout.mem_listed (List.mem_cons_self ..)
  obtain ⟨copied, assign, length, phases⟩ := assign_effect layout.sound layout.threads here rfl
  have shared : 2 ≤ copied.holders (timerObject event) := by
    rw [assign.grows, layout.holders_timer]
    simp only [List.countP_singleton, decide_true, if_true, List.count_cons_self]
    omega
  obtain ⟨next, leave, length', phases'⟩ := leave_effect (assign.sound layout.sound)
    (assign.threads.trans layout.threads) (assign.mem here List.not_mem_nil) rfl shared
  refine ⟨next, (assign.trans leave).run, layout.move (assign.trans leave) (length'.trans length)
    (fun other => (phases' other).trans (phases other)) (fun pointer => ?_) fun other => ?_⟩
  · rw [count_arranged, count_arranged]
    simp only [List.map_cons, List.count_append, List.count_cons, List.count_nil, toTimer]
    omega
  · rw [layout.alive, List.mem_cons, List.mem_cons]
    tauto

/-- The first event of the queue goes to a variable of the loop. -/
theorem Layout.takeQueued (layout : Layout store listed outside living fresh) (queued : event ∈ outside) :
    ∃ next, Execution.exec step store (takeFront (toTimer event)) = some next ∧
      Layout next listed outside living fresh := by
  have here := layout.mem_outside queued
  obtain ⟨copied, assign, length, phases⟩ := assign_effect layout.sound layout.threads here rfl
  have shared : 2 ≤ copied.holders (timerObject event) := by
    have before := List.count_pos_iff.mpr queued
    rw [assign.grows, layout.holders_timer]
    simp only [List.countP_singleton, decide_true, if_true]
    omega
  obtain ⟨next, leave, length', phases'⟩ := leave_effect (assign.sound layout.sound)
    (assign.threads.trans layout.threads) (assign.mem here List.not_mem_nil) rfl shared
  refine ⟨next, (assign.trans leave).run, layout.move (assign.trans leave) (length'.trans length)
    (fun other => (phases' other).trans (phases other)) (fun pointer => ?_) layout.alive⟩
  simp only [List.nil_append, List.append_nil, toTimer]

/-- The timer of a variable goes to the queue. -/
theorem Layout.enqueue (layout : Layout store listed outside living fresh) (taken : event ∈ outside) :
    ∃ next, Execution.exec step store (enqueue event ++ leave (toTimer event)) = some next ∧
      Layout next listed outside living fresh := by
  have here := layout.mem_outside taken
  obtain ⟨copied, copy, length, phases⟩ := copy_effect layout.sound here rfl (show store.admits none = true from rfl)
  obtain ⟨pushed, push, length', phases'⟩ := copy_effect (copy.sound layout.sound) (copy.mem here List.not_mem_nil) rfl
    (show copied.admits none = true from rfl)
  obtain ⟨passed, passing, length₁, phases₁⟩ :=
    passing_effect layout.sound layout.threads here rfl copy push
  have shared : 2 ≤ passed.holders (timerObject event) := by
    have before := List.count_pos_iff.mpr taken
    rw [passing.grows, layout.holders_timer]
    simp only [List.countP_singleton, decide_true, if_true]
    omega
  obtain ⟨next, leave, length₂, phases₂⟩ := leave_effect (passing.sound layout.sound)
    (passing.threads.trans layout.threads) (passing.mem here List.not_mem_nil) rfl shared
  refine ⟨next, (passing.trans leave).run, layout.move (passing.trans leave) ?_ (fun other => ?_) (fun pointer => ?_)
    layout.alive⟩
  · rw [length₂, length₁, length', length]
  · rw [phases₂, phases₁, phases', phases]
  · simp only [List.nil_append, List.append_nil, toTimer]

/-- `postEvent` adds a timer that is alive to the list of the handler. -/
theorem post_effect {calls : List PointerCall} (sound : store.Sound) (threads : store.threads = [calls])
    (alive : store.alive (timerObject event) = true) (handler : toHandler ∈ store.pointers) :
    ∃ next, Effect store (PointerLabel.postEvent event) [] [listing event] next ∧
      next.objects.length = store.objects.length ∧
      ∀ other, next.phase? other = if other = timerObject event then some .held else store.phase? other := by
  obtain ⟨called, construct, length, phases⟩ := construct_effect alive (show store.admits none = true from rfl)
  have parameter : toTimer event ∈ called.pointers :=
    construct.mem_added (List.mem_singleton_self _) List.not_mem_nil
  have admitted : called.admits (some handlerObject) = true :=
    (construct.sound sound).alive (construct.mem handler List.not_mem_nil) rfl
  obtain ⟨listed, copy, length', phases'⟩ := copy_effect (construct.sound sound) parameter rfl admitted
  have both := construct.trans copy
  have shared : 2 ≤ listed.holders (timerObject event) := by
    rw [both.grows]
    simp only [List.nil_append, List.cons_append, List.countP_cons, List.countP_nil, decide_true, if_true]
    omega
  obtain ⟨next, leave, length₂, phases₂⟩ := leave_effect (both.sound sound) (both.threads.trans threads)
    (copy.mem parameter List.not_mem_nil) rfl shared
  refine ⟨next, Effect.change (both.trans leave) fun pointer => ?_, ?_, fun other => ?_⟩
  · simp only [List.nil_append, List.append_nil, List.cons_append, List.count_cons, List.count_nil, toTimer, listing]
    omega
  · rw [length₂, length', length]
  · rw [phases₂, phases', phases]

/-- A timer that the loop holds is posted again. -/
theorem Layout.post (layout : Layout store listed outside living fresh) (held : event ∈ outside) :
    ∃ next, Execution.exec step store (PointerLabel.postEvent event) = some next ∧
      Layout next (event :: listed) outside living fresh := by
  have lives : event ∈ living := (layout.alive event).mpr (Or.inr held)
  obtain ⟨next, effect, length, phases⟩ := post_effect layout.sound layout.threads
    (layout.sound.alive (layout.mem_outside held) rfl) layout.mem_handler
  refine ⟨next, effect.run, layout.move effect length (fun other => ?_) (fun pointer => ?_) fun other => ?_⟩
  · rw [phases]
    split
    case isTrue same => rw [same, layout.held lives]
    case isFalse => rfl
  · rw [count_arranged, count_arranged]
    simp only [List.map_cons, List.count_cons, List.count_nil]
    omega
  · rw [layout.alive, List.mem_cons]
    constructor
    · rintro (here | here)
      · exact Or.inl (Or.inr here)
      · exact Or.inr here
    · rintro ((rfl | here) | here)
      · exact Or.inr held
      · exact Or.inl here
      · exact Or.inr here

/-- A new timer is posted to the handler. -/
theorem Layout.postNew (layout : Layout store listed outside living fresh) :
    ∃ next, Execution.exec step store (PointerLabel.postNew fresh) = some next ∧
      Layout next (fresh :: listed) outside (fresh :: living) (fresh + 1) := by
  have number : store.objects.length = timerObject fresh := layout.length
  obtain ⟨copied, copy, length, phases⟩ :=
    copy_effect layout.sound layout.mem_handler rfl (show store.admits none = true from rfl)
  -- The constructor of the timer copies its argument to the member.
  obtain ⟨created, create, length₁, phases₁⟩ := create_effect copied
  have sound₁ := create.sound (copy.sound layout.sound)
  have fresh₁ : created.phase? (timerObject fresh) = some .fresh := by
    rw [phases₁, length, number, if_pos rfl]
  obtain ⟨counted, there, isFresh⟩ := phase?_iff.mp fresh₁
  obtain ⟨made, member, length₂, phases₂⟩ := copy_effect sound₁
    (create.mem (copy.mem layout.mem_handler List.not_mem_nil) List.not_mem_nil) rfl
    (show created.admits (some (timerObject fresh)) = true from alive_iff.mpr ⟨counted, there, Or.inl isFresh⟩)
  obtain ⟨passed, passing, length₃, phases₃⟩ :=
    passing_effect layout.sound layout.threads layout.mem_handler rfl copy (create.trans member)
  have fresh₃ : passed.phase? (timerObject fresh) = some .fresh := by rw [phases₃, phases₂, fresh₁]
  obtain ⟨counted₃, there₃, isFresh₃⟩ := phase?_iff.mp fresh₃
  obtain ⟨next, post, length₄, phases₄⟩ := post_effect (passing.sound layout.sound)
    (passing.threads.trans layout.threads) (alive_iff.mpr ⟨counted₃, there₃, Or.inl isFresh₃⟩)
    (passing.mem layout.mem_handler List.not_mem_nil)
  have whole := passing.trans post
  have unborn : fresh ∉ living := fun lives => Nat.lt_irrefl _ (layout.below lives)
  refine ⟨next, whole.run, ⟨whole.sound layout.sound, whole.threads.trans layout.threads, ?_, ?_, ?_, ?_, ?_⟩⟩
  · rw [length₄, length₃, length₂, length₁, length, layout.length]
  · refine whole.perm layout.pointers fun pointer => ?_
    rw [count_arranged, count_arranged]
    simp only [List.map_cons, List.nil_append, List.cons_append, List.count_cons, List.count_nil, ofTimer]
    omega
  · exact List.nodup_cons.mpr ⟨unborn, layout.distinct⟩
  · intro other
    rw [List.mem_cons, List.mem_cons, layout.alive, or_assoc]
  · intro other below dead
    rw [List.mem_cons, not_or] at dead
    have apart : timerObject other ≠ timerObject fresh := by
      simpa [timerObject] using dead.1
    rw [phases₄, if_neg apart, phases₃, phases₂, phases₁, length, number, if_neg apart, phases]
    exact layout.gone other (by omega) dead.2

/-- The living timers without one of them. -/
theorem count_erase_living (lives : event ∈ living) (pointer : IntrusiveRefCntPtr) :
    (living.map ofTimer).count pointer = ((living.erase event).map ofTimer).count pointer + [ofTimer event].count pointer := by
  have split := ((List.perm_cons_erase lives).map ofTimer).count_eq pointer
  rw [split, List.map_cons, List.count_cons, List.count_singleton]

/-- When the last pointer to a timer leaves, no member of the timer is behind its `_handler`. -/
theorem Layout.only_member (layout : Layout store listed (event :: outside) living fresh) (lives : event ∈ living) :
    ofTimer event ∈ store.pointers.erase (toTimer event) ∧
      ∀ other ∈ (store.pointers.erase (toTimer event)).erase (ofTimer event), other.owner ≠ some (timerObject event) := by
  have here := layout.mem_outside (List.mem_cons_self ..)
  have there : ofTimer event ∈ store.pointers.erase (toTimer event) := by
    refine (List.mem_erase_of_ne (by simp [ofTimer, toTimer])).mpr (layout.pointers.mem_iff.mpr ?_)
    exact List.mem_append_right _ (List.mem_map_of_mem lives)
  have left : ((store.pointers.erase (toTimer event)).erase (ofTimer event)).Perm
      (arranged listed outside (living.erase event)) := by
    refine List.perm_iff_count.mpr fun pointer => ?_
    have one := count_erase_add here pointer
    have two := count_erase_add there pointer
    have all := layout.pointers.count_eq pointer
    have without := count_erase_living lives pointer
    have first : (toTimer event :: outside.map toTimer).count pointer =
        (outside.map toTimer).count pointer + if (toTimer event == pointer) = true then 1 else 0 := List.count_cons
    rw [count_arranged, List.map_cons] at all
    rw [List.count_singleton] at one two without
    rw [count_arranged]
    omega
  refine ⟨there, fun other member owner => ?_⟩
  have placed := left.subset member
  simp only [arranged, List.mem_append, List.mem_map] at placed
  rcases placed with ((base | ⟨entry, -, rfl⟩) | ⟨entry, -, rfl⟩) | ⟨entry, remains, rfl⟩
  · simp only [List.mem_cons, List.not_mem_nil, or_false] at base
    rcases base with rfl | rfl | rfl | rfl <;>
      simp [toRunner, ofRunner, toHandler, runnerObject, timerObject] at owner
  · simp [listing, handlerObject, timerObject] at owner
  · cases owner
  · have same : entry = event := by simpa [ofTimer, timerObject] using owner
    subst same
    exact absurd remains layout.distinct.not_mem_erase

/-- A variable of the loop, or an entry of its queue, is destroyed. The timer is deleted when nothing else holds it. -/
theorem Layout.leave (layout : Layout store listed (event :: outside) living fresh) :
    ∃ next living, Execution.exec step store (leaveTimer (toTimer event) event ((listed ++ outside).count event)) = some next ∧
      Layout next listed outside living fresh := by
  have here := layout.mem_outside (List.mem_cons_self ..)
  have lives : event ∈ living := (layout.alive event).mpr (Or.inr (List.mem_cons_self ..))
  have holders := layout.holders_timer event
  rw [List.count_cons_self] at holders
  unfold leaveTimer
  rw [List.count_append]
  split
  case isTrue unheld =>
      obtain ⟨there, only⟩ := layout.only_member lives
      have apart : handlerObject ≠ timerObject event := by simp [handlerObject, timerObject]
      have shared : 2 ≤ store.holders handlerObject := by
        rw [layout.holders_handler]
        omega
      obtain ⟨next, effect, length, phases⟩ := leaveLast_effect layout.sound layout.threads here rfl (by omega) rfl there
        only rfl apart shared
      refine ⟨next, living.erase event, effect.run, ⟨effect.sound layout.sound, effect.threads.trans layout.threads,
        length.trans layout.length, ?_, layout.distinct.erase _, fun other => ?_, fun other below dead => ?_⟩⟩
      · refine effect.perm layout.pointers fun pointer => ?_
        have without := count_erase_living lives pointer
        rw [List.count_singleton] at without
        rw [count_arranged, count_arranged]
        simp only [List.map_cons, List.count_cons, List.count_nil]
        omega
      · rw [layout.distinct.mem_erase_iff, layout.alive, List.mem_cons]
        have unlisted : event ∉ listed := List.count_eq_zero.mp (by omega)
        have unqueued : event ∉ outside := List.count_eq_zero.mp (by omega)
        constructor
        · rintro ⟨apart, here | rfl | here⟩
          · exact Or.inl here
          · exact absurd rfl apart
          · exact Or.inr here
        · rintro (here | here)
          · exact ⟨fun same => unlisted (same ▸ here), Or.inl here⟩
          · exact ⟨fun same => unqueued (same ▸ here), Or.inr (Or.inr here)⟩
      · rw [phases]
        split
        case isTrue => rfl
        case isFalse apart =>
            have apart : other ≠ event := fun same => apart (congrArg timerObject same)
            exact layout.gone other below fun lives => dead (layout.distinct.mem_erase_iff.mpr ⟨apart, lives⟩)
  case isFalse held =>
      obtain ⟨next, effect, length, phases⟩ := leave_effect layout.sound layout.threads here rfl (by omega)
      refine ⟨next, living, effect.run, layout.move effect length phases (fun pointer => ?_) fun other => ?_⟩
      · rw [count_arranged, count_arranged]
        simp only [List.map_cons, List.count_cons, List.count_nil]
        omega
      · rw [layout.alive, List.mem_cons]
        constructor
        · rintro (here | rfl | here)
          · exact Or.inl here
          · rcases Nat.add_pos_iff_pos_or_pos.mp (Nat.pos_of_ne_zero held) with here | here
            · exact Or.inl (List.count_pos_iff.mp here)
            · exact Or.inr (List.count_pos_iff.mp here)
          · exact Or.inr here
        · rintro (here | here)
          · exact Or.inl here
          · exact Or.inr (Or.inr here)

/-- The destructor of the queue destroys one entry behind the other. -/
theorem Layout.clear (layout : Layout store listed outside living fresh) :
    ∃ next living, Execution.exec step store (clearQueue listed outside) = some next ∧
      Layout next listed [] living fresh := by
  induction outside generalizing store living with
  | nil => exact ⟨store, living, rfl, layout⟩
  | cons event rest inductionHypothesis =>
      obtain ⟨middle, living', first, left⟩ := layout.leave
      obtain ⟨next, living'', second, cleared⟩ := inductionHypothesis left
      exact ⟨next, living'', Execution.exec_append_some.mpr ⟨middle, first, second⟩, cleared⟩

/-- Behind the runner, the storage and the host have the only pointers outside of all objects. -/
theorem Layout.leaveRunner (layout : Layout store listed [] living fresh) :
    ∃ next, Effect store (leaveLast toRunner ofRunner) [toRunner, ofRunner] [] next ∧
      next.pointers.Perm ([toHandler, toHandler] ++ listed.map listing ++ living.map ofTimer) ∧
      ∀ other, next.phase? other = if other = runnerObject then some .freed else store.phase? other := by
  have here : toRunner ∈ store.pointers := layout.pointers.mem_iff.mpr (by simp [arranged])
  have there : ofRunner ∈ store.pointers.erase toRunner :=
    (List.mem_erase_of_ne (by decide)).mpr (layout.pointers.mem_iff.mpr (by simp [arranged]))
  have left : ((store.pointers.erase toRunner).erase ofRunner).Perm
      ([toHandler, toHandler] ++ listed.map listing ++ living.map ofTimer) := by
    have first := (layout.pointers.erase toRunner).erase ofRunner
    simpa [arranged] using first
  have only (other : IntrusiveRefCntPtr) (member : other ∈ (store.pointers.erase toRunner).erase ofRunner) :
      other.owner ≠ some runnerObject := by
    have placed := left.subset member
    simp only [List.mem_append, List.mem_map, List.mem_cons, List.not_mem_nil, or_false, or_self] at placed
    rcases placed with (rfl | ⟨event, -, rfl⟩) | ⟨event, -, rfl⟩
    · simp [toHandler]
    · simp [listing, handlerObject, runnerObject]
    · simp [ofTimer, timerObject, runnerObject]
  have shared : 2 ≤ store.holders handlerObject := by
    rw [layout.holders_handler]
    omega
  obtain ⟨next, effect, -, phases⟩ := leaveLast_effect layout.sound layout.threads here rfl layout.holders_runner rfl
    there only rfl (by decide) shared
  refine ⟨next, effect, List.perm_iff_count.mpr fun pointer => ?_, phases⟩
  have one := effect.pointers pointer
  have two := count_erase_add here pointer
  have three := count_erase_add there pointer
  have all := left.count_eq pointer
  rw [List.count_singleton] at two three
  simp only [List.count_cons, List.count_nil] at one
  omega

/-- The holders of the handler when the runner is deleted. -/
theorem holders_left {pointers : List IntrusiveRefCntPtr}
    (left : store.pointers.Perm (pointers ++ listed.map listing ++ living.map ofTimer)) :
    store.holders handlerObject = pointers.countP (fun pointer => pointer.obj = some handlerObject) + living.length := by
  have none : (listed.map listing).countP (fun pointer => pointer.obj = some handlerObject) = 0 := by
    rw [List.countP_map]
    exact List.countP_eq_zero.mpr fun event _ => by simp [listing, handlerObject, timerObject]
  have members : (living.map ofTimer).countP (fun pointer => pointer.obj = some handlerObject) = living.length := by
    rw [List.countP_map, List.countP_eq_length]
    intro event _
    simp [ofTimer]
  rw [holders, left.countP_eq, List.countP_append, List.countP_append, none, members, Nat.add_zero]

/-- When the loop, the storage and the host are gone, the handler lives on exactly when it lists a timer, and so do the
listed timers. -/
theorem Layout.destroyed (layout : Layout store listed outside living fresh) :
    ∃ final, Execution.exec step store (destroyAll listed outside) = some final ∧ final.threads = [[]] ∧
      (∀ pointer ∈ final.pointers, pointer.owner ≠ none) ∧ final.phase? runnerObject = some .freed ∧
      final.phase? handlerObject = some (if listed = [] then .freed else .held) ∧
      ∀ event < fresh, final.phase? (timerObject event) = some (if event ∈ listed then .held else .freed) := by
  obtain ⟨cleared, living', first, layout⟩ := layout.clear
  obtain ⟨bare, second, left, phases⟩ := layout.leaveRunner
  have here : toHandler ∈ bare.pointers := left.mem_iff.mpr (by simp)
  have shared : 2 ≤ bare.holders handlerObject := by
    rw [holders_left left]
    simp [toHandler]
  obtain ⟨stored, third, -, phases'⟩ := leave_effect (second.sound layout.sound) (second.threads.trans layout.threads)
    here rfl shared
  have operated : Execution.exec step store (clearQueue listed outside ++ leaveLast toRunner ofRunner ++
      PointerLabel.leave toHandler) =
      some stored :=
    Execution.exec_append_some.mpr ⟨_, Execution.exec_append_some.mpr ⟨_, first, second.run⟩, third.run⟩
  have threads : stored.threads = [[]] := third.threads.trans (second.threads.trans layout.threads)
  have sound : stored.Sound := third.sound (second.sound layout.sound)
  have rest : stored.pointers.Perm ([toHandler] ++ listed.map listing ++ living'.map ofTimer) := by
    refine third.perm left fun pointer => ?_
    simp only [List.count_append, List.count_cons, List.count_nil]
    omega
  have runner : stored.phase? runnerObject = some .freed := by rw [phases', phases, if_pos rfl]
  have timers (event : Nat) (below : event < fresh) :
      stored.phase? (timerObject event) = some (if event ∈ listed then .held else .freed) := by
    rw [phases', phases, if_neg (by simp [timerObject, runnerObject])]
    split
    case isTrue here => exact layout.held ((layout.alive event).mpr (Or.inl here))
    case isFalse absent =>
        refine layout.gone event below fun lives => ?_
        rcases (layout.alive event).mp lives with here | here
        · exact absent here
        · cases here
  have last : toHandler ∈ stored.pointers := rest.mem_iff.mpr (by simp)
  have handlers : stored.holders handlerObject = 1 + living'.length := by
    rw [holders_left rest]
    simp [toHandler]
  unfold destroyAll
  split
  case isTrue none =>
      have dead : living' = [] := by
        refine List.eq_nil_iff_forall_not_mem.mpr fun event lives => ?_
        rcases (layout.alive event).mp lives with here | here
        · rw [none] at here
          cases here
        · cases here
      have alone : stored.pointers.erase toHandler = [] := by
        have erased := rest.erase toHandler
        rw [none, dead] at erased
        simpa using erased
      rw [dead] at handlers
      obtain ⟨dying, fourth, threads₁, pointers₁, -, phases₁⟩ := last_run sound threads last rfl handlers rfl
      obtain ⟨counted, found, -⟩ : ∃ counted, dying.objects[handlerObject]? = some counted ∧ counted.phase = .dying := by
        rw [← phase?_iff, phases₁, if_pos rfl]
      obtain ⟨final, fifth, threads₂, pointers₂, -, phases₂⟩ :=
        free_run threads₁ found (by rw [pointers₁, alone]; simp)
      refine ⟨final, Execution.exec_append_some.mpr ⟨_, operated, Execution.exec_append_some.mpr ⟨_, fourth, fifth⟩⟩,
        threads₂, ?_, ?_, ?_, fun event below => ?_⟩
      · rw [pointers₂, pointers₁, alone]
        simp
      · rw [phases₂, phases₁, if_neg (by decide), if_neg (by decide), runner]
      · rw [phases₂, if_pos rfl]
      · rw [phases₂, phases₁, if_neg (by simp [timerObject, handlerObject]), if_neg (by simp [timerObject, handlerObject]),
          timers event below]
  case isFalse some =>
      obtain ⟨event, here⟩ := List.exists_mem_of_ne_nil _ some
      have lives := List.length_pos_of_mem ((layout.alive event).mpr (Or.inl here))
      obtain ⟨final, fourth, -, phases₁⟩ := leave_effect sound threads last rfl (by omega)
      have members : final.pointers.Perm (listed.map listing ++ living'.map ofTimer) := by
        refine fourth.perm rest fun pointer => ?_
        simp only [List.count_append, List.count_cons, List.count_nil]
        omega
      have handler : stored.phase? handlerObject = Option.some .held := phase?_iff.mpr (sound.pointed last rfl)
      refine ⟨final, Execution.exec_append_some.mpr ⟨_, operated, fourth.run⟩, fourth.threads.trans threads,
        fun pointer member => ?_, ?_, ?_, fun event below => ?_⟩
      · have placed := members.subset member
        simp only [List.mem_append, List.mem_map] at placed
        rcases placed with ⟨event, -, rfl⟩ | ⟨event, -, rfl⟩
        · simp [listing]
        · simp [ofTimer]
      · rw [phases₁, runner]
      · rw [phases₁, handler]
      · rw [phases₁, timers event below]

end Moves

end Dtel.PointerStore
