import Dtel.Proof.Timer.Waiting

namespace Dtel

namespace Life

variable {Fn : Type} {life next : Life Fn} {act : Act Fn} {event : Nat} {shown : List (Nat × Fn)}

/-- A script makes each timer, no exception leaves a called timer, and no queued timer is dropped. -/
def Orderly (life : Life Fn) : Act Fn → Prop
  | .create function _ _ => function.isSome
  | .abandon => False
  | .clear => life.queue = []
  | _ => True

/-- The act creates this timer for this function. -/
def created (life : Life Fn) : Act Fn → List (Nat × Fn)
  | .create (some function) _ _ => [(life.timers.fresh, function)]
  | _ => []

/-- The posting of an active timer that waits for its release. -/
def settled : Option (Posting × Stage) → List Posting
  | some (posting, .settled) => [posting]
  | _ => []

theorem active_of_settled {posting : Posting} (member : posting ∈ settled life.active) :
    life.active = some (posting, .settled) := by
  unfold settled at member
  split at member
  case h_1 other active =>
      rw [List.mem_singleton.mp member]
      exact active
  case h_2 => cases member

/-- The number of places that hold one event, a settled call included. -/
def present (life : Life Fn) (event : Nat) : Nat :=
  life.held event + (settled life.active).countP (·.event = event)

section Places

variable {posting : Posting} {rest : List Posting} {stage : Stage}

theorem present_take (list : life.timers.events = posting :: rest) (noHand : life.hand = none) :
    ({ life with timers := { life.timers with events := rest }, hand := some posting } : Life Fn).present event =
      life.present event := by
  unfold present
  rw [held_take list noHand]

theorem present_discard (hand : life.hand = some posting) :
    ({ life with hand := none } : Life Fn).present event + (if posting.event = event then 1 else 0) =
      life.present event := by
  unfold present
  rw [← held_discard hand, Nat.add_right_comm]

theorem present_enqueue (hand : life.hand = some posting) :
    ({ life with hand := none, queue := life.queue ++ [posting] } : Life Fn).present event = life.present event := by
  unfold present
  rw [held_enqueue hand]

theorem present_start (noActive : life.active = none) (queue : life.queue = posting :: rest) :
    ({ life with queue := rest, active := some (posting, .starting) } : Life Fn).present event = life.present event := by
  unfold present
  rw [held_start noActive queue, noActive]
  rfl

theorem present_call (active : life.active = some (posting, .starting)) (called : stage = .calling ∨ stage = .called) :
    ({ life with active := some (posting, stage) } : Life Fn).present event = life.present event := by
  have unsettled : settled (some (posting, stage)) = [] := by rcases called with rfl | rfl <;> rfl
  unfold present
  rw [held_call active called, unsettled, active]
  rfl

/-- A timer that is not called is present until its release. -/
theorem present_skip (active : life.active = some (posting, .starting)) :
    ({ life with active := some (posting, .settled) } : Life Fn).present event = life.present event := by
  unfold present
  rw [← held_skip active]
  simp only [active, settled, List.countP_singleton, List.countP_nil, decide_eq_true_eq, Nat.add_zero]

theorem present_complete (active : life.active = some (posting, .calling)) :
    ({ life with active := some (posting, .called) } : Life Fn).present event = life.present event := by
  simp only [present, held, pending, active, starting, ongoing, settled, List.countP_nil]

/-- A settled timer is present until its release. -/
theorem present_settle (active : life.active = some (posting, .called)) :
    ({ life with active := some (posting, .settled) } : Life Fn).present event = life.present event := by
  unfold present
  rw [← held_settle active]
  simp only [active, settled, List.countP_singleton, List.countP_nil, decide_eq_true_eq, Nat.add_zero]

theorem present_release (active : life.active = some (posting, .settled)) :
    ({ life with active := none } : Life Fn).present event + (if posting.event = event then 1 else 0) =
      life.present event := by
  simp only [present, held, pending, active, starting, ongoing, settled, List.countP_singleton, List.countP_nil,
    decide_eq_true_eq, Nat.add_zero]

end Places

/-- The function table and the timers correspond. -/
structure Tabled (life : Life Fn) (shown : List (Nat × Fn)) : Prop where
  sound : life.Sound
  creator : ∀ event < life.timers.fresh, ∃ function, (event, function) ∈ shown
  stored : ∀ entry ∈ shown, entry.1 < life.timers.fresh ∧
    ((life.timers.object entry.1).removed = false →
      life.refs (life.timers.object entry.1).id = some entry.2)
  owned : ∀ id function, life.refs id = some function →
    ∃ event < life.timers.fresh, (life.timers.object event).id = id ∧ 0 < life.present event
  relisted : ∀ posting ∈ settled life.active,
    (life.timers.object posting.event).removed = true ∨ 0 < life.timers.listed posting.event

/-- An act that leaves the table alone keeps the correspondence when no timer loses its last place. -/
theorem Tabled.keep (tabled : life.Tabled shown) (taken : life.step act = some next)
    (fresh : next.timers.fresh = life.timers.fresh) (refs : next.refs = life.refs)
    (places : ∀ event, 0 < life.present event → 0 < next.present event)
    (relisted : ∀ posting ∈ settled next.active,
      (next.timers.object posting.event).removed = true ∨ 0 < next.timers.listed posting.event) :
    next.Tabled shown := by
  have keeps := (tabled.sound.keeps taken).2
  refine ⟨tabled.sound.step taken, ?_, ?_, ?_, relisted⟩
  · rw [fresh]
    exact tabled.creator
  · intro entry member
    obtain ⟨below, stored⟩ := tabled.stored entry member
    rw [fresh, refs, (keeps _ below).id]
    refine ⟨below, fun live => stored ?_⟩
    by_contra removed
    have marked := (keeps _ below).removed (by simpa using removed)
    rw [live] at marked
    cases marked
  · intro id function present
    rw [refs] at present
    obtain ⟨event, below, named, held⟩ := tabled.owned id function present
    rw [fresh]
    exact ⟨event, below, (keeps event below).id.trans named, places event held⟩

/-- A removed timer leaves together with its function. -/
theorem Tabled.forget (tabled : life.Tabled shown) (taken : life.step act = some next)
    (timers : next.timers = life.timers) (known : event < life.timers.fresh)
    (removed : (life.timers.object event).removed = true)
    (refs : next.refs = Function.update life.refs (life.timers.object event).id none)
    (places : ∀ other, event ≠ other → 0 < life.present other → 0 < next.present other)
    (active : ∀ posting ∈ settled next.active, posting ∈ settled life.active) : next.Tabled shown := by
  refine ⟨tabled.sound.step taken, timers ▸ tabled.creator, ?_, ?_, ?_⟩
  · intro entry member
    obtain ⟨below, stored⟩ := tabled.stored entry member
    rw [timers, refs]
    refine ⟨below, fun live => ?_⟩
    -- A live timer is not the removed one, so it has another id.
    have different : (life.timers.object entry.1).id ≠ (life.timers.object event).id := by
      intro equal
      rw [tabled.sound.distinct _ below _ known equal, removed] at live
      cases live
    rw [Function.update_of_ne different]
    exact stored live
  · intro id function present
    rw [refs] at present
    have different : id ≠ (life.timers.object event).id := by
      rintro rfl
      simp at present
    rw [Function.update_of_ne different] at present
    obtain ⟨other, below, named, held⟩ := tabled.owned id function present
    rw [timers]
    refine ⟨other, below, named, places other ?_ held⟩
    rintro rfl
    exact different named.symm
  · intro posting member
    rw [timers]
    exact tabled.relisted posting (active posting member)

/-- A new timer enters the list together with its function. -/
theorem Tabled.create (tabled : life.Tabled shown) (function : Fn) (delay : Int) (oneShot : Bool) :
    (life.withNew (putFunction life.refs (life.timers.lastId + 1) (some function)) delay oneShot).Tabled
        (shown ++ [(life.timers.fresh, function)]) := by
  refine ⟨tabled.sound.create _ delay oneShot, ?_, ?_, ?_, ?_⟩
  · intro event below
    change event < life.timers.fresh + 1 at below
    by_cases same : event = life.timers.fresh
    · exact ⟨function, List.mem_append_right _ (by simp [same])⟩
    · obtain ⟨other, member⟩ := tabled.creator event (by omega)
      exact ⟨other, List.mem_append_left _ member⟩
  · intro entry member
    simp only [Timers.insert_fresh, Timers.insert_object, putFunction, putRef]
    rcases List.mem_append.mp member with old | new
    · obtain ⟨below, stored⟩ := tabled.stored entry old
      have bound := (tabled.sound.identified _ below).2
      rw [Function.update_of_ne (ne_of_lt below), Function.update_of_ne (by omega)]
      exact ⟨Nat.lt_succ_of_lt below, stored⟩
    · rw [List.mem_singleton.mp new]
      simp
  · intro id stored present
    simp only [putFunction, putRef] at present
    by_cases same : id = life.timers.lastId + 1
    · refine ⟨life.timers.fresh, Nat.lt_succ_self _, ?_, ?_⟩
      · simp [same]
      · simp only [Life.present, held, pending, Timers.insert_listed, if_true]
        omega
    · rw [Function.update_of_ne same] at present
      obtain ⟨event, below, named, placed⟩ := tabled.owned id stored present
      refine ⟨event, Nat.lt_succ_of_lt below, ?_, ?_⟩
      · simp only [Timers.insert_object, Function.update_of_ne (ne_of_lt below)]
        exact named
      · simp only [Life.present, held, pending, Timers.insert_listed]
        simp only [Life.present, held, pending] at placed
        simp only [Timers.listed] at placed ⊢
        omega
  · intro posting member
    have below := tabled.sound.activeKnown _ _ (active_of_settled member)
    simp only [Timers.insert_object, Function.update_of_ne (ne_of_lt below), Timers.insert_listed]
    exact (tabled.relisted posting member).imp id fun listed => Nat.lt_of_lt_of_le listed (Nat.le_add_right _ _)

/-- A settled timer keeps its place, and an interval is listed again. -/
theorem Tabled.settle (tabled : life.Tabled shown) {posting : Posting} {timers : Timers}
    (active : life.active = some (posting, .called)) (success : life.timers.settle life.clock posting.event = some timers)
    (taken : life.step .settle = some { life with timers := timers, active := some (posting, .settled) }) :
    ({ life with timers := timers, active := some (posting, .settled) } : Life Fn).Tabled shown := by
  have below := tabled.sound.activeKnown posting _ active
  have places (event : Nat) (placed : 0 < life.present event) :
      0 < ({ life with active := some (posting, .settled) } : Life Fn).present event := by
    rwa [present_settle active]
  rcases Timers.settle_some (tabled.sound.identified _ below).1 success with ⟨-, rfl⟩ | ⟨-, removed, rfl⟩ | ⟨-, -, rfl⟩
  · apply tabled.keep taken rfl rfl places
    intro other member
    rw [List.mem_singleton.mp member]
    exact Or.inl (Timers.setRemoved_removed.mpr (Or.inl rfl))
  · apply tabled.keep taken rfl rfl places
    intro other member
    rw [List.mem_singleton.mp member]
    exact Or.inl removed
  · apply tabled.keep taken rfl rfl
    · intro event placed
      have kept := places event placed
      simp only [present, held, pending, Timers.insert_listed] at kept ⊢
      omega
    · intro other member
      rw [List.mem_singleton.mp member]
      right
      simp [Timers.insert_listed]

/-- A released timer is removed together with its function, or it is listed again. -/
theorem Tabled.release (tabled : life.Tabled shown) {posting : Posting} (active : life.active = some (posting, .settled))
    (taken : life.step .release = some
      { life with active := none, refs := releaseRef life.refs (life.timers.object posting.event) }) :
    ({ life with active := none, refs := releaseRef life.refs (life.timers.object posting.event) } :
      Life Fn).Tabled shown := by
  have below := tabled.sound.activeKnown posting _ active
  by_cases removed : (life.timers.object posting.event).removed = true
  · apply tabled.forget taken rfl below removed
    · simp [releaseRef, removed]
    · intro other different placed
      rw [← present_release active, if_neg different] at placed
      exact placed
    · simp [settled]
  · -- An interval that is not removed is listed again, so it keeps a place.
    have again := (tabled.relisted posting (by simp [active, settled])).resolve_left removed
    apply tabled.keep taken rfl
    · simp [releaseRef, removed]
    · intro event placed
      rw [← present_release active] at placed
      split at placed
      case isTrue same =>
          subst same
          simp only [present, held, pending]
          omega
      case isFalse => exact placed
    · simp [settled]

/-- Each orderly act keeps the correspondence. -/
theorem Tabled.step (tabled : life.Tabled shown) (orderly : life.Orderly act) (taken : life.step act = some next) :
    next.Tabled (shown ++ life.created act) := by
  have sound := tabled.sound
  cases step_cases taken with
  | idle | miss =>
      simp only [created, List.append_nil]
      exact tabled
  | elapse =>
      simp only [created, List.append_nil]
      exact tabled.keep taken rfl rfl (fun _ placed => placed) tabled.relisted
  | create function delay oneShot =>
      cases function with
      | none => cases orderly
      | some function => exact tabled.create function delay oneShot
  | cancel posting =>
      simp only [created, List.append_nil]
      apply tabled.keep taken rfl rfl (fun _ placed => placed)
      intro other member
      exact (tabled.relisted other member).imp (fun marked => Timers.setRemoved_removed.mpr (Or.inr marked)) id
  | take now posting rest list noHand noActive =>
      simp only [created, List.append_nil]
      apply tabled.keep taken rfl rfl
      · intro event placed
        rwa [present_take list noHand]
      · simp [noActive, settled]
  | discard posting hand removed =>
      simp only [created, List.append_nil]
      apply tabled.forget taken rfl (sound.known _ (held_of_hand hand)) removed rfl
      · intro other different placed
        rw [← present_discard hand, if_neg different] at placed
        exact placed
      · exact fun _ member => member
  | enqueue posting hand =>
      simp only [created, List.append_nil]
      apply tabled.keep taken rfl rfl
      · intro event placed
        rwa [present_enqueue hand]
      · exact tabled.relisted
  | start posting rest noHand noActive queue =>
      simp only [created, List.append_nil]
      apply tabled.keep taken rfl rfl
      · intro event placed
        rwa [present_start noActive queue]
      · simp [settled]
  | skip posting active dead =>
      simp only [created, List.append_nil]
      apply tabled.keep taken rfl rfl
      · intro event placed
        rwa [present_skip active]
      · intro other member
        have positive := (sound.identified _ (sound.activeKnown _ _ active)).1
        rw [List.mem_singleton.mp member]
        exact Or.inl (dead.resolve_right (by omega))
  | call posting function active =>
      simp only [created, List.append_nil]
      apply tabled.keep taken rfl rfl
      · intro event placed
        rwa [present_call active (Or.inl rfl)]
      · simp [settled]
  | callMissing posting active =>
      simp only [created, List.append_nil]
      apply tabled.keep taken rfl rfl
      · intro event placed
        rwa [present_call active (Or.inr rfl)]
      · simp [settled]
  | complete posting active =>
      simp only [created, List.append_nil]
      apply tabled.keep taken rfl rfl
      · intro event placed
        rwa [present_complete active]
      · simp [settled]
  | settle posting timers active success =>
      simp only [created, List.append_nil]
      exact tabled.settle active success taken
  | release posting active =>
      simp only [created, List.append_nil]
      exact tabled.release active taken
  | abandon => cases orderly
  | clear noHand noActive =>
      simp only [created, List.append_nil]
      have queue : life.queue = [] := orderly
      apply tabled.keep taken rfl rfl
      · intro event placed
        simpa [present, held, pending, queue] using placed
      · exact tabled.relisted

end Life

/-- At these points the drain loop has emptied the queue, or has not begun. -/
def Pc.resting {Other : Type} : Pc Other → Bool
  | .outside | .entered | .test | .locking _ | .waiting _ | .leaving => true
  | _ => false

namespace Machine

variable {Other Runner Fn : Type} {machine next : Machine Other Runner Fn} {label : Label Other Runner Fn}
  {runners : List (Runner × Int)} {labels : List (Label Other Runner Fn)}

/-- A resting loop has no timer in its queue. -/
def Emptied (machine : Machine Other Runner Fn) : Prop :=
  machine.pc.resting = true → machine.view.queue = []

/-- A script call leaves the queued timers alone. -/
theorem perform_queue {world after : World Other Runner Fn} {call : Call Other Runner Fn}
    (performed : world.perform call = some after) :
    after.queue.filterMap Event.posting? = world.queue.filterMap Event.posting? := by
  cases perform_cases performed with
  | postEvent event => simp [World.postEvent, List.filterMap_append, Event.posting?]
  | _ => rfl

/-- Without an exception that leaves `run`, a loop comes to rest only with an empty queue. -/
theorem Emptied.step (emptied : machine.Emptied) (accepted : label ≠ .ended (some false))
    (taken : machine.step label = some next) : next.Emptied := by
  intro resting
  cases step_cases taken with
  | run point | enter point | leaveLoop point | lock timeout point | wake timeout point =>
      exact emptied (by simp [point, Pc.resting])
  | drainEmpty timeout point queue => simp [view, queue]
  | leave => rfl
  | script call world point performed =>
      have same := perform_queue performed
      simp only [view] at same ⊢
      rw [same]
      exact emptied resting
  | push event =>
      have same := emptied resting
      simp only [view] at same
      simp [view, World.postEvent, List.filterMap_append, Event.posting?, same]
  | notifyPushed | notify =>
      rw [view_notified]
      apply emptied
      unfold notified at resting
      split at resting
      case h_1 timeout point => simpa [Pc.resting] using congrArg Pc.resting point
      case h_2 => exact resting
  | tick | postTimeout | cancelEvent | addLoopRunner | terminate => exact emptied resting
  | settle timeout posting success => cases success <;> cases resting
  | runnerThrew | applyThrew | rethrew | releaseThrew => exact absurd rfl accepted
  | _ => cases resting

/-- The script makes a timer for this function. -/
def creates (machine : Machine Other Runner Fn) : Label Other Runner Fn → List (Nat × Fn)
  | .script (.setTimeout args _) =>
      match setTimeoutArguments args with
      | .ok (function, _) => [(machine.world.timers.fresh, function)]
      | .error _ => []
  | _ => []

/-- Only a script creates a timer with a function. -/
theorem creates_eq (machine : Machine Other Runner Fn) (label : Label Other Runner Fn) :
    machine.creates label = machine.view.created (machine.act label) := by
  have named := act_cases machine label
  generalize machine.act label = act at named
  cases named with
  | setTimeout args oneShot function delay checked => simp [creates, checked, Life.created, view]
  | rejected args oneShot error checked => simp [creates, checked, Life.created]
  | _ => rfl

/-- The act of a step is orderly when the queue is empty at rest, no exception leaves `run`, and only
scripts make timers. -/
theorem orderly_act (emptied : machine.Emptied) (accepted : label ≠ .ended (some false))
    (scripted : ∀ delay oneShot, label ≠ .thread (.postTimeout delay oneShot)) :
    machine.view.Orderly (machine.act label) := by
  have named := act_cases machine label
  generalize machine.act label = act at named
  cases named with
  | clear point => exact emptied (by simp [point, Pc.resting])
  | setTimeout => rfl
  | abandon => exact absurd rfl accepted
  | postTimeout delay oneShot => exact absurd rfl (scripted delay oneShot)
  | _ => trivial

/-- A machine with a table that corresponds to its timers. -/
structure Registered (machine : Machine Other Runner Fn) (shown : List (Nat × Fn)) : Prop where
  timely : machine.Timely
  emptied : machine.Emptied
  tabled : machine.view.Tabled shown

theorem initial_emptied (runners : List (Runner × Int)) : (initial runners : Machine Other Runner Fn).Emptied := by
  intro _
  have queue := (initial_world runners : (initial runners : Machine Other Runner Fn).world.queue = [] ∧ _).1
  simp [view, queue]

/-- Each reachable machine has a table that corresponds to its timers. -/
theorem reachable_registered (accepted : ∀ label ∈ labels, label ≠ .ended (some false))
    (scripted : ∀ label ∈ labels, ∀ delay oneShot, label ≠ .thread (.postTimeout delay oneShot))
    (run : Execution.exec step (initial runners) labels = some machine) :
    machine.Registered (Execution.trace step creates (initial runners) labels) := by
  have start : (initial runners : Machine Other Runner Fn).Registered [] := by
    refine ⟨initial_timely runners, initial_emptied runners, initial_sound runners, ?_, by simp, ?_, ?_⟩
    all_goals
      obtain ⟨queue, timers, refs⟩ : (initial runners : Machine Other Runner Fn).world.queue = [] ∧
        (initial runners : Machine Other Runner Fn).world.timers = Timers.initial ∧ _ := initial_world runners
      simp [view, timers, refs, Timers.initial, Pc.active, Life.settled]
  have guarded : Execution.Along step (fun _ label => label ≠ .ended (some false) ∧
      ∀ delay oneShot, label ≠ .thread (.postTimeout delay oneShot)) (initial runners : Machine Other Runner Fn) labels :=
    Execution.Along.of_forall fun label member _ => ⟨accepted label member, scripted label member⟩
  have kept : ∀ (machine : Machine Other Runner Fn) (label : Label Other Runner Fn) (next : Machine Other Runner Fn)
      (shown : List (Nat × Fn)), machine.Registered shown → (label ≠ .ended (some false) ∧
      ∀ delay oneShot, label ≠ .thread (.postTimeout delay oneShot)) → machine.step label = some next →
      next.Registered (shown ++ machine.creates label) := by
    intro machine label next shown holds allowed taken
    rw [creates_eq]
    exact ⟨holds.timely.step taken, holds.emptied.step allowed.1 taken,
      holds.tabled.step (orderly_act holds.emptied allowed.1 allowed.2) (simulates holds.timely taken)⟩
  exact Execution.trace_invariant_along kept start guarded run

/-- A present timer of a quiet loop is listed or queued. -/
theorem present_of_quiet {life : Life Fn} {event : Nat} (noHand : life.hand = none) (noActive : life.active = none)
    (placed : 0 < life.present event) : ∃ posting ∈ life.timers.events ++ life.queue, posting.event = event := by
  have counted : 0 < (life.timers.events ++ life.queue).countP (·.event = event) := by
    simp only [Life.present, Life.held, Life.pending, noHand, noActive, Life.starting, Life.ongoing, Life.settled,
      Option.toList_none, List.countP_nil, Timers.listed] at placed
    rw [List.countP_append]
    omega
  obtain ⟨posting, member, same⟩ := List.countP_pos_iff.mp counted
  exact ⟨posting, member, by simpa using same⟩

/-- Between two steps of the loop, each timer is in at most one place, no two share an id, each live
timer has the function of its creation, and each function belongs to one of these timers. No timer
is called without its function. -/
theorem timers_match_table (accepted : ∀ label ∈ labels, label ≠ .ended (some false))
    (scripted : ∀ label ∈ labels, ∀ delay oneShot, label ≠ .thread (.postTimeout delay oneShot))
    (run : Execution.exec step (initial runners) labels = some machine) :
    (machine.pc.hand = none → machine.pc.active = none →
      let timers := machine.world.timers
      let places := timers.events ++ machine.world.queue.filterMap Event.posting?
      (∀ event, places.countP (·.event = event) ≤ 1) ∧
      (∀ first ∈ places, ∀ second ∈ places,
        (timers.object first.event).id = (timers.object second.event).id → first.event = second.event) ∧
      (∀ posting ∈ places, (timers.object posting.event).removed = false →
        ∃ function, (posting.event, function) ∈ Execution.trace step creates (initial runners) labels ∧
          machine.world.refs (timers.object posting.event).id = some function) ∧
      ∀ id function, machine.world.refs id = some function →
        ∃ posting ∈ places, (timers.object posting.event).id = id) ∧
    ∀ label posting, machine.invokes label = some posting →
      ∃ function, (posting.event, function) ∈ Execution.trace step creates (initial runners) labels ∧
        machine.world.refs (machine.world.timers.object posting.event).id = some function := by
  obtain ⟨timely, emptied, tabled⟩ := reachable_registered accepted scripted run
  have sound := tabled.sound
  constructor
  · intro noHand noActive timers places
    have once (event : Nat) : places.countP (·.event = event) = machine.view.held event := by
      simp [places, timers, Life.held, Life.pending, view, noHand, noActive, Life.starting, Life.ongoing, Timers.listed]
    have known : ∀ posting ∈ places, posting.event < timers.fresh := by
      intro posting member
      apply sound.known
      rw [← once, List.countP_pos_iff]
      exact ⟨posting, member, by simp⟩
    refine ⟨?_, ?_, ?_, ?_⟩
    · intro event
      rw [once]
      exact sound.once event
    · intro first firstIn second secondIn same
      exact sound.distinct _ (known first firstIn) _ (known second secondIn) same
    · intro posting member live
      obtain ⟨function, made⟩ := tabled.creator _ (known posting member)
      exact ⟨function, made, (tabled.stored _ made).2 live⟩
    · intro id function stored
      obtain ⟨event, -, named, placed⟩ := tabled.owned id function stored
      obtain ⟨posting, member, same⟩ := present_of_quiet noHand noActive placed
      exact ⟨posting, member, same ▸ named⟩
  · intro label posting invoked
    obtain ⟨active, live, -⟩ := invokes_some invoked
    obtain ⟨function, made⟩ := tabled.creator _ (sound.activeKnown _ _ active)
    exact ⟨function, made, (tabled.stored _ made).2 live⟩

/-- A script sets a timer and an interval, and the loop finds the function of the first one. -/
theorem timers_match_table_here : ∃ machine : Machine Unit Unit Nat,
    Execution.exec step (initial []) ([.set 7 0 true, .set 8 0 false, .tick 1, .run] ++ Label.nexts 18) = some machine ∧
      machine.invokes .next = some ⟨0, 0, 0⟩ ∧ ∃ function,
        (0, function) ∈ Execution.trace step creates (initial [] : Machine Unit Unit Nat)
          ([.set 7 0 true, .set 8 0 false, .tick 1, .run] ++ Label.nexts 18) ∧
        machine.world.refs (machine.world.timers.object 0).id = some function := by
  have fires : (Execution.exec step (initial [])
      ([.set 7 0 true, .set 8 0 false, .tick 1, .run] ++ Label.nexts 18 : List (Label Unit Unit Nat))).bind
        (fun machine => machine.invokes .next) = some ⟨0, 0, 0⟩ := by decide
  obtain ⟨machine, run, invoked⟩ := Option.bind_eq_some_iff.mp fires
  have table := timers_match_table (by simp [Label.nexts, Label.set]) (by simp [Label.nexts, Label.set]) run
  exact ⟨machine, run, invoked, table.2 _ _ invoked⟩

end Machine

end Dtel
