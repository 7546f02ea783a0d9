import Dtel.Proof.Pointer.Timers
import Dtel.Proof.Timer.Refinement

namespace Dtel

open PointerStore (Layout)

namespace Timers

variable {timers next : Timers} {now id : Int} {event : Nat}

/-- `postEvent` adds one timer to the list. -/
theorem postEvent_listed (posted : timers.postEvent now event = some (id, next)) :
    (next.events.map Posting.event).Perm (event :: timers.events.map Posting.event) ∧ next.fresh = timers.fresh := by
  have added (before : Timers) : ((before.insert now event).events.map Posting.event).Perm
      (event :: before.events.map Posting.event) := by
    rw [insert_events]
    refine ((StableSort.sortBy_perm Posting.deadline _).map Posting.event).trans ?_
    rw [List.map_append]
    exact List.perm_append_singleton _ _
  simp only [postEvent, assignId] at posted
  split at posted
  case isTrue =>
      split at posted
      case isTrue =>
          cases posted
          exact ⟨added _, rfl⟩
      case isFalse => cases posted
  case isFalse =>
      cases posted
      exact ⟨added _, rfl⟩

/-- A new timer comes to the list. -/
theorem postNew_listed {delay : Int} {oneShot : Bool} (posted : timers.postNew now delay oneShot = some (id, next)) :
    (next.events.map Posting.event).Perm (timers.fresh :: timers.events.map Posting.event) ∧
      next.fresh = timers.fresh + 1 :=
  postEvent_listed posted

/-- The cancellation moves no pointer. -/
theorem cancelEvent_listed (timers : Timers) (id : Int) :
    (timers.cancelEvent id).2.events = timers.events ∧ (timers.cancelEvent id).2.fresh = timers.fresh := by
  unfold cancelEvent
  split <;> exact ⟨rfl, rfl⟩

/-- A settled timer is in the list once more when it is a live interval. -/
theorem settle_listed (settled : timers.settle now event = some next) :
    next.fresh = timers.fresh ∧
      if (timers.object event).oneShot ∨ (timers.object event).removed then next.events = timers.events
      else (next.events.map Posting.event).Perm (event :: timers.events.map Posting.event) := by
  unfold settle at settled
  split at settled
  case isTrue oneShot =>
      cases settled
      simp [oneShot]
  case isFalse interval =>
      split at settled
      case isTrue removed =>
          cases settled
          simp [removed]
      case isFalse live =>
          obtain ⟨⟨id, after⟩, posted, rfl⟩ := Option.map_eq_some_iff.mp settled
          obtain ⟨listed, fresh⟩ := postEvent_listed posted
          rw [if_neg (by simp [interval, live])]
          exact ⟨fresh, listed⟩

end Timers

namespace Machine

variable {Other Runner Fn : Type} {machine next : Machine Other Runner Fn} {label : Label Other Runner Fn}
  {labels : List (Label Other Runner Fn)} {store : PointerStore} {living : List Nat}

/-- The pointers of the store are those of the machine. -/
def Laid (machine : Machine Other Runner Fn) (store : PointerStore) (living : List Nat) : Prop :=
  Layout store machine.listedTimers (machine.pc.timers ++ machine.queuedTimers) living machine.world.timers.fresh

/-- A step that uses no pointer keeps the layout. -/
theorem Laid.quiet (laid : machine.Laid store living) (listed : next.world.timers.events = machine.world.timers.events)
    (fresh : next.world.timers.fresh = machine.world.timers.fresh) (hand : next.pc.timers = machine.pc.timers)
    (queued : next.queuedTimers = machine.queuedTimers) : next.Laid store living := by
  unfold Laid listedTimers at laid ⊢
  rw [listed, fresh, hand, queued]
  exact laid

/-- A notification uses no pointer. -/
theorem Laid.notified (laid : machine.Laid store living) : machine.notified.Laid store living := by
  unfold Machine.notified
  split
  case h_1 timeout point => exact laid.quiet rfl rfl (by simp [Pc.timers, point]) rfl
  case h_2 => exact laid

/-- Each step performs its operations, and the pointers of the store stay those of the machine. -/
theorem Laid.step (laid : machine.Laid store living) (taken : machine.step label = some next) :
    ∃ after living, Execution.exec PointerStore.step store (machine.pointers label) = some after ∧
      next.Laid after living := by
  have unchanged (nothing : machine.pointers label = []) (kept : next.Laid store living) :
      ∃ after living, Execution.exec PointerStore.step store (machine.pointers label) = some after ∧
        next.Laid after living := by
    rw [nothing]
    exact ⟨store, living, rfl, kept⟩
  cases step_cases taken with
  | tick elapsed => exact unchanged rfl (laid.quiet rfl rfl rfl rfl)
  | run point | enter point | leaveLoop point | pass point | endRunners timeout point | check node timeout point
  | callRunner node timeout other point | checked node timeout now point | lock timeout point =>
      refine unchanged ?_ (laid.quiet rfl rfl ?_ rfl)
      · simp [pointers, nextPointers, point]
      · simp [Pc.timers, point]
  | takeNone node timeout now sanity point first =>
      refine unchanged ?_ (laid.quiet rfl rfl ?_ rfl)
      · simp [pointers, nextPointers, point, first]
      · simp [Pc.timers, point]
  | dispose node timeout now sanity posting point =>
      have layout : Layout store machine.listedTimers (posting.event :: machine.queuedTimers) living
          machine.world.timers.fresh := by
        unfold Laid at laid
        rwa [point] at laid
      have operations : machine.pointers .next =
          if (machine.world.timers.object posting.event).removed then machine.leaveVariable posting.event
          else PointerLabel.enqueue posting.event ++ PointerLabel.leave (.toTimer posting.event) := by
        cases sanity <;> simp [pointers, nextPointers, point]
      rw [operations]
      split
      case isTrue removed =>
          obtain ⟨after, living', run, left⟩ := layout.leave
          refine ⟨after, living', run, ?_⟩
          simpa [Laid, World.dispose, World.release, removed, Pc.timers, listedTimers, queuedTimers] using left
      case isFalse live =>
          obtain ⟨after, run, kept⟩ := layout.enqueue (List.mem_cons_self ..)
          refine ⟨after, living, run, ?_⟩
          have moved := kept.congr (List.Perm.refl _) (List.perm_append_singleton posting.event machine.queuedTimers).symm
          simpa [Laid, World.dispose, World.postEvent, live, Pc.timers, listedTimers, queuedTimers,
            List.filterMap_append] using moved
  | take node timeout now sanity posting timers point first =>
      obtain ⟨list, same, -⟩ := Timers.takeFirst_some first
      have layout : Layout store (posting.event :: timers.events.map Posting.event) machine.queuedTimers living
          machine.world.timers.fresh := by
        unfold Laid listedTimers at laid
        rwa [point, list] at laid
      have operations : machine.pointers .next = PointerLabel.takeFront (.listing posting.event) := by
        simp [pointers, nextPointers, point, first]
      obtain ⟨after, run, moved⟩ := layout.takeListed
      rw [operations]
      refine ⟨after, living, run, ?_⟩
      rw [same]
      exact moved
  | drainEmpty timeout point queue =>
      refine unchanged ?_ (laid.quiet rfl rfl ?_ rfl)
      · simp [pointers, nextPointers, point, queue]
      · simp [Pc.timers, point]
  | drain timeout event rest point queue =>
      cases event with
      | other event =>
          refine unchanged ?_ (laid.quiet rfl rfl ?_ ?_)
          · simp [pointers, nextPointers, point, queue]
          · simp [Pc.timers, point]
          · simp [queuedTimers, queue]
      | timeout posting =>
          have queued : machine.queuedTimers = posting.event ::
              ({ machine with world := { machine.world with queue := rest } } : Machine Other Runner Fn).queuedTimers := by
            simp [queuedTimers, queue]
          have operations : machine.pointers .next = PointerLabel.takeFront (.toTimer posting.event) := by
            simp [pointers, nextPointers, point, queue]
          unfold Laid at laid
          rw [point, queued] at laid
          obtain ⟨after, run, kept⟩ := laid.takeQueued (List.mem_cons_self ..)
          rw [operations]
          exact ⟨after, living, run, kept⟩
  | call timeout posting function point live positive stored | callMissing timeout posting point live positive missing
  | skip timeout posting point dead =>
      refine unchanged ?_ (laid.quiet rfl rfl ?_ rfl)
      · simp [pointers, nextPointers, point]
      · simp [Pc.timers, point]
  | settle timeout posting success timers point settled =>
      obtain ⟨fresh, listed⟩ := Timers.settle_listed settled
      have operations : machine.pointers .next =
          if (machine.world.timers.object posting.event).oneShot ∨ (machine.world.timers.object posting.event).removed
          then [] else PointerLabel.postEvent posting.event := by
        simp [pointers, nextPointers, point]
      have hand : (if success then Pc.releasing timeout (.timeout posting) else .throwing timeout posting :
          Pc Other).timers = machine.pc.timers := by
        cases success <;> simp [Pc.timers, point]
      split at listed
      case isTrue dead =>
          rw [operations, if_pos dead]
          exact ⟨store, living, rfl, laid.quiet listed fresh hand rfl⟩
      case isFalse live =>
          have held : posting.event ∈ machine.pc.timers ++ machine.queuedTimers := by simp [Pc.timers, point]
          obtain ⟨after, run, posted⟩ := laid.post held
          rw [operations, if_neg live]
          refine ⟨after, living, run, ?_⟩
          have moved := posted.congr listed.symm (List.Perm.refl _)
          unfold Laid
          rw [hand, fresh]
          exact moved
  | release timeout posting point =>
      have operations : machine.pointers .next = machine.leaveVariable posting.event := by
        simp [pointers, nextPointers, point]
      unfold Laid at laid
      rw [point] at laid
      obtain ⟨after, living', run, left⟩ := Layout.leave laid
      rw [operations]
      exact ⟨after, living', run, left⟩
  | leave point =>
      have operations : machine.pointers .next = PointerLabel.clearQueue machine.listedTimers machine.queuedTimers := by
        simp [pointers, nextPointers, point]
      unfold Laid at laid
      rw [point] at laid
      obtain ⟨after, living', run, cleared⟩ := Layout.clear laid
      rw [operations]
      exact ⟨after, living', run, cleared⟩
  | script call world point performed =>
      cases perform_cases performed with
      | rejected args oneShot error checked => exact unchanged (by simp [pointers, checked]) laid
      | setTimeout args oneShot function delay id timers checked posted =>
          obtain ⟨listed, fresh⟩ := Timers.postNew_listed posted
          have operations : machine.pointers (.script (.setTimeout args oneShot)) =
              PointerLabel.postNew machine.world.timers.fresh := by
            simp [pointers, checked]
          obtain ⟨after, run, new⟩ := Layout.postNew laid
          rw [operations]
          refine ⟨after, machine.world.timers.fresh :: living, run, ?_⟩
          unfold Laid
          rw [fresh]
          exact new.congr listed.symm (List.Perm.refl _)
      | clearRejected args error checked => exact unchanged rfl laid
      | clearTimeout args id checked =>
          obtain ⟨events, fresh⟩ := machine.world.timers.cancelEvent_listed id
          exact unchanged rfl (laid.quiet events fresh rfl rfl)
      | postEvent event =>
          exact unchanged rfl (laid.quiet rfl rfl rfl (by simp [queuedTimers, World.postEvent, List.filterMap_append]))
      | addLoopRunner runner priority => exact unchanged rfl (laid.quiet rfl rfl rfl rfl)
      | terminate => exact unchanged rfl (laid.quiet rfl rfl rfl rfl)
  | pcall timeout posting success point | looped node timeout newtimeout point | runnerThrew node timeout point
  | applyThrew timeout event point | threw timeout posting point | releaseThrew timeout event point
  | wake timeout point =>
      refine unchanged ?_ (laid.quiet rfl rfl ?_ rfl)
      · simp [pointers, point]
      · simp [Pc.timers, point]
  | applied timeout event exception point accepted | released timeout event exception point accepted =>
      refine unchanged ?_ (laid.quiet rfl rfl ?_ rfl)
      · rcases exception with _ | _ | _ <;> simp [pointers, point]
      · simp [Pc.timers, point]
  | rethrew timeout posting point =>
      have operations : machine.pointers (.ended (some false)) = machine.leaveVariable posting.event := by
        simp [pointers, point]
      unfold Laid at laid
      rw [point] at laid
      obtain ⟨after, living', run, left⟩ := Layout.leave laid
      rw [operations]
      exact ⟨after, living', run, left⟩
  | push event =>
      exact unchanged rfl (laid.quiet rfl rfl rfl (by simp [queuedTimers, World.postEvent, List.filterMap_append]))
  | notifyPushed pushed =>
      have kept : ({ machine with unnotified := machine.unnotified - 1 } : Machine Other Runner Fn).Laid store living := laid
      exact unchanged rfl kept.notified
  | notify => exact unchanged rfl laid.notified
  | postTimeout delay oneShot id timers posted =>
      obtain ⟨listed, fresh⟩ := Timers.postNew_listed posted
      obtain ⟨after, run, new⟩ := Layout.postNew laid
      refine ⟨after, machine.world.timers.fresh :: living, run, ?_⟩
      unfold Laid
      rw [fresh]
      exact new.congr listed.symm (List.Perm.refl _)
  | cancelEvent id =>
      obtain ⟨events, fresh⟩ := machine.world.timers.cancelEvent_listed id
      exact unchanged rfl (laid.quiet events fresh rfl rfl)
  | addLoopRunner runner priority => exact unchanged rfl (laid.quiet rfl rfl rfl rfl)
  | terminate => exact unchanged rfl (laid.quiet rfl rfl rfl rfl)

/-- The runs of the loop and of its pointers go together. -/
theorem Laid.run {after : Machine Other Runner Fn} (laid : machine.Laid store living)
    (run : Execution.exec Machine.step machine labels = some after) :
    ∃ final living, Execution.exec PointerStore.step store (Execution.trace Machine.step pointers machine labels) = some final ∧
      after.Laid final living := by
  induction labels generalizing machine store living with
  | nil =>
      cases run
      exact ⟨store, living, rfl, laid⟩
  | cons label rest inductionHypothesis =>
      obtain ⟨middle, taken, run⟩ := Execution.exec_cons_some.mp run
      obtain ⟨between, living', first, laid⟩ := laid.step taken
      obtain ⟨final, living'', second, laid⟩ := inductionHypothesis laid run
      rw [Execution.trace_cons rest taken]
      exact ⟨final, living'', Execution.exec_append_some.mpr ⟨between, first, second⟩, laid⟩

/-- `RegisterSetTimeout` leaves no timer and three pointers to the handler. -/
theorem registered_laid (runners : List (Runner × Int)) :
    ∃ store, Execution.exec PointerStore.step (PointerStore.initial 1) PointerLabel.registerSetTimeout = some store ∧
      (initial runners : Machine Other Runner Fn).Laid store [] := by
  have run : Execution.exec PointerStore.step (PointerStore.initial 1) PointerLabel.registerSetTimeout =
      some ⟨[⟨3, .held⟩, ⟨1, .held⟩], [.toRunner, .ofRunner, .toHandler, .toHandler], [[]]⟩ := rfl
  obtain ⟨queue, timers, -⟩ : (initial runners : Machine Other Runner Fn).world.queue = [] ∧
      (initial runners : Machine Other Runner Fn).world.timers = Timers.initial ∧ _ := initial_world runners
  have listed : (initial runners : Machine Other Runner Fn).listedTimers = [] := by
    rw [listedTimers, timers]
    rfl
  have queued : (initial runners : Machine Other Runner Fn).queuedTimers = [] := by
    rw [queuedTimers, queue]
    rfl
  refine ⟨_, run, ?_⟩
  rw [Laid, listed, queued, timers]
  exact
    { sound := Execution.exec_invariant (fun _ _ _ holds taken => PointerStore.Sound.step holds taken)
        (PointerStore.initial_sound 1) run
      threads := rfl
      length := rfl
      pointers := List.Perm.refl _
      distinct := List.nodup_nil
      alive := fun event => by simp [Pc.timers]
      gone := fun event below => by cases below }

/-- Each reachable machine has a store with its pointers. -/
theorem reachable_laid {runners : List (Runner × Int)}
    (run : Execution.exec step (initial runners) labels = some machine) :
    ∃ store living, Execution.exec PointerStore.step (PointerStore.initial 1) (PointerLabel.registerSetTimeout ++
      Execution.trace step pointers (initial runners) labels) = some store ∧ machine.Laid store living := by
  obtain ⟨registered, first, start⟩ : ∃ store, Execution.exec PointerStore.step (PointerStore.initial 1)
    PointerLabel.registerSetTimeout = some store ∧ (initial runners : Machine Other Runner Fn).Laid store [] :=
      registered_laid runners
  obtain ⟨store, living, second, laid⟩ := start.run run
  exact ⟨store, living, Execution.exec_append_some.mpr ⟨registered, first, second⟩, laid⟩

/-- In each run of the loop, the pointer operations of the timer code are defined. A timer has as many pointers as
places that hold it, the list of the handler, the queue and the variables of the loop. It is deleted when the last
one lets it go. -/
theorem timers_live_while_held {runners : List (Runner × Int)}
    (run : Execution.exec step (initial runners) labels = some machine) :
    ∃ store, Execution.exec PointerStore.step (PointerStore.initial 1) (PointerLabel.registerSetTimeout ++
        Execution.trace step pointers (initial runners) labels) = some store ∧
      ∀ event < machine.world.timers.fresh,
        if event ∈ machine.listedTimers ++ machine.pc.timers ++ machine.queuedTimers then
          store.objects[timerObject event]? =
            some ⟨(machine.listedTimers ++ machine.pc.timers ++ machine.queuedTimers).count event, .held⟩
        else store.phase? (timerObject event) = some .freed := by
  obtain ⟨store, living, operated, laid⟩ := reachable_laid run
  refine ⟨store, operated, fun event below => ?_⟩
  have lives : event ∈ living ↔ event ∈ machine.listedTimers ++ machine.pc.timers ++ machine.queuedTimers := by
    rw [List.append_assoc, List.mem_append]
    exact Layout.alive laid event
  split
  case isTrue held =>
      obtain ⟨counted, there, phase⟩ := PointerStore.phase?_iff.mp (Layout.held laid (lives.mpr held))
      have count := (Layout.sound laid).counted _ counted there
      have none : store.calling (.release (timerObject event)) = 0 := by
        rw [PointerStore.calling, Layout.threads laid]
        rfl
      rw [PointerStore.uses, none, Layout.holders_timer laid] at count
      rw [there, Option.some.injEq, List.append_assoc, List.count_append, ← Nat.add_zero (_ + _), ← count, ← phase]
  case isFalse dead => exact Layout.gone laid event below fun alive => dead (lives.mp alive)

/-- An interval waits for its deadline. -/
theorem timers_live_while_held_here : ∃ (machine : Machine Unit Unit Nat) (store : PointerStore),
    Execution.exec step (initial []) [.set 7 5 false] = some machine ∧ store.objects[timerObject 0]? = some ⟨1, .held⟩ := by
  have ends : (Execution.exec step (initial [] : Machine Unit Unit Nat) [.set 7 5 false]).map (fun machine =>
      (machine.world.timers.fresh, machine.listedTimers ++ machine.pc.timers ++ machine.queuedTimers)) =
        some (1, [0]) := by decide
  obtain ⟨machine, run, same⟩ := Option.map_eq_some_iff.mp ends
  obtain ⟨fresh, places⟩ := Prod.mk.inj same
  obtain ⟨store, -, timers⟩ := timers_live_while_held run
  have first := timers 0 (by rw [fresh]; decide)
  rw [places, if_pos (by decide)] at first
  exact ⟨machine, store, run, first⟩

/-- The list of the handler and the members of the timers are a cycle. When the host destroys the loop outside of
`run`, the heap and its own pointer, no pointer outside of all objects is left, and the runner is deleted. The handler
and the timers that it lists are deleted exactly when it lists none. -/
theorem listed_timers_leak_handler {runners : List (Runner × Int)}
    (run : Execution.exec step (initial runners) labels = some machine) (outside : machine.pc = .outside) :
    ∃ store, Execution.exec PointerStore.step (PointerStore.initial 1) (PointerLabel.registerSetTimeout ++
        Execution.trace step pointers (initial runners) labels ++
          PointerLabel.destroyAll machine.listedTimers machine.queuedTimers) = some store ∧
      store.threads = [[]] ∧ (∀ pointer ∈ store.pointers, pointer.owner ≠ none) ∧
      store.phase? runnerObject = some .freed ∧
      store.phase? handlerObject = some (if machine.listedTimers = [] then .freed else .held) ∧
      ∀ event < machine.world.timers.fresh,
        store.phase? (timerObject event) = some (if event ∈ machine.listedTimers then .held else .freed) := by
  obtain ⟨store, living, operated, laid⟩ := reachable_laid run
  have layout : Layout store machine.listedTimers machine.queuedTimers living machine.world.timers.fresh := by
    unfold Laid at laid
    rwa [outside] at laid
  obtain ⟨final, destroyed, left⟩ := layout.destroyed
  exact ⟨final, Execution.exec_append_some.mpr ⟨store, operated, destroyed⟩, left⟩

/-- The interval is never cleared. -/
theorem listed_timers_leak_handler_here : ∃ (machine : Machine Unit Unit Nat) (store : PointerStore),
    Execution.exec step (initial []) [.set 7 5 false] = some machine ∧
      (∀ pointer ∈ store.pointers, pointer.owner ≠ none) ∧ store.phase? handlerObject = some .held := by
  have ends : (Execution.exec step (initial [] : Machine Unit Unit Nat) [.set 7 5 false]).map (fun machine =>
      (machine.pc, machine.listedTimers)) = some (.outside, [0]) := by decide
  obtain ⟨machine, run, same⟩ := Option.map_eq_some_iff.mp ends
  obtain ⟨outside, listed⟩ := Prod.mk.inj same
  obtain ⟨store, -, -, owned, -, handler, -⟩ := listed_timers_leak_handler run outside
  rw [listed, if_neg (by decide)] at handler
  exact ⟨machine, store, run, owned, handler⟩

end Machine

end Dtel
