import Dtel.Proof.Timer.Refinement
import Mathlib.Algebra.GroupWithZero.Nat

namespace Dtel

/-- A new timer gets the next id, as long as the counter can be incremented. -/
theorem Timers.postNew_isSome (timers : Timers) (now delay : Int) (oneShot : Bool) :
    (timers.postNew now delay oneShot).isSome ↔ timers.lastId < intMax := by
  simp only [postNew, postEvent, assignId, create, Function.update_self, TimeoutEvent.create]
  by_cases room : timers.lastId < intMax <;> simp [room]

/-- A timer with an id keeps it when it is posted again. -/
theorem Timers.postEvent_again {timers : Timers} {now : Int} {event : Nat} (identified : 0 < (timers.object event).id) :
    timers.postEvent now event = some ((timers.object event).id, timers.insert now event) := by
  rw [postEvent, assignId, if_neg (by omega)]
  rfl

variable {Other Runner Fn : Type}

/-- This counts the new timers that are posted. -/
def Act.newTimers : Act Fn → Nat
  | .create .. => 1
  | _ => 0

/-- A script or another thread posts a new timer. -/
def Label.newTimers : Label Other Runner Fn → Nat
  | .script (.setTimeout args _) =>
      match setTimeoutArguments args with
      | .ok _ => 1
      | .error _ => 0
  | .thread (.postTimeout ..) => 1
  | _ => 0

/-- The counter moves only when a new timer is posted. -/
theorem Life.step_lastId {life next : Life Fn} {act : Act Fn} (sound : life.Sound) (taken : life.step act = some next) :
    next.timers.lastId = life.timers.lastId + act.newTimers := by
  cases step_cases taken with
  | create => rfl
  | settle posting timers active settled =>
      have identified := (sound.identified _ (sound.activeKnown _ _ active)).1
      rcases Timers.settle_some identified settled with ⟨-, rfl⟩ | ⟨-, -, rfl⟩ | ⟨-, -, rfl⟩
      all_goals simp [Act.newTimers]
  | _ => simp [Act.newTimers]

namespace Machine

variable {machine next final : Machine Other Runner Fn} {label : Label Other Runner Fn}
  {labels : List (Label Other Runner Fn)} {runners : List (Runner × Int)}

theorem act_newTimers : (machine.act label).newTimers = label.newTimers := by
  have acts := act_cases machine label
  generalize machine.act label = act at acts ⊢
  cases acts with
  | setTimeout args oneShot function delay checked => simp [Label.newTimers, Act.newTimers, checked]
  | rejected args oneShot error checked => simp [Label.newTimers, Act.newTimers, checked]
  | signal signal foreign keeping =>
      cases signal with
      | postTimeout delay oneShot => exact absurd rfl (foreign delay oneShot)
      | _ => rfl
  | _ => rfl

/-- The counter is the number of new timers. -/
theorem lastId_run (timely : machine.Timely) (sound : machine.view.Sound)
    (run : Execution.exec step machine labels = some final) :
    final.world.timers.lastId = machine.world.timers.lastId + (labels.map Label.newTimers).sum := by
  induction labels generalizing machine with
  | nil =>
      cases run
      simp
  | cons label rest inductionHypothesis =>
      obtain ⟨next, taken, run⟩ := Execution.exec_cons_some.mp run
      have simulated := simulates timely taken
      have moved : next.world.timers.lastId = machine.world.timers.lastId + (machine.act label).newTimers :=
        Life.step_lastId sound simulated
      rw [inductionHypothesis (timely.step taken) (sound.step simulated) run, moved, act_newTimers, List.map_cons,
        List.sum_cons]
      push_cast
      omega

/-- The handler gives a positive id to each new timer, which no other timer has, exactly as long as it has given
fewer than 2147483647 ids. Each timer keeps its id, also when it is posted again. -/
theorem timer_ids_positive_and_unique (run : Execution.exec step (initial runners) labels = some machine) :
    (∀ event < machine.world.timers.fresh, 0 < (machine.world.timers.object event).id ∧
      ∀ other < machine.world.timers.fresh,
        (machine.world.timers.object event).id = (machine.world.timers.object other).id → event = other) ∧
      (∀ posting, posting ∈ machine.world.timers.events ∨ .timeout posting ∈ machine.world.queue →
        posting.event < machine.world.timers.fresh) ∧
      (∀ label next, machine.step label = some next → ∀ event < machine.world.timers.fresh,
        (next.world.timers.object event).id = (machine.world.timers.object event).id) ∧
      (∀ event < machine.world.timers.fresh, ∃ timers, machine.world.timers.postEvent machine.world.clock event =
        some ((machine.world.timers.object event).id, timers)) ∧
      ∀ delay oneShot,
        (∃ id world, machine.world.postTimeout delay oneShot = some (id, world) ∧ 0 < id ∧
          ∀ event < machine.world.timers.fresh, (machine.world.timers.object event).id ≠ id) ↔
        (labels.map Label.newTimers).sum < 2147483647 := by
  obtain ⟨timely, sound⟩ := reachable_sound run
  have start : (initial runners : Machine Other Runner Fn).world.timers.lastId = 0 := by
    rw [(initial_world runners).2.1]
    rfl
  have counted := lastId_run (initial_timely runners) (initial_sound runners) run
  rw [start, Int.zero_add] at counted
  refine ⟨?_, ?_, ?_, ?_, ?_⟩
  · exact fun event below => ⟨(sound.identified event below).1, sound.distinct event below⟩
  · rintro posting (listed | queued)
    · exact sound.listedKnown listed
    · have member : posting ∈ machine.view.queue := List.mem_filterMap.mpr ⟨_, queued, rfl⟩
      exact sound.known _ (Life.held_of_queued member)
  · exact fun label next taken event below => ((sound.keeps (simulates timely taken)).2 event below).id
  · exact fun event below => ⟨_, Timers.postEvent_again (sound.identified event below).1⟩
  · intro delay oneShot
    constructor
    · rintro ⟨id, world, posted, -⟩
      obtain ⟨pair, new, -⟩ := Option.map_eq_some_iff.mp posted
      have room := (Timers.postNew_some new).1
      unfold intMax at room
      omega
    · intro few
      have room : machine.world.timers.lastId < intMax := by
        unfold intMax
        omega
      obtain ⟨⟨id, timers⟩, new⟩ := Option.isSome_iff_exists.mp
        ((Timers.postNew_isSome machine.world.timers machine.world.clock delay oneShot).mpr room)
      have posted : machine.world.postTimeout delay oneShot = some (id, { machine.world with timers := timers }) := by
        rw [World.postTimeout, new]
        rfl
      have next : id = machine.world.timers.lastId + 1 := (Timers.postNew_some new).2.1
      have counter : 0 ≤ machine.world.timers.lastId := sound.counter
      refine ⟨id, _, posted, by omega, fun event below same => ?_⟩
      have bounded : (machine.world.timers.object event).id ≤ machine.world.timers.lastId :=
        (sound.identified event below).2
      omega

theorem timer_ids_positive_and_unique_here :
    ∃ machine : Machine Unit Unit Nat,
      Execution.exec step (initial []) [.set 0 0 true, .set 1 0 false] = some machine ∧
        ∃ id world, machine.world.postTimeout 0 true = some (id, world) ∧ 0 < id := by
  have runs : (Execution.exec step (initial [] : Machine Unit Unit Nat) [.set 0 0 true, .set 1 0 false]).isSome := by
    decide
  obtain ⟨machine, run⟩ := Option.isSome_iff_exists.mp runs
  obtain ⟨id, world, posted, positive, -⟩ := ((timer_ids_positive_and_unique run).2.2.2.2 0 true).mpr (by decide)
  exact ⟨machine, run, id, world, posted, positive⟩

/-- Scripts that run before `run` set this number of timers. -/
theorem exec_sets (machine : Machine Other Runner Fn) (count : Nat) (outside : machine.pc = .outside)
    (room : machine.world.timers.lastId + count ≤ intMax) (function : Fn) :
    ∃ final, Execution.exec step machine (List.replicate count (.set function 0 true)) = some final ∧
      final.world.timers.lastId = machine.world.timers.lastId + count := by
  induction count generalizing machine with
  | zero => exact ⟨machine, rfl, by simp⟩
  | succ count inductionHypothesis =>
      push_cast at room
      have below : machine.world.timers.lastId < intMax := by omega
      obtain ⟨⟨id, timers⟩, new⟩ := Option.isSome_iff_exists.mp
        ((Timers.postNew_isSome machine.world.timers machine.world.clock 0 true).mpr below)
      have moved : timers.lastId = machine.world.timers.lastId + 1 := by
        rw [(Timers.postNew_some new).2.2]
        rfl
      have taken : machine.step (.set function 0 true) = some { machine with
          world := { machine.world with timers := timers, refs := putRef machine.world.refs id function } } := by
        have checked : setTimeoutArguments [JsValue.function function, .number 0] = .ok (function, 0) := rfl
        simp [step, Label.set, outside, Pc.scripting, World.perform, World.setTimeoutBase, checked, World.postTimeout,
          new]
      have later : timers.lastId + count ≤ intMax := by omega
      obtain ⟨final, run, last⟩ := inductionHypothesis { machine with
        world := { machine.world with timers := timers, refs := putRef machine.world.refs id function } } outside later
      refine ⟨final, Execution.exec_cons_some.mpr ⟨_, taken, run⟩, ?_⟩
      rw [last]
      change timers.lastId + count = _
      rw [moved]
      push_cast
      omega

/-- After 2147483647 timers the counter overflows for the next one. -/
theorem id_counter_overflows : ∃ machine : Machine Unit Unit Nat,
    Execution.exec step (initial []) (List.replicate 2147483647 (.set 0 0 true)) = some machine ∧
      machine.world.timers.lastId = intMax ∧ machine.world.postTimeout 0 true = none := by
  obtain ⟨machine, run, last⟩ := exec_sets (initial [] : Machine Unit Unit Nat) 2147483647 rfl (by decide) 0
  have full : machine.world.timers.lastId = intMax := last
  refine ⟨machine, run, full, ?_⟩
  have stuck : ¬(machine.world.timers.postNew machine.world.clock 0 true).isSome := by
    rw [Timers.postNew_isSome, full]
    exact lt_irrefl intMax
  rw [World.postTimeout, Option.not_isSome_iff_eq_none.mp stuck]
  rfl

end Machine

end Dtel
