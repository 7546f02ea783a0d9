import Dtel.Construction.Worker.Data
import Dtel.Library.Execution
import Dtel.Proof.Loop.Step

namespace Dtel

namespace Machine

variable {Other Runner Fn : Type} {machine next : Machine Other Runner Fn} {label : Label Other Runner Fn}

/-- No script call clears the flag. -/
theorem perform_terminated {world after : World Other Runner Fn} {call : Call Other Runner Fn}
    (performed : world.perform call = some after) (flag : world.terminated = true) : after.terminated = true := by
  cases perform_cases performed with
  | terminate => rfl
  | _ => exact flag

/-- Only the first statement of `run` clears the flag. -/
theorem terminated_step (taken : machine.step label = some next) (unstarted : label ≠ .run)
    (point : machine.pc ≠ .entered) (flag : machine.world.terminated = true) :
    next.world.terminated = true ∧ next.pc ≠ .entered := by
  cases step_cases taken with
  | run => exact absurd rfl unstarted
  | enter before => exact absurd before point
  | script call world before performed => exact ⟨perform_terminated performed flag, point⟩
  | dispose node timeout now sanity posting =>
      constructor
      · unfold World.dispose
        split <;> exact flag
      · simp
  | settle timeout posting success => cases success <;> exact ⟨flag, by simp⟩
  | notifyPushed | notify =>
      unfold notified
      split
      · exact ⟨flag, by simp⟩
      · exact ⟨flag, point⟩
  | terminate => exact ⟨rfl, point⟩
  | tick | push | postTimeout | cancelEvent | addLoopRunner => exact ⟨flag, point⟩
  | _ => exact ⟨flag, by simp⟩

/-- Other threads and the clock do not start the loop. -/
theorem outside_thread {signal : Signal Other Runner} (outside : machine.pc = .outside)
    (taken : machine.step (.thread signal) = some next) : next.pc = .outside := by
  cases step_cases taken with
  | notifyPushed | notify => simp [notified, outside]
  | _ => exact outside

end Machine

namespace WorkerData

variable {Other Runner Fn : Type} {data next : WorkerData Other Runner Fn} {label : WorkerLabel Other Runner Fn}
  {world : World Other Runner Fn} {labels : List (WorkerLabel Other Runner Fn)}

/-- After the destructor's call of `terminate`, the flag of the event loop is set. -/
def ShutDown (data : WorkerData Other Runner Fn) : Prop :=
  data.destructor.afterTerminate = true → data.eventloop.world.terminated = true

/-- The destructor calls `terminate` only when the worker thread has executed the first statement of `run`. -/
def patient (data : WorkerData Other Runner Fn) (label : WorkerLabel Other Runner Fn) : Bool :=
  match data.destructor, label, data.eventloop.pc with
  | .locked, .destroy, .entered => false
  | _, _, _ => true

/-- The flag is set, and the statement that clears it is behind the worker thread. -/
def Final (data : WorkerData Other Runner Fn) : Prop :=
  data.destructor.afterTerminate = true →
    data.eventloop.world.terminated = true ∧ data.eventloop.pc ≠ .entered

theorem run_cases (taken : data.step .run = some next) : data.destructor = .uncalled ∧ next = data.run := by
  simp only [WorkerData.step, Option.ite_none_right_eq_some, Option.some.injEq] at taken
  exact ⟨taken.1, taken.2.symm⟩

theorem eventloop_cases {label : Label Other Runner Fn} (taken : data.step (.eventloop label) = some next) :
    data.enabled label = true ∧
      ∃ eventloop, data.eventloop.step label = some eventloop ∧ next = { data with eventloop := eventloop } := by
  simp only [WorkerData.step, Option.ite_none_right_eq_some, Option.map_eq_some_iff] at taken
  obtain ⟨⟨-, enabled⟩, eventloop, moved, rfl⟩ := taken
  exact ⟨enabled, eventloop, moved, rfl⟩

/-- Each patient step keeps the shutdown final. -/
theorem Final.step (final : data.Final) (patient : data.patient label = true) (taken : data.step label = some next) :
    next.Final := by
  intro after
  cases label with
  | run =>
      obtain ⟨uncalled, rfl⟩ := run_cases taken
      have kept : data.run.destructor = data.destructor := by
        unfold WorkerData.run
        split <;> rfl
      rw [kept, uncalled] at after
      cases after
  | eventloop label =>
      obtain ⟨enabled, eventloop, moved, rfl⟩ := eventloop_cases taken
      obtain ⟨flag, point⟩ := final after
      apply Machine.terminated_step moved _ point flag
      rintro rfl
      cases enabled
  | destroy =>
      simp only [WorkerData.step, destroyStep] at taken
      split at taken
      case h_1 => cases taken; cases after
      case h_2 point =>
          cases taken
          refine ⟨rfl, ?_⟩
          intro entered
          have still : data.eventloop.pc = .entered := entered
          simp [WorkerData.patient, point, still] at patient
      case h_3 point =>
          simp only [Option.ite_none_right_eq_some, Option.some.injEq] at taken
          obtain ⟨-, rfl⟩ := taken
          exact final (by rw [point]; rfl)
      case h_4 point => cases taken; exact final (by rw [point]; rfl)
      case h_5 => cases taken

/-- A worker without a thread stays outside its loop. -/
def Threaded (data : WorkerData Other Runner Fn) : Prop :=
  data.thread = false → data.eventloop.pc = .outside

/-- A worker outside its loop lets only the clock and other threads take a step. -/
theorem outside_enabled {label : Label Other Runner Fn} (outside : data.eventloop.pc = .outside)
    (enabled : data.enabled label = true) :
    (∃ elapsed, label = .tick elapsed) ∨ ∃ signal, label = .thread signal := by
  have idle : data.running = false := by simp [running, outside]
  cases label with
  | tick elapsed => exact .inl ⟨elapsed, rfl⟩
  | thread signal => exact .inr ⟨signal, rfl⟩
  | run => cases enabled
  | ended exception => rcases exception with _ | _ | _ <;> simp [WorkerData.enabled, idle] at enabled
  | _ => simp [WorkerData.enabled, idle] at enabled

theorem outside_step {label : Label Other Runner Fn} {eventloop : Machine Other Runner Fn}
    (outside : data.eventloop.pc = .outside) (enabled : data.enabled label = true)
    (moved : data.eventloop.step label = some eventloop) : eventloop.pc = .outside := by
  obtain ⟨elapsed, rfl⟩ | ⟨signal, rfl⟩ := outside_enabled outside enabled
  · cases moved
    exact outside
  · exact Machine.outside_thread outside moved

/-- The destructor changes neither the thread nor the queue of its loop. -/
theorem destroyStep_frame (taken : data.destroyStep = some next) :
    next.thread = data.thread ∧ next.eventloop.pc = data.eventloop.pc ∧
      next.eventloop.world.queue = data.eventloop.world.queue := by
  unfold destroyStep at taken
  split at taken
  case h_3 =>
      simp only [Option.ite_none_right_eq_some, Option.some.injEq] at taken
      obtain ⟨-, rfl⟩ := taken
      exact ⟨rfl, rfl, rfl⟩
  case h_5 => cases taken
  all_goals
    cases taken
    exact ⟨rfl, rfl, rfl⟩

theorem Threaded.step (threaded : data.Threaded) (taken : data.step label = some next) : next.Threaded := by
  intro unthreaded
  cases label with
  | run =>
      obtain ⟨-, rfl⟩ := run_cases taken
      unfold WorkerData.run at unthreaded ⊢
      split
      case isTrue thread => simp [thread] at unthreaded
      case isFalse thread => simp [thread] at unthreaded
  | eventloop label =>
      obtain ⟨enabled, eventloop, moved, rfl⟩ := eventloop_cases taken
      exact outside_step (threaded unthreaded) enabled moved
  | destroy =>
      obtain ⟨thread, point, -⟩ := destroyStep_frame taken
      rw [point]
      exact threaded (thread.symm.trans unthreaded)

/-- A worker whose flag is set leaves its loop at the next test, and the destructor joins it. -/
theorem join_completes (joining : data.destructor = .terminated) (thread : data.thread = true)
    (flag : data.eventloop.world.terminated = true) (point : data.eventloop.pc = .test) :
    ∃ final, Execution.exec step data [.eventloop .next, .eventloop .next, .destroy] = some final ∧
      final.destructor = .joined := by
  have leaves : data.step (.eventloop .next) =
      some { data with eventloop := { data.eventloop with pc := .leaving } } := by
    simp [step, enabled, running, joining, thread, point, flag, Machine.step, Machine.nextStep]
  have ends : ({ data with eventloop := { data.eventloop with pc := .leaving } } :
      WorkerData Other Runner Fn).step (.eventloop .next) =
      some { data with eventloop := { data.eventloop with
        world := { data.eventloop.world with queue := [] }, pc := .outside } } := by
    simp [step, enabled, running, joining, thread, Machine.step, Machine.nextStep]
  have joins : ({ data with eventloop := { data.eventloop with
      world := { data.eventloop.world with queue := [] }, pc := .outside } } :
      WorkerData Other Runner Fn).step .destroy =
      some { data with
        eventloop := { data.eventloop with world := { data.eventloop.world with queue := [] }, pc := .outside }
        destructor := .joined } := by
    simp [step, destroyStep, running, joining, thread]
  refine ⟨{ data with
    eventloop := { data.eventloop with world := { data.eventloop.world with queue := [] }, pc := .outside }
    destructor := .joined }, ?_, rfl⟩
  rw [Execution.exec_cons, leaves, Option.bind_some, Execution.exec_cons, ends, Option.bind_some,
    Execution.exec_cons, joins, Option.bind_some, Execution.exec_nil]

/-- When the destructor is patient, its shutdown is never undone, and the worker that tests the flag
is joined. An impatient destructor lets the next statement of the worker undo it. -/
theorem shutdown_stays (run : Execution.exec step (initial world) labels = some data) :
    (Execution.Along step (fun data label => data.patient label = true) (initial world) labels →
      data.ShutDown ∧
      (data.destructor = .terminated → data.eventloop.pc = .test →
        ∃ final, Execution.exec step data [.eventloop .next, .eventloop .next, .destroy] = some final ∧
          final.destructor = .joined)) ∧
    ∀ label next, data.step label = some next → data.patient label = false →
      ∃ undone, next.step (.eventloop .next) = some undone ∧ ¬undone.ShutDown := by
  have threaded : data.Threaded :=
    Execution.exec_invariant (fun _ _ _ holds taken => Threaded.step holds taken) (fun _ => rfl) run
  constructor
  · intro patient
    have start : (initial world : WorkerData Other Runner Fn).Final := by
      intro after
      cases after
    have final := Execution.exec_invariant_along
      (fun _ _ _ holds patient taken => Final.step holds patient taken) start patient run
    refine ⟨fun after => (final after).1, ?_⟩
    intro joining point
    have thread : data.thread = true := by
      by_contra unthreaded
      have outside := threaded (by simpa using unthreaded)
      rw [point] at outside
      cases outside
    exact join_completes joining thread (final (by rw [joining]; rfl)).1 point
  · intro label next taken impatient
    unfold WorkerData.patient at impatient
    split at impatient
    case h_2 => cases impatient
    case h_1 locked entered =>
        have thread : data.thread = true := by
          by_contra unthreaded
          have outside := threaded (by simpa using unthreaded)
          rw [entered] at outside
          cases outside
        simp only [step, destroyStep, locked, Option.some.injEq] at taken
        subst taken
        refine ⟨_, by simp [step, enabled, running, thread, entered, Machine.step, Machine.nextStep]; rfl, ?_⟩
        intro shutDown
        cases shutDown rfl

/-- The worker waits for an event when its owner destroys it. -/
theorem shutdown_stays_here : ∃ data : WorkerData Unit Unit Nat,
    Execution.exec step (initial World.initial) ([.run] ++ List.replicate 5 (.eventloop .next) ++
      [.destroy, .destroy, .eventloop .wake]) = some data ∧ data.ShutDown ∧
      ∃ final, Execution.exec step data [.eventloop .next, .eventloop .next, .destroy] = some final ∧
        final.destructor = .joined := by
  have ends : (Execution.exec step (initial World.initial) ([.run] ++ List.replicate 5 (.eventloop .next) ++
      [.destroy, .destroy, .eventloop .wake] : List (WorkerLabel Unit Unit Nat))).map (fun data =>
        (data.destructor, data.eventloop.pc)) = some (.terminated, .test) := by decide
  obtain ⟨data, run, same⟩ := Option.map_eq_some_iff.mp ends
  simp only [Prod.mk.injEq] at same
  obtain ⟨shutDown, joins⟩ := (shutdown_stays run).1 (by decide)
  exact ⟨data, run, shutDown, joins same.1 same.2⟩

/-- The owner destroys the worker before the new thread executes its first statement. -/
theorem early_shutdown_undone :
    ¬∀ (labels : List (WorkerLabel Unit Unit Nat)) (data : WorkerData Unit Unit Nat),
      Execution.exec step (initial World.initial) labels = some data → data.ShutDown := by
  intro claim
  have ends : (Execution.exec step (initial World.initial)
      ([.run, .destroy, .destroy, .eventloop .next] : List (WorkerLabel Unit Unit Nat))).map (fun data =>
        (data.destructor, data.eventloop.world.terminated)) = some (.terminated, false) := by decide
  obtain ⟨data, run, same⟩ := Option.map_eq_some_iff.mp ends
  simp only [Prod.mk.injEq] at same
  have flag := claim _ data run (by rw [same.1]; rfl)
  rw [same.2] at flag
  cases flag

end WorkerData

end Dtel
