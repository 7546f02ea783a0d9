import Dtel.Proof.Loop.Stop
import Dtel.Proof.Worker.Shutdown

namespace Dtel

variable {Other Runner Fn : Type}

/-- The runners and the timers of the world are in order, as every loop outside of `run` leaves them. -/
def World.Prepared (world : World Other Runner Fn) : Prop := (⟨world, .outside, 0⟩ : Machine Other Runner Fn).Ready

theorem World.prepared_of_run {runners : List (Runner × Int)} {labels : List (Label Other Runner Fn)}
    {world : World Other Runner Fn} {unnotified : Nat}
    (run : Execution.exec Machine.step (Machine.initial runners) labels = some ⟨world, .outside, unnotified⟩) :
    world.Prepared := by
  obtain ⟨⟨rostered, -⟩, timely, sound⟩ := Machine.reachable_ready run
  exact ⟨⟨rostered, fun node here => nomatch here⟩, timely, sound⟩

/-- The statements that the destructor has left. -/
def Destructor.left : Destructor → Nat
  | .uncalled => 4
  | .locked => 3
  | .terminated => 2
  | .joined => 1
  | .destroyed => 0

namespace WorkerLabel

/-- The destructor or the worker's thread executes a statement, or the code of the thread ends, or its wait does. -/
def advance : WorkerLabel Other Runner Fn → Nat
  | .eventloop label => label.advance
  | .destroy => 1
  | .run => 0

/-- The work that a step brings to the worker's thread. -/
def cost : WorkerLabel Other Runner Fn → Nat
  | .eventloop label => label.cost
  | .destroy | .run => 0

end WorkerLabel

namespace WorkerData
open Execution

variable {data next : WorkerData Other Runner Fn} {label : WorkerLabel Other Runner Fn}
  {world : World Other Runner Fn} {labels : List (WorkerLabel Other Runner Fn)}

/-- Each step of the worker keeps its loop in order. -/
theorem ready_step (ready : data.eventloop.Ready) (threaded : data.Threaded) (taken : data.step label = some next) :
    next.eventloop.Ready := by
  obtain ⟨placed, timely, sound⟩ := ready
  cases label with
  | run =>
      obtain ⟨-, rfl⟩ := run_cases taken
      unfold WorkerData.run
      split
      case isTrue => exact ⟨placed, timely, sound⟩
      case isFalse unthreaded =>
          have outside := threaded (by simpa using unthreaded)
          have same : ({ data.eventloop with pc := .entered } : Machine Other Runner Fn).view = data.eventloop.view := by
            simp only [Machine.view, outside]
            rfl
          refine ⟨⟨placed.rostered, ?_⟩, ?_, same ▸ sound⟩
          · intro node here
            cases here
          · intro _ _ _ _ _ point
            cases point
  | eventloop label =>
      obtain ⟨-, eventloop, moved, rfl⟩ := eventloop_cases taken
      exact Machine.Ready.step ⟨placed, timely, sound⟩ moved
  | destroy =>
      simp only [WorkerData.step, destroyStep] at taken
      split at taken
      case h_3 =>
          simp only [Option.ite_none_right_eq_some, Option.some.injEq] at taken
          obtain ⟨-, rfl⟩ := taken
          exact ⟨placed, timely, sound⟩
      case h_5 => cases taken
      all_goals
        cases taken
        exact ⟨placed.keep rfl rfl fun _ here => Or.inl here, timely, sound⟩

/-- The statements that are left until the destructor returns, with those of the worker's thread. -/
def shutdownLeft (data : WorkerData Other Runner Fn) : Nat := data.eventloop.stopLeft + data.destructor.left

/-- The destructor has joined the worker's thread only when it has ended. -/
def Joined (data : WorkerData Other Runner Fn) : Prop :=
  data.destructor = .joined ∨ data.destructor = .destroyed → data.eventloop.pc = .outside

theorem Joined.step (joined : data.Joined) (taken : data.step label = some next) : next.Joined := by
  intro behind
  cases label with
  | run =>
      obtain ⟨uncalled, rfl⟩ := run_cases taken
      have kept : data.run.destructor = data.destructor := by
        unfold WorkerData.run
        split <;> rfl
      simp [kept, uncalled] at behind
  | eventloop label =>
      obtain ⟨enabled, eventloop, moved, rfl⟩ := eventloop_cases taken
      exact outside_step (joined behind) enabled moved
  | destroy =>
      simp only [WorkerData.step, destroyStep] at taken
      split at taken
      case h_1 | h_2 =>
          cases taken
          simp at behind
      case h_3 =>
          simp only [Option.ite_none_right_eq_some, Option.some.injEq, Bool.and_eq_true, Bool.not_eq_true'] at taken
          obtain ⟨⟨thread, idle⟩, rfl⟩ := taken
          unfold running at idle
          split at idle
          case h_1 point => exact point
          case h_2 => rw [thread] at idle; cases idle
      case h_4 point => cases taken; exact joined (Or.inl point)
      case h_5 => cases taken

/-- The destructor has told the worker's thread to end. -/
structure Closing (data : WorkerData Other Runner Fn) : Prop where
  ready : data.eventloop.Ready
  threaded : data.thread = true
  asked : data.destructor.afterTerminate = true
  joined : data.Joined
  stopping : data.eventloop.Stopping 4

theorem phase_le (pc : Pc Other) : pc.phase ≤ 4 := by
  cases pc <;> simp [Pc.phase]

/-- Each step pays for itself from what is left of the shutdown. -/
theorem Closing.step (closing : data.Closing) (taken : data.step label = some next) :
    next.Closing ∧ next.shutdownLeft + label.advance ≤ data.shutdownLeft + label.cost := by
  obtain ⟨ready, threaded, asked, joined, stopping⟩ := closing
  have later := ready_step ready (fun unthreaded => by simp [threaded] at unthreaded) taken
  have ends := joined.step taken
  cases label with
  | run =>
      obtain ⟨uncalled, -⟩ := run_cases taken
      rw [uncalled] at asked
      cases asked
  | eventloop label =>
      obtain ⟨enabled, eventloop, moved, rfl⟩ := eventloop_cases taken
      have same : label.starts = false := by
        cases label with
        | run => cases enabled
        | _ => rfl
      refine ⟨⟨later, threaded, asked, ends, stopping.step same moved⟩, ?_⟩
      have pays := stopping.pays ready.placed same moved
      simp only [shutdownLeft, WorkerLabel.advance, WorkerLabel.cost]
      omega
  | destroy =>
      simp only [WorkerData.step, destroyStep] at taken
      split at taken
      case h_1 point | h_2 point =>
          rw [point] at asked
          cases asked
      case h_3 point =>
          simp only [Option.ite_none_right_eq_some, Option.some.injEq] at taken
          obtain ⟨-, rfl⟩ := taken
          refine ⟨⟨later, threaded, rfl, ends, stopping⟩, ?_⟩
          simp [shutdownLeft, point, Destructor.left, WorkerLabel.advance, WorkerLabel.cost]
      case h_4 point =>
          cases taken
          refine ⟨⟨later, threaded, rfl, ends, stopping⟩, ?_⟩
          simp [shutdownLeft, point, Destructor.left, WorkerLabel.advance, WorkerLabel.cost]
      case h_5 => cases taken

/-- While the destructor has not returned, it has a next statement, or the worker's thread goes on. -/
theorem Closing.advances (closing : data.Closing) (unfinished : data.destructor ≠ .destroyed) :
    ∃ label next, label.advance = 1 ∧ data.step label = some next := by
  obtain ⟨ready, threaded, asked, -, -⟩ := closing
  cases place : data.destructor with
  | uncalled | locked =>
      rw [place] at asked
      cases asked
  | terminated =>
      by_cases outside : data.eventloop.pc = .outside
      · exact ⟨.destroy, { data with destructor := .joined }, rfl,
          by simp [WorkerData.step, destroyStep, place, threaded, running, outside]⟩
      · obtain ⟨label, eventloop, ⟨goes, accepted⟩, moved⟩ := ready.returns outside
        have running : data.running = true := by
          unfold running
          split
          case h_1 point => exact absurd point outside
          case h_2 => exact threaded
        have enabled : data.enabled label = true := by
          cases label with
          | run => cases goes
          | ended exception =>
              rcases exception with _ | _ | _
              · exact running
              · exact absurd rfl accepted
              · exact running
          | tick | thread => rfl
          | _ => exact running
        exact ⟨.eventloop label, { data with eventloop := eventloop }, goes,
          by simp [WorkerData.step, place, enabled, moved]⟩
  | joined => exact ⟨.destroy, { data with destructor := .destroyed }, rfl,
      by simp [WorkerData.step, destroyStep, place]⟩
  | destroyed => exact absurd place unfinished

/-- When a patient destructor has called `terminate`, it returns. The worker's thread and the destructor execute no
more statements than what is left of the loop, the work of the events and runners that are added later, and five more.
Until then one of them has a next statement, when the code that the thread runs ends. -/
theorem destructor_returns (prepared : world.Prepared) (run : exec step (initial world) labels = some data)
    (patient : Along step (fun data label => data.patient label = true) (initial world) labels)
    (asked : data.destructor.afterTerminate = true) (thread : data.thread = true) :
    (∀ later final, exec step data later = some final →
      final.shutdownLeft + (later.map WorkerLabel.advance).sum ≤
          data.shutdownLeft + (later.map WorkerLabel.cost).sum ∧
      (final.destructor ≠ .destroyed → ∃ label after, label.advance = 1 ∧ final.step label = some after)) ∧
    ∃ later final, (∀ label ∈ later, label.advance = 1) ∧ later.length ≤ data.shutdownLeft ∧
      exec step data later = some final ∧ final.destructor = .destroyed := by
  have start : (initial world).Threaded ∧ (initial world).eventloop.Ready ∧ (initial world).Joined ∧ (initial world).Final :=
    ⟨fun _ => rfl, prepared, fun _ => rfl, fun after => by cases after⟩
  have keeps (data : WorkerData Other Runner Fn) (label : WorkerLabel Other Runner Fn)
      (next : WorkerData Other Runner Fn) (holds : data.Threaded ∧ data.eventloop.Ready ∧ data.Joined ∧ data.Final)
      (patient : data.patient label = true) (taken : data.step label = some next) :
      next.Threaded ∧ next.eventloop.Ready ∧ next.Joined ∧ next.Final := by
    obtain ⟨threaded, ready, joined, final⟩ := holds
    exact ⟨threaded.step taken, ready_step ready threaded taken, joined.step taken, final.step patient taken⟩
  obtain ⟨-, ready, joined, final⟩ := exec_invariant_along keeps start patient run
  obtain ⟨flag, begun⟩ := final asked
  have closing : data.Closing := ⟨ready, thread, asked, joined, flag, begun, phase_le _⟩
  constructor
  · intro later final further
    have both := exec_invariant (fun _ _ _ holds taken => (Closing.step holds taken).1) closing further
    have guarded : Along step (fun data _ => data.Closing) data later :=
      Along.of_invariant (fun _ _ _ holds _ taken => (Closing.step holds taken).1) (fun _ _ holds _ => holds) closing
        (Along.of_forall fun _ _ _ => trivial)
    exact ⟨exec_amortized (fun _ _ _ holds taken => (Closing.step holds taken).2) guarded further, both.advances⟩
  · have advances (data : WorkerData Other Runner Fn) (closing : data.Closing)
        (unfinished : data.destructor ≠ .destroyed) : ∃ label next, label.advance = 1 ∧ data.step label = some next ∧
          next.Closing ∧ next.shutdownLeft < data.shutdownLeft := by
      obtain ⟨label, next, goes, taken⟩ := closing.advances unfinished
      obtain ⟨later, pays⟩ := closing.step taken
      have free : label.cost = 0 := by
        cases label with
        | eventloop label => exact Label.cost_of_advance goes
        | run | destroy => rfl
      rw [goes, free] at pays
      exact ⟨label, next, goes, taken, later, pays⟩
    obtain ⟨later, final, goes, short, further, -, finished⟩ := exec_rests advances closing
    exact ⟨later, final, goes, short, further, not_not.mp finished⟩

/-- The worker has just begun to check its timers when its owner destroys it, and 89 statements are left. -/
theorem destructor_returns_here : ∃ data : WorkerData Unit Unit Nat,
    exec step (initial (Machine.initial []).world) ([.run] ++ List.replicate 3 (.eventloop .next) ++
      [.destroy, .destroy]) = some data ∧ data.eventloop.pc.phase = 3 ∧
    ∃ later final, later.length ≤ 89 ∧ exec step data later = some final ∧ final.destructor = .destroyed := by
  have stands : exec Machine.step (Machine.initial [] : Machine Unit Unit Nat) [] =
    some ⟨(Machine.initial []).world, .outside, 0⟩ := rfl
  have ends : (exec step (initial (Machine.initial []).world) ([.run] ++ List.replicate 3 (.eventloop .next) ++
      [.destroy, .destroy] : List (WorkerLabel Unit Unit Nat))).map (fun data =>
        (data.destructor.afterTerminate, data.thread, data.eventloop.pc.phase, data.shutdownLeft)) =
          some (true, true, 3, 89) := by decide
  obtain ⟨data, run, same⟩ := Option.map_eq_some_iff.mp ends
  simp only [Prod.mk.injEq] at same
  obtain ⟨asked, thread, phase, left⟩ := same
  obtain ⟨-, later, final, -, short, further, finished⟩ :=
    destructor_returns (World.prepared_of_run stands) run (by decide) asked thread
  exact ⟨data, run, phase, later, final, left ▸ short, further, finished⟩

end WorkerData

end Dtel
