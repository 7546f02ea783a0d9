import Dtel.Proof.Loop.Queue

namespace Dtel

variable {Other Runner Fn : Type}

/-- A pass calls the runners, drains the queue, waits, and tests the flag. The numbers fall along these phases. -/
def Pc.phase : Pc Other → Nat
  | .entered => 4
  | .runners .. | .looped .. | .checking .. => 3
  | .draining _ | .applying .. | .calling .. | .called .. | .throwing .. | .releasing .. => 2
  | .locking _ | .waiting _ | .test => 1
  | .leaving | .outside => 0

/-- The label is a call of `run`. -/
def Label.starts : Label Other Runner Fn → Bool
  | .run => true
  | _ => false

/-- The label is a call of `terminate`, on the loop thread or on another one. -/
def Label.terminates : Label Other Runner Fn → Bool
  | .script .terminate | .thread .terminate => true
  | _ => false

namespace Machine

variable {machine next middle final : Machine Other Runner Fn} {label : Label Other Runner Fn}
  {after later : List (Label Other Runner Fn)} {bound : Nat}

/-- The flag is set after `run` has reset it, and the pass has come to this phase. -/
structure Stopping (bound : Nat) (machine : Machine Other Runner Fn) : Prop where
  flag : machine.world.terminated = true
  begun : machine.pc ≠ .entered
  phase : machine.pc.phase ≤ bound

theorem notified_phase : machine.notified.pc.phase = machine.pc.phase := by
  unfold notified
  split
  case h_1 timeout point => simp [point, Pc.phase]
  case h_2 => rfl

theorem notified_entered : machine.notified.pc = .entered ↔ machine.pc = .entered := by
  unfold notified
  split
  case h_1 timeout point => simp [point]
  case h_2 => rfl

/-- No step goes back to an earlier phase of the pass, and none starts a new pass. -/
theorem Stopping.step (stopping : machine.Stopping bound) (same : label.starts = false)
    (taken : machine.step label = some next) : next.Stopping bound := by
  obtain ⟨flag, begun, phase⟩ := stopping
  cases step_cases taken with
  | run => cases same
  | enter point => exact absurd point begun
  | pass point unset => rw [flag] at unset; cases unset
  | dispose node timeout now sanity posting point =>
      rw [point] at phase
      refine ⟨?_, by simp, phase⟩
      unfold World.dispose World.release World.postEvent
      split <;> exact flag
  | settle timeout posting success timers point =>
      rw [point] at phase
      cases success with
      | true => exact ⟨flag, by simp, phase⟩
      | false => exact ⟨flag, by simp, phase⟩
  | script call world point performed =>
      refine ⟨?_, begun, phase⟩
      cases perform_cases performed with
      | terminate => rfl
      | _ => exact flag
  | notifyPushed pushed =>
      exact ⟨by simpa using flag, notified_entered.not.mpr begun, notified_phase.trans_le phase⟩
  | notify => exact ⟨by simpa using flag, notified_entered.not.mpr begun, notified_phase.trans_le phase⟩
  | terminate => exact ⟨rfl, begun, phase⟩
  | leaveLoop point | endRunners _ point | check _ _ point | callRunner _ _ _ point | take _ _ _ _ _ _ point
  | takeNone _ _ _ _ point | checked _ _ _ point | call _ _ _ point | callMissing _ _ point | skip _ _ point
  | release _ _ point | drain _ _ _ point | drainEmpty _ point | lock _ point | leave point | pcall _ _ _ point
  | looped _ _ _ point | runnerThrew _ _ point | applied _ _ _ point | applyThrew _ _ point | threw _ _ point
  | rethrew _ _ point | released _ _ _ point | releaseThrew _ _ point | wake _ point =>
      rw [point] at phase
      refine ⟨flag, by simp, le_trans ?_ phase⟩
      simp [Pc.phase]
  | _ => exact ⟨flag, begun, phase⟩

/-- A terminated run stays terminated and goes on from phase to phase. -/
theorem Stopping.run (stopping : machine.Stopping bound) (same : ∀ label ∈ after, label.starts = false)
    (further : Execution.exec Machine.step machine after = some final) : final.Stopping bound := by
  have guarded : Execution.Along Machine.step (fun _ label => label.starts = false) machine after :=
    Execution.Along.of_forall fun label member _ => same label member
  exact Execution.exec_invariant_along (fun _ _ _ holds same taken => Stopping.step holds same taken)
    stopping guarded further

/-- A terminated run that is past its drain loop applies nothing more. -/
theorem Stopping.pops_eq_nil (stopping : machine.Stopping 1) (same : ∀ label ∈ after, label.starts = false)
    (further : Execution.exec Machine.step machine after = some final) : Execution.trace Machine.step pops machine after = [] := by
  have guarded : Execution.Along Machine.step (fun _ label => label.starts = false) machine after :=
    Execution.Along.of_forall fun label member _ => same label member
  rw [Execution.trace_eq_nil further]
  refine Execution.Along.of_invariant (fun _ _ _ holds same taken => Stopping.step holds same taken) ?_
    stopping guarded
  intro machine label stopping _
  have phase := stopping.phase
  cases label with
  | next =>
      cases point : machine.pc with
      | draining timeout => simp [point, Pc.phase] at phase
      | _ => simp [pops, point]
  | _ => rfl

/-- After a call of `terminate`, `run` starts no new pass. When its drain loop has found the queue empty, it
applies no further event. -/
theorem terminate_bounds_work (asked : label.terminates = true) (inside : machine.pc ≠ .entered)
    (taken : machine.step label = some next) (same : ∀ label ∈ after, label.starts = false)
    (further : Execution.exec step next after = some middle) :
    middle.pc.phase ≤ machine.pc.phase ∧
      (middle.pc.phase ≤ 1 → ∀ later final, (∀ label ∈ later, label.starts = false) →
        Execution.exec step middle later = some final →
          final.pc.phase ≤ 1 ∧ Execution.trace step pops middle later = []) := by
  have stopping : next.Stopping machine.pc.phase := by
    cases step_cases taken with
    | script call world point performed =>
        cases perform_cases performed with
        | terminate => exact ⟨rfl, inside, le_rfl⟩
        | _ => cases asked
    | terminate => exact ⟨rfl, inside, le_rfl⟩
    | _ => cases asked
  have reached := stopping.run same further
  refine ⟨reached.phase, fun drained later final same further => ?_⟩
  have stopped : middle.Stopping 1 := ⟨reached.flag, reached.begun, drained⟩
  exact ⟨(stopped.run same further).phase, stopped.pops_eq_nil same further⟩

/-- A script posts an event and `run` applies it. -/
def applyingRun : List (Label Nat Unit Unit) := [.script (.postEvent 1), .run] ++ Label.nexts 16

/-- The event posts another event, and the drain loop pops that one. -/
def feedingRun : List (Label Nat Unit Unit) := [.script (.postEvent 2), .ended none, .ended none, .next]

/-- The drain loop finds the queue empty. -/
def emptiedRun : List (Label Nat Unit Unit) := feedingRun ++ [.ended none, .ended none, .next]

/-- The loop waits and leaves, while another thread posts a third event. -/
def closingRun : List (Label Nat Unit Unit) := [.thread (.push 3), .next, .thread .notifyPushed, .next, .next]

theorem terminate_bounds_work_here : ∃ machine next middle final : Machine Nat Unit Unit,
    Execution.exec step (initial []) applyingRun = some machine ∧
    machine.step (.script .terminate) = some next ∧ Execution.exec step next emptiedRun = some middle ∧
    Execution.exec step middle closingRun = some final ∧ Execution.trace step pops middle closingRun = [] := by
  have runs : ((Execution.exec step (initial []) applyingRun).bind fun machine =>
      (machine.step (.script .terminate)).bind fun next => (Execution.exec step next emptiedRun).bind fun middle =>
        (Execution.exec step middle closingRun).map fun _ => (machine.pc != .entered, middle.pc.phase)) =
          some (true, 1) := by decide
  simp only [Option.bind_eq_some_iff, Option.map_eq_some_iff, Prod.mk.injEq, bne_iff_ne] at runs
  obtain ⟨machine, run, next, taken, middle, further, final, later, inside, phase⟩ := runs
  refine ⟨machine, next, middle, final, run, taken, further, later, ?_⟩
  have bounded := terminate_bounds_work (by rfl) inside taken (by decide) further
  exact (bounded.2 phase.le closingRun final (by decide) later).2

/-- An event that is posted after the call of `terminate` is still applied. -/
theorem terminated_drain_goes_on : ∃ machine next final : Machine Nat Unit Unit,
    Execution.exec step (initial []) applyingRun = some machine ∧ machine.pc.phase = 2 ∧
    machine.step (.script .terminate) = some next ∧ next.world.queue = [] ∧
    Execution.exec step next feedingRun = some final ∧
    Execution.trace step pops next feedingRun = [.other 2] := by
  have runs : ((Execution.exec step (initial []) applyingRun).bind fun machine =>
      (machine.step (.script .terminate)).bind fun next => (Execution.exec step next feedingRun).map fun _ =>
        (machine.pc.phase, next.world.queue, Execution.trace step pops next feedingRun)) =
          some (2, [], [.other 2]) := by decide
  simp only [Option.bind_eq_some_iff, Option.map_eq_some_iff, Prod.mk.injEq] at runs
  obtain ⟨machine, run, next, taken, final, further, phase, queue, popped⟩ := runs
  exact ⟨machine, next, final, run, phase, taken, queue, further, popped⟩

end Machine

end Dtel
