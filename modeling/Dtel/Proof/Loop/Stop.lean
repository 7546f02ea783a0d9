import Dtel.Proof.Loop.Progress
import Dtel.Proof.Loop.Terminate

namespace Dtel

variable {Other Runner Fn : Type}

/-- A terminated run has this many statements and wake-ups left when its loop waits, tests the flag or has ended. -/
def Pc.outer : Pc Other → Option Nat
  | .outside => some 0
  | .leaving => some 1
  | .test => some 2
  | .waiting _ => some 3
  | _ => none

/-- The loop thread executes a statement, the code that it runs ends, or its wait does. -/
def Label.advance : Label Other Runner Fn → Nat
  | .wake => 1
  | label => label.work

theorem Label.cost_of_advance {label : Label Other Runner Fn} (advances : label.advance = 1) : label.cost = 0 := by
  cases label with
  | wake | next | pcall | looped | ended => rfl
  | _ => cases advances

namespace Machine

variable {machine next final : Machine Other Runner Fn} {label : Label Other Runner Fn} {bound rank : Nat}
  {runners : List (Runner × Int)} {before : List (Label Other Runner Fn)}

/-- The statements and wake-ups that a terminated run has left until it returns. -/
def stopLeft (machine : Machine Other Runner Fn) : Nat := machine.pc.outer.getD (machine.workLeft + 3)

theorem stopLeft_le (machine : Machine Other Runner Fn) : machine.stopLeft ≤ machine.workLeft + 3 := by
  unfold stopLeft
  cases point : machine.pc <;> simp [Pc.outer, workLeft, point]

theorem busy_of_inner (inner : machine.pc.outer = none) : machine.pc.busy = true := by
  cases point : machine.pc with
  | outside | waiting => simp [point, Pc.outer] at inner
  | _ => rfl

/-- A notification takes a waiting loop to its test. -/
theorem notified_outer (outer : machine.pc.outer = some rank) :
    ∃ later, machine.notified.pc.outer = some later ∧ later ≤ rank := by
  unfold notified
  split
  case h_1 timeout point =>
      rw [point] at outer
      cases outer
      exact ⟨2, rfl, by omega⟩
  case h_2 => exact ⟨rank, outer, Nat.le_refl _⟩

/-- A terminated loop that waits or tests the flag goes on to the end of `run`. -/
theorem Stopping.outer_step (stopping : machine.Stopping bound) (same : label.starts = false)
    (outer : machine.pc.outer = some rank) (taken : machine.step label = some next) :
    ∃ later, next.pc.outer = some later ∧ later + label.advance ≤ rank := by
  cases step_cases taken with
  | run => cases same
  | pass point unset =>
      rw [stopping.flag] at unset
      cases unset
  | leaveLoop point | leave point | wake _ point =>
      rw [point] at outer
      cases outer
      exact ⟨_, rfl, by simp [Label.advance, Label.work]⟩
  | tick | script | push | postTimeout | cancelEvent | addLoopRunner | terminate =>
      exact ⟨rank, outer, Nat.le_refl _⟩
  | notifyPushed pushed =>
      have before : ({ machine with unnotified := machine.unnotified - 1 } :
        Machine Other Runner Fn).pc.outer = some rank := outer
      exact notified_outer before
  | notify => exact notified_outer outer
  | settle _ _ _ _ point =>
      rw [point] at outer
      cases outer
  | enter point | endRunners _ point | check _ _ point | callRunner _ _ _ point | dispose _ _ _ _ _ point
  | take _ _ _ _ _ _ point | takeNone _ _ _ _ point | checked _ _ _ point | drainEmpty _ point | drain _ _ _ point
  | call _ _ _ point | callMissing _ _ point | skip _ _ point | release _ _ point | lock _ point | pcall _ _ _ point
  | looped _ _ _ point | runnerThrew _ _ point | applied _ _ _ point | applyThrew _ _ point | threw _ _ point
  | rethrew _ _ point | released _ _ _ point | releaseThrew _ _ point =>
      rw [point] at outer
      cases outer

/-- Each step of a terminated run pays for itself, and its wait is paid for too. -/
theorem Stopping.pays (stopping : machine.Stopping bound) (placed : machine.Placed) (same : label.starts = false)
    (taken : machine.step label = some next) : next.stopLeft + label.advance ≤ machine.stopLeft + label.cost := by
  cases outer : machine.pc.outer with
  | some rank =>
      obtain ⟨later, after, less⟩ := stopping.outer_step same outer taken
      simp only [stopLeft, outer, after, Option.getD_some]
      omega
  | none =>
      have busy := busy_of_inner outer
      have paid := placed.pays busy taken
      have least := next.stopLeft_le
      have work : label.advance = label.work := by
        cases label with
        | wake =>
            cases step_cases taken with
            | wake timeout point => simp [point, Pc.outer] at outer
        | _ => rfl
      simp only [work, stopLeft, outer, Option.getD_none] at least ⊢
      omega

/-- A run that has not returned can go on without an exception that leaves it. -/
theorem Ready.returns (ready : machine.Ready) (inside : machine.pc ≠ .outside) :
    ∃ label next, (label.advance = 1 ∧ label ≠ .ended (some false)) ∧ machine.step label = some next := by
  cases busy : machine.pc.busy with
  | true =>
      obtain ⟨label, next, ⟨works, accepted⟩, taken⟩ := ready.placed.advances ready.sound busy
      refine ⟨label, next, ⟨?_, accepted⟩, taken⟩
      cases label with
      | wake => rfl
      | _ => exact works
  | false =>
      cases point : machine.pc with
      | outside => exact absurd point inside
      | waiting timeout =>
          exact ⟨.wake, { machine with pc := .test }, ⟨rfl, by simp⟩, by simp [Machine.step, point]⟩
      | _ => simp [point, Pc.busy] at busy

/-- The call of `terminate` begins a terminated run. -/
theorem stopping_begins (asked : label.terminates = true) (begun : machine.pc ≠ .entered)
    (taken : machine.step label = some next) : next.Stopping machine.pc.phase := by
  cases step_cases taken with
  | script call world point performed =>
      cases perform_cases performed with
      | terminate => exact ⟨rfl, begun, Nat.le_refl _⟩
      | _ => cases asked
  | terminate => exact ⟨rfl, begun, Nat.le_refl _⟩
  | _ => cases asked

/-- When `terminate` is called while `run` is active and past its first statement, `run` returns. The loop thread
executes no more statements than its work, that of the events and runners which are added later, and three more. Until
`run` has returned, the thread has a next statement, or it waits, and the wait ends by itself. -/
theorem terminate_ends_run {label : Label Other Runner Fn}
    (reached : Execution.exec step (initial runners) before = some machine) (asked : label.terminates = true)
    (begun : machine.pc ≠ .entered) (taken : machine.step label = some next) :
    (∀ labels final, (∀ label ∈ labels, label.starts = false) → Execution.exec step next labels = some final →
      final.stopLeft + (labels.map Label.advance).sum ≤ next.stopLeft + (labels.map Label.cost).sum ∧
      (final.pc ≠ .outside → ∃ label after, label.advance = 1 ∧ final.step label = some after)) ∧
    ∃ labels final, (∀ label ∈ labels, label.advance = 1) ∧ labels.length ≤ next.stopLeft ∧
      Execution.exec step next labels = some final ∧ final.pc = .outside := by
  obtain ⟨bound, stopping⟩ : ∃ bound, next.Stopping bound := ⟨_, stopping_begins asked begun taken⟩
  have ready := (reachable_ready reached).step taken
  constructor
  · intro labels final same run
    have starts : Execution.Along step (fun _ label => label.starts = false) next labels :=
      Execution.Along.of_forall fun label member _ => same label member
    have guarded : Execution.Along step (fun machine label =>
        (machine.Stopping bound ∧ machine.Ready) ∧ label.starts = false) next labels :=
      Execution.Along.of_invariant
        (fun _ _ _ holds same taken => ⟨Stopping.step holds.1 same taken, Ready.step holds.2 taken⟩)
        (fun _ _ holds same => ⟨holds, same⟩) ⟨stopping, ready⟩ starts
    have paid := Execution.exec_amortized
      (fun _ _ _ guard taken => Stopping.pays guard.1.1 guard.1.2.placed guard.2 taken) guarded run
    have finalReady := Execution.exec_invariant (fun _ _ _ holds taken => Ready.step holds taken) ready run
    refine ⟨paid, fun inside => ?_⟩
    obtain ⟨label, after, ⟨goes, -⟩, taken⟩ := finalReady.returns inside
    exact ⟨label, after, goes, taken⟩
  · have advances (machine : Machine Other Runner Fn) (holds : machine.Stopping bound ∧ machine.Ready)
        (inside : machine.pc ≠ .outside) : ∃ label next, label.advance = 1 ∧ machine.step label = some next ∧
          (next.Stopping bound ∧ next.Ready) ∧ next.stopLeft < machine.stopLeft := by
      obtain ⟨stopping, ready⟩ := holds
      obtain ⟨label, next, ⟨goes, -⟩, taken⟩ := ready.returns inside
      have same : label.starts = false := by
        cases label with
        | run => cases goes
        | _ => rfl
      have pays := stopping.pays ready.placed same taken
      rw [goes, Label.cost_of_advance goes] at pays
      exact ⟨label, next, goes, taken, ⟨stopping.step same taken, ready.step taken⟩, pays⟩
    obtain ⟨labels, final, goes, short, run, -, rest⟩ := Execution.exec_rests advances ⟨stopping, ready⟩
    exact ⟨labels, final, goes, short, run, not_not.mp rest⟩

/-- A script terminates the loop from the event that it applies, and ten statements at most are left. -/
theorem terminate_ends_run_here : ∃ machine next : Machine Nat Unit Unit,
    Execution.exec step (initial []) applyingRun = some machine ∧ machine.step (.script .terminate) = some next ∧
      ∃ labels final, labels.length ≤ 10 ∧ Execution.exec step next labels = some final ∧ final.pc = .outside := by
  have runs : ((Execution.exec step (initial []) applyingRun).bind fun machine =>
      (machine.step (.script .terminate)).map fun next => (machine.pc != .entered, next.stopLeft)) =
        some (true, 10) := by decide
  simp only [Option.bind_eq_some_iff, Option.map_eq_some_iff, Prod.mk.injEq, bne_iff_ne] at runs
  obtain ⟨machine, reached, next, taken, begun, left⟩ := runs
  obtain ⟨labels, final, -, short, run, ended⟩ := (terminate_ends_run reached (by rfl) begun taken).2
  exact ⟨machine, next, reached, taken, labels, final, left ▸ short, run, ended⟩

end Machine

end Dtel
