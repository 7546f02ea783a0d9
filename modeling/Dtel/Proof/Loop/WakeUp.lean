import Dtel.Library.Execution
import Dtel.Proof.Loop.Step

namespace Dtel.Machine

variable {Other Runner Fn : Type} {machine next : Machine Other Runner Fn} {label : Label Other Runner Fn}
  {runners : List (Runner × Int)} {labels : List (Label Other Runner Fn)}

/-- A loop that is blocked in `wait_until` with a queued event will be notified by some thread. -/
def Awake (machine : Machine Other Runner Fn) : Prop :=
  ∀ timeout, machine.pc = .waiting timeout → machine.world.queue ≠ [] → 0 < machine.unnotified

/-- Between the test of the queue and the wait, no thread issues the last notification that is due
while an event is queued. -/
def heard (machine : Machine Other Runner Fn) (label : Label Other Runner Fn) : Bool :=
  match machine.pc, label with
  | .locking _, .thread .notifyPushed => machine.world.queue.isEmpty || decide (1 < machine.unnotified)
  | _, _ => true

/-- A loop that has found its queue empty will be notified of each event that has arrived since. -/
def Expectant (machine : Machine Other Runner Fn) : Prop :=
  ∀ timeout, machine.pc = .locking timeout ∨ machine.pc = .waiting timeout →
    machine.world.queue = [] ∨ 0 < machine.unnotified

/-- A notification ends the wait, so only a loop before its wait keeps its point. -/
theorem notified_locking {timeout : Int}
    (point : machine.notified.pc = .locking timeout ∨ machine.notified.pc = .waiting timeout) :
    machine.pc = .locking timeout := by
  unfold notified at point
  split at point
  case h_1 => simp at point
  case h_2 running => exact point.resolve_right (running timeout)

theorem notified_unnotified : machine.notified.unnotified = machine.unnotified := by
  unfold notified
  split <;> rfl

theorem notified_queue : machine.notified.world.queue = machine.world.queue := by
  unfold notified
  split <;> rfl

/-- Each step whose notification is heard keeps the loop expectant. -/
theorem Expectant.step (expectant : machine.Expectant) (hears : machine.heard label = true)
    (taken : machine.step label = some next) : next.Expectant := by
  intro timeout point
  cases step_cases taken with
  | drainEmpty limit before queue => exact Or.inl queue
  | lock limit before => exact expectant limit (Or.inl before)
  | push event unlocked => exact Or.inr (Nat.succ_pos _)
  | script call world before =>
      dsimp only at point
      rcases point with point | point <;> simp [point, Pc.scripting] at before
  | tick | postTimeout | cancelEvent | addLoopRunner | terminate => exact expectant timeout point
  | notifyPushed pushed =>
      have moved : ({ machine with unnotified := machine.unnotified - 1 } : Machine Other Runner Fn).pc =
        .locking timeout := notified_locking point
      have before : machine.pc = .locking timeout := moved
      rw [notified_queue, notified_unnotified]
      simp only [heard, before, Bool.or_eq_true, List.isEmpty_iff, decide_eq_true_eq] at hears
      exact hears.imp id fun others => Nat.sub_pos_of_lt others
  | notify =>
      have before := notified_locking point
      rw [notified_queue, notified_unnotified]
      exact expectant timeout (Or.inl before)
  | settle limit posting success => cases success <;> simp at point
  | _ => simp at point

/-- When each notification is heard, the loop is awake in every state. A notification that is not
heard lets the next statement of the loop sleep on a queued event. -/
theorem queued_event_awaited (run : Execution.exec step (initial runners) labels = some machine) :
    (Execution.Along step (fun machine label => machine.heard label = true) (initial runners) labels →
      machine.Awake) ∧
    ∀ label next, machine.step label = some next → machine.heard label = false →
      ∃ asleep, next.step .next = some asleep ∧ ¬asleep.Awake := by
  constructor
  · intro hears
    have start : (initial runners : Machine Other Runner Fn).Expectant := by
      intro timeout point
      rcases point with point | point <;> cases point
    have expectant := Execution.exec_invariant_along
      (fun _ _ _ holds hears taken => Expectant.step holds hears taken) start hears run
    intro timeout point queued
    exact (expectant timeout (Or.inr point)).resolve_left queued
  · intro label next taken unheard
    unfold heard at unheard
    split at unheard
    case h_2 => cases unheard
    case h_1 timeout point =>
        simp only [Bool.or_eq_false_iff, List.isEmpty_eq_false_iff, decide_eq_false_iff_not, not_lt] at unheard
        obtain ⟨queued, last⟩ := unheard
        cases step_cases taken with
        | notifyPushed pushed =>
            have same : ({ machine with unnotified := machine.unnotified - 1 } : Machine Other Runner Fn).notified =
                { machine with unnotified := machine.unnotified - 1 } := by simp [notified, point]
            rw [same]
            refine ⟨_, by simp [step, nextStep, point]; rfl, ?_⟩
            intro awake
            have due := awake timeout rfl queued
            simp only at due
            omega

/-- Another thread posts and notifies while the loop sleeps, and the loop wakes up. -/
theorem queued_event_awaited_here : ∃ machine : Machine Unit Unit Nat,
    Execution.exec step (initial []) (.run :: Label.nexts 17 ++ [.thread (.push ())]) = some machine ∧
      machine.pc = .waiting 2000000000 ∧ machine.Awake := by
  have ends : ((Execution.exec step (initial []) (.run :: Label.nexts 17 ++ [.thread (.push ())] :
      List (Label Unit Unit Nat))).map fun machine => machine.pc) = some (.waiting 2000000000) := by decide
  obtain ⟨machine, run, point⟩ := Option.map_eq_some_iff.mp ends
  exact ⟨machine, run, point, (queued_event_awaited run).1 (by decide)⟩

/-- Another thread posts and notifies between the test of the queue and the wait. -/
theorem queued_event_missed :
    ¬∀ (labels : List (Label Unit Unit Nat)) (machine : Machine Unit Unit Nat),
      Execution.exec step (initial []) labels = some machine → machine.Awake := by
  intro claim
  have ends : (Execution.exec step (initial []) (.run :: Label.nexts 16 ++
      [.thread (.push ()), .thread .notifyPushed, .next] : List (Label Unit Unit Nat))).map (fun machine =>
        (machine.pc, machine.world.queue, machine.unnotified)) =
      some (.waiting 2000000000, [.other ()], 0) := by decide
  obtain ⟨machine, run, same⟩ := Option.map_eq_some_iff.mp ends
  simp only [Prod.mk.injEq] at same
  obtain ⟨point, queued, unnotified⟩ := same
  have due := claim _ machine run 2000000000 point (by simp [queued])
  omega

end Dtel.Machine
