import Dtel.Proof.Loop.Progress
import Dtel.Proof.Loop.Terminate

namespace Dtel.Machine

variable {Other Runner Fn : Type} {machine next final : Machine Other Runner Fn} {label : Label Other Runner Fn}
  {runners : List (Runner × Int)} {before labels : List (Label Other Runner Fn)} {events shown : List (Event Other)}

/-- The loop is in its pass over the runners or in its drain loop. -/
def InPass (machine : Machine Other Runner Fn) : Prop := machine.pc.phase = 3 ∨ machine.pc.phase = 2

/-- A pass ends only with an empty queue, or with an exception. -/
theorem InPass.step (inside : machine.InPass) (kept : label ≠ .ended (some false))
    (taken : machine.step label = some next) :
    next.InPass ∨ machine.world.queue = [] ∧ ∃ timeout, next.pc = .locking timeout := by
  unfold InPass at inside ⊢
  cases step_cases taken with
  | drainEmpty timeout point queue => exact Or.inr ⟨queue, timeout, rfl⟩
  | settle timeout posting success timers point settled => cases success <;> exact Or.inl (Or.inr rfl)
  | tick | script | push | postTimeout | cancelEvent | addLoopRunner | terminate => exact Or.inl inside
  | notifyPushed pushed =>
      left
      rw [notified_phase]
      exact inside
  | notify =>
      left
      rw [notified_phase]
      exact inside
  | runnerThrew | applyThrew | rethrew | releaseThrew => exact absurd rfl kept
  | run point | enter point | leaveLoop point | pass point | lock _ point | leave point | wake _ point =>
      simp [point, Pc.phase] at inside
  | _ => exact Or.inl (by simp [Pc.phase])

/-- The pass does not clear the queue. -/
theorem InPass.clearsQueue (inside : machine.InPass) : machine.clearsQueue label = false := by
  unfold InPass at inside
  cases label with
  | next =>
      cases point : machine.pc with
      | leaving => simp [point, Pc.phase] at inside
      | _ => simp [Machine.clearsQueue, point]
  | _ => rfl

/-- The pass has popped these events, or it goes on and they are popped or still queued. -/
def Owes (events : List (Event Other)) (machine : Machine Other Runner Fn) (shown : List (Event Other)) : Prop :=
  events <+: shown ∨ machine.InPass ∧ events <+: shown ++ machine.world.queue

/-- Each step keeps the account of the queued events. -/
theorem Owes.step (owes : Owes events machine shown) (kept : label ≠ .ended (some false))
    (taken : machine.step label = some next) : Owes events next (shown ++ machine.pops label) := by
  rcases owes with popped | ⟨inside, queued⟩
  · exact Or.inl (popped.trans (List.prefix_append _ _))
  · have moved := pops_queue taken inside.clearsQueue
    rcases inside.step kept taken with later | ⟨empty, -⟩
    · right
      refine ⟨later, ?_⟩
      rw [List.append_assoc, moved, ← List.append_assoc]
      exact queued.trans (List.prefix_append _ _)
    · left
      rw [empty, List.append_nil] at queued
      exact queued.trans (List.prefix_append _ _)

theorem Owes.popped (owes : Owes events machine shown) (waits : machine.pc.phase ≤ 1) : events <+: shown := by
  rcases owes with popped | ⟨inside, -⟩
  · exact popped
  · unfold InPass at inside
    omega

/-- The loop thread goes from its lock to its wait, and then it executes nothing. -/
theorem lock_step {timeout : Int} (point : machine.pc = .locking timeout ∨ machine.pc = .waiting timeout)
    (works : label.work = 1) (taken : machine.step label = some next) : next.pc = .waiting timeout := by
  cases label with
  | next =>
      rcases point with point | point
      · simp only [step, nextStep, point, Option.some.injEq] at taken
        rw [← taken]
      · simp [step, nextStep, point] at taken
  | pcall => rcases point with point | point <;> simp [step, point] at taken
  | looped => rcases point with point | point <;> simp [step, point] at taken
  | ended => rcases point with point | point <;> simp [step, endStep, point] at taken
  | _ => cases works

theorem InPass.busy (inside : machine.InPass) : machine.pc.busy = true := by
  unfold InPass at inside
  cases point : machine.pc with
  | outside | waiting => simp [point, Pc.phase] at inside
  | _ => rfl

/-- The loop thread alone goes from the pass to its lock and to its wait. -/
theorem InPass.waits (inside : machine.InPass) (ready : machine.Ready) :
    ∃ labels final timeout, (∀ label ∈ labels, label.work = 1 ∧ label ≠ .ended (some false)) ∧
      labels.length ≤ machine.workLeft ∧ Execution.exec Machine.step machine labels = some final ∧
        final.pc = .waiting timeout := by
  have keeps (machine : Machine Other Runner Fn) (label : Label Other Runner Fn) (next : Machine Other Runner Fn)
      (here : machine.InPass ∨ ∃ timeout, machine.pc = .locking timeout ∨ machine.pc = .waiting timeout)
      (works : label.work = 1 ∧ label ≠ .ended (some false)) (taken : machine.step label = some next) :
      next.InPass ∨ ∃ timeout, next.pc = .locking timeout ∨ next.pc = .waiting timeout := by
    rcases here with inside | ⟨timeout, point⟩
    · exact (inside.step works.2 taken).imp id fun ⟨_, timeout, locks⟩ => ⟨timeout, Or.inl locks⟩
    · exact Or.inr ⟨timeout, Or.inr (lock_step point works.1 taken)⟩
  obtain ⟨labels, final, works, short, run, ended, rest⟩ := ready.rests (Or.inl inside) keeps
  rcases ended with within | ⟨timeout, locks | waits⟩
  · rw [within.busy] at rest
    cases rest
  · rw [locks] at rest
    cases rest
  · exact ⟨labels, final, timeout, works, short, run, waits⟩

/-- A pass applies the events that it finds in the queue, in their order, before the loop waits again, unless an
exception leaves `run`. It comes to its wait when the loop thread has executed the statements that are left. -/
theorem pass_applies_queue (reached : Execution.exec step (initial runners) before = some machine)
    (inside : machine.InPass) :
    (∀ labels final, Execution.exec step machine labels = some final →
      (∀ label ∈ labels, label ≠ .ended (some false)) → final.pc.phase ≤ 1 →
        machine.world.queue <+: Execution.trace step pops machine labels) ∧
    ∃ labels final timeout, (∀ label ∈ labels, label.work = 1 ∧ label ≠ .ended (some false)) ∧
      labels.length ≤ machine.workLeft ∧ Execution.exec step machine labels = some final ∧
        final.pc = .waiting timeout := by
  constructor
  · intro labels final run accepted waits
    have guarded : Execution.Along step (fun _ label => label ≠ .ended (some false)) machine labels :=
      Execution.Along.of_forall fun label member _ => accepted label member
    have start : Owes machine.world.queue machine [] := Or.inr ⟨inside, List.prefix_rfl⟩
    have owes := Execution.trace_invariant_along (fun _ _ _ _ owes kept taken => Owes.step owes kept taken)
      start guarded run
    rw [List.nil_append] at owes
    exact owes.popped waits
  · exact InPass.waits inside (reachable_ready reached)

/-- Two events are queued when the drain loop begins, and the loop waits after fourteen statements at most. -/
theorem pass_applies_queue_here : ∃ machine : Machine Nat Unit Unit,
    Execution.exec step (initial []) ([.script (.postEvent 1), .script (.postEvent 2), .run] ++ Label.nexts 15) =
      some machine ∧ machine.world.queue = [.other 1, .other 2] ∧
    ∃ labels final timeout, labels.length ≤ 14 ∧ Execution.exec step machine labels = some final ∧
      final.pc = .waiting timeout ∧ [.other 1, .other 2] <+: Execution.trace step pops machine labels := by
  have runs : (Execution.exec step (initial []) ([.script (.postEvent 1), .script (.postEvent 2), .run] ++
      Label.nexts 15 : List (Label Nat Unit Unit))).map (fun machine =>
        (machine.world.queue, machine.pc.phase, machine.workLeft)) = some ([.other 1, .other 2], 2, 14) := by decide
  obtain ⟨machine, reached, seen⟩ := Option.map_eq_some_iff.mp runs
  simp only [Prod.mk.injEq] at seen
  obtain ⟨queue, phase, left⟩ := seen
  obtain ⟨applies, labels, final, timeout, works, short, run, waits⟩ := pass_applies_queue reached (Or.inr phase)
  have popped := applies labels final run (fun label member => (works label member).2) (by rw [waits]; simp [Pc.phase])
  rw [queue] at popped
  exact ⟨machine, reached, queue, labels, final, timeout, left ▸ short, run, waits, popped⟩

end Dtel.Machine
