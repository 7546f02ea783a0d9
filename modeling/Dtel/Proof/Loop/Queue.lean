import Dtel.Library.Execution
import Dtel.Proof.Timer.Refinement

namespace Dtel.Machine

variable {Other Runner Fn : Type} {machine next : Machine Other Runner Fn} {label : Label Other Runner Fn}
  {runners : List (Runner × Int)} {labels : List (Label Other Runner Fn)}

/-- The step posts these events to the loop. -/
def pushes (machine : Machine Other Runner Fn) : Label Other Runner Fn → List (Event Other)
  | .next =>
      match machine.pc with
      | .checking _ _ _ _ (some posting) =>
          if (machine.world.timers.object posting.event).removed then [] else [.timeout posting]
      | _ => []
  | .script (.postEvent event) | .thread (.push event) => [.other event]
  | _ => []

/-- The drain loop pops this event, which it applies next. -/
def pops (machine : Machine Other Runner Fn) : Label Other Runner Fn → List (Event Other)
  | .next =>
      match machine.pc with
      | .draining _ => machine.world.queue.head?.toList
      | _ => []
  | _ => []

/-- The step is the final `_events.clear()` of `run`. -/
def clearsQueue (machine : Machine Other Runner Fn) : Label Other Runner Fn → Bool
  | .next =>
      match machine.pc with
      | .leaving => true
      | _ => false
  | _ => false

/-- What the drain loop pops and what stays in the queue was in the queue or is posted by the step. -/
theorem pops_queue (taken : machine.step label = some next) (kept : machine.clearsQueue label = false) :
    machine.pops label ++ next.world.queue = machine.world.queue ++ machine.pushes label := by
  cases step_cases taken with
  | dispose node timeout now sanity posting point =>
      by_cases removed : (machine.world.timers.object posting.event).removed = true
      · simp [pops, pushes, point, World.dispose, World.release, removed]
      · simp [pops, pushes, point, World.dispose, World.postEvent, removed]
  | drain timeout event rest point queue | drainEmpty timeout point queue => simp [pops, pushes, point, queue]
  | leave point => simp [clearsQueue, point] at kept
  | script call world point performed =>
      cases perform_cases performed <;> simp [pops, pushes, World.postEvent, World.addLoopRunner, World.terminate]
  | push event => simp [pops, pushes, World.postEvent]
  | run point | enter point | leaveLoop point | pass point | endRunners _ point | check _ _ point
  | callRunner _ _ _ point | take _ _ _ _ _ _ point | takeNone _ _ _ _ point | checked _ _ _ point
  | call _ _ _ point | callMissing _ _ point | skip _ _ point | settle _ _ _ _ point | release _ _ point
  | lock _ point => simp [pops, pushes, point, World.release]
  | _ => simp [pops, pushes, World.addLoopRunner, World.terminate]

/-- After `clear` the queue is empty. -/
theorem clearsQueue_eq_nil (taken : machine.step label = some next) (cleared : machine.clearsQueue label = true) :
    next.world.queue = [] := by
  cases step_cases taken with
  | leave => rfl
  | run point | enter point | leaveLoop point | pass point | endRunners _ point | check _ _ point
  | callRunner _ _ _ point | dispose _ _ _ _ _ point | take _ _ _ _ _ _ point | takeNone _ _ _ _ point
  | checked _ _ _ point | call _ _ _ point | callMissing _ _ point | skip _ _ point | settle _ _ _ _ point
  | release _ _ point | drain _ _ _ point | drainEmpty _ point | lock _ point => simp [clearsQueue, point] at cleared
  | _ => simp [clearsQueue] at cleared

/-- A popped event is the one that the loop applies next. -/
theorem pops_applying {event : Event Other} (taken : machine.step label = some next)
    (popped : machine.pops label = [event]) : ∃ timeout, next.pc = .applying timeout event := by
  cases step_cases taken with
  | drain timeout first rest point queue =>
      simp only [pops, point, queue, List.head?_cons, Option.toList_some, List.cons.injEq, and_true] at popped
      exact ⟨timeout, by rw [popped]⟩
  | drainEmpty timeout point queue => simp [pops, point, queue] at popped
  | run point | enter point | leaveLoop point | pass point | endRunners _ point | check _ _ point
  | callRunner _ _ _ point | dispose _ _ _ _ _ point | take _ _ _ _ _ _ point | takeNone _ _ _ _ point
  | checked _ _ _ point | call _ _ _ point | callMissing _ _ point | skip _ _ point | settle _ _ _ _ point
  | release _ _ point | lock _ point | leave point => simp [pops, point] at popped
  | _ => simp [pops] at popped

/-- Since the last `clear`, the popped events and the queue are the posted events in their order. The
loop applies each event that it pops. -/
theorem queue_first_in_first_out (run : Execution.exec step (initial runners) labels = some machine) :
    Execution.since step clearsQueue pops (initial runners) labels [] ++ machine.world.queue =
        Execution.since step clearsQueue pushes (initial runners) labels [] ∧
      ∀ label next event, machine.step label = some next → machine.pops label = [event] →
        ∃ timeout, next.pc = .applying timeout event := by
  refine ⟨?_, fun label next event taken popped => pops_applying taken popped⟩
  have start : [] ++ (initial runners : Machine Other Runner Fn).world.queue = [] :=
    (initial_world runners : (initial runners : Machine Other Runner Fn).world.queue = [] ∧ _).1
  refine Execution.since_invariant (fun machine popped pushed => popped ++ machine.world.queue = pushed)
    (fun state label next taken cleared => clearsQueue_eq_nil taken cleared) ?_ start run
  intro state label next popped pushed same taken kept
  rw [List.append_assoc, pops_queue taken kept, ← List.append_assoc, same]

/-- A script posts an event, whose `apply` posts another one and throws out of `run`. -/
def rethrownRun : List (Label Nat Unit Unit) :=
  [.script (.postEvent 1), .run] ++ Label.nexts 16 ++ [.script (.postEvent 2), .ended (some false), .run]

theorem queue_first_in_first_out_here : ∃ machine : Machine Nat Unit Unit,
    Execution.exec step (initial []) rethrownRun = some machine ∧
    Execution.since step clearsQueue pops (initial []) rethrownRun [] ++ machine.world.queue = [.other 1, .other 2] := by
  have runs : (Execution.exec step (initial []) rethrownRun).isSome := by decide
  obtain ⟨machine, run⟩ := Option.isSome_iff_exists.mp runs
  refine ⟨machine, run, ?_⟩
  rw [(queue_first_in_first_out run).1]
  decide

end Dtel.Machine
