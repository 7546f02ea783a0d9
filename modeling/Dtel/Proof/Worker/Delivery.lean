import Dtel.Construction.Worker.Channel
import Dtel.Proof.Loop.Queue
import Dtel.Proof.Worker.Shutdown

namespace Dtel

/-- A timer does not dispatch the events of a worker. -/
def Event.applied {Other A : Type} (apply : Other → Option A) : Event Other → Option A
  | .timeout _ => none
  | .other event => apply event

theorem Event.applied_other {Other A : Type} (apply : Other → Option A) (event : Other) :
    [Event.other event].filterMap (Event.applied apply) = (apply event).toList := by
  cases applied : apply event <;> simp [Event.applied, applied]

namespace Machine

variable {Other Runner Fn A : Type} {machine next : Machine Other Runner Fn} {label : Label Other Runner Fn}
  {event : Other}

/-- Besides the timers, a step posts the event of its label. -/
theorem pushes_applied (machine : Machine Other Runner Fn) (label : Label Other Runner Fn) (apply : Other → Option A) :
    (machine.pushes label).filterMap (Event.applied apply) = (label.posted.bind apply).toList := by
  cases label with
  | next =>
      cases point : machine.pc with
      | checking node timeout now sanity posting =>
          cases posting with
          | none => simp [pushes, point, Label.posted]
          | some posting =>
              by_cases removed : (machine.world.timers.object posting.event).removed = true
              · simp [pushes, point, removed, Label.posted]
              · simp [pushes, point, removed, Label.posted, Event.applied]
      | _ => simp [pushes, point, Label.posted]
  | script call =>
      cases call with
      | postEvent event => exact Event.applied_other apply event
      | _ => simp [pushes, Label.posted]
  | thread signal =>
      cases signal with
      | push event => exact Event.applied_other apply event
      | _ => simp [pushes, Label.posted]
  | _ => simp [pushes, Label.posted]

/-- What the drain loop applies and what stays in the queue was in the queue or is the posted event. -/
theorem pops_applied (apply : Other → Option A) (taken : machine.step label = some next)
    (kept : machine.clearsQueue label = false) :
    (machine.pops label).filterMap (Event.applied apply) ++ next.world.queue.filterMap (Event.applied apply) =
      machine.world.queue.filterMap (Event.applied apply) ++ (label.posted.bind apply).toList := by
  rw [← pushes_applied machine, ← List.filterMap_append, pops_queue taken kept, List.filterMap_append]

/-- A call of `postEvent` only appends to the queue. -/
theorem posted_applied (apply : Other → Option A) (taken : machine.step label = some next)
    (posted : label.posted = some event) :
    next.world.queue.filterMap (Event.applied apply) =
      machine.world.queue.filterMap (Event.applied apply) ++ (apply event).toList := by
  have kept : machine.clearsQueue label = false := by cases label <;> first | rfl | cases posted
  have pops : machine.pops label = [] := by cases label <;> first | rfl | cases posted
  simpa [pops, posted] using pops_applied apply taken kept

/-- After the queue is cleared, `run` has returned. -/
theorem clearsQueue_outside (taken : machine.step label = some next) (cleared : machine.clearsQueue label = true) :
    label = .next ∧ next.pc = .outside := by
  cases label with
  | next =>
      cases point : machine.pc with
      | leaving =>
          simp only [Machine.step, nextStep, point, Option.some.injEq] at taken
          exact ⟨rfl, by rw [← taken]⟩
      | _ => simp [clearsQueue, point] at cleared
  | _ => cases cleared

/-- The drain loop pops the front of the queue. -/
theorem pops_prefix (taken : machine.step label = some next) :
    machine.pops label <+: machine.world.queue ++ machine.pushes label := by
  cases cleared : machine.clearsQueue label with
  | false => exact ⟨next.world.queue, pops_queue taken cleared⟩
  | true =>
      obtain ⟨rfl, -⟩ := clearsQueue_outside taken cleared
      cases point : machine.pc with
      | leaving => simp [pops, point]
      | _ => simp [clearsQueue, point] at cleared

end Machine

namespace WorkerData

variable {Other Runner Fn : Type} {data next : WorkerData Other Runner Fn} {label : WorkerLabel Other Runner Fn}
  {popped pushed : List (Event Other)}

/-- The thread of the worker has run its event loop to the end. -/
def ended (data : WorkerData Other Runner Fn) : Prop := data.thread = true ∧ data.eventloop.pc = .outside

/-- The worker's loop pops these events. -/
def pops (data : WorkerData Other Runner Fn) : WorkerLabel Other Runner Fn → List (Event Other)
  | .eventloop label => data.eventloop.pops label
  | .run | .destroy => []

/-- The step posts these events to the worker's loop. -/
def pushes (data : WorkerData Other Runner Fn) : WorkerLabel Other Runner Fn → List (Event Other)
  | .eventloop label => data.eventloop.pushes label
  | .run | .destroy => []

/-- The worker has popped a prefix of the posted events, and its queue holds the others until its thread ends. -/
structure Delivers (data : WorkerData Other Runner Fn) (popped pushed : List (Event Other)) : Prop where
  threaded : data.Threaded
  first : popped <+: pushed
  queued : ¬data.ended → popped ++ data.eventloop.world.queue = pushed

/-- A worker whose thread has ended pops nothing more. -/
theorem ended_step (ended : data.ended) (taken : data.step label = some next) : next.ended ∧ data.pops label = [] := by
  obtain ⟨thread, outside⟩ := ended
  cases label with
  | run =>
      obtain ⟨-, rfl⟩ := run_cases taken
      rw [WorkerData.run, if_pos thread]
      exact ⟨⟨thread, outside⟩, rfl⟩
  | eventloop label =>
      obtain ⟨enabled, eventloop, moved, rfl⟩ := eventloop_cases taken
      refine ⟨⟨thread, outside_step outside enabled moved⟩, ?_⟩
      obtain ⟨elapsed, rfl⟩ | ⟨signal, rfl⟩ := outside_enabled outside enabled <;> rfl
  | destroy =>
      obtain ⟨same, point, -⟩ := destroyStep_frame taken
      exact ⟨⟨same.trans thread, point.trans outside⟩, rfl⟩

/-- Until its thread ends, the worker pops from its queue what was posted. -/
theorem pops_queue (live : ¬next.ended) (taken : data.step label = some next) :
    data.pops label ++ next.eventloop.world.queue = data.eventloop.world.queue ++ data.pushes label := by
  cases label with
  | run =>
      obtain ⟨-, rfl⟩ := run_cases taken
      unfold WorkerData.run
      split <;> simp [pops, pushes]
  | eventloop label =>
      obtain ⟨enabled, eventloop, moved, rfl⟩ := eventloop_cases taken
      cases cleared : data.eventloop.clearsQueue label with
      | false => exact Machine.pops_queue moved cleared
      | true =>
          obtain ⟨rfl, outside⟩ := Machine.clearsQueue_outside moved cleared
          have running : data.running = true := enabled
          have thread : data.thread = true := by
            unfold WorkerData.running at running
            split at running
            case h_1 => cases running
            case h_2 => exact running
          exact absurd ⟨thread, outside⟩ live
  | destroy =>
      obtain ⟨-, -, queue⟩ := destroyStep_frame taken
      simp [pops, pushes, queue]

theorem pops_prefix (taken : data.step label = some next) :
    data.pops label <+: data.eventloop.world.queue ++ data.pushes label := by
  cases label with
  | run => exact List.nil_prefix
  | eventloop label =>
      obtain ⟨-, eventloop, moved, -⟩ := eventloop_cases taken
      exact Machine.pops_prefix moved
  | destroy => exact List.nil_prefix

/-- Each step of the worker keeps the order of its events. -/
theorem Delivers.step (delivers : data.Delivers popped pushed) (taken : data.step label = some next) :
    next.Delivers (popped ++ data.pops label) (pushed ++ data.pushes label) := by
  obtain ⟨threaded, first, queued⟩ := delivers
  by_cases ended : data.ended
  · obtain ⟨still, silent⟩ := ended_step ended taken
    refine ⟨threaded.step taken, ?_, fun live => absurd still live⟩
    rw [silent, List.append_nil]
    exact first.trans (List.prefix_append ..)
  · have same := queued ended
    refine ⟨threaded.step taken, ?_, fun live => ?_⟩
    · rw [← same, List.append_assoc, List.prefix_append_right_inj]
      exact pops_prefix taken
    · rw [List.append_assoc, pops_queue live taken, ← List.append_assoc, same]

end WorkerData

end Dtel
