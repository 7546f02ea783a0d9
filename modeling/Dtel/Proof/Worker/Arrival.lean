import Dtel.Proof.Loop.Drain
import Dtel.Proof.Worker.Channel

namespace Dtel

namespace WorkerData

variable {Other Runner Fn : Type} {data next : WorkerData Other Runner Fn} {label : WorkerLabel Other Runner Fn}
  {events shown : List (Event Other)}

/-- Each step of a worker keeps the account of the events that its loop owes. -/
theorem owes_step (threaded : data.Threaded) (owes : Machine.Owes events data.eventloop shown)
    (taken : data.step label = some next) : Machine.Owes events next.eventloop (shown ++ data.pops label) := by
  have still (same : next.eventloop.pc = data.eventloop.pc) (queue : next.eventloop.world.queue = data.eventloop.world.queue)
      (quiet : data.pops label = []) : Machine.Owes events next.eventloop (shown ++ data.pops label) := by
    unfold Machine.Owes Machine.InPass at owes ⊢
    rwa [same, queue, quiet, List.append_nil]
  cases label with
  | run =>
      obtain ⟨-, rfl⟩ := run_cases taken
      by_cases thread : data.thread = true
      · refine still ?_ ?_ rfl <;> simp [WorkerData.run, thread]
      · have outside := threaded (by simpa using thread)
        rcases owes with popped | ⟨inside, -⟩
        · exact Or.inl (popped.trans (List.prefix_append _ _))
        · simp [Machine.InPass, outside, Pc.phase] at inside
  | eventloop label =>
      obtain ⟨enabled, eventloop, moved, rfl⟩ := eventloop_cases taken
      have kept : label ≠ .ended (some false) := by
        rintro rfl
        cases enabled
      exact owes.step kept moved
  | destroy =>
      obtain ⟨-, point, queue⟩ := destroyStep_frame taken
      exact still point queue rfl

end WorkerData

namespace Channels
open Execution

variable {Value Message Payload Other Runner Fn : Type} {codec : Codec Value Message Payload}
  {channels next final : Channels Message Other Runner Fn} {label : ChannelLabel Value Message Other Runner Fn}
  {before labels : List (ChannelLabel Value Message Other Runner Fn)} {runners : List (Runner × Int)}

/-- The parent's loop pops these events. -/
def pops (channels : Channels Message Other Runner Fn) :
    ChannelLabel Value Message Other Runner Fn → List (Event (ParentEvent Message Other))
  | .parent label => channels.parent.pops label
  | _ => []

/-- The parent's loop dispatches what it pops. -/
theorem trace_dispatches (channels : Channels Message Other Runner Fn)
    (labels : List (ChannelLabel Value Message Other Runner Fn)) :
    trace (step codec) (dispatches codec) channels labels =
      (trace (step codec) pops channels labels).filterMap (Event.applied (ParentEvent.apply codec)) := by
  rw [← trace_filterMap]
  congr
  funext channels label
  cases label <;> rfl

/-- A step leaves the parent's loop alone, or it is one of its steps. Only the label of an exception that leaves `run`
is one. -/
theorem parent_cases (taken : channels.step codec label = some next) :
    next.parent = channels.parent ∧ channels.pops label = [] ∨
      ∃ act, channels.parent.step act = some next.parent ∧ channels.pops label = channels.parent.pops act ∧
        (act = .ended (some false) → label = .parent (.ended (some false))) := by
  cases step_cases taken with
  | parent label parent foreign moved => exact Or.inr ⟨label, moved, rfl, fun same => by rw [same]⟩
  | construct | worker | postMessage => exact Or.inl ⟨rfl, rfl⟩
  | report this what world parent fresh empty moved => exact Or.inr ⟨_, moved, rfl, fun same => nomatch same⟩
  | onProcessException index what worker parent data found posted moved =>
      exact Or.inr ⟨_, posted, rfl, fun same => nomatch same⟩
  | callerPostMessage index value worker parent found moved =>
      refine Or.inr ⟨_, moved, ?_, ?_⟩
      · unfold Channel.postEvent
        split <;> rfl
      · unfold Channel.postEvent
        split <;> exact fun same => nomatch same

/-- What each step of the parent's loop keeps, each step of the channels keeps. -/
theorem parent_run {invariant : Machine (ParentEvent Message Other) Runner Fn → Prop}
    (preserved : ∀ machine act next, invariant machine → machine.step act = some next → invariant next)
    (start : invariant channels.parent) (run : exec (step codec) channels labels = some final) :
    invariant final.parent := by
  have keeps (channels : Channels Message Other Runner Fn) (label : ChannelLabel Value Message Other Runner Fn)
      (next : Channels Message Other Runner Fn) (holds : invariant channels.parent)
      (taken : channels.step codec label = some next) : invariant next.parent := by
    rcases parent_cases taken with ⟨same, -⟩ | ⟨act, moved, -⟩
    · rwa [same]
    · exact preserved _ act _ holds moved
  exact exec_invariant keeps start run

/-- The steps of the parent's thread alone are steps of the channels. -/
theorem parent_exec {acts : List (Label (ParentEvent Message Other) Runner Fn)}
    {parent : Machine (ParentEvent Message Other) Runner Fn}
    (alone : ∀ act ∈ acts, act.work = 1 ∧ act ≠ .ended (some false))
    (run : exec Machine.step channels.parent acts = some parent) :
    exec (step codec) channels (acts.map .parent) = some { channels with parent := parent } := by
  have embeds (machine : Machine (ParentEvent Message Other) Runner Fn) (act : Label (ParentEvent Message Other) Runner Fn)
      (next : Machine (ParentEvent Message Other) Runner Fn) (_ : True)
      (works : act.work = 1 ∧ act ≠ .ended (some false)) (taken : machine.step act = some next) :
      True ∧ ({ channels with parent := machine } : Channels Message Other Runner Fn).step codec (.parent act) =
        some { channels with parent := next } := by
    have foreign : act.posted = none := by
      cases act with
      | next | pcall | looped | ended => rfl
      | _ => cases works.1
    simp [step, stepParent, foreign, taken]
  exact exec_embeds embeds trivial alone run

/-- All that a worker has reported when the parent's loop is in a pass is dispatched on the worker's object, in its
order, before the loop waits again, unless an exception leaves its `run`. The parent's thread alone comes to that wait
after the statements that are left. -/
theorem reports_arrive (reached : exec (step codec) (initial runners) before = some channels)
    (inside : channels.parent.InPass) :
    (∀ labels final, exec (step codec) channels labels = some final →
      (∀ label ∈ labels, label ≠ .parent (.ended (some false))) → final.parent.pc.phase ≤ 1 →
        ∀ index worker, channels.workers[index]? = some worker →
          (producedBy codec (initial runners) before index).map (WorkerReport.map codec.roundTrip) <+:
            dispatchedOn codec (initial runners) before worker.workerref ++
              entriesOf worker.workerref (trace (step codec) (dispatches codec) channels labels)) ∧
    ∃ (acts : List (Label (ParentEvent Message Other) Runner Fn)) (final : Channels Message Other Runner Fn)
      (timeout : Int), (∀ act ∈ acts, act ≠ .ended (some false)) ∧ acts.length ≤ channels.parent.workLeft ∧
        exec (step codec) channels (acts.map .parent) = some final ∧ final.parent.pc = .waiting timeout := by
  constructor
  · intro labels final run accepted waits index worker found
    have guarded : Along (step codec) (fun _ label => label ≠ .parent (.ended (some false))) channels labels :=
      Along.of_forall fun label member _ => accepted label member
    have start : Machine.Owes channels.parent.world.queue channels.parent [] := Or.inr ⟨inside, List.prefix_rfl⟩
    have keeps (middle : Channels Message Other Runner Fn) (label : ChannelLabel Value Message Other Runner Fn)
        (next : Channels Message Other Runner Fn) (shown : List (Event (ParentEvent Message Other)))
        (owes : Machine.Owes channels.parent.world.queue middle.parent shown)
        (kept : label ≠ .parent (.ended (some false))) (taken : middle.step codec label = some next) :
        Machine.Owes channels.parent.world.queue next.parent (shown ++ middle.pops label) := by
      rcases parent_cases taken with ⟨same, quiet⟩ | ⟨act, moved, popped, left⟩
      · rwa [same, quiet, List.append_nil]
      · rw [popped]
        exact owes.step (fun same => kept (left same)) moved
    have owes := trace_invariant_along keeps start guarded run
    have dispatched : channels.waiting codec <+: trace (step codec) (dispatches codec) channels labels := by
      rw [trace_dispatches]
      exact owes.popped waits |>.filterMap _
    obtain ⟨known, order⟩ := run_reported reached
    have entries : _ = (producedBy codec (initial runners) before index).map (WorkerReport.map codec.roundTrip) :=
      delivered_entries (run_distinct reached) known found
    rw [← order, entriesOf_append] at entries
    rw [← entries, dispatchedOn, List.prefix_append_right_inj]
    exact dispatched.filterMap _
  · have start : (Machine.initial runners : Machine (ParentEvent Message Other) Runner Fn).Ready :=
      Machine.reachable_ready (exec_nil _)
    have ready : channels.parent.Ready := parent_run (fun _ _ _ holds moved => Machine.Ready.step holds moved) start reached
    obtain ⟨acts, parent, timeout, alone, short, run, waits⟩ := Machine.InPass.waits inside ready
    exact ⟨acts, { channels with parent := parent }, timeout, fun act member => (alone act member).2, short,
      parent_exec alone run, waits⟩

/-- A worker has posted 5 and the parent's loop begins a pass. -/
def postedRun : List (ChannelLabel Nat Nat Unit Unit Unit) :=
  servingRun none ++ [.callerPostMessage 0 5, .parent .run, .parent .next, .parent .next]

theorem reports_arrive_here : ∃ (channels final : Channels Nat Unit Unit Unit)
    (acts : List (Label (ParentEvent Nat Unit) Unit Unit)) (timeout : Int),
    exec (step doubling) (initial []) postedRun = some channels ∧ acts.length ≤ 91 ∧
      exec (step doubling) channels (acts.map .parent) = some final ∧ final.parent.pc = .waiting timeout ∧
        [.message 5] <+: entriesOf 7 (trace (step doubling) (dispatches doubling) channels (acts.map .parent)) := by
  have runs : ((exec (step doubling) (initial []) postedRun).bind fun channels => channels.workers[0]?.map fun worker =>
      (worker.workerref, channels.parent.pc.phase, channels.parent.workLeft)) = some (7, 3, 91) := by decide +kernel
  simp only [Option.bind_eq_some_iff, Option.map_eq_some_iff, Prod.mk.injEq] at runs
  obtain ⟨channels, reached, worker, found, this, phase, left⟩ := runs
  obtain ⟨arrives, acts, final, timeout, accepted, short, run, waits⟩ := reports_arrive reached (Or.inl phase)
  have kept (label : ChannelLabel Nat Nat Unit Unit Unit) (member : label ∈ acts.map .parent) :
      label ≠ .parent (.ended (some false)) := by
    obtain ⟨act, inside, rfl⟩ := List.mem_map.mp member
    exact fun same => accepted act inside (ChannelLabel.parent.inj same)
  have arrived := arrives _ final run kept (by rw [waits]; simp [Pc.phase]) 0 worker found
  have produced : (producedBy doubling (initial []) postedRun 0).map (WorkerReport.map doubling.roundTrip) =
      [.message 5] := by decide +kernel
  have dispatched : dispatchedOn doubling (initial []) postedRun 7 = [] := by decide +kernel
  rw [this, produced, dispatched, List.nil_append] at arrived
  exact ⟨channels, final, acts, timeout, reached, left ▸ short, run, waits, arrived⟩

/-- The loop of the worker has popped these events since, and it has shown their messages. -/
structure Owing (codec : Codec Value Message Payload) (index : Nat) (events : List (Event (WorkerEvent Message Other)))
    (channels : Channels Message Other Runner Fn) (shown : List (Nat × Payload)) : Prop where
  present : channels.workers[index]?.isSome
  owes : ∀ worker, channels.workers[index]? = some worker → worker.data.Threaded ∧ ∃ popped,
    entriesOf index shown = popped.filterMap (Event.applied (WorkerEvent.apply codec)) ∧
      Machine.Owes events worker.data.eventloop popped

/-- Each step keeps the account of the messages that the loop of a worker owes. -/
theorem Owing.step {index : Nat} {events : List (Event (WorkerEvent Message Other))} {shown : List (Nat × Payload)}
    (owing : channels.Owing codec index events shown) (taken : channels.step codec label = some next) :
    next.Owing codec index events (shown ++ channels.receives codec label) := by
  obtain ⟨present, owes⟩ := owing
  cases step_turn index taken with
  | idle same received sent =>
      refine ⟨same ▸ present, fun worker found => ?_⟩
      rw [entriesOf_append, received, List.append_nil]
      exact owes worker (same ▸ found)
  | move worker data act before after moved received sent =>
      refine ⟨by simp [after], fun other found => ?_⟩
      cases after.symm.trans found
      obtain ⟨threaded, popped, entries, owed⟩ := owes worker before
      refine ⟨threaded.step moved, popped ++ worker.data.pops act, ?_, WorkerData.owes_step threaded owed moved⟩
      rw [entriesOf_append, entries, received, List.filterMap_append]
  | construct this world empty before => simp [before] at present

/-- All that the parent has passed to `postMessage` of a worker when the loop of the worker is in a pass is popped and
applied, in its order, before this loop waits again or has ended. -/
theorem messages_arrive {index : Nat} {worker after : Channel Message Other Runner Fn}
    (reached : exec (step codec) (initial runners) before = some channels)
    (found : channels.workers[index]? = some worker) (inside : worker.data.eventloop.InPass)
    (run : exec (step codec) channels labels = some final) (later : final.workers[index]? = some after)
    (waits : after.data.eventloop.pc.phase ≤ 1) :
    (sentTo codec (initial runners) before index).map codec.roundTrip <+:
      receivedBy codec (initial runners) before index ++
        entriesOf index (trace (step codec) (receives codec) channels labels) := by
  obtain ⟨popped, pushed, delivers, received, sent⟩ := (run_received reached index).constructed worker found
  have live : ¬worker.data.ended := by
    rintro ⟨-, outside⟩
    simp [Machine.InPass, outside, Pc.phase] at inside
  have start : channels.Owing codec index worker.data.eventloop.world.queue [] := by
    refine ⟨by simp [found], fun other same => ?_⟩
    cases found.symm.trans same
    exact ⟨delivers.threaded, [], rfl, Or.inr ⟨inside, List.prefix_rfl⟩⟩
  have owing := trace_invariant (fun _ _ _ _ holds taken => Owing.step holds taken) start run
  rw [List.nil_append] at owing
  obtain ⟨-, new, entries, owes⟩ := owing.owes after later
  rw [sentTo, receivedBy, received, sent, entries, ← delivers.queued live, List.filterMap_append,
    List.prefix_append_right_inj]
  exact (owes.popped waits).filterMap _

/-- The parent has posted 1, and the worker's loop begins to drain its queue. -/
def postingRun : List (ChannelLabel Nat Nat Unit Unit Unit) :=
  [.construct 7 none World.initial, .postMessage 0 1, .worker 0 .run] ++ List.replicate 3 (.worker 0 (.eventloop .next))

/-- The worker handles the message and finds its queue empty. -/
def handlingRun : List (ChannelLabel Nat Nat Unit Unit Unit) :=
  [.worker 0 (.eventloop .next), .worker 0 (.eventloop (.ended none)), .worker 0 (.eventloop (.ended none)),
    .worker 0 (.eventloop .next)]

theorem messages_arrive_here : ∃ channels final : Channels Nat Unit Unit Unit,
    exec (step doubling) (initial []) postingRun = some channels ∧
    exec (step doubling) channels handlingRun = some final ∧
    [1] <+: entriesOf 0 (trace (step doubling) (receives doubling) channels handlingRun) := by
  have runs : ((exec (step doubling) (initial []) postingRun).bind fun channels => channels.workers[0]?.bind fun worker =>
      (exec (step doubling) channels handlingRun).bind fun final => final.workers[0]?.map fun after =>
        (worker.data.eventloop.pc.phase, after.data.eventloop.pc.phase)) = some (2, 1) := by decide +kernel
  simp only [Option.bind_eq_some_iff, Option.map_eq_some_iff, Prod.mk.injEq] at runs
  obtain ⟨channels, reached, worker, found, final, run, after, later, inside, waits⟩ := runs
  have arrived := messages_arrive reached found (Or.inr inside) run later waits.le
  have sent : (sentTo doubling (initial []) postingRun 0).map doubling.roundTrip = [1] := by decide +kernel
  have received : receivedBy doubling (initial []) postingRun 0 = [] := by decide +kernel
  rw [sent, received, List.nil_append] at arrived
  exact ⟨channels, final, reached, run, arrived⟩

end Channels

end Dtel
