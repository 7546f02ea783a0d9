import Dtel.Proof.Worker.Delivery

namespace Dtel

theorem Channel.posted_postEvent {Message Other Runner Fn : Type} (worker : Channel Message Other Runner Fn)
    (event : ParentEvent Message Other) : (worker.postEvent event).posted = some event := by
  unfold Channel.postEvent
  split <;> rfl

namespace Channels
open Execution

variable {Value Message Payload Other Runner Fn : Type} {codec : Codec Value Message Payload}
  {channels next : Channels Message Other Runner Fn} {label : ChannelLabel Value Message Other Runner Fn}
  {labels : List (ChannelLabel Value Message Other Runner Fn)} {runners : List (Runner × Int)}

/-- The objects of the workers, in the order of their construction. -/
def workerrefs (channels : Channels Message Other Runner Fn) : List Nat := channels.workers.map Channel.workerref

/-- This relation lists everything that one step can do to the channels. -/
inductive Step (codec : Codec Value Message Payload) :
    Channels Message Other Runner Fn → ChannelLabel Value Message Other Runner Fn →
      Channels Message Other Runner Fn → Prop where
  | parent (channels : Channels Message Other Runner Fn) (label : Label (ParentEvent Message Other) Runner Fn)
      (parent : Machine (ParentEvent Message Other) Runner Fn)
      (foreign : label.posted.any ParentEvent.ofWorker = false) (moved : channels.parent.step label = some parent) :
      Step codec channels (.parent label) { channels with parent := parent }
  | construct (channels : Channels Message Other Runner Fn) (this : Nat)
      (world : World (WorkerEvent Message Other) Runner Fn) (fresh : this ∉ channels.workerrefs)
      (empty : world.queue = []) :
      Step codec channels (.construct this none world)
        { channels with workers := channels.workers ++ [⟨.initial world, this⟩] }
  | report (channels : Channels Message Other Runner Fn) (this : Nat) (what : String)
      (world : World (WorkerEvent Message Other) Runner Fn) (parent : Machine (ParentEvent Message Other) Runner Fn)
      (fresh : this ∉ channels.workerrefs) (empty : world.queue = [])
      (moved : channels.parent.step (.script (.postEvent (.errorEvent this what))) = some parent) :
      Step codec channels (.construct this (some what) world)
        ⟨parent, channels.workers ++ [⟨.initial world, this⟩]⟩
  | worker (channels : Channels Message Other Runner Fn) (index : Nat)
      (label : WorkerLabel (WorkerEvent Message Other) Runner Fn) (worker : Channel Message Other Runner Fn)
      (data : WorkerData (WorkerEvent Message Other) Runner Fn) (silent : label.silent = true)
      (found : channels.workers[index]? = some worker) (moved : worker.data.step label = some data) :
      Step codec channels (.worker index label)
        { channels with workers := channels.workers.set index { worker with data := data } }
  | postMessage (channels : Channels Message Other Runner Fn) (index : Nat) (value : Value)
      (worker : Channel Message Other Runner Fn) (data : WorkerData (WorkerEvent Message Other) Runner Fn)
      (found : channels.workers[index]? = some worker)
      (moved : worker.data.step
        (.eventloop (.thread (.push (.workerPostMessageEvent (codec.encode value))))) = some data) :
      Step codec channels (.postMessage index value)
        { channels with workers := channels.workers.set index { worker with data := data } }
  | callerPostMessage (channels : Channels Message Other Runner Fn) (index : Nat) (value : Value)
      (worker : Channel Message Other Runner Fn) (parent : Machine (ParentEvent Message Other) Runner Fn)
      (found : channels.workers[index]? = some worker)
      (moved : channels.parent.step
        (worker.postEvent (.postMessageEvent worker.workerref (codec.encode value))) = some parent) :
      Step codec channels (.callerPostMessage index value) { channels with parent := parent }
  | onProcessException (channels : Channels Message Other Runner Fn) (index : Nat) (what : String)
      (worker : Channel Message Other Runner Fn) (parent : Machine (ParentEvent Message Other) Runner Fn)
      (data : WorkerData (WorkerEvent Message Other) Runner Fn) (found : channels.workers[index]? = some worker)
      (posted : channels.parent.step (.thread (.push (.errorEvent worker.workerref what))) = some parent)
      (moved : worker.data.step (.eventloop (.ended (some true))) = some data) :
      Step codec channels (.onProcessException index what)
        ⟨parent, channels.workers.set index { worker with data := data }⟩

theorem stepParent_cases {label : Label (ParentEvent Message Other) Runner Fn}
    (taken : channels.stepParent label = some next) :
    ∃ parent, channels.parent.step label = some parent ∧ next = { channels with parent := parent } := by
  obtain ⟨parent, moved, rfl⟩ := Option.map_eq_some_iff.mp taken
  exact ⟨parent, moved, rfl⟩

theorem stepWorker_cases {index : Nat} {label : WorkerLabel (WorkerEvent Message Other) Runner Fn}
    (taken : channels.stepWorker index label = some next) :
    ∃ worker data, channels.workers[index]? = some worker ∧ worker.data.step label = some data ∧
      next = { channels with workers := channels.workers.set index { worker with data := data } } := by
  unfold stepWorker at taken
  split at taken
  case h_1 worker found =>
      obtain ⟨data, moved, rfl⟩ := Option.map_eq_some_iff.mp taken
      exact ⟨worker, data, found, moved, rfl⟩
  case h_2 => cases taken

/-- Each step is a listed step. -/
theorem step_cases (taken : channels.step codec label = some next) : Step codec channels label next := by
  cases label with
  | parent label =>
      simp only [step, Option.ite_none_left_eq_some, Bool.not_eq_true] at taken
      obtain ⟨foreign, taken⟩ := taken
      obtain ⟨parent, moved, rfl⟩ := stepParent_cases taken
      exact .parent channels label parent foreign moved
  | construct this error world =>
      simp only [step, Option.ite_none_right_eq_some] at taken
      obtain ⟨⟨-, fresh, empty⟩, taken⟩ := taken
      have empty : world.queue = [] := List.isEmpty_iff.mp empty
      cases error with
      | none =>
          cases taken
          exact .construct channels this world fresh empty
      | some what =>
          obtain ⟨parent, moved, rfl⟩ := stepParent_cases taken
          exact .report channels this what world parent fresh empty moved
  | worker index label =>
      simp only [step, Option.ite_none_right_eq_some] at taken
      obtain ⟨silent, taken⟩ := taken
      obtain ⟨worker, data, found, moved, rfl⟩ := stepWorker_cases taken
      exact .worker channels index label worker data silent found moved
  | postMessage index value =>
      simp only [step, Option.ite_none_right_eq_some] at taken
      obtain ⟨-, taken⟩ := taken
      obtain ⟨worker, data, found, moved, rfl⟩ := stepWorker_cases taken
      exact .postMessage channels index value worker data found moved
  | callerPostMessage index value =>
      simp only [step, callerPostMessage] at taken
      split at taken
      case h_1 worker found =>
          simp only [Option.ite_none_right_eq_some] at taken
          obtain ⟨-, taken⟩ := taken
          obtain ⟨parent, moved, rfl⟩ := stepParent_cases taken
          exact .callerPostMessage channels index value worker parent found moved
      case h_2 => cases taken
  | onProcessException index what =>
      simp only [step, onProcessException] at taken
      split at taken
      case h_1 worker found =>
          simp only [Option.ite_none_right_eq_some, Option.bind_eq_some_iff] at taken
          obtain ⟨-, middle, reported, taken⟩ := taken
          obtain ⟨parent, posted, rfl⟩ := stepParent_cases reported
          obtain ⟨other, data, same, moved, rfl⟩ := stepWorker_cases taken
          cases found.symm.trans same
          exact .onProcessException channels index what worker parent data found posted moved
      case h_2 => cases taken

/-- The step is the final `_events.clear()` of the parent's `run`. -/
def clears (channels : Channels Message Other Runner Fn) : ChannelLabel Value Message Other Runner Fn → Bool
  | .parent label => channels.parent.clearsQueue label
  | _ => false

/-- The parent's loop starts to apply these events, each on the object of its worker. -/
def dispatches (codec : Codec Value Message Payload) (channels : Channels Message Other Runner Fn) :
    ChannelLabel Value Message Other Runner Fn → List (Nat × WorkerReport Payload)
  | .parent label => (channels.parent.pops label).filterMap (Event.applied (ParentEvent.apply codec))
  | _ => []

/-- A worker with this index reports the error of its `init`, a value for its `postMessage`, or an exception. -/
def produces (channels : Channels Message Other Runner Fn) :
    ChannelLabel Value Message Other Runner Fn → List (Nat × WorkerReport Value)
  | .construct _ (some what) _ => [(channels.workers.length, .error what)]
  | .callerPostMessage index value => [(index, .message value)]
  | .onProcessException index what => [(index, .error what)]
  | _ => []

/-- The loop of a worker starts to apply these messages on its global object. -/
def receives (codec : Codec Value Message Payload) (channels : Channels Message Other Runner Fn) :
    ChannelLabel Value Message Other Runner Fn → List (Nat × Payload)
  | .worker index label =>
      (channels.workers[index]?.toList.flatMap fun worker =>
        (worker.data.pops label).filterMap (Event.applied (WorkerEvent.apply codec))).map fun data => (index, data)
  | _ => []

/-- The parent passes a value to `postMessage` of a worker. -/
def sends (_ : Channels Message Other Runner Fn) : ChannelLabel Value Message Other Runner Fn → List (Nat × Value)
  | .postMessage index value => [(index, value)]
  | _ => []

/-- These events of workers wait in the parent's queue. -/
def waiting (codec : Codec Value Message Payload) (channels : Channels Message Other Runner Fn) :
    List (Nat × WorkerReport Payload) :=
  channels.parent.world.queue.filterMap (Event.applied (ParentEvent.apply codec))

/-- A report of a worker becomes an event on the worker's object. -/
def delivered (codec : Codec Value Message Payload) (channels : Channels Message Other Runner Fn)
    (entry : Nat × WorkerReport Value) : Nat × WorkerReport Payload :=
  (channels.workerrefs.getD entry.1 0, entry.2.map codec.roundTrip)

/-- The step constructs a worker on this object. -/
def constructs : ChannelLabel Value Message Other Runner Fn → List Nat
  | .construct this _ _ => [this]
  | _ => []

/-- What an encoded value is dispatched as. -/
theorem apply_postMessageEvent (ref : Nat) (value : Value) :
    (ParentEvent.postMessageEvent ref (codec.encode value) : ParentEvent Message Other).apply codec =
      some (ref, .message (codec.roundTrip value)) := by
  simp [ParentEvent.apply, Codec.roundTrip]

theorem apply_foreign {event : ParentEvent Message Other} (foreign : event.ofWorker = false) :
    event.apply codec = none := by
  cases event with
  | other event => rfl
  | postMessageEvent ref message => cases foreign
  | errorEvent ref message => cases foreign

/-- A step of a worker keeps its object. -/
theorem set_workerrefs {index : Nat} {worker : Channel Message Other Runner Fn}
    (data : WorkerData (WorkerEvent Message Other) Runner Fn) (found : channels.workers[index]? = some worker) :
    (channels.workers.set index { worker with data := data }).map Channel.workerref = channels.workerrefs := by
  apply List.ext_getElem?
  intro other
  rw [workerrefs, List.getElem?_map, List.getElem?_map]
  by_cases same : other = index
  · rw [same, List.getElem?_set_self', found]
    rfl
  · rw [List.getElem?_set_ne (Ne.symm same)]

/-- Only a construction adds an object, which belongs to no other worker. -/
theorem workerrefs_step (taken : channels.step codec label = some next) :
    next.workerrefs = channels.workerrefs ++ constructs label ∧ ∀ this ∈ constructs label, this ∉ channels.workerrefs := by
  cases step_cases taken with
  | construct this world fresh | report this what world parent fresh =>
      refine ⟨by simp [workerrefs, constructs], fun other member => ?_⟩
      cases List.mem_singleton.mp member
      exact fresh
  | worker index label worker data silent found | postMessage index value worker data found
  | onProcessException index what worker parent data found =>
      exact ⟨(set_workerrefs data found).trans (List.append_nil _).symm, by simp [constructs]⟩
  | parent | callerPostMessage => exact ⟨by simp [workerrefs, constructs], by simp [constructs]⟩

/-- Different workers have different objects. -/
def Distinct (channels : Channels Message Other Runner Fn) : Prop := channels.workerrefs.Nodup

theorem Distinct.step (distinct : channels.Distinct) (taken : channels.step codec label = some next) :
    next.Distinct := by
  obtain ⟨added, fresh⟩ := workerrefs_step taken
  rw [Distinct, added]
  refine List.Nodup.append distinct ?_ (List.disjoint_right.mpr fresh)
  cases label <;> simp [constructs]

theorem run_distinct (run : exec (step codec) (initial runners) labels = some channels) : channels.Distinct := by
  have start : (initial runners : Channels Message Other Runner Fn).Distinct := List.nodup_nil
  exact exec_invariant (fun _ _ _ holds taken => Distinct.step holds taken) start run

/-- The log names only constructed workers. -/
def Known (channels : Channels Message Other Runner Fn) (log : List (Nat × WorkerReport Value)) : Prop :=
  ∀ entry ∈ log, entry.1 < channels.workers.length

/-- A constructed worker keeps its index, and only a constructed worker reports. -/
theorem Known.step {log : List (Nat × WorkerReport Value)} (known : channels.Known log)
    (taken : channels.step codec label = some next) : next.Known (log ++ channels.produces label) := by
  have grows : channels.workers.length ≤ next.workers.length := by
    have added := congrArg List.length (workerrefs_step taken).1
    simp only [workerrefs, List.length_map, List.length_append] at added
    omega
  intro entry member
  rcases List.mem_append.mp member with before | now
  · exact (known entry before).trans_le grows
  · cases step_cases taken with
    | report this what world parent =>
        cases List.mem_singleton.mp now
        simp
    | callerPostMessage index value worker parent found =>
        cases List.mem_singleton.mp now
        exact (List.getElem?_eq_some_iff.mp found).1
    | onProcessException index what worker parent data found =>
        cases List.mem_singleton.mp now
        simpa using (List.getElem?_eq_some_iff.mp found).1
    | parent | construct | worker | postMessage => cases now

/-- Nothing reports under the index of a worker before its construction. -/
theorem run_known (run : exec (step codec) (initial runners) labels = some channels) :
    channels.Known (trace (step codec) produces (initial runners) labels) := by
  have start : (initial runners : Channels Message Other Runner Fn).Known ([] : List (Nat × WorkerReport Value)) :=
    List.forall_mem_nil _
  exact trace_invariant (fun _ _ _ _ holds taken => Known.step holds taken) start run

/-- The constructed workers keep their objects. -/
theorem delivered_step {entry : Nat × WorkerReport Value} (known : entry.1 < channels.workers.length)
    (taken : channels.step codec label = some next) : next.delivered codec entry = channels.delivered codec entry := by
  have inside : entry.1 < channels.workerrefs.length := by simpa [workerrefs] using known
  simp only [delivered, (workerrefs_step taken).1, List.getD_eq_getElem?_getD, List.getElem?_append_left inside]

/-- A report is delivered on the object of its worker. -/
theorem delivered_found {index : Nat} {worker : Channel Message Other Runner Fn} (report : WorkerReport Value)
    (found : channels.workers[index]? = some worker) :
    channels.delivered codec (index, report) = (worker.workerref, report.map codec.roundTrip) := by
  simp [delivered, workerrefs, found]

/-- A posted report waits behind the others. -/
theorem report_waiting {event : ParentEvent Message Other} {entry : Nat × WorkerReport Payload}
    {label : Label (ParentEvent Message Other) Runner Fn} {parent : Machine (ParentEvent Message Other) Runner Fn}
    (moved : channels.parent.step label = some parent) (posted : label.posted = some event)
    (applied : event.apply codec = some entry) :
    parent.world.queue.filterMap (Event.applied (ParentEvent.apply codec)) = channels.waiting codec ++ [entry] := by
  have appended := Machine.posted_applied (ParentEvent.apply codec) moved posted
  rw [applied] at appended
  exact appended

/-- The parent's loop applies the events that wait and the event of the report. -/
theorem waiting_step (taken : channels.step codec label = some next) (kept : channels.clears label = false) :
    channels.dispatches codec label ++ next.waiting codec =
      channels.waiting codec ++ (channels.produces label).map (next.delivered codec) := by
  cases step_cases taken with
  | parent label parent foreign moved =>
      have silent : label.posted.bind (ParentEvent.apply codec) = none := by
        cases posted : label.posted with
        | none => rfl
        | some event =>
            rw [posted] at foreign
            exact apply_foreign foreign
      have applied := Machine.pops_applied (ParentEvent.apply codec) moved kept
      rw [silent] at applied
      exact applied
  | construct this world | worker index label worker data | postMessage index value worker data =>
      simp [dispatches, waiting, produces]
  | report this what world parent fresh empty moved =>
      have last : (channels.workers ++ [⟨.initial world, this⟩])[channels.workers.length]? =
          some ⟨.initial world, this⟩ := List.getElem?_concat_length
      rw [produces, List.map_singleton, delivered_found (.error what) last]
      exact report_waiting moved rfl rfl
  | callerPostMessage index value worker parent found moved =>
      have kept : ({ channels with parent := parent } : Channels Message Other Runner Fn).workers[index]? = some worker :=
        found
      rw [produces, List.map_singleton, delivered_found (.message value) kept]
      exact report_waiting moved (worker.posted_postEvent _) (apply_postMessageEvent worker.workerref value)
  | onProcessException index what worker parent data found posted moved =>
      have kept : (channels.workers.set index { worker with data := data })[index]? =
          some { worker with data := data } := by
        rw [List.getElem?_set_self', found]
        rfl
      rw [produces, List.map_singleton, delivered_found (.error what) kept]
      exact report_waiting posted rfl rfl

/-- Since the last `clear`, what is dispatched and what waits is what the workers have reported. -/
structure Reported (codec : Codec Value Message Payload) (channels : Channels Message Other Runner Fn)
    (dispatched : List (Nat × WorkerReport Payload)) (produced : List (Nat × WorkerReport Value)) : Prop where
  known : channels.Known produced
  order : dispatched ++ channels.waiting codec = produced.map (channels.delivered codec)

theorem Reported.step {dispatched : List (Nat × WorkerReport Payload)} {produced : List (Nat × WorkerReport Value)}
    (reported : channels.Reported codec dispatched produced) (taken : channels.step codec label = some next)
    (kept : channels.clears label = false) :
    next.Reported codec (dispatched ++ channels.dispatches codec label) (produced ++ channels.produces label) := by
  refine ⟨reported.known.step taken, ?_⟩
  have same : produced.map (next.delivered codec) = produced.map (channels.delivered codec) :=
    List.map_congr_left fun entry member => delivered_step (reported.known entry member) taken
  rw [List.append_assoc, waiting_step taken kept, ← List.append_assoc, reported.order, List.map_append, same]

theorem Reported.clear (taken : channels.step codec label = some next) (cleared : channels.clears label = true) :
    next.Reported codec [] ([] : List (Nat × WorkerReport Value)) := by
  refine ⟨List.forall_mem_nil _, ?_⟩
  cases step_cases taken with
  | parent label parent foreign moved => simp [waiting, Machine.clearsQueue_eq_nil moved cleared]
  | _ => cases cleared

/-- These events were dispatched on an object since the last `_events.clear()` of the parent's loop. -/
def dispatchedOn (codec : Codec Value Message Payload) (start : Channels Message Other Runner Fn)
    (labels : List (ChannelLabel Value Message Other Runner Fn)) (this : Nat) : List (WorkerReport Payload) :=
  entriesOf this (since (step codec) clears (dispatches codec) start labels [])

/-- The reports of a worker since the last `_events.clear()` of the parent's loop. -/
def producedBy (codec : Codec Value Message Payload) (start : Channels Message Other Runner Fn)
    (labels : List (ChannelLabel Value Message Other Runner Fn)) (index : Nat) : List (WorkerReport Value) :=
  entriesOf index (since (step codec) clears produces start labels [])

theorem run_reported (run : exec (step codec) (initial runners) labels = some channels) :
    channels.Reported codec (since (step codec) clears (dispatches codec) (initial runners) labels [])
      (since (step codec) clears produces (initial runners) labels []) := by
  have queue : (Machine.initial runners : Machine (ParentEvent Message Other) Runner Fn).world.queue = [] :=
    (Machine.initial_world runners :
      (Machine.initial runners : Machine (ParentEvent Message Other) Runner Fn).world.queue = [] ∧ _).1
  have start : (initial runners : Channels Message Other Runner Fn).Reported codec []
      ([] : List (Nat × WorkerReport Value)) := by
    refine ⟨List.forall_mem_nil _, ?_⟩
    simp [waiting, initial, queue]
  exact since_invariant (fun channels dispatched produced => channels.Reported codec dispatched produced)
    (fun _ _ _ taken cleared => Reported.clear taken cleared)
    (fun _ _ _ _ _ holds taken kept => Reported.step holds taken kept) start run

/-- The events on a worker's object are the reports of this worker. -/
theorem delivered_entries {index : Nat} {worker : Channel Message Other Runner Fn}
    {log : List (Nat × WorkerReport Value)} (distinct : channels.Distinct) (known : channels.Known log)
    (found : channels.workers[index]? = some worker) :
    entriesOf worker.workerref (log.map (channels.delivered codec)) =
      (entriesOf index log).map (WorkerReport.map codec.roundTrip) := by
  have own : worker.workerref = channels.workerrefs.getD index 0 := by simp [workerrefs, found]
  have bound : index < channels.workerrefs.length := by
    simpa [workerrefs] using (List.getElem?_eq_some_iff.mp found).1
  rw [own]
  refine entriesOf_map (fun other => channels.workerrefs.getD other 0) _ fun entry member => ?_
  have inside : entry.1 < channels.workerrefs.length := by simpa [workerrefs] using known entry member
  exact List.getD_inj inside bound distinct

/-- This worker's messages are in the order of the values that were passed to its `postMessage`. -/
structure Received (codec : Codec Value Message Payload) (index : Nat) (channels : Channels Message Other Runner Fn)
    (received : List (Nat × Payload)) (sent : List (Nat × Value)) : Prop where
  unconstructed : channels.workers[index]? = none → entriesOf index received = [] ∧ entriesOf index sent = []
  constructed : ∀ worker, channels.workers[index]? = some worker → ∃ popped pushed,
    worker.data.Delivers popped pushed ∧
      entriesOf index received = popped.filterMap (Event.applied (WorkerEvent.apply codec)) ∧
      (entriesOf index sent).map codec.roundTrip = pushed.filterMap (Event.applied (WorkerEvent.apply codec))

/-- A step leaves the worker at this index alone, is a step of this worker, or constructs this worker. -/
inductive Turn (codec : Codec Value Message Payload) (index : Nat) (channels : Channels Message Other Runner Fn)
    (label : ChannelLabel Value Message Other Runner Fn) (next : Channels Message Other Runner Fn) : Prop where
  | idle (same : next.workers[index]? = channels.workers[index]?)
      (received : entriesOf index (channels.receives codec label) = [])
      (sent : entriesOf index (channels.sends label) = [])
  | move (worker : Channel Message Other Runner Fn) (data : WorkerData (WorkerEvent Message Other) Runner Fn)
      (act : WorkerLabel (WorkerEvent Message Other) Runner Fn)
      (before : channels.workers[index]? = some worker)
      (after : next.workers[index]? = some { worker with data := data }) (moved : worker.data.step act = some data)
      (received : entriesOf index (channels.receives codec label) =
        (worker.data.pops act).filterMap (Event.applied (WorkerEvent.apply codec)))
      (sent : (entriesOf index (channels.sends label)).map codec.roundTrip =
        (worker.data.pushes act).filterMap (Event.applied (WorkerEvent.apply codec)))
  | construct (this : Nat) (world : World (WorkerEvent Message Other) Runner Fn) (empty : world.queue = [])
      (before : channels.workers[index]? = none) (after : next.workers[index]? = some ⟨.initial world, this⟩)
      (received : entriesOf index (channels.receives codec label) = [])
      (sent : entriesOf index (channels.sends label) = [])

/-- A silent step of a worker posts no message of the parent. -/
theorem silent_pushes {data : WorkerData (WorkerEvent Message Other) Runner Fn}
    {act : WorkerLabel (WorkerEvent Message Other) Runner Fn} (silent : act.silent = true) :
    (data.pushes act).filterMap (Event.applied (WorkerEvent.apply codec)) = [] := by
  cases act with
  | run => rfl
  | destroy => rfl
  | eventloop label =>
      have foreign : label.posted.any WorkerEvent.ofParent = false := by
        unfold WorkerLabel.silent at silent
        split at silent
        case h_1 => cases silent
        case h_2 same => cases same; simpa using silent
        case h_3 same => cases same
        case h_4 same => cases same
      rw [WorkerData.pushes, Machine.pushes_applied]
      cases posted : label.posted with
      | none => rfl
      | some event =>
          rw [posted] at foreign
          cases event with
          | workerPostMessageEvent message => cases foreign
          | other event => rfl

/-- A step of one worker is no step of another. -/
theorem Turn.of_set {index other : Nat} {worker : Channel Message Other Runner Fn}
    {data : WorkerData (WorkerEvent Message Other) Runner Fn} {act : WorkerLabel (WorkerEvent Message Other) Runner Fn}
    (found : channels.workers[other]? = some worker)
    (set : next.workers = channels.workers.set other { worker with data := data }) (moved : worker.data.step act = some data)
    (received : entriesOf index (channels.receives codec label) = if other = index then
      (worker.data.pops act).filterMap (Event.applied (WorkerEvent.apply codec)) else [])
    (sent : (entriesOf index (channels.sends label)).map codec.roundTrip = if other = index then
      (worker.data.pushes act).filterMap (Event.applied (WorkerEvent.apply codec)) else []) :
    Turn codec index channels label next := by
  by_cases same : other = index
  · subst same
    rw [if_pos rfl] at received sent
    have after : next.workers[other]? = some { worker with data := data } := by
      rw [set, List.getElem?_set_self', found]
      rfl
    exact .move worker data act found after moved received sent
  · rw [if_neg same] at received sent
    exact .idle (by rw [set, List.getElem?_set_ne same]) received (List.map_eq_nil_iff.mp sent)

theorem Turn.of_construct {index this : Nat} {world : World (WorkerEvent Message Other) Runner Fn}
    (empty : world.queue = []) (added : next.workers = channels.workers ++ [⟨.initial world, this⟩])
    (received : channels.receives codec label = []) (sent : channels.sends label = []) :
    Turn codec index channels label next := by
  rcases lt_trichotomy index channels.workers.length with less | rfl | greater
  · refine .idle ?_ (by simp [received]) (by simp [sent])
    rw [added, List.getElem?_append_left less]
  · refine .construct this world empty (by simp) ?_ (by simp [received]) (by simp [sent])
    rw [added]
    exact List.getElem?_concat_length
  · refine .idle ?_ (by simp [received]) (by simp [sent])
    have beyond : next.workers.length ≤ index := by
      rw [added, List.length_append]
      exact greater
    rw [List.getElem?_eq_none greater.le, List.getElem?_eq_none beyond]

/-- Each step is a turn for each worker. -/
theorem step_turn (index : Nat) (taken : channels.step codec label = some next) : Turn codec index channels label next := by
  cases step_cases taken with
  | parent label parent | callerPostMessage other value worker parent => exact .idle rfl rfl rfl
  | construct this world fresh empty => exact .of_construct empty rfl rfl rfl
  | report this what world parent fresh empty => exact .of_construct empty rfl rfl rfl
  | worker other act worker data silent found moved =>
      refine .of_set found rfl moved ?_ (by simp [sends, silent_pushes silent])
      by_cases same : other = index
      · subst same
        simp [receives, found]
      · simp [receives, entriesOf_tagged_ne _ same, same]
  | postMessage other value worker data found moved =>
      refine .of_set found rfl moved (by simp [receives, WorkerData.pops, Machine.pops]) ?_
      have applied : (worker.data.pushes (.eventloop (.thread (.push (.workerPostMessageEvent (codec.encode value)))))).filterMap
          (Event.applied (WorkerEvent.apply codec)) = [codec.roundTrip value] := by
        rw [WorkerData.pushes, Machine.pushes_applied]
        simp [Label.posted, WorkerEvent.apply, Codec.roundTrip]
      by_cases same : other = index
      · simp [sends, entriesOf, same, applied]
      · simp [sends, entriesOf, same]
  | onProcessException other what worker parent data found posted moved =>
      exact .of_set found rfl moved (by simp [receives, WorkerData.pops, Machine.pops])
        (by simp [sends, WorkerData.pushes, Machine.pushes])

theorem Received.step {index : Nat} {received : List (Nat × Payload)} {sent : List (Nat × Value)}
    (holds : channels.Received codec index received sent) (taken : channels.step codec label = some next) :
    next.Received codec index (received ++ channels.receives codec label) (sent ++ channels.sends label) := by
  obtain ⟨unconstructed, constructed⟩ := holds
  cases step_turn index taken with
  | idle same silent unsent =>
      rw [← same] at unconstructed constructed
      constructor
      · simpa [silent, unsent] using unconstructed
      · simpa [silent, unsent] using constructed
  | move worker data act before after moved pops pushes =>
      obtain ⟨popped, pushed, delivers, shown, posted⟩ := constructed worker before
      refine ⟨fun missing => by simp [after] at missing, fun found same => ?_⟩
      cases after.symm.trans same
      refine ⟨popped ++ worker.data.pops act, pushed ++ worker.data.pushes act, delivers.step moved, ?_, ?_⟩
      · rw [entriesOf_append, shown, pops, List.filterMap_append]
      · rw [entriesOf_append, List.map_append, posted, pushes, List.filterMap_append]
  | construct this world empty before after silent unsent =>
      obtain ⟨shown, posted⟩ := unconstructed before
      refine ⟨fun missing => by simp [after] at missing, fun found same => ?_⟩
      cases after.symm.trans same
      have fresh : (WorkerData.initial world).Delivers [] [] := ⟨fun _ => rfl, List.nil_prefix, fun _ => empty⟩
      exact ⟨[], [], fresh, by simp [shown, silent], by simp [posted, unsent]⟩

/-- These messages were dispatched on the global object of the worker with this index. -/
def receivedBy (codec : Codec Value Message Payload) (start : Channels Message Other Runner Fn)
    (labels : List (ChannelLabel Value Message Other Runner Fn)) (index : Nat) : List Payload :=
  entriesOf index (trace (step codec) (receives codec) start labels)

/-- The parent passed these values to `postMessage` of the worker. -/
def sentTo (codec : Codec Value Message Payload) (start : Channels Message Other Runner Fn)
    (labels : List (ChannelLabel Value Message Other Runner Fn)) (index : Nat) : List Value :=
  entriesOf index (trace (step codec) sends start labels)

/-- The messages of the parent that wait in the worker's queue. -/
def unread (codec : Codec Value Message Payload) (worker : Channel Message Other Runner Fn) : List Payload :=
  worker.data.eventloop.world.queue.filterMap (Event.applied (WorkerEvent.apply codec))

theorem run_received (run : exec (step codec) (initial runners) labels = some channels) (index : Nat) :
    channels.Received codec index (trace (step codec) (receives codec) (initial runners) labels)
      (trace (step codec) sends (initial runners) labels) := by
  have start : (initial runners : Channels Message Other Runner Fn).Received codec index [] [] :=
    ⟨fun _ => ⟨rfl, rfl⟩, fun worker found => by simp [initial] at found⟩
  have kept : channels.Received codec index
      (since (step codec) (fun _ _ => false) (receives codec) (initial runners) labels [])
      (since (step codec) (fun _ _ => false) sends (initial runners) labels []) :=
    since_invariant (fun channels received sent => channels.Received codec index received sent)
      (fun _ _ _ _ cleared => by cases cleared) (fun _ _ _ _ _ holds taken _ => Received.step holds taken) start run
  rwa [since_never [] run, since_never [] run, List.nil_append, List.nil_append] at kept

/-- Since the parent's last `_events.clear()`, the events that were dispatched on a worker's object and
those that wait are the reports of this worker in their order, and nothing reports before the construction. The
messages on the worker's global object are a prefix of the values for its `postMessage`, and the others wait until
its thread has ended. -/
theorem channels_keep_order (run : exec (step codec) (initial runners) labels = some channels) (index : Nat) :
    (channels.workers.length ≤ index → entriesOf index (trace (step codec) produces (initial runners) labels) = []) ∧
      ∀ worker, channels.workers[index]? = some worker →
        dispatchedOn codec (initial runners) labels worker.workerref ++
            entriesOf worker.workerref (channels.waiting codec) =
          (producedBy codec (initial runners) labels index).map (WorkerReport.map codec.roundTrip) ∧
        receivedBy codec (initial runners) labels index <+:
          (sentTo codec (initial runners) labels index).map codec.roundTrip ∧
        (¬worker.data.ended → receivedBy codec (initial runners) labels index ++ unread codec worker =
          (sentTo codec (initial runners) labels index).map codec.roundTrip) := by
  constructor
  · intro beyond
    apply entriesOf_eq_nil
    intro entry member
    exact ((run_known run entry member).trans_le beyond).ne
  intro worker found
  obtain ⟨known, order⟩ := run_reported run
  obtain ⟨popped, pushed, delivers, received, sent⟩ := (run_received run index).constructed worker found
  refine ⟨?_, ?_, fun live => ?_⟩
  · rw [dispatchedOn, ← entriesOf_append, order]
    exact delivered_entries (run_distinct run) known found
  · rw [receivedBy, sentTo, received, sent]
    exact delivers.first.filterMap _
  · rw [receivedBy, sentTo, received, sent, ← delivers.queued live, List.filterMap_append]
    rfl

/-- A message is written as twice its value. -/
def doubling : Codec Nat Nat Nat where
  encode value := 2 * value
  decode message := some (message / 2)
  defined _ := rfl

/-- The parent constructs a worker and posts 1, and the worker applies this message. -/
def servingRun (error : Option String) : List (ChannelLabel Nat Nat Unit Unit Unit) :=
  [.construct 7 error World.initial, .postMessage 0 1, .worker 0 .run] ++
    List.replicate 4 (.worker 0 (.eventloop .next))

/-- The parent's loop runs until it applies the first event. -/
def applyingRun : List (ChannelLabel Nat Nat Unit Unit Unit) :=
  .parent .run :: List.replicate 16 (.parent .next)

/-- The handler of the worker posts 5 and throws. The parent's handler of the first event fails. -/
def reportingRun : List (ChannelLabel Nat Nat Unit Unit Unit) :=
  servingRun (some "init") ++ [.callerPostMessage 0 5, .onProcessException 0 "failed"] ++ applyingRun ++
    [.parent (.ended (some false))] ++ applyingRun

theorem channels_keep_order_here : ∃ channels worker, exec (step doubling) (initial []) reportingRun = some channels ∧
    channels.workers[0]? = some worker ∧
    dispatchedOn doubling (initial []) reportingRun worker.workerref ++
        entriesOf worker.workerref (channels.waiting doubling) = [.error "init", .message 5, .error "failed"] ∧
    dispatchedOn doubling (initial []) reportingRun worker.workerref = [.error "init", .message 5] ∧
    receivedBy doubling (initial []) reportingRun 0 <+: [1] := by
  have runs : ((exec (step doubling) (initial []) reportingRun).bind fun channels =>
      channels.workers[0]?.map fun worker => worker.workerref) = some 7 := by decide +kernel
  simp only [Option.bind_eq_some_iff, Option.map_eq_some_iff] at runs
  obtain ⟨channels, run, worker, found, this⟩ := runs
  obtain ⟨order, received, -⟩ := (channels_keep_order run 0).2 worker found
  refine ⟨channels, worker, run, found, ?_, ?_, ?_⟩
  · rw [order]
    decide +kernel
  · rw [this]
    decide +kernel
  · have sent : (sentTo doubling (initial []) reportingRun 0).map doubling.roundTrip = [1] := by decide +kernel
    rwa [sent] at received

/-- The parent's loop is terminated and run again. Its `_events.clear()` drops the message 5, and 6 comes after it. -/
def rerunRun : List (ChannelLabel Nat Nat Unit Unit Unit) :=
  servingRun none ++ [.parent .run, .parent .next, .parent (.thread .terminate), .callerPostMessage 0 5, .parent .next,
    .parent .next, .callerPostMessage 0 6] ++ applyingRun

theorem cleared_messages_are_lost :
    ¬∀ (labels : List (ChannelLabel Nat Nat Unit Unit Unit)) (channels : Channels Nat Unit Unit Unit) (index : Nat)
      (worker : Channel Nat Unit Unit Unit), exec (step doubling) (initial []) labels = some channels →
      channels.workers[index]? = some worker →
      entriesOf worker.workerref (trace (step doubling) (dispatches doubling) (initial []) labels) <+:
        (entriesOf index (trace (step doubling) produces (initial []) labels)).map
          (WorkerReport.map doubling.roundTrip) := by
  intro claim
  have runs : ((exec (step doubling) (initial []) rerunRun).bind fun channels =>
      channels.workers[0]?.map fun worker => worker.workerref) = some 7 := by decide +kernel
  simp only [Option.bind_eq_some_iff, Option.map_eq_some_iff] at runs
  obtain ⟨channels, run, worker, found, this⟩ := runs
  have order := claim rerunRun channels 0 worker run found
  have dispatched : entriesOf 7 (trace (step doubling) (dispatches doubling) (initial []) rerunRun) = [.message 6] := by
    decide +kernel
  have produced : (entriesOf 0 (trace (step doubling) produces (initial []) rerunRun)).map
      (WorkerReport.map doubling.roundTrip) = [.message 5, .message 6] := by decide +kernel
  rw [this, dispatched, produced] at order
  revert order
  decide

end Channels

end Dtel
