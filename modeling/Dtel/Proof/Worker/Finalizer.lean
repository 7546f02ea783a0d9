import Dtel.Construction.Worker.Object
import Dtel.Library.Calls
import Dtel.Library.Execution

namespace Dtel.WorkerObject
open Calls Execution

variable {Message : Type} {object next : WorkerObject Message} {data : WorkerPointers Message}
  {outcome : Fallible → Option String} {labels : List (ObjectLabel Message)}

/-- After `init`, the data has an event loop and a context. -/
def Whole (data : WorkerPointers Message) : Prop := data.ctx = true ∧ data.eventloop.isSome = true

/-- The object that `new` has created has no data. -/
def fresh : WorkerObject Message := ⟨none, [], []⟩

/-- The data that the property points to has this condition. -/
def Holding (condition : WorkerPointers Message → Prop) (object : WorkerObject Message) : Prop :=
  ∀ data, object.data = some data → condition data

/-- A construction sets the property when none of these calls throws. -/
def Stores (outcome : Fallible → Option String) : Prop :=
  ∀ call ∈ [Fallible.requireString, .abstractWorker, .workerHandler, .newRef, .createContext, .registerEventTarget,
    .putData], outcome call = none

/-- After that, the construction starts the thread when none of these calls throws. -/
def Completes (outcome : Fallible → Option String) : Prop :=
  ∀ call ∈ [Fallible.setFinalizer, .loadUrl, .newThread], outcome call = none

instance (outcome : Fallible → Option String) : Decidable (Stores outcome) := by
  unfold Stores
  infer_instance

/-- The data comes from the construction that sets the property, or it is the earlier data. -/
def Latest (earlier : WorkerPointers Message → Prop) (outcome : Fallible → Option String)
    (data : WorkerPointers Message) : Prop :=
  (Stores outcome ∧ Whole data ∧ (data.thread = true ↔ Completes outcome)) ∨ (¬Stores outcome ∧ earlier data)

theorem attempt_ensures {pre thrown : WorkerObject Message → Prop} {call : Fallible}
    (fails : outcome call ≠ none → ∀ object, pre object → thrown object) :
    Ensures pre (attempt outcome call) (fun _ object => pre object ∧ outcome call = none) thrown := by
  unfold attempt
  cases found : outcome call with
  | some what => exact Ensures.throw _ (fails (by simp [found]))
  | none => exact Ensures.pure _ fun _ holds => ⟨holds, rfl⟩

section Construct

variable {pre thrown : WorkerObject Message → Prop} {condition earlier : WorkerPointers Message → Prop}

/-- A construction that fails before it sets the property leaves the earlier data. -/
theorem latest_earlier {call : Fallible} (member : call ∈ [Fallible.requireString, .abstractWorker, .workerHandler,
      .newRef, .createContext, .registerEventTarget, .putData])
    (failed : outcome call ≠ none) (object : WorkerObject Message) (holds : Holding earlier object) :
    Holding (Latest earlier outcome) object :=
  fun data same => Or.inr ⟨fun stores => failed (stores call member), holds data same⟩

/-- A construction that fails after it has set the property leaves data without a thread. -/
theorem latest_unstarted {call : Fallible} (stores : Stores outcome)
    (member : call ∈ [Fallible.setFinalizer, .loadUrl, .newThread]) (failed : outcome call ≠ none)
    (object : WorkerObject Message) (holds : Holding (· = ⟨true, some [], false⟩) object) :
    Holding (Latest earlier outcome) object := by
  intro data same
  rw [holds data same]
  exact Or.inl ⟨stores, ⟨rfl, rfl⟩, iff_of_false (by simp) fun completes => failed (completes call member)⟩

theorem pointTo_ensures (holds : condition data) : Ensures pre (pointTo data) (fun _ => Holding condition) thrown := by
  refine Ensures.modify _ fun _ _ other same => ?_
  cases same
  exact holds

/-- The report of an error changes no pointer. -/
theorem init_ensures : Ensures (Holding earlier) (init outcome .null)
    (fun data object => Holding earlier object ∧ data = ⟨true, some [], false⟩ ∧
      outcome .createContext = none ∧ outcome .registerEventTarget = none) (Holding (Latest earlier outcome)) := by
  have reported : Ensures (Holding earlier) (tryGlobalScope outcome) (fun _ => Holding earlier)
      (Holding (Latest earlier outcome)) := by
    unfold tryGlobalScope
    cases outcome .globalScope with
    | some what => exact Ensures.modify _ fun _ holds => holds
    | none => exact Ensures.pure _ fun _ holds => holds
  unfold init
  refine (attempt_ensures (latest_earlier (by simp))).bind fun _ => Ensures.assuming fun context => ?_
  refine (attempt_ensures (latest_earlier (by simp))).bind fun _ => Ensures.assuming fun target => ?_
  exact reported.bind fun _ => Ensures.pure _ fun _ holds => ⟨holds, rfl, context, target⟩

/-- Whether it returns or throws, the construction leaves its own data or the earlier one. -/
theorem rWorkerConstruct_ensures : Ensures (Holding earlier) (rWorkerConstruct outcome)
    (fun _ => Holding (Latest earlier outcome)) (Holding (Latest earlier outcome)) := by
  unfold rWorkerConstruct
  refine (attempt_ensures (latest_earlier (by simp))).bind fun _ => Ensures.assuming fun string => ?_
  refine (attempt_ensures (latest_earlier (by simp))).bind fun _ => Ensures.assuming fun abstract => ?_
  refine (attempt_ensures (latest_earlier (by simp))).bind fun _ => Ensures.assuming fun handler => ?_
  refine (attempt_ensures (latest_earlier (by simp))).bind fun _ => Ensures.assuming fun ref => ?_
  refine init_ensures.bind fun data => Ensures.assuming fun ⟨same, context, target⟩ => ?_
  refine (attempt_ensures (latest_earlier (by simp))).bind fun _ => Ensures.assuming fun put => ?_
  have stores : Stores outcome := by simp [Stores, string, abstract, handler, ref, context, target, put]
  have pointed : Ensures (Holding earlier) (pointTo data) (fun _ => Holding (· = ⟨true, some [], false⟩))
      (Holding (Latest earlier outcome)) := pointTo_ensures same
  refine pointed.bind fun _ => ?_
  refine (attempt_ensures (latest_unstarted stores (by simp))).bind fun _ => Ensures.assuming fun finalizer => ?_
  refine (attempt_ensures (latest_unstarted stores (by simp))).bind fun _ => Ensures.assuming fun url => ?_
  subst same
  have started : Ensures (Holding (· = ⟨true, some [], false⟩)) (run outcome ⟨true, some [], false⟩)
      (fun (started : WorkerPointers Message) object => Holding (· = ⟨true, some [], false⟩) object ∧
        Latest earlier outcome started) (Holding (Latest earlier outcome)) := by
    unfold run
    refine (attempt_ensures (latest_unstarted stores (by simp))).bind fun _ => Ensures.assuming fun thread => ?_
    have completes : Completes outcome := by simp [Completes, finalizer, url, thread]
    exact Ensures.pure _ fun _ holds => ⟨holds, Or.inl ⟨stores, ⟨rfl, rfl⟩, iff_of_true rfl completes⟩⟩
  exact started.bind fun started => Ensures.assuming fun latest => pointTo_ensures latest

end Construct

theorem rWorkerPostMessage_ensures {condition : WorkerPointers Message → Prop} (message : Message)
    (posts : ∀ data, condition data → condition (postMessage message data)) :
    Ensures (Holding condition) (rWorkerPostMessage outcome message) (fun _ => Holding condition) (Holding condition) := by
  unfold rWorkerPostMessage
  apply Ensures.get
  intro seen holds
  refine (attempt_ensures fun _ _ holds => holds).bind fun _ => Ensures.assuming fun _ => ?_
  cases held : seen.data with
  | none => exact Ensures.throw _ fun _ holds => holds
  | some data => exact pointTo_ensures (posts data (holds data held))

/-- The destructor leaves the property, and the finalizer deletes it. -/
theorem rWorkerFinalizer_ensures {condition : WorkerPointers Message → Prop} :
    Ensures (Holding condition) (rWorkerFinalizer : Script Message Unit) (fun _ => Holding condition)
      (Holding condition) := by
  have destructs : ∀ data : WorkerPointers Message,
      Ensures (Holding condition) (destructor data) (fun _ => Holding condition) (Holding condition) := by
    rintro ⟨ctx, eventloop, thread⟩ object holds
    cases eventloop <;> cases thread <;> cases ctx <;> exact holds
  unfold rWorkerFinalizer
  apply Ensures.get
  intro seen holds
  cases held : seen.data with
  | none => exact Ensures.pure _ fun _ holds => holds
  | some data => exact (destructs data).bind fun _ => Ensures.modify _ fun _ _ other same => nomatch same

/-- With a thread, the destructor joins it and releases everything. -/
theorem destructor_run (whole : Whole data) (started : data.thread = true) :
    destructor data object = .ok ()
      { object with released := object.released ++ [.terminate, .join, .deleteEventLoop, .destroyContext] } := by
  obtain ⟨context, loop⟩ := whole
  have released : ((([Release.terminate] ++ [.join]) ++ [.deleteEventLoop]) ++ [.destroyContext]) =
      [.terminate, .join, .deleteEventLoop, .destroyContext] := rfl
  rw [destructor, if_pos loop, started, if_pos context, ← released]
  simp only [← List.append_assoc]
  rfl

/-- Without a thread, the destructor follows the null pointer. -/
theorem destructor_null (whole : Whole data) (unstarted : data.thread = false) :
    destructor data object = .error .nullPointer { object with released := object.released ++ [.terminate] } := by
  obtain ⟨context, loop⟩ := whole
  rw [destructor, if_pos loop, unstarted]
  rfl

/-- A finalizer without data does nothing. -/
theorem rWorkerFinalizer_none (none : object.data = none) : rWorkerFinalizer object = .ok () object := by
  rw [rWorkerFinalizer, get_bind, none]
  rfl

theorem rWorkerFinalizer_run (whole : Whole data) (held : object.data = some data) (started : data.thread = true) :
    rWorkerFinalizer object = .ok ()
      { object with
        data := none
        released := object.released ++ [.terminate, .join, .deleteEventLoop, .destroyContext] } := by
  rw [rWorkerFinalizer, get_bind, held]
  exact bind_ok (destructor_run whole started)

theorem rWorkerFinalizer_null (whole : Whole data) (held : object.data = some data) (unstarted : data.thread = false) :
    ∃ after, rWorkerFinalizer object = .error .nullPointer after := by
  rw [rWorkerFinalizer, get_bind, held]
  exact ⟨_, bind_error (destructor_null whole unstarted)⟩

/-- Whether a script returns or throws, it leaves data with this condition. -/
theorem Holding.after {earlier condition : WorkerPointers Message → Prop} {script : Script Message Unit}
    (holds : Holding earlier object)
    (ensures : Ensures (Holding earlier) script (fun _ => Holding condition) (Holding condition))
    (taken : WorkerObject.after (script object) = some next) : Holding condition next := by
  cases called : script object with
  | ok result after =>
      rw [called] at taken
      cases taken
      exact ensures.returned holds called
  | error error after =>
      rw [called] at taken
      cases error with
      | thrown what =>
          cases taken
          exact ensures.threw holds called
      | nullPointer => cases taken

/-- The outcome of a construction that sets the property. -/
def stored (_ : WorkerObject Message) : ObjectLabel Message → List (Fallible → Option String)
  | .construct outcome => if Stores outcome then [outcome] else []
  | _ => []

/-- The data is what `init` has made, and it has a thread when the last construction completed that set the property. -/
def Built (constructions : List (Fallible → Option String)) (data : WorkerPointers Message) : Prop :=
  Whole data ∧ ∃ outcome, constructions.getLast? = some outcome ∧ (data.thread = true ↔ Completes outcome)

theorem Built.postMessage {constructions : List (Fallible → Option String)} (message : Message)
    (data : WorkerPointers Message) (built : Built constructions data) :
    Built constructions (WorkerObject.postMessage message data) :=
  ⟨⟨built.1.1, by simpa [WorkerObject.postMessage] using built.1.2⟩, built.2⟩

theorem Built.step {constructions : List (Fallible → Option String)} {label : ObjectLabel Message}
    (holds : Holding (Built constructions) object) (taken : object.step label = some next) :
    Holding (Built (constructions ++ object.stored label)) next := by
  cases label with
  | construct outcome =>
      have latest := holds.after rWorkerConstruct_ensures taken
      intro data same
      rcases latest data same with ⟨stores, whole, thread⟩ | ⟨unstored, built⟩
      · exact ⟨whole, outcome, by simp [stored, stores], thread⟩
      · simpa [stored, unstored] using built
  | postMessage outcome message =>
      rw [stored, List.append_nil]
      · exact holds.after (rWorkerPostMessage_ensures message (Built.postMessage message)) taken
      · simp
  | finalize =>
      rw [stored, List.append_nil]
      · exact holds.after rWorkerFinalizer_ensures taken
      · simp

/-- No reachable property points to data that `init` has not completed. -/
theorem reachable_built (run : exec step fresh labels = some object) :
    Holding (Built (trace step stored fresh labels)) object := by
  have start : Holding (Built []) (fresh : WorkerObject Message) := fun _ held => nomatch held
  exact trace_invariant (fun (object : WorkerObject Message) _ _ constructions
    (built : Holding (Built constructions) object) taken => Built.step built taken) start run

/-- The finalizer releases everything in order, and a second call releases nothing. -/
def Finalizes (object : WorkerObject Message) : Prop :=
  ∃ after, rWorkerFinalizer object = .ok () after ∧ after.data = none ∧
    after.released = object.released ++ [.terminate, .join, .deleteEventLoop, .destroyContext] ∧
    rWorkerFinalizer after = .ok () after

/-- The data of an object can be finalized exactly when its thread has been started. -/
theorem Whole.finalizes (whole : Whole data) (held : object.data = some data) :
    object.Finalizes ↔ data.thread = true := by
  constructor
  · rintro ⟨after, called, -⟩
    cases started : data.thread with
    | true => rfl
    | false =>
        obtain ⟨other, threw⟩ := rWorkerFinalizer_null whole held started
        rw [called] at threw
        cases threw
  · intro started
    exact ⟨_, rWorkerFinalizer_run whole held started, rfl, rfl, rWorkerFinalizer_none rfl⟩

/-- In every reachable state, the finalizer can handle the data exactly when the last construction that set the
property has also started the thread. -/
theorem finalizer_handles_completed (run : exec step fresh labels = some object) (held : object.data = some data) :
    object.Finalizes ↔ ∀ outcome ∈ (trace step stored fresh labels).getLast?, Completes outcome := by
  obtain ⟨whole, outcome, last, thread⟩ := reachable_built run data held
  rw [whole.finalizes held, thread, last]
  simp

/-- The construction reports an error of `init`, and the object is finalized after a message. -/
theorem finalizer_handles_completed_here :
    exec step (fresh : WorkerObject Nat)
        [.construct fun call => if call = .globalScope then some "init" else none, .postMessage (fun _ => none) 7] =
        some ⟨some ⟨true, some [7], true⟩, ["init"], []⟩ ∧
      Finalizes (⟨some ⟨true, some [7], true⟩, ["init"], []⟩ : WorkerObject Nat) := by
  have run : exec step (fresh : WorkerObject Nat)
      [.construct fun call => if call = .globalScope then some "init" else none, .postMessage (fun _ => none) 7] =
      some ⟨some ⟨true, some [7], true⟩, ["init"], []⟩ := rfl
  refine ⟨run, (finalizer_handles_completed run rfl).mpr fun outcome last => ?_⟩
  have same : (fun call => if call = .globalScope then some "init" else none) = outcome := Option.some.inj last
  rw [← same]
  simp [Completes]

/-- A worker whose URL cannot be loaded has data without a thread, and its finalizer follows the null pointer. -/
theorem unloaded_worker_crashes :
    ∃ object data, exec step (fresh : WorkerObject Nat)
        [.construct fun call => if call = .loadUrl then some "not found" else none] = some object ∧
      object.data = some data ∧ (∃ after, rWorkerFinalizer object = .error .nullPointer after) ∧ ¬object.Finalizes := by
  refine ⟨_, _, rfl, rfl, ⟨_, rfl⟩, ?_⟩
  rintro ⟨after, called, -⟩
  cases called

end Dtel.WorkerObject
