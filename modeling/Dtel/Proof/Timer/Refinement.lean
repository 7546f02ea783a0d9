import Dtel.Proof.Loop.Step
import Dtel.Proof.Timer.Sound

namespace Dtel

/-- Only a timer of the queue is part of the timers' life. -/
def Event.posting? {Other : Type} : Event Other → Option Posting
  | .timeout posting => some posting
  | .other _ => none

/-- `checkTimeouts` holds the timer that it took and has not disposed of. -/
def Pc.hand {Other : Type} : Pc Other → Option Posting
  | .checking _ _ _ _ taken => taken
  | _ => none

/-- The loop thread handles this timer, at this stage. -/
def Pc.active {Other : Type} : Pc Other → Option (Posting × Stage)
  | .applying _ (.timeout posting) => some (posting, .starting)
  | .calling _ posting => some (posting, .calling)
  | .called _ posting _ => some (posting, .called)
  | .throwing _ posting | .releasing _ (.timeout posting) => some (posting, .settled)
  | _ => none

namespace Machine

variable {Other Runner Fn : Type} {machine next : Machine Other Runner Fn} {label : Label Other Runner Fn}

/-- The view forgets the loop, the runners and the other events. -/
def view (machine : Machine Other Runner Fn) : Life Fn where
  clock := machine.world.clock
  timers := machine.world.timers
  refs := machine.world.refs
  hand := machine.pc.hand
  queue := machine.world.queue.filterMap Event.posting?
  active := machine.pc.active

/-- The act of the next statement of the loop thread. -/
def nextAct (machine : Machine Other Runner Fn) : Act Fn :=
  match machine.pc with
  | .checking _ _ now (_ + 1) none =>
      match machine.world.timers.takeFirst now with
      | some _ => .take now
      | none => .idle
  | .checking _ _ _ _ (some _) => .dispose
  | .draining _ =>
      match machine.world.queue with
      | .timeout _ :: _ => .start
      | _ => .idle
  | .applying _ (.timeout _) => .invoke
  | .called .. => .settle
  | .releasing _ (.timeout _) => .release
  | .leaving => .clear
  | _ => .idle

/-- The act of a script call. A failed argument check changes nothing. -/
def callAct : Call Other Runner Fn → Act Fn
  | .setTimeout args oneShot =>
      match setTimeoutArguments args with
      | .ok (function, delay) => .create (some function) delay oneShot
      | .error _ => .idle
  | .clearTimeout args =>
      match requireInt args 0 with
      | .ok id => .cancel id
      | .error _ => .idle
  | _ => .idle

/-- Each step of the machine is one act of the timers' life. -/
def act (machine : Machine Other Runner Fn) : Label Other Runner Fn → Act Fn
  | .tick elapsed => .elapse elapsed
  | .next => machine.nextAct
  | .script call => callAct call
  | .pcall _ => .complete
  | .ended (some false) =>
      match machine.pc with
      | .throwing .. => .abandon
      | _ => .idle
  | .thread (.postTimeout delay oneShot) => .create none delay oneShot
  | .thread (.cancelEvent id) => .cancel id
  | _ => .idle

/-- This relation lists the act of each label. -/
inductive Acts (machine : Machine Other Runner Fn) : Label Other Runner Fn → Act Fn → Prop where
  | tick (elapsed : Nat) : Acts machine (.tick elapsed) (.elapse elapsed)
  | run : Acts machine .run .idle
  | take (node : Nat) (timeout now : Int) (sanity : Nat)
      (point : machine.pc = .checking node timeout now (sanity + 1) none) : Acts machine .next (.take now)
  | dispose (node : Nat) (timeout now : Int) (sanity : Nat) (posting : Posting)
      (point : machine.pc = .checking node timeout now sanity (some posting)) : Acts machine .next .dispose
  | start (timeout : Int) (posting : Posting) (rest : List (Event Other)) (point : machine.pc = .draining timeout)
      (queue : machine.world.queue = .timeout posting :: rest) : Acts machine .next .start
  | invoke (timeout : Int) (posting : Posting) (point : machine.pc = .applying timeout (.timeout posting)) :
      Acts machine .next .invoke
  | settle (timeout : Int) (posting : Posting) (success : Bool)
      (point : machine.pc = .called timeout posting success) : Acts machine .next .settle
  | release (timeout : Int) (posting : Posting) (point : machine.pc = .releasing timeout (.timeout posting)) :
      Acts machine .next .release
  | clear (point : machine.pc = .leaving) : Acts machine .next .clear
  | quiet (unstarted : ∀ timeout posting rest, machine.pc = .draining timeout →
        machine.world.queue ≠ .timeout posting :: rest)
      (uncalled : ∀ timeout posting, machine.pc ≠ .applying timeout (.timeout posting)) : Acts machine .next .idle
  | setTimeout (args : List (JsValue Fn)) (oneShot : Bool) (function : Fn) (delay : Int)
      (checked : setTimeoutArguments args = .ok (function, delay)) :
      Acts machine (.script (.setTimeout args oneShot)) (.create (some function) delay oneShot)
  | rejected (args : List (JsValue Fn)) (oneShot : Bool) (error : ScriptError)
      (checked : setTimeoutArguments args = .error error) : Acts machine (.script (.setTimeout args oneShot)) .idle
  | clearTimeout (args : List (JsValue Fn)) (id : Int) (checked : requireInt args 0 = .ok id) :
      Acts machine (.script (.clearTimeout args)) (.cancel id)
  | clearRejected (args : List (JsValue Fn)) (error : ScriptError) (checked : requireInt args 0 = .error error) :
      Acts machine (.script (.clearTimeout args)) .idle
  | postEvent (event : Other) : Acts machine (.script (.postEvent event)) .idle
  | addLoopRunner (runner : Runner) (priority : Int) : Acts machine (.script (.addLoopRunner runner priority)) .idle
  | terminate : Acts machine (.script .terminate) .idle
  | pcall (success : Bool) : Acts machine (.pcall success) .complete
  | looped (newtimeout : Option Int) : Acts machine (.looped newtimeout) .idle
  | abandon (timeout : Int) (posting : Posting) (point : machine.pc = .throwing timeout posting) :
      Acts machine (.ended (some false)) .abandon
  | ended (exception : Option Bool) : Acts machine (.ended exception) .idle
  | wake : Acts machine .wake .idle
  | signal (signal : Signal Other Runner) (foreign : ∀ delay oneShot, signal ≠ .postTimeout delay oneShot)
      (keeping : ∀ id, signal ≠ .cancelEvent id) : Acts machine (.thread signal) .idle
  | postTimeout (delay : Int) (oneShot : Bool) :
      Acts machine (.thread (.postTimeout delay oneShot)) (.create none delay oneShot)
  | cancelEvent (id : Int) : Acts machine (.thread (.cancelEvent id)) (.cancel id)

/-- The next statement has a listed act. -/
theorem nextAct_cases (machine : Machine Other Runner Fn) : machine.Acts .next machine.nextAct := by
  unfold nextAct
  split
  case h_1 node timeout now sanity point =>
      split
      case h_1 => exact .take node timeout now sanity point
      case h_2 => exact .quiet (by simp [point]) (by simp [point])
  case h_2 node timeout now sanity posting point => exact .dispose node timeout now sanity posting point
  case h_3 timeout point =>
      split
      case h_1 posting rest queue => exact .start timeout posting rest point queue
      case h_2 unstarted =>
          refine .quiet ?_ (by simp [point])
          intro _ posting rest _ queue
          exact unstarted posting rest queue
  case h_4 timeout posting point => exact .invoke timeout posting point
  case h_5 timeout posting success point => exact .settle timeout posting success point
  case h_6 timeout posting point => exact .release timeout posting point
  case h_7 point => exact .clear point
  case h_8 unlisted undraining uncalled _ _ _ =>
      refine .quiet ?_ ?_
      · intro timeout _ _ point
        exact absurd point (undraining timeout)
      · exact fun timeout posting point => uncalled timeout posting point

/-- Each label has a listed act. -/
theorem act_cases (machine : Machine Other Runner Fn) (label : Label Other Runner Fn) :
    machine.Acts label (machine.act label) := by
  cases label with
  | tick elapsed => exact .tick elapsed
  | run => exact .run
  | next => exact nextAct_cases machine
  | script call =>
      cases call with
      | setTimeout args oneShot =>
          cases checked : setTimeoutArguments args with
          | error error =>
              simp only [act, callAct, checked]
              exact .rejected args oneShot error checked
          | ok accepted =>
              simp only [act, callAct, checked]
              exact .setTimeout args oneShot _ _ checked
      | clearTimeout args =>
          cases checked : requireInt args 0 with
          | error error =>
              simp only [act, callAct, checked]
              exact .clearRejected args error checked
          | ok id =>
              simp only [act, callAct, checked]
              exact .clearTimeout args id checked
      | postEvent event => exact .postEvent event
      | addLoopRunner runner priority => exact .addLoopRunner runner priority
      | terminate => exact .terminate
  | pcall success => exact .pcall success
  | looped newtimeout => exact .looped newtimeout
  | ended exception =>
      rcases exception with _ | _ | _
      · exact .ended none
      · cases point : machine.pc with
        | throwing timeout posting =>
            simp only [act, point]
            exact .abandon timeout posting point
        | _ =>
            simp only [act, point]
            exact .ended (some false)
      · exact .ended (some true)
  | wake => exact .wake
  | thread signal =>
      cases signal with
      | postTimeout delay oneShot => exact .postTimeout delay oneShot
      | cancelEvent id => exact .cancelEvent id
      | _ => exact .signal _ (by simp) (by simp)

/-- The time that `checkTimeouts` read is not in the future. -/
def Timely (machine : Machine Other Runner Fn) : Prop :=
  ∀ node timeout now sanity taken, machine.pc = .checking node timeout now sanity taken → now ≤ machine.world.clock

@[simp] theorem notified_world : machine.notified.world = machine.world := by
  unfold notified
  split <;> rfl

/-- A notification moves only a waiting loop. -/
theorem notified_pc : machine.notified.pc = machine.pc ∨ machine.notified.pc = .test := by
  unfold notified
  split
  · exact Or.inr rfl
  · exact Or.inl rfl

theorem perform_clock {world after : World Other Runner Fn} {call : Call Other Runner Fn}
    (performed : world.perform call = some after) : after.clock = world.clock := by
  cases perform_cases performed <;> rfl

/-- Only a tick changes the clock, and it never goes back. -/
theorem step_clock (taken : machine.step label = some next) : machine.world.clock ≤ next.world.clock := by
  cases step_cases taken with
  | tick elapsed => exact Int.le_add_of_nonneg_right (Int.natCast_nonneg elapsed)
  | script call world point performed => exact le_of_eq (perform_clock performed).symm
  | notifyPushed | notify => simp
  | dispose =>
      simp only [World.dispose, World.release, World.postEvent]
      split <;> exact le_rfl
  | _ => exact le_rfl

theorem Timely.step (timely : machine.Timely) (taken : machine.step label = some next) : next.Timely := by
  have clock := step_clock taken
  intro node timeout now sanity hand point
  cases step_cases taken with
  | check =>
      cases point
      exact le_rfl
  | dispose node timeout now sanity posting before =>
      cases point
      exact (timely _ _ _ _ _ before).trans clock
  | take node timeout now sanity posting timers before =>
      cases point
      exact (timely _ _ _ _ _ before).trans clock
  | takeNone node timeout now sanity before =>
      cases point
      exact (timely _ _ _ _ _ before).trans clock
  | settle timeout posting success =>
      cases success <;> simp at point
  | notifyPushed | notify =>
      rcases notified_pc with same | moved
      · exact (timely _ _ _ _ _ (same ▸ point)).trans clock
      · rw [moved] at point
        cases point
  | tick | script | push | postTimeout | cancelEvent | addLoopRunner | terminate =>
      exact (timely _ _ _ _ _ point).trans clock
  | _ => cases point

@[simp] theorem view_notified : machine.notified.view = machine.view := by
  unfold notified
  split
  case h_1 timeout point => simp [view, point, Pc.hand, Pc.active]
  case h_2 => rfl

/-- A script call is one act of the timers' life. -/
theorem call_simulates {call : Call Other Runner Fn} {world : World Other Runner Fn}
    (performed : machine.world.perform call = some world) :
    machine.view.step (callAct call) = some ({ machine with world := world } : Machine Other Runner Fn).view := by
  cases perform_cases performed with
  | rejected args oneShot error checked => simp [callAct, checked, Life.step]
  | setTimeout args oneShot function delay id timers checked posted =>
      simp [callAct, checked, Life.step, view, posted, Life.putFunction]
  | clearRejected args error checked => simp [callAct, checked, Life.step]
  | clearTimeout args id checked => simp [callAct, checked, Life.step, view]
  | postEvent event => simp [callAct, Life.step, view, World.postEvent, List.filterMap_append, Event.posting?]
  | addLoopRunner runner priority => simp [callAct, Life.step, view, World.addLoopRunner]
  | terminate => simp [callAct, Life.step, view, World.terminate]

/-- Each step of the machine is the act of the timers' life that it names. -/
theorem simulates (timely : machine.Timely) (taken : machine.step label = some next) :
    machine.view.step (machine.act label) = some next.view := by
  cases step_cases taken with
  | tick elapsed => rfl
  | script call world point performed => exact call_simulates performed
  | check node timeout point | callRunner node timeout other point | leaveLoop point | endRunners timeout point
  | pass point | enter point | lock timeout point | checked node timeout now point =>
      simp [act, nextAct, point, Life.step, view, Pc.hand, Pc.active]
  | dispose node timeout now sanity posting point =>
      cases removed : (machine.world.timers.object posting.event).removed <;>
        cases sanity <;> simp [act, nextAct, point, Life.step, view, Pc.hand, Pc.active, removed, World.dispose,
          World.release, World.postEvent, List.filterMap_append, Event.posting?]
  | take node timeout now sanity posting timers point first =>
      have past : now ≤ machine.world.clock := timely _ _ _ _ _ point
      simp [act, nextAct, point, first, Life.step, view, Pc.hand, Pc.active, past]
  | takeNone node timeout now sanity point first =>
      simp [act, nextAct, point, first, Life.step, view, Pc.hand, Pc.active]
  | drainEmpty timeout point queue =>
      simp [act, nextAct, point, queue, Life.step, view, Pc.hand, Pc.active]
  | drain timeout event rest point queue =>
      cases event <;>
        simp [act, nextAct, point, queue, Life.step, view, Pc.hand, Pc.active, Event.posting?,
          List.filterMap_cons]
  | call timeout posting function point live positive stored =>
      simp [act, nextAct, point, Life.step, view, Pc.hand, Pc.active, live, positive, stored]
  | callMissing timeout posting point live positive missing =>
      simp [act, nextAct, point, Life.step, view, Pc.hand, Pc.active, live, positive, missing]
  | skip timeout posting point dead =>
      simp [act, nextAct, point, Life.step, view, Pc.hand, Pc.active, dead]
  | settle timeout posting success timers point settled =>
      cases success <;> simp [act, nextAct, point, Life.step, view, Pc.hand, Pc.active, settled]
  | release timeout posting point =>
      simp [act, nextAct, point, Life.step, view, Pc.hand, Pc.active, World.release]
  | leave point => simp [act, nextAct, point, Life.step, view, Pc.hand, Pc.active]
  | pcall timeout posting success point => simp [act, point, Life.step, view, Pc.hand, Pc.active]
  | applied timeout event exception point accepted =>
      rcases exception with _ | _ | _
      · simp [act, point, Life.step, view, Pc.hand, Pc.active]
      · exact absurd rfl accepted
      · simp [act, point, Life.step, view, Pc.hand, Pc.active]
  | released timeout event exception point accepted =>
      rcases exception with _ | _ | _
      · simp [act, point, Life.step, view, Pc.hand, Pc.active]
      · exact absurd rfl accepted
      · simp [act, point, Life.step, view, Pc.hand, Pc.active]
  | run point | wake timeout point | threw timeout posting point | rethrew timeout posting point
  | looped node timeout newtimeout point | runnerThrew node timeout point | applyThrew timeout event point
  | releaseThrew timeout event point => simp [act, point, Life.step, view, Pc.hand, Pc.active]
  | push event => simp [act, Life.step, view, World.postEvent, List.filterMap_append, Event.posting?]
  | notifyPushed pushed =>
      rw [view_notified]
      rfl
  | notify =>
      rw [view_notified]
      rfl
  | postTimeout delay oneShot id timers posted => simp [act, Life.step, view, posted, Life.putFunction]
  | cancelEvent id => rfl
  | addLoopRunner runner priority => rfl
  | terminate => rfl

@[simp] theorem initial_pc (runners : List (Runner × Int)) :
    (initial runners : Machine Other Runner Fn).pc = .outside := rfl

/-- A machine that has not started holds no timer. -/
theorem initial_world (runners : List (Runner × Int)) :
    (initial runners : Machine Other Runner Fn).world.queue = [] ∧
      (initial runners : Machine Other Runner Fn).world.timers = Timers.initial ∧
      (initial runners : Machine Other Runner Fn).world.refs = fun _ => none := by
  suffices folded : ∀ world : World Other Runner Fn,
      (runners.foldl (fun world entry => world.addLoopRunner (.other entry.1) entry.2) world).queue = world.queue ∧
        (runners.foldl (fun world entry => world.addLoopRunner (.other entry.1) entry.2) world).timers =
          world.timers ∧
        (runners.foldl (fun world entry => world.addLoopRunner (.other entry.1) entry.2) world).refs =
          world.refs from folded World.initial
  intro world
  induction runners generalizing world with
  | nil => exact ⟨rfl, rfl, rfl⟩
  | cons entry rest ih => exact ih (world.addLoopRunner (.other entry.1) entry.2)

theorem initial_timely (runners : List (Runner × Int)) : (initial runners : Machine Other Runner Fn).Timely := by
  intro node timeout now sanity taken point
  cases point

/-- The life of the timers starts sound. -/
theorem initial_sound (runners : List (Runner × Int)) :
    (initial runners : Machine Other Runner Fn).view.Sound := by
  obtain ⟨queue, timers, -⟩ : (initial runners : Machine Other Runner Fn).world.queue = [] ∧
      (initial runners : Machine Other Runner Fn).world.timers = Timers.initial ∧ _ := initial_world runners
  have empty (event : Nat) : (initial runners : Machine Other Runner Fn).view.held event = 0 := by
    simp [Life.held, Life.pending, view, queue, timers, Timers.listed, Timers.initial, Pc.hand, Pc.active,
      Life.starting, Life.ongoing]
  refine ⟨?_, fun event => by rw [empty event]; omega, fun event held => ?_, ?_, ?_, ?_, ?_⟩
  · simp only [view, timers]
    exact ⟨List.Pairwise.nil, by simp [Timers.initial]⟩
  · rw [empty event] at held
    omega
  · intro posting stage active
    cases active
  · simp [view, timers, Timers.initial]
  · simp [view, timers, Timers.initial]
  · simp [view, timers, Timers.initial]

/-- The simulation needs no more than the timeliness of the clock reading. -/
theorem life_run {labels : List (Label Other Runner Fn)} (timely : machine.Timely)
    (run : Execution.exec step machine labels = some next) :
    Execution.exec Life.step machine.view (Execution.acts step act machine labels) = some next.view :=
  Execution.exec_simulation (fun _ _ _ holds taken => Timely.step holds taken)
    (fun _ _ _ holds taken => simulates holds taken) timely run

/-- A trace that only the timers' life determines is the trace of the simulated life. -/
theorem life_trace {Output : Type*} {observe : Machine Other Runner Fn → Label Other Runner Fn → List Output}
    {seen : Life Fn → Act Fn → List Output}
    (same : ∀ machine label, observe machine label = seen machine.view (machine.act label))
    {labels : List (Label Other Runner Fn)} (timely : machine.Timely)
    (run : Execution.exec step machine labels = some next) :
    Execution.trace step observe machine labels =
      Execution.trace Life.step seen machine.view (Execution.acts step act machine labels) := by
  have equal : observe = fun machine label => seen machine.view (machine.act label) := by
    funext machine label
    exact same machine label
  rw [equal]
  exact Execution.trace_simulation (fun _ _ _ holds taken => Timely.step holds taken)
    (fun _ _ _ holds taken => simulates holds taken) timely run

/-- Each reachable machine has a sound life of its timers. -/
theorem reachable_sound {runners : List (Runner × Int)} {labels : List (Label Other Runner Fn)}
    (run : Execution.exec step (initial runners) labels = some machine) :
    machine.Timely ∧ machine.view.Sound :=
  ⟨Execution.exec_invariant (fun _ _ _ holds taken => Timely.step holds taken) (initial_timely runners) run,
    (initial_sound runners).run (life_run (initial_timely runners) run)⟩

/-- A reachable machine keeps the known timer objects in every further run. -/
theorem reachable_keeps {labels : List (Label Other Runner Fn)} {event : Nat} (timely : machine.Timely)
    (sound : machine.view.Sound) (run : Execution.exec step machine labels = some next)
    (below : event < machine.world.timers.fresh) :
    event < next.world.timers.fresh ∧
      Life.Keeps (machine.world.timers.object event) (next.world.timers.object event) :=
  sound.keeps_run (life_run timely run) below

/-- The step calls the function of this timer. -/
def invokes (machine : Machine Other Runner Fn) : Label Other Runner Fn → Option Posting
  | .next =>
      match machine.pc with
      | .applying _ (.timeout posting) =>
          if (machine.world.timers.object posting.event).removed = false ∧
            0 < (machine.world.timers.object posting.event).id then some posting else none
      | _ => none
  | _ => none

/-- A called timer is active, live, and has an id. -/
theorem invokes_some {posting : Posting} (invoked : machine.invokes label = some posting) :
    machine.view.active = some (posting, .starting) ∧
      (machine.world.timers.object posting.event).removed = false ∧
      0 < (machine.world.timers.object posting.event).id := by
  cases label with
  | next =>
      simp only [invokes] at invoked
      split at invoked
      case h_1 timeout other point =>
          simp only [Option.ite_none_right_eq_some, Option.some.injEq] at invoked
          obtain ⟨ready, rfl⟩ := invoked
          exact ⟨by simp [view, point, Pc.active], ready⟩
      case h_2 => cases invoked
  | _ => cases invoked

end Machine

end Dtel
