import Dtel.Construction.Loop.Machine
import Dtel.Proof.Timer.Handler

namespace Dtel.Machine

variable {Other Runner Fn : Type}

/-- This relation lists everything that one step can do to the machine. -/
inductive Step : Machine Other Runner Fn → Label Other Runner Fn → Machine Other Runner Fn → Prop where
  | tick (machine : Machine Other Runner Fn) (elapsed : Nat) :
      Step machine (.tick elapsed)
        { machine with world := { machine.world with clock := machine.world.clock + elapsed } }
  | run (machine : Machine Other Runner Fn) (point : machine.pc = .outside) :
      Step machine .run { machine with pc := .entered }
  | enter (machine : Machine Other Runner Fn) (point : machine.pc = .entered) :
      Step machine .next { machine with world := { machine.world with terminated := false }, pc := .test }
  | leaveLoop (machine : Machine Other Runner Fn) (point : machine.pc = .test)
      (flag : machine.world.terminated = true) : Step machine .next { machine with pc := .leaving }
  | pass (machine : Machine Other Runner Fn) (point : machine.pc = .test)
      (flag : machine.world.terminated = false) :
      Step machine .next
        { machine with pc := .runners machine.world.firstNode (machine.world.clock + milliseconds 2000) }
  | endRunners (machine : Machine Other Runner Fn) (timeout : Int) (point : machine.pc = .runners none timeout) :
      Step machine .next { machine with pc := .draining timeout }
  | check (machine : Machine Other Runner Fn) (node : Nat) (timeout : Int)
      (point : machine.pc = .runners (some node) timeout)
      (runner : machine.world.runnerAt node = some .settimeout) :
      Step machine .next { machine with pc := .checking node timeout machine.world.clock maxExpirys none }
  | callRunner (machine : Machine Other Runner Fn) (node : Nat) (timeout : Int) (other : Runner)
      (point : machine.pc = .runners (some node) timeout)
      (runner : machine.world.runnerAt node = some (.other other)) :
      Step machine .next { machine with pc := .looped node timeout }
  | dispose (machine : Machine Other Runner Fn) (node : Nat) (timeout now : Int) (sanity : Nat) (posting : Posting)
      (point : machine.pc = .checking node timeout now sanity (some posting)) :
      Step machine .next
        { machine with world := machine.world.dispose posting, pc := .checking node timeout now sanity none }
  | take (machine : Machine Other Runner Fn) (node : Nat) (timeout now : Int) (sanity : Nat) (posting : Posting)
      (timers : Timers) (point : machine.pc = .checking node timeout now (sanity + 1) none)
      (taken : machine.world.timers.takeFirst now = some (posting, timers)) :
      Step machine .next { machine with
        world := { machine.world with timers := timers }
        pc := .checking node timeout now sanity (some posting) }
  | takeNone (machine : Machine Other Runner Fn) (node : Nat) (timeout now : Int) (sanity : Nat)
      (point : machine.pc = .checking node timeout now (sanity + 1) none)
      (taken : machine.world.timers.takeFirst now = none) :
      Step machine .next { machine with pc := .checking node timeout now sanity none }
  | checked (machine : Machine Other Runner Fn) (node : Nat) (timeout now : Int)
      (point : machine.pc = .checking node timeout now 0 none) :
      Step machine .next { machine with
        pc := .runners (machine.world.nextNode node) (earlierTimeout timeout machine.world.timers.nextDeadline) }
  | drainEmpty (machine : Machine Other Runner Fn) (timeout : Int) (point : machine.pc = .draining timeout)
      (queue : machine.world.queue = []) : Step machine .next { machine with pc := .locking timeout }
  | drain (machine : Machine Other Runner Fn) (timeout : Int) (event : Event Other) (rest : List (Event Other))
      (point : machine.pc = .draining timeout) (queue : machine.world.queue = event :: rest) :
      Step machine .next
        { machine with world := { machine.world with queue := rest }, pc := .applying timeout event }
  | call (machine : Machine Other Runner Fn) (timeout : Int) (posting : Posting) (function : Fn)
      (point : machine.pc = .applying timeout (.timeout posting))
      (live : (machine.world.timers.object posting.event).removed = false)
      (positive : 0 < (machine.world.timers.object posting.event).id)
      (stored : machine.world.refs (machine.world.timers.object posting.event).id = some function) :
      Step machine .next { machine with pc := .calling timeout posting }
  | callMissing (machine : Machine Other Runner Fn) (timeout : Int) (posting : Posting)
      (point : machine.pc = .applying timeout (.timeout posting))
      (live : (machine.world.timers.object posting.event).removed = false)
      (positive : 0 < (machine.world.timers.object posting.event).id)
      (missing : machine.world.refs (machine.world.timers.object posting.event).id = none) :
      Step machine .next { machine with pc := .called timeout posting false }
  | skip (machine : Machine Other Runner Fn) (timeout : Int) (posting : Posting)
      (point : machine.pc = .applying timeout (.timeout posting))
      (dead : ¬((machine.world.timers.object posting.event).removed = false ∧
        0 < (machine.world.timers.object posting.event).id)) :
      Step machine .next { machine with pc := .releasing timeout (.timeout posting) }
  | settle (machine : Machine Other Runner Fn) (timeout : Int) (posting : Posting) (success : Bool)
      (timers : Timers) (point : machine.pc = .called timeout posting success)
      (settled : machine.world.timers.settle machine.world.clock posting.event = some timers) :
      Step machine .next { machine with
        world := { machine.world with timers := timers }
        pc := if success then .releasing timeout (.timeout posting) else .throwing timeout posting }
  | release (machine : Machine Other Runner Fn) (timeout : Int) (posting : Posting)
      (point : machine.pc = .releasing timeout (.timeout posting)) :
      Step machine .next
        { machine with world := machine.world.release posting.event, pc := .draining timeout }
  | lock (machine : Machine Other Runner Fn) (timeout : Int) (point : machine.pc = .locking timeout) :
      Step machine .next { machine with pc := .waiting timeout }
  | leave (machine : Machine Other Runner Fn) (point : machine.pc = .leaving) :
      Step machine .next { machine with world := { machine.world with queue := [] }, pc := .outside }
  | script (machine : Machine Other Runner Fn) (call : Call Other Runner Fn) (world : World Other Runner Fn)
      (point : machine.pc.scripting = true) (performed : machine.world.perform call = some world) :
      Step machine (.script call) { machine with world := world }
  | pcall (machine : Machine Other Runner Fn) (timeout : Int) (posting : Posting) (success : Bool)
      (point : machine.pc = .calling timeout posting) :
      Step machine (.pcall success) { machine with pc := .called timeout posting success }
  | looped (machine : Machine Other Runner Fn) (node : Nat) (timeout : Int) (newtimeout : Option Int)
      (point : machine.pc = .looped node timeout) :
      Step machine (.looped newtimeout) { machine with
        pc := .runners (machine.world.nextNode node) (earlierTimeout timeout newtimeout) }
  | runnerThrew (machine : Machine Other Runner Fn) (node : Nat) (timeout : Int)
      (point : machine.pc = .looped node timeout) :
      Step machine (.ended (some false)) { machine with pc := .outside }
  | applied (machine : Machine Other Runner Fn) (timeout : Int) (event : Other) (exception : Option Bool)
      (point : machine.pc = .applying timeout (.other event)) (accepted : exception ≠ some false) :
      Step machine (.ended exception) { machine with pc := .releasing timeout (.other event) }
  | applyThrew (machine : Machine Other Runner Fn) (timeout : Int) (event : Other)
      (point : machine.pc = .applying timeout (.other event)) :
      Step machine (.ended (some false)) { machine with pc := .outside }
  | threw (machine : Machine Other Runner Fn) (timeout : Int) (posting : Posting)
      (point : machine.pc = .throwing timeout posting) :
      Step machine (.ended (some true)) { machine with pc := .releasing timeout (.timeout posting) }
  | rethrew (machine : Machine Other Runner Fn) (timeout : Int) (posting : Posting)
      (point : machine.pc = .throwing timeout posting) :
      Step machine (.ended (some false)) { machine with pc := .outside }
  | released (machine : Machine Other Runner Fn) (timeout : Int) (event : Other) (exception : Option Bool)
      (point : machine.pc = .releasing timeout (.other event)) (accepted : exception ≠ some false) :
      Step machine (.ended exception) { machine with pc := .draining timeout }
  | releaseThrew (machine : Machine Other Runner Fn) (timeout : Int) (event : Other)
      (point : machine.pc = .releasing timeout (.other event)) :
      Step machine (.ended (some false)) { machine with pc := .outside }
  | wake (machine : Machine Other Runner Fn) (timeout : Int) (point : machine.pc = .waiting timeout) :
      Step machine .wake { machine with pc := .test }
  | push (machine : Machine Other Runner Fn) (event : Other) (unlocked : machine.pc.holdsMutex = false) :
      Step machine (.thread (.push event))
        { machine with world := machine.world.postEvent (.other event), unnotified := machine.unnotified + 1 }
  | notifyPushed (machine : Machine Other Runner Fn) (pushed : machine.unnotified ≠ 0) :
      Step machine (.thread .notifyPushed) { machine with unnotified := machine.unnotified - 1 }.notified
  | notify (machine : Machine Other Runner Fn) : Step machine (.thread .notify) machine.notified
  | postTimeout (machine : Machine Other Runner Fn) (delay : Int) (oneShot : Bool) (id : Int) (timers : Timers)
      (posted : machine.world.timers.postNew machine.world.clock delay oneShot = some (id, timers)) :
      Step machine (.thread (.postTimeout delay oneShot))
        { machine with world := { machine.world with timers := timers } }
  | cancelEvent (machine : Machine Other Runner Fn) (id : Int) :
      Step machine (.thread (.cancelEvent id))
        { machine with world := { machine.world with timers := (machine.world.timers.cancelEvent id).2 } }
  | addLoopRunner (machine : Machine Other Runner Fn) (runner : Runner) (priority : Int)
      (unlocked : machine.pc.holdsMutex = false) :
      Step machine (.thread (.addLoopRunner runner priority))
        { machine with world := machine.world.addLoopRunner (.other runner) priority }
  | terminate (machine : Machine Other Runner Fn) :
      Step machine (.thread .terminate) { machine with world := machine.world.terminate }

variable {machine next : Machine Other Runner Fn} {label : Label Other Runner Fn}

/-- The next statement of the loop thread takes only listed steps. -/
theorem nextStep_cases (taken : machine.nextStep = some next) : Step machine .next next := by
  unfold nextStep at taken
  simp only at taken
  split at taken
  case h_1 point => cases taken; exact .enter machine point
  case h_2 point =>
      split at taken
      case isTrue flag => cases taken; exact .leaveLoop machine point flag
      case isFalse flag => cases taken; exact .pass machine point (by simpa using flag)
  case h_3 timeout point => cases taken; exact .endRunners machine timeout point
  case h_4 node timeout point =>
      split at taken
      case h_1 runner => cases taken; exact .check machine node timeout point runner
      case h_2 other runner => cases taken; exact .callRunner machine node timeout other point runner
      case h_3 => cases taken
  case h_5 node timeout now sanity posting point =>
      cases taken
      exact .dispose machine node timeout now sanity posting point
  case h_6 node timeout now sanity point =>
      split at taken
      case h_1 posting timers first =>
          cases taken
          exact .take machine node timeout now sanity posting timers point first
      case h_2 first => cases taken; exact .takeNone machine node timeout now sanity point first
  case h_7 node timeout now point => cases taken; exact .checked machine node timeout now point
  case h_8 timeout point =>
      split at taken
      case h_1 queue => cases taken; exact .drainEmpty machine timeout point queue
      case h_2 event rest queue => cases taken; exact .drain machine timeout event rest point queue
  case h_9 timeout posting point =>
      split at taken
      case isTrue ready =>
          split at taken
          case h_1 function stored =>
              cases taken
              exact .call machine timeout posting function point ready.1 ready.2 stored
          case h_2 missing =>
              cases taken
              exact .callMissing machine timeout posting point ready.1 ready.2 missing
      case isFalse dead => cases taken; exact .skip machine timeout posting point dead
  case h_10 timeout posting success point =>
      simp only [World.settle, Option.map_map, Option.map_eq_some_iff] at taken
      obtain ⟨timers, settled, rfl⟩ := taken
      exact .settle machine timeout posting success timers point settled
  case h_11 timeout posting point => cases taken; exact .release machine timeout posting point
  case h_12 timeout point => cases taken; exact .lock machine timeout point
  case h_13 point => cases taken; exact .leave machine point
  all_goals cases taken

/-- The end of foreign code takes only listed steps. -/
theorem endStep_cases {exception : Option Bool} (taken : machine.endStep exception = some next) :
    Step machine (.ended exception) next := by
  unfold endStep at taken
  split at taken
  case h_1 node timeout point => cases taken; exact .runnerThrew machine node timeout point
  case h_2 timeout event point => cases taken; exact .applied machine timeout event none point (by simp)
  case h_3 timeout event point => cases taken; exact .applied machine timeout event (some true) point (by simp)
  case h_4 timeout event point => cases taken; exact .applyThrew machine timeout event point
  case h_5 timeout posting point => cases taken; exact .threw machine timeout posting point
  case h_6 timeout posting point => cases taken; exact .rethrew machine timeout posting point
  case h_7 timeout event point => cases taken; exact .released machine timeout event none point (by simp)
  case h_8 timeout event point => cases taken; exact .released machine timeout event (some true) point (by simp)
  case h_9 timeout event point => cases taken; exact .releaseThrew machine timeout event point
  case h_10 => cases taken

/-- Another thread takes only listed steps. -/
theorem signalStep_cases {signal : Signal Other Runner} (taken : machine.signalStep signal = some next) :
    Step machine (.thread signal) next := by
  cases signal with
  | push event =>
      simp only [signalStep, Option.ite_none_left_eq_some, Option.some.injEq] at taken
      obtain ⟨unlocked, rfl⟩ := taken
      exact .push machine event (by simpa using unlocked)
  | notifyPushed =>
      simp only [signalStep, Option.ite_none_left_eq_some, Option.some.injEq] at taken
      obtain ⟨pushed, rfl⟩ := taken
      exact .notifyPushed machine pushed
  | notify => cases taken; exact .notify machine
  | postTimeout delay oneShot =>
      simp only [signalStep, World.postTimeout, Option.map_map, Option.map_eq_some_iff] at taken
      obtain ⟨⟨id, timers⟩, posted, rfl⟩ := taken
      exact .postTimeout machine delay oneShot id timers posted
  | cancelEvent id => cases taken; exact .cancelEvent machine id
  | addLoopRunner runner priority =>
      simp only [signalStep, Option.ite_none_left_eq_some, Option.some.injEq] at taken
      obtain ⟨unlocked, rfl⟩ := taken
      exact .addLoopRunner machine runner priority (by simpa using unlocked)
  | terminate => cases taken; exact .terminate machine

/-- The executable step takes only listed steps. -/
theorem step_cases (taken : machine.step label = some next) : Step machine label next := by
  cases label with
  | tick elapsed => cases taken; exact .tick machine elapsed
  | run =>
      simp only [step] at taken
      split at taken
      case h_1 point => cases taken; exact .run machine point
      case h_2 => cases taken
  | next => exact nextStep_cases taken
  | script call =>
      simp only [step, Option.ite_none_right_eq_some, Option.map_eq_some_iff] at taken
      obtain ⟨point, world, performed, rfl⟩ := taken
      exact .script machine call world point performed
  | pcall success =>
      simp only [step] at taken
      split at taken
      case h_1 timeout posting point => cases taken; exact .pcall machine timeout posting success point
      case h_2 => cases taken
  | looped newtimeout =>
      simp only [step] at taken
      split at taken
      case h_1 node timeout point => cases taken; exact .looped machine node timeout newtimeout point
      case h_2 => cases taken
  | ended exception => exact endStep_cases taken
  | wake =>
      simp only [step] at taken
      split at taken
      case h_1 timeout point => cases taken; exact .wake machine timeout point
      case h_2 => cases taken
  | thread signal => exact signalStep_cases taken

/-- This relation lists everything that one script call can do to the world. -/
inductive Performed : World Other Runner Fn → Call Other Runner Fn → World Other Runner Fn → Prop where
  | rejected (world : World Other Runner Fn) (args : List (JsValue Fn)) (oneShot : Bool) (error : ScriptError)
      (checked : setTimeoutArguments args = .error error) : Performed world (.setTimeout args oneShot) world
  | setTimeout (world : World Other Runner Fn) (args : List (JsValue Fn)) (oneShot : Bool) (function : Fn)
      (delay id : Int) (timers : Timers) (checked : setTimeoutArguments args = .ok (function, delay))
      (posted : world.timers.postNew world.clock delay oneShot = some (id, timers)) :
      Performed world (.setTimeout args oneShot)
        { world with timers := timers, refs := putRef world.refs id function }
  | clearRejected (world : World Other Runner Fn) (args : List (JsValue Fn)) (error : ScriptError)
      (checked : requireInt args 0 = .error error) : Performed world (.clearTimeout args) world
  | clearTimeout (world : World Other Runner Fn) (args : List (JsValue Fn)) (id : Int)
      (checked : requireInt args 0 = .ok id) :
      Performed world (.clearTimeout args) { world with timers := (world.timers.cancelEvent id).2 }
  | postEvent (world : World Other Runner Fn) (event : Other) :
      Performed world (.postEvent event) (world.postEvent (.other event))
  | addLoopRunner (world : World Other Runner Fn) (runner : Runner) (priority : Int) :
      Performed world (.addLoopRunner runner priority) (world.addLoopRunner (.other runner) priority)
  | terminate (world : World Other Runner Fn) : Performed world .terminate world.terminate

theorem perform_cases {world after : World Other Runner Fn} {call : Call Other Runner Fn}
    (performed : world.perform call = some after) : Performed world call after := by
  cases call with
  | setTimeout args oneShot =>
      simp only [World.perform, World.setTimeoutBase] at performed
      split at performed
      case h_1 error checked => cases performed; exact .rejected world args oneShot error checked
      case h_2 function delay checked =>
          simp only [World.postTimeout, Option.map_map, Option.map_eq_some_iff] at performed
          obtain ⟨⟨id, timers⟩, posted, rfl⟩ := performed
          exact .setTimeout world args oneShot function delay id timers checked posted
  | clearTimeout args =>
      simp only [World.perform, World.clearTimeoutBase, World.cancelEvent] at performed
      split at performed
      case h_1 error checked => cases performed; exact .clearRejected world args error checked
      case h_2 id checked => cases performed; exact .clearTimeout world args id checked
  | postEvent event => cases performed; exact .postEvent world event
  | addLoopRunner runner priority => cases performed; exact .addLoopRunner world runner priority
  | terminate => cases performed; exact .terminate world

end Dtel.Machine
