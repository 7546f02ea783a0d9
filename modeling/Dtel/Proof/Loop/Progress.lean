import Mathlib.Algebra.GroupWithZero.Nat
import Dtel.Proof.Loop.Runners
import Dtel.Proof.Timer.Ids

namespace Dtel

variable {Other Runner Fn : Type}

/-- `run` is active and does not wait. -/
def Pc.busy : Pc Other → Bool
  | .outside | .waiting _ => false
  | _ => true

/-- The range loop stands at this node. -/
def Pc.node : Pc Other → Option Nat
  | .runners place _ => place
  | .looped node _ | .checking node .. => some node
  | _ => none

/-- The loop thread executes at most this many statements for a runner. The timer runner queues one timer in each of
its iterations at most, and the drain loop has six statements for an event. -/
def LoopRunner.work : LoopRunner Runner → Nat
  | .settimeout => 8 * maxExpirys + 2
  | .other _ => 2

/-- The loop thread executes a statement, or the code that it runs ends. -/
def Label.work : Label Other Runner Fn → Nat
  | .next | .pcall _ | .looped _ | .ended _ => 1
  | _ => 0

/-- A posted event and an added runner bring this work. -/
def Label.cost : Label Other Runner Fn → Nat
  | .script (.postEvent _) | .thread (.push _) => 6
  | .script (.addLoopRunner ..) | .thread (.addLoopRunner ..) => 2
  | _ => 0

/-- A statement brings no work. -/
theorem Label.cost_of_work {label : Label Other Runner Fn} (works : label.work = 1) : label.cost = 0 := by
  cases label with
  | next | pcall | looped | ended => rfl
  | _ => cases works

/-- A timer with an id can be settled after its call. -/
theorem Timers.settle_isSome {timers : Timers} {now : Int} {event : Nat} (identified : 0 < (timers.object event).id) :
    (timers.settle now event).isSome := by
  unfold settle
  split
  · rfl
  · split
    · rfl
    · rw [postEvent_again identified]
      rfl

/-- The work for the runners of a list. -/
def runnersWork (list : List (RunnerNode Runner)) : Nat := (list.map fun entry => entry.runner.work).sum

theorem runnersWork_cons (entry : RunnerNode Runner) (list : List (RunnerNode Runner)) :
    runnersWork (entry :: list) = entry.runner.work + runnersWork list := rfl

theorem runnersWork_perm {list other : List (RunnerNode Runner)} (same : list.Perm other) :
    runnersWork list = runnersWork other := by
  unfold runnersWork
  exact (same.map _).sum_nat

namespace World

variable {world : World Other Runner Fn} {front todo : List (RunnerNode Runner)} {entry : RunnerNode Runner}
  {place : Option Nat} {node : Nat}

/-- The work of the range loop from a node on. -/
def workFrom (world : World Other Runner Fn) : Option Nat → Nat
  | some node => runnersWork (Walk.rest RunnerNode.address world.looprunners node)
  | none => 0

/-- The work that a pass has after the range loop, until it waits. -/
def drainWork (world : World Other Runner Fn) : Nat := 6 * world.queue.length + 2

theorem workFrom_first (world : World Other Runner Fn) :
    world.workFrom world.firstNode = runnersWork world.looprunners := by
  cases first : world.looprunners.head? with
  | none =>
      rw [List.head?_eq_none_iff] at first
      simp [firstNode, first, workFrom, runnersWork]
  | some entry =>
      simp only [firstNode, first, Option.map_some, workFrom]
      rw [Walk.rest_first first]

/-- The next node has the work of those behind the present one. -/
theorem Rostered.workFrom_next (rostered : world.Rostered) (node : Nat) :
    world.workFrom (world.nextNode node) = runnersWork (world.behind node) := by
  have next : world.nextNode node = (world.behind node).head?.map RunnerNode.address := rfl
  rw [next]
  cases first : (world.behind node).head? with
  | none =>
      rw [List.head?_eq_none_iff] at first
      simp [first, workFrom, runnersWork]
  | some entry =>
      simp only [Option.map_some, workFrom]
      rw [Walk.rest_next rostered.unique first]
      rfl

/-- The runner at the node is the first of the rest. -/
theorem workFrom_runner {runner : LoopRunner Runner} (found : world.runnerAt node = some runner) :
    world.workFrom (some node) = runner.work + runnersWork (world.behind node) := by
  rw [runnerAt, Walk.find_eq_head] at found
  obtain ⟨entry, first, same⟩ := Option.map_eq_some_iff.mp found
  obtain ⟨tail, rest⟩ := List.head?_eq_some_iff.mp first
  simp [workFrom, behind, rest, runnersWork_cons, same]

theorem runnersWork_add (world : World Other Runner Fn) (runner : LoopRunner Runner) (priority : Int) :
    runnersWork (world.addLoopRunner runner priority).looprunners = runnersWork world.looprunners + runner.work := by
  have sorted := StableSort.sortBy_perm RunnerNode.priority (world.looprunners ++ [⟨priority, runner, world.nodes⟩])
  rw [addLoopRunner, runnersWork_perm sorted]
  simp [runnersWork]

/-- A runner that is added behind a node adds its work there, and one that is added before it does not. -/
theorem Rostered.behind_add_work (rostered : world.Rostered) (runner : LoopRunner Runner) (priority : Int)
    (member : entry ∈ world.looprunners) :
    runnersWork ((world.addLoopRunner runner priority).behind entry.address) ≤
      runnersWork (world.behind entry.address) + runner.work := by
  obtain ⟨front, todo, list⟩ := List.append_of_mem member
  have unique := rostered.unique
  have sorted := rostered.sorted
  have later := (rostered.add runner priority).unique
  have added : (world.addLoopRunner runner priority).looprunners =
    StableSort.sortBy RunnerNode.priority (world.looprunners ++ [⟨priority, runner, world.nodes⟩]) := rfl
  rw [behind, behind]
  rw [added] at later ⊢
  rw [list] at unique sorted later ⊢
  rw [Walk.rest_append unique, List.tail_cons]
  by_cases before : priority < entry.priority
  · rw [StableSort.sortBy_concat_front sorted before] at later ⊢
    rw [Walk.rest_append later, List.tail_cons]
    exact Nat.le_add_right _ _
  · rw [StableSort.sortBy_concat_back sorted (not_lt.mp before), List.append_assoc, List.singleton_append] at later ⊢
    rw [Walk.rest_append later, List.tail_cons, runnersWork_perm (StableSort.sortBy_perm _ _)]
    simp [runnersWork]

end World

namespace Machine

variable {machine next final : Machine Other Runner Fn} {label : Label Other Runner Fn}
  {runners : List (Runner × Int)} {labels before : List (Label Other Runner Fn)}

/-- The statements that the loop thread executes at most until it waits or leaves `run`. -/
def workLeft (machine : Machine Other Runner Fn) : Nat :=
  let world := machine.world
  match machine.pc with
  | .outside | .waiting _ => 0
  | .locking _ | .leaving => 1
  | .entered => runnersWork world.looprunners + world.drainWork + 3
  | .test => runnersWork world.looprunners + world.drainWork + 2
  | .runners place _ => world.workFrom place + world.drainWork + 1
  | .looped node _ => runnersWork (world.behind node) + world.drainWork + 2
  | .checking node _ _ sanity taken =>
      8 * sanity + 7 * taken.toList.length + runnersWork (world.behind node) + world.drainWork + 2
  | .draining _ => world.drainWork
  | .applying .. => world.drainWork + 5
  | .calling .. => world.drainWork + 4
  | .called .. => world.drainWork + 3
  | .throwing .. => world.drainWork + 2
  | .releasing .. => world.drainWork + 1

/-- The range loop stands at a node of the list. -/
structure Placed (machine : Machine Other Runner Fn) : Prop where
  rostered : machine.world.Rostered
  there : ∀ node, machine.pc.node = some node → ∃ entry ∈ machine.world.looprunners, entry.address = node

/-- A node that the range loop steps to is in the list. -/
theorem mem_of_address {world : World Other Runner Fn} {list : List (RunnerNode Runner)} {node : Nat}
    (first : list.head?.map RunnerNode.address = some node) (part : list ⊆ world.looprunners) :
    ∃ entry ∈ world.looprunners, entry.address = node := by
  obtain ⟨entry, head, same⟩ := Option.map_eq_some_iff.mp first
  exact ⟨entry, part (List.mem_of_mem_head? head), same⟩

/-- The range loop stays in the list when runners are added. -/
theorem Placed.add (placed : machine.Placed) (runner : LoopRunner Runner) (priority : Int) :
    ({ machine with world := machine.world.addLoopRunner runner priority } : Machine Other Runner Fn).Placed := by
  refine ⟨placed.rostered.add runner priority, fun node here => ?_⟩
  obtain ⟨entry, member, same⟩ := placed.there node here
  exact ⟨entry, (placed.rostered.sublist_add runner priority).subset member, same⟩

/-- A step that leaves the runners alone keeps the place, or the new one is in the list. -/
theorem Placed.keep (placed : machine.Placed) (runners : next.world.looprunners = machine.world.looprunners)
    (nodes : next.world.nodes = machine.world.nodes)
    (there : ∀ node, next.pc.node = some node → machine.pc.node = some node ∨
      ∃ entry ∈ machine.world.looprunners, entry.address = node) : next.Placed := by
  obtain ⟨sorted, unique, bounded⟩ := placed.rostered
  refine ⟨⟨runners ▸ sorted, runners ▸ unique, by rw [runners, nodes]; exact bounded⟩, fun node here => ?_⟩
  rw [runners]
  exact (there node here).elim (placed.there node) id

theorem notified_node {node : Nat} (here : machine.notified.pc.node = some node) : machine.pc.node = some node := by
  unfold notified at here
  split at here
  case h_1 => cases here
  case h_2 => exact here

/-- Each step keeps the place of the range loop in the list. -/
theorem Placed.step (placed : machine.Placed) (taken : machine.step label = some next) : next.Placed := by
  have behind (node : Nat) : machine.world.behind node ⊆ machine.world.looprunners :=
    fun _ member => Walk.rest_subset node (List.mem_of_mem_tail member)
  cases step_cases taken with
  | pass point flag => exact placed.keep rfl rfl fun node here => Or.inr (mem_of_address here fun _ member => member)
  | checked node timeout now point =>
      exact placed.keep rfl rfl fun later here => Or.inr (mem_of_address here (behind node))
  | looped node timeout newtimeout point =>
      exact placed.keep rfl rfl fun later here => Or.inr (mem_of_address here (behind node))
  | check node timeout point runner | callRunner node timeout other point runner =>
      exact placed.keep rfl rfl fun later here => Or.inl (by simpa [point, Pc.node] using here)
  | take node timeout now sanity posting timers point first =>
      exact placed.keep rfl rfl fun later here => Or.inl (by simpa [point, Pc.node] using here)
  | takeNone node timeout now sanity point first =>
      exact placed.keep rfl rfl fun later here => Or.inl (by simpa [point, Pc.node] using here)
  | dispose node timeout now sanity posting point =>
      have runners : (machine.world.dispose posting).looprunners = machine.world.looprunners := by
        unfold World.dispose
        split <;> rfl
      have nodes : (machine.world.dispose posting).nodes = machine.world.nodes := by
        unfold World.dispose
        split <;> rfl
      exact placed.keep runners nodes fun later here => Or.inl (by simpa [point, Pc.node] using here)
  | settle timeout posting success timers point settled =>
      exact placed.keep rfl rfl fun later here => by cases success <;> cases here
  | script call world scripting performed =>
      cases perform_cases performed with
      | addLoopRunner runner priority => exact placed.add _ priority
      | _ => exact placed.keep rfl rfl fun _ here => Or.inl here
  | addLoopRunner runner priority => exact placed.add _ priority
  | notifyPushed pushed =>
      refine placed.keep ?_ ?_ fun later here => ?_
      · rw [notified_world]
      · rw [notified_world]
      · have before : ({ machine with unnotified := machine.unnotified - 1 } :
          Machine Other Runner Fn).pc.node = some later := notified_node here
        exact Or.inl before
  | notify =>
      refine placed.keep ?_ ?_ fun later here => Or.inl (notified_node here)
      · rw [notified_world]
      · rw [notified_world]
  | tick | push | postTimeout | cancelEvent | terminate => exact placed.keep rfl rfl fun _ here => Or.inl here
  | _ => exact placed.keep rfl rfl fun _ here => nomatch here

/-- The work depends on the point of the loop thread, the queue and the runners. -/
theorem workLeft_congr (pc : next.pc = machine.pc) (queue : next.world.queue = machine.world.queue)
    (runners : next.world.looprunners = machine.world.looprunners) : next.workLeft = machine.workLeft := by
  have range (place : Option Nat) : next.world.workFrom place = machine.world.workFrom place := by
    cases place with
    | none => rfl
    | some node => simp only [World.workFrom, runners]
  simp only [workLeft, World.drainWork, World.behind, pc, queue, runners, range]

/-- A posted event brings six statements at most. -/
theorem workLeft_post (event : Event Other) (unnotified : Nat) :
    (⟨machine.world.postEvent event, machine.pc, unnotified⟩ : Machine Other Runner Fn).workLeft ≤
      machine.workLeft + 6 := by
  have drain : (machine.world.postEvent event).drainWork = machine.world.drainWork + 6 := by
    simp only [World.drainWork, World.postEvent, List.length_append, List.length_singleton]
    omega
  have range (place : Option Nat) : (machine.world.postEvent event).workFrom place = machine.world.workFrom place := by
    cases place <;> rfl
  have behind (node : Nat) : (machine.world.postEvent event).behind node = machine.world.behind node := rfl
  have runners : (machine.world.postEvent event).looprunners = machine.world.looprunners := rfl
  simp only [workLeft, drain, range, behind, runners]
  split <;> omega

/-- An added runner brings its work at most. No runner is added while the range loop steps. -/
theorem Placed.workLeft_add (placed : machine.Placed) (runner : LoopRunner Runner) (priority : Int)
    (still : ∀ place timeout, machine.pc ≠ .runners place timeout) :
    ({ machine with world := machine.world.addLoopRunner runner priority } : Machine Other Runner Fn).workLeft ≤
      machine.workLeft + runner.work := by
  have drain : (machine.world.addLoopRunner runner priority).drainWork = machine.world.drainWork := rfl
  have all := World.runnersWork_add machine.world runner priority
  have behind (node : Nat) (here : machine.pc.node = some node) :
      runnersWork ((machine.world.addLoopRunner runner priority).behind node) ≤
        runnersWork (machine.world.behind node) + runner.work := by
    obtain ⟨entry, member, same⟩ := placed.there node here
    exact same ▸ placed.rostered.behind_add_work runner priority member
  cases point : machine.pc with
  | runners place timeout => exact absurd point (still place timeout)
  | looped node timeout =>
      have here := behind node (by rw [point]; rfl)
      simp only [workLeft, point, drain]
      omega
  | checking node timeout now sanity taken =>
      have here := behind node (by rw [point]; rfl)
      simp only [workLeft, point, drain]
      omega
  | _ =>
      simp only [workLeft, point, drain, all]
      omega

/-- Only a waiting loop hears a notification. -/
theorem notified_busy (busy : machine.pc.busy = true) : machine.notified = machine := by
  unfold notified
  split
  case h_1 timeout point => simp [point, Pc.busy] at busy
  case h_2 => rfl

/-- Each step of a busy loop pays for its statement from the work that is left. -/
theorem Placed.pays (placed : machine.Placed) (busy : machine.pc.busy = true) (taken : machine.step label = some next) :
    next.workLeft + label.work ≤ machine.workLeft + label.cost := by
  have drain (timers : Timers) :
      ({ machine.world with timers := timers } : World Other Runner Fn).drainWork = machine.world.drainWork := rfl
  cases step_cases taken with
  | tick elapsed => exact (workLeft_congr rfl rfl rfl).le
  | postTimeout delay oneShot id timers posted => exact (workLeft_congr rfl rfl rfl).le
  | cancelEvent id => exact (workLeft_congr rfl rfl rfl).le
  | terminate => exact (workLeft_congr rfl rfl rfl).le
  | push event unlocked => exact workLeft_post (.other event) _
  | addLoopRunner runner priority unlocked =>
      exact placed.workLeft_add (.other runner) priority fun place timeout point => by
        simp [point, Pc.holdsMutex] at unlocked
  | script call world scripting performed =>
      cases perform_cases performed with
      | postEvent event => exact workLeft_post (.other event) _
      | addLoopRunner runner priority =>
          exact placed.workLeft_add (.other runner) priority fun place timeout point => by
            simp [point, Pc.scripting] at scripting
      | _ => exact (workLeft_congr rfl rfl rfl).le
  | notifyPushed pushed =>
      have awake : { machine with unnotified := machine.unnotified - 1 }.notified =
        { machine with unnotified := machine.unnotified - 1 } := notified_busy busy
      rw [awake]
      exact (workLeft_congr rfl rfl rfl).le
  | notify =>
      rw [notified_busy busy]
      exact Nat.le_refl _
  | run point => simp [point, Pc.busy] at busy
  | wake timeout point => simp [point, Pc.busy] at busy
  | enter point =>
      have drain : ({ machine.world with terminated := false } : World Other Runner Fn).drainWork =
        machine.world.drainWork := rfl
      simp only [workLeft, point, drain, Label.work, Label.cost]
      omega
  | pass point flag =>
      have first := machine.world.workFrom_first
      simp only [workLeft, point, first, Label.work, Label.cost]
      omega
  | checked node timeout now point =>
      have later := placed.rostered.workFrom_next node
      simp only [workLeft, point, later, Label.work, Label.cost, List.length_nil, Option.toList_none]
      omega
  | looped node timeout newtimeout point =>
      have later := placed.rostered.workFrom_next node
      simp only [workLeft, point, later, Label.work, Label.cost]
      omega
  | check node timeout point runner =>
      have here := World.workFrom_runner runner
      simp only [workLeft, point, here, LoopRunner.work, Label.work, Label.cost, Option.toList_none, List.length_nil]
      omega
  | callRunner node timeout other point runner =>
      have here := World.workFrom_runner runner
      simp only [workLeft, point, here, LoopRunner.work, Label.work, Label.cost]
      omega
  | drain timeout event rest point queue =>
      simp only [workLeft, point, World.drainWork, queue, List.length_cons, Label.work, Label.cost]
      omega
  | dispose node timeout now sanity posting point =>
      have behind : (machine.world.dispose posting).behind node = machine.world.behind node := by
        unfold World.dispose
        split <;> rfl
      have queued : (machine.world.dispose posting).drainWork ≤ machine.world.drainWork + 6 := by
        unfold World.dispose World.drainWork World.postEvent World.release
        split <;> simp; omega
      simp only [workLeft, point, behind, Option.toList_some, Option.toList_none, List.length_singleton,
        List.length_nil, Label.work, Label.cost]
      omega
  | take node timeout now sanity posting timers point first =>
      have behind : ({ machine.world with timers := timers } : World Other Runner Fn).behind node =
        machine.world.behind node := rfl
      simp only [workLeft, point, drain, behind, Option.toList_some, Option.toList_none, List.length_singleton,
        List.length_nil, Label.work, Label.cost]
      omega
  | settle timeout posting success timers point settled =>
      cases success with
      | true =>
          simp only [workLeft, point, drain, Label.work, Label.cost, if_true]
          omega
      | false =>
          simp only [workLeft, point, drain, Label.work, Label.cost, Bool.false_eq_true, if_false]
          omega
  | release timeout posting point =>
      have drain : (machine.world.release posting.event).drainWork = machine.world.drainWork := rfl
      simp only [workLeft, point, drain, Label.work, Label.cost]
      omega
  | leaveLoop point | endRunners _ point | takeNone _ _ _ _ point | drainEmpty _ point | call _ _ _ point
  | callMissing _ _ point | skip _ _ point | lock _ point | leave point | pcall _ _ _ point | runnerThrew _ _ point
  | applied _ _ _ point | applyThrew _ _ point | threw _ _ point | rethrew _ _ point | released _ _ _ point
  | releaseThrew _ _ point =>
      simp only [workLeft, point, World.workFrom, World.drainWork, Option.toList_none, List.length_nil, Label.work,
        Label.cost]
      omega

/-- A busy loop thread has a next statement, or the code that it runs can end without leaving `run`. -/
theorem Placed.advances (placed : machine.Placed) (sound : machine.view.Sound) (busy : machine.pc.busy = true) :
    ∃ label next, (label.work = 1 ∧ label ≠ .ended (some false)) ∧ machine.step label = some next := by
  have enabled (label : Label Other Runner Fn) (works : label.work = 1 ∧ label ≠ .ended (some false))
      (can : (machine.step label).isSome) :
      ∃ label next, (label.work = 1 ∧ label ≠ .ended (some false)) ∧ machine.step label = some next := by
    obtain ⟨next, taken⟩ := Option.isSome_iff_exists.mp can
    exact ⟨label, next, works, taken⟩
  have statement (can : machine.nextStep.isSome) := enabled .next ⟨rfl, by simp⟩ can
  cases point : machine.pc with
  | outside | waiting => simp [point, Pc.busy] at busy
  | entered | locking | leaving => exact statement (by simp [nextStep, point])
  | test =>
      apply statement
      cases flag : machine.world.terminated <;> simp [nextStep, point, flag]
  | runners place timeout =>
      cases place with
      | none => exact statement (by simp [nextStep, point])
      | some node =>
          obtain ⟨entry, member, same⟩ := placed.there node (by rw [point]; rfl)
          obtain ⟨found, first⟩ : ∃ found, machine.world.entryAt node = some found :=
            Option.isSome_iff_exists.mp (List.find?_isSome.mpr ⟨entry, member, by simp [same]⟩)
          have runner : machine.world.runnerAt node = some found.runner := by
            rw [World.runnerAt]
            exact Option.map_eq_some_iff.mpr ⟨found, first, rfl⟩
          apply statement
          cases kind : found.runner <;> simp [nextStep, point, runner, kind]
  | looped node timeout => exact enabled (.looped none) ⟨rfl, by simp⟩ (by simp [Machine.step, point])
  | checking node timeout now sanity taken =>
      apply statement
      cases taken with
      | some posting => simp [nextStep, point]
      | none =>
          cases sanity with
          | zero => simp [nextStep, point]
          | succ sanity => cases first : machine.world.timers.takeFirst now <;> simp [nextStep, point, first]
  | draining timeout =>
      apply statement
      cases queue : machine.world.queue <;> simp [nextStep, point, queue]
  | applying timeout event =>
      cases event with
      | other event => exact enabled (.ended none) ⟨rfl, by simp⟩ (by simp [Machine.step, endStep, point])
      | timeout posting =>
          apply statement
          simp only [nextStep, point]
          split
          · split <;> rfl
          · rfl
  | calling timeout posting => exact enabled (.pcall true) ⟨rfl, by simp⟩ (by simp [Machine.step, point])
  | called timeout posting success =>
      have known : posting.event < machine.world.timers.fresh :=
        sound.activeKnown posting .called (by simp [view, Pc.active, point])
      have identified := (sound.identified posting.event known).1
      apply statement
      simp only [nextStep, point, Option.isSome_map, World.settle]
      exact Timers.settle_isSome identified
  | throwing timeout posting => exact enabled (.ended (some true)) ⟨rfl, by simp⟩ (by simp [Machine.step, endStep, point])
  | releasing timeout event =>
      cases event with
      | other event => exact enabled (.ended none) ⟨rfl, by simp⟩ (by simp [Machine.step, endStep, point])
      | timeout posting => exact statement (by simp [nextStep, point])

theorem reachable_placed (reached : Execution.exec step (initial runners) before = some machine) : machine.Placed := by
  have start : (initial runners : Machine Other Runner Fn).Placed :=
    ⟨(initial_lined runners).rostered, fun node here => nomatch here⟩
  exact Execution.exec_invariant (fun _ _ _ holds taken => Placed.step holds taken) start reached

/-- The loop thread can go on: it stands at a node of the list, and the life of its timers is sound. -/
structure Ready (machine : Machine Other Runner Fn) : Prop where
  placed : machine.Placed
  timely : machine.Timely
  sound : machine.view.Sound

theorem Ready.step (ready : machine.Ready) (taken : machine.step label = some next) : next.Ready :=
  ⟨ready.placed.step taken, ready.timely.step taken, ready.sound.step (simulates ready.timely taken)⟩

theorem reachable_ready (reached : Execution.exec step (initial runners) before = some machine) : machine.Ready :=
  ⟨reachable_placed reached, (reachable_sound reached).1, (reachable_sound reached).2⟩

/-- The loop thread alone comes to its wait or leaves `run`, and keeps what its own steps keep. -/
theorem Ready.rests {kept : Machine Other Runner Fn → Prop} (ready : machine.Ready) (start : kept machine)
    (keeps : ∀ machine label next, kept machine → label.work = 1 ∧ label ≠ .ended (some false) →
      machine.step label = some next → kept next) :
    ∃ labels final, (∀ label ∈ labels, label.work = 1 ∧ label ≠ .ended (some false)) ∧
      labels.length ≤ machine.workLeft ∧ Execution.exec Machine.step machine labels = some final ∧
        kept final ∧ final.pc.busy = false := by
  have advances (machine : Machine Other Runner Fn) (holds : machine.Ready ∧ kept machine)
      (busy : machine.pc.busy = true) :
      ∃ label next, (label.work = 1 ∧ label ≠ .ended (some false)) ∧ machine.step label = some next ∧
        (next.Ready ∧ kept next) ∧ next.workLeft < machine.workLeft := by
    obtain ⟨ready, now⟩ := holds
    obtain ⟨label, next, works, taken⟩ := ready.placed.advances ready.sound busy
    have pays := ready.placed.pays busy taken
    rw [works.1, Label.cost_of_work works.1] at pays
    exact ⟨label, next, works, taken, ⟨ready.step taken, keeps machine label next now works taken⟩, pays⟩
  obtain ⟨labels, final, works, short, run, holds, rest⟩ := Execution.exec_rests advances ⟨ready, start⟩
  exact ⟨labels, final, works, short, run, holds.2, by simpa using rest⟩

/-- From any state of the loop on, the loop thread executes no more statements until it waits or leaves `run` than
its work and that of the events and runners which are added meanwhile. It is never stuck, so it always comes to its
wait or leaves `run`. An interval without a delay cannot keep it in its drain loop. -/
theorem pass_reaches_wait (reached : Execution.exec step (initial runners) before = some machine) :
    (∀ labels final, Execution.exec step machine labels = some final →
      Execution.Along step (fun machine _ => machine.pc.busy = true) machine labels →
        (labels.map Label.work).sum ≤ machine.workLeft + (labels.map Label.cost).sum) ∧
    (machine.pc.busy = true → ∃ label next, label.work = 1 ∧ machine.step label = some next) ∧
    ∃ labels final, (∀ label ∈ labels, label.work = 1) ∧ labels.length ≤ machine.workLeft ∧
      Execution.exec step machine labels = some final ∧ final.pc.busy = false := by
  have ready := reachable_ready reached
  refine ⟨fun labels final run busy => ?_, fun busy => ?_, ?_⟩
  · have guarded : Execution.Along step (fun machine _ => machine.Placed ∧ machine.pc.busy = true) machine labels :=
      Execution.Along.of_invariant (fun _ _ _ holds _ taken => Placed.step holds taken)
        (fun _ _ holds busy => ⟨holds, busy⟩) ready.placed busy
    have paid := Execution.exec_amortized (fun _ _ _ guard taken => Placed.pays guard.1 guard.2 taken) guarded run
    exact Nat.le_trans (Nat.le_add_left _ _) paid
  · obtain ⟨label, next, works, taken⟩ := ready.placed.advances ready.sound busy
    exact ⟨label, next, works.1, taken⟩
  · obtain ⟨labels, final, works, short, run, -, rest⟩ := ready.rests trivial fun _ _ _ _ _ _ => trivial
    exact ⟨labels, final, fun label member => (works label member).1, short, run, rest⟩

/-- At the start of a pass with one interval of no delay, 86 statements are left until the loop waits. -/
theorem pass_reaches_wait_here : ∃ machine : Machine Unit Unit Nat,
    Execution.exec step (initial []) [.set 7 0 false, .tick 1, .run, .next] = some machine ∧
      machine.world.timers.events ≠ [] ∧ ∃ labels final, labels.length ≤ 86 ∧
        Execution.exec step machine labels = some final ∧ final.pc.busy = false := by
  have starts : (Execution.exec step (initial [] : Machine Unit Unit Nat) [.set 7 0 false, .tick 1, .run, .next]).map
      (fun machine => (machine.workLeft, machine.world.timers.events != [])) = some (86, true) := by decide
  obtain ⟨machine, reached, seen⟩ := Option.map_eq_some_iff.mp starts
  simp only [Prod.mk.injEq, bne_iff_ne] at seen
  obtain ⟨left, listed⟩ := seen
  obtain ⟨labels, final, -, short, run, rest⟩ := (pass_reaches_wait reached).2.2
  exact ⟨machine, reached, listed, labels, final, left ▸ short, run, rest⟩

end Machine

end Dtel
