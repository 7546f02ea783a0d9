import Dtel.Library.Walk
import Dtel.Proof.Timer.Waiting

namespace Dtel

variable {Other Runner Fn : Type}

/-- Only `ST_LoopRunner` answers for the timers. -/
def LoopRunner.isTimer : LoopRunner Runner → Bool
  | .settimeout => true
  | .other _ => false

namespace World

variable {world : World Other Runner Fn} {node : Nat}

/-- These nodes come after the present one. -/
def behind (world : World Other Runner Fn) (node : Nat) : List (RunnerNode Runner) :=
  (Walk.rest RunnerNode.address world.looprunners node).tail

/-- The range loop stands at the timer runner or before it. -/
def awaits (world : World Other Runner Fn) : Option Nat → Bool
  | some node => (Walk.rest RunnerNode.address world.looprunners node).any (·.runner.isTimer)
  | none => false

/-- The runner list is sorted, and no two nodes share an address. -/
structure Rostered (world : World Other Runner Fn) : Prop where
  sorted : StableSort.Sorted RunnerNode.priority world.looprunners
  unique : (world.looprunners.map RunnerNode.address).Nodup
  bounded : ∀ entry ∈ world.looprunners, entry.address < world.nodes

/-- The timer runner is registered. -/
def Registered (world : World Other Runner Fn) : Prop := world.looprunners.any (·.runner.isTimer)

/-- A new runner gets a new node at its place in the list. -/
theorem Rostered.add (rostered : world.Rostered) (runner : LoopRunner Runner) (priority : Int) :
    (world.addLoopRunner runner priority).Rostered where
  sorted := StableSort.sorted_sortBy _ _
  unique := by
    have members := (StableSort.sortBy_perm RunnerNode.priority
      (world.looprunners ++ [⟨priority, runner, world.nodes⟩])).map RunnerNode.address
    show ((StableSort.sortBy RunnerNode.priority _).map RunnerNode.address).Nodup
    rw [members.nodup_iff, List.map_append, List.nodup_append]
    refine ⟨rostered.unique, by simp, ?_⟩
    intro address member other new
    obtain ⟨entry, inside, rfl⟩ := List.mem_map.mp member
    have below := rostered.bounded entry inside
    simp only [List.map_cons, List.map_nil, List.mem_singleton] at new
    omega
  bounded := by
    intro entry member
    show entry.address < world.nodes + 1
    rcases List.mem_append.mp (StableSort.mem_sortBy.mp member) with old | new
    · exact Nat.lt_succ_of_lt (rostered.bounded entry old)
    · rw [List.mem_singleton.mp new]
      exact Nat.lt_succ_self _

/-- The old nodes keep their order when a runner is added. -/
theorem Rostered.sublist_add (rostered : world.Rostered) (runner : LoopRunner Runner) (priority : Int) :
    world.looprunners.Sublist (world.addLoopRunner runner priority).looprunners :=
  StableSort.sublist_sortBy_concat rostered.sorted

theorem Rostered.registered_add (rostered : world.Rostered) (registered : world.Registered)
    (runner : LoopRunner Runner) (priority : Int) : (world.addLoopRunner runner priority).Registered := by
  obtain ⟨entry, member, timer⟩ := List.any_eq_true.mp registered
  exact List.any_eq_true.mpr ⟨entry, (rostered.sublist_add runner priority).subset member, timer⟩

/-- A timer runner that the range loop awaits is still awaited when a runner is added. -/
theorem Rostered.awaits_add (rostered : world.Rostered) (runner : LoopRunner Runner) (priority : Int)
    {place : Option Nat} (later : world.awaits place = true) :
    (world.addLoopRunner runner priority).awaits place = true := by
  cases place with
  | none => cases later
  | some node =>
      obtain ⟨entry, member, timer⟩ := List.any_eq_true.mp later
      have inside := (Walk.rest_sublist (rostered.sublist_add runner priority) node).subset member
      exact List.any_eq_true.mpr ⟨entry, inside, timer⟩

/-- A timer runner that comes later still does when a runner is added. -/
theorem Rostered.behind_add (rostered : world.Rostered) (runner : LoopRunner Runner) (priority : Int)
    (later : (world.behind node).any (·.runner.isTimer) = true) :
    ((world.addLoopRunner runner priority).behind node).any (·.runner.isTimer) = true := by
  obtain ⟨entry, member, timer⟩ := List.any_eq_true.mp later
  have part : (world.behind node).Sublist ((world.addLoopRunner runner priority).behind node) :=
    (Walk.rest_sublist (rostered.sublist_add runner priority) node).tail
  exact List.any_eq_true.mpr ⟨entry, part.subset member, timer⟩

/-- The first pass of the range loop meets the timer runner. -/
theorem awaits_first (registered : world.Registered) : world.awaits world.firstNode = true := by
  cases first : world.looprunners.head? with
  | none =>
      rw [Registered, List.head?_eq_none_iff.mp first] at registered
      cases registered
  | some entry =>
      simp only [firstNode, first, Option.map_some, awaits]
      rw [Walk.rest_first first]
      exact registered

/-- The range loop awaits the timer runner at the next node when it comes behind the present one. -/
theorem Rostered.awaits_next (rostered : world.Rostered) (node : Nat) :
    world.awaits (world.nextNode node) = (world.behind node).any (·.runner.isTimer) := by
  have next : world.nextNode node = (world.behind node).head?.map RunnerNode.address := rfl
  rw [next]
  cases first : (world.behind node).head? with
  | none =>
      rw [List.head?_eq_none_iff.mp first]
      rfl
  | some entry =>
      simp only [Option.map_some, awaits]
      rw [Walk.rest_next rostered.unique first]
      rfl

/-- Another runner at the node is not the timer runner that the range loop awaits. -/
theorem awaits_behind {other : Runner} (runner : world.runnerAt node = some (.other other)) :
    world.awaits (some node) = (world.behind node).any (·.runner.isTimer) := by
  rw [runnerAt, Walk.find_eq_head] at runner
  obtain ⟨entry, first, same⟩ := Option.map_eq_some_iff.mp runner
  obtain ⟨tail, rest⟩ := List.head?_eq_some_iff.mp first
  simp [awaits, behind, rest, same, LoopRunner.isTimer]

end World

namespace Machine

variable {machine next : Machine Other Runner Fn} {label : Label Other Runner Fn}
  {runners : List (Runner × Int)} {labels : List (Label Other Runner Fn)} {timeout : Int}

/-- In this pass the timer runner has answered, and the loop will sleep no longer than until this time. -/
def answered (machine : Machine Other Runner Fn) : Option Int :=
  match machine.pc with
  | .runners node timeout => if machine.world.awaits node then none else some timeout
  | .looped node timeout => if (machine.world.behind node).any (·.runner.isTimer) then none else some timeout
  | .draining timeout | .applying timeout _ | .calling timeout _ | .called timeout _ _ | .throwing timeout _
  | .releasing timeout _ | .locking timeout => some timeout
  | _ => none

/-- The step calls `wait_until` with this time. -/
def sleeps (machine : Machine Other Runner Fn) : Label Other Runner Fn → Option Int
  | .next =>
      match machine.pc with
      | .locking timeout => some timeout
      | _ => none
  | _ => none

/-- A timer that is posted after the timer runner has answered is not due before the loop wakes up. -/
def InTime (machine : Machine Other Runner Fn) (label : Label Other Runner Fn) : Prop :=
  ∀ timeout, machine.answered = some timeout → ∀ entry ∈ machine.posts label, timeout ≤ entry.1.deadline

instance (machine : Machine Other Runner Fn) (label : Label Other Runner Fn) : Decidable (machine.InTime label) :=
  match answer : machine.answered with
  | none => .isTrue (by simp [InTime, answer])
  | some timeout =>
      decidable_of_iff (∀ entry ∈ machine.posts label, timeout ≤ entry.1.deadline) (by simp [InTime, answer])

/-- The runners of the loop, the timer runner among them. -/
structure Staffed (machine : Machine Other Runner Fn) : Prop where
  rostered : machine.world.Rostered
  registered : machine.world.Registered

/-- A script call adds at most a runner. -/
theorem Staffed.perform (staffed : machine.Staffed) {call : Call Other Runner Fn} {world : World Other Runner Fn}
    (performed : machine.world.perform call = some world) : world.Rostered ∧ world.Registered := by
  obtain ⟨rostered, registered⟩ := staffed
  cases perform_cases performed with
  | addLoopRunner runner priority => exact ⟨rostered.add _ priority, rostered.registered_add registered _ priority⟩
  | _ => exact ⟨⟨rostered.sorted, rostered.unique, rostered.bounded⟩, registered⟩

/-- Each step keeps the runners. -/
theorem Staffed.step (staffed : machine.Staffed) (taken : machine.step label = some next) : next.Staffed := by
  have same : machine.world.Rostered ∧ machine.world.Registered := ⟨staffed.rostered, staffed.registered⟩
  obtain ⟨rostered, registered⟩ := staffed
  cases step_cases taken with
  | script call world point performed =>
      obtain ⟨rostered, registered⟩ := Staffed.perform ⟨rostered, registered⟩ performed
      exact ⟨rostered, registered⟩
  | addLoopRunner runner priority =>
      exact ⟨rostered.add _ priority, rostered.registered_add registered _ priority⟩
  | dispose node timeout now sanity posting point =>
      unfold World.dispose
      split <;> exact ⟨⟨rostered.sorted, rostered.unique, rostered.bounded⟩, registered⟩
  | notifyPushed | notify =>
      constructor
      · rw [notified_world]
        exact rostered
      · rw [notified_world]
        exact registered
  | _ => exact ⟨⟨rostered.sorted, rostered.unique, rostered.bounded⟩, registered⟩

/-- A new loop has the timer runner beside the others. -/
theorem initial_staffed (runners : List (Runner × Int)) : (initial runners : Machine Other Runner Fn).Staffed := by
  have folded : ∀ world : World Other Runner Fn, world.Rostered →
      (runners.foldl (fun world entry => world.addLoopRunner (.other entry.1) entry.2) world).Rostered := by
    induction runners with
    | nil => exact fun _ rostered => rostered
    | cons entry rest ih => exact fun world rostered => ih _ (rostered.add _ _)
  have rostered := folded World.initial ⟨List.Pairwise.nil, List.nodup_nil, by simp [World.initial]⟩
  refine ⟨rostered.add .settimeout 5, ?_⟩
  rw [World.Registered, List.any_eq_true]
  exact ⟨_, StableSort.mem_sortBy.mpr (List.mem_append_right _ (List.mem_singleton.mpr rfl)), rfl⟩

/-- The answer of the timer runner is the earliest deadline of a sorted list. -/
theorem earlierTimeout_le {timers : Timers} (ordered : timers.Ordered) (timeout : Int) {posting : Posting}
    (member : posting ∈ timers.events) : earlierTimeout timeout timers.nextDeadline ≤ posting.deadline := by
  cases list : timers.events with
  | nil => simp [list] at member
  | cons first rest =>
      have least : first.deadline ≤ posting.deadline := by
        rcases List.mem_cons.mp (list ▸ member) with rfl | later
        · exact le_rfl
        · have sorted := ordered.sorted
          rw [list] at sorted
          exact ((List.pairwise_cons.mp sorted).1 posting later).deadline_le
      simp only [Timers.nextDeadline, list, List.head?_cons, Option.map_some, earlierTimeout]
      split <;> omega

theorem earlierTimeout_le_self (timeout : Int) (newtimeout : Option Int) :
    earlierTimeout timeout newtimeout ≤ timeout := by
  unfold earlierTimeout
  split
  · split <;> omega
  · exact le_rfl

/-- A new runner does not make the timer runner answer. -/
theorem answered_add (rostered : machine.world.Rostered) (runner : LoopRunner Runner) (priority : Int)
    (answer : ({ machine with world := machine.world.addLoopRunner runner priority } :
      Machine Other Runner Fn).answered = some timeout) : machine.answered = some timeout := by
  cases point : machine.pc with
  | runners node limit =>
      simp only [answered, point, Option.ite_none_left_eq_some, Bool.not_eq_true] at answer ⊢
      refine ⟨?_, answer.2⟩
      by_contra awaits
      simp [rostered.awaits_add runner priority (by simpa using awaits)] at answer
  | looped node limit =>
      simp only [answered, point, Option.ite_none_left_eq_some, Bool.not_eq_true] at answer ⊢
      refine ⟨?_, answer.2⟩
      by_contra later
      simp [rostered.behind_add runner priority (by simpa using later)] at answer
  | outside | entered | test | checking | waiting | leaving => simp [answered, point] at answer
  | _ => simpa [answered, point] using answer

/-- A notification does not make the timer runner answer. -/
theorem answered_notified (answer : machine.notified.answered = some timeout) : machine.answered = some timeout := by
  unfold notified at answer
  split at answer
  case h_1 => cases answer
  case h_2 => exact answer

/-- The loop's timeout after a step was no earlier before it, or it is the answer of the timer runner. -/
theorem answered_cases (staffed : machine.Staffed) (ordered : machine.world.timers.Ordered)
    (taken : machine.step label = some next) (answer : next.answered = some timeout) :
    (∃ earlier, machine.answered = some earlier ∧ timeout ≤ earlier) ∨
      ∀ posting ∈ next.world.timers.events, timeout ≤ posting.deadline := by
  cases step_cases taken with
  | tick | push | postTimeout | cancelEvent | terminate => exact Or.inl ⟨timeout, answer, le_rfl⟩
  | pass point flag =>
      simp [answered, World.awaits_first staffed.registered] at answer
  | endRunners limit point | drainEmpty limit point | drain limit event rest point | call limit posting function point
  | callMissing limit posting point | skip limit posting point | release limit posting point
  | pcall limit posting success point | applied limit event exception point | threw limit posting point
  | released limit event exception point =>
      left
      refine ⟨timeout, ?_, le_rfl⟩
      simpa [answered, point, World.awaits] using answer
  | callRunner node limit other point runner =>
      left
      refine ⟨timeout, ?_, le_rfl⟩
      simpa [answered, point, World.awaits_behind runner] using answer
  | checked node limit now point =>
      right
      intro posting member
      simp only [answered, Option.ite_none_left_eq_some, Option.some.injEq] at answer
      rw [← answer.2]
      exact earlierTimeout_le ordered limit member
  | settle limit posting success timers point settled =>
      left
      refine ⟨timeout, ?_, le_rfl⟩
      cases success <;> simpa [answered, point] using answer
  | script call world point performed =>
      left
      refine ⟨timeout, ?_, le_rfl⟩
      cases perform_cases performed with
      | addLoopRunner runner priority => exact answered_add staffed.rostered _ priority answer
      | _ => exact answer
  | looped node limit newtimeout point =>
      left
      simp only [answered, staffed.rostered.awaits_next, Option.ite_none_left_eq_some, Option.some.injEq] at answer
      refine ⟨limit, ?_, ?_⟩
      · simp only [answered, point]
        exact if_neg answer.1
      · rw [← answer.2]
        exact earlierTimeout_le_self limit newtimeout
  | addLoopRunner runner priority unlocked =>
      exact Or.inl ⟨timeout, answered_add staffed.rostered _ priority answer, le_rfl⟩
  | notifyPushed =>
      have before : ({ machine with unnotified := machine.unnotified - 1 } :
        Machine Other Runner Fn).answered = some timeout := answered_notified answer
      exact Or.inl ⟨timeout, before, le_rfl⟩
  | notify => exact Or.inl ⟨timeout, answered_notified answer, le_rfl⟩
  | _ => cases answer

/-- No listed timer is due before the time that the loop will sleep until. -/
structure Covered (machine : Machine Other Runner Fn) : Prop where
  timely : machine.Timely
  sound : machine.view.Sound
  staffed : machine.Staffed
  early : ∀ timeout, machine.answered = some timeout →
    ∀ posting ∈ machine.world.timers.events, timeout ≤ posting.deadline

/-- Each step that posts in time keeps the timers covered. -/
theorem Covered.step (covered : machine.Covered) (inTime : machine.InTime label)
    (taken : machine.step label = some next) : next.Covered := by
  have simulated := simulates covered.timely taken
  refine ⟨covered.timely.step taken, covered.sound.step simulated, covered.staffed.step taken, ?_⟩
  intro timeout answer posting member
  rcases answered_cases covered.staffed covered.sound.ordered taken answer with ⟨earlier, before, atMost⟩ | least
  · apply atMost.trans
    rcases Life.events_cases covered.sound simulated member with old | new
    · exact covered.early earlier before posting old
    · exact inTime earlier before _ (mem_posts taken new)
  · exact least posting member

/-- In a run that posts in time, the loop never sleeps beyond a listed deadline. -/
theorem wait_wakes_in_time (run : Execution.exec step (initial runners) labels = some machine)
    (inTime : Execution.Along step InTime (initial runners) labels)
    (sleeps : machine.sleeps label = some timeout) :
    ∀ posting ∈ machine.world.timers.events, timeout ≤ posting.deadline := by
  have start : (initial runners : Machine Other Runner Fn).Covered :=
    ⟨initial_timely runners, initial_sound runners, initial_staffed runners, by simp [answered]⟩
  have covered := Execution.exec_invariant_along (fun _ _ _ holds inTime taken => Covered.step holds inTime taken)
    start inTime run
  apply covered.early
  unfold Machine.sleeps at sleeps
  split at sleeps
  case h_1 =>
      split at sleeps
      case h_1 limit point =>
          cases sleeps
          simp [answered, point]
      case h_2 => cases sleeps
  case h_2 => cases sleeps

/-- A timer's function sets another timer that is due after the loop wakes up. -/
theorem wait_wakes_in_time_here : ∃ machine : Machine Unit Unit Nat,
    Execution.exec step (initial []) ([.set 7 0 true, .tick 1, .run] ++ Label.nexts 18 ++
      .set 9 5000 true :: .pcall true :: Label.nexts 3) = some machine ∧
    machine.world.timers.events = [⟨5000000001, 1, 1⟩] ∧ machine.sleeps .next = some 2000000001 ∧
    ∀ posting ∈ machine.world.timers.events, 2000000001 ≤ posting.deadline := by
  have sleeps : (Execution.exec step (initial []) ([.set 7 0 true, .tick 1, .run] ++ Label.nexts 18 ++
      .set 9 5000 true :: .pcall true :: Label.nexts 3 : List (Label Unit Unit Nat))).map (fun machine =>
        (machine.world.timers.events, machine.sleeps .next)) =
      some ([⟨5000000001, 1, 1⟩], some 2000000001) := by decide
  obtain ⟨machine, run, same⟩ := Option.map_eq_some_iff.mp sleeps
  simp only [Prod.mk.injEq] at same
  exact ⟨machine, run, same.1, same.2, wait_wakes_in_time run (by decide) same.2⟩

/-- An interval that is posted again while the loop drains its queue is due before the loop wakes up. -/
theorem wait_oversleeps :
    ¬∀ (labels : List (Label Unit Unit Nat)) (machine : Machine Unit Unit Nat) (timeout : Int),
      (∀ label ∈ labels, ∀ delay oneShot, label ≠ .thread (.postTimeout delay oneShot)) →
      Execution.exec step (initial []) labels = some machine → machine.sleeps .next = some timeout →
      ∀ posting ∈ machine.world.timers.events, timeout ≤ posting.deadline := by
  intro claim
  have late : (Execution.exec step (initial []) ([.set 8 100 false, .tick 100000001, .run] ++ Label.nexts 18 ++
      .pcall true :: Label.nexts 3 : List (Label Unit Unit Nat))).map (fun machine =>
        (machine.sleeps .next, machine.world.timers.events)) =
      some (some 2100000001, [⟨200000001, 0, 1⟩]) := by decide
  obtain ⟨machine, run, same⟩ := Option.map_eq_some_iff.mp late
  simp only [Prod.mk.injEq] at same
  have early := claim _ machine 2100000001 (by simp [Label.nexts, Label.set]) run same.1 ⟨200000001, 0, 1⟩
    (by simp [same.2])
  revert early
  decide

end Machine

end Dtel
