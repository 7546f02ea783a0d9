import Dtel.Library.Sweep
import Dtel.Proof.Loop.Sleep

namespace Dtel

variable {Other Runner Fn : Type}

/-- The runners are in the order of their priorities, and then in the order of their registration. -/
def RunnerNode.Before (first second : RunnerNode Runner) : Prop :=
  first.priority < second.priority ∨ first.priority = second.priority ∧ first.address < second.address

theorem RunnerNode.Before.priority_le {first second : RunnerNode Runner} (before : first.Before second) :
    first.priority ≤ second.priority := by
  unfold RunnerNode.Before at before
  omega

theorem RunnerNode.Before.ne {first second : RunnerNode Runner} (before : first.Before second) : first ≠ second := by
  unfold RunnerNode.Before at before
  rintro rfl
  omega

/-- A pass of the range loop calls runners. A called runner adds runners, and returns a time point. -/
inductive Notice (Runner : Type) where
  | called (node : RunnerNode Runner)
  | added (caller new : RunnerNode Runner)
  | answered (time : Int)

namespace Notice

/-- The runners that the pass has called. -/
def calls (shown : List (Notice Runner)) : List (RunnerNode Runner) :=
  shown.filterMap fun
    | called node => some node
    | _ => none

/-- Each runner that was added during the pass, with the runner that added it. -/
def additions (shown : List (Notice Runner)) : List (RunnerNode Runner × RunnerNode Runner) :=
  shown.filterMap fun
    | added caller new => some (caller, new)
    | _ => none

/-- The time points that the called runners have returned. -/
def answers (shown : List (Notice Runner)) : List Int :=
  shown.filterMap fun
    | answered time => some time
    | _ => none

variable {shown more : List (Notice Runner)}

theorem calls_append : calls (shown ++ more) = calls shown ++ calls more := List.filterMap_append
theorem additions_append : additions (shown ++ more) = additions shown ++ additions more := List.filterMap_append
theorem answers_append : answers (shown ++ more) = answers shown ++ answers more := List.filterMap_append

theorem answers_answered (times : List Int) : answers (times.map .answered : List (Notice Runner)) = times := by
  simp [answers, List.filterMap_map]

end Notice

/-- The earlier timeout is the least of the timeout and the answer. -/
theorem earlierTimeout_eq_foldl (timeout : Int) (answer : Option Int) :
    earlierTimeout timeout answer = answer.toList.foldl min timeout := by
  cases answer with
  | none => rfl
  | some time =>
      simp only [earlierTimeout, Option.toList_some, List.foldl_cons, List.foldl_nil]
      omega

namespace World

variable {world after : World Other Runner Fn} {front todo : List (RunnerNode Runner)} {entry : RunnerNode Runner}

/-- The node at this address. -/
def entryAt (world : World Other Runner Fn) (node : Nat) : Option (RunnerNode Runner) :=
  world.looprunners.find? fun entry => entry.address = node

/-- Runners with one priority stand in the order of their registration. -/
structure Lined (world : World Other Runner Fn) : Prop where
  rostered : world.Rostered
  ordered : world.looprunners.Pairwise RunnerNode.Before

/-- A new runner comes behind those with its priority. -/
theorem Lined.add (lined : world.Lined) (runner : LoopRunner Runner) (priority : Int) :
    (world.addLoopRunner runner priority).Lined where
  rostered := lined.rostered.add runner priority
  ordered := by
    apply StableSort.sortBy_concat_pairwise lined.ordered
    · exact fun first second before => before.priority_le
    · intro entry member atMost
      have earlier := lined.rostered.bounded entry member
      rcases lt_or_eq_of_le atMost with less | equal
      · exact Or.inl less
      · exact Or.inr ⟨equal, earlier⟩
    · exact fun entry member less => Or.inl less

/-- What concerns the runners stays when their list and the next address stay. -/
theorem Lined.keep (lined : world.Lined) (runners : after.looprunners = world.looprunners)
    (nodes : after.nodes = world.nodes) : after.Lined where
  rostered := by
    obtain ⟨sorted, unique, bounded⟩ := lined.rostered
    exact ⟨runners ▸ sorted, runners ▸ unique, by rw [runners, nodes]; exact bounded⟩
  ordered := runners ▸ lined.ordered

section Standing

variable (lined : world.Lined) (list : world.looprunners = front ++ entry :: todo)

include lined list

theorem rest_at : Walk.rest RunnerNode.address world.looprunners entry.address = entry :: todo := by
  have unique := lined.rostered.unique
  rw [list] at unique ⊢
  exact Walk.rest_append unique

theorem entryAt_at : world.entryAt entry.address = some entry := by
  rw [entryAt, Walk.find_eq_head, rest_at lined list]
  rfl

/-- The range loop goes on with the first entry behind the present one. -/
theorem nextNode_at : world.nextNode entry.address = todo.head?.map RunnerNode.address := by
  have rest := rest_at lined list
  unfold Walk.rest at rest
  rw [nextNode, rest]
  rfl

end Standing

end World

/-- The range loop has this timeout during a pass and after it. -/
def Pc.passTimeout : Pc Other → Option Int
  | .runners _ timeout | .looped _ timeout | .checking _ timeout .. | .draining timeout => some timeout
  | _ => none

/-- The range loop is past the first list of nodes, and the others are to come. It ends at the end of the list, or
when a runner throws. -/
def Pc.Stands : Pc Other → List (RunnerNode Runner) → List (RunnerNode Runner) → Prop
  | .runners place _, _, todo => place = todo.head?.map RunnerNode.address
  | .looped node _, done, _ | .checking node .., done, _ => ∃ front entry, done = front ++ [entry] ∧ entry.address = node
  | .draining _, _, todo => todo = []
  | .outside, _, _ => True
  | _, _, _ => False

namespace Machine
open Notice

variable {machine next final : Machine Other Runner Fn} {label : Label Other Runner Fn}
  {labels : List (Label Other Runner Fn)} {runners : List (Runner × Int)} {start : World Other Runner Fn}
  {shown : List (Notice Runner)}

/-- The step shows this of the pass. -/
def notices (machine : Machine Other Runner Fn) : Label Other Runner Fn → List (Notice Runner)
  | .next =>
      match machine.pc with
      | .runners (some node) _ => (machine.world.entryAt node).toList.map .called
      | .checking _ _ _ 0 none => machine.world.timers.nextDeadline.toList.map .answered
      | _ => []
  | .script (.addLoopRunner runner priority) =>
      match machine.pc with
      | .looped node _ =>
          (machine.world.entryAt node).toList.map fun caller => .added caller ⟨priority, .other runner, machine.world.nodes⟩
      | _ => []
  | .looped newtimeout => newtimeout.toList.map .answered
  | _ => []

/-- In a pass that began in the given world, the range loop sweeps over the runners, and its timeout is the least
of the time points so far. -/
structure Passing (start : World Other Runner Fn) (machine : Machine Other Runner Fn) (shown : List (Notice Runner)) :
    Prop where
  lined : machine.world.Lined
  timeout : ∀ timeout, machine.pc.passTimeout = some timeout →
    timeout = (answers shown).foldl min (start.clock + milliseconds 2000)
  sweep : ∃ done todo, machine.world.looprunners = done ++ todo ∧
    Sweep.Sweeping RunnerNode.priority start.looprunners (calls shown) (Notice.additions shown) done todo ∧
      machine.pc.Stands done todo

/-- A step that leaves the range loop where it is and the runners alone shows nothing. -/
theorem Passing.keep (passing : Passing start machine shown)
    (runners : next.world.looprunners = machine.world.looprunners) (nodes : next.world.nodes = machine.world.nodes)
    (timeout : ∀ timeout, next.pc.passTimeout = some timeout → machine.pc.passTimeout = some timeout)
    (stands : ∀ done todo : List (RunnerNode Runner), machine.pc.Stands done todo → next.pc.Stands done todo)
    (silent : machine.notices label = []) : Passing start next (shown ++ machine.notices label) := by
  obtain ⟨done, todo, list, sweeping, place⟩ := passing.sweep
  rw [silent, List.append_nil]
  refine ⟨passing.lined.keep runners nodes, fun limit same => passing.timeout limit (timeout limit same), ?_⟩
  exact ⟨done, todo, runners.trans list, sweeping, stands done todo place⟩

/-- The range loop calls the runner at which it stands. -/
theorem Passing.call (passing : Passing start machine shown) {node : Nat} {timeout : Int}
    {runner : LoopRunner Runner} (point : machine.pc = .runners (some node) timeout)
    (found : machine.world.runnerAt node = some runner) (world : next.world = machine.world)
    (limit : next.pc.passTimeout = some timeout)
    (stands : ∀ front todo (entry : RunnerNode Runner), entry.address = node → next.pc.Stands (front ++ [entry]) todo) :
    Passing start next (shown ++ machine.notices .next) := by
  obtain ⟨done, todo, list, sweeping, place⟩ := passing.sweep
  simp only [point, Pc.Stands] at place
  obtain ⟨entry, first, rfl⟩ := Option.map_eq_some_iff.mp place.symm
  obtain ⟨todo, rfl⟩ := List.head?_eq_some_iff.mp first
  have shows : machine.notices .next = [.called entry] := by
    simp [notices, point, World.entryAt_at passing.lined list]
  have unique : (done ++ entry :: todo).Nodup := by
    rw [← list]
    exact passing.lined.ordered.imp RunnerNode.Before.ne
  rw [shows]
  refine ⟨world ▸ passing.lined, fun later same => ?_, done ++ [entry], todo, ?_, ?_, stands done todo entry rfl⟩
  · cases limit.symm.trans same
    rw [answers_append]
    exact (passing.timeout timeout (by rw [point]; rfl)).trans (by simp [answers])
  · rw [world, list]
    simp
  · rw [calls_append, Notice.additions_append]
    have called := sweeping.call unique
    simpa [calls, Notice.additions] using called

/-- The called runner returns, and the range loop goes on with the next one. -/
theorem Passing.answer (passing : Passing start machine shown) {node : Nat} {timeout : Int} {answer : Option Int}
    (before : machine.pc.passTimeout = some timeout)
    (standing : ∀ done todo : List (RunnerNode Runner), machine.pc.Stands done todo →
      ∃ front entry, done = front ++ [entry] ∧ entry.address = node)
    (world : next.world = machine.world)
    (point : next.pc = .runners (machine.world.nextNode node) (earlierTimeout timeout answer))
    (shows : machine.notices label = answer.toList.map .answered) :
    Passing start next (shown ++ machine.notices label) := by
  obtain ⟨done, todo, list, sweeping, place⟩ := passing.sweep
  obtain ⟨front, entry, rfl, rfl⟩ := standing done todo place
  rw [List.append_assoc, List.singleton_append] at list
  rw [shows]
  refine ⟨world ▸ passing.lined, fun later same => ?_, front ++ [entry], todo, ?_, ?_, ?_⟩
  · rw [point] at same
    cases same
    rw [answers_append, answers_answered, List.foldl_append, ← passing.timeout timeout before, earlierTimeout_eq_foldl]
  · rw [world, list]
    simp
  · rw [calls_append, Notice.additions_append]
    cases answer with
    | none => simpa [calls, Notice.additions] using sweeping
    | some time => simpa [calls, Notice.additions] using sweeping
  · rw [point]
    exact World.nextNode_at passing.lined list

/-- A called runner adds a runner. -/
theorem Passing.add (passing : Passing start machine shown) {node : Nat} {timeout : Int} {runner : Runner}
    {priority : Int} (point : machine.pc = .looped node timeout) (pc : next.pc = machine.pc)
    (world : next.world = machine.world.addLoopRunner (.other runner) priority) :
    Passing start next (shown ++ machine.notices (.script (.addLoopRunner runner priority))) := by
  obtain ⟨done, todo, list, sweeping, place⟩ := passing.sweep
  have standing := place
  simp only [point, Pc.Stands] at standing
  obtain ⟨front, entry, rfl, rfl⟩ := standing
  rw [List.append_assoc, List.singleton_append] at list
  let new : RunnerNode Runner := ⟨priority, .other runner, machine.world.nodes⟩
  have shows : machine.notices (.script (.addLoopRunner runner priority)) = [.added entry new] := by
    simp [notices, point, World.entryAt_at passing.lined list, new]
  have fresh : new ∉ front ++ entry :: todo := by
    rw [← list]
    intro member
    exact lt_irrefl _ (passing.lined.rostered.bounded new member)
  have sorted : StableSort.Sorted RunnerNode.priority (front ++ entry :: todo) := list ▸ passing.lined.rostered.sorted
  obtain ⟨before, later, inserted, swept⟩ := sweeping.add sorted fresh
  rw [shows]
  refine ⟨world ▸ passing.lined.add _ priority, fun limit same => ?_, before ++ [entry], later, ?_, ?_, ?_⟩
  · rw [pc] at same
    rw [answers_append]
    exact (passing.timeout limit same).trans (by simp [answers])
  · rw [world, World.addLoopRunner, list, inserted]
    simp
  · rw [calls_append, Notice.additions_append]
    simpa [calls, Notice.additions] using swept
  · rw [pc, point]
    exact ⟨before, entry, rfl, rfl⟩

/-- A loop that holds the mutex does not wait for a notification. -/
theorem notified_locked (locked : machine.pc.holdsMutex = true) : machine.notified = machine := by
  unfold notified
  split
  case h_1 timeout point => simp [point, Pc.holdsMutex] at locked
  case h_2 => rfl

/-- Each step of a pass keeps its account. -/
theorem Passing.step (passing : Passing start machine shown) (locked : machine.pc.holdsMutex = true)
    (taken : machine.step label = some next) : Passing start next (shown ++ machine.notices label) := by
  cases step_cases taken with
  | endRunners timeout point =>
      refine passing.keep rfl rfl ?_ ?_ (by simp [notices, point])
      · simp [point, Pc.passTimeout]
      · simp [point, Pc.Stands]
  | check node timeout point runner =>
      exact passing.call point runner rfl rfl fun front todo entry same => ⟨front, entry, rfl, same⟩
  | callRunner node timeout other point runner =>
      exact passing.call point runner rfl rfl fun front todo entry same => ⟨front, entry, rfl, same⟩
  | dispose node timeout now sanity posting point =>
      have runners : (machine.world.dispose posting).looprunners = machine.world.looprunners := by
        unfold World.dispose
        split <;> rfl
      have nodes : (machine.world.dispose posting).nodes = machine.world.nodes := by
        unfold World.dispose
        split <;> rfl
      refine passing.keep runners nodes ?_ ?_ (by simp [notices, point])
      · simp [point, Pc.passTimeout]
      · simp [point, Pc.Stands]
  | take node timeout now sanity posting timers point first =>
      refine passing.keep rfl rfl ?_ ?_ (by simp [notices, point])
      · simp [point, Pc.passTimeout]
      · simp [point, Pc.Stands]
  | takeNone node timeout now sanity point first =>
      refine passing.keep rfl rfl ?_ ?_ (by simp [notices, point])
      · simp [point, Pc.passTimeout]
      · simp [point, Pc.Stands]
  | checked node timeout now point =>
      refine passing.answer (by rw [point]; rfl) ?_ rfl rfl (by simp [notices, point])
      simp [point, Pc.Stands]
  | looped node timeout newtimeout point =>
      refine passing.answer (by rw [point]; rfl) ?_ rfl rfl rfl
      simp [point, Pc.Stands]
  | script call world scripting performed =>
      cases perform_cases performed with
      | addLoopRunner runner priority =>
          cases point : machine.pc with
          | looped node timeout => exact passing.add point (by rw [point]) rfl
          | runners | checking => simp [point, Pc.scripting] at scripting
          | _ => simp [point, Pc.holdsMutex] at locked
      | _ => exact passing.keep rfl rfl (fun _ same => same) (fun _ _ place => place) rfl
  | runnerThrew node timeout point =>
      exact passing.keep rfl rfl (fun _ same => nomatch same) (fun _ _ _ => trivial) rfl
  | notifyPushed pushed =>
      have awake : { machine with unnotified := machine.unnotified - 1 }.notified =
          { machine with unnotified := machine.unnotified - 1 } := notified_locked locked
      rw [awake]
      exact passing.keep rfl rfl (fun _ same => same) (fun _ _ place => place) rfl
  | notify =>
      rw [notified_locked locked]
      exact passing.keep rfl rfl (fun _ same => same) (fun _ _ place => place) rfl
  | tick | postTimeout | cancelEvent | terminate =>
      exact passing.keep rfl rfl (fun _ same => same) (fun _ _ place => place) rfl
  | push event unlocked | addLoopRunner runner priority unlocked =>
      rw [locked] at unlocked
      cases unlocked
  | run point | enter point | leaveLoop point | pass point | call _ _ _ point | callMissing _ _ point | skip _ _ point
  | settle _ _ _ _ point | release _ _ point | drain _ _ _ point | drainEmpty _ point | lock _ point | leave point
  | pcall _ _ _ point | applied _ _ _ point | applyThrew _ _ point | threw _ _ point | rethrew _ _ point
  | released _ _ _ point | releaseThrew _ _ point | wake _ point =>
      simp [point, Pc.holdsMutex] at locked

theorem lined_step (lined : machine.world.Lined) (taken : machine.step label = some next) : next.world.Lined := by
  cases step_cases taken with
  | script call world scripting performed =>
      cases perform_cases performed with
      | addLoopRunner runner priority => exact lined.add _ priority
      | _ => exact lined.keep rfl rfl
  | addLoopRunner runner priority => exact lined.add _ priority
  | dispose node timeout now sanity posting point =>
      unfold World.dispose
      split <;> exact lined.keep rfl rfl
  | notifyPushed | notify =>
      rw [notified_world]
      exact lined.keep rfl rfl
  | _ => exact lined.keep rfl rfl

theorem initial_lined (runners : List (Runner × Int)) : (initial runners : Machine Other Runner Fn).world.Lined := by
  have folded : ∀ world : World Other Runner Fn, world.Lined →
      (runners.foldl (fun world entry => world.addLoopRunner (.other entry.1) entry.2) world).Lined := by
    induction runners with
    | nil => exact fun _ lined => lined
    | cons entry rest ih => exact fun world lined => ih _ (lined.add _ _)
  have lined := folded World.initial ⟨⟨List.Pairwise.nil, List.nodup_nil, by simp [World.initial]⟩, List.Pairwise.nil⟩
  exact lined.add .settimeout 5

/-- Only a runner that throws ends `run` during a pass. -/
theorem locked_step (locked : machine.pc.holdsMutex = true) (taken : machine.step label = some next)
    (accepted : label ≠ .ended (some false)) : next.pc ≠ .outside := by
  have inside : machine.pc ≠ .outside := by
    intro outside
    simp [outside, Pc.holdsMutex] at locked
  cases step_cases taken with
  | notifyPushed pushed =>
      have awake : { machine with unnotified := machine.unnotified - 1 }.notified =
          { machine with unnotified := machine.unnotified - 1 } := notified_locked locked
      rw [awake]
      exact inside
  | notify =>
      rw [notified_locked locked]
      exact inside
  | tick | script | push | postTimeout | cancelEvent | addLoopRunner | terminate => exact inside
  | runnerThrew | applyThrew | rethrew | releaseThrew => exact absurd rfl accepted
  | leave point => simp [point, Pc.holdsMutex] at locked
  | settle _ _ _ _ point => simp [point, Pc.holdsMutex] at locked
  | _ => simp

/-- A pass begins at the first runner, with two seconds as its timeout. -/
theorem passing_first (lined : machine.world.Lined) (point : machine.pc = .test) (begins : machine.step .next = some next)
    (running : next.pc.holdsMutex = true) : Passing machine.world next [] := by
  cases step_cases begins with
  | pass here flag =>
      refine ⟨lined, fun timeout same => ?_, [], machine.world.looprunners, rfl, Sweep.Sweeping.begin _, rfl⟩
      cases same
      rfl
  | leaveLoop => cases running
  | enter here | endRunners _ here | check _ _ here | callRunner _ _ _ here | dispose _ _ _ _ _ here
  | take _ _ _ _ _ _ here | takeNone _ _ _ _ here | checked _ _ _ here | drainEmpty _ here | drain _ _ _ here
  | call _ _ _ here | callMissing _ _ here | skip _ _ here | settle _ _ _ _ here | release _ _ here | lock _ here
  | leave here =>
      rw [point] at here
      cases here

/-- Each pass over the runners calls them in the order of their priorities, and each one once. A pass that is complete
has called each runner that was registered at its start, and a runner that a called one added exactly when its
priority was not below that of the other. The loop then has the least of the time points as its timeout. A pass
ends before that only when a runner throws. -/
theorem runners_called_in_order {before : List (Label Other Runner Fn)} {first : Machine Other Runner Fn}
    (reached : Execution.exec step (initial runners) before = some machine) (point : machine.pc = .test)
    (begins : machine.step .next = some first) (running : first.pc.holdsMutex = true)
    (pass : Execution.exec step first labels = some final)
    (within : Execution.Along step (fun machine _ => machine.pc.holdsMutex = true) first labels) :
    let shown := Execution.trace step notices first labels
    (calls shown).Pairwise RunnerNode.Before ∧ (calls shown).Nodup ∧
      (final.pc.holdsMutex = false → Label.ended (some false) ∉ labels → ∃ timeout, final.pc = .draining timeout) ∧
      ∀ timeout, final.pc = .draining timeout →
        (∀ entry ∈ machine.world.looprunners, entry ∈ calls shown) ∧
          (∀ caller new, (caller, new) ∈ Notice.additions shown → (new ∈ calls shown ↔ caller.priority ≤ new.priority)) ∧
          timeout = (answers shown).foldl min (machine.world.clock + milliseconds 2000) := by
  intro shown
  have lined : machine.world.Lined :=
    Execution.exec_invariant (fun _ _ _ holds taken => lined_step holds taken) (initial_lined runners) reached
  have start : Passing machine.world first [] := passing_first lined point begins running
  have passing : Passing machine.world final ([] ++ shown) :=
    Execution.trace_invariant_along (fun _ _ _ _ holds locked taken => Passing.step holds locked taken) start within pass
  rw [List.nil_append] at passing
  obtain ⟨done, todo, list, sweeping, place⟩ := passing.sweep
  have part : (calls shown).Sublist final.world.looprunners :=
    list ▸ sweeping.calls.trans (List.sublist_append_left done todo)
  have ordered := passing.lined.ordered.sublist part
  refine ⟨ordered, ordered.imp RunnerNode.Before.ne, ?_, ?_⟩
  · intro unlocked unthrown
    have accepted : Execution.Along step (fun _ label => label ≠ .ended (some false)) first labels :=
      Execution.Along.of_forall fun label member _ same => unthrown (same ▸ member)
    have inside : first.pc ≠ .outside := by
      intro outside
      simp [outside, Pc.holdsMutex] at running
    have kept : final.pc ≠ .outside :=
      Execution.exec_invariant_along
        (fun (_ : Machine Other Runner Fn) _ _ _ guard taken => locked_step guard.1 taken guard.2)
        inside (within.and accepted) pass
    cases ended : final.pc with
    | draining timeout => exact ⟨timeout, rfl⟩
    | outside => exact absurd ended kept
    | runners | looped | checking => simp [ended, Pc.holdsMutex] at unlocked
    | _ => simp [ended, Pc.Stands] at place
  · intro timeout ended
    simp only [ended, Pc.Stands] at place
    subst place
    obtain ⟨all, joined⟩ := sweeping.finish
    exact ⟨all, joined, passing.timeout timeout (by rw [ended]; rfl)⟩

/-- The first runner adds one with priority 4, for this pass, and one with priority 1, for the next pass. -/
def addingPass : List (Label Unit Unit Nat) :=
  [.next, .script (.addLoopRunner () 4), .script (.addLoopRunner () 1), .looped (some 7), .next, .looped none] ++
    Label.nexts 12 ++ [.next, .looped none, .next]

theorem runners_called_in_order_here : ∃ first final : Machine Unit Unit Nat,
    Execution.exec step first addingPass = some final ∧
      (calls (Execution.trace step notices first addingPass)).Nodup ∧
      ⟨4, .other (), 3⟩ ∈ calls (Execution.trace step notices first addingPass) ∧
      final.pc = .draining 7 := by
  have starts : (Execution.exec step (initial [((), 3), ((), 6)] : Machine Unit Unit Nat) [.run, .next]).map
      (fun machine => (machine.pc, (machine.step .next).map fun first => first.pc.holdsMutex)) =
        some (.test, some true) := by decide
  obtain ⟨machine, reached, seen⟩ := Option.map_eq_some_iff.mp starts
  simp only [Prod.mk.injEq] at seen
  obtain ⟨point, seen⟩ := seen
  obtain ⟨first, begins, running⟩ := Option.map_eq_some_iff.mp seen
  have runs : ((Execution.exec step (initial [((), 3), ((), 6)] : Machine Unit Unit Nat) [.run, .next]).bind fun machine =>
      (machine.step .next).map fun first =>
        ((Execution.exec step first addingPass).map fun final => final.pc,
          decide (Execution.Along step (fun machine _ => machine.pc.holdsMutex = true) first addingPass),
          decide ((⟨3, .other (), 0⟩, ⟨4, .other (), 3⟩) ∈ Notice.additions (Execution.trace step notices first addingPass)))) =
        some (some (.draining 7), true, true) := by decide +kernel
  simp only [reached, begins, Option.bind_some, Option.map_some, Option.some.injEq, Prod.mk.injEq,
    decide_eq_true_eq] at runs
  obtain ⟨pass, within, adds⟩ := runs
  obtain ⟨final, pass, ended⟩ := Option.map_eq_some_iff.mp pass
  obtain ⟨-, once, -, complete⟩ := runners_called_in_order reached point begins running pass within
  exact ⟨first, final, pass, once, ((complete 7 ended).2.1 _ _ adds).mpr (by decide), ended⟩

end Machine

end Dtel
