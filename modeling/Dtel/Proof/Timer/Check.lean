import Dtel.Proof.Timer.Starvation

namespace Dtel

variable {Other Runner Fn : Type} {now : Int} {sanity : Nat} {posting : Posting} {postings : List Posting}
  {shown : List Report}

namespace Timers

/-- The event is cancelled, or its deadline has passed. -/
def Due (timers : Timers) (now : Int) (posting : Posting) : Prop :=
  (timers.object posting.event).removed ∨ posting.deadline < now

instance (timers : Timers) (now : Int) (posting : Posting) : Decidable (timers.Due now posting) :=
  inferInstanceAs (Decidable (_ ∨ _))

/-- The length of the longest prefix of the list whose events are cancelled or have expired. -/
def dueCount (timers : Timers) (now : Int) : Nat := (timers.events.takeWhile fun posting => timers.Due now posting).length

/-- An iteration takes nothing when the prefix is empty. -/
theorem dueCount_of_takeFirst_none {timers : Timers} (idle : timers.takeFirst now = none) : timers.dueCount now = 0 := by
  unfold takeFirst at idle
  unfold dueCount
  cases list : timers.events with
  | nil => rfl
  | cons first rest =>
      simp only [list, ite_eq_right_iff, reduceCtorEq] at idle
      have kept : ¬timers.Due now first := idle
      simp [kept]

/-- An iteration takes the first event of the prefix. -/
theorem dueCount_of_takeFirst_some {timers next : Timers} (taken : timers.takeFirst now = some (posting, next)) :
    timers.dueCount now = next.dueCount now + 1 := by
  obtain ⟨list, rest, due⟩ := takeFirst_some taken
  have first : timers.Due now posting := due
  rw [rest, dueCount, dueCount, list, List.takeWhile_cons_of_pos (by simpa using first)]
  rfl

end Timers

namespace World

variable {world : World Other Runner Fn}

/-- These events are posted to the loop queue. -/
def live (world : World Other Runner Fn) (postings : List Posting) : List Posting :=
  postings.filter fun posting => (world.timers.object posting.event).removed = false

/-- These events are released. -/
def cancelled (world : World Other Runner Fn) (postings : List Posting) : List Posting :=
  postings.filter fun posting => (world.timers.object posting.event).removed = true

/-- A list of events leaves the handler's list: the events go to the loop queue, or are released. -/
def disposeAll (world : World Other Runner Fn) (postings rest : List Posting) : World Other Runner Fn :=
  { world with
    timers := { world.timers with events := rest }
    queue := world.queue ++ (world.live postings).map .timeout
    refs := (world.cancelled postings).foldl
      (fun refs posting => releaseRef refs (world.timers.object posting.event)) world.refs }

theorem disposeAll_nil (list : world.timers.events = postings) : world.disposeAll [] postings = world := by
  subst list
  simp [disposeAll, live, cancelled]

@[simp] theorem dispose_timers : (world.dispose posting).timers = world.timers := by
  unfold dispose
  split <;> rfl

/-- The first event is disposed of before the others. -/
theorem disposeAll_cons (rest : List Posting) :
    ({ world with timers := { world.timers with events := postings } }.dispose posting).disposeAll rest =
      world.disposeAll (posting :: rest) := by
  funext left
  by_cases removed : (world.timers.object posting.event).removed = true
  · simp [disposeAll, live, cancelled, dispose, release, removed]
  · simp [disposeAll, live, cancelled, dispose, postEvent, removed]

theorem report_dispose :
    ({ world with timers := { world.timers with events := postings } }.dispose posting).report = world.report := by
  funext other
  simp [report]

/-- The loop takes the due events, as far as its counter allows. -/
theorem checkLoop_run : checkLoop now sanity world shown =
    (world.disposeAll (world.timers.events.take (min sanity (world.timers.dueCount now)))
        (world.timers.events.drop (min sanity (world.timers.dueCount now))),
      shown ++ (world.timers.events.take (min sanity (world.timers.dueCount now))).map world.report) := by
  induction sanity generalizing world shown with
  | zero => simp [checkLoop, disposeAll_nil rfl]
  | succ sanity inductionHypothesis =>
      unfold checkLoop
      cases taken : world.timers.takeFirst now with
      | none =>
          simp only
          rw [inductionHypothesis, Timers.dueCount_of_takeFirst_none taken]
          simp
      | some pair =>
          obtain ⟨posting, timers⟩ := pair
          have count := Timers.dueCount_of_takeFirst_some taken
          obtain ⟨list, rest, -⟩ := Timers.takeFirst_some taken
          simp only
          rw [inductionHypothesis, count, list, Nat.succ_min_succ, dispose_timers]
          cases timers
          cases rest
          rw [List.take_succ_cons, List.drop_succ_cons, disposeAll_cons, report_dispose, List.map_cons,
            List.append_assoc]
          rfl

end World

namespace Machine
open Execution World

variable {world : World Other Runner Fn} {node unnotified : Nat} {timeout : Int}

/-- The loop thread executes the rest of `checkTimeouts` and goes on with the next runner. -/
theorem checkLoop_exec (world : World Other Runner Fn) (shown : List Report) : ∃ count,
    exec step ⟨world, .checking node timeout now sanity none, unnotified⟩ (Label.nexts count) =
        some ⟨(checkLoop now sanity world shown).1,
          .runners ((checkLoop now sanity world shown).1.nextNode node)
            (earlierTimeout timeout (checkLoop now sanity world shown).1.timers.nextDeadline), unnotified⟩ ∧
      shown ++ trace step reports ⟨world, .checking node timeout now sanity none, unnotified⟩ (Label.nexts count) =
        (checkLoop now sanity world shown).2 ++ [.returned] := by
  induction sanity generalizing world shown with
  | zero => exact ⟨1, rfl, rfl⟩
  | succ sanity inductionHypothesis =>
      unfold checkLoop
      cases taken : world.timers.takeFirst now with
      | none =>
          have first : step ⟨world, .checking node timeout now (sanity + 1) none, unnotified⟩ .next =
              some ⟨world, .checking node timeout now sanity none, unnotified⟩ := by
            simp only [step, nextStep, taken]
          obtain ⟨count, run, reported⟩ := inductionHypothesis world shown
          refine ⟨count + 1, exec_cons_some.mpr ⟨_, first, run⟩, ?_⟩
          rw [Label.nexts, List.replicate_succ, trace_cons _ first]
          exact reported
      | some pair =>
          obtain ⟨posting, timers⟩ := pair
          let middle : World Other Runner Fn := { world with timers := timers }
          have first : step ⟨world, .checking node timeout now (sanity + 1) none, unnotified⟩ .next =
              some ⟨middle, .checking node timeout now sanity (some posting), unnotified⟩ := by
            simp only [step, nextStep, taken, middle]
          have second : step ⟨middle, .checking node timeout now sanity (some posting), unnotified⟩ .next =
              some ⟨middle.dispose posting, .checking node timeout now sanity none, unnotified⟩ := rfl
          have told : reports ⟨middle, .checking node timeout now sanity (some posting), unnotified⟩ .next =
              [middle.report posting] := by
            simp only [reports, Pc.call, report]
            split <;> rfl
          obtain ⟨count, run, reported⟩ := inductionHypothesis (middle.dispose posting) (shown ++ [middle.report posting])
          refine ⟨count + 2, exec_cons_some.mpr ⟨_, first, exec_cons_some.mpr ⟨_, second, run⟩⟩, ?_⟩
          rw [Label.nexts, List.replicate_succ, List.replicate_succ, trace_cons _ first, trace_cons _ second, told]
          rw [List.append_assoc] at reported
          exact reported

/-- The timer runner executes `checkTimeouts` and goes on with the next runner and the earlier timeout. -/
theorem checkTimeouts_exec (runner : world.runnerAt node = some .settimeout) : ∃ steps,
    exec step ⟨world, .runners (some node) timeout, unnotified⟩ (Label.nexts steps) =
        some ⟨world.checkTimeouts.2.1,
          .runners (world.nextNode node) (earlierTimeout timeout world.checkTimeouts.1), unnotified⟩ ∧
      trace step reports ⟨world, .runners (some node) timeout, unnotified⟩ (Label.nexts steps) =
        world.checkTimeouts.2.2 ++ [.returned] := by
  have first : step ⟨world, .runners (some node) timeout, unnotified⟩ .next =
      some ⟨world, .checking node timeout world.clock maxExpirys none, unnotified⟩ := by
    simp only [step, nextStep, runner]
  have same : (checkLoop world.clock maxExpirys world []).1.nextNode node = world.nextNode node := by
    rw [checkLoop_run]
    rfl
  obtain ⟨steps, run, reported⟩ : ∃ count,
      exec step ⟨world, .checking node timeout world.clock maxExpirys none, unnotified⟩ (Label.nexts count) = _ ∧
        [] ++ trace step reports _ (Label.nexts count) = _ := checkLoop_exec world []
  rw [same] at run
  refine ⟨steps + 1, exec_cons_some.mpr ⟨_, first, run⟩, ?_⟩
  rw [Label.nexts, List.replicate_succ, trace_cons _ first]
  exact reported

/-- A call of `checkTimeouts` takes the due events from the front of the list, and not more than ten. It posts those
that are not cancelled in their order, releases the others once, keeps the rest of the list, and returns its
first deadline. The timer runner does the same in the loop. -/
theorem checkTimeouts_splits_list (world : World Other Runner Fn) :
    let count := min maxExpirys (world.timers.dueCount world.clock)
    let taken := world.timers.events.take count
    let rest := world.timers.events.drop count
    world.checkTimeouts =
        (rest.head?.map Posting.deadline,
          { world with
            timers := { world.timers with events := rest }
            queue := world.queue ++ (world.live taken).map .timeout
            refs := (world.cancelled taken).foldl
              (fun refs posting => releaseRef refs (world.timers.object posting.event)) world.refs },
          taken.map world.report) ∧
      ∀ node timeout unnotified, world.runnerAt node = some .settimeout → ∃ steps,
        exec step ⟨world, .runners (some node) timeout, unnotified⟩ (Label.nexts steps) =
            some ⟨world.checkTimeouts.2.1,
              .runners (world.nextNode node) (earlierTimeout timeout world.checkTimeouts.1), unnotified⟩ ∧
          trace step reports ⟨world, .runners (some node) timeout, unnotified⟩ (Label.nexts steps) =
            world.checkTimeouts.2.2 ++ [.returned] := by
  intro count taken rest
  have result : checkLoop world.clock maxExpirys world [] = (world.disposeAll taken rest, taken.map world.report) :=
    checkLoop_run
  constructor
  · rw [checkTimeouts, result]
    rfl
  · exact fun node timeout unnotified runner => checkTimeouts_exec runner

end Machine

end Dtel
