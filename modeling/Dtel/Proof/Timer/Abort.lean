import Dtel.Construction.Loop.Process
import Dtel.Proof.Timer.Count

namespace Dtel
open Execution

namespace ProcessLabel

variable {Other Runner Fn : Type}

/-- The function of a timer throws no object whose property `stack` cannot be read. -/
def Readable : ProcessLabel Other Runner Fn → Prop
  | .pcall outcome => outcome.unreadable = false
  | _ => True

end ProcessLabel

namespace Process

variable {Other Runner Fn : Type} {process next final : Process Other Runner Fn}
  {label : ProcessLabel Other Runner Fn} {labels : List (ProcessLabel Other Runner Fn)} {runners : List (Runner × Int)}

/-- This relation lists everything that one step can do to the process. -/
inductive Step : Process Other Runner Fn → ProcessLabel Other Runner Fn → Process Other Runner Fn → Prop where
  | loop (process : Process Other Runner Fn) (label : Label Other Runner Fn) (machine : Machine Other Runner Fn)
      (running : process.aborted = false) (uncalled : ∀ success, label ≠ .pcall success)
      (readable : process.unreadable = true → ∀ exception, label ≠ .ended exception)
      (stepped : process.machine.step label = some machine) :
      Step process (.loop label) { process with machine := machine }
  | pcall (process : Process Other Runner Fn) (outcome : CallOutcome) (machine : Machine Other Runner Fn)
      (running : process.aborted = false) (stepped : process.machine.step (.pcall outcome.success) = some machine) :
      Step process (.pcall outcome) { process with machine := machine, unreadable := outcome.unreadable }
  | fatal (process : Process Other Runner Fn) (timeout : Int) (posting : Posting) (running : process.aborted = false)
      (unreadable : process.unreadable = true) (point : process.machine.pc = .throwing timeout posting) :
      Step process .fatal { process with aborted := true }

theorem step_cases (taken : process.step label = some next) : Step process label next := by
  have running : process.aborted = false := by
    by_contra aborted
    simp [Process.step, aborted] at taken
  cases label with
  | loop inner =>
      cases inner with
      | pcall success => simp [Process.step] at taken
      | ended exception =>
          simp only [Process.step, running, Bool.false_eq_true, if_false] at taken
          split at taken
          · cases taken
          · rename_i readable
            obtain ⟨machine, stepped, rfl⟩ := Option.map_eq_some_iff.mp taken
            rw [← running]
            exact .loop process _ machine running (by simp) (fun unreadable => absurd unreadable readable) stepped
      | _ =>
          simp only [Process.step, running, Bool.false_eq_true, if_false] at taken
          obtain ⟨machine, stepped, rfl⟩ := Option.map_eq_some_iff.mp taken
          rw [← running]
          exact .loop process _ machine running (by simp) (by simp) stepped
  | pcall outcome =>
      simp only [Process.step, running, Bool.false_eq_true, if_false] at taken
      obtain ⟨machine, stepped, rfl⟩ := Option.map_eq_some_iff.mp taken
      rw [← running]
      exact .pcall process outcome machine running stepped
  | fatal =>
      simp only [Process.step, running, Bool.false_eq_true, if_false] at taken
      split at taken
      · rename_i timeout posting point
        split at taken
        · cases taken
          exact .fatal process timeout posting running ‹_› point
        · cases taken
      · cases taken

/-- The step calls the function of this timer. -/
def invokes (process : Process Other Runner Fn) (label : ProcessLabel Other Runner Fn) : Option Posting :=
  label.label.bind process.machine.invokes

/-- Nothing unreadable is on its way, and the process goes on. -/
structure Calm (process : Process Other Runner Fn) : Prop where
  readable : process.unreadable = false
  running : process.aborted = false

/-- While nothing unreadable is thrown, each step is a step of the loop. -/
theorem Calm.step (calm : process.Calm) (readable : label.Readable) (taken : process.step label = some next) :
    next.Calm ∧ ∃ inner, label.label = some inner ∧ process.machine.step inner = some next.machine := by
  cases step_cases taken with
  | loop inner machine running uncalled ready stepped => exact ⟨⟨calm.readable, calm.running⟩, inner, rfl, stepped⟩
  | pcall outcome machine running stepped => exact ⟨⟨readable, calm.running⟩, _, rfl, stepped⟩
  | fatal timeout posting running unreadable point =>
      rw [calm.readable] at unreadable
      cases unreadable

/-- While nothing unreadable is thrown, a run is a run of the loop. -/
theorem Calm.run (calm : process.Calm) (readable : ∀ label ∈ labels, label.Readable)
    (run : exec Process.step process labels = some final) :
    final.Calm ∧ exec Machine.step process.machine (labels.filterMap ProcessLabel.label) = some final.machine := by
  induction labels generalizing process with
  | nil =>
      cases run
      exact ⟨calm, rfl⟩
  | cons label rest ih =>
      obtain ⟨next, taken, run⟩ := exec_cons_some.mp run
      obtain ⟨nextCalm, inner, same, stepped⟩ := calm.step (readable label (by simp)) taken
      obtain ⟨finalCalm, further⟩ := ih nextCalm (fun other member => readable other (by simp [member])) run
      rw [List.filterMap_cons_some same]
      exact ⟨finalCalm, exec_cons_some.mpr ⟨_, stepped, further⟩⟩

/-- The function of a timer has thrown an unreadable object. The timer is being settled, or `ThrowError` reads the
object, or the process is aborted. -/
structure Stranded (process : Process Other Runner Fn) : Prop where
  unreadable : process.unreadable = true
  point : process.aborted = true ∨ ∃ timeout posting,
    process.machine.pc = .called timeout posting false ∨ process.machine.pc = .throwing timeout posting

/-- An unreadable object strands the process. -/
theorem stranded_of_unreadable (unread : ¬label.Readable) (taken : process.step label = some next) :
    next.Stranded := by
  cases step_cases taken with
  | loop inner machine running uncalled ready stepped => exact absurd trivial unread
  | pcall outcome machine running stepped =>
      have thrown : outcome.unreadable = true := by simpa [ProcessLabel.Readable] using unread
      refine ⟨thrown, .inr ?_⟩
      cases outcome with
      | returned => cases thrown
      | threw unreadable =>
          cases Machine.step_cases stepped with
          | pcall timeout posting success point => exact ⟨timeout, posting, .inl rfl⟩
  | fatal timeout posting running unreadable point => exact absurd trivial unread

/-- While a thrown error is settled and read, no timer is called. -/
theorem silent_point {machine : Machine Other Runner Fn} {inner : Label Other Runner Fn} {timeout : Int}
    {posting : Posting} (point : machine.pc = .called timeout posting false ∨ machine.pc = .throwing timeout posting) :
    machine.invokes inner = none := by
  rcases point with point | point <;> cases inner <;> simp [Machine.invokes, point]

/-- Only the end of `ThrowError` leaves these points of the loop. -/
theorem stranded_point {machine after : Machine Other Runner Fn} {inner : Label Other Runner Fn} {timeout : Int}
    {posting : Posting} (point : machine.pc = .called timeout posting false ∨ machine.pc = .throwing timeout posting)
    (unended : ∀ exception, inner ≠ .ended exception) (stepped : machine.step inner = some after) :
    after.pc = .called timeout posting false ∨ after.pc = .throwing timeout posting := by
  cases Machine.step_cases stepped with
  | tick | script | push | postTimeout | cancelEvent | addLoopRunner | terminate => exact point
  | notifyPushed pushed => rcases point with point | point <;> simp [Machine.notified, point]
  | notify => rcases point with point | point <;> simp [Machine.notified, point]
  | settle =>
      rename_i there settled
      rcases point with point | point
      · cases there.symm.trans point
        exact .inr rfl
      · cases there.symm.trans point
  | threw | rethrew | runnerThrew | applied | applyThrew | released | releaseThrew => exact absurd rfl (unended _)
  | _ => simp_all

/-- A stranded process calls no timer and stays stranded. -/
theorem Stranded.step (stranded : process.Stranded) (taken : process.step label = some next) :
    next.Stranded ∧ process.invokes label = none := by
  obtain ⟨unreadable, point⟩ := stranded
  cases step_cases taken with
  | loop inner machine running uncalled ready stepped =>
      obtain ⟨timeout, posting, point⟩ := point.resolve_left (by simp [running])
      have stays := stranded_point point (ready unreadable) stepped
      exact ⟨⟨unreadable, .inr ⟨timeout, posting, stays⟩⟩, silent_point point⟩
  | pcall outcome machine running stepped =>
      obtain ⟨timeout, posting, point⟩ := point.resolve_left (by simp [running])
      rcases point with point | point <;> simp [Machine.step, point] at stepped
  | fatal timeout posting running unread reads => exact ⟨⟨unreadable, .inl rfl⟩, rfl⟩

/-- A stranded process never calls a timer again. -/
theorem Stranded.run (stranded : process.Stranded) (run : exec Process.step process labels = some final) :
    final.Stranded ∧ trace Process.step (fun process label => (process.invokes label).toList) process labels = [] := by
  induction labels generalizing process with
  | nil =>
      cases run
      exact ⟨stranded, rfl⟩
  | cons label rest ih =>
      obtain ⟨next, taken, run⟩ := exec_cons_some.mp run
      obtain ⟨nextStranded, silent⟩ := stranded.step taken
      obtain ⟨finalStranded, later⟩ := ih nextStranded run
      rw [trace_cons rest taken, silent, later]
      exact ⟨finalStranded, rfl⟩

/-- A run with an unreadable object ends in a stranded process. -/
theorem run_stranded (unread : label ∈ labels) (thrown : ¬label.Readable)
    (run : exec step process labels = some final) : final.Stranded := by
  obtain ⟨before, after, rfl⟩ := List.append_of_mem unread
  obtain ⟨middle, -, run⟩ := exec_append_some.mp run
  obtain ⟨next, taken, run⟩ := exec_cons_some.mp run
  exact ((stranded_of_unreadable thrown taken).run run).1

/-- While the functions throw nothing unreadable, the process goes on and its timers run the right number of times.
After an unreadable object no timer is called again. -/
theorem timers_run_right_number (accepted : ∀ label ∈ labels, label ≠ .loop (.ended (some false)))
    (run : exec step (initial runners) labels = some process) :
    ((∀ label ∈ labels, label.Readable) →
      process.Calm ∧ process.machine.RightNumber runners (labels.filterMap ProcessLabel.label)) ∧
    ∀ label ∈ labels, ¬label.Readable → ∀ more final, exec step process more = some final →
      trace step (fun process label => (process.invokes label).toList) process more = [] := by
  constructor
  · intro readable
    have start : (initial runners : Process Other Runner Fn).Calm := ⟨rfl, rfl⟩
    obtain ⟨calm, inner⟩ := start.run readable run
    refine ⟨calm, Machine.run_rightNumber ?_ inner⟩
    rintro _ member rfl
    obtain ⟨label, member, same⟩ := List.mem_filterMap.mp member
    cases label with
    | loop label =>
        cases same
        exact accepted _ member rfl
    | pcall outcome => cases same
    | fatal => cases same
  · intro label member unread more final further
    exact ((run_stranded member unread run).run further).2

/-- A timer runs before an interval whose function throws an error, and the interval keeps its place. -/
theorem timers_run_right_number_here : ∃ process : Process Unit Unit Nat,
    exec step (initial []) (ProcessLabel.loops ([.set 7 0 true, .set 8 3 false, .tick 3000001, .run] ++
      Label.nexts 19) ++ .pcall .returned :: ProcessLabel.loops (Label.nexts 4) ++
      [.pcall (.threw false), .loop .next]) = some process ∧
    process.aborted = false ∧ process.machine.view.held 1 = 1 := by
  have fires : (exec step (initial []) (ProcessLabel.loops ([.set 7 0 true, .set 8 3 false, .tick 3000001, .run] ++
      Label.nexts 19) ++ .pcall .returned :: ProcessLabel.loops (Label.nexts 4) ++
      [.pcall (.threw false), .loop .next]) : Option (Process Unit Unit Nat)).map (fun process =>
        ((process.machine.world.timers.object 1).oneShot, (process.machine.world.timers.object 1).id,
          process.machine.world.timers.fresh)) = some (false, 2, 2) := rfl
  obtain ⟨process, run, same⟩ := Option.map_eq_some_iff.mp fires
  simp only [Prod.mk.injEq] at same
  obtain ⟨interval, id, fresh⟩ := same
  obtain ⟨calm, right⟩ := (timers_run_right_number (by simp [ProcessLabel.loops, Label.nexts, Label.set]) run).1
    (by simp [ProcessLabel.loops, Label.nexts, Label.set, ProcessLabel.Readable, CallOutcome.unreadable])
  exact ⟨process, run, calm.running, right.kept 1 (by omega) interval (by rw [id]; decide)⟩

/-- The interval is listed again, yet the getter for `stack` aborts the process before the interval is called. -/
theorem unreadable_error_ends_interval : ∃ process aborted : Process Unit Unit Nat,
    exec step (initial []) (ProcessLabel.loops ([.set 8 3 false, .tick 3000001, .run] ++ Label.nexts 18) ++
      [.pcall (.threw true), .loop .next]) = some process ∧
    (process.machine.world.timers.object 0).oneShot = false ∧ process.machine.world.timers.listed 0 = 1 ∧
    (∀ more final, exec step process more = some final →
      trace step (fun process label => (process.invokes label).toList) process more = []) ∧
    process.step .fatal = some aborted ∧ ∀ label, aborted.step label = none := by
  have reached : (exec step (initial []) (ProcessLabel.loops ([.set 8 3 false, .tick 3000001, .run] ++ Label.nexts 18) ++
      [.pcall (.threw true), .loop .next]) : Option (Process Unit Unit Nat)).bind (fun process =>
        (process.step .fatal).map fun aborted =>
          ((process.machine.world.timers.object 0).oneShot, process.machine.world.timers.listed 0, aborted.aborted)) =
      some (false, 1, true) := rfl
  obtain ⟨process, run, reached⟩ := Option.bind_eq_some_iff.mp reached
  obtain ⟨aborted, fatal, same⟩ := Option.map_eq_some_iff.mp reached
  simp only [Prod.mk.injEq] at same
  obtain ⟨interval, listed, ended⟩ := same
  have unread : ¬(ProcessLabel.pcall (.threw true) : ProcessLabel Unit Unit Nat).Readable := by
    simp [ProcessLabel.Readable, CallOutcome.unreadable]
  refine ⟨process, aborted, run, interval, listed, ?_, fatal, fun label => by simp [Process.step, ended]⟩
  exact fun more final further => ((run_stranded (by simp) unread run).run further).2

end Process

end Dtel
