import Dtel.Library.Execution
import Dtel.Proof.Loop.Step
import Dtel.Proof.Timer.Refinement

namespace Dtel

variable {Other Runner Fn : Type}

/-- The drain loop has taken this event from the queue and is not done with it. -/
def Pc.inHand : Pc Other → List (Event Other)
  | .applying _ event | .releasing _ event => [event]
  | .calling _ posting | .called _ posting _ | .throwing _ posting => [.timeout posting]
  | _ => []

/-- The `apply` of this event has ended, and its `release` has not. -/
def Pc.inRelease : Pc Other → List (Event Other)
  | .releasing _ event => [event]
  | _ => []

namespace Machine

variable {machine next : Machine Other Runner Fn} {label : Label Other Runner Fn}
  {runners : List (Runner × Int)} {labels : List (Label Other Runner Fn)}

/-- The step removes these events from the queue: the drain loop pops one, and `clear` drops all. -/
def removes (machine : Machine Other Runner Fn) : Label Other Runner Fn → List (Event Other)
  | .next =>
      match machine.pc with
      | .draining _ => machine.world.queue.head?.toList
      | .leaving => machine.world.queue
      | _ => []
  | _ => []

/-- The step ends the `apply` of this event, normally or with an exception. -/
def finishes (machine : Machine Other Runner Fn) : Label Other Runner Fn → List (Event Other)
  | .next =>
      match machine.pc with
      | .applying _ (.timeout posting) =>
          if (machine.world.timers.object posting.event).removed = false ∧
            0 < (machine.world.timers.object posting.event).id then [] else [.timeout posting]
      | .called _ posting true => [.timeout posting]
      | _ => []
  | .ended _ =>
      match machine.pc with
      | .applying _ (.other event) => [.other event]
      | .throwing _ posting => [.timeout posting]
      | _ => []
  | _ => []

/-- The step ends the `release` of this event. -/
def releases (machine : Machine Other Runner Fn) : Label Other Runner Fn → List (Event Other)
  | .next =>
      match machine.pc with
      | .releasing _ (.timeout posting) => [.timeout posting]
      | _ => []
  | .ended _ =>
      match machine.pc with
      | .releasing _ (.other event) => [.other event]
      | _ => []
  | _ => []

/-- The step abandons these events without a release. -/
def loses (machine : Machine Other Runner Fn) : Label Other Runner Fn → List (Event Other)
  | .next =>
      match machine.pc with
      | .leaving => machine.world.queue
      | _ => []
  | .ended (some false) =>
      match machine.pc with
      | .applying _ (.other event) => [.other event]
      | .throwing _ posting => [.timeout posting]
      | _ => []
  | _ => []

/-- `processException` accepts each exception of an `apply`, and `clear` meets an empty queue. -/
def Retains (machine : Machine Other Runner Fn) (label : Label Other Runner Fn) : Prop :=
  match machine.pc, label with
  | .applying _ (.other _), .ended (some false) | .throwing .., .ended (some false) => False
  | .leaving, .next => machine.world.queue = []
  | _, _ => True

theorem loses_eq_nil : machine.loses label = [] ↔ machine.Retains label := by
  unfold loses Retains
  cases point : machine.pc with
  | applying timeout event =>
      cases event <;> cases label with
      | ended exception => rcases exception with _ | _ | _ <;> simp
      | _ => simp
  | throwing timeout posting =>
      cases label with
      | ended exception => rcases exception with _ | _ | _ <;> simp
      | _ => simp
  | _ =>
      cases label with
      | ended exception => rcases exception with _ | _ | _ <;> simp
      | _ => simp

instance (machine : Machine Other Runner Fn) (label : Label Other Runner Fn) : Decidable (machine.Retains label) :=
  decidable_of_iff ((machine.loses label).isEmpty = true) (List.isEmpty_iff.trans loses_eq_nil)

@[simp] theorem notified_inHand : machine.notified.pc.inHand = machine.pc.inHand := by
  unfold notified
  split
  case h_1 timeout point => simp [point, Pc.inHand]
  case h_2 => rfl

@[simp] theorem notified_inRelease : machine.notified.pc.inRelease = machine.pc.inRelease := by
  unfold notified
  split
  case h_1 timeout point => simp [point, Pc.inRelease]
  case h_2 => rfl

/-- Each step releases, loses or keeps in hand what was in hand or leaves the queue. -/
theorem removes_perm (taken : machine.step label = some next) :
    (machine.pc.inHand ++ machine.removes label).Perm
      (machine.releases label ++ machine.loses label ++ next.pc.inHand) := by
  cases step_cases taken with
  | settle timeout posting success timers point => cases success <;> simp [point, Pc.inHand, removes, releases, loses]
  | drain timeout event rest point queue | drainEmpty timeout point queue =>
      simp [point, queue, Pc.inHand, removes, releases, loses]
  | applied timeout event exception point accepted | released timeout event exception point accepted =>
      rcases exception with _ | _ | _
      · simp [point, Pc.inHand, removes, releases, loses]
      · exact absurd rfl accepted
      · simp [point, Pc.inHand, removes, releases, loses]
  | run point | enter point | leaveLoop point | pass point | endRunners _ point | check _ _ point
  | callRunner _ _ _ point | dispose _ _ _ _ _ point | take _ _ _ _ _ _ point | takeNone _ _ _ _ point
  | checked _ _ _ point | call _ _ _ point | callMissing _ _ point | skip _ _ point | release _ _ point
  | lock _ point | leave point | pcall _ _ _ point | looped _ _ _ point | runnerThrew _ _ point
  | applyThrew _ _ point | threw _ _ point | rethrew _ _ point | releaseThrew _ _ point | wake _ point =>
      simp [point, Pc.inHand, removes, releases, loses]
  | _ => simp [removes, releases, loses]

/-- An event is released only after its `apply` has ended. -/
theorem releases_sublist (taken : machine.step label = some next) :
    (machine.releases label ++ next.pc.inRelease).Sublist (machine.pc.inRelease ++ machine.finishes label) := by
  cases step_cases taken with
  | settle timeout posting success timers point => cases success <;> simp [point, Pc.inRelease, finishes, releases]
  | skip timeout posting point dead => simp [point, Pc.inRelease, finishes, releases, dead]
  | applied _ _ _ point | released _ _ _ point =>
      simp [point, Pc.inRelease, finishes, releases]
  | run point | enter point | leaveLoop point | pass point | endRunners _ point | check _ _ point
  | callRunner _ _ _ point | dispose _ _ _ _ _ point | take _ _ _ _ _ _ point | takeNone _ _ _ _ point
  | checked _ _ _ point | call _ _ _ point | callMissing _ _ point | release _ _ point | drain _ _ _ point
  | drainEmpty _ point | lock _ point | leave point | pcall _ _ _ point | looped _ _ _ point | runnerThrew _ _ point
  | applyThrew _ _ point | threw _ _ point | rethrew _ _ point | releaseThrew _ _ point | wake _ point =>
      simp [point, Pc.inRelease, finishes, releases]
  | _ => simp [finishes, releases]

/-- In each run, the released events are among those whose `apply` has ended, in the same order. -/
theorem released_after_apply (run : Execution.exec step machine labels = some next) :
    (Execution.trace step releases machine labels ++ next.pc.inRelease).Sublist
      (machine.pc.inRelease ++ Execution.trace step finishes machine labels) := by
  induction labels generalizing machine with
  | nil =>
      cases run
      simp
  | cons label rest ih =>
      obtain ⟨middle, taken, run⟩ := Execution.exec_cons_some.mp run
      rw [Execution.trace_cons rest taken, Execution.trace_cons rest taken, List.append_assoc, ← List.append_assoc]
      have later := (ih run).append_left (machine.releases label)
      have first := (releases_sublist taken).append_right (Execution.trace step finishes middle rest)
      rw [← List.append_assoc] at later
      rw [List.append_assoc] at later ⊢
      exact later.trans (by simpa using first)

/-- The loop releases each event that it removes from the queue exactly once, after its `apply`,
if and only if `processException` accepts each exception of an `apply` and `clear` drops no event. -/
theorem events_released_once (run : Execution.exec step (initial runners) labels = some machine) :
    ((Execution.trace step removes (initial runners) labels).Perm
        (Execution.trace step releases (initial runners) labels ++ machine.pc.inHand) ∧
      (Execution.trace step releases (initial runners) labels ++ machine.pc.inRelease).Sublist
        (Execution.trace step finishes (initial runners) labels)) ↔
      Execution.Along step Retains (initial runners) labels := by
  have account : (Execution.trace step removes (initial runners) labels).Perm
      (Execution.trace step releases (initial runners) labels ++
        Execution.trace step loses (initial runners) labels ++ machine.pc.inHand) :=
    Execution.trace_conserves (fun _ _ _ taken => removes_perm taken) run
  have silent : Execution.trace step loses (initial runners) labels = [] ↔
      Execution.Along step Retains (initial runners) labels := by
    rw [Execution.trace_eq_nil run]
    exact ⟨Execution.Along.mono fun _ _ => loses_eq_nil.mp, Execution.Along.mono fun _ _ => loses_eq_nil.mpr⟩
  rw [← silent]
  constructor
  · rintro ⟨released, -⟩
    have lengths := account.length_eq
    have balanced := released.length_eq
    simp only [List.length_append] at lengths balanced
    rw [← List.length_eq_zero_iff]
    omega
  · intro nothing
    rw [nothing] at account
    exact ⟨by simpa using account, by simpa [Pc.inRelease] using released_after_apply run⟩

/-- In this run the function of a timer throws, and `processException` answers. -/
def throwingRun (accepted : Bool) : List (Label Unit Unit Nat) :=
  [.set 7 0 true, .tick 1, .run] ++ Label.nexts 18 ++ [.pcall false, .next, .ended (some accepted)]

/-- An accepted exception leaves the timer to its release. -/
theorem events_released_once_here : ∃ machine : Machine Unit Unit Nat,
    Execution.exec step (initial []) (throwingRun true ++ [.next]) = some machine ∧
    (Execution.trace step removes (initial [] : Machine Unit Unit Nat) (throwingRun true ++ [.next])).Perm
      (Execution.trace step releases (initial [] : Machine Unit Unit Nat) (throwingRun true ++ [.next]) ++
        machine.pc.inHand) := by
  have ends : ((Execution.exec step (initial []) (throwingRun true ++ [.next])).map fun machine => machine.pc) =
      some (.draining 2000000001) := by decide
  obtain ⟨machine, run, -⟩ := Option.map_eq_some_iff.mp ends
  exact ⟨machine, run, ((events_released_once run).mpr (by decide)).1⟩

/-- An exception that `processException` does not accept leaves the timer without a release, and the
table keeps its function. -/
theorem rethrown_event_unreleased : ∃ machine : Machine Unit Unit Nat,
    Execution.exec step (initial []) (throwingRun false) = some machine ∧ machine.pc = .outside ∧
    (machine.world.timers.object 0).removed = true ∧ machine.world.refs 1 = some 7 ∧
    ¬(Execution.trace step removes (initial [] : Machine Unit Unit Nat) (throwingRun false)).Perm
      (Execution.trace step releases (initial [] : Machine Unit Unit Nat) (throwingRun false) ++
        machine.pc.inHand) := by
  have ends : (Execution.exec step (initial []) (throwingRun false)).map (fun machine =>
      (machine.pc, (machine.world.timers.object 0).removed, machine.world.refs 1)) =
        some (.outside, true, some 7) := by decide
  obtain ⟨machine, run, same⟩ := Option.map_eq_some_iff.mp ends
  simp only [Prod.mk.injEq] at same
  obtain ⟨point, removed, stored⟩ := same
  refine ⟨machine, run, point, removed, stored, ?_⟩
  rw [point]
  decide

end Machine

end Dtel
