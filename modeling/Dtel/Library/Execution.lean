import Mathlib.Algebra.GroupWithZero.Nat
import Mathlib.Data.List.Basic

namespace Dtel.Execution

variable {State Label Output : Type*}

/-- A run follows its labels and fails at the first disabled one. -/
def exec (step : State → Label → Option State) : State → List Label → Option State
  | state, [] => some state
  | state, label :: rest => (step state label).bind fun next => exec step next rest

/-- The guard holds of the state and the label of each step that a run takes. -/
def Along (step : State → Label → Option State) (guard : State → Label → Prop) :
    State → List Label → Prop
  | _, [] => True
  | state, label :: rest =>
      guard state label ∧ ∀ next, step state label = some next → Along step guard next rest

/-- The trace collects what each step of a run shows. -/
def trace (step : State → Label → Option State) (observe : State → Label → List Output) :
    State → List Label → List Output
  | _, [] => []
  | state, label :: rest =>
      match step state label with
      | none => []
      | some next => observe state label ++ trace step observe next rest

/-- This trace starts again after each step that resets it. -/
def since (step : State → Label → Option State) (resets : State → Label → Bool)
    (observe : State → Label → List Output) : State → List Label → List Output → List Output
  | _, [], shown => shown
  | state, label :: rest, shown =>
      match step state label with
      | none => shown
      | some next =>
          since step resets observe next rest (if resets state label then [] else shown ++ observe state label)

variable {step : State → Label → Option State}

@[simp] theorem exec_nil (state : State) : exec step state [] = some state := rfl

theorem exec_cons (state : State) (label : Label) (rest : List Label) :
    exec step state (label :: rest) = (step state label).bind fun next => exec step next rest := rfl

/-- A completed run passes through the state after its first step. -/
theorem exec_cons_some {state final : State} {label : Label} {rest : List Label} :
    exec step state (label :: rest) = some final ↔
      ∃ next, step state label = some next ∧ exec step next rest = some final := by
  rw [exec_cons, Option.bind_eq_some_iff]

/-- Two runs in sequence form one run. -/
theorem exec_append (state : State) (first second : List Label) :
    exec step state (first ++ second) = (exec step state first).bind fun middle => exec step middle second := by
  induction first generalizing state with
  | nil => rfl
  | cons label rest ih =>
      rw [List.cons_append, exec_cons, exec_cons, Option.bind_assoc]
      congr 1
      funext next
      exact ih next

theorem exec_append_some {state final : State} {first second : List Label} :
    exec step state (first ++ second) = some final ↔
      ∃ middle, exec step state first = some middle ∧ exec step middle second = some final := by
  rw [exec_append, Option.bind_eq_some_iff]

/-- A decidable guard can be checked along a run. -/
instance Along.decidable {guard : State → Label → Prop} [∀ state label, Decidable (guard state label)] :
    (state : State) → (labels : List Label) → Decidable (Along step guard state labels)
  | _, [] => .isTrue trivial
  | state, label :: rest =>
      match taken : step state label with
      | none => decidable_of_iff (guard state label) (by simp [Along, taken])
      | some next =>
          have : Decidable (Along step guard next rest) := Along.decidable next rest
          decidable_of_iff (guard state label ∧ Along step guard next rest) (by simp [Along, taken])

/-- A weaker guard holds along the same run. -/
theorem Along.mono {guard weaker : State → Label → Prop}
    (implies : ∀ state label, guard state label → weaker state label) {state : State} {labels : List Label}
    (strong : Along step guard state labels) : Along step weaker state labels := by
  induction labels generalizing state with
  | nil => trivial
  | cons label rest ih => exact ⟨implies _ _ strong.1, fun next taken => ih (strong.2 next taken)⟩

/-- Two guards hold along a run when each of them does. -/
theorem Along.and {first second : State → Label → Prop} {state : State} {labels : List Label}
    (left : Along step first state labels) (right : Along step second state labels) :
    Along step (fun state label => first state label ∧ second state label) state labels := by
  induction labels generalizing state with
  | nil => trivial
  | cons label rest ih => exact ⟨⟨left.1, right.1⟩, fun next taken => ih (left.2 next taken) (right.2 next taken)⟩

/-- A guard that reads only the label is a condition on the list of labels. -/
theorem Along.of_forall {guard : State → Label → Prop} {state : State} {labels : List Label}
    (each : ∀ label ∈ labels, ∀ state, guard state label) : Along step guard state labels := by
  induction labels generalizing state with
  | nil => trivial
  | cons label rest ih =>
      exact ⟨each label (by simp) state,
        fun next _ => ih fun other member => each other (List.mem_cons_of_mem _ member)⟩

/-- A property that each guarded step preserves holds at the end of each guarded run. -/
theorem exec_invariant_along {invariant : State → Prop} {guard : State → Label → Prop}
    (preserved : ∀ state label next, invariant state → guard state label →
      step state label = some next → invariant next)
    {state final : State} {labels : List Label} (start : invariant state)
    (guarded : Along step guard state labels) (run : exec step state labels = some final) :
    invariant final := by
  induction labels generalizing state with
  | nil =>
      cases run
      exact start
  | cons label rest ih =>
      obtain ⟨next, taken, run⟩ := exec_cons_some.mp run
      exact ih (preserved state label next start guarded.1 taken) (guarded.2 next taken) run

/-- What an invariant and the guard imply of each step holds along the run. -/
theorem Along.of_invariant {invariant : State → Prop} {guard implied : State → Label → Prop}
    (preserved : ∀ state label next, invariant state → guard state label →
      step state label = some next → invariant next)
    (implies : ∀ state label, invariant state → guard state label → implied state label)
    {state : State} {labels : List Label} (start : invariant state)
    (guarded : Along step guard state labels) : Along step implied state labels := by
  induction labels generalizing state with
  | nil => trivial
  | cons label rest ih =>
      refine ⟨implies state label start guarded.1, fun next taken => ?_⟩
      exact ih (preserved state label next start guarded.1 taken) (guarded.2 next taken)

/-- When each step against the guard leaves a mark and no step removes it, a run without the mark keeps the guard. -/
theorem Along.of_unmarked {mark : State → Prop} {guard : State → Label → Prop}
    (marks : ∀ state label next, ¬guard state label → step state label = some next → mark next)
    (stays : ∀ state label next, mark state → step state label = some next → mark next)
    {state final : State} {labels : List Label} (run : exec step state labels = some final) (unmarked : ¬mark final) :
    Along step guard state labels := by
  have remains (start : State) (rest : List Label) (marked : mark start) (run : exec step start rest = some final) :
      mark final := by
    induction rest generalizing start with
    | nil =>
        cases run
        exact marked
    | cons label rest ih =>
        obtain ⟨next, taken, run⟩ := exec_cons_some.mp run
        exact ih next (stays start label next marked taken) run
  induction labels generalizing state with
  | nil => trivial
  | cons label rest ih =>
      obtain ⟨next, taken, run⟩ := exec_cons_some.mp run
      refine ⟨?_, fun other same => ?_⟩
      · by_contra against
        exact unmarked (remains next rest (marks state label next against taken) run)
      · cases taken.symm.trans same
        exact ih run

/-- A property that each step preserves holds at the end of each run. -/
theorem exec_invariant {invariant : State → Prop}
    (preserved : ∀ state label next, invariant state → step state label = some next → invariant next)
    {state final : State} {labels : List Label} (start : invariant state)
    (run : exec step state labels = some final) : invariant final := by
  have unguarded : Along step (fun _ _ => True) state labels := Along.of_forall fun _ _ _ => trivial
  exact exec_invariant_along (fun state label next holds _ taken => preserved state label next holds taken)
    start unguarded run

/-- When each step of a run pays for its work from a store, the work of the run is at most what the store held
and what the steps brought. -/
theorem exec_amortized {store : State → Nat} {work cost : Label → Nat} {guard : State → Label → Prop}
    (pays : ∀ state label next, guard state label → step state label = some next →
      store next + work label ≤ store state + cost label)
    {state final : State} {labels : List Label} (guarded : Along step guard state labels)
    (run : exec step state labels = some final) :
    store final + (labels.map work).sum ≤ store state + (labels.map cost).sum := by
  induction labels generalizing state with
  | nil =>
      cases run
      simp
  | cons label rest ih =>
      obtain ⟨next, taken, run⟩ := exec_cons_some.mp run
      have first := pays state label next guarded.1 taken
      have later := ih (guarded.2 next taken) run
      simp only [List.map_cons, List.sum_cons]
      omega

/-- A system that can always take a chosen step from its store, while it is not at rest, comes to rest with
such steps alone. -/
theorem exec_rests {store : State → Nat} {invariant busy : State → Prop} {chosen : Label → Prop}
    (advances : ∀ state, invariant state → busy state → ∃ label next, chosen label ∧
      step state label = some next ∧ invariant next ∧ store next < store state)
    {state : State} (start : invariant state) :
    ∃ labels final, (∀ label ∈ labels, chosen label) ∧ labels.length ≤ store state ∧
      exec step state labels = some final ∧ invariant final ∧ ¬busy final := by
  induction held : store state using Nat.strongRecOn generalizing state with
  | ind amount ih =>
      by_cases working : busy state
      · obtain ⟨label, next, good, taken, kept, less⟩ := advances state start working
        obtain ⟨labels, final, all, short, run, rest⟩ := ih (store next) (held ▸ less) kept rfl
        refine ⟨label :: labels, final, ?_, ?_, exec_cons_some.mpr ⟨next, taken, run⟩, rest⟩
        · intro other member
          rcases List.mem_cons.mp member with rfl | later
          · exact good
          · exact all other later
        · rw [List.length_cons]
          omega
      · exact ⟨[], state, by simp, by simp, rfl, start, working⟩

section Trace

variable {observe : State → Label → List Output}

@[simp] theorem trace_nil (state : State) : trace step observe state [] = [] := rfl

/-- An enabled step shows its output before the rest of the run. -/
theorem trace_cons {state next : State} {label : Label} (rest : List Label)
    (taken : step state label = some next) :
    trace step observe state (label :: rest) = observe state label ++ trace step observe next rest := by
  simp only [trace, taken]

/-- A relation of states and outputs that each guarded step preserves holds at the end of each guarded run. -/
theorem trace_invariant_along {invariant : State → List Output → Prop} {guard : State → Label → Prop}
    (preserved : ∀ state label next shown, invariant state shown → guard state label →
      step state label = some next → invariant next (shown ++ observe state label))
    {state final : State} {labels : List Label} {shown : List Output} (start : invariant state shown)
    (guarded : Along step guard state labels) (run : exec step state labels = some final) :
    invariant final (shown ++ trace step observe state labels) := by
  induction labels generalizing state shown with
  | nil =>
      cases run
      simpa using start
  | cons label rest ih =>
      obtain ⟨next, taken, run⟩ := exec_cons_some.mp run
      have tail := ih (preserved state label next shown start guarded.1 taken) (guarded.2 next taken) run
      rwa [List.append_assoc, ← trace_cons rest taken] at tail

/-- A relation of states and outputs that each step preserves holds at the end of each run. -/
theorem trace_invariant {invariant : State → List Output → Prop}
    (preserved : ∀ state label next shown, invariant state shown →
      step state label = some next → invariant next (shown ++ observe state label))
    {state final : State} {labels : List Label} {shown : List Output} (start : invariant state shown)
    (run : exec step state labels = some final) :
    invariant final (shown ++ trace step observe state labels) := by
  have unguarded : Along step (fun _ _ => True) state labels := Along.of_forall fun _ _ _ => trivial
  exact trace_invariant_along
    (fun state label next shown holds _ taken => preserved state label next shown holds taken)
    start unguarded run

/-- A completed run shows nothing exactly when none of its steps does. -/
theorem trace_eq_nil {state final : State} {labels : List Label} (run : exec step state labels = some final) :
    trace step observe state labels = [] ↔ Along step (fun state label => observe state label = []) state labels := by
  induction labels generalizing state with
  | nil => exact ⟨fun _ => trivial, fun _ => rfl⟩
  | cons label rest ih =>
      obtain ⟨next, taken, run⟩ := exec_cons_some.mp run
      rw [trace_cons rest taken, List.append_eq_nil_iff, ih run]
      constructor
      · rintro ⟨silent, later⟩
        refine ⟨silent, fun other same => ?_⟩
        cases taken.symm.trans same
        exact later
      · exact fun along => ⟨along.1, along.2 next taken⟩

/-- An output that stays empty along a run can be left out of the trace. -/
theorem trace_append_nil {other : State → Label → List Output} {state : State} {labels : List Label}
    (silent : Along step (fun state label => other state label = []) state labels) :
    trace step (fun state label => observe state label ++ other state label) state labels =
      trace step observe state labels := by
  induction labels generalizing state with
  | nil => rfl
  | cons label rest ih =>
      cases taken : step state label with
      | none => simp only [trace, taken]
      | some next => rw [trace_cons rest taken, trace_cons rest taken, silent.1, List.append_nil, ih (silent.2 next taken)]

/-- A part of each output is traced as the part of the trace. -/
theorem trace_filterMap {Part : Type*} (part : Output → Option Part) (state : State) (labels : List Label) :
    trace step (fun state label => (observe state label).filterMap part) state labels =
      (trace step observe state labels).filterMap part := by
  induction labels generalizing state with
  | nil => rfl
  | cons label rest ih =>
      cases taken : step state label with
      | none => simp only [trace, taken, List.filterMap_nil]
      | some next => rw [trace_cons rest taken, trace_cons rest taken, List.filterMap_append, ih next]

/-- What a run takes in is what it gives back, what it loses, and what it still has in hand, when each
step keeps this account. -/
theorem trace_conserves {hand : State → List Output} {taken given lost : State → Label → List Output}
    (conserves : ∀ state label next, step state label = some next →
      (hand state ++ taken state label).Perm (given state label ++ lost state label ++ hand next))
    {state final : State} {labels : List Label} (run : exec step state labels = some final) :
    (hand state ++ trace step taken state labels).Perm
      (trace step given state labels ++ trace step lost state labels ++ hand final) := by
  classical
  induction labels generalizing state with
  | nil =>
      cases run
      simp
  | cons label rest ih =>
      obtain ⟨next, enabled, run⟩ := exec_cons_some.mp run
      rw [trace_cons rest enabled, trace_cons rest enabled, trace_cons rest enabled, List.perm_iff_count]
      intro entry
      have first := (conserves state label next enabled).count_eq entry
      have later := (ih run).count_eq entry
      simp only [List.count_append] at first later ⊢
      omega

end Trace

section Since

variable {Other : Type*} {resets : State → Label → Bool} {observe : State → Label → List Output}
  {listen : State → Label → List Other}

/-- An enabled step adds its output, or resets the record. -/
theorem since_cons {state next : State} {label : Label} (rest : List Label) (shown : List Output)
    (taken : step state label = some next) :
    since step resets observe state (label :: rest) shown =
      since step resets observe next rest (if resets state label then [] else shown ++ observe state label) := by
  simp only [since, taken]

/-- Two records that are reset together keep each relation that all other steps keep. -/
theorem since_invariant (relation : State → List Output → List Other → Prop)
    (reset : ∀ state label next, step state label = some next → resets state label = true → relation next [] [])
    (preserved : ∀ state label next shown heard, relation state shown heard → step state label = some next →
      resets state label = false → relation next (shown ++ observe state label) (heard ++ listen state label))
    {state final : State} {labels : List Label} {shown : List Output} {heard : List Other}
    (start : relation state shown heard) (run : exec step state labels = some final) :
    relation final (since step resets observe state labels shown) (since step resets listen state labels heard) := by
  induction labels generalizing state shown heard with
  | nil =>
      cases run
      exact start
  | cons label rest ih =>
      obtain ⟨next, taken, run⟩ := exec_cons_some.mp run
      rw [since_cons rest shown taken, since_cons rest heard taken]
      apply ih _ run
      cases cleared : resets state label with
      | true => exact reset state label next taken cleared
      | false => exact preserved state label next shown heard start taken cleared

/-- A record that nothing resets is the trace. -/
theorem since_never {state final : State} {labels : List Label} (shown : List Output)
    (run : exec step state labels = some final) :
    since step (fun _ _ => false) observe state labels shown = shown ++ trace step observe state labels := by
  induction labels generalizing state shown with
  | nil => simp [since]
  | cons label rest ih =>
      obtain ⟨next, taken, run⟩ := exec_cons_some.mp run
      rw [since_cons rest shown taken, trace_cons rest taken, if_neg (by simp), ih _ run, List.append_assoc]

end Since

section Tagged

variable {Value : Type*}

/-- The entries that a log holds under one tag. -/
def entriesOf (tag : Nat) (log : List (Nat × Output)) : List Output :=
  log.filterMap fun entry => if entry.1 = tag then some entry.2 else none

@[simp] theorem entriesOf_nil (tag : Nat) : entriesOf tag ([] : List (Nat × Output)) = [] := rfl

@[simp] theorem entriesOf_append (tag : Nat) (first second : List (Nat × Output)) :
    entriesOf tag (first ++ second) = entriesOf tag first ++ entriesOf tag second :=
  List.filterMap_append

/-- A log without this tag has no entries under it. -/
theorem entriesOf_eq_nil {tag : Nat} {log : List (Nat × Output)} (absent : ∀ entry ∈ log, entry.1 ≠ tag) :
    entriesOf tag log = [] := by
  apply List.filterMap_eq_nil_iff.mpr
  intro entry member
  exact if_neg (absent entry member)

/-- All entries that are written under one tag are found under it. -/
@[simp] theorem entriesOf_tagged (tag : Nat) (outputs : List Output) :
    entriesOf tag (outputs.map fun output => (tag, output)) = outputs := by
  simp [entriesOf, List.filterMap_map]

theorem entriesOf_tagged_ne {tag other : Nat} (outputs : List Output) (different : other ≠ tag) :
    entriesOf tag (outputs.map fun output => (other, output)) = [] := by
  simp [entriesOf, List.filterMap_map, different]

/-- A change of the tags that tells this tag from the others keeps the entries. -/
theorem entriesOf_map {tag renamed : Nat} (rename : Nat → Nat) (convert : Output → Value) {log : List (Nat × Output)}
    (distinct : ∀ entry ∈ log, rename entry.1 = renamed ↔ entry.1 = tag) :
    entriesOf renamed (log.map fun entry => (rename entry.1, convert entry.2)) = (entriesOf tag log).map convert := by
  unfold entriesOf
  rw [List.filterMap_map, List.map_filterMap]
  apply List.filterMap_congr
  intro entry member
  simp only [Function.comp_apply, distinct entry member]
  split <;> rfl

end Tagged

section Simulation

variable {View Act : Type*} {abstract : View → Act → Option View}

/-- The abstract labels of a concrete run. -/
def acts (step : State → Label → Option State) (act : State → Label → Act) :
    State → List Label → List Act :=
  trace step fun state label => [act state label]

/-- A step-by-step simulation maps each concrete run to an abstract run. The simulation may use
an invariant of the concrete states. -/
theorem exec_simulation {view : State → View} {act : State → Label → Act} {invariant : State → Prop}
    (preserved : ∀ state label next, invariant state → step state label = some next → invariant next)
    (simulates : ∀ state label next, invariant state → step state label = some next →
      abstract (view state) (act state label) = some (view next))
    {state final : State} {labels : List Label} (start : invariant state)
    (run : exec step state labels = some final) :
    exec abstract (view state) (acts step act state labels) = some (view final) := by
  induction labels generalizing state with
  | nil =>
      cases run
      rfl
  | cons label rest ih =>
      obtain ⟨next, taken, run⟩ := exec_cons_some.mp run
      rw [acts, trace_cons _ taken, List.singleton_append, exec_cons, simulates state label next start taken]
      exact ih (preserved state label next start taken) run

/-- A run of a part is a run of the whole, when each of its chosen steps is a step of the whole. -/
theorem exec_embeds {embed : View → State} {name : Act → Label} {invariant : View → Prop} {chosen : Act → Prop}
    (embeds : ∀ view act next, invariant view → chosen act → abstract view act = some next →
      invariant next ∧ step (embed view) (name act) = some (embed next))
    {view final : View} {acts : List Act} (start : invariant view) (all : ∀ act ∈ acts, chosen act)
    (run : exec abstract view acts = some final) : exec step (embed view) (acts.map name) = some (embed final) := by
  induction acts generalizing view with
  | nil =>
      cases run
      rfl
  | cons act rest ih =>
      obtain ⟨next, taken, run⟩ := exec_cons_some.mp run
      obtain ⟨kept, named⟩ := embeds view act next start (all act (by simp)) taken
      rw [List.map_cons, exec_cons, named]
      exact ih kept (fun other member => all other (List.mem_cons_of_mem _ member)) run

/-- A guard that holds along the concrete run holds along the simulated run. -/
theorem along_simulation {view : State → View} {act : State → Label → Act} {invariant : State → Prop}
    (preserved : ∀ state label next, invariant state → step state label = some next → invariant next)
    (simulates : ∀ state label next, invariant state → step state label = some next →
      abstract (view state) (act state label) = some (view next))
    {guard : View → Act → Prop} {state final : State} {labels : List Label} (start : invariant state)
    (run : exec step state labels = some final)
    (guarded : Along step (fun state label => guard (view state) (act state label)) state labels) :
    Along abstract guard (view state) (acts step act state labels) := by
  induction labels generalizing state with
  | nil => trivial
  | cons label rest ih =>
      obtain ⟨next, taken, run⟩ := exec_cons_some.mp run
      rw [acts, trace_cons _ taken, List.singleton_append]
      refine ⟨guarded.1, fun other same => ?_⟩
      cases (simulates state label next start taken).symm.trans same
      exact ih (preserved state label next start taken) run (guarded.2 next taken)

/-- An output that only the abstract step determines is the output of the simulated run. -/
theorem trace_simulation {view : State → View} {act : State → Label → Act} {invariant : State → Prop}
    (preserved : ∀ state label next, invariant state → step state label = some next → invariant next)
    (simulates : ∀ state label next, invariant state → step state label = some next →
      abstract (view state) (act state label) = some (view next))
    {observe : View → Act → List Output} {state final : State} {labels : List Label} (start : invariant state)
    (run : exec step state labels = some final) :
    trace step (fun state label => observe (view state) (act state label)) state labels =
      trace abstract observe (view state) (acts step act state labels) := by
  induction labels generalizing state with
  | nil => rfl
  | cons label rest ih =>
      obtain ⟨next, taken, run⟩ := exec_cons_some.mp run
      rw [trace_cons _ taken, acts, trace_cons _ taken, List.singleton_append,
        trace_cons _ (simulates state label next start taken),
        ih (preserved state label next start taken) run]
      rfl

end Simulation

end Dtel.Execution
