import Dtel.Proof.EventTarget.Listeners

namespace Dtel.EventTarget

variable {Fn Mark : Type} [DecidableEq Fn] {target : EventTarget Fn Mark} {type other : String}
  {callback second : Value Fn} {stack rest final : List (Listener Fn Mark)} {calls : Nat}

/-- These listeners have another callback. -/
def without (callback : Value Fn) (stack : List (Listener Fn Mark)) : List (Listener Fn Mark) :=
  stack.filter fun listener => listener.callback ≠ callback

/-- A call of `removeEventListener` ends after this number of calls, of which each but the last deletes a listener
and calls the function again. There is no bound on the calls. -/
inductive Removal (callback : Value Fn) : Nat → List (Listener Fn Mark) → List (Listener Fn Mark) → Prop where
  | nothing (stack : List (Listener Fn Mark)) (spliced : splice callback stack = none) :
      Removal callback 1 stack stack
  | again (calls : Nat) (stack rest final : List (Listener Fn Mark)) (spliced : splice callback stack = some rest)
      (call : Removal callback calls rest final) : Removal callback (calls + 1) stack final

/-- A list splits into the listeners with the callback and those without it. -/
theorem countP_add_without (callback : Value Fn) (stack : List (Listener Fn Mark)) :
    stack.countP (fun listener => listener.callback = callback) + (without callback stack).length = stack.length := by
  have split := List.length_eq_countP_add_countP (l := stack) fun listener : Listener Fn Mark =>
    listener.callback = callback
  rw [without, ← List.countP_eq_length_filter, split]
  simp

/-- Calls that end leave the other listeners, and there is one call for each deleted listener and the last one. -/
theorem Removal.result (removal : Removal callback calls stack final) :
    final = without callback stack ∧ calls = stack.countP (fun listener => listener.callback = callback) + 1 := by
  induction removal with
  | nothing stack spliced =>
      have kept : without callback stack = stack := filter_of_splice_none spliced
      have split := countP_add_without callback stack
      rw [kept] at split
      exact ⟨kept.symm, by omega⟩
  | again calls stack rest final spliced call inductionHypothesis =>
      obtain ⟨length, kept⟩ := filter_of_splice_some spliced
      have same : without callback rest = without callback stack := kept
      obtain ⟨left, count⟩ := inductionHypothesis
      have before := countP_add_without callback stack
      have after := countP_add_without callback rest
      rw [same] at left after
      exact ⟨left, by omega⟩

/-- The calls end, since each deletion makes the list shorter. -/
theorem removal_ends (callback : Value Fn) (stack : List (Listener Fn Mark)) :
    ∃ calls final, Removal callback calls stack final := by
  induction length : stack.length generalizing stack with
  | zero =>
      cases List.eq_nil_of_length_eq_zero length
      exact ⟨1, [], .nothing [] rfl⟩
  | succ count inductionHypothesis =>
      cases spliced : splice callback stack with
      | none => exact ⟨1, stack, .nothing stack spliced⟩
      | some rest =>
          have shorter := (filter_of_splice_some spliced).1
          obtain ⟨calls, final, call⟩ := inductionHypothesis rest (by omega)
          exact ⟨calls + 1, final, .again calls stack rest final spliced call⟩

/-- The function of the model returns what the calls leave. -/
theorem removeEventListener_own (own : target.listeners type = some stack) :
    target.removeEventListener type callback = .ok (target.setListeners type (without callback stack)) := by
  simp only [removeEventListener, own]
  rw [removeCalls_eq_filter (Nat.lt_succ_self _), without]

theorem without_idempotent : without callback (without callback stack) = without callback stack := by
  simp [without]

theorem without_comm : without second (without callback stack) = without callback (without second stack) := by
  simp only [without, List.filter_filter, Bool.and_comm]

/-- Two removals in a row return in either order, and leave the same. -/
theorem removeEventListener_comm (own : target.listeners type = some stack)
    (ownOther : target.listeners other = some rest) :
    (target.removeEventListener type callback).bind (fun target => target.removeEventListener other second) =
      (target.removeEventListener other second).bind (fun target => target.removeEventListener type callback) := by
  rw [removeEventListener_own own, removeEventListener_own ownOther]
  simp only [Except.bind]
  by_cases same : other = type
  · subst same
    cases own.symm.trans ownOther
    rw [removeEventListener_own setListeners_same, removeEventListener_own setListeners_same, setListeners_twice,
      setListeners_twice, without_comm]
  · rw [removeEventListener_own ((setListeners_other same).trans ownOther),
      removeEventListener_own ((setListeners_other (Ne.symm same)).trans own), setListeners_comm same]

/-- A removal ends and deletes each listener with the callback and nothing else. A second removal of the callback
changes nothing, and removals commute. -/
theorem removal_is_exact (own : target.listeners type = some stack) :
    (∃ calls final, Removal callback calls stack final) ∧
      (∀ calls final, Removal callback calls stack final → final = without callback stack ∧
        calls = stack.countP (fun listener => listener.callback = callback) + 1) ∧
      target.removeEventListener type callback = .ok (target.setListeners type (without callback stack)) ∧
      (∀ other ≠ type, (target.setListeners type (without callback stack)).listeners other = target.listeners other) ∧
      (target.removeEventListener type callback).bind (fun target => target.removeEventListener type callback) =
        target.removeEventListener type callback ∧
      (∀ other rest second, target.listeners other = some rest →
        (target.removeEventListener type callback).bind (fun target => target.removeEventListener other second) =
          (target.removeEventListener other second).bind fun target => target.removeEventListener type callback) := by
  refine ⟨removal_ends callback stack, ?_, removeEventListener_own own, fun other => setListeners_other, ?_, ?_⟩
  · exact fun calls final removal => removal.result
  · rw [removeEventListener_own own]
    simp only [Except.bind]
    rw [removeEventListener_own setListeners_same, setListeners_twice, without_idempotent]
  · exact fun other rest second ownOther => removeEventListener_comm own ownOther

/-- A callback is registered twice, and another one between. -/
def doubled : EventTarget Nat Unit :=
  (EventTarget.construct objectPrototype).setListeners "message"
    [⟨.function 0, ()⟩, ⟨.function 1, ()⟩, ⟨.function 0, ()⟩]

theorem removal_is_exact_here :
    doubled.removeEventListener "message" (.function 0) = .ok (doubled.setListeners "message" [⟨.function 1, ()⟩]) := by
  have own : doubled.listeners "message" =
      some [⟨.function 0, ()⟩, ⟨.function 1, ()⟩, ⟨.function 0, ()⟩] := setListeners_same
  exact (removal_is_exact own).2.2.1

end Dtel.EventTarget
