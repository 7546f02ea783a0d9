import Dtel.Construction.EventTarget.Target
import Mathlib.Data.List.Basic

namespace Dtel

variable {Fn Mark : Type}

/-- Each change names the list that it changes. -/
def Change.type : Change Fn → String
  | .add type _ | .remove type _ => type

/-- These callbacks are removed by the changes. -/
def removals (changes : List (Change Fn)) : List (Value Fn) :=
  changes.filterMap fun
    | .remove _ callback => some callback
    | .add _ _ => none

theorem mem_removals {type : String} {changes : List (Change Fn)} {callback : Value Fn}
    (ofType : ∀ change ∈ changes, change.type = type) :
    callback ∈ removals changes ↔ .remove type callback ∈ changes := by
  unfold removals
  rw [List.mem_filterMap]
  constructor
  · rintro ⟨change, member, removed⟩
    cases change with
    | add => cases removed
    | remove type' callback' =>
        cases removed
        cases ofType _ member
        exact member
  · intro member
    exact ⟨_, member, rfl⟩

namespace EventTarget

variable {target : EventTarget Fn Mark} {type name : String} {stack rest : List (Listener Fn Mark)}

@[simp] theorem setListeners_same : (target.setListeners type stack).listeners type = some stack := by
  simp [setListeners]

@[simp] theorem setListeners_twice :
    (target.setListeners type stack).setListeners type rest = target.setListeners type rest := by
  simp [setListeners]

theorem setListeners_other (different : name ≠ type) :
    (target.setListeners type stack).listeners name = target.listeners name := by
  simp [setListeners, different]

/-- Assignments to different types can be exchanged. -/
theorem setListeners_comm (different : name ≠ type) :
    (target.setListeners type stack).setListeners name rest =
      (target.setListeners name rest).setListeners type stack := by
  simp only [setListeners, Function.update_comm different]

theorem setListeners_self (own : target.listeners type = some stack) : target.setListeners type stack = target := by
  unfold setListeners
  rw [← own, Function.update_eq_self]

end EventTarget

variable [DecidableEq Fn]

/-- This is the effect of a change on the list of its type. -/
def Change.apply (mark : Mark) (stack : List (Listener Fn Mark)) : Change Fn → List (Listener Fn Mark)
  | .add _ callback => stack ++ [⟨callback, mark⟩]
  | .remove _ callback => stack.filter fun listener => listener.callback ≠ callback

/-- Listeners that were there before lose their removed callbacks and stay in front of the added ones. -/
theorem foldl_apply_append {mark : Mark} {changes : List (Change Fn)} {old added : List (Listener Fn Mark)} :
    changes.foldl (Change.apply mark) (old ++ added) =
      (old.filter fun listener => listener.callback ∉ removals changes) ++
        changes.foldl (Change.apply mark) added := by
  induction changes generalizing old added with
  | nil => simp [removals]
  | cons change changes inductionHypothesis =>
      cases change with
      | add type callback =>
          have step : Change.apply mark (old ++ added) (.add type callback) =
              old ++ Change.apply mark added (.add type callback) := by
            simp [Change.apply]
          rw [List.foldl_cons, List.foldl_cons, step, inductionHypothesis]
          rfl
      | remove type callback =>
          have step : Change.apply mark (old ++ added) (.remove type callback) =
              (old.filter fun listener => listener.callback ≠ callback) ++
                Change.apply mark added (.remove type callback) := by
            simp [Change.apply]
          have both : removals (.remove type callback :: changes) = callback :: removals changes := rfl
          rw [List.foldl_cons, List.foldl_cons, step, inductionHypothesis, List.filter_filter, both]
          simp only [List.mem_cons, not_or, Bool.decide_and, Bool.and_comm, ne_eq]

/-- An added listener has the mark of the call that adds it. -/
theorem mark_foldl_apply {mark : Mark} {changes : List (Change Fn)} {added : List (Listener Fn Mark)}
    (marked : ∀ listener ∈ added, listener.mark = mark) :
    ∀ listener ∈ changes.foldl (Change.apply mark) added, listener.mark = mark := by
  induction changes generalizing added with
  | nil => exact marked
  | cons change changes inductionHypothesis =>
      apply inductionHypothesis
      intro listener member
      cases change with
      | add type callback =>
          rcases List.mem_append.mp member with before | new
          · exact marked listener before
          · rw [List.mem_singleton.mp new]
      | remove type callback => exact marked listener (List.mem_of_mem_filter member)

namespace EventTarget

variable {target : EventTarget Fn Mark} {type : String} {callback : Value Fn}
  {stack rest : List (Listener Fn Mark)} {mark : Mark}

/-- The loop that finds nothing leaves a list without the callback. -/
theorem filter_of_splice_none (spliced : splice callback stack = none) :
    stack.filter (fun listener => listener.callback ≠ callback) = stack := by
  induction stack with
  | nil => rfl
  | cons listener stack inductionHypothesis =>
      unfold splice at spliced
      split at spliced
      case isTrue => cases spliced
      case isFalse different =>
          rw [Option.map_eq_none_iff] at spliced
          rw [List.filter_cons_of_pos (by simpa using different), inductionHypothesis spliced]

/-- The loop deletes one listener with the callback and keeps the others. -/
theorem filter_of_splice_some (spliced : splice callback stack = some rest) :
    rest.length + 1 = stack.length ∧
      rest.filter (fun listener => listener.callback ≠ callback) =
        stack.filter (fun listener => listener.callback ≠ callback) := by
  induction stack generalizing rest with
  | nil => cases spliced
  | cons listener stack inductionHypothesis =>
      unfold splice at spliced
      split at spliced
      case isTrue same =>
          cases spliced
          exact ⟨rfl, by simp [same]⟩
      case isFalse different =>
          obtain ⟨shorter, found, rfl⟩ := Option.map_eq_some_iff.mp spliced
          obtain ⟨length, kept⟩ := inductionHypothesis found
          constructor
          · simp [length]
          · rw [List.filter_cons_of_pos (by simpa using different),
              List.filter_cons_of_pos (by simpa using different), kept]

/-- The repeated calls delete each listener with the callback. -/
theorem removeCalls_eq_filter {calls : Nat} (enough : stack.length < calls) :
    removeCalls callback calls stack = stack.filter fun listener => listener.callback ≠ callback := by
  induction calls generalizing stack with
  | zero => cases enough
  | succ calls inductionHypothesis =>
      unfold removeCalls
      split
      case h_1 rest spliced =>
          obtain ⟨length, kept⟩ := filter_of_splice_some spliced
          rw [inductionHypothesis (by omega), kept]
      case h_2 spliced => exact (filter_of_splice_none spliced).symm

/-- A change of a list that the type owns returns. -/
theorem perform_own {change : Change Fn} (own : target.listeners type = some stack) (same : change.type = type) :
    target.perform mark change = .ok (target.setListeners type (change.apply mark stack)) := by
  cases change with
  | add type' callback =>
      cases same
      simp only [Change.type] at own ⊢
      simp [perform, addEventListener, has, own, Change.apply]
  | remove type' callback =>
      cases same
      have enough : stack.length < stack.length + 1 := Nat.lt_succ_self _
      simp only [perform, removeEventListener, Change.type] at own ⊢
      rw [own]
      simp only [removeCalls_eq_filter enough, Change.apply]

/-- A listener that changes only this list returns. -/
theorem performAll_own {changes : List (Change Fn)} (own : target.listeners type = some stack)
    (ofType : ∀ change ∈ changes, change.type = type) :
    target.performAll mark changes = .ok (target.setListeners type (changes.foldl (Change.apply mark) stack)) := by
  induction changes generalizing target stack with
  | nil => simp [performAll, setListeners_self own]
  | cons change changes inductionHypothesis =>
      have first : target.perform mark change = .ok (target.setListeners type (change.apply mark stack)) :=
        perform_own own (ofType change List.mem_cons_self)
      have others := fun other member => ofType other (List.mem_cons_of_mem change member)
      simp only [performAll, first, List.foldl_cons]
      rw [inductionHypothesis setListeners_same others, setListeners_twice]

end EventTarget

end Dtel
