/-
This file counts the threads of a list at which a property holds, and adds up their weights.
-/
import Mathlib.Algebra.GroupWithZero.Nat
import Mathlib.Data.List.Basic

namespace Dtel.Threads

variable {Thread : Type} {threads : List Thread} {number : Nat} {thread next : Thread}

/-- A thread of the changed list is the one that has moved, or it was there. -/
theorem mem_set (member : thread ∈ threads.set number next) : thread = next ∨ thread ∈ threads :=
  (List.mem_or_eq_of_mem_set member).symm

/-- The numbers of the other threads stay the same. -/
theorem set_cases {other : Nat} {found : Thread} (there : (threads.set number next)[other]? = some found) :
    (other = number ∧ found = next) ∨ (other ≠ number ∧ threads[other]? = some found) := by
  by_cases same : other = number
  · subst same
    rw [List.getElem?_set_self'] at there
    obtain ⟨old, -, rfl⟩ := Option.map_eq_some_iff.mp there
    exact Or.inl ⟨rfl, rfl⟩
  · rw [List.getElem?_set_ne (Ne.symm same)] at there
    exact Or.inr ⟨same, there⟩

theorem set_self (there : threads[number]? = some thread) : (threads.set number next)[number]? = some next := by
  rw [List.getElem?_set_self', there]
  rfl

/-- The count changes by the thread that moves. -/
theorem countP_set (counted : Thread → Bool) (next : Thread) (there : threads[number]? = some thread) :
    (threads.set number next).countP counted + (if counted thread then 1 else 0) =
      threads.countP counted + if counted next then 1 else 0 := by
  obtain ⟨below, same⟩ := List.getElem?_eq_some_iff.mp there
  have positive : counted thread = true → 0 < threads.countP counted := fun holds =>
    List.countP_pos_iff.mpr ⟨thread, List.mem_of_getElem? there, holds⟩
  rw [List.countP_set below, same]
  split
  case isTrue holds =>
      have some := positive holds
      omega
  case isFalse => omega

/-- What the threads have in hand changes by the thread that moves. -/
theorem filterMap_set {Output : Type} (hand : Thread → Option Output) (next : Thread) (there : threads[number]? = some thread) :
    ((threads.set number next).filterMap hand ++ (hand thread).toList).Perm
      (threads.filterMap hand ++ (hand next).toList) := by
  induction threads generalizing number with
  | nil => cases there
  | cons first rest inductionHypothesis =>
      cases number with
      | zero =>
          cases there
          cases before : hand thread <;> cases after : hand next <;>
            simp only [List.set_cons_zero, List.filterMap_cons, before, after, Option.toList_none, Option.toList_some,
              List.append_nil, List.cons_append]
          · exact List.Perm.refl _
          · exact (List.perm_append_singleton _ _).symm
          · exact List.perm_append_singleton _ _
          · exact ((List.perm_append_singleton _ _).cons _).trans
              ((List.Perm.swap _ _ _).trans ((List.perm_append_singleton _ _).symm.cons _))
      | succ number =>
          have tail := inductionHypothesis there
          rw [List.set_cons_succ, List.filterMap_cons, List.filterMap_cons]
          cases hand first with
          | none => exact tail
          | some output => exact tail.cons output

/-- The weights of all threads. -/
def weight (cost : Thread → Nat) (threads : List Thread) : Nat := (threads.map cost).sum

@[simp] theorem weight_append (cost : Thread → Nat) (first second : List Thread) :
    weight cost (first ++ second) = weight cost first + weight cost second := by
  simp [weight]

@[simp] theorem weight_singleton (cost : Thread → Nat) (thread : Thread) : weight cost [thread] = cost thread := by
  simp [weight]

/-- The weight changes by the thread that moves. -/
theorem weight_set (cost : Thread → Nat) (next : Thread) (there : threads[number]? = some thread) :
    weight cost (threads.set number next) + cost thread = weight cost threads + cost next := by
  induction threads generalizing number with
  | nil => cases there
  | cons first rest inductionHypothesis =>
      cases number with
      | zero =>
          cases there
          simp only [weight, List.set_cons_zero, List.map_cons, List.sum_cons]
          omega
      | succ number =>
          have tail := inductionHypothesis there
          simp only [weight, List.set_cons_succ, List.map_cons, List.sum_cons] at tail ⊢
          omega

/-- A positive weight is due to a thread. -/
theorem weight_pos {cost : Thread → Nat} : 0 < weight cost threads ↔ ∃ thread ∈ threads, 0 < cost thread := by
  rw [weight, List.sum_pos_iff_exists_pos_nat]
  simp only [List.mem_map]
  constructor
  · rintro ⟨amount, ⟨thread, member, rfl⟩, positive⟩
    exact ⟨thread, member, positive⟩
  · rintro ⟨thread, member, positive⟩
    exact ⟨cost thread, ⟨thread, member, rfl⟩, positive⟩

/-- A change of all threads that adds at most this amount to each adds at most this amount for each. -/
theorem weight_map_le (cost : Thread → Nat) (change : Thread → Thread) (extra : Nat)
    (bounded : ∀ thread, cost (change thread) ≤ cost thread + extra) :
    weight cost (threads.map change) ≤ weight cost threads + extra * threads.length := by
  induction threads with
  | nil => exact Nat.le_refl _
  | cons first rest inductionHypothesis =>
      have here := bounded first
      simp only [weight, List.map_cons, List.sum_cons, List.length_cons, Nat.mul_succ] at inductionHypothesis ⊢
      omega

/-- A change that no property of the count sees leaves the count. -/
theorem countP_map (counted : Thread → Bool) (change : Thread → Thread)
    (same : ∀ thread, counted (change thread) = counted thread) :
    (threads.map change).countP counted = threads.countP counted := by
  rw [List.countP_map]
  exact List.countP_congr fun thread _ => by rw [Function.comp, same]

end Dtel.Threads
