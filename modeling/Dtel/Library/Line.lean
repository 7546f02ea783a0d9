import Mathlib.Data.List.Basic
import Mathlib.Order.Basic

namespace Dtel.Line

variable {A : Type*} {before : A → A → Prop} {source rest line shorter : List A} {entry first second : A}

/-- A pair of a longer line is an old pair, or its second entry is the new one. -/
theorem pair_sublist_concat (pair : [first, second].Sublist (line ++ [entry])) :
    [first, second].Sublist line ∨ second = entry ∧ first ∈ line := by
  obtain ⟨left, right, equal, leftPart, rightPart⟩ := List.sublist_append_iff.mp pair
  rcases left with _ | ⟨head, _ | ⟨next, tail⟩⟩
  · rw [List.nil_append] at equal
    have length := rightPart.length_le
    rw [← equal] at length
    simp at length
  · simp only [List.cons_append, List.nil_append, List.cons.injEq] at equal
    obtain ⟨rfl, rfl⟩ := equal
    exact Or.inr ⟨by simpa using rightPart, by simpa using leftPart⟩
  · have same : [first, second] = head :: next :: tail := by
      simp only [List.cons_append, List.cons.injEq] at equal
      obtain ⟨rfl, rfl, nothing⟩ := equal
      rw [List.append_eq_nil_iff.mp nothing.symm |>.1]
    exact Or.inl (same ▸ leftPart)

/-- Two entries of a line stand in one of the two orders. -/
theorem pair_sublist_of_mem (firstIn : first ∈ line) (secondIn : second ∈ line) (different : first ≠ second) :
    [first, second].Sublist line ∨ [second, first].Sublist line := by
  induction line with
  | nil => cases firstIn
  | cons head tail ih =>
      rcases List.mem_cons.mp firstIn with rfl | firstTail
      · have inTail := (List.mem_cons.mp secondIn).resolve_left different.symm
        exact Or.inl ((List.singleton_sublist.mpr inTail).cons_cons first)
      · rcases List.mem_cons.mp secondIn with rfl | secondTail
        · exact Or.inr ((List.singleton_sublist.mpr firstTail).cons_cons second)
        · exact (ih firstTail secondTail).imp (·.cons head) (·.cons head)

/-- A sorted source feeds a line. The second entry has not overtaken the first one. -/
structure Ahead (first second : A) (source line : List A) : Prop where
  unswapped : ¬[second, first].Sublist line
  behind : second ∈ line → first ∉ source

/-- The least entry of the source goes to the end of the line. -/
theorem Ahead.depart (ahead : Ahead first second (entry :: rest) line)
    (sorted : (entry :: rest).Pairwise before) (asymm : ∀ a b, before a b → ¬before b a)
    (order : before first second) : Ahead first second rest (line ++ [entry]) where
  unswapped pair := by
    rcases pair_sublist_concat pair with old | ⟨rfl, passed⟩
    · exact ahead.unswapped old
    · exact ahead.behind passed List.mem_cons_self
  behind member listed := by
    rcases List.mem_append.mp member with old | new
    · exact ahead.behind old (List.mem_cons_of_mem _ listed)
    · -- The least entry is not behind an entry that is still listed.
      rw [List.mem_singleton.mp new] at order
      exact asymm _ _ order ((List.pairwise_cons.mp sorted).1 _ listed)

/-- An arrival other than the first entry keeps the order. -/
theorem Ahead.arrive (ahead : Ahead first second source line) {more : List A}
    (members : first ∈ more → first ∈ source) : Ahead first second more line where
  unswapped := ahead.unswapped
  behind member listed := ahead.behind member (members listed)

/-- A line that loses entries keeps the order. -/
theorem Ahead.drop (ahead : Ahead first second source line) (part : shorter.Sublist line) :
    Ahead first second source shorter where
  unswapped pair := ahead.unswapped (pair.trans part)
  behind member := ahead.behind (part.subset member)

/-- Two listed entries start in order on a line that holds none of them. -/
theorem Ahead.start (absent : second ∉ line) : Ahead first second source line where
  unswapped pair := absent (pair.subset (by simp))
  behind member := absurd member absent

/-- The line is in order, and it is ahead of its whole source. -/
structure InOrder (before : A → A → Prop) (source line : List A) : Prop where
  ordered : line.Pairwise before
  below : ∀ passed ∈ line, ∀ listed ∈ source, before passed listed

theorem InOrder.depart (inOrder : InOrder before (entry :: rest) line)
    (sorted : (entry :: rest).Pairwise before) : InOrder before rest (line ++ [entry]) where
  ordered := by
    rw [List.pairwise_append]
    refine ⟨inOrder.ordered, List.pairwise_singleton _ _, fun passed member last isLast => ?_⟩
    rw [List.mem_singleton.mp isLast]
    exact inOrder.below passed member entry List.mem_cons_self
  below passed member listed inside := by
    rcases List.mem_append.mp member with old | new
    · exact inOrder.below passed old listed (List.mem_cons_of_mem _ inside)
    · rw [List.mem_singleton.mp new]
      exact (List.pairwise_cons.mp sorted).1 listed inside

/-- Entries may arrive when the whole line is ahead of them. -/
theorem InOrder.arrive (inOrder : InOrder before source line) {more : List A}
    (members : ∀ listed ∈ more, listed ∈ source ∨ ∀ passed ∈ line, before passed listed) :
    InOrder before more line where
  ordered := inOrder.ordered
  below passed member listed inside := by
    rcases members listed inside with old | new
    · exact inOrder.below passed member listed old
    · exact new passed member

theorem InOrder.drop (inOrder : InOrder before source line) (part : shorter.Sublist line) :
    InOrder before source shorter where
  ordered := inOrder.ordered.sublist part
  below passed member := inOrder.below passed (part.subset member)

end Dtel.Line
