import Dtel.Library.StableSort

namespace Dtel.Sweep
open StableSort

variable {A K : Type*} [LinearOrder K] {key : A → K} {start called : List A} {added : List (A × A)}
  {done todo front : List A} {entry new : A}

/-- A sweep calls the entries of a sorted list in turn while entries are added to the list. The sweep is past the
first part of the list, and the other part is still to come. Each addition is a pair of the entry that
was being called and the new one. -/
structure Sweeping (key : A → K) (start called : List A) (added : List (A × A)) (done todo : List A) : Prop where
  calls : called.Sublist done
  started : ∀ entry ∈ start, entry ∈ called ∨ entry ∈ todo
  ahead : ∀ pair ∈ added, key pair.1 ≤ key pair.2 → pair.2 ∈ called ∨ pair.2 ∈ todo
  missed : ∀ pair ∈ added, key pair.2 < key pair.1 → pair.2 ∈ done ∧ pair.2 ∉ called

/-- A sweep begins before the first entry. -/
theorem Sweeping.begin (list : List A) : Sweeping key list [] [] [] list where
  calls := List.Sublist.refl []
  started _ member := Or.inr member
  ahead := by simp
  missed := by simp

/-- The sweep calls the next entry. -/
theorem Sweeping.call (sweeping : Sweeping key start called added done (entry :: todo))
    (unique : (done ++ entry :: todo).Nodup) :
    Sweeping key start (called ++ [entry]) added (done ++ [entry]) todo where
  calls := sweeping.calls.append_right [entry]
  started other member := by
    rcases sweeping.started other member with old | later
    · exact Or.inl (List.mem_append_left _ old)
    · rcases List.mem_cons.mp later with rfl | behind
      · exact Or.inl (by simp)
      · exact Or.inr behind
  ahead pair member order := by
    rcases sweeping.ahead pair member order with old | later
    · exact Or.inl (List.mem_append_left _ old)
    · rcases List.mem_cons.mp later with same | behind
      · exact Or.inl (by simp [same])
      · exact Or.inr behind
  missed pair member order := by
    obtain ⟨past, uncalled⟩ := sweeping.missed pair member order
    refine ⟨List.mem_append_left _ past, ?_⟩
    have disjoint := (List.nodup_append.mp unique).2.2
    rw [List.mem_append, List.mem_singleton]
    rintro (old | same)
    · exact uncalled old
    · exact disjoint _ past entry List.mem_cons_self same

/-- The entry that is being called adds a new one, which goes to its place in the sorted list. The sweep comes
to it exactly when its key is not below that of the present entry. -/
theorem Sweeping.add (sweeping : Sweeping key start called added (front ++ [entry]) todo)
    (sorted : Sorted key (front ++ entry :: todo)) (fresh : new ∉ front ++ entry :: todo) :
    ∃ before later, sortBy key (front ++ entry :: todo ++ [new]) = before ++ entry :: later ∧
      Sweeping key start called (added ++ [(entry, new)]) (before ++ [entry]) later := by
  have uncalled : new ∉ called := by
    intro member
    have past := sweeping.calls.subset member
    exact fresh (by simp only [List.mem_append, List.mem_cons] at past ⊢; tauto)
  by_cases behind : key entry ≤ key new
  · refine ⟨front, sortBy key (todo ++ [new]), ?_, ?_⟩
    · rw [sortBy_concat_back sorted behind]
      simp
    · refine ⟨sweeping.calls, fun other member => ?_, fun pair member order => ?_, fun pair member order => ?_⟩
      · refine (sweeping.started other member).imp id fun later => ?_
        exact mem_sortBy.mpr (List.mem_append_left _ later)
      · rcases List.mem_append.mp member with old | last
        · refine (sweeping.ahead pair old order).imp id fun later => ?_
          exact mem_sortBy.mpr (List.mem_append_left _ later)
        · cases List.mem_singleton.mp last
          exact Or.inr (mem_sortBy.mpr (by simp))
      · rcases List.mem_append.mp member with old | last
        · exact sweeping.missed pair old order
        · cases List.mem_singleton.mp last
          exact absurd order (not_lt.mpr behind)
  · have below : key new < key entry := not_le.mp behind
    have grown : (front ++ [entry]).Sublist (sortBy key (front ++ [new]) ++ [entry]) :=
      (sublist_sortBy_concat (List.pairwise_append.mp sorted).1).append_right [entry]
    refine ⟨sortBy key (front ++ [new]), todo, sortBy_concat_front sorted below, ?_⟩
    refine ⟨sweeping.calls.trans grown, sweeping.started, fun pair member order => ?_, fun pair member order => ?_⟩
    · rcases List.mem_append.mp member with old | last
      · exact sweeping.ahead pair old order
      · cases List.mem_singleton.mp last
        exact absurd order (not_le.mpr below)
    · rcases List.mem_append.mp member with old | last
      · exact ⟨grown.subset (sweeping.missed pair old order).1, (sweeping.missed pair old order).2⟩
      · cases List.mem_singleton.mp last
        exact ⟨List.mem_append_left _ (mem_sortBy.mpr (by simp)), uncalled⟩

/-- At its end the sweep has called each entry of the start, and an added one exactly when its key was not below
that of the entry that added it. -/
theorem Sweeping.finish (sweeping : Sweeping key start called added done []) :
    (∀ entry ∈ start, entry ∈ called) ∧
      ∀ caller new, (caller, new) ∈ added → (new ∈ called ↔ key caller ≤ key new) := by
  constructor
  · intro entry member
    exact (sweeping.started entry member).resolve_right (List.not_mem_nil)
  · intro caller new member
    constructor
    · intro reached
      by_contra below
      exact (sweeping.missed _ member (not_le.mp below)).2 reached
    · intro order
      exact (sweeping.ahead _ member order).resolve_right List.not_mem_nil

end Dtel.Sweep
