import Mathlib.Data.List.Sort
import Mathlib.Order.Basic

namespace Dtel.StableSort

variable {A K : Type*} [LinearOrder K]

/-- The stable sort orders a list by a key and keeps the order of equal keys. -/
def sortBy (key : A → K) (list : List A) : List A :=
  list.insertionSort fun first second => key first ≤ key second

/-- The keys of the list never decrease. -/
abbrev Sorted (key : A → K) (list : List A) : Prop :=
  list.Pairwise fun first second => key first ≤ key second

variable {key : A → K} {list : List A} {last : A}

theorem sortBy_perm (key : A → K) (list : List A) : (sortBy key list).Perm list :=
  List.perm_insertionSort _ list

@[simp] theorem mem_sortBy {entry : A} : entry ∈ sortBy key list ↔ entry ∈ list :=
  List.mem_insertionSort _

theorem sorted_sortBy (key : A → K) (list : List A) : Sorted key (sortBy key list) :=
  List.pairwise_insertionSort _ list

/-- A new last entry goes behind each entry whose key is not greater. -/
theorem sortBy_concat (sorted : Sorted key list) :
    sortBy key (list ++ [last]) =
      list.filter (key · ≤ key last) ++ last :: list.filter (key last < key ·) := by
  induction list with
  | nil => rfl
  | cons head tail ih =>
      obtain ⟨least, tailSorted⟩ := List.pairwise_cons.mp sorted
      have tailSort := ih tailSorted
      unfold sortBy at tailSort ⊢
      rw [List.cons_append, List.insertionSort_cons, tailSort]
      by_cases behind : key head ≤ key last
      · -- The head stays first because no key of the sorted tail is below its own.
        rw [List.filter_cons_of_pos (by simpa using behind),
          List.filter_cons_of_neg (by simpa using behind), List.cons_append]
        cases front : tail.filter (key · ≤ key last) with
        | nil => exact List.orderedInsert_cons_of_le _ _ behind
        | cons entry rest =>
            have member : entry ∈ tail := List.mem_of_mem_filter (front ▸ List.mem_cons_self)
            exact List.orderedInsert_cons_of_le _ _ (least entry member)
      · have above : ∀ entry ∈ tail, key last < key entry := fun entry member =>
          lt_of_lt_of_le (not_le.mp behind) (least entry member)
        have noneBelow : tail.filter (key · ≤ key last) = [] := by
          rw [List.filter_eq_nil_iff]
          intro entry member
          simpa using above entry member
        have allAbove : tail.filter (key last < key ·) = tail := by
          rw [List.filter_eq_self]
          intro entry member
          simpa using above entry member
        rw [List.filter_cons_of_neg (by simpa using behind),
          List.filter_cons_of_pos (by simpa using behind), noneBelow, allAbove, List.nil_append,
          List.nil_append, List.orderedInsert_cons, if_neg behind]
        congr 1
        cases tail with
        | nil => rfl
        | cons entry rest => exact List.orderedInsert_cons_of_le _ _ (least entry List.mem_cons_self)

/-- A new last entry keeps the relative order of the other entries. -/
theorem sublist_sortBy_concat (sorted : Sorted key list) : list.Sublist (sortBy key (list ++ [last])) :=
  List.sublist_insertionSort sorted (List.sublist_append_left list [last])

/-- A strict order that refines the key order survives the insertion of a later entry. -/
theorem sortBy_concat_pairwise {before : A → A → Prop} (sorted : list.Pairwise before)
    (refines : ∀ first second, before first second → key first ≤ key second)
    (later : ∀ entry ∈ list, key entry ≤ key last → before entry last)
    (earlier : ∀ entry ∈ list, key last < key entry → before last entry) :
    (sortBy key (list ++ [last])).Pairwise before := by
  rw [sortBy_concat (sorted.imp fun {first second} => refines first second)]
  rw [List.pairwise_append]
  refine ⟨sorted.filter _, ?_, ?_⟩
  · rw [List.pairwise_cons]
    refine ⟨fun entry member => ?_, sorted.filter _⟩
    obtain ⟨inside, above⟩ := List.mem_filter.mp member
    exact earlier entry inside (by simpa using above)
  · intro first below second member
    obtain ⟨firstInside, firstBelow⟩ := List.mem_filter.mp below
    have firstKey : key first ≤ key last := by simpa using firstBelow
    rcases List.mem_cons.mp member with rfl | above
    · exact later first firstInside firstKey
    · obtain ⟨secondInside, secondAbove⟩ := List.mem_filter.mp above
      have secondKey : key last < key second := by simpa using secondAbove
      -- Both entries are old, so their order is the one the sorted list already has.
      by_contra unordered
      have order : ∀ left ∈ list, ∀ right ∈ list, left ≠ right → before left right ∨ before right left :=
        fun left leftIn right rightIn different =>
          (List.Pairwise.forall_of_forall_of_flip (R := fun a b => a ≠ b → before a b ∨ before b a)
            (fun _ _ same => absurd rfl same) (sorted.imp fun h _ => Or.inl h)
            (sorted.imp fun h _ => Or.inr h) leftIn rightIn) different
      have different : first ≠ second := by
        rintro rfl
        exact absurd firstKey (not_le.mpr secondKey)
      rcases order first firstInside second secondInside different with forward | backward
      · exact unordered forward
      · exact absurd (lt_of_le_of_lt firstKey secondKey) (not_lt.mpr (refines _ _ backward))

section Insert

variable {front back : List A} {entry : A}

/-- A new last entry whose key is not below that of an entry is sorted into the part behind this entry. -/
theorem sortBy_concat_back (sorted : Sorted key (front ++ entry :: back)) (behind : key entry ≤ key last) :
    sortBy key (front ++ entry :: back ++ [last]) = front ++ [entry] ++ sortBy key (back ++ [last]) := by
  obtain ⟨-, tailSorted, ahead⟩ := List.pairwise_append.mp sorted
  have backSorted : Sorted key back := (List.pairwise_cons.mp tailSorted).2
  have low : ∀ first ∈ front, key first ≤ key last := fun first member =>
    (ahead first member entry List.mem_cons_self).trans behind
  have frontKept : front.filter (key · ≤ key last) = front := by
    rw [List.filter_eq_self]
    intro first member
    simpa using low first member
  have frontLeft : front.filter (key last < key ·) = [] := by
    rw [List.filter_eq_nil_iff]
    intro first member
    simpa using low first member
  rw [sortBy_concat sorted, sortBy_concat backSorted, List.filter_append, List.filter_append, frontKept, frontLeft,
    List.filter_cons_of_pos (by simpa using behind), List.filter_cons_of_neg (by simpa using behind)]
  simp

/-- A new last entry whose key is below that of an entry is sorted into the part before this entry. -/
theorem sortBy_concat_front (sorted : Sorted key (front ++ entry :: back)) (before : key last < key entry) :
    sortBy key (front ++ entry :: back ++ [last]) = sortBy key (front ++ [last]) ++ entry :: back := by
  obtain ⟨frontSorted, tailSorted, -⟩ := List.pairwise_append.mp sorted
  have high : ∀ later ∈ entry :: back, key last < key later := by
    intro later member
    rcases List.mem_cons.mp member with rfl | inside
    · exact before
    · exact lt_of_lt_of_le before ((List.pairwise_cons.mp tailSorted).1 later inside)
  have tailKept : (entry :: back).filter (key last < key ·) = entry :: back := by
    rw [List.filter_eq_self]
    intro later member
    simpa using high later member
  have tailLeft : (entry :: back).filter (key · ≤ key last) = [] := by
    rw [List.filter_eq_nil_iff]
    intro later member
    simpa using high later member
  rw [sortBy_concat sorted, sortBy_concat frontSorted, List.filter_append, List.filter_append, tailKept, tailLeft]
  simp

/-- A new last entry whose key is not smaller changes only what is behind an entry. -/
theorem sortBy_concat_behind (sorted : Sorted key (front ++ entry :: back)) (behind : key entry ≤ key last) :
    ∃ rest, sortBy key (front ++ entry :: back ++ [last]) = front ++ entry :: rest := by
  refine ⟨sortBy key (back ++ [last]), ?_⟩
  rw [sortBy_concat_back sorted behind, List.append_assoc]
  rfl

end Insert

end Dtel.StableSort
