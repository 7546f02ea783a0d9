import Mathlib.Data.List.Basic
import Mathlib.Data.List.Nodup

namespace Dtel.Walk

variable {A K : Type*} [DecidableEq K] {key : A → K} {list longer : List A} {head entry : A} {place : K}

/-- A walk along a list stands at the entry with this key, and this is the rest of the list. -/
def rest (key : A → K) (list : List A) (place : K) : List A := list.dropWhile fun entry => key entry ≠ place

theorem rest_cons_self (list : List A) (here : key head = place) :
    rest key (head :: list) place = head :: list := by
  simp [rest, here]

theorem rest_cons_of_ne (list : List A) (elsewhere : key head ≠ place) :
    rest key (head :: list) place = rest key list place := by
  simp [rest, elsewhere]

theorem rest_subset (place : K) : rest key list place ⊆ list := List.dropWhile_subset _

/-- The walk starts with the whole list. -/
theorem rest_first (first : list.head? = some entry) : rest key list (key entry) = list := by
  obtain ⟨tail, rfl⟩ := List.head?_eq_some_iff.mp first
  exact rest_cons_self tail rfl

/-- The walk stands at an entry, which is the first of the rest. -/
theorem rest_append {front back : List A} (unique : ((front ++ entry :: back).map key).Nodup) :
    rest key (front ++ entry :: back) (key entry) = entry :: back := by
  induction front with
  | nil => exact rest_cons_self back rfl
  | cons head front ih =>
      obtain ⟨absent, uniqueTail⟩ := List.nodup_cons.mp unique
      have elsewhere : key head ≠ key entry := by
        intro same
        exact absent (same ▸ List.mem_map_of_mem (by simp))
      rw [List.cons_append, rest_cons_of_ne _ elsewhere, ih uniqueTail]

/-- The entry of a place is the first one of the rest. -/
theorem find_eq_head (key : A → K) (list : List A) (place : K) :
    (list.find? fun entry => key entry = place) = (rest key list place).head? := by
  induction list with
  | nil => rfl
  | cons head tail ih =>
      by_cases here : key head = place
      · rw [rest_cons_self tail here]
        simp [here]
      · rw [rest_cons_of_ne tail here, ← ih]
        simp [here]

/-- A list that gains entries keeps the rest of each walk. -/
theorem rest_sublist (part : list.Sublist longer) (place : K) :
    (rest key list place).Sublist (rest key longer place) := by
  induction part with
  | slnil => exact List.Sublist.refl _
  | @cons short long head part ih =>
      by_cases here : key head = place
      · rw [rest_cons_self long here]
        exact ((List.dropWhile_sublist _).trans part).cons head
      · rw [rest_cons_of_ne long here]
        exact ih
  | @cons_cons short long head part ih =>
      by_cases here : key head = place
      · rw [rest_cons_self short here, rest_cons_self long here]
        exact part.cons_cons head
      · rw [rest_cons_of_ne short here, rest_cons_of_ne long here]
        exact ih

/-- The walk steps to the next entry, and the entries behind it are the rest of the rest. -/
theorem rest_next (unique : (list.map key).Nodup) (next : (rest key list place).tail.head? = some entry) :
    rest key list (key entry) = (rest key list place).tail := by
  induction list with
  | nil => rfl
  | cons head tail ih =>
      obtain ⟨absent, uniqueTail⟩ := List.nodup_cons.mp unique
      have later (member : entry ∈ tail) : key head ≠ key entry := by
        intro same
        exact absent (same ▸ List.mem_map_of_mem member)
      by_cases here : key head = place
      · rw [rest_cons_self tail here] at next ⊢
        have member : entry ∈ tail := List.mem_of_mem_head? next
        rw [rest_cons_of_ne tail (later member)]
        exact rest_first next
      · rw [rest_cons_of_ne tail here] at next ⊢
        have member : entry ∈ tail := rest_subset place (List.mem_of_mem_tail (List.mem_of_mem_head? next))
        rw [rest_cons_of_ne tail (later member)]
        exact ih uniqueTail next

end Dtel.Walk
