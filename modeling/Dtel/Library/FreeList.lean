import Mathlib.Data.List.Range
import Mathlib.Logic.Function.Basic
import Mathlib.Logic.Relation

namespace Dtel.FreeList

variable {A : Type*} {link : Nat → A}

/-- A table of cells in which the free cells form a chain. -/
structure Table (A : Type*) where
  cells : Nat → A
  length : Nat

/-- A cell is overwritten, or the table grows up to it. -/
def Table.put (table : Table A) (slot : Nat) (value : A) : Table A where
  cells := Function.update table.cells slot value
  length := max table.length (slot + 1)

/-- The chain starts with a link and visits these cells. It ends with the link to cell zero. -/
def Chain (link : Nat → A) (cells : Nat → A) : A → List Nat → Prop
  | first, [] => first = link 0
  | first, slot :: rest => first = link slot ∧ Chain link cells (cells slot) rest

/-- Cell zero starts the chain of the free cells, all other cells are owned, and they keep their values. -/
structure Holds (link : Nat → A) (table : Table A) (free : List Nat) (owned : List (Nat × A)) : Prop where
  chain : Chain link table.cells (table.cells 0) free
  covers : (0 :: (free ++ owned.map Prod.fst)).Perm (List.range table.length)
  kept : ∀ entry ∈ owned, table.cells entry.1 = entry.2

/-- Cell zero starts the chain of the free cells. The free and the owned cells are distinct cells of the table, and the
owned ones keep their values. -/
structure Apart (link : Nat → A) (table : Table A) (free : List Nat) (owned : List (Nat × A)) : Prop where
  chain : Chain link table.cells (table.cells 0) free
  nodup : (0 :: (free ++ owned.map Prod.fst)).Nodup
  inside : ∀ slot ∈ 0 :: (free ++ owned.map Prod.fst), slot < table.length
  kept : ∀ entry ∈ owned, table.cells entry.1 = entry.2

/-- The cell is reached when the links are followed from cell zero. -/
def Reached (link : Nat → A) (cells : Nat → A) (slot : Nat) : Prop :=
  Relation.TransGen (fun here next => 0 < next ∧ cells here = link next) 0 slot

variable {table : Table A} {free later : List Nat} {owned rest : List (Nat × A)} {slot : Nat} {value first : A}

/-- A chain reads only the cells that it visits. -/
theorem Chain.congr {cells other : Nat → A} {first : A} (chain : Chain link cells first free)
    (same : ∀ slot ∈ free, other slot = cells slot) : Chain link other first free := by
  induction free generalizing first with
  | nil => exact chain
  | cons slot free ih =>
      refine ⟨chain.1, ?_⟩
      rw [same slot List.mem_cons_self]
      exact ih chain.2 fun other member => same other (List.mem_cons_of_mem _ member)

/-- A cell of the chain leads to the rest of it. -/
theorem Chain.suffix {cells : Nat → A} (chain : Chain link cells first free) (member : slot ∈ free) :
    ∃ later, Chain link cells (cells slot) later ∧ (slot :: later).Sublist free := by
  induction free generalizing first with
  | nil => cases member
  | cons other free ih =>
      rcases List.mem_cons.mp member with rfl | behind
      · exact ⟨free, chain.2, List.Sublist.refl _⟩
      · obtain ⟨later, rest, part⟩ := ih chain.2 behind
        exact ⟨later, rest, part.cons other⟩

/-- A cell of the table can be overwritten without growth. -/
theorem put_length (below : slot < table.length) : (table.put slot value).length = table.length :=
  max_eq_left below

theorem put_same : (table.put slot value).cells slot = value := Function.update_self _ _ _

theorem put_other {other : Nat} (different : other ≠ slot) : (table.put slot value).cells other = table.cells other :=
  Function.update_of_ne different _ _

section Apart

/-- The order of the owned cells does not matter. -/
theorem Apart.perm (apart : Apart link table free owned) (same : owned.Perm rest) : Apart link table free rest where
  chain := apart.chain
  nodup := ((((same.map Prod.fst).append_left free).cons 0).nodup_iff).mp apart.nodup
  inside slot member := apart.inside slot ((((same.map Prod.fst).append_left free).cons 0).mem_iff.mpr member)
  kept entry member := apart.kept entry (same.mem_iff.mpr member)

/-- The first free cell takes a value. -/
theorem Apart.reuse (apart : Apart link table (slot :: free) owned) (value : A) :
    Apart link ((table.put 0 (table.cells slot)).put slot value) free ((slot, value) :: owned) := by
  have same : (0 :: (free ++ slot :: owned.map Prod.fst)).Perm (0 :: (slot :: free ++ owned.map Prod.fst)) :=
    List.perm_middle.cons 0
  have distinct := apart.nodup
  simp only [List.cons_append, List.nodup_cons, List.mem_cons, List.mem_append, not_or] at distinct
  obtain ⟨⟨zeroSlot, zeroFree, zeroOwned⟩, ⟨slotFree, slotOwned⟩, -⟩ := distinct
  have others : ∀ other, other ≠ 0 → other ≠ slot →
      ((table.put 0 (table.cells slot)).put slot value).cells other = table.cells other :=
    fun other notZero notSlot => (put_other notSlot).trans (put_other notZero)
  refine ⟨?_, same.nodup_iff.mpr apart.nodup, ?_, ?_⟩
  · rw [put_other zeroSlot, put_same]
    exact apart.chain.2.congr fun other member =>
      others other (fun zero => zeroFree (zero ▸ member)) fun here => slotFree (here ▸ member)
  · intro other member
    have below := apart.inside other (same.mem_iff.mp member)
    exact below.trans_le ((le_max_left _ _).trans (le_max_left _ _))
  · intro entry member
    rcases List.mem_cons.mp member with rfl | old
    · exact put_same
    · have owns : entry.1 ∈ owned.map Prod.fst := List.mem_map_of_mem old
      rw [others entry.1 (fun zero => zeroOwned (zero ▸ owns)) fun here => slotOwned (here ▸ owns)]
      exact apart.kept entry old

/-- Without a free cell, a new one takes the value. -/
theorem Apart.grow (apart : Apart link table [] owned) (value : A) :
    Apart link (table.put table.length value) [] ((table.length, value) :: owned) := by
  have new : table.length ∉ 0 :: owned.map Prod.fst := fun member => Nat.lt_irrefl _ (apart.inside _ member)
  have zero : 0 ≠ table.length := fun same => new (List.mem_cons.mpr (Or.inl same.symm))
  refine ⟨?_, ?_, ?_, ?_⟩
  · rw [put_other zero]
    exact apart.chain
  · exact (List.Perm.swap 0 table.length _).nodup_iff.mp (List.nodup_cons.mpr ⟨new, apart.nodup⟩)
  · intro other member
    rcases List.mem_cons.mp ((List.Perm.swap table.length 0 (owned.map Prod.fst)).mem_iff.mp member) with rfl | old
    · exact (Nat.lt_succ_self _).trans_le (le_max_right _ _)
    · exact (apart.inside other old).trans_le (le_max_left _ _)
  · intro entry member
    rcases List.mem_cons.mp member with rfl | old
    · exact put_same
    · have owns : entry.1 ∈ owned.map Prod.fst := List.mem_map_of_mem old
      have different : entry.1 ≠ table.length := fun same => new (same ▸ List.mem_cons_of_mem _ owns)
      rw [put_other different]
      exact apart.kept entry old

theorem Apart.owned_other (apart : Apart link table free ((slot, value) :: rest)) :
    slot ≠ 0 ∧ slot ∉ free ∧ slot ∉ rest.map Prod.fst := by
  have distinct := (List.perm_middle.cons 0).nodup_iff.mp apart.nodup
  simp only [List.nodup_cons, List.mem_cons, List.mem_append, not_or] at distinct
  exact ⟨Ne.symm distinct.1.1, distinct.2.1⟩

/-- An owned cell takes the link to the first free one, and is not free yet. -/
theorem Apart.detach (apart : Apart link table free owned) (taken : owned.Perm ((slot, value) :: rest)) :
    Apart link (table.put slot (table.cells 0)) free ((slot, table.cells 0) :: rest) := by
  have before := apart.perm taken
  obtain ⟨notZero, notFree, notOwned⟩ := before.owned_other
  refine ⟨?_, before.nodup, fun other member => (before.inside other member).trans_le (le_max_left _ _), ?_⟩
  · rw [put_other notZero.symm]
    exact before.chain.congr fun other member => put_other fun here => notFree (here ▸ member)
  · intro entry member
    rcases List.mem_cons.mp member with rfl | old
    · exact put_same
    · have owns : entry.1 ∈ rest.map Prod.fst := List.mem_map_of_mem old
      have different : entry.1 ≠ slot := fun here => notOwned (here ▸ owns)
      rw [put_other different]
      exact before.kept entry (List.mem_cons_of_mem _ old)

/-- A cell with a link into the chain of the free cells becomes the first of them. -/
theorem Apart.attach (apart : Apart link table free ((slot, first) :: rest))
    (chain : Chain link table.cells first later) (part : later.Sublist free) :
    Apart link (table.put 0 (link slot)) (slot :: later) rest := by
  obtain ⟨notZero, notFree, notOwned⟩ := apart.owned_other
  have fewer : (0 :: (slot :: later ++ rest.map Prod.fst)).Sublist (0 :: slot :: (free ++ rest.map Prod.fst)) :=
    ((part.append_right _).cons_cons slot).cons_cons 0
  have same : (0 :: slot :: (free ++ rest.map Prod.fst)).Perm (0 :: (free ++ slot :: rest.map Prod.fst)) :=
    List.perm_middle.symm.cons 0
  have distinct := (same.nodup_iff.mpr apart.nodup)
  refine ⟨⟨put_same, ?_⟩, fewer.nodup distinct, ?_, ?_⟩
  · rw [put_other notZero, apart.kept _ List.mem_cons_self]
    exact chain.congr fun other member => put_other fun zero =>
      (List.nodup_cons.mp apart.nodup).1 (zero ▸ List.mem_append_left _ (part.subset member))
  · exact fun other member => (apart.inside other (same.mem_iff.mp (fewer.subset member))).trans_le (le_max_left _ _)
  · intro entry member
    have owns : entry.1 ∈ rest.map Prod.fst := List.mem_map_of_mem member
    have different : entry.1 ≠ 0 := fun zero => (List.nodup_cons.mp apart.nodup).1
      (zero ▸ List.mem_append_right _ (List.mem_cons_of_mem _ owns))
    rw [put_other different]
    exact apart.kept entry (List.mem_cons_of_mem _ member)

/-- A chain reaches its cells. -/
theorem Chain.reaches {cells : Nat → A} {start : Nat} (chain : Chain link cells (cells start) free) (positive : 0 ∉ free)
    (member : slot ∈ free) : Relation.TransGen (fun here next => 0 < next ∧ cells here = link next) start slot := by
  induction free generalizing start with
  | nil => cases member
  | cons head free ih =>
      have leads : 0 < head ∧ cells start = link head :=
        ⟨Nat.pos_of_ne_zero fun zero => positive (zero ▸ List.mem_cons_self), chain.1⟩
      rcases List.mem_cons.mp member with rfl | behind
      · exact .single leads
      · exact .head leads (ih chain.2 (fun zero => positive (List.mem_cons_of_mem _ zero)) behind)

/-- The links lead from cell zero to the free cells, and to no others. -/
theorem Apart.reached_iff (apart : Apart link table free owned) (injective : Function.Injective link) :
    Reached link table.cells slot ↔ slot ∈ free := by
  have starts : ∀ {first rest next}, Chain link table.cells first rest → 0 < next → first = link next → next ∈ rest := by
    intro first rest next chain positive leads
    cases rest with
    | nil => exact absurd (injective (leads.symm.trans chain)) (Nat.ne_of_gt positive)
    | cons head rest => exact List.mem_cons.mpr (Or.inl (injective (leads.symm.trans chain.1)))
  constructor
  · intro reached
    induction reached with
    | single leads => exact starts apart.chain leads.1 leads.2
    | tail before leads ih =>
        obtain ⟨later, chain, part⟩ := apart.chain.suffix ih
        exact part.subset (List.mem_cons_of_mem _ (starts chain leads.1 leads.2))
  · exact apart.chain.reaches fun zero => (List.nodup_cons.mp apart.nodup).1 (List.mem_append_left _ zero)

end Apart

theorem Holds.nodup (holds : Holds link table free owned) : (0 :: (free ++ owned.map Prod.fst)).Nodup :=
  holds.covers.nodup_iff.mpr List.nodup_range

/-- Each cell but the first one is free or owned. -/
theorem Holds.mem (holds : Holds link table free owned) :
    slot ∈ free ∨ slot ∈ owned.map Prod.fst ↔ 0 < slot ∧ slot < table.length := by
  have covered := holds.covers.mem_iff (a := slot)
  have first := (List.nodup_cons.mp holds.nodup).1
  rw [List.mem_cons, List.mem_append, List.mem_range] at covered
  rw [List.mem_append] at first
  constructor
  · intro member
    refine ⟨Nat.pos_of_ne_zero ?_, covered.mp (Or.inr member)⟩
    rintro rfl
    exact first member
  · rintro ⟨positive, below⟩
    exact (covered.mpr below).resolve_left (Nat.ne_of_gt positive)

/-- The table has one cell more than the free and the owned ones. -/
theorem Holds.length (holds : Holds link table free owned) : table.length = 1 + free.length + owned.length := by
  have length := holds.covers.length_eq
  simp only [List.length_cons, List.length_append, List.length_map, List.length_range] at length
  omega

/-- The order of the owned cells does not matter. -/
theorem Holds.perm (holds : Holds link table free owned) (same : owned.Perm rest) : Holds link table free rest where
  chain := holds.chain
  covers := (((same.symm.map Prod.fst).append_left free).cons 0).trans holds.covers
  kept entry member := holds.kept entry (same.mem_iff.mpr member)

/-- A new table has only the first cell. -/
theorem Holds.initial {cells : Nat → A} (first : cells 0 = link 0) : Holds link ⟨cells, 1⟩ [] [] where
  chain := first
  covers := .refl _
  kept := by simp

/-- What holds of the cells that are apart holds in a table without other cells. -/
theorem Holds.apart (holds : Holds link table free owned) : Apart link table free owned where
  chain := holds.chain
  nodup := holds.nodup
  inside _ member := List.mem_range.mp (holds.covers.mem_iff.mp member)
  kept := holds.kept

/-- The first free cell takes a value. -/
theorem Holds.reuse (holds : Holds link table (slot :: free) owned) (value : A) :
    Holds link ((table.put 0 (table.cells slot)).put slot value) free ((slot, value) :: owned) := by
  have apart := holds.apart.reuse value
  refine ⟨apart.chain, ?_, apart.kept⟩
  obtain ⟨positive, below⟩ := holds.mem.mp (Or.inl (List.mem_cons_self (a := slot)))
  have length : ((table.put 0 (table.cells slot)).put slot value).length = table.length := by
    rw [put_length, put_length (Nat.lt_trans positive below)]
    rwa [put_length (Nat.lt_trans positive below)]
  rw [length]
  exact (List.perm_middle.cons 0).trans holds.covers

/-- Without a free cell, a new one takes the value. -/
theorem Holds.grow (holds : Holds link table [] owned) (value : A) :
    Holds link (table.put table.length value) [] ((table.length, value) :: owned) := by
  have apart := holds.apart.grow value
  refine ⟨apart.chain, ?_, apart.kept⟩
  have grown : (table.put table.length value).length = table.length + 1 := max_eq_right (Nat.le_succ _)
  rw [grown, List.range_succ]
  refine List.Perm.trans ?_ (holds.covers.append_right [table.length])
  exact (List.perm_append_singleton table.length (owned.map Prod.fst)).symm.cons 0

/-- An owned cell becomes the first free one. -/
theorem Holds.release (holds : Holds link table free owned) (taken : owned.Perm ((slot, value) :: rest)) :
    Holds link ((table.put slot (table.cells 0)).put 0 (link slot)) (slot :: free) rest := by
  have detached := holds.apart.detach taken
  have notZero := detached.owned_other.1
  have chain := detached.chain
  rw [put_other notZero.symm] at chain
  have apart := detached.attach chain (List.Sublist.refl free)
  refine ⟨apart.chain, ?_, apart.kept⟩
  have ids : (owned.map Prod.fst).Perm (slot :: rest.map Prod.fst) := taken.map Prod.fst
  obtain ⟨positive, below⟩ := holds.mem.mp (Or.inr (ids.mem_iff.mpr List.mem_cons_self))
  have length : ((table.put slot (table.cells 0)).put 0 (link slot)).length = table.length := by
    rw [put_length, put_length below]
    rw [put_length below]
    exact Nat.lt_trans positive below
  rw [length]
  refine List.Perm.trans (List.Perm.cons 0 ?_) holds.covers
  exact List.perm_middle.symm.trans (ids.symm.append_left free)

end Dtel.FreeList
