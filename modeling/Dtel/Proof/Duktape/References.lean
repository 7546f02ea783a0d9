import Dtel.Proof.Duktape.Refs
import Mathlib.Data.List.Perm.Basic

namespace Dtel.Duktape
open Calls Execution FreeList

/-- A heap with an empty stash and an empty global object. Its creation has required space for the 78 built-in objects
and 32 more values. -/
def newHeap : Context := ⟨[], 110, fun _ => Object.empty, 2, 0, 1, by decide, by decide⟩

/-- A reference to a defined value needs space for the heap object and for the keys that lead to the array. -/
def Context.SlotSpace (context : Context) (value : Value) : Prop := value ≠ .undefined → context.Space 4

/-- The value `undefined` needs space when it is pushed, too. -/
def Context.PushSpace (context : Context) (value : Value) : Prop := context.Space (if value = .undefined then 1 else 4)

/-- With enough space, the call has its effect. Otherwise the push beyond the reserve throws. -/
def WithSpace {A : Type} (enough : Prop) (context : Context) (call : Api A) (effect : Prop) : Prop :=
  (enough → effect) ∧ (¬enough → call context = .error .range context)

/-- A call that returns had enough space. -/
theorem WithSpace.returned {A : Type} {enough effect : Prop} {context after : Context} {call : Api A} {result : A}
    (withSpace : WithSpace enough context call effect) (returned : call context = .ok result after) : effect := by
  by_cases space : enough
  · exact withSpace.1 space
  · rw [withSpace.2 space] at returned
    cases returned

theorem WithSpace.imp {A : Type} {enough effect weaker : Prop} {context : Context} {call : Api A}
    (withSpace : WithSpace enough context call effect) (implies : effect → weaker) :
    WithSpace enough context call weaker :=
  ⟨fun space => implies (withSpace.1 space), withSpace.2⟩

namespace RefTable

variable {refs slot : Nat} {table next : RefTable} {value : Value} {rest : List Value} {live : List (Ref × Value)}

/-- The references to defined values own these slots. -/
def owned (live : List (Ref × Value)) : List (Nat × Option Value) :=
  (defined live).map fun entry => (entry.1.refid, some entry.2)

/-- The array holds the free list and the values of the live references. -/
structure Invariant (refs : Nat) (table : RefTable) : Prop where
  ready : table.context.Ready refs
  holds : ∃ free, Holds link (table.context.table refs) free (owned table.live)
  nothing : ∀ entry ∈ table.live, entry.2 = .undefined → entry.1.refid = 0
  length : (table.context.table refs).length = 1 + table.peak
  small : (table.context.table refs).length ≤ maxProperties

@[simp] theorem owned_length : (owned live).length = (defined live).length := List.length_map _

theorem owned_ids : (owned live).map Prod.fst = (defined live).map fun entry => entry.1.refid := by
  rw [owned, List.map_map]
  rfl

theorem defined_undefined (ref : Ref) : defined ((ref, .undefined) :: live) = defined live := by
  simp [defined]

theorem defined_value (ref : Ref) (real : value ≠ .undefined) :
    defined ((ref, value) :: live) = (ref, value) :: defined live := by
  simp [defined, real]

theorem owned_undefined (ref : Ref) : owned ((ref, .undefined) :: live) = owned live := by
  rw [owned, defined_undefined]
  rfl

theorem owned_value (ref : Ref) (real : value ≠ .undefined) :
    owned ((ref, value) :: live) = (ref.refid, some value) :: owned live := by
  rw [owned, defined_value ref real]
  rfl

/-- A live reference to a defined value owns its slot. -/
theorem owned_mem {entry : Ref × Value} (member : entry ∈ live) (real : entry.2 ≠ .undefined) :
    (entry.1.refid, some entry.2) ∈ owned live :=
  List.mem_map.mpr ⟨entry, List.mem_filter.mpr ⟨member, by simpa using real⟩, rfl⟩

/-- An owned slot is a slot of the array. -/
theorem Invariant.inside (invariant : Invariant refs table) {entry : Ref × Value} (member : entry ∈ table.live)
    (real : entry.2 ≠ .undefined) :
    0 < entry.1.refid ∧ entry.1.refid < (table.context.table refs).length := by
  obtain ⟨free, holds⟩ := invariant.holds
  exact holds.mem.mp (Or.inr (List.mem_map_of_mem (owned_mem member real)))

/-- The free slots are apart from the slots of the live references, and from those of dying ones. -/
structure Separate (refs : Nat) (dying : List (Nat × Option Value)) (table : RefTable) : Prop where
  ready : table.context.Ready refs
  apart : ∃ free, Apart link (table.context.table refs) free (dying ++ owned table.live)
  nothing : ∀ entry ∈ table.live, entry.2 = .undefined → entry.1.refid = 0
  small : (table.context.table refs).length ≤ maxProperties

theorem Invariant.separate (invariant : Invariant refs table) : Separate refs [] table :=
  ⟨invariant.ready, invariant.holds.imp fun _ holds => holds.apart, invariant.nothing, invariant.small⟩

/-- Slot zero is neither free nor owned. -/
theorem Separate.positive {dying : List (Nat × Option Value)} (separate : Separate refs dying table)
    {entry : Ref × Value} (member : entry ∈ table.live) (real : entry.2 ≠ .undefined) : 0 < entry.1.refid := by
  obtain ⟨free, apart⟩ := separate.apart
  refine Nat.pos_of_ne_zero fun zero => (List.nodup_cons.mp apart.nodup).1 (List.mem_append_right _ ?_)
  exact zero ▸ List.mem_map_of_mem (List.mem_append_right _ (owned_mem member real))

/-- A live reference pushes its value when there is space. -/
theorem Separate.push {dying : List (Nat × Option Value)} (separate : Separate refs dying table)
    {entry : Ref × Value} (member : entry ∈ table.live) :
    WithSpace (table.context.PushSpace entry.2) table.context entry.1.push
      (entry.1.push table.context = .ok 1 (table.context.withStack (entry.2 :: table.context.stack))) := by
  obtain ⟨free, apart⟩ := separate.apart
  by_cases real : entry.2 = .undefined
  · rw [Ref.push, separate.nothing entry member real, Context.PushSpace, if_pos real, real]
    constructor
    · intro space
      have pushed : Duktape.push .undefined table.context =
          .ok () (table.context.withStack (.undefined :: table.context.stack)) := push_run space
      exact bind_ok pushed
    · exact fun short => bind_error (bind_error (requireSpace_throws short))
  · have positive := separate.positive member real
    have found := apart.kept _ (List.mem_append_right _ (owned_mem member real))
    rw [Context.PushSpace, if_neg real]
    constructor
    · intro space
      have pushed := duvPushRef_run table.context.stack separate.ready positive found space
      exact bind_ok pushed
    · exact fun short => bind_error (duvPushRef_short positive short)

theorem construct_run {context after : Context} {id : Nat} (called : duvRef context = .ok id after) :
    Ref.construct context = .ok ⟨id⟩ after := by
  rw [Ref.construct, bind_ok called]
  rfl

/-- The first free slot is taken, and the slot that it leads to becomes the first one. -/
theorem construct_first {context : Context} {free : List Nat} {owns : List (Nat × Option Value)}
    (ready : context.Ready refs) (apart : Apart link (context.table refs) (slot :: free) owns)
    (small : (context.table refs).length ≤ maxProperties) (real : value ≠ .undefined)
    (space : (value :: rest).length + 4 ≤ context.reserve) :
    ∃ second, (context.table refs).cells slot = some second ∧ Ref.construct (context.withStack (value :: rest)) =
      .ok ⟨slot⟩ (((context.putItem refs 0 second).putItem refs slot value).withStack rest) := by
  have below : slot < (context.table refs).length := apart.inside slot (List.mem_cons_of_mem _ List.mem_cons_self)
  have positive : 0 < slot := by
    refine Nat.pos_of_ne_zero fun zero => (List.nodup_cons.mp apart.nodup).1 ?_
    rw [zero]
    exact List.mem_cons_self
  obtain ⟨second, next⟩ := chain_some apart.chain.2
  exact ⟨second, next,
    construct_run (duvRef_reuse rest ready real apart.chain.1 next positive (below.trans_le small) space)⟩

/-- The construction from a defined value keeps the invariant in a table with one more owned slot. -/
theorem Invariant.grown {id : Nat} {after : Context} (invariant : Invariant refs table) (real : value ≠ .undefined)
    (ready : after.Ready refs)
    (holds : ∃ free, Holds link (after.table refs) free ((id, some value) :: owned table.live))
    (length : (after.table refs).length = 1 + max table.peak ((defined table.live).length + 1))
    (small : (after.table refs).length ≤ maxProperties) :
    Invariant refs ⟨after, (⟨id⟩, value) :: table.live,
      max table.peak (defined ((⟨id⟩, value) :: table.live)).length⟩ where
  ready := ready
  holds := by
    rw [owned_value _ real]
    exact holds
  nothing := by
    intro entry member nothing
    rcases List.mem_cons.mp member with rfl | old
    · exact absurd nothing real
    · exact invariant.nothing entry old nothing
  length := by
    rw [defined_value _ real]
    exact length
  small := small

/-- The construction takes the value from the stack and keeps the invariant. -/
def Constructs (refs : Nat) (table : RefTable) (value : Value) (rest : List Value) : Prop :=
  ∃ ref after, Ref.construct table.context = .ok ref after ∧ after.stack = rest ∧
    Invariant refs ⟨after, (ref, value) :: table.live, max table.peak (defined ((ref, value) :: table.live)).length⟩

/-- A reference to `undefined` owns no slot. -/
theorem Invariant.construct_undefined (invariant : Invariant refs table)
    (before : table.context = table.context.withStack (.undefined :: rest)) : Constructs refs table .undefined rest := by
  obtain ⟨free, holds⟩ := invariant.holds
  have count := holds.length
  have length := invariant.length
  rw [owned_length] at count
  refine ⟨⟨0⟩, table.context.withStack rest, ?_, rfl, ?_⟩
  · rw [before]
    exact construct_run duvRef_undefined
  · refine ⟨invariant.ready, ?_, ?_, ?_, invariant.small⟩
    · rw [owned_undefined]
      exact ⟨free, holds⟩
    · intro entry member nothing
      rcases List.mem_cons.mp member with rfl | old
      · rfl
      · exact invariant.nothing entry old nothing
    · rw [defined_undefined, max_eq_left (by omega)]
      exact length

/-- Without a free slot, the array grows by one. -/
theorem Invariant.construct_grow (invariant : Invariant refs table)
    (before : table.context = table.context.withStack (value :: rest)) (real : value ≠ .undefined)
    (holds : Holds link (table.context.table refs) [] (owned table.live))
    (room : (table.context.table refs).length < maxProperties)
    (space : (value :: rest).length + 4 ≤ table.context.reserve) : Constructs refs table value rest := by
  have count := holds.length
  have length := invariant.length
  rw [owned_length] at count
  have taken := duvRef_grow rest invariant.ready real holds.chain room space
  rw [← before] at taken
  refine ⟨_, _, construct_run taken, rfl, invariant.grown real ?_ ⟨[], ?_⟩ ?_ ?_⟩
  · simpa using invariant.ready
  · simpa using holds.grow (some value)
  · simp only [withStack_table, putItem_table, Table.put, List.length_nil] at count ⊢
    omega
  · simp only [withStack_table, putItem_table, Table.put]
    omega

/-- The first free slot is taken, and the array keeps its length. -/
theorem Invariant.construct_reuse {slot : Nat} {free : List Nat} (invariant : Invariant refs table)
    (before : table.context = table.context.withStack (value :: rest)) (real : value ≠ .undefined)
    (holds : Holds link (table.context.table refs) (slot :: free) (owned table.live))
    (space : (value :: rest).length + 4 ≤ table.context.reserve) : Constructs refs table value rest := by
  have count := holds.length
  have length := invariant.length
  rw [owned_length] at count
  obtain ⟨positive, below⟩ := holds.mem.mp (Or.inl List.mem_cons_self)
  obtain ⟨second, next, taken⟩ := construct_first invariant.ready holds.apart invariant.small real space
  rw [← before] at taken
  have reused := holds.reuse (some value)
  rw [next] at reused
  have same : (((table.context.table refs).put 0 (some second)).put slot (some value)).length =
      (table.context.table refs).length := by
    simp only [Table.put]
    omega
  refine ⟨_, _, taken, rfl, invariant.grown real ?_ ⟨free, ?_⟩ ?_ ?_⟩
  · simpa using invariant.ready
  · simpa using reused
  · rw [withStack_table, putItem_table, putItem_table, same]
    rw [List.length_cons] at count
    omega
  · rw [withStack_table, putItem_table, putItem_table, same]
    exact invariant.small

/-- The array is full, and so the construction throws. -/
def Full (refs : Nat) (table : RefTable) (value : Value) : Prop :=
  value ≠ .undefined ∧ (table.context.table refs).length = maxProperties ∧
    (table.context.table refs).cells 0 = link 0 ∧ ∃ after, Ref.construct table.context = .error .alloc after

/-- With space, a construction takes the value from the stack, unless the array is full. -/
theorem Invariant.construct (invariant : Invariant refs table) (onTop : table.context.stack = value :: rest) :
    WithSpace (table.context.SlotSpace value) table.context Ref.construct
      (Constructs refs table value rest ∨ Full refs table value) := by
  have before : table.context = table.context.withStack (value :: rest) := by rw [← onTop, withStack_self]
  constructor
  · intro enough
    by_cases real : value = .undefined
    · subst real
      exact Or.inl (invariant.construct_undefined before)
    · have space : (value :: rest).length + 4 ≤ table.context.reserve := onTop ▸ enough real
      obtain ⟨free, holds⟩ := invariant.holds
      cases free with
      | nil =>
          by_cases full : maxProperties ≤ (table.context.table refs).length
          · obtain ⟨after, failed⟩ := duvRef_full rest invariant.ready real holds.chain full space
            rw [← before] at failed
            exact Or.inr ⟨real, le_antisymm invariant.small full, holds.chain, after, bind_error failed⟩
          · exact Or.inl (invariant.construct_grow before real holds (Nat.not_le.mp full) space)
      | cons slot free => exact Or.inl (invariant.construct_reuse before real holds space)
  · intro short
    obtain ⟨real, beyond⟩ := not_forall.mp short
    have failed := duvRef_short rest real (before ▸ beyond)
    rw [← before] at failed
    exact bind_error failed

theorem erase_perm {position : Nat} {entry : Ref × Value} (found : live[position]? = some entry) :
    live.Perm (entry :: live.eraseIdx position) := by
  obtain ⟨inside, same⟩ := List.getElem?_eq_some_iff.mp found
  rw [← same]
  exact (List.getElem_cons_eraseIdx_perm inside).symm

/-- With space, a destruction frees the slot of the reference. -/
theorem Invariant.destroy (invariant : Invariant refs table) {position : Nat} {entry : Ref × Value}
    (found : table.live[position]? = some entry) :
    WithSpace (table.context.SlotSpace entry.2) table.context entry.1.destroy
      (∃ after, entry.1.destroy table.context = .ok () after ∧ after.stack = table.context.stack ∧
        Invariant refs { table with context := after, live := table.live.eraseIdx position }) := by
  have taken := erase_perm found
  have member : entry ∈ table.live := taken.mem_iff.mpr List.mem_cons_self
  have nothing : ∀ other ∈ table.live.eraseIdx position, other.2 = .undefined → other.1.refid = 0 :=
    fun other old => invariant.nothing other (List.mem_of_mem_eraseIdx old)
  obtain ⟨free, holds⟩ := invariant.holds
  have split : (owned table.live).Perm (owned (entry :: table.live.eraseIdx position)) := (taken.filter _).map _
  rcases entry with ⟨ref, value⟩
  by_cases real : value = .undefined
  · subst real
    rw [owned_undefined] at split
    have kept : Invariant refs { table with live := table.live.eraseIdx position } :=
      ⟨invariant.ready, ⟨free, holds.perm split⟩, nothing, invariant.length, invariant.small⟩
    refine ⟨fun _ => ⟨table.context, ?_, rfl, kept⟩, fun short => absurd (fun real => absurd rfl real) short⟩
    rw [Ref.destroy, invariant.nothing _ member rfl]
    rfl
  · rw [owned_value ref real] at split
    obtain ⟨positive, below⟩ : 0 < ref.refid ∧ ref.refid < (table.context.table refs).length :=
      invariant.inside member real
    have small := Nat.lt_of_lt_of_le below invariant.small
    obtain ⟨second, first⟩ := chain_some holds.chain
    have slot := holds.apart.kept _ (owned_mem member real)
    refine ⟨fun enough => ?_, fun short => ?_⟩
    case refine_2 => exact duvUnref_short positive fun space => short fun _ => space
    have freed := duvUnref_run table.context.stack invariant.ready positive small first slot (enough real)
    have released := holds.release split
    rw [first] at released
    have same : (((table.context.table refs).put ref.refid (some second)).put 0 (link ref.refid)).length =
        (table.context.table refs).length := by
      simp only [Table.put]
      omega
    refine ⟨_, freed, rfl, ?_, ⟨ref.refid :: free, ?_⟩, nothing, ?_, ?_⟩
    · simpa using invariant.ready
    · rw [withStack_table, putItem_table, putItem_table]
      exact released
    · rw [withStack_table, putItem_table, putItem_table]
      exact same.trans invariant.length
    · rw [withStack_table, putItem_table, putItem_table]
      exact same.trans_le invariant.small

/-- A script changes neither the heap stash nor the array. -/
theorem script_ready {context : Context} (ready : context.Ready refs) (stack : List Value) (reserve : Nat)
    (objects : Nat → Object) (allocated : Nat) :
    (RefTable.script context stack reserve objects allocated).Ready refs := by
  unfold Context.Ready at ready ⊢
  rw [← ready]
  simp [RefTable.script]

theorem script_table {context : Context} (ready : context.Ready refs) (stack : List Value) (reserve : Nat)
    (objects : Nat → Object) (allocated : Nat) :
    (RefTable.script context stack reserve objects allocated).table refs = context.table refs := by
  unfold Context.Ready at ready
  simp [RefTable.script, Context.table, ready]

theorem Invariant.script (invariant : Invariant refs table) (stack : List Value) (reserve : Nat)
    (objects : Nat → Object) (allocated : Nat) :
    Invariant refs { table with context := RefTable.script table.context stack reserve objects allocated } := by
  have array := script_table invariant.ready stack reserve objects allocated
  refine ⟨script_ready invariant.ready stack reserve objects allocated, ?_, invariant.nothing, ?_, ?_⟩
  · rw [array]
    exact invariant.holds
  · rw [array]
    exact invariant.length
  · rw [array]
    exact invariant.small

/-- The setup keeps the array that is there. -/
theorem setup_ready {context : Context} (ready : context.Ready refs) :
    WithSpace (context.Space 4) context duvRefSetup (duvRefSetup context = .ok () context) :=
  ⟨fun space => duvRefSetup_ready context.stack ready space, duvRefSetup_short⟩

theorem returned_ok {A : Type} {result : EStateM.Result Error Context A} {value : A} {after : Context}
    (ended : RefTable.returned result = some (value, after)) : result = .ok value after := by
  cases result <;> cases ended
  rfl

/-- Each step keeps the invariant. -/
theorem Invariant.step {label : RefLabel} (invariant : Invariant refs table)
    (taken : table.step label = some next) : Invariant refs next := by
  cases label with
  | script stack reserve objects allocated =>
      cases taken
      exact invariant.script stack reserve objects allocated
  | setup =>
      obtain ⟨⟨_, after⟩, ended, same⟩ := Option.map_eq_some_iff.mp taken
      have called := returned_ok ended
      rw [(setup_ready invariant.ready).returned called] at called
      cases called
      cases same
      exact invariant
  | construct =>
      rw [RefTable.step] at taken
      split at taken
      · cases taken
      · next value rest onTop =>
        obtain ⟨⟨ref, after⟩, ended, same⟩ := Option.map_eq_some_iff.mp taken
        have called := returned_ok ended
        rcases (invariant.construct onTop).returned called with ⟨_, _, constructed, -, kept⟩ | ⟨-, -, -, _, failed⟩
        · rw [called] at constructed
          cases constructed
          cases same
          exact kept
        · rw [called] at failed
          cases failed
  | push position =>
      obtain ⟨entry, found, taken⟩ := Option.bind_eq_some_iff.mp taken
      obtain ⟨⟨_, after⟩, ended, same⟩ := Option.map_eq_some_iff.mp taken
      have called := returned_ok ended
      rw [(invariant.separate.push (List.mem_of_getElem? found)).returned called] at called
      cases called
      cases same
      exact ⟨invariant.ready, invariant.holds, invariant.nothing, invariant.length, invariant.small⟩
  | destroy position =>
      obtain ⟨entry, found, taken⟩ := Option.bind_eq_some_iff.mp taken
      obtain ⟨⟨_, after⟩, ended, same⟩ := Option.map_eq_some_iff.mp taken
      have called := returned_ok ended
      obtain ⟨_, destroyed, -, kept⟩ := (invariant.destroy found).returned called
      rw [called] at destroyed
      cases destroyed
      cases same
      exact kept

/-- The live references keep their values in distinct slots, and the chain of the free slots visits all others.
A call that has no space throws and changes nothing. -/
structure Sound (refs : Nat) (table : RefTable) : Prop where
  ready : table.context.Ready refs
  pushes : ∀ entry ∈ table.live, WithSpace (table.context.PushSpace entry.2) table.context entry.1.push
    (entry.1.push table.context = .ok 1 (table.context.withStack (entry.2 :: table.context.stack)))
  distinct : ((defined table.live).map fun entry => entry.1.refid).Nodup
  inside : ∀ entry ∈ defined table.live,
    0 < entry.1.refid ∧ entry.1.refid < (table.context.table refs).length
  chain : ∃ free, Chain link (table.context.table refs).cells ((table.context.table refs).cells 0) free ∧ free.Nodup ∧
    ∀ slot, slot ∈ free ↔ 0 < slot ∧ slot < (table.context.table refs).length ∧
      slot ∉ (defined table.live).map fun entry => entry.1.refid
  length : (table.context.table refs).length = 1 + table.peak
  constructs : ∀ value rest, table.context.stack = value :: rest →
    WithSpace (table.context.SlotSpace value) table.context Ref.construct
      ((∃ ref after, Ref.construct table.context = .ok ref after ∧ after.stack = rest) ∨
        ((table.context.table refs).length = maxProperties ∧
          ∃ after, Ref.construct table.context = .error .alloc after))
  destroys : ∀ entry ∈ table.live, WithSpace (table.context.SlotSpace entry.2) table.context entry.1.destroy
    (∃ after, entry.1.destroy table.context = .ok () after ∧ after.stack = table.context.stack)

theorem Invariant.sound (invariant : Invariant refs table) : Sound refs table := by
  obtain ⟨free, holds⟩ := invariant.holds
  have apart := holds.nodup
  rw [List.nodup_cons, List.nodup_append, owned_ids] at apart
  obtain ⟨-, freeNodup, ownedNodup, disjoint⟩ := apart
  refine ⟨invariant.ready, fun entry member => invariant.separate.push member, ownedNodup, ?_,
    ⟨free, holds.chain, freeNodup, ?_⟩, invariant.length, ?_, ?_⟩
  · intro entry member
    obtain ⟨live, real⟩ := List.mem_filter.mp member
    exact invariant.inside live (by simpa using real)
  · intro slot
    have covered : slot ∈ free ∨ slot ∈ (owned table.live).map Prod.fst ↔
        0 < slot ∧ slot < (table.context.table refs).length := holds.mem
    rw [owned_ids] at covered
    constructor
    · intro member
      obtain ⟨positive, below⟩ := covered.mp (Or.inl member)
      exact ⟨positive, below, fun taken => disjoint slot member slot taken rfl⟩
    · rintro ⟨positive, below, unowned⟩
      exact (covered.mpr ⟨positive, below⟩).resolve_right unowned
  · intro value rest onTop
    refine (invariant.construct onTop).imp ?_
    rintro (⟨ref, after, called, popped, -⟩ | ⟨-, full, -, failed⟩)
    · exact Or.inl ⟨ref, after, called, popped⟩
    · exact Or.inr ⟨full, failed⟩
  · intro entry member
    obtain ⟨position, found⟩ := List.mem_iff_getElem?.mp member
    refine (invariant.destroy found).imp ?_
    rintro ⟨after, called, kept, -⟩
    exact ⟨after, called, kept⟩

/-- The setup creates an array without free slots. -/
theorem setup_invariant {context after : Context} {result : Unit}
    (unset : (context.heap context.stash).properties propDtelRefs = none)
    (called : duvRefSetup context = .ok result after) : Invariant context.fresh ⟨after, [], 0⟩ := by
  obtain ⟨table, created, -, ready, array⟩ :=
    duvRefSetup_new context.stack unset (duvRefSetup_space unset called)
  rw [withStack_self, called] at created
  cases created
  refine ⟨ready, ⟨[], ?_⟩, by simp, ?_, ?_⟩
  · rw [withStack_table, array]
    exact Holds.initial (Function.update_self _ _ _)
  · rw [withStack_table, array, Nat.add_zero]
  · rw [withStack_table, array]
    decide

/-- A new heap has space for 107 values that are pushed by a reference, and the next push throws. -/
theorem push_beyond_reserve :
    ∃ final, (RefTable.returned (duvRefSetup newHeap)).bind
      (fun setup => exec RefTable.step ⟨setup.2, [], 0⟩
        (.script [.number (.finite 7)] 110 (fun _ => Object.empty) 0 :: .construct ::
          List.replicate 107 (.push 0))) = some final ∧
      final.live = [(⟨1⟩, .number (.finite 7))] ∧
      (⟨1⟩ : Ref).push final.context = .error .range final.context := by
  have shown : ((RefTable.returned (duvRefSetup newHeap)).bind
      fun setup => exec RefTable.step ⟨setup.2, [], 0⟩
        (.script [.number (.finite 7)] 110 (fun _ => Object.empty) 0 :: .construct ::
          List.replicate 107 (.push 0))).map
      (fun final => (final.live, final.context.stack.length, final.context.reserve)) =
      some ([(⟨1⟩, .number (.finite 7))], 107, 110) := by
    decide +kernel
  obtain ⟨final, run, shape⟩ := Option.map_eq_some_iff.mp shown
  obtain ⟨live, shape⟩ := Prod.mk.inj shape
  obtain ⟨height, reserve⟩ := Prod.mk.inj shape
  have short : ¬final.context.Space 4 := by
    rw [Context.Space, height, reserve]
    decide
  exact ⟨final, run, live, bind_error (duvPushRef_short Nat.one_pos short)⟩

/-- In every run after the setup, the references keep their values and the free slots are used again. -/
theorem references_keep_values {context : Context} {labels : List RefLabel} {final : RefTable}
    (unset : (context.heap context.stash).properties propDtelRefs = none)
    (run : (RefTable.returned (duvRefSetup context)).bind
      (fun setup => exec RefTable.step ⟨setup.2, [], 0⟩ labels) = some final) :
    Sound context.fresh final := by
  obtain ⟨⟨_, after⟩, ended, run⟩ := Option.bind_eq_some_iff.mp run
  have start := setup_invariant unset (returned_ok ended)
  exact (exec_invariant (fun _ _ _ holds taken => Invariant.step holds taken) start run).sound

/-- Of three references, the last one is destroyed, and another one takes its slot. -/
theorem references_keep_values_here :
    ∃ final, (RefTable.returned (duvRefSetup newHeap)).bind
      (fun setup => exec RefTable.step ⟨setup.2, [], 0⟩
        [.script [.number (.finite 7), .undefined, .null, .object 1] 110 (fun _ => Object.empty) 0,
          .construct, .construct, .construct, .destroy 0, .construct, .push 2]) = some final ∧
      final.live = [(⟨2⟩, .object 1), (⟨0⟩, .undefined), (⟨1⟩, .number (.finite 7))] ∧
      final.context.stack = [.number (.finite 7)] ∧ Sound newHeap.fresh final := by
  have shown : ((RefTable.returned (duvRefSetup newHeap)).bind
      fun setup => exec RefTable.step ⟨setup.2, [], 0⟩
        [.script [.number (.finite 7), .undefined, .null, .object 1] 110 (fun _ => Object.empty) 0,
          .construct, .construct, .construct, .destroy 0, .construct, .push 2]).map
      (fun final => (final.live, final.context.stack)) =
      some ([(⟨2⟩, .object 1), (⟨0⟩, .undefined), (⟨1⟩, .number (.finite 7))], [.number (.finite 7)]) := by
    decide +kernel
  obtain ⟨final, run, shape⟩ := Option.map_eq_some_iff.mp shown
  obtain ⟨live, stack⟩ := Prod.mk.inj shape
  exact ⟨final, run, live, stack, references_keep_values rfl run⟩

end RefTable

end Dtel.Duktape
