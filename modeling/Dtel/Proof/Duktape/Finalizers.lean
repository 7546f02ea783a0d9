import Dtel.Construction.Duktape.Finalizers
import Dtel.Proof.Duktape.References

namespace Dtel.Duktape
open Calls FreeList

variable {context after : Context} {refs slot head : Nat} {value second : Value} {stack rest : List Value}

section Halves

theorem duvUnref_halves (positive : slot ≠ 0) :
    duvUnref slot = (duvUnrefStore slot >>= fun _ => duvUnrefLink slot) := by
  rw [duvUnref, if_neg positive, duvUnrefStore, duvUnrefLink]
  simp only [bind_assoc]

variable (stack)

/-- The slot leads to the slot that was the first free one, and the array stays on the stack. -/
theorem duvUnrefStore_run (ready : context.Ready refs) (small : slot < maxProperties)
    (first : (context.table refs).cells 0 = some second) (found : (context.table refs).cells slot = some value)
    (space : stack.length + 4 ≤ context.reserve) :
    duvUnrefStore slot (context.withStack stack) =
      .ok () ((context.putItem refs slot second).withStack (.object refs :: stack)) := by
  rw [duvUnrefStore, bind_ok (pushRefs_run ready space), bind_ok (getItem_run first space),
    setItem_run found small (Nat.le_of_succ_le space)]

/-- Without space for the array, nothing is stored. -/
theorem duvUnrefStore_space {result : Unit} (returned : duvUnrefStore slot context = .ok result after) :
    context.Space 4 := by
  by_contra short
  rw [duvUnrefStore, bind_error (pushRefs_throws short)] at returned
  cases returned

/-- The array leaves the stack when the list starts with the slot. -/
theorem duvUnrefLink_run (first : (context.table refs).cells 0 = some second)
    (space : stack.length + 3 ≤ context.reserve) : duvUnrefLink slot (context.withStack (.object refs :: stack)) =
    .ok () ((context.putItem refs 0 (.number (.finite (slot : Int)))).withStack stack) := by
  have room : 0 < maxProperties := by decide
  have one : (Value.object refs :: stack).length + 1 ≤ context.reserve := Nat.le_of_succ_le space
  rw [duvUnrefLink, pushInt, bind_ok (push_run one), bind_ok (setItem_run first room space), pop_run]

end Halves

theorem link_injective : Function.Injective link := by
  intro slot other same
  have number := Number.finite.inj (Value.number.inj (Option.some.inj same))
  exact_mod_cast number

/-- The slot is on the free list that starts at `refs[0]`. -/
def Context.Free (context : Context) (refs slot : Nat) : Prop := Reached link (context.table refs).cells slot

namespace RefTable

variable {dying : List (Nat × Option Value)} {table next ended : RefTable} {live : List (Ref × Value)}
  {entry : Ref × Value} {position : Nat} {stored : Context}

mutual

/-- When a finalizer returns, the slot that was the first free one before it is free again. -/
def Restores (refs : Nat) (table : RefTable) : RefUse → Prop
  | .plain _ => True
  | .destroy position finalizer => ∀ entry stored, table.live[position]? = some entry → entry.1.refid ≠ 0 →
      returned (duvUnrefStore entry.1.refid table.context) = some ((), stored) →
      RestoresAll refs (table.finalizing position entry.2 stored) finalizer ∧
      ∀ ended head, useAll (table.finalizing position entry.2 stored) finalizer = some ended → 0 < head →
        (table.context.table refs).cells 0 = link head → ended.context.Free refs head

def RestoresAll (refs : Nat) (table : RefTable) : List RefUse → Prop
  | [] => True
  | first :: rest => Restores refs table first ∧ ∀ next, table.use first = some next → RestoresAll refs next rest

end

section Steps

/-- Setup, push and script change no slot. -/
theorem Separate.same (separate : Separate refs dying table) (ready : after.Ready refs)
    (same : after.table refs = table.context.table refs) : Separate refs dying { table with context := after } := by
  refine ⟨ready, ?_, separate.nothing, ?_⟩
  · rw [same]
    exact separate.apart
  · rw [same]
    exact separate.small

/-- A new reference to a defined value owns one more slot. -/
theorem Separate.grown {id : Nat} {peak : Nat} (separate : Separate refs dying table) (real : value ≠ .undefined)
    (ready : after.Ready refs)
    (apart : ∃ free, Apart link (after.table refs) free ((id, some value) :: (dying ++ owned table.live)))
    (small : (after.table refs).length ≤ maxProperties) :
    Separate refs dying ⟨after, (⟨id⟩, value) :: table.live, peak⟩ := by
  obtain ⟨free, apart⟩ := apart
  refine ⟨ready, ⟨free, ?_⟩, ?_, small⟩
  · rw [owned_value _ real]
    exact apart.perm List.perm_middle.symm
  · intro entry member nothing
    rcases List.mem_cons.mp member with rfl | old
    · exact absurd nothing real
    · exact separate.nothing entry old nothing

/-- A construction takes a free slot or a new one. -/
theorem Separate.construct {ref : Ref} {peak : Nat} (separate : Separate refs dying table)
    (onTop : table.context.stack = value :: rest) (called : Ref.construct table.context = .ok ref after) :
    Separate refs dying ⟨after, (ref, value) :: table.live, peak⟩ := by
  have before : table.context = table.context.withStack (value :: rest) := by rw [← onTop, withStack_self]
  have enough : value ≠ .undefined → (value :: rest).length + 4 ≤ table.context.reserve := by
    intro real
    by_contra short
    rw [before, Ref.construct, bind_error (duvRef_short rest real short)] at called
    cases called
  obtain ⟨free, apart⟩ := separate.apart
  rw [before] at called
  by_cases real : value = .undefined
  · subst real
    cases (construct_run duvRef_undefined).symm.trans called
    refine ⟨separate.ready, ⟨free, ?_⟩, ?_, separate.small⟩
    · rw [owned_undefined]
      exact apart
    · intro entry member nothing
      rcases List.mem_cons.mp member with rfl | old
      · rfl
      · exact separate.nothing entry old nothing
  · cases free with
    | nil =>
        by_cases full : maxProperties ≤ (table.context.table refs).length
        · obtain ⟨last, failed⟩ := duvRef_full rest separate.ready real apart.chain full (enough real)
          cases (bind_error failed).symm.trans called
        · have taken := duvRef_grow rest separate.ready real apart.chain (Nat.not_le.mp full) (enough real)
          cases (construct_run taken).symm.trans called
          refine separate.grown real ?_ ⟨[], ?_⟩ ?_
          · simpa using separate.ready
          · simpa using apart.grow (some value)
          · simp only [withStack_table, putItem_table, Table.put]
            omega
    | cons slot free =>
        obtain ⟨second, next, taken⟩ := construct_first separate.ready apart separate.small real (enough real)
        cases taken.symm.trans called
        have reused := apart.reuse (some value)
        rw [next] at reused
        refine separate.grown real ?_ ⟨free, ?_⟩ ?_
        · simpa using separate.ready
        · simpa using reused
        · have small := separate.small
          have below := apart.inside slot (List.mem_cons_of_mem _ List.mem_cons_self)
          simp only [withStack_table, putItem_table, Table.put]
          omega

/-- Inside the store, the slot of the dead reference is neither free nor owned, and it leads to the first free one. -/
theorem Separate.start (separate : Separate refs dying table) (found : table.live[position]? = some entry)
    (positive : entry.1.refid ≠ 0)
    (called : returned (duvUnrefStore entry.1.refid table.context) = some ((), stored)) :
    Separate refs ((entry.1.refid, (table.context.table refs).cells 0) :: dying)
        (table.finalizing position entry.2 stored) ∧
      stored.stack = .object refs :: table.context.stack ∧ table.context.stack.length + 3 ≤ stored.reserve ∧
      (stored.table refs).cells 0 = (table.context.table refs).cells 0 := by
  have taken := erase_perm found
  have real : entry.2 ≠ .undefined := fun nothing =>
    positive (separate.nothing entry (taken.mem_iff.mpr List.mem_cons_self) nothing)
  obtain ⟨free, apart⟩ := separate.apart
  have split : (dying ++ owned table.live).Perm
      ((entry.1.refid, some entry.2) :: (dying ++ owned (table.live.eraseIdx position))) := by
    have owns : (owned table.live).Perm (owned (entry :: table.live.eraseIdx position)) := (taken.filter _).map _
    rw [owned_value entry.1 real] at owns
    exact (owns.append_left dying).trans List.perm_middle
  have detached := apart.detach split
  have below : entry.1.refid < (table.context.table refs).length :=
    apart.inside _ (List.mem_cons_of_mem _ (List.mem_append_right _
      ((split.map Prod.fst).mem_iff.mpr List.mem_cons_self)))
  obtain ⟨second, first⟩ := chain_some apart.chain
  have slot := apart.kept _ ((split.mem_iff).mpr List.mem_cons_self)
  have space := duvUnrefStore_space (returned_ok called)
  have stores := duvUnrefStore_run table.context.stack separate.ready (below.trans_le separate.small) first slot space
  rw [withStack_self] at stores
  rw [stores] at called
  cases called
  refine ⟨⟨ready_putItem.mpr separate.ready, ⟨free, ?_⟩, ?_, ?_⟩, rfl, space.fewer (by decide), ?_⟩
  · change Apart link ((table.context.putItem refs entry.1.refid second).table refs) free _
    rw [putItem_table, ← first]
    exact detached
  · exact fun other old => separate.nothing other (List.mem_of_mem_eraseIdx old)
  · change ((table.context.putItem refs entry.1.refid second).table refs).length ≤ maxProperties
    rw [putItem_table, put_length below]
    exact separate.small
  · rw [withStack_table, putItem_table]
    exact put_other (Ne.symm positive)

/-- The frame of `duv_unref` is there again, without the array. -/
def resumed (ended : RefTable) (refs slot : Nat) (stack : List Value) (reserve : Nat) : Context :=
  (({ ended.context with reserve := reserve } : Context).putItem refs 0 (.number (.finite (slot : Int)))).withStack stack

/-- The end of `duv_unref` writes the first item of the array. -/
theorem finalized_run {frame : Context} (chained : ∃ second, (ended.context.table refs).cells 0 = some second)
    (onTop : frame.stack = .object refs :: stack) (space : stack.length + 3 ≤ frame.reserve) :
    ended.finalized slot frame = some { ended with context := ended.resumed refs slot stack frame.reserve } := by
  obtain ⟨second, first⟩ := chained
  have there : (Context.table { ended.context with reserve := frame.reserve } refs).cells 0 = some second := first
  have links : duvUnrefLink slot { ended.context with stack := .object refs :: stack, reserve := frame.reserve } =
      .ok () (ended.resumed refs slot stack frame.reserve) := duvUnrefLink_run stack there space
  rw [finalized, onTop, links]
  rfl

theorem resumed_table {reserve : Nat} : (ended.resumed refs slot stack reserve).table refs =
    (ended.context.table refs).put 0 (link slot) := by
  rw [resumed, withStack_table, putItem_table]
  rfl

/-- When the slot leads to a free one, it becomes the first free slot. -/
theorem Separate.finish {first : Option Value} {frame : Context} (separate : Separate refs ((slot, first) :: dying) ended)
    (linked : ∃ head, first = link head)
    (still : ∀ head, 0 < head → first = link head → ended.context.Free refs head)
    (onTop : frame.stack = .object refs :: stack) (space : stack.length + 3 ≤ frame.reserve)
    (finished : ended.finalized slot frame = some next) : Separate refs dying next := by
  obtain ⟨free, apart⟩ := separate.apart
  obtain ⟨head, rfl⟩ := linked
  obtain ⟨later, chain, part⟩ : ∃ later, Chain link (ended.context.table refs).cells (link head) later ∧
      later.Sublist free := by
    by_cases none : head = 0
    · exact ⟨[], congrArg link none, List.nil_sublist free⟩
    · have member := (apart.reached_iff link_injective).mp (still head (Nat.pos_of_ne_zero none) rfl)
      obtain ⟨later, chain, part⟩ := apart.chain.suffix member
      exact ⟨head :: later, ⟨rfl, chain⟩, part⟩
  have attached := apart.attach chain part
  have positive : 0 < (ended.context.table refs).length := apart.inside 0 List.mem_cons_self
  cases (finalized_run (chain_some apart.chain) onTop space).symm.trans finished
  refine ⟨ready_putItem.mpr separate.ready, ⟨slot :: later, ?_⟩, separate.nothing, ?_⟩
  · rw [resumed_table]
    exact attached
  · rw [resumed_table, put_length positive]
    exact separate.small

/-- Whatever the finalizer has done with it, the slot that was the first free one is on the list afterwards. -/
theorem Separate.finish_free {frame : Context} (separate : Separate refs ((slot, link head) :: dying) ended)
    (positive : 0 < head) (onTop : frame.stack = .object refs :: stack) (space : stack.length + 3 ≤ frame.reserve)
    (finished : ended.finalized slot frame = some next) : next.context.Free refs head := by
  obtain ⟨free, apart⟩ := separate.apart
  obtain ⟨notZero, -, -⟩ := apart.owned_other
  have leads : (ended.context.table refs).cells slot = link head := apart.kept _ List.mem_cons_self
  cases (finalized_run (chain_some apart.chain) onTop space).symm.trans finished
  unfold Context.Free
  rw [resumed_table]
  exact .tail (.single ⟨Nat.pos_of_ne_zero notZero, put_same⟩) ⟨positive, (put_other notZero).trans leads⟩

/-- Without a finalizer, the two parts are one call. -/
theorem use_destroy_nil : table.use (.destroy position []) = table.step (.destroy position) := by
  rw [use, RefTable.step]
  cases found : table.live[position]? with
  | none => rfl
  | some entry =>
      rw [Option.bind_some, Option.bind_some, Ref.destroy]
      by_cases zero : entry.1.refid = 0
      · rw [if_pos zero, zero]
        rfl
      · rw [if_neg zero, duvUnref_halves zero]
        cases stores : duvUnrefStore entry.1.refid table.context with
        | error error stored =>
            rw [bind_error stores]
            rfl
        | ok result stored =>
            rw [bind_ok stores]
            rfl

/-- A reference without a slot can go. -/
theorem Separate.erase (separate : Separate refs dying table) (found : table.live[position]? = some entry)
    (zero : entry.1.refid = 0) : Separate refs dying { table with live := table.live.eraseIdx position } := by
  have taken := erase_perm found
  have nothing : entry.2 = .undefined := by
    by_contra real
    exact Nat.ne_of_gt (separate.positive (taken.mem_iff.mpr List.mem_cons_self) real) zero
  have split : (owned table.live).Perm (owned (entry :: table.live.eraseIdx position)) := (taken.filter _).map _
  rw [show entry = (entry.1, .undefined) from Prod.ext rfl nothing, owned_undefined] at split
  obtain ⟨free, apart⟩ := separate.apart
  exact ⟨separate.ready, ⟨free, apart.perm (split.append_left dying)⟩,
    fun other old => separate.nothing other (List.mem_of_mem_eraseIdx old), separate.small⟩

/-- A destruction keeps the slots apart when its finalizer does, and gives the first free slot back. -/
theorem Separate.destroy {finalizer : List RefUse} (separate : Separate refs dying table)
    (restores : Restores refs table (.destroy position finalizer))
    (kept : ∀ dying started ended, Separate refs dying started → RestoresAll refs started finalizer →
      useAll started finalizer = some ended → Separate refs dying ended)
    (taken : table.use (.destroy position finalizer) = some next) : Separate refs dying next := by
  rw [use] at taken
  obtain ⟨entry, found, taken⟩ := Option.bind_eq_some_iff.mp taken
  split at taken
  case isTrue zero =>
      cases taken
      exact separate.erase found zero
  case isFalse positive =>
      obtain ⟨⟨⟨⟩, stored⟩, called, taken⟩ := Option.bind_eq_some_iff.mp taken
      obtain ⟨ended, used, finished⟩ := Option.bind_eq_some_iff.mp taken
      obtain ⟨within, still⟩ := restores entry stored found positive called
      obtain ⟨started, frame, space, -⟩ := separate.start found positive called
      obtain ⟨free, apart⟩ := separate.apart
      refine (kept _ _ _ started within used).finish ?_ (fun head => still ended head used) frame space finished
      cases free with
      | nil => exact ⟨0, apart.chain⟩
      | cons head free => exact ⟨head, apart.chain.1⟩

/-- Without a finalizer, the first free slot stays free. -/
theorem Separate.restores_nil (separate : Separate refs dying table) : Restores refs table (.destroy position []) := by
  intro entry stored found positive called
  refine ⟨trivial, fun ended head used above first => ?_⟩
  cases used
  obtain ⟨-, -, -, same⟩ := separate.start found positive called
  exact .single ⟨above, same.trans first⟩

/-- The uses without finalizers keep the slots apart. -/
theorem Separate.plain {label : RefLabel} (separate : Separate refs dying table)
    (taken : table.step label = some next) : Separate refs dying next := by
  cases label with
  | script stack reserve objects allocated =>
      cases taken
      exact separate.same (script_ready separate.ready stack reserve objects allocated)
        (script_table separate.ready stack reserve objects allocated)
  | setup =>
      obtain ⟨⟨_, after⟩, ended, same⟩ := Option.map_eq_some_iff.mp taken
      have called := returned_ok ended
      rw [(setup_ready separate.ready).returned called] at called
      cases called
      cases same
      exact separate
  | construct =>
      rw [RefTable.step] at taken
      split at taken
      case h_1 => cases taken
      case h_2 value rest onTop =>
          obtain ⟨⟨ref, after⟩, ended, same⟩ := Option.map_eq_some_iff.mp taken
          cases same
          exact separate.construct onTop (returned_ok ended)
  | push position =>
      obtain ⟨entry, found, taken⟩ := Option.bind_eq_some_iff.mp taken
      obtain ⟨⟨_, after⟩, ended, same⟩ := Option.map_eq_some_iff.mp taken
      have called := returned_ok ended
      rw [(separate.push (List.mem_of_getElem? found)).returned called] at called
      cases called
      cases same
      exact separate.same separate.ready rfl
  | destroy position =>
      refine separate.destroy separate.restores_nil ?_ (use_destroy_nil.trans taken)
      intro dying started ended separate _ used
      cases used
      exact separate

mutual

/-- Each use keeps the slots apart, in a finalizer, too. -/
theorem Separate.use {dying : List (Nat × Option Value)} {table next : RefTable} (first : RefUse)
    (separate : Separate refs dying table) (restores : Restores refs table first)
    (taken : table.use first = some next) : Separate refs dying next := by
  cases first with
  | plain label => exact separate.plain taken
  | destroy position finalizer =>
      refine separate.destroy restores ?_ taken
      exact fun dying started ended separate restores used => Separate.useAll finalizer separate restores used

theorem Separate.useAll {dying : List (Nat × Option Value)} {table next : RefTable} (uses : List RefUse)
    (separate : Separate refs dying table) (restores : RestoresAll refs table uses)
    (taken : table.useAll uses = some next) : Separate refs dying next := by
  cases uses with
  | nil =>
      cases taken
      exact separate
  | cons first rest =>
      obtain ⟨middle, used, taken⟩ := Option.bind_eq_some_iff.mp taken
      exact Separate.useAll rest (Separate.use first separate restores.1 used) (restores.2 middle used) taken

end

end Steps

section Runs

/-- The references that keep their slots off the free list keep their values. -/
theorem Separate.kept (separate : Separate refs [] table) :
    (∀ entry ∈ defined table.live, ¬table.context.Free refs entry.1.refid) ∧
    (∀ entry ∈ defined table.live, (table.context.table refs).cells entry.1.refid = some entry.2) ∧
    ∀ entry ∈ table.live, WithSpace (table.context.PushSpace entry.2) table.context entry.1.push
      (entry.1.push table.context = .ok 1 (table.context.withStack (entry.2 :: table.context.stack))) := by
  obtain ⟨free, apart⟩ := separate.apart
  refine ⟨fun entry member reached => ?_, fun entry member => ?_, fun entry member => separate.push member⟩
  · have owns : entry.1.refid ∈ (owned table.live).map Prod.fst := by
      rw [owned_ids]
      exact List.mem_map_of_mem member
    have distinct := (List.nodup_append.mp (List.nodup_cons.mp apart.nodup).2).2.2
    exact distinct _ ((apart.reached_iff link_injective).mp reached) _ owns rfl
  · obtain ⟨alive, real⟩ := List.mem_filter.mp member
    exact apart.kept _ (owned_mem alive (by simpa using real))

/-- When each finalizer gives back the slot that was the first free one, no live reference has a free slot. -/
theorem finalizers_keep_references {context : Context} {uses : List RefUse} {final : RefTable}
    (unset : (context.heap context.stash).properties propDtelRefs = none)
    (restores : ∀ setup, returned (duvRefSetup context) = some setup →
      RestoresAll context.fresh ⟨setup.2, [], 0⟩ uses)
    (run : (returned (duvRefSetup context)).bind (fun setup => useAll ⟨setup.2, [], 0⟩ uses) = some final) :
    (∀ entry ∈ defined final.live, ¬final.context.Free context.fresh entry.1.refid) ∧
    (∀ entry ∈ defined final.live, (final.context.table context.fresh).cells entry.1.refid = some entry.2) ∧
    ∀ entry ∈ final.live, WithSpace (final.context.PushSpace entry.2) final.context entry.1.push
      (entry.1.push final.context = .ok 1 (final.context.withStack (entry.2 :: final.context.stack))) := by
  obtain ⟨⟨_, after⟩, ended, run⟩ := Option.bind_eq_some_iff.mp run
  have start := setup_invariant unset (returned_ok ended)
  exact (start.separate.useAll uses (restores _ ended) run).kept

/-- A finalizer keeps a new reference while no slot is free. -/
theorem finalizers_keep_references_here :
    ∃ final, (returned (duvRefSetup newHeap)).bind (fun setup => useAll ⟨setup.2, [], 0⟩
      [.plain (.script [.object 3] 110 (fun _ => Object.empty) 1), .plain .construct,
        .destroy 0 [.plain (.script [.boolean false] 97 (fun _ => Object.empty) 0), .plain .construct]]) = some final ∧
      final.live = [(⟨2⟩, .boolean false)] ∧
      ∀ entry ∈ defined final.live, ¬final.context.Free newHeap.fresh entry.1.refid := by
  have shown : ((returned (duvRefSetup newHeap)).bind fun setup => useAll ⟨setup.2, [], 0⟩
      [.plain (.script [.object 3] 110 (fun _ => Object.empty) 1), .plain .construct,
        .destroy 0 [.plain (.script [.boolean false] 97 (fun _ => Object.empty) 0), .plain .construct]]).map RefTable.live =
      some [(⟨2⟩, .boolean false)] := by
    decide +kernel
  obtain ⟨final, run, live⟩ := Option.map_eq_some_iff.mp shown
  refine ⟨final, run, live, (finalizers_keep_references rfl ?_ run).1⟩
  intro setup called
  cases called
  refine ⟨trivial, fun next used => ?_⟩
  cases used
  refine ⟨trivial, fun next used => ?_⟩
  cases used
  refine ⟨fun entry stored found positive called => ?_, fun next used => trivial⟩
  refine ⟨⟨trivial, fun next used => ⟨trivial, fun next used => trivial⟩⟩, fun ended head used positive first => ?_⟩
  cases link_injective (first : link 0 = link head)
  cases positive

/-- Slot one is free when the object in slot two dies. Its finalizer takes slot one, and slot two then leads there.
Of the next two references, the second one overwrites the value of the finalizer's. -/
theorem finalizer_reference_overwritten :
    ∃ freed final, (returned (duvRefSetup newHeap)).bind (fun setup => useAll ⟨setup.2, [], 0⟩
        [.plain (.script [.boolean true, .object 3] 110 (fun _ => Object.empty) 1), .plain .construct, .plain .construct,
          .destroy 1 [],
          .destroy 0 [.plain (.script [.boolean false] 97 (fun _ => Object.empty) 0), .plain .construct]]) = some freed ∧
      freed.live = [(⟨1⟩, .boolean false)] ∧ freed.context.Free 2 1 ∧
      useAll freed [.plain (.script [.null, .string "new"] 110 (fun _ => Object.empty) 0), .plain .construct,
        .plain .construct] = some final ∧
      final.live = [(⟨1⟩, .string "new"), (⟨2⟩, .null), (⟨1⟩, .boolean false)] ∧
      (final.context.table 2).cells 1 = some (.string "new") := by
  have shown : ((returned (duvRefSetup newHeap)).bind fun setup => useAll ⟨setup.2, [], 0⟩
        [.plain (.script [.boolean true, .object 3] 110 (fun _ => Object.empty) 1), .plain .construct, .plain .construct,
          .destroy 1 [],
          .destroy 0 [.plain (.script [.boolean false] 97 (fun _ => Object.empty) 0), .plain .construct]]).bind (fun freed =>
      (useAll freed [.plain (.script [.null, .string "new"] 110 (fun _ => Object.empty) 0), .plain .construct,
        .plain .construct]).map fun final =>
        ((freed.live, (freed.context.table 2).cells 0, (freed.context.table 2).cells 2), final.live,
          (final.context.table 2).cells 1)) =
      some (([(⟨1⟩, .boolean false)], link 2, link 1),
        [(⟨1⟩, .string "new"), (⟨2⟩, .null), (⟨1⟩, .boolean false)], some (.string "new")) := by
    decide +kernel
  obtain ⟨freed, run, rest⟩ := Option.bind_eq_some_iff.mp shown
  obtain ⟨final, used, shape⟩ := Option.map_eq_some_iff.mp rest
  obtain ⟨before, after⟩ := Prod.mk.inj shape
  obtain ⟨alive, cells⟩ := Prod.mk.inj before
  obtain ⟨first, second⟩ := Prod.mk.inj cells
  obtain ⟨live, value⟩ := Prod.mk.inj after
  refine ⟨freed, final, run, alive, ?_, used, live, value⟩
  exact .tail (.single ⟨by decide, first⟩) ⟨by decide, second⟩

end Runs

end RefTable

end Dtel.Duktape
