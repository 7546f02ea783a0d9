import Dtel.Library.Ownership
import Dtel.Proof.Pointer.Sound

namespace Dtel.PointerStore

open Relation

variable {store next : PointerStore} {label : PointerLabel} {labels : List PointerLabel} {threads object : Nat}

/-- The object is held. -/
def held (store : PointerStore) (object : Nat) : Prop := store.phase? object = some .held

/-- A pointer outside of all objects holds the object. -/
def rooted (store : PointerStore) (object : Nat) : Prop := ⟨none, some object⟩ ∈ store.pointers

/-- A member of the owner holds the object. -/
def pointsTo (store : PointerStore) (owner object : Nat) : Prop := ⟨some owner, some object⟩ ∈ store.pointers

/-- All calls have returned, and each object has been given to a pointer. -/
structure Quiet (store : PointerStore) : Prop where
  returned : ∀ calls ∈ store.threads, calls = []
  retained : ∀ object, store.phase? object ≠ some .fresh

section Survivors

/-- A quiet store has no pending call. -/
theorem Quiet.calling (quiet : store.Quiet) (call : PointerCall) : store.calling call = 0 := by
  have none : store.threads.map (fun calls => calls.count call) = store.threads.map fun _ => 0 :=
    List.map_congr_left fun calls member => by rw [quiet.returned calls member, List.count_nil]
  rw [PointerStore.calling, Threads.weight, none]
  simp

/-- The phase of an object in a quiet store is `held` or `freed`. -/
theorem Quiet.phase (quiet : store.Quiet) (sound : store.Sound) {phase : Phase}
    (there : store.phase? object = some phase) : phase = .held ∨ phase = .freed := by
  cases phase with
  | fresh => exact absurd there (quiet.retained object)
  | held => exact Or.inl rfl
  | dying =>
      have none := sound.deleting object
      rw [quiet.calling, if_pos there] at none
      cases none
  | freed => exact Or.inr rfl

/-- Each object that is held in a quiet store has a pointer, outside of all objects or in one that is held. -/
theorem Quiet.supported (quiet : store.Quiet) (sound : store.Sound) (object : Nat) (alive : store.held object) :
    store.rooted object ∨ ∃ owner, store.held owner ∧ store.pointsTo owner object := by
  have used := (sound.live object).mpr alive
  rw [uses, quiet.calling, Nat.add_zero, holders, List.countP_pos_iff] at used
  obtain ⟨pointer, member, same⟩ := used
  have obj : pointer.obj = some object := of_decide_eq_true same
  cases owner : pointer.owner with
  | none =>
      refine Or.inl ?_
      rw [rooted, ← owner, ← obj]
      exact member
  | some owner' =>
      obtain ⟨phase, there, kept⟩ := sound.owned pointer member owner' owner
      refine Or.inr ⟨owner', ?_, ?_⟩
      · rw [held, there, (quiet.phase sound there).resolve_right kept]
      · rw [pointsTo, ← owner, ← obj]
        exact member

/-- There are finitely many held objects. -/
theorem held_finite (store : PointerStore) : {object | store.held object}.Finite := by
  refine (Set.finite_lt_nat store.objects.length).subset fun object alive => ?_
  obtain ⟨counted, there, -⟩ := phase?_iff.mp alive
  exact (List.getElem?_eq_some_iff.mp there).1

end Survivors

/-- When all calls have returned, the objects that are not deleted are exactly those on the ways from the pointers
outside of all objects and from the cycles of members. Without such a pointer and such a cycle, all objects are
deleted. -/
theorem only_cycles_survive (run : Execution.exec step (initial threads) labels = some store) (quiet : store.Quiet) :
    (∀ object, store.held object ↔ Ownership.Owned store.pointsTo store.held store.rooted object) ∧
    ((∀ object, ¬ store.rooted object) → (∀ object, ¬ TransGen store.pointsTo object object) →
      ∀ object, object < store.objects.length → store.phase? object = some .freed) := by
  have sound : store.Sound :=
    Execution.exec_invariant (fun _ _ _ holds taken => Sound.step holds taken) (initial_sound threads) run
  have owned (object : Nat) (alive : store.held object) :
      Ownership.Owned store.pointsTo store.held store.rooted object :=
    Ownership.owned_of_supported store.held_finite (quiet.supported sound) alive
  refine ⟨fun object => ⟨owned object, ?_⟩, fun unrooted acyclic object below => ?_⟩
  · rintro ⟨source, alive, -, way⟩
    refine Ownership.live_of_way (fun owner object _ edge => ?_) alive way
    exact phase?_iff.mpr (sound.pointed edge rfl)
  · have there : store.phase? object = some store.objects[object].phase := by
      rw [phase?, List.getElem?_eq_getElem below]
      rfl
    rcases quiet.phase sound there with alive | gone
    · obtain ⟨source, -, root | cycle, -⟩ := owned object (there.trans (congrArg some alive))
      · exact absurd root (unrooted source)
      · exact absurd cycle (acyclic source)
    · rw [there, gone]

/-- Two objects have a member for each other, and all other pointers are destroyed. -/
def cyclicRun : List PointerLabel :=
  [.create, .construct 0 none, .create, .copy ⟨none, some 0⟩ (some 1), .construct 1 none, .copy ⟨none, some 1⟩ (some 0),
    .destroy 0 ⟨none, some 1⟩, .next 0, .destroy 0 ⟨none, some 0⟩, .next 0]

theorem only_cycles_survive_here : ∃ store, Execution.exec step (initial 1) cyclicRun = some store ∧
    store.pointers = [⟨some 0, some 1⟩, ⟨some 1, some 0⟩] ∧
      Ownership.Owned store.pointsTo store.held store.rooted 0 := by
  have run : Execution.exec step (initial 1) cyclicRun =
      some ⟨[⟨1, .held⟩, ⟨1, .held⟩], [⟨some 0, some 1⟩, ⟨some 1, some 0⟩], [[]]⟩ := rfl
  have quiet : Quiet ⟨[⟨1, .held⟩, ⟨1, .held⟩], [⟨some 0, some 1⟩, ⟨some 1, some 0⟩], [[]]⟩ := by
    refine ⟨by simp, fun object => ?_⟩
    rcases object with _ | _ | object <;> simp [phase?]
  exact ⟨_, run, rfl, ((only_cycles_survive run quiet).1 0).mp rfl⟩

section Cleanup

/-- The calls that a pending call still leads to, without those of members. -/
def PointerCall.left : PointerCall → Nat
  | .release _ => 2
  | .delete _ => 1

/-- The statements that the pending calls and the destructors of all pointers still execute. -/
def cleanupLeft (store : PointerStore) : Nat :=
  3 * store.pointers.length + Threads.weight (fun calls => (calls.map PointerCall.left).sum) store.threads

/-- The label belongs to a destructor that a thread has begun. -/
def Cleans (store : PointerStore) : PointerLabel → Prop
  | .next _ => True
  | .destroy thread pointer => ∃ object calls, store.threads[thread]? = some (.delete object :: calls) ∧
      pointer.owner = some object
  | _ => False

theorem left_setCalls {thread : Nat} {before : List PointerCall} (after : List PointerCall)
    (there : store.threads[thread]? = some before) :
    Threads.weight (fun calls => (calls.map PointerCall.left).sum) (store.threads.set thread after) +
      (before.map PointerCall.left).sum =
    Threads.weight (fun calls => (calls.map PointerCall.left).sum) store.threads + (after.map PointerCall.left).sum :=
  Threads.weight_set _ after there

/-- A step of the cleanup leaves less to do. -/
theorem cleans_pays (cleans : store.Cleans label) (taken : store.step label = some next) :
    next.cleanupLeft + 1 ≤ store.cleanupLeft := by
  have removed {pointer : IntrusiveRefCntPtr} (member : pointer ∈ store.pointers) :
      (store.pointers.erase pointer).length + 1 = store.pointers.length := by
    have positive := List.length_pos_of_mem member
    rw [List.length_erase_of_mem member]
    omega
  cases step_cases taken with
  | rearrange label next changed =>
      cases changed with
      | destroyEmpty thread pointer member obj =>
          have fewer := removed member
          change 3 * (store.pointers.erase pointer).length + Threads.weight _ store.threads + 1 ≤
            3 * store.pointers.length + Threads.weight _ store.threads
          omega
      | _ => cases cleans
  | create | construct | copy => cases cleans
  | destroy thread calls pointer object there member obj =>
      have fewer := removed member
      have moved := left_setCalls (.release object :: calls) there
      simp only [List.map_cons, List.sum_cons, PointerCall.left] at moved
      change 3 * (store.pointers.erase pointer).length + Threads.weight _ (store.threads.set thread _) + 1 ≤
        3 * store.pointers.length + _
      omega
  | release thread calls object counted there found more | free thread calls object counted there found destroyed =>
      have moved := left_setCalls calls there
      simp only [List.map_cons, List.sum_cons, PointerCall.left] at moved
      change 3 * store.pointers.length + Threads.weight _ (store.threads.set thread _) + 1 ≤ 3 * store.pointers.length + _
      omega
  | last thread calls object counted there found zero =>
      have moved := left_setCalls (.delete object :: calls) there
      simp only [List.map_cons, List.sum_cons, PointerCall.left] at moved
      change 3 * store.pointers.length + Threads.weight _ (store.threads.set thread _) + 1 ≤ 3 * store.pointers.length + _
      omega

/-- A thread with a pending call can execute a statement of it. -/
theorem Sound.cleans (sound : store.Sound) {thread : Nat} {call : PointerCall} {calls : List PointerCall}
    (there : store.threads[thread]? = some (call :: calls)) :
    ∃ label, store.Cleans label ∧ store.step label ≠ none := by
  cases call with
  | release object =>
      obtain ⟨counted, found, -, -⟩ := sound.pending there
      refine ⟨.next thread, trivial, ?_⟩
      simp only [PointerStore.step, there, callStep, found]
      split <;> simp
  | delete object =>
      obtain ⟨counted, found, -⟩ := phase?_iff.mp (sound.dying there List.mem_cons_self)
      by_cases members : ∃ pointer ∈ store.pointers, pointer.owner = some object
      · obtain ⟨pointer, member, owner⟩ := members
        refine ⟨.destroy thread pointer, ⟨object, calls, there, owner⟩, ?_⟩
        simp [PointerStore.step, there, member]
      · refine ⟨.next thread, trivial, ?_⟩
        have none : (store.pointers.any fun pointer => pointer.owner = some object) = false := by
          simpa using members
        simp [PointerStore.step, there, callStep, found, none]

end Cleanup

/-- The destructors that the threads have begun end: a store bounds the statements that they still execute, and where
none of them can go on, all have returned. -/
theorem releases_complete (run : Execution.exec step (initial threads) labels = some store) :
    (∀ later final, Execution.exec step store later = some final → Execution.Along step Cleans store later →
      later.length ≤ store.cleanupLeft) ∧
    ((∀ label, store.Cleans label → store.step label = none) → ∀ calls ∈ store.threads, calls = []) := by
  have sound : store.Sound :=
    Execution.exec_invariant (fun _ _ _ holds taken => Sound.step holds taken) (initial_sound threads) run
  constructor
  · intro later final run cleans
    have pays (store : PointerStore) (label : PointerLabel) (next : PointerStore) (cleans : store.Cleans label)
        (taken : store.step label = some next) : next.cleanupLeft + 1 ≤ store.cleanupLeft + 0 :=
      cleans_pays cleans taken
    have paid := Execution.exec_amortized pays cleans run
    simp at paid
    omega
  · intro stuck calls member
    obtain ⟨thread, there⟩ := List.getElem?_of_mem member
    cases calls with
    | nil => rfl
    | cons call calls =>
        obtain ⟨label, cleans, enabled⟩ := sound.cleans there
        exact absurd (stuck label cleans) enabled

/-- The destructor of an object with a member has begun. -/
theorem releases_complete_here : ∃ store, Execution.exec step (initial 1) (cyclicRun ++ [.destroy 0 ⟨some 1, some 0⟩]) =
    some store ∧ ∀ later final, Execution.exec step store later = some final →
      Execution.Along step Cleans store later → later.length ≤ 5 := by
  have run : Execution.exec step (initial 1) (cyclicRun ++ [.destroy 0 ⟨some 1, some 0⟩]) =
      some ⟨[⟨1, .held⟩, ⟨1, .held⟩], [⟨some 0, some 1⟩], [[.release 0]]⟩ := rfl
  exact ⟨_, run, (releases_complete run).1⟩

end Dtel.PointerStore
