import Dtel.Proof.EventTarget.Listeners

namespace Dtel

namespace EventTarget

section Abstract

variable {Fn Mark : Type} [DecidableEq Fn]

/-- A dispatch to a snapshot of the listeners calls each of them in turn, unless an earlier one has
removed it. -/
def snapshot (behaviour : List Fn → List (Change Fn)) :
    List (Fn × Mark) → List (Value Fn) → List (Fn × Mark) → List (Fn × Mark)
  | [], _, calls => calls
  | entry :: pending, removed, calls =>
      if .function entry.1 ∈ removed then snapshot behaviour pending removed calls
      else
        let calls := calls ++ [entry]
        snapshot behaviour pending (removed ++ removals (behaviour (calls.map Prod.fst))) calls

/-- Each listener of the snapshot is called at most once, in order. -/
theorem snapshot_sublist {behaviour : List Fn → List (Change Fn)} {pending : List (Fn × Mark)}
    {removed : List (Value Fn)} {calls : List (Fn × Mark)} :
    ∃ served, snapshot behaviour pending removed calls = calls ++ served ∧ served.Sublist pending := by
  induction pending generalizing removed calls with
  | nil => exact ⟨[], by simp [snapshot], .slnil⟩
  | cons entry pending inductionHypothesis =>
      unfold snapshot
      split
      case isTrue =>
          obtain ⟨served, same, sublist⟩ : ∃ served,
              snapshot behaviour pending removed calls = calls ++ served ∧ served.Sublist pending :=
            inductionHypothesis
          exact ⟨served, same, sublist.cons entry⟩
      case isFalse =>
          obtain ⟨served, same, sublist⟩ : ∃ served, snapshot behaviour pending
              (removed ++ removals (behaviour ((calls ++ [entry]).map Prod.fst))) (calls ++ [entry]) =
                calls ++ [entry] ++ served ∧ served.Sublist pending := inductionHypothesis
          exact ⟨entry :: served, same.trans (List.append_assoc _ _ _), sublist.cons_cons entry⟩

end Abstract

variable {Fn Mark : Type} [DecidableEq Fn] {target : EventTarget Fn Mark} {type : String}
  {behaviour : List Fn → List (Change Fn)} {fresh : Mark} {index turns : Nat}
  {dispatch after : Dispatch Fn Mark} {old added : List (Listener Fn Mark)}
  {entries done pending : List (Fn × Mark)}

/-- These listeners are registered, each with its mark. -/
def registrations (entries : List (Fn × Mark)) : List (Listener Fn Mark) :=
  entries.map fun entry => ⟨.function entry.1, entry.2⟩

/-- A listener that is not the last one removes none of the listeners. -/
def Undisturbed (type : String) (behaviour : List Fn → List (Change Fn)) (fns : List Fn) : Prop :=
  ∀ turn, turn + 1 < fns.length → ∀ fn ∈ fns, .remove type (.function fn) ∉ behaviour (fns.take (turn + 1))

/-- A turn calls the listener at its index, whose changes leave a new list. -/
theorem dispatchLoop_turn {fn : Fn} {mark : Mark} {listeners : List (Listener Fn Mark)}
    (ofType : ∀ history, ∀ change ∈ behaviour history, change.type = type)
    (own : dispatch.target.listeners type = some listeners) (read : listeners[index]? = some ⟨.function fn, mark⟩) :
    dispatchLoop fresh type behaviour index (turns + 1) dispatch =
      dispatchLoop fresh type behaviour (index + 1) turns
        ⟨dispatch.target.setListeners type
            ((behaviour (dispatch.calls ++ [(fn, mark)] |>.map Prod.fst)).foldl (Change.apply fresh) listeners),
          dispatch.calls ++ [(fn, mark)]⟩ := by
  have read' : (dispatch.target.stack type)[index]? = some ⟨.function fn, mark⟩ := by simp [stack, own, read]
  rw [dispatchLoop, read']
  simp only [Dispatch.called]
  rw [performAll_own own (ofType _)]

/-- When too few of the old listeners are left, a dispatch that returns has called an added one. -/
theorem dispatchLoop_displaced (ofType : ∀ history, ∀ change ∈ behaviour history, change.type = type)
    (own : dispatch.target.listeners type = some (old ++ added)) (few : old.length < index + turns)
    (marked : ∀ listener ∈ added, listener.mark = fresh) (some_turn : 0 < turns)
    (returned : dispatchLoop fresh type behaviour index turns dispatch = .ok after) :
    ∃ call ∈ after.calls, call.2 = fresh := by
  induction turns generalizing index dispatch old added with
  | zero => cases some_turn
  | succ turns inductionHypothesis =>
      cases read : (old ++ added)[index]? with
      | none => simp [dispatchLoop, stack, own, read] at returned
      | some listener =>
          obtain ⟨callback, mark⟩ := listener
          cases callback with
          | undefined | null => simp [dispatchLoop, stack, own, read] at returned
          | function fn =>
              rw [dispatchLoop_turn ofType own read, foldl_apply_append] at returned
              cases turns with
              | zero =>
                  have beyond : old.length ≤ index := by omega
                  rw [List.getElem?_append_right beyond] at read
                  simp only [dispatchLoop, Except.ok.injEq] at returned
                  subst returned
                  refine ⟨(fn, mark), by simp, ?_⟩
                  exact marked _ (List.mem_of_getElem? read)
              | succ turns =>
                  apply inductionHypothesis setListeners_same _ (mark_foldl_apply marked) (Nat.succ_pos _) returned
                  have shorter := List.length_filter_le
                    (fun listener => listener.callback ∉ removals (behaviour (dispatch.calls ++ [(fn, mark)] |>.map Prod.fst)))
                    old
                  omega

omit [DecidableEq Fn] in
/-- The functions that have been called are the first ones of the list. -/
theorem take_called {entry : Fn × Mark} (split : entries = done ++ entry :: pending) :
    (entries.map Prod.fst).take (done.length + 1) = (done ++ [entry]).map Prod.fst := by
  have split' : entries.map Prod.fst = (done ++ [entry]).map Prod.fst ++ pending.map Prod.fst := by simp [split]
  have length : done.length + 1 = ((done ++ [entry]).map Prod.fst).length := by simp
  rw [split', length, List.take_left]

/-- Other removals keep all registrations. -/
theorem registrations_kept {removed : List (Value Fn)}
    (others : ∀ fn ∈ entries.map Prod.fst, .function fn ∉ removed) :
    (registrations entries).filter (fun listener => listener.callback ∉ removed) = registrations entries := by
  rw [List.filter_eq_self]
  intro listener member
  obtain ⟨entry, entered, rfl⟩ := List.mem_map.mp member
  exact decide_eq_true (others entry.1 (List.mem_map_of_mem entered))

/-- The removal of a registered function deletes a registration. -/
theorem registrations_fewer {removed : List (Value Fn)} {fn : Fn} (registered : fn ∈ entries.map Prod.fst)
    (gone : .function fn ∈ removed) :
    ((registrations entries).filter fun listener => listener.callback ∉ removed).length < entries.length := by
  obtain ⟨entry, entered, rfl⟩ := List.mem_map.mp registered
  have fewer : ((registrations entries).filter fun listener => listener.callback ∉ removed).length <
      (registrations entries).length := by
    rw [List.length_filter_lt_length_iff_exists]
    exact ⟨⟨.function entry.1, entry.2⟩, List.mem_map_of_mem entered, by simpa using gone⟩
  simpa [registrations] using fewer

/-- Undisturbed listeners are all called, in the order of their registration. -/
theorem dispatchLoop_undisturbed (ofType : ∀ history, ∀ change ∈ behaviour history, change.type = type)
    (undisturbed : Undisturbed type behaviour (entries.map Prod.fst)) (split : entries = done ++ pending)
    (own : target.listeners type = some (registrations entries ++ added)) :
    ∃ target', dispatchLoop fresh type behaviour done.length pending.length ⟨target, done⟩ =
      .ok ⟨target', entries⟩ := by
  induction pending generalizing done target added with
  | nil => exact ⟨target, by simp [dispatchLoop, split]⟩
  | cons entry pending inductionHypothesis =>
      have split' : entries = (done ++ [entry]) ++ pending := by simp [split]
      have read : (registrations entries ++ added)[done.length]? = some ⟨.function entry.1, entry.2⟩ := by
        simp [registrations, split]
      rw [List.length_cons, dispatchLoop_turn ofType own read, foldl_apply_append]
      cases pending with
      | nil => exact ⟨_, by simp [dispatchLoop, split]; rfl⟩
      | cons next pending =>
          have kept : (registrations entries).filter (fun listener => listener.callback ∉
              removals (behaviour ((done ++ [(entry.1, entry.2)]).map Prod.fst))) = registrations entries := by
            apply registrations_kept
            intro fn registered
            rw [mem_removals (ofType _), ← take_called split]
            exact undisturbed done.length (by simp [split]) fn registered
          rw [kept]
          have length : done.length + 1 = (done ++ [entry]).length := by simp
          rw [length]
          exact inductionHypothesis split' setListeners_same

/-- A dispatch that calls no added listener was undisturbed. -/
theorem undisturbed_of_dispatchLoop (ofType : ∀ history, ∀ change ∈ behaviour history, change.type = type)
    (split : entries = done ++ pending) (own : target.listeners type = some (registrations entries ++ added))
    (marked : ∀ listener ∈ added, listener.mark = fresh)
    (returned : dispatchLoop fresh type behaviour done.length pending.length ⟨target, done⟩ = .ok after)
    (unadded : ∀ call ∈ after.calls, call.2 ≠ fresh) :
    ∀ turn, done.length ≤ turn → turn + 1 < entries.length → ∀ fn ∈ entries.map Prod.fst,
      .remove type (.function fn) ∉ behaviour ((entries.map Prod.fst).take (turn + 1)) := by
  induction pending generalizing done target added with
  | nil =>
      intro turn late early
      simp [split] at early
      omega
  | cons entry pending inductionHypothesis =>
      intro turn late early fn registered
      have split' : entries = (done ++ [entry]) ++ pending := by simp [split]
      have length : done.length + 1 = (done ++ [entry]).length := by simp
      have read : (registrations entries ++ added)[done.length]? = some ⟨.function entry.1, entry.2⟩ := by
        simp [registrations, split]
      have total : entries.length = done.length + 1 + pending.length := by simp [split]; omega
      rw [List.length_cons, dispatchLoop_turn ofType own read, foldl_apply_append] at returned
      dsimp only at returned
      by_cases removed : ∃ gone ∈ entries.map Prod.fst,
          .function gone ∈ removals (behaviour ((done ++ [(entry.1, entry.2)]).map Prod.fst))
      · obtain ⟨gone, registered', removed⟩ := removed
        have fewer := registrations_fewer registered' removed
        obtain ⟨call, called, new⟩ := dispatchLoop_displaced ofType setListeners_same (by omega)
          (mark_foldl_apply marked) (by omega) returned
        exact absurd new (unadded call called)
      · push Not at removed
        rw [registrations_kept removed, length] at returned
        rcases Nat.eq_or_lt_of_le late with same | later
        · rw [← same, take_called split, ← mem_removals (ofType _)]
          exact removed fn registered
        · exact inductionHypothesis split' setListeners_same (mark_foldl_apply marked) returned turn
            (length ▸ later) early fn registered

/-- Undisturbed listeners are the calls of a dispatch to the snapshot. -/
theorem snapshot_undisturbed {removed : List (Value Fn)}
    (ofType : ∀ history, ∀ change ∈ behaviour history, change.type = type)
    (undisturbed : Undisturbed type behaviour (entries.map Prod.fst)) (split : entries = done ++ pending)
    (others : ∀ fn ∈ pending.map Prod.fst, .function fn ∉ removed) :
    snapshot behaviour pending removed done = entries := by
  induction pending generalizing done removed with
  | nil => simp [snapshot, split]
  | cons entry pending inductionHypothesis =>
      have split' : entries = (done ++ [entry]) ++ pending := by simp [split]
      have registered : .function entry.1 ∉ removed := others entry.1 (by simp)
      rw [snapshot, if_neg registered]
      apply inductionHypothesis split'
      intro fn waits
      have later : done.length + 1 < (entries.map Prod.fst).length := by
        have positive : 0 < (pending.map Prod.fst).length := List.length_pos_of_mem waits
        rw [List.length_map] at positive
        simp [split]
        omega
      have registered' : fn ∈ entries.map Prod.fst := by
        rw [split, List.map_append, List.map_cons]
        exact List.mem_append_right _ (List.mem_cons_of_mem _ waits)
      have kept := undisturbed done.length later fn registered'
      rw [take_called split, ← mem_removals (ofType _)] at kept
      simp only [List.mem_append, not_or]
      exact ⟨others fn (List.mem_cons_of_mem _ waits), kept⟩

/-- These functions are registered in order, each marked with its position. -/
def numbered (fns : List Fn) : List (Fn × Option Nat) := fns.zipIdx.map fun entry => (entry.1, some entry.2)

/-- A dispatch returns and calls each function that was registered when it started and not removed
before its turn, once and in order, and no function that was added, if and only if the listeners
are undisturbed. -/
theorem dispatch_robust {target : EventTarget Fn (Option Nat)} {fns : List Fn}
    (own : target.listeners type = some (registrations (numbered fns)))
    (ofType : ∀ history, ∀ change ∈ behaviour history, change.type = type) :
    (∃ after, target.dispatchEvent none type behaviour = .ok ⟨after, snapshot behaviour (numbered fns) [] []⟩) ↔
      Undisturbed type behaviour fns := by
  have functions : (numbered fns).map Prod.fst = fns := by
    simp [numbered, Function.comp_def]
  have start : target.dispatchEvent none type behaviour =
      dispatchLoop none type behaviour ([] : List (Fn × Option Nat)).length (numbered fns).length ⟨target, []⟩ := by
    simp [dispatchEvent, own, registrations]
  have own' : target.listeners type = some (registrations (numbered fns) ++ []) := by simp [own]
  rw [start]
  constructor
  · rintro ⟨after, returned⟩
    have unadded (call : Fn × Option Nat) (called : call ∈ snapshot behaviour (numbered fns) [] []) :
        call.2 ≠ none := by
      obtain ⟨served, same, sublist⟩ : ∃ served,
          snapshot behaviour (numbered fns) [] [] = [] ++ served ∧ served.Sublist (numbered fns) := snapshot_sublist
      rw [same] at called
      obtain ⟨entry, -, rfl⟩ := List.mem_map.mp (sublist.subset called)
      exact Option.some_ne_none _
    have undisturbed := undisturbed_of_dispatchLoop ofType rfl own' (by simp) returned unadded
    rw [List.nil_append, functions] at undisturbed
    intro turn early
    refine undisturbed turn (Nat.zero_le _) ?_
    rwa [← functions, List.length_map] at early
  · intro undisturbed
    rw [← functions] at undisturbed
    rw [snapshot_undisturbed ofType undisturbed rfl (by simp)]
    exact dispatchLoop_undisturbed ofType undisturbed rfl own'

/-- The first listener adds a listener, and the last one removes the first. -/
theorem dispatch_robust_here : ∃ after,
    dispatchEvent none
      ((construct fun _ => none).setListeners "message" (registrations (numbered [0, 1]))) "message"
      (fun history => if history = [0] then [.add "message" (.function 2)] else [.remove "message" (.function 0)]) =
      .ok ⟨after, [(0, some 0), (1, some 1)]⟩ := by
  have calls : snapshot (fun history => if history = [0] then [.add "message" (.function 2)]
      else [.remove "message" (.function 0)]) (numbered [0, 1]) [] [] = [(0, some 0), (1, some 1)] := by decide
  rw [← calls]
  apply (dispatch_robust setListeners_same ?_).2
  · intro turn early fn registered
    have first : turn = 0 := by
      simp only [List.length_cons, List.length_nil] at early
      omega
    subst first
    simp
  · intro history change member
    split at member
    · rw [List.mem_singleton.mp member]
      rfl
    · rw [List.mem_singleton.mp member]
      rfl

/-- The first of two listeners removes itself. -/
theorem single_shot_throws : ¬∀ (target : EventTarget Nat (Option Nat)) (type : String) (fns : List Nat)
    (behaviour : List Nat → List (Change Nat)),
    target.listeners type = some (registrations (numbered fns)) →
    (∀ history, ∀ change ∈ behaviour history, change.type = type) →
    ∃ after, target.dispatchEvent none type behaviour =
      .ok ⟨after, snapshot behaviour (numbered fns) [] []⟩ := by
  intro claim
  obtain ⟨after, returned⟩ := claim
    ((construct fun _ => none).setListeners "message" (registrations (numbered [0, 1]))) "message" [0, 1]
    (fun _ => [.remove "message" (.function 0)]) setListeners_same (by simp [Change.type])
  have thrown : (dispatchEvent none
      ((construct fun _ => none).setListeners "message" (registrations (numbered [0, 1]))) "message"
      (fun _ => [.remove "message" (.function 0)])).isOk = false := by decide
  rw [returned] at thrown
  cases thrown

end EventTarget

end Dtel
