import Dtel.Construction.Duktape.Script
import Dtel.Proof.Duktape.ValueObject

namespace Dtel.Duktape
open Calls

variable {script : Script} {context before after : Context} {value second : Value} {stack start rest below : List Value}
  {index : Int} {A B : Type}

/-- Duktape itself throws this error, or a script where no call is protected. -/
def Error.OfEngine : Error → Prop
  | .exception _ => False
  | _ => True

section Engine

/-- An exception that leaves a sequence comes from behind a call in which only Duktape throws. -/
theorem exception_passed {call : Api A} {next : A → Api B} {what : String} (raises : Raises Error.OfEngine call)
    (thrown : (call >>= next) before = .error (.exception what) after) :
    ∃ result middle, call before = .ok result middle ∧ next result middle = .error (.exception what) after :=
  raises.passed id thrown

theorem requireNormalizeIndex_engine : Raises Error.OfEngine (requireNormalizeIndex index) := by
  intro context error after thrown
  cases valid : normalizeIndex context index with
  | none =>
      rw [requireNormalizeIndex_throws valid] at thrown
      cases thrown
      trivial
  | some position =>
      rw [requireNormalizeIndex_run valid] at thrown
      cases thrown

theorem requireSpace_engine {values : Nat} : Raises Error.OfEngine (requireSpace values) := by
  refine Raises.get fun state => ?_
  split
  case isTrue => exact Raises.throw trivial
  case isFalse => exact Raises.pure _

theorem push_engine : Raises Error.OfEngine (push value) := requireSpace_engine.bind fun _ => Raises.modify _

theorem pushObject_engine : Raises Error.OfEngine pushObject := requireSpace_engine.bind fun _ => Raises.modify _

theorem pushGlobalObject_engine : Raises Error.OfEngine pushGlobalObject := Raises.get fun _ => push_engine

theorem pushHeapStash_engine : Raises Error.OfEngine pushHeapStash :=
  requireSpace_engine.bind fun _ => Raises.get fun _ => push_engine

theorem getProp_engine {found missing : Nat} {read : Object → Option Value} :
    Raises Error.OfEngine (getProp index found missing read) := by
  refine requireNormalizeIndex_engine.bind fun position => requireSpace_engine.bind fun _ => ?_
  refine Raises.get fun state => Raises.get fun same => ?_
  split
  case h_1 object base =>
      split
      all_goals exact requireSpace_engine.bind fun _ => push_engine
  case h_2 error base =>
      unfold readBase at base
      split at base
      all_goals cases base
      all_goals exact Raises.throw trivial

theorem putProp_engine {space : Object → Nat} {write : Value → Object → Object} :
    Raises Error.OfEngine (putProp index space write) := by
  refine requireNormalizeIndex_engine.bind fun position => requireSpace_engine.bind fun _ => ?_
  refine Raises.get fun state => Raises.get fun same => ?_
  split
  case h_1 => exact Raises.get fun _ => requireSpace_engine.bind fun _ => Raises.modify _
  case h_2 => exact Raises.throw trivial

theorem remove_engine : Raises Error.OfEngine (remove index) :=
  requireNormalizeIndex_engine.bind fun _ => Raises.modify _

theorem duvPushRef_engine {ref : Nat} : Raises Error.OfEngine (duvPushRef ref) := by
  unfold duvPushRef
  split
  case isTrue => exact push_engine
  case isFalse =>
      have refs : Raises Error.OfEngine pushRefs :=
        pushHeapStash_engine.bind fun _ => getProp_engine.bind fun _ => remove_engine
      exact refs.bind fun _ => getProp_engine.bind fun _ => remove_engine

mutual

/-- A plain value throws no exception. -/
theorem AnyValue.push_engine (value : AnyValue) (plain : value.Plain) :
    Raises Error.OfEngine (pushAnyValue script value) := by
  cases value with
  | value value => exact (value.push_engine plain).bind fun _ => Raises.pure _
  | other => exact plain.elim
  | _ => exact Duktape.push_engine

theorem NativeValue.push_engine (value : NativeValue) (plain : value.Plain) :
    Raises Error.OfEngine (value.push script) := by
  cases value with
  | ref ref => exact duvPushRef_engine.bind fun _ => Raises.pure _
  | valueGlobal => exact pushGlobalObject_engine.bind fun _ => Raises.pure _
  | valueObject properties =>
      unfold NativeValue.push pushValueObject
      split
      case isTrue => exact Raises.pure _
      case isFalse => exact pushObject_engine.bind fun _ => (properties.putAll_engine plain).bind fun _ => Raises.pure _
  | event => exact plain.elim

theorem Properties.putAll_engine (properties : Properties) (plain : properties.Plain) :
    Raises Error.OfEngine (properties.putAll script) := by
  cases properties with
  | nil => exact Raises.pure _
  | cons key value rest =>
      exact (value.push_engine plain.1).bind fun _ => putProp_engine.bind fun _ => rest.putAll_engine plain.2

end

end Engine

/-- These entries are at the bottom. -/
def Keeping (below : List Value) (context : Context) : Prop := below <:+ context.stack

/-- Some entries are above these ones. -/
def Above (below : List Value) (context : Context) : Prop := ∃ top, (top :: below) <:+ context.stack

/-- From this stack, the call returns with such a stack. When it throws, the entries below are still there. -/
def Turns (below start : List Value) (call : Api A) (post : A → List Value → Prop) : Prop :=
  Ensures (fun context => context.stack = start) call (fun result context => post result context.stack) (Keeping below)

section Turns

variable {post : A → List Value → Prop} {last : B → List Value → Prop} {call : Api A} {next : A → Api B}

theorem Turns.bind (first : Turns below start call post)
    (second : ∀ result stack, post result stack → Turns below stack (next result) last) :
    Turns below start (call >>= next) last :=
  Ensures.bind first fun result context holds => second result context.stack holds context rfl

theorem Turns.pure (result : A) (holds : post result start) : Turns below start (Pure.pure result) post := by
  rintro before rfl
  exact holds

theorem Turns.throw (error : Error) (kept : below <:+ start) : Turns below start (throw error : Api A) post := by
  rintro before rfl
  exact kept

/-- A call that reads the context may use the stack that it reads. -/
theorem Turns.get {next : Context → Api A}
    (turns : ∀ seen : Context, seen.stack = start → Turns below start (next seen) post) :
    Turns below start (MonadState.get >>= next) post :=
  Ensures.get turns

/-- The stack that a call leaves may be known only in part. -/
theorem Turns.imp {weaker : A → List Value → Prop} (turns : Turns below start call post)
    (implies : ∀ result stack, post result stack → weaker result stack) : Turns below start call weaker := by
  intro before same
  cases called : call before with
  | ok result after => exact implies result after.stack (turns.returned same called)
  | error error after => exact turns.threw same called

/-- Fewer entries are below. -/
theorem Turns.fewer {less : List Value} (turns : Turns below start call post) (fewer : less <:+ below) :
    Turns less start call post :=
  turns.weaken fun _ kept => fewer.trans kept

theorem requireNormalizeIndex_turns (kept : below <:+ start) :
    Turns below start (requireNormalizeIndex index) fun _ stack => stack = start := by
  rintro before rfl
  cases valid : normalizeIndex before index with
  | none =>
      rw [requireNormalizeIndex_throws valid]
      exact kept
  | some position =>
      rw [requireNormalizeIndex_run valid]

theorem requireSpace_turns {values : Nat} (kept : below <:+ start) :
    Turns below start (requireSpace values) fun _ stack => stack = start := by
  rintro before rfl
  by_cases space : before.Space values
  · rw [requireSpace_run space]
  · rw [requireSpace_throws space]
    exact kept

theorem push_turns (kept : below <:+ start) :
    Turns below start (push value) fun _ stack => stack = value :: start := by
  refine (requireSpace_turns kept).bind fun _ stack same => ?_
  rintro before onTop
  exact congrArg (List.cons value) (onTop.trans same)

theorem pushed_turns (kept : below <:+ start) :
    Turns below start (push value) fun _ stack => ∃ value, stack = value :: start :=
  (push_turns kept).imp fun _ _ pushed => ⟨_, pushed⟩

theorem pushObject_turns (kept : below <:+ start) :
    Turns below start pushObject fun _ stack => ∃ address, stack = .object address :: start := by
  refine (requireSpace_turns kept).bind fun _ stack same => ?_
  rintro before onTop
  exact ⟨_, congrArg (List.cons _) (onTop.trans same)⟩

theorem pushGlobalObject_turns (kept : below <:+ start) :
    Turns below start pushGlobalObject fun _ stack => ∃ value, stack = value :: start :=
  Turns.get fun _ _ => pushed_turns kept

theorem pushHeapStash_turns (kept : below <:+ start) :
    Turns below start pushHeapStash fun _ stack => ∃ value, stack = value :: start := by
  refine (requireSpace_turns kept).bind fun _ stack same => ?_
  subst same
  exact Turns.get fun _ _ => pushed_turns kept

theorem getProp_turns {found missing : Nat} {read : Object → Option Value} (kept : below <:+ start) :
    Turns below start (getProp index found missing read) fun _ stack => ∃ value, stack = value :: start := by
  refine (requireNormalizeIndex_turns kept).bind fun position stack same => ?_
  subst same
  refine (requireSpace_turns kept).bind fun _ stack same => ?_
  subst same
  refine Turns.get fun state _ => Turns.get fun same _ => ?_
  split
  case h_1 object base =>
      split
      all_goals
        refine (requireSpace_turns kept).bind fun _ stack same => ?_
        subst same
        exact pushed_turns kept
  case h_2 error base => exact Turns.throw error kept

theorem dup_turns (kept : below <:+ start) :
    Turns below start (dup index) fun _ stack => ∃ value, stack = value :: start := by
  refine (requireNormalizeIndex_turns kept).bind fun position stack same => ?_
  subst same
  exact Turns.get fun _ _ => pushed_turns kept

theorem pop_turns : Turns below (value :: rest) pop fun _ stack => stack = rest := by
  rintro before onTop
  rw [pop, get_bind, onTop]
  rfl

/-- The entry below the top is removed. -/
theorem remove_turns : Turns below (value :: second :: rest) (remove (-2)) fun _ stack => stack = value :: rest := by
  rintro before onTop
  have removed : remove (-2) (before.withStack (value :: second :: rest)) = _ := remove_run
  rw [← onTop, withStack_self] at removed
  rw [removed]
  rfl

theorem remove_top_turns : Turns below (value :: rest) (remove (-1)) fun _ stack => stack = rest := by
  rintro before onTop
  have valid : normalizeIndex (before.withStack (value :: rest)) (-1) = some 0 := normalizeIndex_top
  rw [← onTop, withStack_self] at valid
  rw [remove, bind_ok (requireNormalizeIndex_run valid)]
  change before.stack.eraseIdx 0 = rest
  rw [onTop]
  rfl

/-- Script leaves the values below the call alone. -/
theorem protectedCall_run {popped : Nat} (outcome : Context → Outcome) {taken : List Value}
    (length : taken.length = popped) : protectedCall popped outcome (context.withStack (taken ++ rest)) =
      let called := outcome (context.withStack (taken ++ rest))
      .ok called.failed ((called.effect.apply context []).withStack (called.value :: rest)) := by
  have enough : popped ≤ (context.withStack (taken ++ rest)).stack.length := by
    rw [withStack_stack, List.length_append, length]
    exact Nat.le_add_right popped rest.length
  have dropped : (context.withStack (taken ++ rest)).stack.drop popped = rest := by
    rw [withStack_stack, ← length, List.drop_left]
  rw [protectedCall, get_bind, if_neg (Nat.not_lt.mpr enough), dropped]
  rfl

/-- The values of a protected call are replaced by one. -/
theorem protectedCall_turns {popped : Nat} {outcome : Context → Outcome} {taken : List Value}
    (length : taken.length = popped) : Turns below (taken ++ rest) (protectedCall popped outcome) fun _ stack =>
      ∃ value, stack = value :: rest := by
  rintro before onTop
  have run : protectedCall popped outcome (before.withStack (taken ++ rest)) = _ := protectedCall_run outcome length
  rw [← onTop, withStack_self] at run
  rw [run]
  exact ⟨_, rfl⟩

theorem convertTop_turns :
    Turns below (value :: rest) (convertTop script) fun _ stack => ∃ text, stack = text :: rest := by
  rintro before onTop
  rw [convertTop, get_bind, onTop]
  exact ⟨_, rfl⟩

/-- The message of an error is read from a copy. -/
theorem errorMessage_turns (kept : below <:+ value :: rest) :
    Turns below (value :: rest) (errorMessage script index) fun _ stack => stack = value :: rest := by
  refine (dup_turns kept).bind fun _ stack copied => ?_
  obtain ⟨copy, rfl⟩ := copied
  have text : Turns below (copy :: value :: rest) (safeToString script) fun _ stack =>
      ∃ text, stack = text :: value :: rest := by
    refine (requireSpace_turns (kept.trans (List.suffix_cons _ _))).bind fun _ stack same => ?_
    subst same
    exact convertTop_turns.bind fun _ stack converted => Turns.pure _ converted
  refine text.bind fun _ stack converted => ?_
  obtain ⟨string, rfl⟩ := converted
  exact pop_turns.bind fun _ stack popped => Turns.pure _ popped

/-- The property that an error has is pushed, or its getter throws. -/
theorem readThrown_turns {key : String} (kept : below <:+ start) :
    Turns below start (readThrown script index key) fun _ stack => ∃ value, stack = value :: start := by
  refine (requireNormalizeIndex_turns kept).bind fun position stack same => ?_
  subst same
  refine (requireSpace_turns kept).bind fun _ stack same => ?_
  subst same
  refine Turns.get fun seen onTop => ?_
  have put : ∀ effect : Effect,
      Turns below stack (set (effect.apply seen seen.stack) : Api PUnit) fun _ other => other = stack :=
    fun _ _ _ => onTop
  refine (put _).bind fun _ other same => ?_
  subst same
  split
  case isTrue => exact Turns.throw _ kept
  case isFalse => exact pushed_turns kept

theorem getString_turns : Turns below start (getString index) fun _ stack => stack = start := by
  refine Turns.get fun seen onTop => ?_
  split
  all_goals exact Turns.pure _ rfl

/-- The property `stack` of an error is popped again. -/
theorem errorStack_turns (kept : below <:+ start) :
    Turns below start (errorStack script index) fun _ stack => stack = start := by
  have object : Turns below start (isObject index) fun _ stack => stack = start :=
    Turns.get fun _ _ => Turns.pure _ rfl
  refine object.bind fun isObject stack same => ?_
  subst same
  split
  case isTrue =>
      refine (readThrown_turns kept).bind fun _ other pushed => ?_
      obtain ⟨value, rfl⟩ := pushed
      refine getString_turns.bind fun text other same => ?_
      subst same
      exact pop_turns.bind fun _ other popped => Turns.pure _ popped
  case isFalse => exact Turns.pure _ rfl

/-- An error that is thrown leaves the stack, and the entries below it stay. -/
theorem throwScriptError_turns (kept : below <:+ rest) :
    Turns below (value :: rest) (throwScriptError script (-1)) fun _ _ => False := by
  have longer : below <:+ value :: rest := kept.trans (List.suffix_cons _ _)
  refine (errorMessage_turns longer).bind fun message stack same => ?_
  subst same
  refine (errorStack_turns longer).bind fun text stack same => ?_
  subst same
  refine remove_top_turns.bind fun _ stack same => ?_
  subst same
  exact Turns.throw _ kept

end Turns

end Dtel.Duktape
