import Dtel.Proof.Duktape.Script

namespace Dtel.Duktape
open Calls

variable {script : Script} {base context before after : Context} {value : Value} {stack start rest below : List Value}
  {A B : Type} {what : String}

/-- A call that exits by an exception leaves the entries that it found. -/
def Balanced (call : Api A) : Prop :=
  ∀ before what after, call before = .error (.exception what) after → after.stack = before.stack

/-- A call that exits by an exception turns this stack into that one. -/
def Balances (below start : List Value) (call : Api A) : Prop :=
  ∀ before what after, before.stack = start → call before = .error (.exception what) after → after.stack = below

section Protected

variable {post : A → List Value → Prop} {call : Api A} {next : A → Api B}

theorem Balances.balanced (balances : ∀ start, Balances start start call) : Balanced call :=
  fun before what after thrown => balances before.stack before what after rfl thrown

/-- A call in which only Duktape throws is passed. -/
theorem Balances.passed (raises : Raises Error.OfEngine call) (turns : Turns [] start call post)
    (later : ∀ result stack, post result stack → Balances below stack (next result)) :
    Balances below start (call >>= next) := by
  intro before what after onTop thrown
  obtain ⟨result, middle, called, thrown⟩ := exception_passed raises thrown
  exact later result middle.stack (turns.returned onTop called) middle what after rfl thrown

theorem Balances.never (raises : Raises Error.OfEngine call) : Balances below start call :=
  fun before _ after _ thrown => (raises before _ after thrown).elim

end Protected

section Barrier

variable {call : Api A}

/-- More entries above are fine. -/
theorem Above.append (above : Above below before) (more : before.stack <:+ after.stack) : Above below after :=
  above.imp fun _ kept => kept.trans more

/-- What is above more entries is above fewer, too. -/
theorem Above.fewer (above : Above (value :: below) context) : Above below context := by
  obtain ⟨top, kept⟩ := above
  exact ⟨value, (List.suffix_cons top _).trans kept⟩

theorem Above.keeping (above : Above below context) : Keeping below context := by
  obtain ⟨top, kept⟩ := above
  exact (List.suffix_cons top _).trans kept

theorem Keeping.above (keeping : Keeping (value :: below) context) : Above below context := ⟨value, keeping⟩

/-- A call that keeps the whole stack keeps what is above. -/
theorem Turns.keeps (turns : ∀ start, Turns start start call fun _ stack => start <:+ stack) :
    Keeps (Above below) call := by
  intro before above
  cases called : call before with
  | ok result after => exact above.append ((turns before.stack).returned rfl called)
  | error error after => exact above.append ((turns before.stack).threw rfl called)

theorem pushed_keeps (turns : ∀ start, Turns start start call fun _ stack => ∃ value, stack = value :: start) :
    Keeps (Above below) call := by
  refine Turns.keeps fun start => (turns start).imp ?_
  rintro _ _ ⟨value, rfl⟩
  exact List.suffix_cons value start

theorem duvPushRef_turns {ref : Nat} (kept : below <:+ start) :
    Turns below start (duvPushRef ref) fun _ stack => ∃ value, stack = value :: start := by
  unfold duvPushRef
  split
  case isTrue => exact pushed_turns kept
  case isFalse =>
      have longer : ∀ value, below <:+ value :: start := fun value => kept.trans (List.suffix_cons value start)
      have refs : Turns below start pushRefs fun _ stack => ∃ value, stack = value :: start := by
        refine (pushHeapStash_turns kept).bind fun _ _ pushed => ?_
        obtain ⟨stash, rfl⟩ := pushed
        refine (getProp_turns (longer stash)).bind fun _ _ got => ?_
        obtain ⟨array, rfl⟩ := got
        exact remove_turns.imp fun _ _ removed => ⟨array, removed⟩
      refine refs.bind fun _ _ pushed => ?_
      obtain ⟨array, rfl⟩ := pushed
      refine (getProp_turns (longer array)).bind fun _ _ got => ?_
      obtain ⟨item, rfl⟩ := got
      exact remove_turns.imp fun _ _ removed => ⟨item, removed⟩

/-- The object below the top is read. -/
theorem valueAt_object {address : Nat} (read : valueAt context (-2) = .object address) :
    ∃ value rest, context.stack = value :: .object address :: rest := by
  have same : context = context.withStack context.stack := rfl
  cases stack : context.stack with
  | nil =>
      rw [same, stack] at read
      cases read
  | cons value others =>
      rw [same, stack] at read
      cases others with
      | nil => cases read
      | cons second rest =>
          rw [valueAt_second] at read
          exact ⟨value, rest, by rw [read]⟩

/-- A value is only stored in an object. -/
theorem putProp_turns {space : Object → Nat} {write : Value → Object → Object} (kept : below <:+ start) :
    Turns below start (putProp (-2) space write) fun _ stack =>
      ∃ value address rest, start = value :: .object address :: rest ∧ stack = .object address :: rest := by
  refine (requireNormalizeIndex_turns kept).bind fun position _ same => ?_
  subst same
  refine (requireSpace_turns kept).bind fun _ _ same => ?_
  subst same
  refine Turns.get fun state onTop => Turns.get fun same again => ?_
  split
  case h_2 => exact Turns.throw _ kept
  case h_1 address value others base top =>
      obtain ⟨first, bottom, shape⟩ := valueAt_object base
      rw [onTop] at shape
      rw [again, shape] at top
      cases top
      refine Turns.get fun _ _ => (requireSpace_turns kept).bind fun _ _ _ => ?_
      exact fun _ _ => ⟨value, address, bottom, shape, rfl⟩

/-- A value is only stored above the barrier. -/
theorem putProp_keeps {barrier : Value} {space : Object → Nat} {write : Value → Object → Object}
    (primitive : barrier.isObject = false) : Keeps (Above (barrier :: below)) (putProp (-2) space write) := by
  intro before above
  have turns : Turns before.stack before.stack (putProp (-2) space write) fun _ stack =>
      ∃ value address rest, before.stack = value :: .object address :: rest ∧ stack = .object address :: rest :=
    putProp_turns (List.suffix_refl before.stack)
  cases called : putProp (-2) space write before with
  | error error after => exact above.append (turns.threw rfl called)
  | ok result after =>
      obtain ⟨value, address, rest, shape, popped⟩ := turns.returned rfl called
      obtain ⟨top, kept⟩ := above
      rw [shape] at kept
      rcases List.suffix_cons_iff.mp kept with same | kept
      · cases same
        cases primitive
      · exact ⟨top, popped ▸ kept⟩

/-- The result is the number of values that are pushed above a primitive value. -/
def Counts (pushInit : Api Nat) : Prop :=
  ∀ (barrier : Value) (below : List Value), barrier.isObject = false →
    Turns (barrier :: below) (barrier :: below) pushInit fun count stack =>
      ∃ args, stack = args ++ barrier :: below ∧ args.length = count

theorem pushValueObject_counts {properties : Properties}
    (keeps : ∀ (barrier : Value) (below : List Value), barrier.isObject = false →
      Keeps (Above (barrier :: below)) (properties.putAll script)) :
    Counts (pushValueObject properties (properties.putAll script)) := by
  intro barrier below primitive
  unfold pushValueObject
  split
  case isTrue => exact Turns.pure _ ⟨[], rfl, rfl⟩
  case isFalse =>
      refine (pushObject_turns (List.suffix_refl _)).bind fun _ _ pushed => ?_
      obtain ⟨address, rfl⟩ := pushed
      have filled : Turns (barrier :: below) (.object address :: barrier :: below) (properties.putAll script) fun _ stack =>
          ∃ top, stack = top :: barrier :: below := by
        intro before onTop
        have start : Above (barrier :: below) before := ⟨.object address, onTop.symm ▸ List.suffix_refl _⟩
        cases called : properties.putAll script before with
        | error error after => exact ((keeps barrier below primitive).threw start called).keeping
        | ok result after =>
            obtain ⟨top, kept⟩ := (keeps barrier below primitive).returned start called
            have height := properties.putAll_height called
            rw [onTop] at height
            exact ⟨top, (kept.eq_of_length_le (by simp only [List.length_cons] at height ⊢; omega)).symm⟩
      refine filled.bind fun _ _ created => ?_
      obtain ⟨top, rfl⟩ := created
      exact Turns.pure _ ⟨[top], rfl, rfl⟩

/-- A constructor with a first argument and further ones takes these entries. -/
theorem arguments_taken (args : List Value) (first constructor : Value) (rest : List Value) {count : Nat}
    (length : args.length = count) : args ++ first :: constructor :: rest = (args ++ [first, constructor]) ++ rest ∧
      (args ++ [first, constructor]).length = 1 + count + 1 := by
  constructor
  · simp
  · simp only [List.length_append, List.length_cons, List.length_nil]
    omega

/-- The event takes the place of its constructor and of its arguments. -/
theorem constructEvent_turns {eventClass eventType : String} {pushInit : Api Nat} (counts : Counts pushInit)
    (kept : below <:+ start) :
    Turns below start (constructEvent script eventClass eventType pushInit) fun _ stack =>
      ∃ event, stack = event :: start := by
  have longer : ∀ more, below <:+ more ++ start := fun more => kept.trans (List.suffix_append more start)
  refine (pushGlobalObject_turns kept).bind fun _ _ pushed => ?_
  obtain ⟨global, rfl⟩ := pushed
  refine (getProp_turns (longer [global])).bind fun _ _ got => ?_
  obtain ⟨constructor, rfl⟩ := got
  refine remove_turns.bind fun _ _ removed => ?_
  subst removed
  refine (push_turns (longer [constructor])).bind fun _ _ pushed => ?_
  subst pushed
  refine ((counts (.string (cString eventType)) (constructor :: start) rfl).fewer
    (longer [.string (cString eventType), constructor])).bind fun oc _ pushed => ?_
  obtain ⟨args, rfl, length⟩ := pushed
  obtain ⟨split, taken⟩ := arguments_taken args (.string (cString eventType)) constructor start length
  rw [split]
  refine (protectedCall_turns taken).bind fun failed _ called => ?_
  obtain ⟨event, rfl⟩ := called
  split
  case isTrue => exact (throwScriptError_turns kept).imp fun _ _ never => never.elim
  case isFalse => exact Turns.pure _ ⟨event, rfl⟩

mutual

/-- No push takes the entries from a primitive value on. -/
theorem AnyValue.push_keeps (value : AnyValue) (barrier : Value) (below : List Value)
    (primitive : barrier.isObject = false) : Keeps (Above (barrier :: below)) (pushAnyValue script value) := by
  cases value with
  | value value => exact (value.push_keeps barrier below primitive).bind fun _ => Keeps.pure _
  | other => exact Keeps.throw _
  | _ => exact pushed_keeps fun start => pushed_turns (List.suffix_refl start)

theorem NativeValue.push_keeps (value : NativeValue) (barrier : Value) (below : List Value)
    (primitive : barrier.isObject = false) : Keeps (Above (barrier :: below)) (value.push script) := by
  cases value with
  | ref ref =>
      have pushed : Keeps (Above (barrier :: below)) (duvPushRef ref.refid) :=
        pushed_keeps fun start => duvPushRef_turns (List.suffix_refl start)
      exact pushed.bind fun _ => Keeps.pure _
  | valueGlobal =>
      have pushed : Keeps (Above (barrier :: below)) pushGlobalObject :=
        pushed_keeps fun start => pushGlobalObject_turns (List.suffix_refl start)
      exact pushed.bind fun _ => Keeps.pure _
  | valueObject properties =>
      have object : Keeps (Above (barrier :: below)) pushObject :=
        pushed_keeps fun start => (pushObject_turns (List.suffix_refl start)).imp fun _ _ ⟨_, pushed⟩ => ⟨_, pushed⟩
      unfold NativeValue.push pushValueObject
      split
      case isTrue => exact Keeps.pure _
      case isFalse =>
          exact object.bind fun _ => (properties.putAll_keeps barrier below primitive).bind fun _ => Keeps.pure _
  | event target eventClass eventType eventInit =>
      have created : Keeps (Above (barrier :: below)) (constructEvent script eventClass eventType
          (pushValueObject eventInit (eventInit.putAll script))) :=
        pushed_keeps fun start => constructEvent_turns (pushValueObject_counts eventInit.putAll_keeps) (List.suffix_refl start)
      unfold NativeValue.push
      refine created.bind fun _ => ?_
      cases target with
      | none => exact Keeps.pure _
      | some target =>
          exact (target.push_keeps barrier below primitive).bind fun _ =>
            (putProp_keeps primitive).bind fun _ => Keeps.pure _

theorem Properties.putAll_keeps (properties : Properties) (barrier : Value) (below : List Value)
    (primitive : barrier.isObject = false) : Keeps (Above (barrier :: below)) (properties.putAll script) := by
  cases properties with
  | nil => exact Keeps.pure _
  | cons key value rest =>
      exact (value.push_keeps barrier below primitive).bind fun _ =>
        (putProp_keeps primitive).bind fun _ => rest.putAll_keeps barrier below primitive

end

/-- The properties of an event are pushed above its type. -/
theorem Properties.init_counts (properties : Properties) :
    Counts (pushValueObject properties (properties.putAll script)) :=
  pushValueObject_counts properties.putAll_keeps

end Barrier

section Solid

/-- The object below the top gets the property, whatever it is. -/
theorem putProp_adds {space : Object → Nat} {write : Value → Object → Object} {top : Value} :
    Turns (value :: stack) (top :: value :: stack) (putProp (-2) space write) fun _ left => left = value :: stack := by
  refine (putProp_turns (List.suffix_cons top _)).imp ?_
  rintro _ _ ⟨_, address, rest, shape, rfl⟩
  cases shape
  rfl

/-- An event is pushed with its target, when the target pushes one value. -/
theorem event_adds {own : Option NativeValue} {eventClass eventType : String} {eventInit : Properties}
    (adds : ∀ native ∈ own, ∀ stack,
      Turns stack stack (native.push script) fun _ after => ∃ top, after = top :: stack) :
    Turns stack stack ((NativeValue.event own eventClass eventType eventInit).push script) fun _ after =>
      ∃ top, after = top :: stack := by
  unfold NativeValue.push
  refine (constructEvent_turns eventInit.init_counts (List.suffix_refl stack)).bind fun _ _ constructed => ?_
  obtain ⟨event, rfl⟩ := constructed
  cases own with
  | none => exact Turns.pure _ ⟨event, rfl⟩
  | some native =>
      refine ((adds native rfl (event :: stack)).fewer (List.suffix_cons event stack)).bind fun _ _ pushed => ?_
      obtain ⟨top, rfl⟩ := pushed
      refine (putProp_adds.fewer (List.suffix_cons event stack)).bind fun _ _ same => ?_
      exact Turns.pure _ ⟨event, same⟩

mutual

/-- Without hollow objects, one value is pushed, and an error leaves the entries below it. -/
theorem AnyValue.push_adds (value : AnyValue) (stack : List Value) (full : value.hollow = 0) :
    Turns stack stack (pushAnyValue script value) fun _ after => ∃ top, after = top :: stack := by
  cases value with
  | value value => exact (value.push_adds stack full).bind fun _ _ pushed => Turns.pure _ pushed
  | other => exact Turns.throw _ (List.suffix_refl stack)
  | _ => exact pushed_turns (List.suffix_refl stack)

theorem NativeValue.push_adds (value : NativeValue) (stack : List Value) (full : value.hollow = 0) :
    Turns stack stack (value.push script) fun _ after => ∃ top, after = top :: stack := by
  cases value with
  | ref ref => exact (duvPushRef_turns (List.suffix_refl stack)).bind fun _ _ pushed => Turns.pure _ pushed
  | valueGlobal => exact (pushGlobalObject_turns (List.suffix_refl stack)).bind fun _ _ pushed => Turns.pure _ pushed
  | valueObject properties =>
      obtain ⟨some, solid⟩ := NativeValue.hollow_valueObject.mp full
      unfold NativeValue.push pushValueObject
      rw [if_neg some]
      refine (pushObject_turns (List.suffix_refl stack)).bind fun _ _ pushed => ?_
      obtain ⟨address, rfl⟩ := pushed
      refine ((properties.putAll_adds address stack solid).fewer (List.suffix_cons _ _)).bind fun _ _ same => ?_
      exact Turns.pure _ ⟨_, same⟩
  | event target eventClass eventType eventInit =>
      cases target with
      | none => exact event_adds fun _ there => nomatch there
      | some target =>
          have solid : target.hollow = 0 := (NativeValue.hollow_event full).2 target rfl
          refine event_adds fun native there stack => ?_
          cases there
          exact target.push_adds stack solid

theorem Properties.putAll_adds (properties : Properties) (address : Nat) (stack : List Value)
    (full : properties.hollow = 0) :
    Turns (.object address :: stack) (.object address :: stack) (properties.putAll script) fun _ after =>
      after = .object address :: stack := by
  cases properties with
  | nil => exact Turns.pure _ rfl
  | cons key value rest =>
      rw [Properties.hollow, Nat.add_eq_zero_iff] at full
      refine (value.push_adds (.object address :: stack) full.1).bind fun _ _ pushed => ?_
      obtain ⟨top, rfl⟩ := pushed
      refine putProp_adds.bind fun _ _ same => ?_
      subst same
      exact rest.putAll_adds address stack full.2

end

end Solid

end Dtel.Duktape
