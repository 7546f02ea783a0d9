import Dtel.Construction.Duktape.ValueObject
import Dtel.Proof.Duktape.Api
import Mathlib.Data.List.TakeWhile

namespace Dtel.Duktape

section Trees

def Properties.keys : Properties → List String
  | .nil => []
  | .cons key _ rest => key :: rest.keys

mutual

/-- The references in a value. -/
def AnyValue.refs : AnyValue → List Ref
  | .value value => value.refs
  | _ => []

def NativeValue.refs : NativeValue → List Ref
  | .ref ref => [ref]
  | .valueGlobal => []
  | .valueObject properties => properties.refs
  | .event target _ _ eventInit =>
      eventInit.refs ++ match target with
        | some target => target.refs
        | none => []

def Properties.refs : Properties → List Ref
  | .nil => []
  | .cons _ value rest => value.refs ++ rest.refs

end

theorem NativeValue.refs_event {target : Option NativeValue} {eventClass eventType : String} {eventInit : Properties}
    {ref : Ref} (member : ref ∈ eventInit.refs) : ref ∈ (event target eventClass eventType eventInit).refs := by
  cases target with
  | none | some target => exact List.mem_append_left _ member

mutual

/-- A map has each key once. -/
def AnyValue.Distinct : AnyValue → Prop
  | .value value => value.Distinct
  | _ => True

def NativeValue.Distinct : NativeValue → Prop
  | .valueObject properties => properties.Distinct
  | .event target _ _ eventInit => eventInit.Distinct ∧ match target with
      | some target => target.Distinct
      | none => True
  | _ => True

def Properties.Distinct : Properties → Prop
  | .nil => True
  | .cons key value rest => key ∉ rest.keys ∧ value.Distinct ∧ rest.Distinct

end

mutual

/-- The number of objects without properties in a value. The object of an event may have none. -/
def AnyValue.hollow : AnyValue → Nat
  | .value value => value.hollow
  | _ => 0

def NativeValue.hollow : NativeValue → Nat
  | .valueObject properties => if properties.size = 0 then 1 else properties.hollow
  | .event target _ _ eventInit => eventInit.hollow + match target with
      | some target => target.hollow
      | none => 0
  | _ => 0

def Properties.hollow : Properties → Nat
  | .nil => 0
  | .cons _ value rest => value.hollow + rest.hollow

end

/-- An object is solid when it has properties and they are solid. -/
theorem NativeValue.hollow_valueObject {properties : Properties} :
    (valueObject properties).hollow = 0 ↔ properties.size ≠ 0 ∧ properties.hollow = 0 := by
  rw [hollow]
  split
  case isTrue none => simp [none]
  case isFalse some => simp [some]

/-- An event is solid when its properties and its target are. -/
theorem NativeValue.hollow_event {target : Option NativeValue} {eventClass eventType : String} {eventInit : Properties}
    (solid : (event target eventClass eventType eventInit).hollow = 0) :
    eventInit.hollow = 0 ∧ ∀ native ∈ target, native.hollow = 0 := by
  cases target with
  | none => exact ⟨solid, fun native there => nomatch there⟩
  | some target =>
      obtain ⟨first, second⟩ := Nat.add_eq_zero_iff.mp solid
      refine ⟨first, fun native there => ?_⟩
      cases there
      exact second

mutual

/-- All types in a value are known, and it holds no event. -/
def AnyValue.Plain : AnyValue → Prop
  | .value value => value.Plain
  | .other => False
  | _ => True

def NativeValue.Plain : NativeValue → Prop
  | .valueObject properties => properties.Plain
  | .event _ _ _ _ => False
  | _ => True

def Properties.Plain : Properties → Prop
  | .nil => True
  | .cons _ value rest => value.Plain ∧ rest.Plain

end

mutual

/-- The push of a value needs so much space. A property needs space for its value, and for the keys when it is put.
Above its constructor and its type, an event needs space for its properties. -/
def AnyValue.need : AnyValue → Nat
  | .value value => value.need
  | _ => 1

def NativeValue.need : NativeValue → Nat
  | .ref ref => if ref.refid = 0 then 1 else 4
  | .valueGlobal => 1
  | .valueObject properties => if properties.size = 0 then 0 else properties.need + 1
  | .event target _ _ eventInit => max (max 4 (eventInit.need + 3)) (match target with
      | some target => target.need + 1
      | none => 0)

def Properties.need : Properties → Nat
  | .nil => 0
  | .cons _ value rest => max (max value.need 3) rest.need

end

/-- An event has space for its properties and, above it, for its target. -/
theorem NativeValue.need_event {target : Option NativeValue} {eventClass eventType : String} {eventInit : Properties} :
    max 4 (eventInit.need + 3) ≤ (event target eventClass eventType eventInit).need ∧
      ∀ native ∈ target, native.need + 1 ≤ (event target eventClass eventType eventInit).need := by
  cases target with
  | none => exact ⟨le_max_left _ _, fun native there => nomatch there⟩
  | some target =>
      refine ⟨le_max_left _ _, fun native there => ?_⟩
      cases there
      exact le_max_right _ _

mutual

/-- No key and no string of a plain value has a NUL. -/
def AnyValue.Whole : AnyValue → Prop
  | .string value => cString value = value
  | .value value => value.Whole
  | _ => True

def NativeValue.Whole : NativeValue → Prop
  | .valueObject properties => properties.Whole
  | _ => True

def Properties.Whole : Properties → Prop
  | .nil => True
  | .cons key value rest => cString key = key ∧ value.Whole ∧ rest.Whole

end

end Trees

section Images

variable (referred : Ref → Value) (global : Nat) (heap : Nat → Object)

mutual

/-- This JavaScript value is the image of the C++ value. An event has none: its constructor makes the object. -/
def AnyValue.Image : AnyValue → Value → Prop
  | .empty, image => image = .undefined
  | .int value, image => image = .number (.finite value)
  | .float value, image => image = .number value
  | .double value, image => image = .number value
  | .string value, image => image = .string value
  | .value value, image => value.Image image
  | .other, _ => False

/-- The image of an object has the same keys, and the image of each value. -/
def NativeValue.Image : NativeValue → Value → Prop
  | .ref ref, image => image = referred ref
  | .valueGlobal, image => image = .object global
  | .valueObject properties, image => ∃ address, image = .object address ∧
      (∀ key, ((heap address).properties key).isSome ↔ key ∈ properties.keys) ∧ properties.Bound (heap address)
  | .event _ _ _ _, _ => False

def Properties.Bound : Properties → Object → Prop
  | .nil, _ => True
  | .cons key value rest, object =>
      (∃ image, object.properties key = some image ∧ value.Image image) ∧ rest.Bound object

end

end Images

/-- An object gets a property. -/
def Context.putProperty (context : Context) (address : Nat) (key : String) (value : Value) : Context :=
  context.withObject address ((context.heap address).setProperty (cString key) value)

section Build

variable (referred : Ref → Value) (global : Nat)

mutual

/-- A plain value without hollow objects becomes this value, in this heap. -/
def AnyValue.build (context : Context) : AnyValue → Value × Context
  | .empty => (.undefined, context)
  | .int value => (.number (.finite value), context)
  | .float value => (.number value, context)
  | .double value => (.number value, context)
  | .string value => (.string (cString value), context)
  | .value value => value.build context
  | .other => (.undefined, context)

def NativeValue.build (context : Context) : NativeValue → Value × Context
  | .ref ref => (referred ref, context)
  | .valueGlobal => (.object global, context)
  | .valueObject properties => (.object context.fresh, properties.fill context.fresh context.allocate)
  | .event _ _ _ _ => (.undefined, context)

/-- The object at the address gets the properties. -/
def Properties.fill (address : Nat) (context : Context) : Properties → Context
  | .nil => context
  | .cons key value rest =>
      rest.fill address ((value.build context).2.putProperty address key (value.build context).1)

end

end Build

/-- The heap grows, the reserve stays, and the objects that were there keep their properties, but for those that change. -/
structure Grown (changed : Nat → Prop) (before after : Context) : Prop where
  fresh : before.fresh ≤ after.fresh
  reserve : after.reserve = before.reserve
  stash : after.stash = before.stash
  global : after.global = before.global
  heap : ∀ address < before.fresh, ¬changed address → after.heap address = before.heap address

section Growth

variable {referred : Ref → Value} {global address : Nat} {changed : Nat → Prop} {before middle after context : Context}
  {value : Value}

theorem Grown.refl : Grown changed context context := ⟨le_rfl, rfl, rfl, rfl, fun _ _ _ => rfl⟩

theorem Grown.trans (first : Grown changed before middle) (second : Grown changed middle after) :
    Grown changed before after where
  fresh := first.fresh.trans second.fresh
  reserve := second.reserve.trans first.reserve
  stash := second.stash.trans first.stash
  global := second.global.trans first.global
  heap address below kept :=
    (second.heap address (below.trans_le first.fresh) kept).trans (first.heap address below kept)

/-- Addresses that are new do not count as changed. -/
theorem Grown.weaken {other : Nat → Prop} (grown : Grown changed before after)
    (implies : ∀ address < before.fresh, changed address → other address) : Grown other before after :=
  ⟨grown.fresh, grown.reserve, grown.stash, grown.global,
    fun address below kept => grown.heap address below fun change => kept (implies address below change)⟩

theorem allocate_grown : Grown changed context context.allocate :=
  ⟨Nat.le_succ _, rfl, rfl, rfl, fun _ below _ => Function.update_of_ne (Nat.ne_of_lt below) _ _⟩

theorem putProperty_properties (key : String) :
    ((context.putProperty address key value).heap address).properties =
      Function.update (context.heap address).properties (cString key) (some value) := by
  rw [Context.putProperty, withObject_same]
  rfl

theorem putProperty_grown {key : String} : Grown (· = address) context (context.putProperty address key value) :=
  ⟨le_rfl, rfl, rfl, rfl, fun _ _ kept => withObject_other kept⟩

variable (referred global)

mutual

theorem AnyValue.build_grown (value : AnyValue) (context : Context) :
    Grown (fun _ => False) context (value.build referred global context).2 := by
  cases value with
  | value value => exact value.build_grown context
  | _ => exact Grown.refl

theorem NativeValue.build_grown (value : NativeValue) (context : Context) :
    Grown (fun _ => False) context (value.build referred global context).2 := by
  cases value with
  | ref | valueGlobal | event => exact Grown.refl
  | valueObject properties =>
      have filled := properties.fill_grown context.fresh context.allocate (Nat.lt_succ_self _)
      have allocated : Grown (· = context.fresh) context context.allocate := allocate_grown
      exact (allocated.trans filled).weaken fun address below same => Nat.ne_of_lt below same

/-- Only the object at the address changes. -/
theorem Properties.fill_grown (properties : Properties) (address : Nat) (context : Context)
    (known : address < context.fresh) :
    Grown (· = address) context (properties.fill referred global address context) := by
  cases properties with
  | nil => exact Grown.refl
  | cons key value rest =>
      have built := value.build_grown context
      have weak := built.weaken (fun _ _ nothing => nothing.elim : ∀ other < context.fresh, False → other = address)
      refine (weak.trans putProperty_grown).trans (rest.fill_grown address _ ?_)
      exact known.trans_le built.fresh

end

end Growth

theorem cString_cString (string : String) : cString (cString string) = cString string := by
  simp [cString, List.takeWhile_takeWhile]

section Meaning

variable (referred : Ref → Value) (global : Nat) {address : Nat} {context : Context} {heap : Nat → Object}

/-- The keys of the object are those that it had and those of the properties, up to their first NUL. -/
theorem Properties.fill_keys (properties : Properties) (context : Context) (known : address < context.fresh)
    (key : String) :
    (((properties.fill referred global address context).heap address).properties key).isSome ↔
      key ∈ properties.keys.map cString ∨ ((context.heap address).properties key).isSome := by
  cases properties with
  | nil => simp [Properties.fill, Properties.keys]
  | cons name value rest =>
      have built := value.build_grown referred global context
      have old := built.heap address known id
      have inside : address < ((value.build referred global context).2.putProperty address name
          (value.build referred global context).1).fresh := known.trans_le built.fresh
      rw [Properties.fill, rest.fill_keys _ inside, putProperty_properties, old, Properties.keys, List.map_cons,
        List.mem_cons]
      by_cases same : key = cString name
      · simp [same]
      · simp [same]

/-- A property that no later key names keeps its value. -/
theorem Properties.fill_other (properties : Properties) (context : Context) (known : address < context.fresh)
    {key : String} (other : key ∉ properties.keys.map cString) :
    ((properties.fill referred global address context).heap address).properties key =
      (context.heap address).properties key := by
  cases properties with
  | nil => rfl
  | cons name value rest =>
      rw [Properties.keys, List.map_cons, List.mem_cons, not_or] at other
      have built := value.build_grown referred global context
      have old := built.heap address known id
      have inside : address < ((value.build referred global context).2.putProperty address name
          (value.build referred global context).1).fresh := known.trans_le built.fresh
      rw [Properties.fill, rest.fill_other _ inside other.2, putProperty_properties, old,
        Function.update_of_ne other.1]

theorem Properties.map_keys {properties : Properties} (whole : ∀ key ∈ properties.keys, cString key = key) :
    properties.keys.map cString = properties.keys := by
  rw [List.map_congr_left whole, List.map_id']

theorem Properties.Whole.keys {properties : Properties} (whole : properties.Whole) :
    ∀ key ∈ properties.keys, cString key = key := by
  cases properties with
  | nil => simp [Properties.keys]
  | cons name value rest =>
      intro key member
      rcases List.mem_cons.mp member with rfl | later
      · exact whole.1
      · exact Properties.Whole.keys whole.2.2 key later

mutual

/-- Only a plain value has an image. -/
theorem AnyValue.Image.plain {value : AnyValue} {image : Value} (imaged : value.Image referred global heap image) :
    value.Plain := by
  cases value with
  | value value => exact NativeValue.Image.plain imaged
  | other => exact imaged.elim
  | _ => trivial

theorem NativeValue.Image.plain {value : NativeValue} {image : Value}
    (imaged : value.Image referred global heap image) : value.Plain := by
  cases value with
  | valueObject properties =>
      obtain ⟨address, -, -, bound⟩ := imaged
      exact Properties.Bound.plain bound
  | event => exact imaged.elim
  | _ => trivial

theorem Properties.Bound.plain {properties : Properties} {object : Object}
    (bound : properties.Bound referred global heap object) : properties.Plain := by
  cases properties with
  | nil => trivial
  | cons key value rest =>
      obtain ⟨⟨image, -, imaged⟩, others⟩ := bound
      exact ⟨AnyValue.Image.plain imaged, Properties.Bound.plain others⟩

end

mutual

/-- The value that is built is an image exactly when no NUL has cut a string. -/
theorem AnyValue.image_build (value : AnyValue) (context : Context) (distinct : value.Distinct) (plain : value.Plain)
    (same : ∀ address, context.fresh ≤ address → address < (value.build referred global context).2.fresh →
      heap address = (value.build referred global context).2.heap address) :
    value.Image referred global heap (value.build referred global context).1 ↔ value.Whole := by
  cases value with
  | string value => simp [AnyValue.Image, AnyValue.build, AnyValue.Whole]
  | value value => exact value.image_build context distinct plain same
  | other => exact plain.elim
  | _ => simp [AnyValue.Image, AnyValue.build, AnyValue.Whole]

theorem NativeValue.image_build (value : NativeValue) (context : Context) (distinct : value.Distinct)
    (plain : value.Plain)
    (same : ∀ address, context.fresh ≤ address → address < (value.build referred global context).2.fresh →
      heap address = (value.build referred global context).2.heap address) :
    value.Image referred global heap (value.build referred global context).1 ↔ value.Whole := by
  cases value with
  | ref => simp [NativeValue.Image, NativeValue.build, NativeValue.Whole]
  | valueGlobal => simp [NativeValue.Image, NativeValue.build, NativeValue.Whole]
  | event => exact plain.elim
  | valueObject properties =>
      have inside : context.fresh < context.allocate.fresh := Nat.lt_succ_self _
      have filled := properties.fill_grown referred global context.fresh context.allocate inside
      have object := same context.fresh le_rfl (inside.trans_le filled.fresh)
      have keys := properties.fill_keys referred global context.allocate inside
      have bound := fun whole => properties.bound_fill context.fresh context.allocate inside distinct plain whole
        fun address above below => same address (inside.le.trans above) below
      have image : (NativeValue.valueObject properties).Image referred global heap (.object context.fresh) ↔
          (∀ key, ((heap context.fresh).properties key).isSome ↔ key ∈ properties.keys) ∧
            properties.Bound referred global heap (heap context.fresh) := by
        constructor
        · rintro ⟨address, here, image⟩
          cases here
          exact image
        · exact fun image => ⟨_, rfl, image⟩
      have empty : ∀ key, (context.allocate.heap context.fresh).properties key = none := by
        simp [Context.allocate, Object.empty]
      change (NativeValue.valueObject properties).Image referred global heap (.object context.fresh) ↔ properties.Whole
      rw [image, object]
      simp only [NativeValue.build, keys, empty, Option.isSome_none, Bool.false_eq_true, or_false]
      constructor
      · rintro ⟨exactly, image⟩
        refine (bound ?_).mp image
        intro key member
        obtain ⟨name, -, cut⟩ := List.mem_map.mp ((exactly key).mpr member)
        rw [← cut, cString_cString]
      · intro whole
        refine ⟨fun key => ?_, (bound whole.keys).mpr whole⟩
        rw [Properties.map_keys whole.keys]

/-- The properties are bound to their images exactly when no NUL has cut a string. -/
theorem Properties.bound_fill (properties : Properties) (address : Nat) (context : Context)
    (inside : address < context.fresh) (distinct : properties.Distinct) (plain : properties.Plain)
    (keys : ∀ key ∈ properties.keys, cString key = key)
    (same : ∀ other, context.fresh ≤ other →
      other < (properties.fill referred global address context).fresh →
      heap other = (properties.fill referred global address context).heap other) :
    properties.Bound referred global heap ((properties.fill referred global address context).heap address) ↔
      properties.Whole := by
  cases properties with
  | nil => exact Iff.rfl
  | cons key value rest =>
      have built := value.build_grown referred global context
      have within : address < ((value.build referred global context).2.putProperty address key
          (value.build referred global context).1).fresh := inside.trans_le built.fresh
      have filled := rest.fill_grown referred global address _ within
      have whole : cString key = key := keys key List.mem_cons_self
      have later : ∀ name ∈ rest.keys, cString name = name := fun name member => keys name (List.mem_cons_of_mem _ member)
      have property : ((Properties.fill referred global address context (.cons key value rest)).heap address).properties key =
          some (value.build referred global context).1 := by
        have other : key ∉ rest.keys.map cString := by
          rw [Properties.map_keys later]
          exact distinct.1
        rw [Properties.fill, rest.fill_other referred global _ within other, putProperty_properties, whole, Function.update_self]
      have first := value.image_build context distinct.2.1 plain.1 fun other above below => by
        have apart : other ≠ address := Nat.ne_of_gt (inside.trans_le above)
        rw [same other above (below.trans_le filled.fresh)]
        exact (filled.heap other below apart).trans (withObject_other apart)
      have others := rest.bound_fill address _ within distinct.2.2 plain.2 later fun other above below =>
        same other (built.fresh.trans above) below
      rw [Properties.Bound, property, Properties.Whole, ← first, Properties.fill, others]
      simp [whole]

end

end Meaning

end Dtel.Duktape
