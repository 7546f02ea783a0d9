/-
This file finds the owners of what is alive: along a finite relation, each element that some other element supports
comes from a root or from a cycle.
-/
import Mathlib.Logic.Relation
import Mathlib.Order.WellFoundedSet

namespace Dtel.Ownership

open Relation

variable {Item : Type*} {points : Item → Item → Prop} {live root : Item → Prop} {item other : Item}

/-- One item is strictly before another one when no way leads back. -/
def Before (points : Item → Item → Prop) (item other : Item) : Prop :=
  TransGen points item other ∧ ¬ TransGen points other item

instance before_strict (points : Item → Item → Prop) : IsStrictOrder Item (Before points) where
  irrefl _ before := before.2 before.1
  trans _ _ _ first second := ⟨first.1.trans second.1, fun back => second.2 (back.trans first.1)⟩

/-- The item comes from a live root or from a cycle of live items. -/
def Owned (points : Item → Item → Prop) (live root : Item → Prop) (item : Item) : Prop :=
  ∃ source, live source ∧ (root source ∨ TransGen points source source) ∧ ReflTransGen points source item

/-- When each live item is a root or has a live item that points to it, each live item is owned. -/
theorem owned_of_supported (finite : {item | live item}.Finite)
    (supported : ∀ item, live item → root item ∨ ∃ other, live other ∧ points other item) (here : live item) :
    Owned points live root item := by
  have order : {item | live item}.WellFoundedOn (Before points) := finite.wellFoundedOn
  -- The induction follows the supports backwards, until a root or a cycle ends the way.
  have back (item : Item) (alive : live item)
      (inductionHypothesis : ∀ other, live other → Before points other item → Owned points live root other) :
      Owned points live root item := by
    rcases supported item alive with rooted | ⟨other, support, edge⟩
    · exact ⟨item, alive, Or.inl rooted, .refl⟩
    · by_cases cycle : TransGen points item other
      · exact ⟨item, alive, Or.inr (cycle.tail edge), .refl⟩
      · obtain ⟨source, found, origin, way⟩ := inductionHypothesis other support ⟨.single edge, cycle⟩
        exact ⟨source, found, origin, way.tail edge⟩
  exact order.induction here back

/-- What a live item points to is live, so each item on a way from it is live. -/
theorem live_of_way (alive : ∀ item other, live item → points item other → live other) (here : live item)
    (way : ReflTransGen points item other) : live other := by
  induction way with
  | refl => exact here
  | tail _ edge inductionHypothesis => exact alive _ _ inductionHypothesis edge

end Dtel.Ownership
