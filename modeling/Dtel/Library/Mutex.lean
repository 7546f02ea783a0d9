/-
This file states what threads with locks hold and await.
-/
import Mathlib.Data.List.Basic

namespace Dtel

namespace Mutex

variable {Thread Lock : Type} {held next : Thread → List Lock} {wants : Thread → Option Lock} {thread : Thread}

/-- No lock has two owners. -/
def Exclusive (held : Thread → List Lock) : Prop :=
  ∀ first second lock, lock ∈ held first → lock ∈ held second → first = second

/-- One thread wants a lock that another thread holds. -/
def Awaits (held : Thread → List Lock) (wants : Thread → Option Lock) (first second : Thread) : Prop :=
  ∃ lock, wants first = some lock ∧ lock ∈ held second

/-- A thread that gains only free locks leaves each lock with one owner. -/
theorem Exclusive.move (exclusive : Exclusive held) (others : ∀ other, other ≠ thread → next other = held other)
    (gained : ∀ lock, lock ∈ next thread →
      lock ∈ held thread ∨ ∀ other, other ≠ thread → lock ∉ held other) : Exclusive next := by
  have mine (second : Thread) (lock : Lock) (first : lock ∈ next thread) (second_holds : lock ∈ next second) :
      thread = second := by
    by_contra different
    have distinct : second ≠ thread := fun same => different same.symm
    rw [others second distinct] at second_holds
    rcases gained lock first with kept | free
    · exact different (exclusive thread second lock kept second_holds)
    · exact free second distinct second_holds
  intro first second lock first_holds second_holds
  by_cases same : first = thread
  · subst same
    exact mine second lock first_holds second_holds
  by_cases same' : second = thread
  · subst same'
    exact (mine first lock second_holds first_holds).symm
  rw [others first same] at first_holds
  rw [others second same'] at second_holds
  exact exclusive first second lock first_holds second_holds

end Mutex

end Dtel
