import Dtel.Construction.Timer.Handler

namespace Dtel

/-- The list is ordered by deadline and then by the order of posting. -/
def Posting.Before (first second : Posting) : Prop :=
  first.deadline < second.deadline ∨ first.deadline = second.deadline ∧ first.order < second.order

theorem Posting.Before.deadline_le {first second : Posting} (before : first.Before second) :
    first.deadline ≤ second.deadline := by
  unfold Posting.Before at before
  omega

theorem Posting.Before.asymm {first second : Posting} (before : first.Before second) : ¬second.Before first := by
  unfold Posting.Before at *
  omega

namespace Timers

variable {timers next : Timers} {event other : Nat} {now : Int} {id : Int} {posting : Posting}

/-- The number of list entries that point to one event. -/
def listed (timers : Timers) (event : Nat) : Nat := timers.events.countP fun posting => posting.event = event

/-- The list is sorted, and every entry was posted before the next call of `postEvent`. -/
structure Ordered (timers : Timers) : Prop where
  sorted : timers.events.Pairwise Posting.Before
  numbered : ∀ posting ∈ timers.events, posting.order < timers.posts

/-- This is the entry that a posting at this time adds. -/
def entry (timers : Timers) (now : Int) (event : Nat) : Posting :=
  ⟨now + milliseconds (timers.object event).delay, event, timers.posts⟩

section Insert

@[simp] theorem insert_object : (timers.insert now event).object = timers.object := rfl
@[simp] theorem insert_fresh : (timers.insert now event).fresh = timers.fresh := rfl
@[simp] theorem insert_lastId : (timers.insert now event).lastId = timers.lastId := rfl
@[simp] theorem insert_posts : (timers.insert now event).posts = timers.posts + 1 := rfl

theorem insert_events : (timers.insert now event).events =
    StableSort.sortBy Posting.deadline (timers.events ++ [timers.entry now event]) := rfl

@[simp] theorem mem_insert_events :
    posting ∈ (timers.insert now event).events ↔ posting ∈ timers.events ∨ posting = timers.entry now event := by
  rw [insert_events, StableSort.mem_sortBy, List.mem_append, List.mem_singleton]

/-- An earlier posting is in the list only when it was there before. -/
theorem mem_of_insert (earlier : posting.order < timers.posts)
    (member : posting ∈ (timers.insert now event).events) : posting ∈ timers.events := by
  rcases mem_insert_events.mp member with old | new
  · exact old
  · have order : posting.order = timers.posts := congrArg Posting.order new
    exact absurd order (ne_of_lt earlier)

/-- A posting adds one entry for its event. -/
theorem insert_listed : (timers.insert now event).listed other =
    timers.listed other + if event = other then 1 else 0 := by
  rw [listed, insert_events, (StableSort.sortBy_perm _ _).countP_eq, List.countP_append, listed]
  congr 1
  by_cases same : event = other <;> simp [entry, same]

/-- A posting keeps the list in the order of deadlines and of posting. -/
theorem Ordered.insert (ordered : timers.Ordered) : (timers.insert now event).Ordered where
  sorted := by
    rw [insert_events]
    apply StableSort.sortBy_concat_pairwise ordered.sorted
    · exact fun first second before => before.deadline_le
    · intro posting member atMost
      have earlier : posting.order < (timers.entry now event).order := ordered.numbered posting member
      rcases lt_or_eq_of_le atMost with less | equal
      · exact Or.inl less
      · exact Or.inr ⟨equal, earlier⟩
    · exact fun posting member less => Or.inl less
  numbered := by
    intro posting member
    rw [mem_insert_events] at member
    rw [insert_posts]
    rcases member with old | rfl
    · exact Nat.lt_succ_of_lt (ordered.numbered posting old)
    · exact Nat.lt_succ_self _

end Insert

section Marks

@[simp] theorem setRemoved_events : (timers.setRemoved event).events = timers.events := rfl
@[simp] theorem setRemoved_fresh : (timers.setRemoved event).fresh = timers.fresh := rfl
@[simp] theorem setRemoved_lastId : (timers.setRemoved event).lastId = timers.lastId := rfl
@[simp] theorem setRemoved_posts : (timers.setRemoved event).posts = timers.posts := rfl

@[simp] theorem setRemoved_id : ((timers.setRemoved event).object other).id = (timers.object other).id := by
  unfold setRemoved
  by_cases same : other = event <;> simp [same]

@[simp] theorem setRemoved_delay :
    ((timers.setRemoved event).object other).delay = (timers.object other).delay := by
  unfold setRemoved
  by_cases same : other = event <;> simp [same]

@[simp] theorem setRemoved_oneShot :
    ((timers.setRemoved event).object other).oneShot = (timers.object other).oneShot := by
  unfold setRemoved
  by_cases same : other = event <;> simp [same]

theorem setRemoved_removed : ((timers.setRemoved event).object other).removed = true ↔
    other = event ∨ (timers.object other).removed = true := by
  unfold setRemoved
  by_cases same : other = event <;> simp [same]

/-- A cancellation leaves the timers unchanged, or marks a listed event with the id. -/
theorem cancelEvent_cases (timers : Timers) (id : Int) :
    (timers.cancelEvent id = (false, timers) ∧
      ∀ posting ∈ timers.events, (timers.object posting.event).id ≠ id) ∨
    ∃ posting ∈ timers.events, (timers.object posting.event).id = id ∧
      timers.cancelEvent id = (true, timers.setRemoved posting.event) := by
  unfold cancelEvent
  cases found : timers.events.find? fun posting => (timers.object posting.event).id = id with
  | none =>
      left
      exact ⟨rfl, by simpa using found⟩
  | some posting =>
      right
      exact ⟨posting, List.mem_of_find?_eq_some found, by simpa using List.find?_some found, rfl⟩

end Marks

/-- The first entry leaves the list when it is removed or expired. -/
theorem takeFirst_some (taken : timers.takeFirst now = some (posting, next)) :
    timers.events = posting :: next.events ∧ next = { timers with events := next.events } ∧
      ((timers.object posting.event).removed = true ∨ posting.deadline < now) := by
  unfold takeFirst at taken
  cases list : timers.events with
  | nil => simp [list] at taken
  | cons first rest =>
      simp only [list, Option.ite_none_right_eq_some, Option.some.injEq, Prod.mk.injEq] at taken
      obtain ⟨due, rfl, rfl⟩ := taken
      exact ⟨rfl, rfl, due⟩

/-- While an expired entry is in the list, the first entry leaves the list. -/
theorem takeFirst_isSome (sorted : timers.events.Pairwise Posting.Before) (member : posting ∈ timers.events)
    (expired : posting.deadline < now) : (timers.takeFirst now).isSome := by
  unfold takeFirst
  cases list : timers.events with
  | nil => simp [list] at member
  | cons first rest =>
      have due : first.deadline < now := by
        rw [list] at member sorted
        rcases List.mem_cons.mp member with rfl | behind
        · exact expired
        · have before := (List.pairwise_cons.mp sorted).1 posting behind
          exact lt_of_le_of_lt before.deadline_le expired
      simp [due]

/-- A new posting uses a new object, the next id and a sorted list. -/
theorem postNew_some {delay : Int} {oneShot : Bool}
    (posted : timers.postNew now delay oneShot = some (id, next)) :
    timers.lastId < intMax ∧ id = timers.lastId + 1 ∧
      next = ({ timers with
        object := Function.update timers.object timers.fresh ⟨delay, oneShot, timers.lastId + 1, false⟩
        fresh := timers.fresh + 1
        lastId := timers.lastId + 1 } : Timers).insert now timers.fresh := by
  simp only [postNew, postEvent, assignId, create, Function.update_self, TimeoutEvent.create] at posted
  by_cases room : timers.lastId < intMax
  · simp [room, setId] at posted
    exact ⟨room, posted.1.symm, posted.2.symm⟩
  · simp [room] at posted

/-- After its call, a timer is marked, or was marked before, or is posted once more. -/
theorem settle_some (identified : 0 < (timers.object event).id)
    (settled : timers.settle now event = some next) :
    ((timers.object event).oneShot = true ∧ next = timers.setRemoved event) ∨
    ((timers.object event).oneShot = false ∧ (timers.object event).removed = true ∧ next = timers) ∨
    ((timers.object event).oneShot = false ∧ (timers.object event).removed = false ∧
      next = timers.insert now event) := by
  unfold settle at settled
  split at settled
  case isTrue oneShot =>
    left
    exact ⟨oneShot, (Option.some.inj settled).symm⟩
  case isFalse interval =>
    right
    split at settled
    case isTrue removed =>
      left
      exact ⟨by simpa using interval, removed, (Option.some.inj settled).symm⟩
    case isFalse live =>
      right
      rw [postEvent, assignId, if_neg (by omega)] at settled
      exact ⟨by simpa using interval, by simpa using live, (Option.some.inj settled).symm⟩

end Timers

end Dtel
