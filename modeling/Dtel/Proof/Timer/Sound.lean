import Dtel.Proof.Timer.Life

namespace Dtel.Life

variable {Fn : Type} {life next : Life Fn} {act : Act Fn} {event other : Nat}

/-- The posting of an active timer that has not been called. -/
def starting : Option (Posting × Stage) → List Posting
  | some (posting, .starting) => [posting]
  | _ => []

/-- The posting of an active timer that has been called and not settled. -/
def ongoing : Option (Posting × Stage) → List Posting
  | some (posting, .calling) | some (posting, .called) => [posting]
  | _ => []

/-- The number of places from which a call of the event can still come. -/
def pending (life : Life Fn) (event : Nat) : Nat :=
  life.timers.listed event + life.hand.toList.countP (·.event = event) +
    life.queue.countP (·.event = event) + (starting life.active).countP (·.event = event)

/-- The number of places that hold one event, an unfinished call included. -/
def held (life : Life Fn) (event : Nat) : Nat :=
  life.pending event + (ongoing life.active).countP (·.event = event)

section Places

variable {posting : Posting} {rest : List Posting} {stage : Stage} {now : Int}

/-- The taken timer goes from the list to the hand. -/
theorem pending_take (list : life.timers.events = posting :: rest) (noHand : life.hand = none) :
    ({ life with timers := { life.timers with events := rest }, hand := some posting } : Life Fn).pending event =
      life.pending event := by
  simp only [pending, Timers.listed, list, noHand, Option.toList_none, Option.toList_some, List.countP_cons,
    List.countP_nil]
  omega

/-- The timer in the hand leaves it. -/
theorem pending_discard (hand : life.hand = some posting) :
    ({ life with hand := none } : Life Fn).pending event + (if posting.event = event then 1 else 0) =
      life.pending event := by
  simp only [pending, hand, Option.toList_none, Option.toList_some, List.countP_singleton, List.countP_nil,
    decide_eq_true_eq]
  omega

/-- The timer in the hand goes to the queue. -/
theorem pending_enqueue (hand : life.hand = some posting) :
    ({ life with hand := none, queue := life.queue ++ [posting] } : Life Fn).pending event = life.pending event := by
  simp only [pending, hand, Option.toList_none, Option.toList_some, List.countP_nil, List.countP_append]
  omega

/-- The first timer of the queue becomes active. -/
theorem pending_start (noActive : life.active = none) (queue : life.queue = posting :: rest) :
    ({ life with queue := rest, active := some (posting, .starting) } : Life Fn).pending event =
      life.pending event := by
  simp only [pending, noActive, queue, starting, List.countP_cons, List.countP_nil]
  omega

/-- The active timer is no longer about to be called. -/
theorem pending_invoke (active : life.active = some (posting, .starting)) (later : stage ≠ .starting) :
    ({ life with active := some (posting, stage) } : Life Fn).pending event +
      (if posting.event = event then 1 else 0) = life.pending event := by
  have left : starting (some (posting, stage)) = [] := by
    cases stage with
    | starting => exact absurd rfl later
    | calling | called | settled => rfl
  simp only [pending, active, left, List.countP_nil]
  simp only [starting, List.countP_singleton, decide_eq_true_eq]
  omega

theorem pending_insert (life : Life Fn) {timers : Timers} {other : Nat} :
    ({ life with timers := timers.insert now other } : Life Fn).pending event =
      ({ life with timers := timers } : Life Fn).pending event + if other = event then 1 else 0 := by
  simp only [pending, Timers.insert_listed]
  omega

theorem held_take (list : life.timers.events = posting :: rest) (noHand : life.hand = none) :
    ({ life with timers := { life.timers with events := rest }, hand := some posting } : Life Fn).held event =
      life.held event := by
  unfold held
  rw [pending_take list noHand]

theorem held_discard (hand : life.hand = some posting) :
    ({ life with hand := none } : Life Fn).held event + (if posting.event = event then 1 else 0) =
      life.held event := by
  unfold held
  rw [← pending_discard hand, Nat.add_right_comm]

theorem held_enqueue (hand : life.hand = some posting) :
    ({ life with hand := none, queue := life.queue ++ [posting] } : Life Fn).held event = life.held event := by
  unfold held
  rw [pending_enqueue hand]

theorem held_start (noActive : life.active = none) (queue : life.queue = posting :: rest) :
    ({ life with queue := rest, active := some (posting, .starting) } : Life Fn).held event = life.held event := by
  unfold held
  rw [pending_start noActive queue, noActive]
  rfl

/-- A called timer is still held. -/
theorem held_call (active : life.active = some (posting, .starting)) (called : stage = .calling ∨ stage = .called) :
    ({ life with active := some (posting, stage) } : Life Fn).held event = life.held event := by
  have later : stage ≠ .starting := by rcases called with rfl | rfl <;> decide
  have place : ({ life with active := some (posting, stage) } : Life Fn).pending event +
      (if posting.event = event then 1 else 0) = life.pending event := pending_invoke active later
  have ongoingNow : ongoing (some (posting, stage)) = [posting] := by rcases called with rfl | rfl <;> rfl
  simp only [held, active, ongoingNow, List.countP_singleton, decide_eq_true_eq, place]
  rfl

/-- A timer that is not called is no longer held. -/
theorem held_skip (active : life.active = some (posting, .starting)) :
    ({ life with active := some (posting, .settled) } : Life Fn).held event +
      (if posting.event = event then 1 else 0) = life.held event := by
  have place : ({ life with active := some (posting, .settled) } : Life Fn).pending event +
      (if posting.event = event then 1 else 0) = life.pending event := pending_invoke active (by decide)
  simp only [held, active, ongoing, List.countP_nil, Nat.add_zero]
  exact place

/-- A settled timer is no longer held. -/
theorem held_settle (active : life.active = some (posting, .called)) :
    ({ life with active := some (posting, .settled) } : Life Fn).held event +
      (if posting.event = event then 1 else 0) = life.held event := by
  simp only [held, pending, active, starting, ongoing, List.countP_singleton, List.countP_nil, decide_eq_true_eq]

/-- A posted timer gets one more place. -/
theorem held_insert (life : Life Fn) {timers : Timers} {other : Nat} :
    ({ life with timers := timers.insert now other } : Life Fn).held event =
      ({ life with timers := timers } : Life Fn).held event + if other = event then 1 else 0 := by
  unfold held
  rw [pending_insert, Nat.add_right_comm]

end Places

/-- Each created timer has its own id, and at most one place holds it. -/
structure Sound (life : Life Fn) : Prop where
  ordered : life.timers.Ordered
  once : ∀ event, life.held event ≤ 1
  known : ∀ event, 0 < life.held event → event < life.timers.fresh
  activeKnown : ∀ posting stage, life.active = some (posting, stage) → posting.event < life.timers.fresh
  counter : 0 ≤ life.timers.lastId
  identified : ∀ event < life.timers.fresh,
    0 < (life.timers.object event).id ∧ (life.timers.object event).id ≤ life.timers.lastId
  distinct : ∀ event < life.timers.fresh, ∀ other < life.timers.fresh,
    (life.timers.object event).id = (life.timers.object other).id → event = other

theorem listed_le_held : life.timers.listed event ≤ life.held event := by
  unfold held pending
  omega

/-- A listed posting holds its event. -/
theorem held_of_listed {posting : Posting} (member : posting ∈ life.timers.events) :
    0 < life.timers.listed posting.event := by
  rw [Timers.listed, List.countP_pos_iff]
  exact ⟨posting, member, by simp⟩

theorem held_of_queued {posting : Posting} (member : posting ∈ life.queue) : 0 < life.held posting.event := by
  have counted : 0 < life.queue.countP (·.event = posting.event) := by
    rw [List.countP_pos_iff]
    exact ⟨posting, member, by simp⟩
  unfold held pending
  omega

theorem pending_of_active {posting : Posting} (active : life.active = some (posting, .starting)) :
    0 < life.pending posting.event := by
  simp [pending, active, starting]

theorem held_of_hand {posting : Posting} (hand : life.hand = some posting) : 0 < life.held posting.event := by
  have counted : life.hand.toList.countP (·.event = posting.event) = 1 := by simp [hand]
  unfold held pending
  omega

/-- A sound life lists only known events. -/
theorem Sound.listedKnown (sound : life.Sound) {posting : Posting} (member : posting ∈ life.timers.events) :
    posting.event < life.timers.fresh :=
  sound.known _ (lt_of_lt_of_le (held_of_listed member) listed_le_held)

/-- Marking a timer changes neither places nor ids. -/
theorem Sound.setRemoved (sound : life.Sound) :
    ({ life with timers := life.timers.setRemoved event } : Life Fn).Sound where
  ordered := ⟨sound.ordered.sorted, sound.ordered.numbered⟩
  once := sound.once
  known := sound.known
  activeKnown := sound.activeKnown
  counter := sound.counter
  identified := by simpa using sound.identified
  distinct := by simpa using sound.distinct

/-- A life with the same timers stays sound when no event gets a further place. -/
theorem Sound.move (sound : life.Sound) (timers : next.timers = life.timers)
    (places : ∀ event, next.held event ≤ life.held event)
    (active : ∀ posting stage, next.active = some (posting, stage) → posting.event < life.timers.fresh) :
    next.Sound where
  ordered := timers ▸ sound.ordered
  once event := (places event).trans (sound.once event)
  known event held := timers ▸ sound.known event (lt_of_lt_of_le held (places event))
  activeKnown posting stage same := timers ▸ active posting stage same
  counter := timers ▸ sound.counter
  identified := timers ▸ sound.identified
  distinct := timers ▸ sound.distinct

/-- No place holds an object that is not yet made. -/
theorem Sound.unheld (sound : life.Sound) : life.held life.timers.fresh = 0 := by
  by_contra positive
  exact absurd (sound.known _ (Nat.pos_of_ne_zero positive)) (lt_irrefl _)

/-- A new timer gets a new object and a new id, and the list holds it once. -/
theorem Sound.create (sound : life.Sound) (refs : Int → Option Fn) (delay : Int) (oneShot : Bool) :
    (life.withNew refs delay oneShot).Sound := by
  have unheld := sound.unheld
  have place (event : Nat) : (life.withNew refs delay oneShot).held event =
        life.held event + if life.timers.fresh = event then 1 else 0 := held_insert life
  have counter := sound.counter
  refine ⟨Timers.Ordered.insert ⟨sound.ordered.sorted, sound.ordered.numbered⟩, ?_, ?_, ?_, ?_, ?_, ?_⟩
  · intro event
    rw [place]
    have once := sound.once event
    split
    case isTrue same => rw [← same, unheld]
    case isFalse => omega
  · intro event positive
    rw [place] at positive
    change event < life.timers.fresh + 1
    split at positive
    case isTrue same => omega
    case isFalse => exact Nat.lt_succ_of_lt (sound.known event (by omega))
  · intro posting stage active
    exact Nat.lt_succ_of_lt (sound.activeKnown posting stage active)
  · change 0 ≤ life.timers.lastId + 1
    omega
  · intro event below
    change event < life.timers.fresh + 1 at below
    change 0 < (Function.update life.timers.object life.timers.fresh _ event).id ∧
      (Function.update life.timers.object life.timers.fresh _ event).id ≤ life.timers.lastId + 1
    by_cases same : event = life.timers.fresh
    · rw [same, Function.update_self]
      dsimp only
      omega
    · have old := sound.identified event (by omega)
      rw [Function.update_of_ne same]
      omega
  · intro event eventBelow other otherBelow equal
    change event < life.timers.fresh + 1 at eventBelow
    change other < life.timers.fresh + 1 at otherBelow
    change (Function.update life.timers.object life.timers.fresh _ event).id =
      (Function.update life.timers.object life.timers.fresh _ other).id at equal
    -- The new id is above every old one, so an old event cannot share it.
    by_cases eventNew : event = life.timers.fresh <;> by_cases otherNew : other = life.timers.fresh
    · rw [eventNew, otherNew]
    · have old := (sound.identified other (by omega)).2
      rw [eventNew, Function.update_self, Function.update_of_ne otherNew] at equal
      dsimp only at equal
      omega
    · have old := (sound.identified event (by omega)).2
      rw [otherNew, Function.update_self, Function.update_of_ne eventNew] at equal
      dsimp only at equal
      omega
    · rw [Function.update_of_ne eventNew, Function.update_of_ne otherNew] at equal
      exact sound.distinct event (by omega) other (by omega) equal

/-- A settled timer is no longer active, and an interval is listed instead. -/
theorem Sound.settle (sound : life.Sound) {posting : Posting} {timers : Timers}
    (active : life.active = some (posting, .called))
    (settled : life.timers.settle life.clock posting.event = some timers) :
    ({ life with timers := timers, active := some (posting, .settled) } : Life Fn).Sound := by
  have below := sound.activeKnown posting _ active
  have quiet : ({ life with active := some (posting, .settled) } : Life Fn).Sound := by
    refine sound.move rfl (fun event => Nat.le.intro (held_settle active)) ?_
    intro other stage same
    cases same
    exact below
  rcases Timers.settle_some (sound.identified _ below).1 settled with
    ⟨-, rfl⟩ | ⟨-, -, rfl⟩ | ⟨-, -, rfl⟩
  · exact quiet.setRemoved
  · exact quiet
  · have relisted (event : Nat) : ({ life with
        timers := life.timers.insert life.clock posting.event, active := some (posting, .settled) } :
          Life Fn).held event = life.held event := by
      rw [← held_settle active]
      exact held_insert { life with active := some (posting, .settled) }
    refine ⟨sound.ordered.insert, fun event => relisted event ▸ sound.once event, ?_, ?_, sound.counter,
      sound.identified, sound.distinct⟩
    · intro event positive
      rw [relisted] at positive
      exact sound.known event positive
    · intro other stage same
      cases same
      exact below

/-- Each act keeps a sound life sound. -/
theorem Sound.step (sound : life.Sound) (taken : life.step act = some next) : next.Sound := by
  cases step_cases taken with
  | idle => exact sound
  | elapse => exact sound.move rfl (fun _ => le_rfl) sound.activeKnown
  | create function delay oneShot => exact sound.create _ delay oneShot
  | miss => exact sound
  | cancel => exact sound.setRemoved
  | take now posting rest list noHand noActive =>
      refine ⟨⟨?_, ?_⟩, fun event => held_take list noHand ▸ sound.once event, ?_, sound.activeKnown, sound.counter,
        sound.identified, sound.distinct⟩
      · exact (List.pairwise_cons.mp (list ▸ sound.ordered.sorted)).2
      · intro other member
        exact sound.ordered.numbered other (list ▸ List.mem_cons_of_mem _ member)
      · intro event positive
        rw [held_take list noHand] at positive
        exact sound.known event positive
  | discard posting hand => exact sound.move rfl (fun event => Nat.le.intro (held_discard hand)) sound.activeKnown
  | enqueue posting hand => exact sound.move rfl (fun event => (held_enqueue hand).le) sound.activeKnown
  | start posting rest noHand noActive queue =>
      refine sound.move rfl (fun event => (held_start noActive queue).le) ?_
      intro other stage same
      cases same
      exact sound.known _ (held_of_queued (queue ▸ List.mem_cons_self))
  | skip posting active =>
      refine sound.move rfl (fun event => Nat.le.intro (held_skip active)) ?_
      intro other stage same
      cases same
      exact sound.activeKnown posting _ active
  | call posting function active =>
      refine sound.move rfl (fun event => (held_call active (Or.inl rfl)).le) ?_
      intro other stage same
      cases same
      exact sound.activeKnown posting _ active
  | callMissing posting active =>
      refine sound.move rfl (fun event => (held_call active (Or.inr rfl)).le) ?_
      intro other stage same
      cases same
      exact sound.activeKnown posting _ active
  | complete posting active =>
      refine sound.move rfl (fun event => ?_) ?_
      · simp only [held, pending, active, starting, ongoing, le_refl]
      · intro other stage same
        cases same
        exact sound.activeKnown posting _ active
  | settle posting timers active settled => exact sound.settle active settled
  | release posting active | abandon posting active =>
      refine sound.move rfl (fun event => ?_) (by simp)
      simp only [held, pending, active, starting, ongoing, le_refl]
  | clear noHand noActive =>
      refine sound.move rfl (fun event => ?_) sound.activeKnown
      simp only [held, pending, List.countP_nil]
      omega

/-- Each run keeps a sound life sound. -/
theorem Sound.run (sound : life.Sound) {acts : List (Act Fn)}
    (run : Execution.exec Life.step life acts = some next) : next.Sound :=
  Execution.exec_invariant (fun _ _ _ holds taken => Sound.step holds taken) sound run

/-- A timer object keeps everything but its mark, and its mark once it is set. -/
structure Keeps (before after : TimeoutEvent) : Prop where
  id : after.id = before.id
  delay : after.delay = before.delay
  oneShot : after.oneShot = before.oneShot
  removed : before.removed = true → after.removed = true

theorem Keeps.refl (object : TimeoutEvent) : Keeps object object :=
  ⟨rfl, rfl, rfl, fun marked => marked⟩

theorem Keeps.trans {first second third : TimeoutEvent} (left : Keeps first second)
    (right : Keeps second third) : Keeps first third :=
  ⟨right.id.trans left.id, right.delay.trans left.delay, right.oneShot.trans left.oneShot,
    fun marked => right.removed (left.removed marked)⟩

theorem keeps_setRemoved (timers : Timers) (other : Nat) :
    Keeps (timers.object event) ((timers.setRemoved other).object event) :=
  ⟨by simp, by simp, by simp, fun marked => Timers.setRemoved_removed.mpr (Or.inr marked)⟩

/-- Each act keeps the known timer objects. -/
theorem Sound.keeps (sound : life.Sound) (taken : life.step act = some next) :
    life.timers.fresh ≤ next.timers.fresh ∧
      ∀ event < life.timers.fresh, Keeps (life.timers.object event) (next.timers.object event) := by
  cases step_cases taken with
  | create function delay oneShot =>
      refine ⟨Nat.le_succ _, fun event below => ?_⟩
      simp only [Timers.insert_object, Function.update_of_ne (ne_of_lt below)]
      exact Keeps.refl _
  | cancel posting => exact ⟨le_rfl, fun event _ => keeps_setRemoved life.timers posting.event⟩
  | settle posting timers active settled =>
      have below := sound.activeKnown posting _ active
      rcases Timers.settle_some (sound.identified _ below).1 settled with
        ⟨-, rfl⟩ | ⟨-, -, rfl⟩ | ⟨-, -, rfl⟩
      · exact ⟨le_rfl, fun event _ => keeps_setRemoved life.timers posting.event⟩
      · exact ⟨le_rfl, fun event _ => Keeps.refl _⟩
      · exact ⟨le_rfl, fun event _ => Keeps.refl _⟩
  | _ => exact ⟨le_rfl, fun event _ => Keeps.refl _⟩

/-- Each run keeps the known timer objects. -/
theorem Sound.keeps_run (sound : life.Sound) {acts : List (Act Fn)}
    (run : Execution.exec Life.step life acts = some next) (below : event < life.timers.fresh) :
    event < next.timers.fresh ∧ Keeps (life.timers.object event) (next.timers.object event) := by
  have kept : ∀ (middle : Life Fn) (act : Act Fn) (after : Life Fn),
      middle.Sound ∧ event < middle.timers.fresh ∧
        Keeps (life.timers.object event) (middle.timers.object event) →
      middle.step act = some after →
      after.Sound ∧ event < after.timers.fresh ∧
        Keeps (life.timers.object event) (after.timers.object event) := by
    rintro middle act after ⟨holds, inside, keeps⟩ taken
    obtain ⟨grown, each⟩ := holds.keeps taken
    exact ⟨holds.step taken, lt_of_lt_of_le inside grown, keeps.trans (each event inside)⟩
  exact (Execution.exec_invariant kept ⟨sound, below, Keeps.refl _⟩ run).2

/-- An event that one place holds is in no other place. -/
theorem Sound.alone (sound : life.Sound) (listed : 0 < life.timers.listed event) :
    life.timers.listed event = 1 ∧ (∀ posting ∈ life.queue, posting.event ≠ event) ∧
      ∀ posting, life.hand = some posting → posting.event ≠ event := by
  have once := sound.once event
  have unqueued : life.queue.countP (·.event = event) = 0 := by
    unfold held pending at once
    omega
  refine ⟨le_antisymm (listed_le_held.trans once) listed, ?_, ?_⟩
  · simpa [List.countP_eq_zero] using unqueued
  · rintro posting hand rfl
    simp [held, pending, hand] at once
    omega

end Dtel.Life
