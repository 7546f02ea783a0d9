import Dtel.Proof.Timer.Refinement

namespace Dtel

namespace Life

variable {Fn : Type} {life next : Life Fn} {act : Act Fn} {event : Nat} {posting : Posting}

/-- The postings from which a call can still come. -/
def waiting (life : Life Fn) : List Posting :=
  life.timers.events ++ life.hand.toList ++ life.queue ++ starting life.active

theorem mem_waiting : posting ∈ life.waiting ↔ posting ∈ life.timers.events ∨ life.hand = some posting ∨
    posting ∈ life.queue ∨ posting ∈ starting life.active := by
  simp only [waiting, List.mem_append, Option.mem_toList, or_assoc]

/-- The places of one event are its waiting postings. -/
theorem pending_eq_countP : life.pending event = life.waiting.countP (·.event = event) := by
  simp only [pending, waiting, Timers.listed, List.countP_append]

/-- The act puts this new posting into the list. -/
structure Posted (life next : Life Fn) (posting : Posting) : Prop where
  listed : posting ∈ next.timers.events
  order : posting.order = life.timers.posts
  deadline : posting.deadline = life.clock + milliseconds (next.timers.object posting.event).delay

/-- A posting that is listed after an act was listed before, or the act has posted it. -/
theorem events_cases (sound : life.Sound) (taken : life.step act = some next)
    (member : posting ∈ next.timers.events) : posting ∈ life.timers.events ∨ life.Posted next posting := by
  cases step_cases taken with
  | create function delay oneShot =>
      rcases Timers.mem_insert_events.mp member with old | rfl
      · exact Or.inl old
      · exact Or.inr ⟨member, rfl, by simp [Timers.entry]⟩
  | take now first rest list => exact Or.inl (list ▸ List.mem_cons_of_mem _ member)
  | settle first timers active settled =>
      have below := sound.activeKnown first _ active
      rcases Timers.settle_some (sound.identified _ below).1 settled with ⟨-, rfl⟩ | ⟨-, -, rfl⟩ | ⟨-, -, rfl⟩
      · exact Or.inl member
      · exact Or.inl member
      · rcases Timers.mem_insert_events.mp member with old | rfl
        · exact Or.inl old
        · exact Or.inr ⟨member, rfl, rfl⟩
  | _ => exact Or.inl member

/-- A posting that waits after an act waited before, or the act has posted it. -/
theorem waiting_cases (sound : life.Sound) (taken : life.step act = some next) (member : posting ∈ next.waiting) :
    posting ∈ life.waiting ∨ life.Posted next posting := by
  rw [mem_waiting] at member ⊢
  rcases member with listed | other
  · exact (events_cases sound taken listed).imp Or.inl id
  left
  cases step_cases taken with
  | take now first rest list noHand =>
      rcases other with hand | other
      · cases hand
        exact Or.inl (list ▸ List.mem_cons_self)
      · exact Or.inr (Or.inr other)
  | discard first hand =>
      rcases other with absent | other
      · cases absent
      · exact Or.inr (Or.inr other)
  | enqueue first hand =>
      rcases other with absent | queued | active
      · cases absent
      · rcases List.mem_append.mp queued with old | new
        · exact Or.inr (Or.inr (Or.inl old))
        · rw [List.mem_singleton.mp new]
          exact Or.inr (Or.inl hand)
      · exact Or.inr (Or.inr (Or.inr active))
  | start first rest noHand noActive queue =>
      rw [queue, List.mem_cons]
      rcases other with hand | queued | active
      · exact Or.inr (Or.inl hand)
      · exact Or.inr (Or.inr (Or.inl (Or.inr queued)))
      · exact Or.inr (Or.inr (Or.inl (Or.inl (List.mem_singleton.mp active))))
  | clear =>
      rcases other with hand | queued | active
      · exact Or.inr (Or.inl hand)
      · cases queued
      · exact Or.inr (Or.inr (Or.inr active))
  | skip | call | callMissing | complete | settle | release | abandon =>
      rcases other with hand | queued | none
      · exact Or.inr (Or.inl hand)
      · exact Or.inr (Or.inr (Or.inl queued))
      · cases none
  | _ => exact Or.inr other

/-- A waiting posting holds its event. -/
theorem Sound.waitingKnown (sound : life.Sound) (member : posting ∈ life.waiting) :
    posting.event < life.timers.fresh := by
  apply sound.known
  have placed : 0 < life.pending posting.event := by
    rw [pending_eq_countP, List.countP_pos_iff]
    exact ⟨posting, member, by simp⟩
  unfold held
  omega

/-- Each act keeps the clock or advances it. -/
theorem clock_le (taken : life.step act = some next) : life.clock ≤ next.clock := by
  cases step_cases taken with
  | elapse elapsed => exact Int.le_add_of_nonneg_right (Int.natCast_nonneg elapsed)
  | _ => exact le_rfl

/-- Each act keeps the number of postings or advances it. -/
theorem posts_le (sound : life.Sound) (taken : life.step act = some next) :
    life.timers.posts ≤ next.timers.posts := by
  cases step_cases taken with
  | create => exact Nat.le_succ _
  | settle posting timers active settled =>
      have below := sound.activeKnown posting _ active
      rcases Timers.settle_some (sound.identified _ below).1 settled with ⟨-, rfl⟩ | ⟨-, -, rfl⟩ | ⟨-, -, rfl⟩
      · exact le_rfl
      · exact le_rfl
      · exact Nat.le_succ _
  | _ => exact le_rfl

/-- The timers that have left the list for the queue are past their deadlines. -/
structure Punctual (life : Life Fn) : Prop where
  expired : ∀ posting ∈ life.queue ++ starting life.active, posting.deadline < life.clock
  due : ∀ posting, life.hand = some posting →
    (life.timers.object posting.event).removed = true ∨ posting.deadline < life.clock

theorem Punctual.move (punctual : life.Punctual) (sound : life.Sound) (taken : life.step act = some next)
    (queue : ∀ posting ∈ next.queue ++ starting next.active, posting ∈ life.queue ++ starting life.active)
    (hand : ∀ posting, next.hand = some posting → life.hand = some posting) : next.Punctual where
  expired posting member := lt_of_lt_of_le (punctual.expired posting (queue posting member)) (clock_le taken)
  due posting member := by
    have before := hand posting member
    have keeps := (sound.keeps taken).2 _ (sound.known _ (held_of_hand before))
    exact (punctual.due posting before).imp keeps.removed (lt_of_lt_of_le · (clock_le taken))

/-- Each act keeps the timers punctual. -/
theorem Punctual.step (punctual : life.Punctual) (sound : life.Sound) (taken : life.step act = some next) :
    next.Punctual := by
  cases step_cases taken with
  | take now posting rest list noHand noActive past due =>
      refine ⟨punctual.expired, ?_⟩
      intro other same
      cases same
      exact due.imp id fun expired => lt_of_lt_of_le expired past
  | enqueue posting hand live =>
      refine ⟨?_, by simp⟩
      intro other member
      have expired := (punctual.due posting hand).resolve_left (by simp [live])
      rcases List.mem_append.mp member with queued | active
      · rcases List.mem_append.mp queued with old | new
        · exact punctual.expired other (List.mem_append_left _ old)
        · rw [List.mem_singleton.mp new]
          exact expired
      · exact punctual.expired other (List.mem_append_right _ active)
  | start posting rest noHand noActive queue =>
      refine punctual.move sound taken ?_ fun _ hand => hand
      simp [starting, noActive, queue]
      tauto
  | discard posting hand => exact punctual.move sound taken (fun _ member => member) (by simp)
  | clear =>
      refine punctual.move sound taken ?_ fun _ hand => hand
      intro other member
      exact List.mem_append_right _ (by simpa using member)
  | skip | call | callMissing | complete | settle | release | abandon =>
      refine punctual.move sound taken ?_ fun _ hand => hand
      intro other member
      exact List.mem_append_left _ (by simpa [starting] using member)
  | _ => exact punctual.move sound taken (fun _ member => member) fun _ hand => hand

end Life

namespace Machine

variable {Other Runner Fn : Type} {machine next : Machine Other Runner Fn} {label : Label Other Runner Fn}

/-- The step adds these postings to the list, at this time. -/
def posts (machine : Machine Other Runner Fn) (label : Label Other Runner Fn) : List (Posting × Int) :=
  match machine.step label with
  | some next =>
      (next.world.timers.events.filter fun posting => machine.world.timers.posts ≤ posting.order).map
        fun posting => (posting, machine.world.clock)
  | none => []

/-- A posting of an act is one of those that the step adds. -/
theorem mem_posts {posting : Posting} (taken : machine.step label = some next)
    (posted : machine.view.Posted next.view posting) : (posting, machine.world.clock) ∈ machine.posts label := by
  have later : machine.world.timers.posts ≤ posting.order := le_of_eq posted.order.symm
  simp only [posts, taken]
  apply List.mem_map_of_mem
  exact List.mem_filter.mpr ⟨posted.listed, by simpa using later⟩

/-- Each waiting timer was posted in the run, and its deadline is the time of posting plus its delay. -/
structure Recorded (machine : Machine Other Runner Fn) (shown : List (Posting × Int)) : Prop where
  timely : machine.Timely
  sound : machine.view.Sound
  posted : ∀ posting ∈ machine.view.waiting, ∃ time, (posting, time) ∈ shown ∧
    posting.deadline = time + milliseconds (machine.world.timers.object posting.event).delay

theorem Recorded.step {shown : List (Posting × Int)} (holds : machine.Recorded shown)
    (taken : machine.step label = some next) : next.Recorded (shown ++ machine.posts label) := by
  have simulated := simulates holds.timely taken
  refine ⟨holds.timely.step taken, holds.sound.step simulated, fun posting member => ?_⟩
  rcases Life.waiting_cases holds.sound simulated member with old | new
  · obtain ⟨time, inside, deadline⟩ := holds.posted posting old
    have keeps := (holds.sound.keeps simulated).2 _ (holds.sound.waitingKnown old)
    have delay : (next.world.timers.object posting.event).delay =
      (machine.world.timers.object posting.event).delay := keeps.delay
    rw [delay]
    exact ⟨time, List.mem_append_left _ inside, deadline⟩
  · exact ⟨machine.world.clock, List.mem_append_right _ (mem_posts taken new), new.deadline⟩

/-- A machine that has not started has no waiting timer. -/
theorem initial_waiting (runners : List (Runner × Int)) :
    (initial runners : Machine Other Runner Fn).view.waiting = [] := by
  obtain ⟨queue, timers, -⟩ : (initial runners : Machine Other Runner Fn).world.queue = [] ∧
      (initial runners : Machine Other Runner Fn).world.timers = Timers.initial ∧ _ := initial_world runners
  simp [Life.waiting, view, queue, timers, Timers.initial, Pc.hand, Pc.active, Life.starting]

/-- Each reachable machine has a record of its waiting timers. -/
theorem reachable_recorded {runners : List (Runner × Int)} {labels : List (Label Other Runner Fn)}
    (run : Execution.exec step (initial runners) labels = some machine) :
    machine.Recorded (Execution.trace step posts (initial runners) labels) := by
  have start : (initial runners : Machine Other Runner Fn).Recorded [] :=
    ⟨initial_timely runners, initial_sound runners, by simp [initial_waiting]⟩
  exact Execution.trace_invariant (fun _ _ _ _ holds taken => Recorded.step holds taken) start run

/-- Each reachable machine is punctual. -/
theorem reachable_punctual {runners : List (Runner × Int)} {labels : List (Label Other Runner Fn)}
    (run : Execution.exec step (initial runners) labels = some machine) : machine.view.Punctual := by
  have start : (initial runners : Machine Other Runner Fn).view.Punctual := by
    have queue := (initial_world runners : (initial runners : Machine Other Runner Fn).world.queue = [] ∧ _).1
    exact ⟨by simp [view, queue, Pc.active, Life.starting], by simp [view, Pc.hand]⟩
  have kept : ∀ (life : Life Fn) (act : Act Fn) (next : Life Fn), life.Sound ∧ life.Punctual →
      life.step act = some next → next.Sound ∧ next.Punctual :=
    fun _ _ _ holds taken => ⟨holds.1.step taken, holds.2.step holds.1 taken⟩
  exact (Execution.exec_invariant kept ⟨initial_sound runners, start⟩
    (life_run (initial_timely runners) run)).2

end Machine

end Dtel
