import Dtel.Library.Line
import Dtel.Proof.Timer.Clear
import Dtel.Proof.Timer.Waiting

namespace Dtel

namespace Life

variable {Fn : Type} {life next : Life Fn} {act : Act Fn} {first second posting : Posting} {shown : List Posting}

/-- The act applies this posting. -/
def applied (life : Life Fn) : Act Fn → List Posting
  | .start => life.queue.head?.toList
  | _ => []

/-- Two listed postings travel through the hand and the queue, and none overtakes the other. -/
structure Passing (first second : Posting) (life : Life Fn) (shown : List Posting) : Prop where
  sound : life.Sound
  numbered : first.order < life.timers.posts
  ahead : Line.Ahead first second life.timers.events (shown ++ (life.queue ++ life.hand.toList))

/-- Each act keeps the order of the two postings. -/
theorem Passing.step (passing : Passing first second life shown) (before : first.Before second)
    (taken : life.step act = some next) : Passing first second next (shown ++ life.applied act) := by
  have numbered := lt_of_lt_of_le passing.numbered (posts_le passing.sound taken)
  refine ⟨passing.sound.step taken, numbered, ?_⟩
  have ahead := passing.ahead
  cases step_cases taken with
  | create function delay oneShot =>
      simp only [applied, List.append_nil]
      -- A new posting is not the first one, whose number is smaller.
      apply ahead.arrive
      intro listed
      apply Timers.mem_of_insert _ listed
      exact passing.numbered
  | take now posting rest list noHand =>
      rw [list] at ahead
      have moved := ahead.depart (list ▸ passing.sound.ordered.sorted) (fun _ _ => Posting.Before.asymm) before
      simpa [applied, noHand] using moved
  | discard posting hand =>
      simp only [applied, List.append_nil, Option.toList_none]
      apply ahead.drop
      exact (List.sublist_append_left _ _).append_left shown
  | enqueue posting hand =>
      simpa [applied, hand] using ahead
  | start posting rest noHand noActive queue =>
      simpa [applied, queue, noHand] using ahead
  | settle posting timers active settled =>
      simp only [applied, List.append_nil]
      have below := passing.sound.activeKnown posting _ active
      rcases Timers.settle_some (passing.sound.identified _ below).1 settled with ⟨-, rfl⟩ | ⟨-, -, rfl⟩ | ⟨-, -, rfl⟩
      · exact ahead
      · exact ahead
      · apply ahead.arrive
        intro listed
        exact Timers.mem_of_insert passing.numbered listed
  | clear noHand =>
      simp only [applied, List.append_nil, noHand, Option.toList_none]
      apply ahead.drop
      simp
  | _ => simpa [applied] using ahead

/-- The act creates a timer with a delay that is not negative. -/
def Delayed : Act Fn → Prop
  | .create _ delay _ => 0 ≤ delay
  | _ => True

/-- These timers are on their way from the list to their calls. A removed timer in the hand will
not reach the queue. -/
def onward (life : Life Fn) : List Posting :=
  life.queue ++ life.hand.toList.filter fun posting => ¬(life.timers.object posting.event).removed

/-- A mark stops at most the timer in the hand. -/
theorem onward_setRemoved (life : Life Fn) (event : Nat) :
    (({ life with timers := life.timers.setRemoved event } : Life Fn).onward).Sublist life.onward := by
  apply List.Sublist.append_left
  apply List.monotone_filter_right
  intro posting live
  simp only [Bool.not_eq_true, decide_eq_true_eq] at live ⊢
  by_contra removed
  have marked : ((life.timers.setRemoved event).object posting.event).removed = true :=
    Timers.setRemoved_removed.mpr (Or.inr (by simpa using removed))
  rw [live] at marked
  cases marked

/-- A new timer is not on its way. -/
theorem onward_create (sound : life.Sound) (function : Option Fn) (delay : Int) (oneShot : Bool) :
    (life.withNew (putFunction life.refs (life.timers.lastId + 1) function) delay oneShot).onward = life.onward := by
  unfold onward
  congr 1
  apply List.filter_congr
  intro posting member
  have known := sound.known _ (held_of_hand (by simpa using member))
  simp only [Timers.insert_object, Function.update_of_ne (ne_of_lt known)]

/-- The applied timers and those on their way are in order, ahead of the list. -/
structure Sequenced (life : Life Fn) (shown : List Posting) : Prop where
  sound : life.Sound
  punctual : life.Punctual
  delayed : ∀ event < life.timers.fresh, 0 ≤ (life.timers.object event).delay
  expired : ∀ posting ∈ shown, posting.deadline < life.clock
  inOrder : Line.InOrder Posting.Before life.timers.events (shown ++ life.onward)

/-- A posting whose deadline is not in the past goes behind the whole line. -/
theorem Sequenced.before (sequenced : life.Sequenced shown) (later : life.clock ≤ second.deadline)
    (member : posting ∈ shown ++ life.onward) : posting.Before second := by
  have passed : posting.deadline < life.clock := by
    rcases List.mem_append.mp member with old | new
    · exact sequenced.expired posting old
    · rcases List.mem_append.mp new with queued | hand
      · exact sequenced.punctual.expired posting (List.mem_append_left _ queued)
      · obtain ⟨inHand, live⟩ := List.mem_filter.mp hand
        exact (sequenced.punctual.due posting (by simpa using inHand)).resolve_left (by simpa using live)
  exact Or.inl (lt_of_lt_of_le passed later)

/-- Each act keeps the delays of all timers from being negative. -/
theorem Sequenced.delayed_step (sequenced : life.Sequenced shown) (delayed : Delayed act)
    (taken : life.step act = some next) : ∀ event < next.timers.fresh, 0 ≤ (next.timers.object event).delay := by
  have keeps := (sequenced.sound.keeps taken).2
  intro event below
  by_cases old : event < life.timers.fresh
  · rw [(keeps event old).delay]
    exact sequenced.delayed event old
  · cases step_cases taken with
    | create function delay oneShot =>
        have last : event = life.timers.fresh := by
          change event < life.timers.fresh + 1 at below
          omega
        have positive : 0 ≤ delay := delayed
        subst last
        simpa using positive
    | settle posting timers active settled =>
        have known := sequenced.sound.activeKnown posting _ active
        rcases Timers.settle_some (sequenced.sound.identified _ known).1 settled with
          ⟨-, rfl⟩ | ⟨-, -, rfl⟩ | ⟨-, -, rfl⟩ <;> exact absurd below old
    | _ => exact absurd below old

/-- Each act keeps the order of all timers. -/
theorem Sequenced.step (sequenced : life.Sequenced shown) (delayed : Delayed act)
    (taken : life.step act = some next) : next.Sequenced (shown ++ life.applied act) := by
  refine ⟨sequenced.sound.step taken, sequenced.punctual.step sequenced.sound taken,
    sequenced.delayed_step delayed taken, ?_, ?_⟩
  · intro posting member
    apply lt_of_lt_of_le _ (clock_le taken)
    rcases List.mem_append.mp member with old | new
    · exact sequenced.expired posting old
    · cases act with
      | start =>
          have head : posting ∈ life.queue := List.mem_of_mem_head? (by simpa [applied] using new)
          exact sequenced.punctual.expired posting (List.mem_append_left _ head)
      | _ => cases new
  have inOrder := sequenced.inOrder
  cases step_cases taken with
  | create function delay oneShot =>
      simp only [applied, List.append_nil]
      have line := onward_create sequenced.sound function delay oneShot
      rw [line]
      apply inOrder.arrive
      intro listed member
      rcases Timers.mem_insert_events.mp member with old | rfl
      · exact Or.inl old
      · right
        intro passed inside
        apply sequenced.before _ inside
        have positive : 0 ≤ delay := delayed
        simp only [Timers.entry, Function.update_self, milliseconds]
        omega
  | cancel posting =>
      simp only [applied, List.append_nil]
      apply inOrder.drop
      exact (onward_setRemoved life posting.event).append_left shown
  | take now posting rest list noHand noActive past due =>
      simp only [applied, List.append_nil]
      rw [list] at inOrder
      by_cases removed : (life.timers.object posting.event).removed = true
      · have line : life.onward = ({ life with
            timers := { life.timers with events := rest }, hand := some posting } : Life Fn).onward := by
          simp [onward, noHand, removed]
        rw [← line]
        apply inOrder.arrive
        intro listed member
        exact Or.inl (List.mem_cons_of_mem _ member)
      · have moved := inOrder.depart (list ▸ sequenced.sound.ordered.sorted)
        simpa [onward, noHand, removed] using moved
  | discard posting hand removed =>
      simpa [applied, onward, hand, removed] using inOrder
  | enqueue posting hand live =>
      simpa [applied, onward, hand, live] using inOrder
  | start posting rest noHand noActive queue =>
      simpa [applied, onward, queue, noHand] using inOrder
  | settle posting timers active settled =>
      simp only [applied, List.append_nil]
      have below := sequenced.sound.activeKnown posting _ active
      rcases Timers.settle_some (sequenced.sound.identified _ below).1 settled with ⟨-, rfl⟩ | ⟨-, -, rfl⟩ | ⟨-, -, rfl⟩
      · apply inOrder.drop
        exact (onward_setRemoved life posting.event).append_left shown
      · exact inOrder
      · apply inOrder.arrive
        intro listed member
        rcases Timers.mem_insert_events.mp member with old | rfl
        · exact Or.inl old
        · right
          intro passed inside
          apply sequenced.before _ inside
          have positive := sequenced.delayed _ below
          simp only [Timers.entry, milliseconds]
          omega
  | clear noHand =>
      simp only [applied, List.append_nil]
      apply inOrder.drop
      simp [onward, noHand]
  | _ =>
      simp only [applied, List.append_nil]
      exact inOrder

/-- No posting of the timer waits with a deadline before this time plus the delay. -/
structure Spaced (time : Int) (event : Nat) (life : Life Fn) : Prop where
  sound : life.Sound
  known : event < life.timers.fresh
  past : time ≤ life.clock
  later : ∀ posting ∈ life.waiting, posting.event = event →
    time + milliseconds (life.timers.object event).delay ≤ posting.deadline

/-- A timer that is being called waits nowhere. -/
theorem spaced_of_calling (sound : life.Sound) (active : life.active = some (posting, .calling)) :
    Spaced life.clock posting.event life where
  sound := sound
  known := sound.activeKnown _ _ active
  past := le_rfl
  later other member same := by
    have once := sound.once posting.event
    have placed : 0 < life.pending posting.event := by
      rw [pending_eq_countP, List.countP_pos_iff]
      exact ⟨other, member, by simpa using same⟩
    simp [held, active, ongoing] at once
    omega

/-- Each act keeps the space before the next call. -/
theorem Spaced.step {time : Int} {event : Nat} (spaced : Spaced time event life)
    (taken : life.step act = some next) : Spaced time event next where
  sound := spaced.sound.step taken
  known := lt_of_lt_of_le spaced.known (spaced.sound.keeps taken).1
  past := spaced.past.trans (clock_le taken)
  later posting member same := by
    have keeps := (spaced.sound.keeps taken).2 event spaced.known
    rcases waiting_cases spaced.sound taken member with old | new
    · rw [keeps.delay]
      exact spaced.later posting old same
    · have past := spaced.past
      rw [new.deadline, same]
      omega

end Life

namespace Machine

variable {Other Runner Fn : Type} {machine final : Machine Other Runner Fn} {label : Label Other Runner Fn}
  {runners : List (Runner × Int)} {labels after : List (Label Other Runner Fn)} {posting first second : Posting}

/-- The drain loop retrieves this timer and applies it. -/
def applies (machine : Machine Other Runner Fn) : Label Other Runner Fn → List Posting
  | .next =>
      match machine.pc, machine.world.queue with
      | .draining _, .timeout posting :: _ => [posting]
      | _, _ => []
  | _ => []

/-- The label asks for a timer with this delay. -/
def delays : Label Other Runner Fn → List Int
  | .script (.setTimeout args _) =>
      match setTimeoutArguments args with
      | .ok (_, delay) => [delay]
      | .error _ => []
  | .thread (.postTimeout delay _) => [delay]
  | _ => []

theorem applies_eq (machine : Machine Other Runner Fn) (label : Label Other Runner Fn) :
    machine.applies label = machine.view.applied (machine.act label) := by
  have named := act_cases machine label
  generalize machine.act label = act at named
  cases named with
  | start timeout posting rest point queue =>
      simp [applies, point, queue, Life.applied, view, Event.posting?]
  | quiet unstarted =>
      simp only [applies]
      rfl
  | take _ _ _ _ point | dispose _ _ _ _ _ point | invoke _ _ point | settle _ _ _ point | release _ _ point
  | clear point => simp [applies, point, Life.applied]
  | _ => rfl

theorem delayed_act (positive : ∀ delay ∈ delays label, 0 ≤ delay) : Life.Delayed (machine.act label) := by
  have named := act_cases machine label
  generalize machine.act label = act at named
  cases named with
  | setTimeout args oneShot function delay checked => exact positive delay (by simp [delays, checked])
  | postTimeout delay oneShot => exact positive delay (by simp [delays])
  | _ => trivial

/-- A timer is called after the deadline of its posting, which the run has posted. -/
theorem invokes_late (run : Execution.exec step (initial runners) labels = some machine)
    (invoked : machine.invokes label = some posting) :
    posting.deadline < machine.world.clock ∧
      ∃ time, (posting, time) ∈ Execution.trace step posts (initial runners) labels ∧
        posting.deadline = time + milliseconds (machine.world.timers.object posting.event).delay := by
  have active := (invokes_some invoked).1
  have starts : posting ∈ Life.starting machine.view.active := by simp [active, Life.starting]
  have late := (reachable_punctual run).expired posting (List.mem_append_right _ starts)
  have member : posting ∈ machine.view.waiting := Life.mem_waiting.mpr (Or.inr (Or.inr (Or.inr starts)))
  exact ⟨late, (reachable_recorded run).posted posting member⟩

/-- Two calls of a timer are more than its delay apart. -/
theorem invokes_spaced (run : Execution.exec step (initial runners) labels = some machine) {timeout : Int}
    (point : machine.pc = .calling timeout first)
    (further : Execution.exec step machine after = some final)
    (invoked : final.invokes label = some second) (same : second.event = first.event) :
    machine.world.clock + milliseconds (machine.world.timers.object first.event).delay < final.world.clock := by
  obtain ⟨timely, sound⟩ := reachable_sound run
  have active : machine.view.active = some (first, .calling) := by simp [view, point, Pc.active]
  have spaced : Life.Spaced machine.world.clock first.event final.view :=
    Execution.exec_invariant (fun _ _ _ holds taken => Life.Spaced.step holds taken)
      (Life.spaced_of_calling sound active) (life_run timely further)
  have whole := Execution.exec_append_some.mpr ⟨machine, run, further⟩
  have starts : second ∈ Life.starting final.view.active := by
    simp [(invokes_some invoked).1, Life.starting]
  have late := (reachable_punctual whole).expired second (List.mem_append_right _ starts)
  have later := spaced.later second (Life.mem_waiting.mpr (Or.inr (Or.inr (Or.inr starts)))) same
  have kept := (reachable_keeps timely sound further (sound.activeKnown _ _ active)).2.delay
  have delay : (final.view.timers.object first.event).delay =
    (machine.world.timers.object first.event).delay := kept
  rw [delay] at later
  exact lt_of_le_of_lt later late

/-- Two listed timers are applied in the order of their deadlines and postings. -/
theorem applies_in_order (run : Execution.exec step (initial runners) labels = some machine)
    (firstListed : first ∈ machine.world.timers.events) (secondListed : second ∈ machine.world.timers.events)
    (before : first.Before second) (further : Execution.exec step machine after = some final) :
    ¬[second, first].Sublist (Execution.trace step applies machine after) := by
  obtain ⟨timely, sound⟩ := reachable_sound run
  have alone := sound.alone (Life.held_of_listed secondListed)
  have start : Life.Passing first second machine.view [] := by
    refine ⟨sound, sound.ordered.numbered first firstListed, Line.Ahead.start ?_⟩
    rw [List.nil_append]
    intro member
    rcases List.mem_append.mp member with queued | hand
    · exact alone.2.1 second queued rfl
    · exact alone.2.2 second (by simpa using hand) rfl
  have passing := Execution.trace_invariant (fun _ _ _ _ holds taken => Life.Passing.step holds before taken)
    start (life_run timely further)
  rw [life_trace applies_eq timely further]
  intro swapped
  apply passing.ahead.unswapped
  rw [List.nil_append]
  exact swapped.trans (List.sublist_append_left _ _)

/-- Without negative delays, all timers are applied in order. -/
theorem applies_sorted (run : Execution.exec step (initial runners) labels = some machine)
    (positive : ∀ label ∈ labels, ∀ delay ∈ delays label, 0 ≤ delay) :
    (Execution.trace step applies (initial runners) labels).Pairwise Posting.Before := by
  have start : (initial runners : Machine Other Runner Fn).view.Sequenced [] := by
    obtain ⟨queue, timers, -⟩ : (initial runners : Machine Other Runner Fn).world.queue = [] ∧
        (initial runners : Machine Other Runner Fn).world.timers = Timers.initial ∧ _ := initial_world runners
    refine ⟨initial_sound runners, reachable_punctual (Execution.exec_nil _), ?_, by simp, ?_⟩
    · simp [view, timers, Timers.initial]
    · constructor
      · simp [Life.onward, view, queue, Pc.hand]
      · simp [Life.onward, view, queue, Pc.hand]
  have guarded : Execution.Along step (fun machine label => Life.Delayed (machine.act label))
      (initial runners) labels :=
    Execution.Along.of_forall fun label member _ => delayed_act (positive label member)
  have along : Execution.Along Life.step (fun _ => Life.Delayed) (initial runners).view
      (Execution.acts step act (initial runners) labels) :=
    Execution.along_simulation (fun _ _ _ holds taken => Timely.step holds taken)
      (fun _ _ _ holds taken => simulates holds taken) (initial_timely runners) run guarded
  have sequenced := Execution.trace_invariant_along
    (fun _ _ _ _ holds delayed taken => Life.Sequenced.step holds delayed taken) start along
    (life_run (initial_timely runners) run)
  rw [life_trace applies_eq (initial_timely runners) run]
  have ordered := sequenced.inOrder.ordered
  rw [List.nil_append] at ordered
  exact (List.pairwise_append.mp ordered).1

/-- No timer is called early, the next call of an interval keeps its distance, listed timers are
applied in the order of their deadlines and postings, and without negative delays all timers are. -/
theorem timers_fire_in_order (run : Execution.exec step (initial runners) labels = some machine) :
    (∀ label posting, machine.invokes label = some posting →
      posting.deadline < machine.world.clock ∧
        ∃ time, (posting, time) ∈ Execution.trace step posts (initial runners) labels ∧
          posting.deadline = time + milliseconds (machine.world.timers.object posting.event).delay) ∧
    (∀ timeout posting success after final label other, machine.pc = .calling timeout posting →
      Execution.exec step machine (.pcall success :: after) = some final →
      final.invokes label = some other → other.event = posting.event →
        machine.world.clock + milliseconds (machine.world.timers.object posting.event).delay < final.world.clock) ∧
    (∀ first ∈ machine.world.timers.events, ∀ second ∈ machine.world.timers.events, first.Before second →
      ∀ after final, Execution.exec step machine after = some final →
        first ∈ Execution.trace step applies machine after → second ∈ Execution.trace step applies machine after →
          [first, second].Sublist (Execution.trace step applies machine after) ∧
          ¬[second, first].Sublist (Execution.trace step applies machine after)) ∧
    ((∀ label ∈ labels, ∀ delay ∈ delays label, 0 ≤ delay) →
      (Execution.trace step applies (initial runners) labels).Pairwise Posting.Before) := by
  refine ⟨?_, ?_, ?_, applies_sorted run⟩
  · intro label posting invoked
    exact invokes_late run invoked
  · intro timeout posting success after final label other point further invoked same
    exact invokes_spaced run point further invoked same
  · intro first firstListed second secondListed before after final further firstApplied secondApplied
    have unswapped := applies_in_order run firstListed secondListed before further
    have different : first ≠ second := by
      rintro rfl
      exact before.asymm before
    exact ⟨(Line.pair_sublist_of_mem firstApplied secondApplied different).resolve_right unswapped, unswapped⟩

/-- A script sets a timer and an interval, and the loop applies both in one pass. -/
theorem timers_fire_in_order_here : ∃ machine : Machine Unit Unit Nat,
    Execution.exec step (initial [])
      ([.set 7 0 true, .set 8 0 false, .tick 1, .run] ++ Label.nexts 19 ++ .pcall true :: Label.nexts 3) =
        some machine ∧
    machine.invokes .next = some ⟨0, 1, 1⟩ ∧ 0 < machine.world.clock ∧
    (Execution.trace step applies (initial [])
      ([.set 7 0 true, .set 8 0 false, .tick 1, .run] ++ Label.nexts 19 ++ .pcall true :: Label.nexts 3 :
        List (Label Unit Unit Nat))).Pairwise Posting.Before := by
  have fires : (Execution.exec step (initial [])
      ([.set 7 0 true, .set 8 0 false, .tick 1, .run] ++ Label.nexts 19 ++ .pcall true :: Label.nexts 3 :
        List (Label Unit Unit Nat))).bind (fun machine => machine.invokes .next) = some ⟨0, 1, 1⟩ := by decide
  obtain ⟨machine, run, invoked⟩ := Option.bind_eq_some_iff.mp fires
  obtain ⟨late, -, -, sorted⟩ := timers_fire_in_order run
  exact ⟨machine, run, invoked, (late _ _ invoked).1, sorted (by decide)⟩

end Machine

end Dtel
