import Dtel.Proof.Timer.Table

namespace Dtel

namespace Life

variable {Fn : Type} {life next : Life Fn} {act : Act Fn} {event : Nat} {time : Int}

/-- The act calls the function of this timer. -/
def called (life : Life Fn) : Act Fn → List Posting
  | .invoke =>
      (starting life.active).filter fun posting =>
        (life.timers.object posting.event).removed = false ∧ 0 < (life.timers.object posting.event).id
  | _ => []

/-- A one-shot timer is called at most once, the call that can still come included. -/
structure CalledOnce (life : Life Fn) (shown : List Posting) : Prop where
  sound : life.Sound
  known : ∀ posting ∈ shown, posting.event < life.timers.fresh
  once : ∀ event < life.timers.fresh, (life.timers.object event).oneShot = true →
    shown.countP (·.event = event) + life.pending event ≤ 1

/-- An act that gives no one-shot timer a further place or call keeps the count. -/
theorem CalledOnce.keep {shown more : List Posting} (counted : life.CalledOnce shown)
    (taken : life.step act = some next) (fresh : next.timers.fresh = life.timers.fresh)
    (known : ∀ posting ∈ more, posting.event < life.timers.fresh)
    (places : ∀ event < life.timers.fresh, (life.timers.object event).oneShot = true →
      more.countP (·.event = event) + next.pending event ≤ life.pending event) :
    next.CalledOnce (shown ++ more) := by
  have keeps := (counted.sound.keeps taken).2
  refine ⟨counted.sound.step taken, ?_, ?_⟩
  · rw [fresh]
    intro posting member
    rcases List.mem_append.mp member with old | new
    · exact counted.known posting old
    · exact known posting new
  · rw [fresh]
    intro event below oneShot
    rw [(keeps event below).oneShot] at oneShot
    have before := counted.once event below oneShot
    have after := places event below oneShot
    rw [List.countP_append]
    omega

/-- Each act keeps the count of the calls of one-shot timers. -/
theorem CalledOnce.step {shown : List Posting} (counted : life.CalledOnce shown)
    (taken : life.step act = some next) : next.CalledOnce (shown ++ life.called act) := by
  have sound := counted.sound
  cases step_cases taken with
  | create function delay oneShot =>
      have uncalled : shown.countP (·.event = life.timers.fresh) = 0 := by
        rw [List.countP_eq_zero]
        intro posting member
        have below := counted.known posting member
        simp only [decide_eq_true_eq]
        omega
      have unheld := sound.unheld
      simp only [called, List.append_nil]
      refine ⟨sound.step taken, fun posting member => Nat.lt_succ_of_lt (counted.known posting member), ?_⟩
      intro event below oneShotEvent
      change event < life.timers.fresh + 1 at below
      simp only [pending, Timers.insert_listed]
      by_cases same : event = life.timers.fresh
      · subst same
        simp only [held, pending, Timers.listed] at unheld
        simp only [Timers.listed, if_true]
        omega
      · simp only [Timers.insert_object, Function.update_of_ne same] at oneShotEvent
        have before := counted.once event (by omega) oneShotEvent
        simp only [pending, Timers.listed] at before
        rw [if_neg (Ne.symm same)]
        simp only [Timers.listed]
        omega
  | take now posting rest list noHand =>
      apply counted.keep taken rfl (by simp [called])
      intro event below oneShot
      simp only [called, List.countP_nil, Nat.zero_add]
      exact (pending_take list noHand).le
  | discard posting hand =>
      apply counted.keep taken rfl (by simp [called])
      intro event below oneShot
      simp only [called, List.countP_nil, Nat.zero_add]
      exact Nat.le.intro (pending_discard hand)
  | enqueue posting hand =>
      apply counted.keep taken rfl (by simp [called])
      intro event below oneShot
      simp only [called, List.countP_nil, Nat.zero_add]
      exact (pending_enqueue hand).le
  | start posting rest noHand noActive queue =>
      apply counted.keep taken rfl (by simp [called])
      intro event below oneShot
      simp only [called, List.countP_nil, Nat.zero_add]
      exact (pending_start noActive queue).le
  | skip posting active dead =>
      have silent : life.called .invoke = [] := by
        rcases dead with removed | unidentified
        · simp [called, active, starting, removed]
        · simp [called, active, starting, unidentified]
      rw [silent]
      apply counted.keep taken rfl (by simp)
      intro event below oneShot
      simp only [List.countP_nil, Nat.zero_add]
      exact Nat.le.intro (pending_invoke active (by decide))
  | call posting function active live positive | callMissing posting active live positive =>
      have shows : life.called .invoke = [posting] := by simp [called, active, starting, live, positive]
      rw [shows]
      apply counted.keep taken rfl
      · intro other member
        rw [List.mem_singleton.mp member]
        exact sound.activeKnown _ _ active
      · intro event below oneShot
        rw [List.countP_singleton, Nat.add_comm]
        simp only [decide_eq_true_eq]
        exact (pending_invoke active (by decide)).le
  | settle posting timers active settled =>
      have below := sound.activeKnown posting _ active
      rcases Timers.settle_some (sound.identified _ below).1 settled with ⟨-, rfl⟩ | ⟨-, -, rfl⟩ | ⟨interval, -, rfl⟩
      · apply counted.keep taken rfl (by simp [called])
        intro event _ _
        simp [called, pending, active, starting, Timers.listed]
      · apply counted.keep taken rfl (by simp [called])
        intro event _ _
        simp [called, pending, active, starting]
      · apply counted.keep taken rfl (by simp [called])
        intro event _ oneShot
        -- The timer that is posted again is an interval.
        have different : posting.event ≠ event := by
          rintro rfl
          simp [interval] at oneShot
        simp [called, pending, active, starting, Timers.insert_listed, different]
  | clear noHand noActive =>
      apply counted.keep taken rfl (by simp [called])
      intro event below oneShot
      simp only [called, pending, List.countP_nil]
      omega
  | complete posting active | release posting active | abandon posting active =>
      apply counted.keep taken rfl (by simp [called])
      intro event below oneShot
      simp [called, pending, active, starting]
  | _ =>
      apply counted.keep taken rfl (by simp [called])
      intro event below oneShot
      simp [called, pending, Timers.listed]

/-- The act cancels this id. -/
def cancelled : Act Fn → List Int
  | .cancel id => [id]
  | _ => []

/-- Only a cancellation marks an interval. -/
structure Marked (life : Life Fn) (shown : List Int) : Prop where
  sound : life.Sound
  marked : ∀ event < life.timers.fresh, (life.timers.object event).removed = true →
    (life.timers.object event).oneShot = true ∨ (life.timers.object event).id ∈ shown

theorem Marked.step {shown : List Int} (marked : life.Marked shown) (taken : life.step act = some next) :
    next.Marked (shown ++ cancelled act) := by
  refine ⟨marked.sound.step taken, ?_⟩
  have before (event : Nat) (below : event < life.timers.fresh) (removed : (life.timers.object event).removed = true) :
      (life.timers.object event).oneShot = true ∨ (life.timers.object event).id ∈ shown ++ cancelled act :=
    (marked.marked event below removed).imp id (List.mem_append_left _)
  intro event below removed
  cases step_cases taken with
  | create function delay oneShot =>
      change event < life.timers.fresh + 1 at below
      by_cases same : event = life.timers.fresh
      · subst same
        simp at removed
      · simp only [Timers.insert_object, Function.update_of_ne same] at removed ⊢
        exact before event (by omega) removed
  | cancel posting member =>
      simp only [Timers.setRemoved_oneShot, Timers.setRemoved_id]
      rcases Timers.setRemoved_removed.mp removed with rfl | old
      · exact Or.inr (by simp [cancelled])
      · exact before event below old
  | settle posting timers active settled =>
      have known := marked.sound.activeKnown posting _ active
      rcases Timers.settle_some (marked.sound.identified _ known).1 settled with
        ⟨oneShot, rfl⟩ | ⟨-, -, rfl⟩ | ⟨-, -, rfl⟩
      · simp only [Timers.setRemoved_oneShot, Timers.setRemoved_id]
        rcases Timers.setRemoved_removed.mp removed with rfl | old
        · exact Or.inl oneShot
        · exact before event below old
      · exact before event below removed
      · exact before event below removed
  | _ => exact before event below removed

/-- A live timer is never lost. -/
structure Unlost (life : Life Fn) : Prop where
  sound : life.Sound
  placed : ∀ event < life.timers.fresh, (life.timers.object event).removed = false → 0 < life.held event

/-- An act that takes no place from a live timer loses none. -/
theorem Unlost.keep (unlost : life.Unlost) (taken : life.step act = some next)
    (fresh : next.timers.fresh = life.timers.fresh)
    (places : ∀ event, (next.timers.object event).removed = false → 0 < life.held event → 0 < next.held event) :
    next.Unlost := by
  have keeps := (unlost.sound.keeps taken).2
  refine ⟨unlost.sound.step taken, ?_⟩
  rw [fresh]
  intro event below live
  apply places event live
  apply unlost.placed event below
  by_contra removed
  have marked := (keeps event below).removed (by simpa using removed)
  rw [live] at marked
  cases marked

/-- An act that drops no queued timer loses no live timer. -/
theorem Unlost.step (unlost : life.Unlost) (undropped : act = .clear → life.queue = [])
    (taken : life.step act = some next) : next.Unlost := by
  have sound := unlost.sound
  cases step_cases taken with
  | idle | elapse | miss | cancel => exact unlost.keep taken rfl fun _ _ placed => placed
  | create function delay oneShot =>
      refine ⟨sound.step taken, ?_⟩
      intro event below live
      change event < life.timers.fresh + 1 at below
      simp only [held, pending, Timers.insert_listed]
      by_cases same : event = life.timers.fresh
      · rw [if_pos same.symm]
        omega
      · simp only [Timers.insert_object, Function.update_of_ne same] at live
        have placed := unlost.placed event (by omega) live
        simp only [held, pending, Timers.listed] at placed
        simp only [Timers.listed]
        omega
  | take now posting rest list noHand =>
      apply unlost.keep taken rfl
      intro event live placed
      rwa [held_take list noHand]
  | discard posting hand removed =>
      apply unlost.keep taken rfl
      intro event live placed
      have different : posting.event ≠ event := by
        rintro rfl
        simp [removed] at live
      rw [← held_discard hand, if_neg different] at placed
      exact placed
  | enqueue posting hand =>
      apply unlost.keep taken rfl
      intro event live placed
      rwa [held_enqueue hand]
  | start posting rest noHand noActive queue =>
      apply unlost.keep taken rfl
      intro event live placed
      rwa [held_start noActive queue]
  | skip posting active dead =>
      apply unlost.keep taken rfl
      intro event live placed
      have positive := (sound.identified _ (sound.activeKnown _ _ active)).1
      have different : posting.event ≠ event := by
        rintro rfl
        have removed := dead.resolve_right (by omega)
        simp [removed] at live
      rw [← held_skip active, if_neg different] at placed
      exact placed
  | call posting function active =>
      apply unlost.keep taken rfl
      intro event live placed
      rwa [held_call active (Or.inl rfl)]
  | callMissing posting active =>
      apply unlost.keep taken rfl
      intro event live placed
      rwa [held_call active (Or.inr rfl)]
  | complete posting active =>
      apply unlost.keep taken rfl
      intro event live placed
      simpa [held, pending, active, starting, ongoing] using placed
  | settle posting timers active settled =>
      have below := sound.activeKnown posting _ active
      rcases Timers.settle_some (sound.identified _ below).1 settled with ⟨-, rfl⟩ | ⟨-, removed, rfl⟩ | ⟨-, -, rfl⟩
      · apply unlost.keep taken rfl
        intro event live placed
        have different : posting.event ≠ event := by
          rintro rfl
          have marked : ((life.timers.setRemoved posting.event).object posting.event).removed = true :=
            Timers.setRemoved_removed.mpr (Or.inl rfl)
          simp [marked] at live
        simpa [held, pending, active, starting, ongoing, different, Timers.listed] using placed
      · apply unlost.keep taken rfl
        intro event live placed
        have different : posting.event ≠ event := by
          rintro rfl
          simp [removed] at live
        simpa [held, pending, active, starting, ongoing, different] using placed
      · apply unlost.keep taken rfl
        intro event live placed
        simp only [held, pending, active, starting, ongoing, List.countP_cons, List.countP_nil, decide_eq_true_eq,
          Timers.insert_listed] at placed ⊢
        omega
  | release posting active | abandon posting active =>
      apply unlost.keep taken rfl
      intro event live placed
      simpa [held, pending, active, starting, ongoing] using placed
  | clear noHand noActive =>
      apply unlost.keep taken rfl
      intro event live placed
      simpa [held, pending, undropped rfl] using placed

/-- Until the loop takes timers again, an interval whose call has completed at this time settles,
or is removed, or is listed with a new deadline. -/
structure Rejoins (time : Int) (event : Nat) (life : Life Fn) : Prop where
  sound : life.Sound
  known : event < life.timers.fresh
  interval : (life.timers.object event).oneShot = false
  past : time ≤ life.clock
  place : (∃ posting, life.active = some (posting, .called) ∧ posting.event = event) ∨
    (life.timers.object event).removed = true ∨
    ∃ entry ∈ life.timers.events, entry.event = event ∧
      time + milliseconds (life.timers.object event).delay ≤ entry.deadline

/-- An act that keeps the list and does not settle a timer keeps the interval. -/
theorem Rejoins.keep (rejoins : Rejoins time event life) (taken : life.step act = some next)
    (events : ∀ entry ∈ life.timers.events, entry ∈ next.timers.events)
    (active : ∀ posting, life.active = some (posting, .called) → posting.event = event →
      next.active = some (posting, .called)) : Rejoins time event next := by
  have keeps := (rejoins.sound.keeps taken).2 event rejoins.known
  refine ⟨rejoins.sound.step taken, lt_of_lt_of_le rejoins.known (rejoins.sound.keeps taken).1,
    keeps.oneShot.trans rejoins.interval, rejoins.past.trans (clock_le taken), ?_⟩
  rcases rejoins.place with ⟨posting, called, same⟩ | removed | ⟨entry, member, same, later⟩
  · exact Or.inl ⟨posting, active posting called same, same⟩
  · exact Or.inr (Or.inl (keeps.removed removed))
  · rw [← keeps.delay] at later
    exact Or.inr (Or.inr ⟨entry, events entry member, same, later⟩)

/-- Each act but the taking of a timer keeps the interval. -/
theorem Rejoins.step (rejoins : Rejoins time event life) (untaken : ∀ now, act ≠ .take now)
    (taken : life.step act = some next) : Rejoins time event next := by
  have sound := rejoins.sound
  cases step_cases taken with
  | create function delay oneShot =>
      apply rejoins.keep taken
      · intro entry member
        exact Timers.mem_insert_events.mpr (Or.inl member)
      · exact fun _ active _ => active
  | take now => exact absurd rfl (untaken now)
  | settle posting timers active settled =>
      have below := sound.activeKnown posting _ active
      have keeps := (sound.keeps taken).2 event rejoins.known
      refine ⟨sound.step taken, lt_of_lt_of_le rejoins.known (sound.keeps taken).1,
        keeps.oneShot.trans rejoins.interval, rejoins.past, Or.inr ?_⟩
      rcases rejoins.place with ⟨other, same, chosen⟩ | removed | ⟨entry, member, same, later⟩
      · rw [active] at same
        cases same
        subst chosen
        rcases Timers.settle_some (sound.identified _ below).1 settled with
          ⟨oneShot, rfl⟩ | ⟨-, removed, rfl⟩ | ⟨-, -, rfl⟩
        · simp [rejoins.interval] at oneShot
        · exact Or.inl removed
        · right
          refine ⟨_, Timers.mem_insert_events.mpr (Or.inr rfl), rfl, ?_⟩
          have past := rejoins.past
          simp only [Timers.entry, Timers.insert_object]
          omega
      · exact Or.inl (keeps.removed removed)
      · right
        refine ⟨entry, ?_, same, keeps.delay ▸ later⟩
        rcases Timers.settle_some (sound.identified _ below).1 settled with ⟨-, rfl⟩ | ⟨-, -, rfl⟩ | ⟨-, -, rfl⟩
        · exact member
        · exact member
        · exact Timers.mem_insert_events.mpr (Or.inl member)
  | start posting rest noHand noActive =>
      exact rejoins.keep taken (fun _ member => member) (by simp [noActive])
  | skip posting active | call posting function active | callMissing posting active | complete posting active
  | release posting active | abandon posting active =>
      exact rejoins.keep taken (fun _ member => member) (by simp [active])
  | _ => exact rejoins.keep taken (fun _ member => member) (fun _ active _ => active)

end Life

namespace Machine

variable {Other Runner Fn : Type} {machine final : Machine Other Runner Fn} {label : Label Other Runner Fn}
  {runners : List (Runner × Int)} {labels after : List (Label Other Runner Fn)}

/-- The label asks to cancel the timer with this id. -/
def clears : Label Other Runner Fn → List Int
  | .script (.clearTimeout args) =>
      match requireInt args 0 with
      | .ok id => [id]
      | .error _ => []
  | .thread (.cancelEvent id) => [id]
  | _ => []

theorem clears_eq (machine : Machine Other Runner Fn) (label : Label Other Runner Fn) :
    clears label = Life.cancelled (machine.act label) := by
  have named := act_cases machine label
  generalize machine.act label = act at named
  cases named with
  | clearTimeout args id checked => simp [clears, checked, Life.cancelled]
  | clearRejected args error checked => simp [clears, checked, Life.cancelled]
  | signal signal foreign keeping =>
      cases signal with
      | cancelEvent id => exact absurd rfl (keeping id)
      | _ => rfl
  | _ => rfl

theorem invokes_eq (machine : Machine Other Runner Fn) (label : Label Other Runner Fn) :
    (machine.invokes label).toList = machine.view.called (machine.act label) := by
  have named := act_cases machine label
  generalize machine.act label = act at named
  cases named with
  | invoke timeout posting point =>
      by_cases ready : (machine.world.timers.object posting.event).removed = false ∧
        0 < (machine.world.timers.object posting.event).id <;>
      simp [invokes, point, Life.called, view, Pc.active, Life.starting, ready]
  | quiet unstarted uncalled =>
      simp only [invokes]
      rfl
  | take _ _ _ _ point | dispose _ _ _ _ _ point | start _ _ _ point | settle _ _ _ point | release _ _ point
  | clear point => simp [invokes, point, Life.called]
  | _ => rfl

/-- Only `checkTimeouts`, which runs under `_mutex`, takes a timer from the list. -/
theorem act_untaken (unlocked : machine.pc.holdsMutex = false) (now : Int) : machine.act label ≠ .take now := by
  intro takes
  have named := act_cases machine label
  rw [takes] at named
  cases named with
  | take node timeout now sanity point => simp [point, Pc.holdsMutex] at unlocked

/-- Only the end of `run` drops the queue. -/
theorem act_clear (drops : machine.act label = .clear) : machine.pc = .leaving := by
  have named := act_cases machine label
  rw [drops] at named
  cases named with
  | clear point => exact point

/-- A one-shot timer is called at most once, and a called one waits nowhere. -/
theorem oneShot_called_once (run : Execution.exec step (initial runners) labels = some machine) {event : Nat}
    (known : event < machine.world.timers.fresh) (oneShot : (machine.world.timers.object event).oneShot = true) :
    (Execution.trace step (fun machine label => (machine.invokes label).toList) (initial runners) labels).countP
      (·.event = event) + machine.view.pending event ≤ 1 := by
  have start : (initial runners : Machine Other Runner Fn).view.CalledOnce [] := by
    refine ⟨initial_sound runners, by simp, fun event _ _ => ?_⟩
    rw [Life.pending_eq_countP, initial_waiting]
    simp
  have counted := Execution.trace_invariant (fun _ _ _ _ holds taken => Life.CalledOnce.step holds taken) start
    (life_run (initial_timely runners) run)
  rw [life_trace invokes_eq (initial_timely runners) run]
  exact counted.once event known oneShot

/-- An interval that no call has cleared is not marked. -/
theorem uncleared_live (run : Execution.exec step (initial runners) labels = some machine) {event : Nat}
    (known : event < machine.world.timers.fresh) (interval : (machine.world.timers.object event).oneShot = false)
    (uncleared : (machine.world.timers.object event).id ∉
      Execution.trace step (fun _ label => clears label) (initial runners) labels) :
    (machine.world.timers.object event).removed = false := by
  have start : (initial runners : Machine Other Runner Fn).view.Marked [] := by
    have timers := (initial_world runners : _ ∧ (initial runners : Machine Other Runner Fn).world.timers = _ ∧ _).2.1
    refine ⟨initial_sound runners, ?_⟩
    simp [view, timers, Timers.initial]
  have marked := Execution.trace_invariant (fun _ _ _ _ holds taken => Life.Marked.step holds taken) start
    (life_run (initial_timely runners) run)
  have cleared : Execution.trace step (fun _ label => clears label) (initial runners) labels =
      Execution.trace Life.step (fun _ act => Life.cancelled act) (initial runners).view
        (Execution.acts step act (initial runners : Machine Other Runner Fn) labels) :=
    life_trace clears_eq (initial_timely runners) run
  rw [cleared] at uncleared
  by_contra removed
  rcases marked.marked event known (by simpa [view] using removed) with oneShot | cancelled
  · simp only [view] at oneShot
    rw [interval] at oneShot
    cases oneShot
  · exact uncleared cancelled

/-- Without an exception that leaves `run`, a live timer is in one place. -/
theorem live_held (accepted : ∀ label ∈ labels, label ≠ .ended (some false))
    (run : Execution.exec step (initial runners) labels = some machine) {event : Nat}
    (known : event < machine.world.timers.fresh) (live : (machine.world.timers.object event).removed = false) :
    machine.view.held event = 1 := by
  have kept : ∀ (machine : Machine Other Runner Fn) (label : Label Other Runner Fn) (next : Machine Other Runner Fn),
      machine.Timely ∧ machine.Emptied ∧ machine.view.Unlost → label ≠ .ended (some false) →
      machine.step label = some next → next.Timely ∧ next.Emptied ∧ next.view.Unlost := by
    rintro machine label next ⟨timely, emptied, unlost⟩ allowed taken
    refine ⟨timely.step taken, emptied.step allowed taken, unlost.step ?_ (simulates timely taken)⟩
    intro drops
    exact emptied (by simp [act_clear drops, Pc.resting])
  have start : (initial runners : Machine Other Runner Fn).view.Unlost := by
    have timers := (initial_world runners : _ ∧ (initial runners : Machine Other Runner Fn).world.timers = _ ∧ _).2.1
    refine ⟨initial_sound runners, ?_⟩
    simp [view, timers, Timers.initial]
  have guarded : Execution.Along step (fun _ label => label ≠ .ended (some false))
      (initial runners : Machine Other Runner Fn) labels :=
    Execution.Along.of_forall fun label member _ => accepted label member
  obtain ⟨-, -, unlost⟩ := Execution.exec_invariant_along kept
    ⟨initial_timely runners, initial_emptied runners, start⟩ guarded run
  exact le_antisymm (unlost.sound.once event) (unlost.placed event known live)

/-- Until the loop runners run again, an interval whose call has completed is listed again. -/
theorem interval_relisted (run : Execution.exec step (initial runners) labels = some machine) {timeout : Int}
    {posting : Posting} {success : Bool} (point : machine.pc = .calling timeout posting)
    (interval : (machine.world.timers.object posting.event).oneShot = false)
    (further : Execution.exec step machine (.pcall success :: after) = some final)
    (drained : Execution.Along step (fun machine _ => machine.pc.holdsMutex = false) machine (.pcall success :: after)) :
    Life.Rejoins machine.world.clock posting.event final.view := by
  obtain ⟨timely, sound⟩ := reachable_sound run
  obtain ⟨completed, taken, rest⟩ := Execution.exec_cons_some.mp further
  have active : machine.view.active = some (posting, .calling) := by simp [view, point, Pc.active]
  have start : Life.Rejoins machine.world.clock posting.event completed.view := by
    have simulated := simulates timely taken
    have same : completed.pc = .called timeout posting success ∧ completed.world = machine.world := by
      cases step_cases taken with
      | pcall timeout other success before =>
          rw [point] at before
          cases before
          exact ⟨rfl, rfl⟩
    refine ⟨sound.step simulated, ?_, ?_, ?_, Or.inl ⟨posting, ?_, rfl⟩⟩
    · simpa [view, same.2] using sound.activeKnown _ _ active
    · simpa [view, same.2] using interval
    · simp [view, same.2]
    · simp [view, same.1, Pc.active]
  have kept (time : Int) : ∀ (machine : Machine Other Runner Fn) (label : Label Other Runner Fn)
      (next : Machine Other Runner Fn), machine.Timely ∧ Life.Rejoins time posting.event machine.view →
      machine.pc.holdsMutex = false → machine.step label = some next → next.Timely ∧ Life.Rejoins time posting.event next.view := by
    rintro machine label next ⟨timely, rejoins⟩ unlocked taken
    exact ⟨timely.step taken, rejoins.step (act_untaken unlocked) (simulates timely taken)⟩
  exact (Execution.exec_invariant_along (kept _) ⟨timely.step taken, start⟩ (drained.2 completed taken) rest).2

/-- A one-shot timer is called at most once and then waits nowhere. After each call, an interval that
nobody clears is listed once, with its id and a new deadline, until the runners take it again. It is
never lost. -/
structure RightNumber (runners : List (Runner × Int)) (labels : List (Label Other Runner Fn))
    (machine : Machine Other Runner Fn) : Prop where
  oneShot : ∀ event < machine.world.timers.fresh, (machine.world.timers.object event).oneShot = true →
    let calls := (Execution.trace step (fun machine label => (machine.invokes label).toList) (initial runners)
      labels).countP (·.event = event)
    calls ≤ 1 ∧ (0 < calls → machine.world.timers.listed event = 0 ∧
      ∀ posting, .timeout posting ∈ machine.world.queue → posting.event ≠ event)
  relisted : ∀ timeout posting success after final, machine.pc = .calling timeout posting →
    (machine.world.timers.object posting.event).oneShot = false →
    Execution.exec step machine (.pcall success :: after) = some final →
    Execution.Along step (fun machine _ => machine.pc.holdsMutex = false) machine (.pcall success :: after) →
    (final.world.timers.object posting.event).id ∉
      Execution.trace step (fun _ label => clears label) (initial runners) (labels ++ .pcall success :: after) →
    (∀ timeout other success, final.pc = .called timeout other success → other.event ≠ posting.event) →
      (final.world.timers.object posting.event).id = (machine.world.timers.object posting.event).id ∧
      final.world.timers.listed posting.event = 1 ∧
      (∃ entry ∈ final.world.timers.events, entry.event = posting.event ∧
        machine.world.clock + milliseconds (machine.world.timers.object posting.event).delay ≤ entry.deadline) ∧
      ∀ queued, .timeout queued ∈ final.world.queue → queued.event ≠ posting.event
  kept : ∀ event < machine.world.timers.fresh, (machine.world.timers.object event).oneShot = false →
    (machine.world.timers.object event).id ∉
      Execution.trace step (fun _ label => clears label) (initial runners) labels →
    machine.view.held event = 1

/-- Each run of the loop calls its timers the right number of times. -/
theorem run_rightNumber (accepted : ∀ label ∈ labels, label ≠ .ended (some false))
    (run : Execution.exec step (initial runners) labels = some machine) : machine.RightNumber runners labels := by
  obtain ⟨timely, sound⟩ := reachable_sound run
  refine ⟨?_, ?_, ?_⟩
  · intro event known oneShot calls
    have once := oneShot_called_once run known oneShot
    refine ⟨le_trans (Nat.le_add_right _ _) once, fun called => ?_⟩
    have unplaced : machine.view.pending event = 0 := by omega
    constructor
    · have listed : machine.view.timers.listed event = 0 := by
        unfold Life.pending at unplaced
        omega
      exact listed
    · rintro posting queued rfl
      have counted : 0 < machine.view.queue.countP (·.event = posting.event) := by
        rw [List.countP_pos_iff]
        exact ⟨posting, List.mem_filterMap.mpr ⟨_, queued, rfl⟩, by simp⟩
      unfold Life.pending at unplaced
      omega
  · intro timeout posting success after final point interval further drained uncleared settled
    have whole := Execution.exec_append_some.mpr ⟨machine, run, further⟩
    have rejoins := interval_relisted run point interval further drained
    have active : machine.view.active = some (posting, .calling) := by simp [view, point, Pc.active]
    obtain ⟨known, keeps⟩ := reachable_keeps timely sound further (sound.activeKnown _ _ active)
    have live := uncleared_live whole known (keeps.oneShot.trans interval) uncleared
    obtain ⟨entry, member, same, later⟩ : ∃ entry ∈ final.world.timers.events, entry.event = posting.event ∧
        machine.world.clock + milliseconds (final.world.timers.object posting.event).delay ≤ entry.deadline := by
      rcases rejoins.place with ⟨other, called, same⟩ | removed | listed
      · cases reached : final.pc with
        | called timeout posting success =>
            simp only [view, reached, Pc.active, Option.some.injEq, Prod.mk.injEq, and_true] at called
            exact absurd (called ▸ same) (settled _ _ _ reached)
        | applying timeout event => cases event <;> simp [view, reached, Pc.active] at called
        | releasing timeout event => cases event <;> simp [view, reached, Pc.active] at called
        | _ => simp [view, reached, Pc.active] at called
      · have marked : (final.world.timers.object posting.event).removed = true := removed
        rw [live] at marked
        cases marked
      · exact listed
    obtain ⟨once, unqueued, -⟩ := rejoins.sound.alone (same ▸ Life.held_of_listed member)
    rw [keeps.delay] at later
    refine ⟨keeps.id, once, ⟨entry, member, same, later⟩, ?_⟩
    intro queued inside
    exact unqueued queued (List.mem_filterMap.mpr ⟨_, inside, rfl⟩)
  · intro event known interval uncleared
    exact live_held accepted run known (uncleared_live run known interval uncleared)

end Machine

end Dtel
