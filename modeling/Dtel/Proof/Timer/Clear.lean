import Dtel.Proof.Timer.Refinement

namespace Dtel

namespace Life

variable {Fn : Type} {life next : Life Fn} {act : Act Fn} {event : Nat}

/-- A dead timer is marked, or no call can come from it: it is in no place, and it is not an
interval that would be posted again. -/
structure Dead (life : Life Fn) (event : Nat) : Prop where
  known : event < life.timers.fresh
  marked_or_gone : (life.timers.object event).removed = true ∨
    life.pending event = 0 ∧ ∀ posting ∈ ongoing life.active, posting.event = event →
      (life.timers.object event).oneShot = true

/-- A dead timer stays dead when its object stays and no place gets it. -/
theorem Dead.move (dead : life.Dead event) (object : next.timers.object event = life.timers.object event)
    (fresh : life.timers.fresh ≤ next.timers.fresh)
    (places : next.pending event ≤ life.pending event)
    (calls : ∀ posting ∈ ongoing next.active, posting.event = event →
      posting ∈ ongoing life.active ∨ 0 < life.pending event) :
    next.Dead event := by
  refine ⟨lt_of_lt_of_le dead.known fresh, ?_⟩
  rw [object]
  refine dead.marked_or_gone.imp id fun ⟨unplaced, oneShot⟩ => ⟨Nat.le_zero.mp (unplaced ▸ places), ?_⟩
  intro posting member same
  rcases calls posting member same with old | placed
  · exact oneShot posting old same
  · omega

/-- A mark leaves a dead timer dead. -/
theorem Dead.setRemoved (dead : life.Dead event) (other : Nat) :
    ({ life with timers := life.timers.setRemoved other } : Life Fn).Dead event := by
  refine ⟨dead.known, ?_⟩
  rcases dead.marked_or_gone with marked | ⟨unplaced, oneShot⟩
  · exact Or.inl (Timers.setRemoved_removed.mpr (Or.inr marked))
  · exact Or.inr ⟨unplaced, by simpa using oneShot⟩

/-- No act revives a dead timer. -/
theorem Dead.step (sound : life.Sound) (dead : life.Dead event) (taken : life.step act = some next) :
    next.Dead event := by
  cases step_cases taken with
  | idle => exact dead
  | elapse => exact ⟨dead.known, dead.marked_or_gone⟩
  | create function delay oneShot =>
      have different : life.timers.fresh ≠ event := (ne_of_lt dead.known).symm
      refine dead.move (Function.update_of_ne different.symm _ _) (Nat.le_succ _) ?_
        (fun _ member _ => Or.inl member)
      simp only [pending, Timers.insert_listed, if_neg different]
      exact le_rfl
  | miss => exact dead
  | cancel posting => exact dead.setRemoved posting.event
  | take now posting rest list noHand =>
      exact dead.move rfl le_rfl (pending_take list noHand).le (fun _ member _ => Or.inl member)
  | discard posting hand =>
      exact dead.move rfl le_rfl (Nat.le.intro (pending_discard hand)) (fun _ member _ => Or.inl member)
  | enqueue posting hand =>
      exact dead.move rfl le_rfl (pending_enqueue hand).le (fun _ member _ => Or.inl member)
  | start posting rest noHand noActive queue =>
      exact dead.move rfl le_rfl (pending_start noActive queue).le (fun _ member => by cases member)
  | skip posting active =>
      exact dead.move rfl le_rfl (Nat.le.intro (pending_invoke active (by decide))) (fun _ member => by cases member)
  | call posting function active | callMissing posting active =>
      refine dead.move rfl le_rfl (Nat.le.intro (pending_invoke active (by decide))) ?_
      intro other member same
      cases List.mem_singleton.mp member
      exact Or.inr (same ▸ pending_of_active active)
  | complete posting active =>
      refine dead.move rfl le_rfl ?_ ?_
      · simp only [pending, active, starting, le_refl]
      · intro other member _
        exact Or.inl (by simpa [active, ongoing] using member)
  | settle posting timers active settled =>
      have below := sound.activeKnown posting _ active
      have quiet : ({ life with active := some (posting, .settled) } : Life Fn).Dead event := by
        refine dead.move rfl le_rfl ?_ (fun _ member => by cases member)
        simp only [pending, active, starting, le_refl]
      rcases Timers.settle_some (sound.identified _ below).1 settled with
        ⟨-, rfl⟩ | ⟨-, -, rfl⟩ | ⟨interval, live, rfl⟩
      · exact quiet.setRemoved posting.event
      · exact quiet
      · -- The interval that is posted again is live, so it is not the dead timer.
        have different : posting.event ≠ event := by
          rintro rfl
          rcases dead.marked_or_gone with marked | ⟨-, oneShot⟩
          · simp [live] at marked
          · simp [interval, active, ongoing] at oneShot
        refine quiet.move rfl le_rfl ?_ (fun _ member _ => Or.inl member)
        rw [pending_insert { life with active := some (posting, .settled) }, if_neg different]
        exact le_rfl
  | release posting active | abandon posting active =>
      refine dead.move rfl le_rfl ?_ (fun _ member => by cases member)
      simp only [pending, active, starting, le_refl]
  | clear noHand noActive =>
      refine dead.move rfl le_rfl ?_ (fun _ member _ => Or.inl member)
      simp only [pending, List.countP_nil]
      omega

/-- No run revives a dead timer. -/
theorem Dead.run (sound : life.Sound) (dead : life.Dead event) {acts : List (Act Fn)}
    (run : Execution.exec Life.step life acts = some next) : next.Dead event := by
  have kept : ∀ (life : Life Fn) (act : Act Fn) (next : Life Fn), life.Sound ∧ life.Dead event →
      life.step act = some next → next.Sound ∧ next.Dead event :=
    fun _ _ _ holds taken => ⟨holds.1.step taken, holds.2.step holds.1 taken⟩
  exact (Execution.exec_invariant kept ⟨sound, dead⟩ run).2

/-- A cancellation kills a timer that no queue and no repeated call holds. -/
theorem dead_of_cancel (sound : life.Sound) {id : Int} (known : event < life.timers.fresh)
    (named : (life.timers.object event).id = id) (noHand : life.hand = none)
    (unqueued : ∀ posting ∈ life.queue, posting.event ≠ event) (unstarted : starting life.active = [])
    (oneShot : ∀ posting ∈ ongoing life.active, posting.event = event →
      (life.timers.object event).oneShot = true) :
    ({ life with timers := (life.timers.cancelEvent id).2 } : Life Fn).Dead event := by
  rcases Timers.cancelEvent_cases life.timers id with ⟨same, absent⟩ | ⟨posting, member, equal, same⟩
  · rw [same]
    refine ⟨known, Or.inr ⟨?_, oneShot⟩⟩
    have unlisted : life.timers.listed event = 0 := by
      rw [Timers.listed, List.countP_eq_zero]
      intro posting member
      have other := absent posting member
      simp only [decide_eq_true_eq]
      rintro rfl
      exact other named
    have unqueuedCount : life.queue.countP (·.event = event) = 0 := by
      simpa [List.countP_eq_zero] using unqueued
    simp [pending, unlisted, unqueuedCount, noHand, unstarted]
  · rw [same]
    have chosen : posting.event = event :=
      sound.distinct _ (sound.listedKnown member) _ known (equal.trans named.symm)
    exact ⟨known, Or.inl (Timers.setRemoved_removed.mpr (Or.inl chosen.symm))⟩

end Life

namespace Machine

variable {Other Runner Fn : Type} {machine next : Machine Other Runner Fn} {label : Label Other Runner Fn}

/-- A script call of `setTimeout` or `setInterval` returns this id. -/
def returnedId (machine : Machine Other Runner Fn) : Label Other Runner Fn → List Int
  | .script (.setTimeout args oneShot) =>
      match machine.world.setTimeoutBase args oneShot with
      | some (.ok id, _) => [id]
      | _ => []
  | _ => []

/-- The timer with this id does not wait in the loop queue, and it is not an interval that runs
its own function. -/
def Clearable (machine : Machine Other Runner Fn) (id : Int) : Prop :=
  (∀ posting, Event.timeout posting ∈ machine.world.queue → (machine.world.timers.object posting.event).id ≠ id) ∧
    ∀ timeout posting, machine.pc = .calling timeout posting →
      (machine.world.timers.object posting.event).id = id →
        (machine.world.timers.object posting.event).oneShot = true

/-- A call that returns an id has created the timer with this id. -/
theorem returnedId_known {id : Int} (taken : machine.step label = some next)
    (returned : id ∈ machine.returnedId label) :
    machine.world.timers.fresh < next.world.timers.fresh ∧
      (next.world.timers.object machine.world.timers.fresh).id = id := by
  cases step_cases taken with
  | script call world point performed =>
      cases perform_cases performed with
      | setTimeout args oneShot function delay newid timers checked posted =>
          obtain ⟨-, -, rfl⟩ := Timers.postNew_some posted
          simp [returnedId, World.setTimeoutBase, checked, World.postTimeout, posted] at returned
          subst returned
          obtain ⟨-, rfl, -⟩ := Timers.postNew_some posted
          exact ⟨Nat.lt_succ_self _, by simp⟩
      | rejected args oneShot error checked =>
          simp [returnedId, World.setTimeoutBase, checked] at returned
      | _ => cases returned
  | _ => cases returned

/-- Every id of the list names a timer of a sound machine. -/
structure KnownIds (machine : Machine Other Runner Fn) (ids : List Int) : Prop where
  timely : machine.Timely
  sound : machine.view.Sound
  known : ∀ id ∈ ids, ∃ event < machine.world.timers.fresh, (machine.world.timers.object event).id = id

theorem KnownIds.step {ids : List Int} (holds : machine.KnownIds ids) (taken : machine.step label = some next) :
    next.KnownIds (ids ++ machine.returnedId label) := by
  have simulated := simulates holds.timely taken
  refine ⟨holds.timely.step taken, holds.sound.step simulated, fun id member => ?_⟩
  rcases List.mem_append.mp member with old | new
  · obtain ⟨event, below, named⟩ := holds.known id old
    obtain ⟨grown, keeps⟩ := holds.sound.keeps simulated
    exact ⟨event, lt_of_lt_of_le below grown, (keeps event below).id.trans named⟩
  · exact ⟨_, returnedId_known taken new⟩

/-- Every returned id names a timer. -/
theorem returned_known {runners : List (Runner × Int)} {labels : List (Label Other Runner Fn)} {id : Int}
    (run : Execution.exec step (initial runners) labels = some machine)
    (returned : id ∈ Execution.trace step returnedId (initial runners) labels) :
    ∃ event < machine.world.timers.fresh, (machine.world.timers.object event).id = id := by
  have start : (initial runners : Machine Other Runner Fn).KnownIds [] :=
    ⟨initial_timely runners, initial_sound runners, by simp⟩
  have final := Execution.trace_invariant (fun _ _ _ _ holds taken => KnownIds.step holds taken) start run
  exact final.known id returned

/-- After a clear call that finds its timer listed or finished, no later step calls the timer. -/
theorem cleared_timer_stays_silent {runners : List (Runner × Int)} {before after : List (Label Other Runner Fn)}
    {args : List (JsValue Fn)} {id : Int} {final : Machine Other Runner Fn} {posting : Posting}
    (returned : id ∈ Execution.trace step returnedId (initial runners) before)
    (reached : Execution.exec step (initial runners) before = some machine)
    (checked : requireInt args 0 = .ok id) (clearable : machine.Clearable id)
    (run : Execution.exec step (initial runners) (before ++ .script (.clearTimeout args) :: after) = some final)
    (invoked : final.invokes label = some posting) :
    (final.world.timers.object posting.event).id ≠ id := by
  obtain ⟨timely, sound⟩ := reachable_sound reached
  obtain ⟨event, known, named⟩ := returned_known reached returned
  obtain ⟨middle, same, rest⟩ := Execution.exec_append_some.mp run
  cases reached.symm.trans same
  obtain ⟨cleared, taken, rest⟩ := Execution.exec_cons_some.mp rest
  have scripting : machine.pc.scripting = true := by
    cases step_cases taken with
    | script call world point performed => exact point
  have act : machine.act (.script (.clearTimeout args)) = .cancel id := by simp [act, callAct, checked]
  have simulated := simulates timely taken
  rw [act] at simulated
  -- At a scripting point no timer is in the hand or about to start.
  have dead : cleared.view.Dead event := by
    rw [← Option.some.inj simulated]
    apply Life.dead_of_cancel sound known named
    · simp only [view]
      cases point : machine.pc <;> simp_all [Pc.scripting, Pc.hand]
    · intro other member equal
      obtain ⟨queued, member, isTimer⟩ := List.mem_filterMap.mp member
      cases queued with
      | timeout queued =>
          cases isTimer
          exact clearable.1 other member (equal ▸ named)
      | other => cases isTimer
    · simp only [view]
      cases point : machine.pc with
      | applying timeout event => cases event <;> simp_all [Pc.scripting, Pc.active, Life.starting]
      | releasing timeout event => cases event <;> simp_all [Pc.active, Life.starting]
      | _ => simp [Pc.active, Life.starting]
    · intro other member equal
      simp only [view] at member
      cases point : machine.pc with
      | calling timeout called =>
          simp only [point, Pc.active, Life.ongoing, List.mem_singleton] at member
          subst member
          exact equal ▸ clearable.2 timeout other point (equal ▸ named)
      | called timeout called success => simp [point, Pc.scripting] at scripting
      | applying timeout event => cases event <;> simp_all [Pc.active, Life.ongoing]
      | releasing timeout event => cases event <;> simp_all [Pc.active, Life.ongoing]
      | _ => simp [point, Pc.active, Life.ongoing] at member
  have soundAfter := sound.step simulated
  have timelyAfter := timely.step taken
  have deadFinal := dead.run soundAfter (life_run timelyAfter rest)
  have soundFinal := soundAfter.run (life_run timelyAfter rest)
  obtain ⟨active, live, -⟩ := invokes_some invoked
  obtain ⟨-, keeps⟩ := reachable_keeps timely sound (Execution.exec_cons_some.mpr ⟨_, taken, rest⟩) known
  intro equal
  have chosen : posting.event = event :=
    soundFinal.distinct _ (soundFinal.activeKnown _ _ active) _ deadFinal.known
      (equal.trans (named.symm.trans keeps.id.symm))
  rcases deadFinal.marked_or_gone with marked | ⟨unplaced, -⟩
  · rw [← chosen] at marked
    exact absurd marked (by simp [view, live])
  · have placed := Life.pending_of_active active
    rw [chosen] at placed
    omega

/-- A script sets two timers and clears the second, and the loop then calls the first. -/
theorem cleared_timer_stays_silent_here : ∃ (final : Machine Unit Unit Nat) (posting : Posting),
    Execution.exec step (initial []) ([.set 7 0 true, .set 8 0 true] ++ .clear 2 :: .tick 1 :: .run :: Label.nexts 18) =
      some final ∧ final.invokes .next = some posting ∧ (final.world.timers.object posting.event).id ≠ 2 := by
  have reached : (Execution.exec step (initial [])
      ([.set 7 0 true, .set 8 0 true] : List (Label Unit Unit Nat))).map
        (fun machine => (machine.world.queue, machine.pc)) = some ([], .outside) := by decide
  have fires : (Execution.exec step (initial [])
      ([.set 7 0 true, .set 8 0 true] ++ .clear 2 :: .tick 1 :: .run :: Label.nexts 18 :
        List (Label Unit Unit Nat))).bind (fun final => final.invokes .next) = some ⟨0, 0, 0⟩ := by decide
  obtain ⟨machine, reached, same⟩ := Option.map_eq_some_iff.mp reached
  obtain ⟨final, run, invoked⟩ := Option.bind_eq_some_iff.mp fires
  have clearable : machine.Clearable 2 := by
    have queue : machine.world.queue = [] := congrArg Prod.fst same
    have point : machine.pc = .outside := congrArg Prod.snd same
    exact ⟨by simp [queue], by simp [point]⟩
  have checked : requireInt ([.number 2] : List (JsValue Nat)) 0 = .ok 2 := rfl
  exact ⟨final, _, run, invoked, cleared_timer_stays_silent (by decide) reached checked clearable run invoked⟩

/-- Two timers expire in the same pass, and the first one clears the second. -/
theorem cleared_queued_timer_fires :
    ¬∀ (before after : List (Label Unit Unit Nat)) (args : List (JsValue Nat)) (id : Int)
      (final : Machine Unit Unit Nat) (posting : Posting),
      id ∈ Execution.trace step returnedId (initial []) before → requireInt args 0 = .ok id →
      Execution.exec step (initial []) (before ++ .script (.clearTimeout args) :: after) = some final →
      final.invokes .next = some posting → (final.world.timers.object posting.event).id ≠ id := by
  intro claim
  have fires : (Execution.exec step (initial [])
      ([.set 7 0 true, .set 8 0 true, .tick 1, .run] ++ Label.nexts 19 ++ .clear 2 :: .pcall true :: Label.nexts 3 :
        List (Label Unit Unit Nat))).bind (fun final => (final.invokes .next).map fun posting =>
          (final.world.timers.object posting.event).id) = some 2 := by decide
  obtain ⟨final, run, fires⟩ := Option.bind_eq_some_iff.mp fires
  obtain ⟨posting, invoked, same⟩ := Option.map_eq_some_iff.mp fires
  exact claim _ _ _ 2 final posting (by decide) rfl run invoked same

end Machine

end Dtel
