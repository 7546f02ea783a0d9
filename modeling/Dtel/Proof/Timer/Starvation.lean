import Dtel.Construction.Timer.Check
import Dtel.Proof.Timer.Waiting

namespace Dtel

variable {Other Runner Fn : Type}

/-- In a call of `checkTimeouts`, this is the time that it read, its counter, and the event that it took. -/
def Pc.call : Pc Other → Option (Int × Nat × Option Posting)
  | .checking _ _ now sanity taken => some (now, sanity, taken)
  | _ => none

/-- The present call of `checkTimeouts` has made this number of iterations. -/
def Pc.iterations (pc : Pc Other) : Nat :=
  match pc.call with
  | some (_, sanity, _) => maxExpirys - sanity
  | none => 0

namespace Machine

variable {machine next final : Machine Other Runner Fn} {label : Label Other Runner Fn}
  {runners : List (Runner × Int)} {labels after : List (Label Other Runner Fn)} {posting : Posting} {rank : Nat}
  {shown : List Report}

/-- The step of `checkTimeouts` does this. -/
def reports (machine : Machine Other Runner Fn) : Label Other Runner Fn → List Report
  | .next =>
      match machine.pc.call with
      | some (_, _, some posting) =>
          if (machine.world.timers.object posting.event).removed then [.released posting] else [.posted posting]
      | some (_, 0, none) => [.returned]
      | _ => []
  | _ => []

/-- This relation lists what one step can do to a call of `checkTimeouts` and to the list. -/
inductive CheckStep (machine : Machine Other Runner Fn) (label : Label Other Runner Fn)
    (next : Machine Other Runner Fn) : Prop where
  | same (call : next.pc.call = machine.pc.call) (silent : machine.reports label = [])
      (events : next.world.timers.events = machine.world.timers.events)
  | posted (new : Posting) (call : next.pc.call = machine.pc.call) (silent : machine.reports label = [])
      (events : next.world.timers.events = StableSort.sortBy Posting.deadline (machine.world.timers.events ++ [new]))
      (recorded : (new, machine.world.clock) ∈ machine.posts label)
  | begins (idle : machine.pc.call = none) (call : next.pc.call = some (machine.world.clock, maxExpirys, none))
      (silent : machine.reports label = []) (events : next.world.timers.events = machine.world.timers.events)
  | takes (now : Int) (sanity : Nat) (first : Posting) (before : machine.pc.call = some (now, sanity + 1, none))
      (call : next.pc.call = some (now, sanity, some first)) (silent : machine.reports label = [])
      (events : machine.world.timers.events = first :: next.world.timers.events)
  | fails (now : Int) (sanity : Nat) (before : machine.pc.call = some (now, sanity + 1, none))
      (call : next.pc.call = some (now, sanity, none)) (silent : machine.reports label = [])
      (events : next.world.timers.events = machine.world.timers.events)
      (undue : machine.world.timers.takeFirst now = none)
  | disposes (now : Int) (sanity : Nat) (taken : Posting)
      (before : machine.pc.call = some (now, sanity, some taken)) (call : next.pc.call = some (now, sanity, none))
      (shows : machine.reports label = [.posted taken] ∨ machine.reports label = [.released taken])
      (events : next.world.timers.events = machine.world.timers.events)
  | returns (now : Int) (before : machine.pc.call = some (now, 0, none)) (call : next.pc.call = none)
      (shows : machine.reports label = [.returned])
      (events : next.world.timers.events = machine.world.timers.events)

/-- A step that inserts a posting records it. -/
theorem mem_posts_of_insert {base : Timers} {event : Nat} (taken : machine.step label = some next)
    (posts : base.posts = machine.world.timers.posts)
    (inserted : next.world.timers = base.insert machine.world.clock event) :
    (base.entry machine.world.clock event, machine.world.clock) ∈ machine.posts label := by
  apply mem_posts taken
  have member : base.entry machine.world.clock event ∈ next.world.timers.events := by simp [inserted]
  refine ⟨member, posts, ?_⟩
  change _ = machine.world.clock + milliseconds (next.world.timers.object event).delay
  rw [inserted, Timers.insert_object]
  rfl

theorem notified_call : machine.notified.pc.call = machine.pc.call := by
  unfold notified
  split
  case h_1 timeout point => simp [point, Pc.call]
  case h_2 => rfl

/-- Each step is one of the listed ones. -/
theorem checkStep_cases (sound : machine.view.Sound) (taken : machine.step label = some next) :
    CheckStep machine label next := by
  have step := step_cases taken
  cases step with
  | check node timeout point runner =>
      exact .begins (by simp [point, Pc.call]) rfl (by simp [reports, point, Pc.call]) rfl
  | take node timeout now sanity first timers point removed =>
      refine .takes now sanity first (by simp [point, Pc.call]) rfl (by simp [reports, point, Pc.call]) ?_
      exact (Timers.takeFirst_some removed).1
  | takeNone node timeout now sanity point undue =>
      exact .fails now sanity (by simp [point, Pc.call]) rfl (by simp [reports, point, Pc.call]) rfl undue
  | dispose node timeout now sanity first point =>
      refine .disposes now sanity first (by simp [point, Pc.call]) rfl ?_ ?_
      · by_cases removed : (machine.world.timers.object first.event).removed = true
        · exact Or.inr (by simp [reports, point, Pc.call, removed])
        · exact Or.inl (by simp [reports, point, Pc.call, removed])
      · unfold World.dispose
        split <;> rfl
  | checked node timeout now point =>
      exact .returns now (by simp [point, Pc.call]) rfl (by simp [reports, point, Pc.call]) rfl
  | settle timeout posting success timers point settled =>
      have call : (if success then Pc.releasing timeout (.timeout posting) else
          (.throwing timeout posting : Pc Other)).call = machine.pc.call := by
        cases success <;> simp [point, Pc.call]
      have silent : machine.reports .next = [] := by simp [reports, point, Pc.call]
      have active : machine.view.active = some (posting, .called) := by simp [view, point, Pc.active]
      have identified := (sound.identified _ (sound.activeKnown _ _ active)).1
      rcases Timers.settle_some identified settled with ⟨-, rfl⟩ | ⟨-, -, rfl⟩ | ⟨-, -, rfl⟩
      · exact .same call silent rfl
      · exact .same call silent rfl
      · exact .posted _ call silent Timers.insert_events (mem_posts_of_insert taken rfl rfl)
  | script call world point performed =>
      cases perform_cases performed with
      | setTimeout args oneShot function delay id timers checked posted =>
          obtain ⟨-, -, rfl⟩ := Timers.postNew_some posted
          exact .posted _ rfl rfl Timers.insert_events (mem_posts_of_insert taken rfl rfl)
      | clearTimeout args id checked =>
          refine .same rfl rfl ?_
          rcases Timers.cancelEvent_cases machine.world.timers id with ⟨same, -⟩ | ⟨_, _, _, same⟩ <;> simp [same]
      | _ => exact .same rfl rfl rfl
  | postTimeout delay oneShot id timers posted =>
      obtain ⟨-, -, rfl⟩ := Timers.postNew_some posted
      exact .posted _ rfl rfl Timers.insert_events (mem_posts_of_insert taken rfl rfl)
  | cancelEvent id =>
      refine .same rfl rfl ?_
      rcases Timers.cancelEvent_cases machine.world.timers id with ⟨same, -⟩ | ⟨_, _, _, same⟩ <;> simp [same]
  | notifyPushed pushed => exact .same notified_call rfl (by simp)
  | notify => exact .same notified_call rfl (by simp)
  | run point | enter point | leaveLoop point | pass point | endRunners _ point | callRunner _ _ _ point
  | call _ _ _ point | callMissing _ _ point | skip _ _ point | release _ _ point | drain _ _ _ point
  | drainEmpty _ point | lock _ point | leave point | pcall _ _ _ point | looped _ _ _ point | runnerThrew _ _ point
  | applied _ _ _ point | applyThrew _ _ point | threw _ _ point | rethrew _ _ point | released _ _ _ point
  | releaseThrew _ _ point | wake _ point =>
      exact .same (by simp [point, Pc.call]) (by simp [reports, point, Pc.call]) rfl
  | _ => exact .same rfl rfl rfl

/-- The posting has so many entries ahead of it that the calls to come will reach it in time, or the
present call has it in hand, or it has left the list for good. -/
inductive Progress (posting : Posting) (rank : Nat) (machine : Machine Other Runner Fn) (shown : List Report) :
    Prop where
  | listed (front back : List Posting) (list : machine.world.timers.events = front ++ posting :: back)
      (past : posting.deadline < machine.world.clock)
      (due : ∀ now sanity taken, machine.pc.call = some (now, sanity, taken) → posting.deadline < now)
      (bound : front.length + machine.pc.iterations + maxExpirys * shown.count .returned ≤ rank)
  | inHand (now : Int) (sanity : Nat) (call : machine.pc.call = some (now, sanity, some posting))
      (gone : posting ∉ machine.world.timers.events) (bound : maxExpirys * shown.count .returned ≤ rank)
  | left (gone : posting ∉ machine.world.timers.events)
      (reported : .posted posting ∈ shown ∨ .released posting ∈ shown)

theorem iterations_congr (call : next.pc.call = machine.pc.call) : next.pc.iterations = machine.pc.iterations := by
  unfold Pc.iterations
  rw [call]

/-- A recorded posting has a new number. -/
theorem posts_order {time : Int} (recorded : (posting, time) ∈ machine.posts label) :
    machine.world.timers.posts ≤ posting.order := by
  unfold posts at recorded
  split at recorded
  case h_1 next taken =>
      obtain ⟨entry, member, same⟩ := List.mem_map.mp recorded
      cases same
      simpa using (List.mem_filter.mp member).2
  case h_2 => cases recorded

/-- A step that leaves the call and the entries ahead alone keeps the progress. -/
theorem Progress.same (progress : Progress posting rank machine shown) (call : next.pc.call = machine.pc.call)
    (clock : machine.world.clock ≤ next.world.clock)
    (kept : ∀ front back, machine.world.timers.events = front ++ posting :: back →
      posting.deadline < machine.world.clock → ∃ rest, next.world.timers.events = front ++ posting :: rest)
    (gone : posting ∉ machine.world.timers.events → posting ∉ next.world.timers.events) :
    Progress posting rank next shown := by
  cases progress with
  | listed front back list past due bound =>
      obtain ⟨rest, events⟩ := kept front back list past
      refine .listed front rest events (lt_of_lt_of_le past clock) ?_ ?_
      · rw [call]
        exact due
      · rw [iterations_congr call]
        exact bound
  | inHand now sanity hand out bound => exact .inHand now sanity (call.trans hand) (gone out) bound
  | left out reported => exact .left (gone out) reported

/-- The call takes the first entry. It is the posting, or one that was ahead of it. -/
theorem Progress.take {now : Int} {sanity : Nat} {first : Posting} (progress : Progress posting rank machine shown)
    (sorted : machine.world.timers.events.Pairwise Posting.Before) (clock : machine.world.clock ≤ next.world.clock)
    (before : machine.pc.call = some (now, sanity + 1, none)) (call : next.pc.call = some (now, sanity, some first))
    (events : machine.world.timers.events = first :: next.world.timers.events) : Progress posting rank next shown := by
  cases progress with
  | listed front back list past due bound =>
      have whole := events.symm.trans list
      simp only [Pc.iterations, before] at bound
      cases front with
      | nil =>
          obtain ⟨rfl, rest⟩ := List.cons.inj whole
          refine .inHand now sanity call ?_ (by omega)
          rw [events] at sorted
          intro again
          have self := (List.pairwise_cons.mp sorted).1 first again
          exact self.asymm self
      | cons head front =>
          obtain ⟨rfl, rest⟩ := List.cons.inj whole
          refine .listed front back rest (lt_of_lt_of_le past clock) ?_ ?_
          · intro later sanity taken same
            cases call.symm.trans same
            exact due _ _ _ before
          · simp only [Pc.iterations, call]
            rw [List.length_cons] at bound
            omega
  | inHand now sanity hand => cases before.symm.trans hand
  | left gone reported =>
      rw [events, List.mem_cons, not_or] at gone
      exact .left gone.2 reported

/-- Each step makes progress, when it posts no timer with a negative delay. -/
theorem Progress.step (progress : Progress posting rank machine shown) (sound : machine.view.Sound)
    (numbered : posting.order < machine.world.timers.posts)
    (later : ∀ entry ∈ machine.posts label, entry.2 ≤ entry.1.deadline)
    (taken : machine.step label = some next) : Progress posting rank next (shown ++ machine.reports label) := by
  have clock := step_clock taken
  have sorted : machine.world.timers.events.Pairwise Posting.Before := sound.ordered.sorted
  cases checkStep_cases sound taken with
  | same call silent events =>
      rw [silent, List.append_nil]
      refine progress.same call clock ?_ ?_
      · exact fun front back list _ => ⟨back, events.trans list⟩
      · rw [events]
        exact id
  | posted new call silent events recorded =>
      rw [silent, List.append_nil]
      refine progress.same call clock ?_ ?_
      · -- The new entry is not yet due, and the posting is past its deadline.
        intro front back list past
        have behind : posting.deadline ≤ new.deadline := past.le.trans (later _ recorded)
        rw [list] at sorted
        rw [events, list]
        exact StableSort.sortBy_concat_behind (sorted.imp fun before => before.deadline_le) behind
      · rw [events, StableSort.mem_sortBy, List.mem_append, List.mem_singleton]
        rintro out (old | rfl)
        · exact out old
        · exact absurd (posts_order recorded) (not_le.mpr numbered)
  | begins idle call silent events =>
      rw [silent, List.append_nil]
      cases progress with
      | listed front back list past due bound =>
          refine .listed front back (events.trans list) (lt_of_lt_of_le past clock) ?_ ?_
          · intro now sanity taken same
            cases call.symm.trans same
            exact past
          · simp only [Pc.iterations, idle, call] at bound ⊢
            omega
      | inHand now sanity hand => cases idle.symm.trans hand
      | left gone reported => exact .left (events ▸ gone) reported
  | takes now sanity first before call silent events =>
      rw [silent, List.append_nil]
      exact progress.take sorted clock before call events
  | fails now sanity before call silent events undue =>
      rw [silent, List.append_nil]
      cases progress with
      | listed front back list past due bound =>
          have member : posting ∈ machine.world.timers.events := by simp [list]
          have some := Timers.takeFirst_isSome sorted member (due _ _ _ before)
          rw [undue] at some
          cases some
      | inHand now sanity hand => cases before.symm.trans hand
      | left gone reported => exact .left (events ▸ gone) reported
  | disposes now sanity first before call shows events =>
      have quiet : (shown ++ machine.reports label).count .returned = shown.count .returned := by
        rcases shows with posted | released
        · simp [posted]
        · simp [released]
      cases progress with
      | listed front back list past due bound =>
          refine .listed front back (events.trans list) (lt_of_lt_of_le past clock) ?_ ?_
          · intro later sanity taken same
            cases call.symm.trans same
            exact due _ _ _ before
          · rw [quiet]
            simp only [Pc.iterations, before, call] at bound ⊢
            exact bound
      | inHand later sanity hand gone bound =>
          cases before.symm.trans hand
          refine .left (events ▸ gone) ?_
          rcases shows with posted | released
          · exact Or.inl (by simp [posted])
          · exact Or.inr (by simp [released])
      | left gone reported =>
          exact .left (events ▸ gone) (reported.imp (List.mem_append_left _) (List.mem_append_left _))
  | returns now before call shows events =>
      have counted : (shown ++ machine.reports label).count .returned = shown.count .returned + 1 := by simp [shows]
      cases progress with
      | listed front back list past due bound =>
          refine .listed front back (events.trans list) (lt_of_lt_of_le past clock) ?_ ?_
          · intro later sanity taken same
            cases call.symm.trans same
          · rw [counted, Nat.mul_succ]
            simp only [Pc.iterations, before, call] at bound ⊢
            omega
      | inHand later sanity hand => cases before.symm.trans hand
      | left gone reported =>
          exact .left (events ▸ gone) (reported.imp (List.mem_append_left _) (List.mem_append_left _))

/-- A reachable machine with its progress. -/
structure Advancing (posting : Posting) (rank : Nat) (machine : Machine Other Runner Fn) (shown : List Report) :
    Prop where
  timely : machine.Timely
  sound : machine.view.Sound
  numbered : posting.order < machine.world.timers.posts
  progress : Progress posting rank machine shown

theorem Advancing.step (advancing : Advancing posting rank machine shown)
    (later : ∀ entry ∈ machine.posts label, entry.2 ≤ entry.1.deadline)
    (taken : machine.step label = some next) : Advancing posting rank next (shown ++ machine.reports label) := by
  have simulated := simulates advancing.timely taken
  exact {
    timely := advancing.timely.step taken
    sound := advancing.sound.step simulated
    numbered := lt_of_lt_of_le advancing.numbered (Life.posts_le advancing.sound simulated)
    progress := advancing.progress.step advancing.sound advancing.numbered later taken }

/-- When a call of `checkTimeouts` starts after the deadline of a timer, the timer leaves the list for the loop,
or is released, before the call returns whose number is that of its batch of ten. The calls are counted from
this moment, at which no call is under way. -/
theorem expired_timer_leaves_list {front back : List Posting}
    (run : Execution.exec step (initial runners) labels = some machine) (idle : machine.pc.call = none)
    (list : machine.world.timers.events = front ++ posting :: back) (past : posting.deadline < machine.world.clock)
    (further : Execution.exec step machine after = some final)
    (later : Execution.Along step
      (fun machine label => ∀ entry ∈ machine.posts label, entry.2 ≤ entry.1.deadline) machine after)
    (calls : front.length / 10 + 1 ≤ (Execution.trace step reports machine after).count .returned) :
    posting ∉ final.world.timers.events ∧
      (.posted posting ∈ Execution.trace step reports machine after ∨
        .released posting ∈ Execution.trace step reports machine after) := by
  obtain ⟨timely, sound⟩ := reachable_sound run
  have start : Advancing posting front.length machine [] := by
    refine ⟨timely, sound, sound.ordered.numbered posting ?_, ?_⟩
    · change posting ∈ machine.world.timers.events
      simp [list]
    · refine .listed front back list past ?_ ?_
      · simp [idle]
      · simp [Pc.iterations, idle]
  have reached : Advancing posting front.length final ([] ++ Execution.trace step reports machine after) :=
    Execution.trace_invariant_along (fun _ _ _ _ holds later taken => Advancing.step holds later taken)
      start later further
  rw [List.nil_append] at reached
  cases reached.progress with
  | listed first rest list past due bound =>
      unfold maxExpirys at bound
      omega
  | inHand now sanity call gone bound =>
      unfold maxExpirys at bound
      omega
  | left gone reported => exact ⟨gone, reported⟩

/-- A script sets eleven timers with one deadline, and the loop is about to call `checkTimeouts`. -/
def crowdedRun : List (Label Unit Unit Nat) :=
  List.replicate 11 (.set 0 0 true) ++ [.tick 1, .run] ++ Label.nexts 2

/-- The first call posts ten timers, which the loop applies. It wakes up and makes the second call. -/
def crowdedPasses : List (Label Unit Unit Nat) :=
  Label.nexts 24 ++ (List.replicate 10 (.next :: .pcall true :: Label.nexts 3)).flatten ++
    .next :: .wake :: Label.nexts 14

theorem expired_timer_leaves_list_here : ∃ machine final : Machine Unit Unit Nat,
    Execution.exec step (initial []) crowdedRun = some machine ∧
    Execution.exec step machine crowdedPasses = some final ∧ ⟨0, 10, 10⟩ ∉ final.world.timers.events := by
  have starts : (Execution.exec step (initial []) crowdedRun).map (fun machine =>
      (machine.pc.call, machine.world.timers.events, machine.world.clock)) =
        some (none, (List.range 10).map (fun event => ⟨0, event, event⟩) ++ [⟨0, 10, 10⟩], 1) := by decide
  obtain ⟨machine, run, seen⟩ := Option.map_eq_some_iff.mp starts
  simp only [Prod.mk.injEq] at seen
  obtain ⟨idle, list, clock⟩ := seen
  have runs : (Execution.exec step (initial []) crowdedRun).map (fun machine =>
      ((Execution.exec step machine crowdedPasses).isSome,
        (Execution.trace step reports machine crowdedPasses).count .returned,
        decide (Execution.Along step
          (fun machine label => ∀ entry ∈ machine.posts label, entry.2 ≤ entry.1.deadline) machine crowdedPasses))) =
        some (true, 2, true) := by decide +kernel
  rw [run] at runs
  simp only [Option.map_some, Option.some.injEq, Prod.mk.injEq, decide_eq_true_eq] at runs
  obtain ⟨further, calls, later⟩ := runs
  obtain ⟨final, further⟩ := Option.isSome_iff_exists.mp further
  refine ⟨machine, final, run, further, ?_⟩
  exact (expired_timer_leaves_list run idle list (by rw [clock]; decide) further later (by rw [calls]; decide)).1

end Machine

end Dtel
