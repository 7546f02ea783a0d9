import Dtel.Construction.Timer.Registrations
import Dtel.Proof.Timer.Table

namespace Dtel

namespace Registrations

variable {Fn : Type}

/-- The script makes this timer of the last registration for this function. -/
def creates (all : Registrations Fn) : RegistrationLabel Fn → List ((Nat × Nat) × Fn)
  | .setTimeout args _ =>
      match setTimeoutArguments args, all.registered[all.registered.length - 1]? with
      | .ok (function, _), some registration =>
          [((all.registered.length - 1, registration.timers.fresh), function)]
      | _, _ => []
  | _ => []

/-- No other registration has a timer with the id that the new timer gets. -/
def Separate (all : Registrations Fn) : RegistrationLabel Fn → Prop
  | .setTimeout _ _ => ∀ last ∈ all.registered.getLast?, ∀ other ∈ all.registered.dropLast,
      ∀ event < other.timers.fresh, 0 < (all.life other).present event →
        (other.timers.object event).id ≠ last.timers.lastId + 1
  | _ => True

instance (all : Registrations Fn) (label : RegistrationLabel Fn) : Decidable (all.Separate label) := by
  cases label <;> unfold Separate <;> infer_instance

end Registrations

namespace Life

variable {Fn : Type} {life next : Life Fn} {act : Act Fn} {event : Nat}

/-- Only a new timer comes to be present. -/
theorem present_step (sound : life.Sound) (taken : life.step act = some next) (known : event < life.timers.fresh)
    (placed : 0 < next.present event) : 0 < life.present event := by
  cases step_cases taken with
  | idle | elapse | miss | cancel => exact placed
  | create function delay oneShot =>
      simp only [present, held, pending, Timers.insert_listed, if_neg (ne_of_gt known)] at placed
      simp only [present, held, pending, Timers.listed] at placed ⊢
      omega
  | take now posting rest list noHand => rwa [present_take list noHand] at placed
  | discard posting hand =>
      rw [← present_discard hand]
      exact Nat.lt_of_lt_of_le placed (Nat.le_add_right _ _)
  | enqueue posting hand => rwa [present_enqueue hand] at placed
  | start posting rest noHand noActive queue => rwa [present_start noActive queue] at placed
  | skip posting active => rwa [present_skip active] at placed
  | call posting function active => rwa [present_call active (Or.inl rfl)] at placed
  | callMissing posting active => rwa [present_call active (Or.inr rfl)] at placed
  | complete posting active => rwa [present_complete active] at placed
  | settle posting timers active success =>
      have below := sound.activeKnown posting _ active
      rw [← present_settle active]
      rcases Timers.settle_some (sound.identified _ below).1 success with ⟨-, rfl⟩ | ⟨-, -, rfl⟩ | ⟨-, -, rfl⟩
      · exact placed
      · exact placed
      · -- The interval is listed again, and it is present as the settled timer.
        simp only [present, held, pending, starting, ongoing, settled, Timers.insert_listed, List.countP_singleton,
          List.countP_nil, decide_eq_true_eq] at placed ⊢
        omega
  | release posting active | abandon posting active =>
      rw [← present_release active]
      exact Nat.lt_of_lt_of_le placed (Nat.le_add_right _ _)
  | clear noHand noActive =>
      simp only [present, held, pending, List.countP_nil] at placed ⊢
      omega

/-- Without a new timer, the array loses at most the function of a timer that is removed. -/
theorem refs_cases (sound : life.Sound) (taken : life.step act = some next)
    (old : ∀ function delay oneShot, act ≠ .create function delay oneShot) :
    next.timers.fresh = life.timers.fresh ∧ (next.refs = life.refs ∨
      ∃ event < life.timers.fresh, 0 < life.present event ∧ (life.timers.object event).removed = true ∧
        next.refs = Function.update life.refs (life.timers.object event).id none) := by
  cases step_cases taken with
  | create function delay oneShot => exact absurd rfl (old function delay oneShot)
  | discard posting hand removed =>
      have held := held_of_hand hand
      refine ⟨rfl, Or.inr ⟨posting.event, sound.known _ held, ?_, removed, rfl⟩⟩
      exact Nat.lt_of_lt_of_le held (Nat.le_add_right _ _)
  | settle posting timers active success =>
      have below := sound.activeKnown posting _ active
      refine ⟨?_, Or.inl rfl⟩
      rcases Timers.settle_some (sound.identified _ below).1 success with ⟨-, rfl⟩ | ⟨-, -, rfl⟩ | ⟨-, -, rfl⟩ <;> rfl
  | release posting active =>
      refine ⟨rfl, ?_⟩
      by_cases removed : (life.timers.object posting.event).removed = true
      · refine Or.inr ⟨posting.event, sound.activeKnown posting _ active, ?_, removed, ?_⟩
        · simp [present, active, settled]
        · simp [releaseRef, removed]
      · left
        simp [releaseRef, removed]
  | _ => exact ⟨rfl, Or.inl rfl⟩

end Life

namespace Registrations

variable {Fn : Type} {all next : Registrations Fn} {shown : List ((Nat × Nat) × Fn)} {label : RegistrationLabel Fn}
  {index : Nat} {registration : Registration} {act : Act Fn} {after : Life Fn}

@[simp] theorem life_timers : (all.life registration).timers = registration.timers := rfl
@[simp] theorem life_refs : (all.life registration).refs = all.refs := rfl

/-- The registrations after a step of one of them. -/
def replace (all : Registrations Fn) (index : Nat) (after : Life Fn) : Registrations Fn :=
  ⟨after.clock, after.refs, all.registered.set index ⟨after.timers, after.hand, after.queue, after.active⟩⟩

theorem act_some (taken : all.act index act = some next) :
    ∃ registration after, all.registered[index]? = some registration ∧
      (all.life registration).step act = some after ∧ next = all.replace index after := by
  obtain ⟨registration, found, mapped⟩ := Option.bind_eq_some_iff.mp taken
  obtain ⟨after, stepped, rfl⟩ := Option.map_eq_some_iff.mp mapped
  exact ⟨registration, after, found, stepped, rfl⟩

/-- One registration is replaced, and the others stay. -/
theorem replace_cases {other : Nat} {found : Registration}
    (present : (all.replace index after).registered[other]? = some found) :
    (other = index ∧ found = ⟨after.timers, after.hand, after.queue, after.active⟩) ∨
      (other ≠ index ∧ all.registered[other]? = some found) := by
  simp only [replace, List.getElem?_set] at present
  grind

theorem replace_self (found : all.registered[index]? = some registration) :
    (all.replace index after).registered[index]? = some ⟨after.timers, after.hand, after.queue, after.active⟩ := by
  obtain ⟨below, -⟩ := List.getElem?_eq_some_iff.mp found
  exact List.getElem?_set_self below

theorem replace_other {other : Nat} (different : other ≠ index) :
    (all.replace index after).registered[other]? = all.registered[other]? :=
  List.getElem?_set_ne different.symm

/-- Each timer that is present and not removed has its own function in the array, and no two registrations have
timers with one id. -/
structure Matched (all : Registrations Fn) (shown : List ((Nat × Nat) × Fn)) : Prop where
  sound : ∀ (index : Nat) (registration : Registration), all.registered[index]? = some registration →
    (all.life registration).Sound
  creator : ∀ (index : Nat) (registration : Registration), all.registered[index]? = some registration →
    ∀ event < registration.timers.fresh, ∃ function, ((index, event), function) ∈ shown
  known : ∀ entry ∈ shown, ∃ registration, all.registered[entry.1.1]? = some registration ∧
    entry.1.2 < registration.timers.fresh
  stored : ∀ entry ∈ shown, ∀ registration, all.registered[entry.1.1]? = some registration →
    0 < (all.life registration).present entry.1.2 → (registration.timers.object entry.1.2).removed = false →
      all.refs (registration.timers.object entry.1.2).id = some entry.2
  apart : ∀ (first second : Nat) (one other : Registration), first ≠ second → all.registered[first]? = some one →
    all.registered[second]? = some other → ∀ event < one.timers.fresh, ∀ rival < other.timers.fresh,
      0 < (all.life one).present event → 0 < (all.life other).present rival →
        (one.timers.object event).id ≠ (other.timers.object rival).id

/-- If there is such a registration, it had created this timer. -/
def Old (all : Registrations Fn) (index event : Nat) : Prop :=
  ∀ registration, all.registered[index]? = some registration → event < registration.timers.fresh

theorem Matched.old (matched : all.Matched shown) {entry : (Nat × Nat) × Fn} (member : entry ∈ shown) :
    all.Old entry.1.1 entry.1.2 := by
  obtain ⟨known, found, below⟩ := matched.known entry member
  intro registration here
  cases found.symm.trans here
  exact below

/-- A timer after a step is an old one, or one that the step has created. -/
theorem old_or_new {other event : Nat} {one : Registration} (found : all.registered[index]? = some registration)
    (here : (all.replace index after).registered[other]? = some one) (below : event < one.timers.fresh) :
    all.Old other event ∨ (other = index ∧ registration.timers.fresh ≤ event ∧ one.timers = after.timers) := by
  rcases replace_cases here with ⟨rfl, rfl⟩ | ⟨different, same⟩
  · by_cases old : event < registration.timers.fresh
    · refine Or.inl fun former before => ?_
      cases found.symm.trans before
      exact old
    · exact Or.inr ⟨rfl, Nat.not_lt.mp old, rfl⟩
  · refine Or.inl fun former before => ?_
    cases same.symm.trans before
    exact below

/-- After a step of one registration, each life is sound. The others see only another clock and another array. -/
theorem Matched.sound_replace (matched : all.Matched shown) (found : all.registered[index]? = some registration)
    (taken : (all.life registration).step act = some after) {other : Nat} {one : Registration}
    (here : (all.replace index after).registered[other]? = some one) :
    ((all.replace index after).life one).Sound := by
  rcases replace_cases here with ⟨rfl, rfl⟩ | ⟨different, before⟩
  · exact (matched.sound other registration found).step taken
  · have sound := matched.sound other one before
    exact sound.move rfl (fun _ => le_rfl) sound.activeKnown

/-- The shown timers stay known. -/
theorem Matched.known_replace (matched : all.Matched shown) (found : all.registered[index]? = some registration)
    (grows : registration.timers.fresh ≤ after.timers.fresh) {entry : (Nat × Nat) × Fn} (member : entry ∈ shown) :
    ∃ one, (all.replace index after).registered[entry.1.1]? = some one ∧ entry.1.2 < one.timers.fresh := by
  obtain ⟨one, before, below⟩ := matched.known entry member
  by_cases same : entry.1.1 = index
  · rw [same] at before ⊢
    cases found.symm.trans before
    exact ⟨_, replace_self found, below.trans_le grows⟩
  · exact ⟨one, (replace_other same).trans before, below⟩

/-- An old timer that is present was present, and it has kept its id. -/
theorem Matched.before (matched : all.Matched shown) (found : all.registered[index]? = some registration)
    (taken : (all.life registration).step act = some after) {other event : Nat} {one : Registration}
    (here : (all.replace index after).registered[other]? = some one) (old : all.Old other event) :
    ∃ former, all.registered[other]? = some former ∧
      (one.timers.object event).id = (former.timers.object event).id ∧
      (0 < ((all.replace index after).life one).present event → 0 < (all.life former).present event) ∧
      ((one.timers.object event).removed = false → (former.timers.object event).removed = false) := by
  rcases replace_cases here with ⟨rfl, rfl⟩ | ⟨different, before⟩
  · have sound := matched.sound other registration found
    have keeps := (sound.keeps taken).2 event (old registration found)
    refine ⟨registration, found, keeps.id, Life.present_step sound taken (old registration found), fun live => ?_⟩
    cases removed : (registration.timers.object event).removed with
    | false => rfl
    | true =>
        have marked := keeps.removed removed
        rw [show (after.timers.object event).removed = false from live] at marked
        cases marked
  · exact ⟨one, before, rfl, id, id⟩

/-- Old timers of two registrations still have different ids. -/
theorem Matched.apart_old (matched : all.Matched shown) (found : all.registered[index]? = some registration)
    (taken : (all.life registration).step act = some after) {first second event rival : Nat} {one other : Registration}
    (different : first ≠ second) (hereOne : (all.replace index after).registered[first]? = some one)
    (hereOther : (all.replace index after).registered[second]? = some other) (old : all.Old first event)
    (rivalOld : all.Old second rival) (present : 0 < ((all.replace index after).life one).present event)
    (rivalPresent : 0 < ((all.replace index after).life other).present rival) :
    (one.timers.object event).id ≠ (other.timers.object rival).id := by
  obtain ⟨former, before, id, was, -⟩ := matched.before found taken hereOne old
  obtain ⟨formerRival, rivalBefore, rivalId, rivalWas, -⟩ := matched.before found taken hereOther rivalOld
  rw [id, rivalId]
  exact matched.apart first second former formerRival different before rivalBefore event (old former before) rival
    (rivalOld formerRival rivalBefore) (was present) (rivalWas rivalPresent)

/-- A removed timer has another id than a timer that is not removed. -/
theorem Matched.distinct (matched : all.Matched shown) {first second event rival : Nat} {one other : Registration}
    (foundOne : all.registered[first]? = some one) (foundOther : all.registered[second]? = some other)
    (below : event < one.timers.fresh) (rivalBelow : rival < other.timers.fresh)
    (present : 0 < (all.life one).present event) (rivalPresent : 0 < (all.life other).present rival)
    (live : (one.timers.object event).removed = false) (removed : (other.timers.object rival).removed = true) :
    (one.timers.object event).id ≠ (other.timers.object rival).id := by
  by_cases same : first = second
  · subst same
    cases foundOne.symm.trans foundOther
    intro equal
    rw [(matched.sound first one foundOne).distinct event below rival rivalBelow equal, removed] at live
    cases live
  · exact matched.apart first second one other same foundOne foundOther event below rival rivalBelow present rivalPresent

/-- A step without a new timer keeps the functions of all present timers. -/
theorem Matched.move (matched : all.Matched shown) (found : all.registered[index]? = some registration)
    (taken : (all.life registration).step act = some after)
    (unborn : ∀ function delay oneShot, act ≠ .create function delay oneShot) :
    (all.replace index after).Matched shown := by
  have sound := matched.sound index registration found
  obtain ⟨fresh, refs⟩ := Life.refs_cases sound taken unborn
  have old : ∀ {other event : Nat} {one : Registration}, (all.replace index after).registered[other]? = some one →
      event < one.timers.fresh → all.Old other event := by
    intro other event one here below
    rcases old_or_new found here below with old | ⟨-, above, same⟩
    · exact old
    · rw [same, fresh] at below
      exact absurd below (Nat.not_lt.mpr above)
  refine ⟨fun _ _ here => matched.sound_replace found taken here, ?_,
    fun _ member => matched.known_replace found fresh.ge member, ?_, ?_⟩
  · intro other one here event below
    obtain ⟨former, before, -⟩ := matched.before found taken here (old here below)
    exact matched.creator other former before event (old here below former before)
  · intro entry member one here present live
    have was := matched.old member
    obtain ⟨former, before, id, wasPresent, wasLive⟩ := matched.before found taken here was
    have stored := matched.stored entry member former before (wasPresent present) (wasLive live)
    rw [id]
    change after.refs _ = _
    rcases refs with same | ⟨event, known, place, removed, cleared⟩
    · rw [same]
      exact stored
    · have different := matched.distinct before found (was former before) known (wasPresent present) place
        (wasLive live) removed
      simp only [life_timers, life_refs] at cleared
      rw [cleared, Function.update_of_ne different]
      exact stored
  · intro first second one other different hereOne hereOther event below rival rivalBelow
    exact matched.apart_old found taken different hereOne hereOther (old hereOne below) (old hereOther rivalBelow)

section Create

variable {function : Fn} {delay : Int} {oneShot : Bool}

/-- The new timer has the next id, and its function is stored under this id. -/
theorem create_timer (taken : (all.life registration).step (.create (some function) delay oneShot) = some after) :
    after.timers.fresh = registration.timers.fresh + 1 ∧
      (after.timers.object registration.timers.fresh).id = registration.timers.lastId + 1 ∧
      after.refs = putRef all.refs (registration.timers.lastId + 1) function := by
  cases Life.step_cases taken with
  | create => exact ⟨rfl, by simp, rfl⟩

/-- No present timer has the id of the new one. -/
theorem Matched.unused (matched : all.Matched shown) (found : all.registered[index]? = some registration)
    (separate : ∀ (other : Nat) (one : Registration), other ≠ index → all.registered[other]? = some one →
      ∀ event < one.timers.fresh, 0 < (all.life one).present event →
        (one.timers.object event).id ≠ registration.timers.lastId + 1) {other event : Nat} {former : Registration}
    (before : all.registered[other]? = some former) (below : event < former.timers.fresh)
    (present : 0 < (all.life former).present event) :
    (former.timers.object event).id ≠ registration.timers.lastId + 1 := by
  by_cases same : other = index
  · subst same
    cases found.symm.trans before
    have bound := ((matched.sound other registration found).identified event below).2
    simp only [life_timers] at bound
    omega
  · exact separate other former same before event below present

/-- A new timer whose id no other registration uses leaves the functions of the others. -/
theorem Matched.create (matched : all.Matched shown) (found : all.registered[index]? = some registration)
    (taken : (all.life registration).step (.create (some function) delay oneShot) = some after)
    (separate : ∀ (other : Nat) (one : Registration), other ≠ index → all.registered[other]? = some one →
      ∀ event < one.timers.fresh, 0 < (all.life one).present event →
        (one.timers.object event).id ≠ registration.timers.lastId + 1) :
    (all.replace index after).Matched (shown ++ [((index, registration.timers.fresh), function)]) := by
  obtain ⟨fresh, newId, refs⟩ := create_timer taken
  have new : registration.timers.fresh < after.timers.fresh := fresh ▸ Nat.lt_succ_self _
  have split : ∀ {other event : Nat} {one : Registration}, (all.replace index after).registered[other]? = some one →
      event < one.timers.fresh →
      all.Old other event ∨ (other = index ∧ event = registration.timers.fresh ∧ one.timers = after.timers) := by
    intro other event one here below
    refine (old_or_new found here below).imp id fun ⟨same, above, timers⟩ => ⟨same, ?_, timers⟩
    rw [timers, fresh] at below
    omega
  -- An old timer that is present has another id than the new one.
  have other : ∀ {place event : Nat} {one : Registration}, (all.replace index after).registered[place]? = some one →
      all.Old place event → 0 < ((all.replace index after).life one).present event →
      (one.timers.object event).id ≠ registration.timers.lastId + 1 := by
    intro place event one here old present
    obtain ⟨former, before, id, was, -⟩ := matched.before found taken here old
    rw [id]
    exact matched.unused found separate before (old former before) (was present)
  refine ⟨fun _ _ here => matched.sound_replace found taken here, ?_, ?_, ?_, ?_⟩
  · intro place one here event below
    rcases split here below with old | ⟨rfl, rfl, -⟩
    · obtain ⟨former, before, -⟩ := matched.before found taken here old
      obtain ⟨function, member⟩ := matched.creator place former before event (old former before)
      exact ⟨function, List.mem_append_left _ member⟩
    · exact ⟨function, List.mem_append_right _ (List.mem_singleton_self _)⟩
  · intro entry member
    rcases List.mem_append.mp member with old | last
    · exact matched.known_replace found new.le old
    · rw [List.mem_singleton.mp last]
      exact ⟨_, replace_self found, new⟩
  · intro entry member one here present live
    change after.refs _ = _
    rw [refs, putRef]
    rcases List.mem_append.mp member with old | last
    · obtain ⟨former, before, id, wasPresent, wasLive⟩ := matched.before found taken here (matched.old old)
      rw [Function.update_of_ne (other here (matched.old old) present), id]
      exact matched.stored entry old former before (wasPresent present) (wasLive live)
    · rw [List.mem_singleton.mp last] at here ⊢
      cases (replace_self found).symm.trans here
      rw [show (after.timers.object registration.timers.fresh).id = _ from newId, Function.update_self]
  · intro first second one rival different hereOne hereOther event below place rivalBelow present rivalPresent
    rcases split hereOne below with old | ⟨rfl, rfl, timers⟩
    · rcases split hereOther rivalBelow with rivalOld | ⟨rfl, rfl, timers⟩
      · exact matched.apart_old found taken different hereOne hereOther old rivalOld present rivalPresent
      · rw [timers, newId]
        exact other hereOne old present
    · rcases split hereOther rivalBelow with rivalOld | ⟨rfl, -, -⟩
      · rw [timers, newId]
        exact (other hereOther rivalOld rivalPresent).symm
      · exact absurd rfl different

end Create

theorem initial_sound (all : Registrations Fn) : (all.life .initial).Sound where
  ordered := ⟨List.Pairwise.nil, by simp [life, Registration.initial, Timers.initial]⟩
  once event := Nat.zero_le 1
  known event held := absurd held (Nat.lt_irrefl 0)
  activeKnown posting stage active := nomatch active
  counter := le_rfl
  identified event below := absurd below (Nat.not_lt_zero event)
  distinct event below := absurd below (Nat.not_lt_zero event)

/-- A new registration has no timers. -/
theorem Matched.register (matched : all.Matched shown) :
    ({ all with registered := all.registered ++ [.initial] } : Registrations Fn).Matched shown := by
  have split : ∀ {index : Nat} {registration : Registration},
      (all.registered ++ [.initial])[index]? = some registration →
      all.registered[index]? = some registration ∨ registration = .initial := by
    intro index registration here
    rw [List.getElem?_append] at here
    split at here
    · exact Or.inl here
    · exact Or.inr (List.mem_singleton.mp (List.mem_of_getElem? here))
  -- A registration with a timer is an old one.
  have former : ∀ {index event : Nat} {registration : Registration},
      (all.registered ++ [.initial])[index]? = some registration → event < registration.timers.fresh →
      all.registered[index]? = some registration := by
    intro index event registration here below
    rcases split here with old | rfl
    · exact old
    · exact absurd below (Nat.not_lt_zero event)
  refine ⟨?_, ?_, ?_, ?_, ?_⟩
  · intro index registration here
    rcases split here with old | rfl
    · exact matched.sound index registration old
    · exact initial_sound _
  · intro index registration here event below
    exact matched.creator index registration (former here below) event below
  · intro entry member
    obtain ⟨registration, found, below⟩ := matched.known entry member
    obtain ⟨inside, -⟩ := List.getElem?_eq_some_iff.mp found
    exact ⟨registration, (List.getElem?_append_left inside).trans found, below⟩
  · intro entry member registration here present live
    obtain ⟨known, found, below⟩ := matched.known entry member
    obtain ⟨inside, -⟩ := List.getElem?_eq_some_iff.mp found
    cases ((List.getElem?_append_left inside).trans found).symm.trans here
    exact matched.stored entry member registration found present live
  · intro first second one other different hereOne hereOther event below rival rivalBelow present rivalPresent
    exact matched.apart first second one other different (former hereOne below) (former hereOther rivalBelow) event below
      rival rivalBelow present rivalPresent

/-- Each step of a run without a shared id keeps the functions. -/
theorem Matched.step (matched : all.Matched shown) (separate : all.Separate label) (taken : all.step label = some next) :
    next.Matched (shown ++ all.creates label) := by
  cases label with
  | register =>
      cases taken
      simp only [creates, List.append_nil]
      exact matched.register
  | setTimeout args oneShot =>
      rw [Registrations.step] at taken
      cases checked : setTimeoutArguments args with
      | error error =>
          rw [checked] at taken
          cases taken
          rw [creates, checked, List.append_nil]
          exact matched
      | ok values =>
          rw [checked] at taken
          obtain ⟨registration, after, found, stepped, rfl⟩ := act_some taken
          rw [creates, checked, found]
          refine matched.create found stepped fun other one different here => ?_
          have last : registration ∈ all.registered.getLast? := by
            rw [List.getLast?_eq_getElem?]
            exact found
          obtain ⟨inside, -⟩ := List.getElem?_eq_some_iff.mp here
          have member : one ∈ all.registered.dropLast := by
            refine List.mem_of_getElem? (i := other) ?_
            rw [List.getElem?_dropLast, if_pos (by omega)]
            exact here
          exact separate registration last one member
  | clearTimeout id =>
      obtain ⟨registration, after, found, stepped, rfl⟩ := act_some taken
      simp only [creates, List.append_nil]
      exact matched.move found stepped fun _ _ _ same => nomatch same
  | loop index act =>
      rw [Registrations.step] at taken
      split at taken
      · next moves =>
        obtain ⟨registration, after, found, stepped, rfl⟩ := act_some taken
        simp only [creates, List.append_nil]
        refine matched.move found stepped fun function delay oneShot same => ?_
        rw [same] at moves
        cases moves
      · cases taken

/-- A context without registrations. -/
def initial (clock : Int) : Registrations Fn := ⟨clock, fun _ => none, []⟩

theorem initial_matched (clock : Int) : (initial clock : Registrations Fn).Matched [] where
  sound _ _ here := nomatch here
  creator _ _ here := nomatch here
  known _ member := nomatch member
  stored _ member := nomatch member
  apart _ _ _ _ _ here := nomatch here

/-- As long as no two registrations share an id, each timer that is applied and not removed finds the function of
its own call, and no other timer's release has removed the function of a live timer. -/
theorem registrations_keep_functions {clock : Int} {labels : List (RegistrationLabel Fn)}
    (separate : Execution.Along step Separate (initial clock) labels)
    (run : Execution.exec step (initial clock) labels = some all) :
    (∀ (index : Nat) (registration : Registration) (posting : Posting), all.registered[index]? = some registration →
      registration.active = some (posting, .starting) → (registration.timers.object posting.event).removed = false →
      ∃ function, ((index, posting.event), function) ∈ Execution.trace step creates (initial clock) labels ∧
        all.refs (registration.timers.object posting.event).id = some function) ∧
    (∀ entry ∈ Execution.trace step creates (initial clock) labels, ∀ registration : Registration,
      all.registered[entry.1.1]? = some registration → 0 < (all.life registration).present entry.1.2 →
      (registration.timers.object entry.1.2).removed = false →
      all.refs (registration.timers.object entry.1.2).id = some entry.2) := by
  have matched : all.Matched ([] ++ Execution.trace step creates (initial clock) labels) :=
    Execution.trace_invariant_along (fun _ _ _ _ holds separate taken => Matched.step holds separate taken)
      (initial_matched clock) separate run
  rw [List.nil_append] at matched
  refine ⟨fun index registration posting found active live => ?_, matched.stored⟩
  have sound := matched.sound index registration found
  have below := sound.activeKnown posting .starting active
  have present : 0 < (all.life registration).present posting.event :=
    Nat.lt_of_lt_of_le (Life.pending_of_active active) (Nat.le_trans (Nat.le_add_right _ _) (Nat.le_add_right _ _))
  obtain ⟨function, member⟩ := matched.creator index registration found posting.event below
  exact ⟨function, member, matched.stored _ member registration found present live⟩

/-- A timer of the first registration is released, and then the second registration uses its id again. -/
def separateRun : List (RegistrationLabel Nat) :=
  [.register, .setTimeout [.function 7, .number 0] true, .setTimeout [.function 8, .number 5] true,
    .loop 0 (.elapse 1), .loop 0 (.take 1), .loop 0 .dispose, .loop 0 .start, .loop 0 .invoke, .loop 0 .complete,
    .loop 0 .settle, .loop 0 .release, .register, .setTimeout [.function 9, .number 0] true, .loop 1 (.elapse 1),
    .loop 1 (.take 2), .loop 1 .dispose, .loop 1 .start]

/-- Both registrations get their first timer before either is applied. -/
def mixedRun : List (RegistrationLabel Nat) :=
  [.register, .setTimeout [.function 1, .number 0] true, .register, .setTimeout [.function 2, .number 0] true,
    .loop 0 (.elapse 1), .loop 0 (.take 1), .loop 0 .dispose, .loop 0 .start]

/-- The timer of the second registration has the id of a released one, and it finds its own function. -/
theorem registrations_keep_functions_here : ∃ all registration posting,
    Execution.exec step (initial 0) separateRun = some all ∧ all.registered[1]? = some registration ∧
      registration.active = some (posting, .starting) ∧ (registration.timers.object posting.event).id = 1 ∧
      ∃ function, ((1, posting.event), function) ∈ Execution.trace step creates (initial 0) separateRun ∧
        all.refs (registration.timers.object posting.event).id = some function := by
  have shown : ((Execution.exec step (initial 0) separateRun).bind fun all => all.registered[1]?.bind fun registration =>
      registration.active.map fun active => (active.2, (registration.timers.object active.1.event).removed,
        (registration.timers.object active.1.event).id)) = some (.starting, false, 1) := by
    decide +kernel
  obtain ⟨all, run, rest⟩ := Option.bind_eq_some_iff.mp shown
  obtain ⟨registration, found, rest⟩ := Option.bind_eq_some_iff.mp rest
  obtain ⟨⟨posting, stage⟩, active, shape⟩ := Option.map_eq_some_iff.mp rest
  obtain ⟨rfl, live, id⟩ : stage = .starting ∧ _ ∧ _ := by simpa using shape
  have separate : Execution.Along step Separate (initial 0) separateRun := by decide +kernel
  exact ⟨all, registration, posting, run, found, active, id,
    (registrations_keep_functions separate run).1 1 registration posting found active live⟩

/-- The timer of the first registration is applied, and it finds the function of the second one. -/
theorem registrations_mix_functions : ∃ all registration posting,
    Execution.exec step (initial 0) mixedRun = some all ∧ all.registered[0]? = some registration ∧
      registration.active = some (posting, .starting) ∧
      (registration.timers.object posting.event).removed = false ∧
      Execution.trace step creates (initial 0) mixedRun = [((0, posting.event), 1), ((1, 0), 2)] ∧
      all.refs (registration.timers.object posting.event).id = some 2 := by
  have shown : ((Execution.exec step (initial 0) mixedRun).bind fun all => all.registered[0]?.bind fun registration =>
      registration.active.map fun active => (active.2, active.1.event,
        (registration.timers.object active.1.event).removed,
        all.refs (registration.timers.object active.1.event).id)) = some (.starting, 0, false, some 2) := by
    decide +kernel
  obtain ⟨all, run, rest⟩ := Option.bind_eq_some_iff.mp shown
  obtain ⟨registration, found, rest⟩ := Option.bind_eq_some_iff.mp rest
  obtain ⟨⟨posting, stage⟩, active, shape⟩ := Option.map_eq_some_iff.mp rest
  obtain ⟨rfl, event, live, refs⟩ : stage = .starting ∧ _ ∧ _ ∧ _ := by simpa using shape
  refine ⟨all, registration, posting, run, found, active, live, ?_, refs⟩
  rw [event]
  decide +kernel

end Registrations

end Dtel
