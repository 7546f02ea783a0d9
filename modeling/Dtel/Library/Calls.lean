import Mathlib.Tactic.TypeStar

namespace Dtel.Calls

universe u

variable {Error State A B : Type u} {before after : State} {call : EStateM Error State A}
  {next : A → EStateM Error State B}

/-- A call that returns hands its result and its state on. -/
theorem bind_ok {result : A} (returned : call before = .ok result after) :
    (call >>= next) before = next result after := by
  change EStateM.bind call next before = next result after
  simp only [EStateM.bind, returned]

/-- A call that throws ends the whole. -/
theorem bind_error {error : Error} (thrown : call before = .error error after) :
    (call >>= next) before = .error error after := by
  change EStateM.bind call next before = .error error after
  simp only [EStateM.bind, thrown]

/-- A whole that returns has returned from its first call. -/
theorem bind_returned {result : B} (returned : (call >>= next) before = .ok result after) :
    ∃ value middle, call before = .ok value middle ∧ next value middle = .ok result after := by
  cases called : call before with
  | ok value middle =>
      rw [bind_ok called] at returned
      exact ⟨value, middle, rfl, returned⟩
  | error error middle =>
      rw [bind_error called] at returned
      cases returned

/-- A whole that throws has thrown in its first call, or behind it. -/
theorem bind_threw {error : Error} (thrown : (call >>= next) before = .error error after) :
    call before = .error error after ∨
      ∃ value middle, call before = .ok value middle ∧ next value middle = .error error after := by
  cases called : call before with
  | ok value middle =>
      rw [bind_ok called] at thrown
      exact Or.inr ⟨value, middle, rfl, thrown⟩
  | error other middle =>
      rw [bind_error called] at thrown
      cases thrown
      exact Or.inl rfl

/-- A call that reads the state goes on with it. -/
theorem get_bind {next : State → EStateM Error State A} : (get >>= next) before = next before before := rfl

/-- From each state with the precondition, the call returns with the postcondition, or throws with the other one. -/
def Ensures (pre : State → Prop) (call : EStateM Error State A) (post : A → State → Prop) (thrown : State → Prop) :
    Prop :=
  ∀ before, pre before → match call before with
    | .ok result after => post result after
    | .error _ after => thrown after

section Rules

variable {pre thrown : State → Prop} {post : A → State → Prop} {last : B → State → Prop}

theorem Ensures.returned {result : A} (ensures : Ensures pre call post thrown) (start : pre before)
    (returned : call before = .ok result after) : post result after := by
  have holds := ensures before start
  rwa [returned] at holds

theorem Ensures.threw {error : Error} (ensures : Ensures pre call post thrown) (start : pre before)
    (threw : call before = .error error after) : thrown after := by
  have holds := ensures before start
  rwa [threw] at holds

/-- The postcondition of the first call is the precondition of the next one. -/
theorem Ensures.bind (first : Ensures pre call post thrown)
    (second : ∀ result, Ensures (post result) (next result) last thrown) : Ensures pre (call >>= next) last thrown := by
  intro before start
  cases called : call before with
  | ok result after =>
      rw [bind_ok called]
      exact second result after (first.returned start called)
  | error error after =>
      rw [bind_error called]
      exact first.threw start called

/-- A weaker property may hold when the call throws. -/
theorem Ensures.weaken {other : State → Prop} (ensures : Ensures pre call post thrown)
    (implies : ∀ state, thrown state → other state) : Ensures pre call post other := by
  intro before start
  cases called : call before with
  | ok result after => exact ensures.returned start called
  | error error after => exact implies after (ensures.threw start called)

theorem Ensures.pure (result : A) (implies : ∀ state, pre state → post result state) :
    Ensures pre (Pure.pure result : EStateM Error State A) post thrown := implies

theorem Ensures.throw (error : Error) (implies : ∀ state, pre state → thrown state) :
    Ensures pre (throw error : EStateM Error State A) post thrown := implies

theorem Ensures.modify {post : PUnit → State → Prop} (update : State → State)
    (implies : ∀ state, pre state → post ⟨⟩ (update state)) :
    Ensures pre (modify update : EStateM Error State PUnit) post thrown := implies

/-- A call that reads the state may use what holds of the state that it reads. -/
theorem Ensures.get {next : State → EStateM Error State A}
    (ensures : ∀ seen, pre seen → Ensures pre (next seen) post thrown) : Ensures pre (MonadState.get >>= next) post thrown :=
  fun before start => ensures before start before start

/-- A fact in the precondition can be assumed. -/
theorem Ensures.assuming {fact : Prop} (ensures : fact → Ensures pre call post thrown) :
    Ensures (fun state => pre state ∧ fact) call post thrown :=
  fun before start => ensures start.2 before start.1

end Rules

/-- The property is kept when the call returns, and when it throws. -/
def Keeps (holds : State → Prop) (call : EStateM Error State A) : Prop := Ensures holds call (fun _ => holds) holds

section Keeps

variable {holds : State → Prop}

theorem Keeps.bind (first : Keeps holds call) (second : ∀ value, Keeps holds (next value)) :
    Keeps holds (call >>= next) :=
  Ensures.bind first second

theorem Keeps.pure (result : A) : Keeps holds (Pure.pure result : EStateM Error State A) :=
  Ensures.pure result fun _ => id

theorem Keeps.throw (error : Error) : Keeps holds (throw error : EStateM Error State A) :=
  Ensures.throw error fun _ => id

end Keeps

/-- Each error that the call throws is an allowed one. -/
def Raises (allowed : Error → Prop) (call : EStateM Error State A) : Prop :=
  ∀ before error after, call before = .error error after → allowed error

section Raises

variable {allowed : Error → Prop}

theorem Raises.bind (first : Raises allowed call) (second : ∀ value, Raises allowed (next value)) :
    Raises allowed (call >>= next) := by
  intro before error after thrown
  rcases bind_threw thrown with early | ⟨value, middle, -, late⟩
  · exact first _ _ _ early
  · exact second value _ _ _ late

theorem Raises.pure (result : A) : Raises allowed (Pure.pure result : EStateM Error State A) :=
  fun _ _ _ thrown => nomatch thrown

theorem Raises.throw {error : Error} (fine : allowed error) : Raises allowed (throw error : EStateM Error State A) := by
  intro before other after thrown
  cases thrown
  exact fine

theorem Raises.modify (update : State → State) : Raises allowed (modify update : EStateM Error State PUnit) :=
  fun _ _ _ thrown => nomatch thrown

theorem Raises.get {next : State → EStateM Error State A} (raises : ∀ state, Raises allowed (next state)) :
    Raises allowed (MonadState.get >>= next) :=
  fun before => raises before before

/-- An error that is not allowed comes from behind a call that raises only allowed ones. -/
theorem Raises.passed {error : Error} (raises : Raises allowed call) (forbidden : ¬allowed error)
    (thrown : (call >>= next) before = .error error after) :
    ∃ value middle, call before = .ok value middle ∧ next value middle = .error error after :=
  (bind_threw thrown).resolve_left fun early => forbidden (raises _ _ _ early)

end Raises

end Dtel.Calls
