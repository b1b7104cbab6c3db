import HtmlWriter.Script.Run

/-! Runs of writing and of scripts, whether they succeed or fail. An action that keeps a
view of its state leaves what is seen as it was on every exit, so a caller who goes on
after a failure finds it unchanged. -/

namespace HtmlWriter
open Script
variable {ε σ α β ν : Type}

def finalState (action : Action ε σ α) (state : σ) : σ :=
  match action.run state with
  | .ok _ final => final
  | .error _ final => final

/-- An action yields values of a property if every run of it that succeeds does. -/
def Yields (property : α → Prop) (action : Action ε σ α) : Prop :=
  ∀ ⦃state value final⦄, action.run state = .ok value final → property value

/-- An action keeps a view of the state if no run of it changes what is seen. -/
def Keeps (view : σ → ν) (action : Action ε σ α) : Prop :=
  ∀ state, view (finalState action state) = view state

theorem finalState_bind_ok {first : Action ε σ α} {state middle : σ} {value : α}
    (ran : first.run state = .ok value middle) (next : α → Action ε σ β) :
    finalState (first >>= next) state = finalState (next value) middle := by
  simp only [finalState, Action.run_bind, ran]

theorem finalState_bind_error {first : Action ε σ α} {state middle : σ} {error : ε}
    (ran : first.run state = .error error middle) (next : α → Action ε σ β) :
    finalState (first >>= next) state = middle := by
  simp only [finalState, Action.run_bind, ran]

theorem run_tryCatch_rethrow {body : Action ε σ α} (handler : ε → Action ε σ PUnit)
    {state middle : σ} {error : ε} (failed : body.run state = .error error middle) :
    ∃ last, (tryCatch body fun error => do handler error; throw error).run state =
      .error last (finalState (handler error) middle) := by
  rw [Action.run_tryCatch, failed]
  simp only [Action.run_bind, finalState]
  cases (handler error).run middle with
  | ok value final => exact ⟨error, rfl⟩
  | error last final => exact ⟨last, rfl⟩

/-- What is done in the end whatever happens is done after success, or while a failure passes. -/
theorem tryFinally_eq (body finish : Action ε σ Unit) :
    tryFinally body finish = (do
      tryCatch body fun error => do finish; throw error
      finish) := by
  change ((fun pair : Unit × Unit => pair.1) <$> tryFinally' body (fun _ => finish)) = _
  simp only [tryFinally', map_bind, map_pure, bind_pure_unit]

theorem finalState_tryCatch (body : Action ε σ α) (handler : ε → Action ε σ α) (state : σ) :
    finalState (tryCatch body handler) state =
      match body.run state with
      | .ok _ final => final
      | .error error middle => finalState (handler error) middle := by
  rw [finalState, Action.run_tryCatch]
  cases body.run state <;> rfl

theorem Yields.pure {property : α → Prop} {value : α} (holds : property value) :
    Yields property (pure value : Action ε σ α) := by
  intro state result final ran
  cases ran
  exact holds

theorem Yields.bind_of_yields {known : α → Prop} {property : β → Prop} {first : Action ε σ α}
    {next : α → Action ε σ β} (yields : Yields known first)
    (rest : ∀ value, known value → Yields property (next value)) :
    Yields property (first >>= next) := by
  intro state result final ran
  rw [Action.run_bind] at ran
  cases started : first.run state with
  | ok value middle =>
    rw [started] at ran
    exact rest value (yields started) ran
  | error error middle =>
    rw [started] at ran
    cases ran

theorem Yields.bind {property : β → Prop} {first : Action ε σ α} {next : α → Action ε σ β}
    (yields : ∀ value, Yields property (next value)) : Yields property (first >>= next) := by
  have any : Yields (fun _ => True) first := fun _ _ _ _ => trivial
  exact any.bind_of_yields fun value _ => yields value

/-- Failures that are only taken note of leave the state to what failed. -/
theorem finalState_tryCatch_of_noted {body : Action ε σ α} {handler : ε → Action ε σ α}
    (noted : ∀ error state, finalState (handler error) state = state) (state : σ) :
    finalState (tryCatch body handler) state = finalState body state := by
  rw [finalState_tryCatch, finalState]
  cases body.run state with
  | ok value final => rfl
  | error error middle => exact noted error middle

namespace Keeps
variable {view : σ → ν}

theorem pure (value : α) : Keeps view (pure value : Action ε σ α) := fun _ => rfl

theorem throw (error : ε) : Keeps view (throw error : Action ε σ α) := fun _ => rfl

theorem demand (fits : Bool) : Keeps view (Action.demand fits : Action ε σ Unit) :=
  fun _ => rfl

theorem get : Keeps view (get : Action ε σ σ) := fun _ => rfl

theorem modify {change : σ → σ} (same : ∀ state, view (change state) = view state) :
    Keeps view (modify change : Action ε σ Unit) := same

theorem modifyGet {change : σ → α × σ} (same : ∀ state, view (change state).2 = view state) :
    Keeps view (modifyGet change : Action ε σ α) := same

theorem bind_of_yields {property : α → Prop} {first : Action ε σ α} {next : α → Action ε σ β}
    (kept : Keeps view first) (yields : Yields property first)
    (rest : ∀ value, property value → Keeps view (next value)) :
    Keeps view (first >>= next) := by
  intro state
  cases ran : first.run state with
  | ok value middle =>
    rw [finalState_bind_ok ran]
    have start := kept state
    rw [finalState, ran] at start
    exact (rest value (yields ran) middle).trans start
  | error error middle =>
    rw [finalState_bind_error ran]
    have start := kept state
    rwa [finalState, ran] at start

theorem bind {first : Action ε σ α} {next : α → Action ε σ β}
    (kept : Keeps view first) (rest : ∀ value, Keeps view (next value)) :
    Keeps view (first >>= next) := by
  have yields : Yields (fun _ => True) first := fun _ _ _ _ => trivial
  exact kept.bind_of_yields yields fun value _ => rest value

theorem tryCatch {body : Action ε σ α} {handler : ε → Action ε σ α}
    (kept : Keeps view body) (handled : ∀ error, Keeps view (handler error)) :
    Keeps view (tryCatch body handler) := by
  intro state
  have start := kept state
  rw [finalState_tryCatch]
  rw [finalState] at start
  cases ran : body.run state with
  | ok value final =>
    rw [ran] at start
    exact start
  | error error middle =>
    rw [ran] at start
    exact (handled error middle).trans start

theorem ite {condition : Prop} [Decidable condition] {yes no : Action ε σ α}
    (kept : Keeps view yes) (other : Keeps view no) :
    Keeps view (if condition then yes else no) := by
  split
  · exact kept
  · exact other

theorem ofExcept (verdict : Except ε α) :
    Keeps view (MonadExcept.ofExcept verdict : Action ε σ α) := by
  cases verdict with
  | ok value => exact .pure value
  | error error => exact .throw error

theorem foldlM {step : β → α → Action ε σ β} (kept : ∀ value item, Keeps view (step value item))
    (items : List α) (initial : β) : Keeps view (items.foldlM step initial) := by
  induction items generalizing initial with
  | nil => exact .pure initial
  | cons item rest ih =>
    rw [List.foldlM_cons]
    exact .bind (kept initial item) ih

theorem mono {action : Action ε σ α} (kept : Keeps view action) {μ : Type} (coarser : ν → μ) :
    Keeps (coarser ∘ view) action :=
  fun state => congrArg coarser (kept state)

theorem of_ok {action : Action ε σ α} (kept : Keeps view action) {state final : σ} {value : α}
    (ran : action.run state = .ok value final) : view final = view state := by
  have same := kept state
  rwa [finalState, ran] at same

theorem of_error {action : Action ε σ α} (kept : Keeps view action) {state final : σ} {error : ε}
    (ran : action.run state = .error error final) : view final = view state := by
  have same := kept state
  rwa [finalState, ran] at same

end Keeps

/-- An action throws only for causes of a kind if no run of it fails in any other way. -/
def Throws (kind : ε → Prop) (action : Action ε σ α) : Prop :=
  ∀ ⦃state error final⦄, action.run state = .error error final → kind error

namespace Throws
variable {kind : ε → Prop}

theorem pure (value : α) : Throws kind (pure value : Action ε σ α) := nofun

theorem throw {error : ε} (holds : kind error) : Throws kind (throw error : Action ε σ α) := by
  intro state cause final failed
  cases failed
  exact holds

theorem demand (fits : Bool) : Throws kind (Action.demand fits : Action ε σ Unit) := nofun

theorem get : Throws kind (get : Action ε σ σ) := nofun

theorem modify (change : σ → σ) : Throws kind (modify change : Action ε σ Unit) := nofun

theorem bind {first : Action ε σ α} {next : α → Action ε σ β} (started : Throws kind first)
    (rest : ∀ value, Throws kind (next value)) : Throws kind (first >>= next) := by
  intro state error final failed
  rw [Action.run_bind] at failed
  cases ran : first.run state with
  | ok value middle =>
    rw [ran] at failed
    exact rest value failed
  | error cause middle =>
    rw [ran] at failed
    cases failed
    exact started ran

theorem ite {condition : Prop} [Decidable condition] {yes no : Action ε σ α}
    (first : Throws kind yes) (other : Throws kind no) :
    Throws kind (if condition then yes else no) := by
  split
  · exact first
  · exact other

end Throws

/-- A run agrees with a verdict if it succeeds exactly when the verdict is good, and well
then, and fails otherwise with the error of the verdict. -/
def Agrees (verdict : Except ε Unit) (good : α → σ → Prop) : EStateM.Result ε σ α → Prop
  | .ok value final => verdict = .ok () ∧ good value final
  | .error error _ => verdict = .error error

namespace Agrees
variable {verdict later : Except ε Unit} {good : α → σ → Prop} {better : β → σ → Prop}

theorem mono {better : α → σ → Prop} {result : EStateM.Result ε σ α}
    (agrees : Agrees verdict good result)
    (implies : ∀ value final, good value final → better value final) :
    Agrees verdict better result := by
  cases result with
  | ok value final => exact ⟨agrees.1, implies value final agrees.2⟩
  | error error final => exact agrees

theorem passed {result : EStateM.Result ε σ α} (agrees : Agrees verdict good result) :
    Agrees verdict (fun value final => verdict = .ok () ∧ good value final) result := by
  cases result with
  | ok value final => exact ⟨agrees.1, agrees⟩
  | error error final => exact agrees

theorem bind {first : Action ε σ α} {next : α → Action ε σ β} {state : σ}
    (agrees : Agrees verdict good (first.run state))
    (rest : ∀ value middle, good value middle → Agrees later better ((next value).run middle)) :
    Agrees (do verdict; later) better ((first >>= next).run state) := by
  rw [Action.run_bind]
  cases ran : first.run state with
  | ok value middle =>
    rw [ran] at agrees
    obtain ⟨rfl, holds⟩ := agrees
    exact rest value middle holds
  | error error middle =>
    rw [ran] at agrees
    obtain rfl : verdict = .error error := agrees
    rfl

theorem bind_ok {first : Action ε σ α} {next : α → Action ε σ β} {state : σ}
    (agrees : Agrees verdict good (first.run state))
    (rest : ∀ value middle, good value middle →
      ∃ result final, (next value).run middle = .ok result final ∧ better result final) :
    Agrees verdict better ((first >>= next).run state) := by
  rw [Action.run_bind]
  cases ran : first.run state with
  | ok value middle =>
    rw [ran] at agrees
    obtain ⟨passed, holds⟩ := agrees
    obtain ⟨result, final, finished, better⟩ := rest value middle holds
    dsimp only
    rw [finished]
    exact ⟨passed, better⟩
  | error error middle =>
    rw [ran] at agrees
    exact agrees

/-- A verdict is passed on through a handler that only tidies up. -/
theorem tryCatch {body : Action ε σ α} {tidy : ε → Action ε σ PUnit} {state : σ}
    (agrees : Agrees verdict good (body.run state))
    (tidies : ∀ error middle, ∃ final, (tidy error).run middle = .ok ⟨⟩ final) :
    Agrees verdict good ((tryCatch body fun error => do tidy error; throw error).run state) := by
  rw [Action.run_tryCatch]
  cases ran : body.run state with
  | ok value final =>
    rw [ran] at agrees
    exact agrees
  | error error middle =>
    rw [ran] at agrees
    obtain ⟨final, tidied⟩ := tidies error middle
    dsimp only
    rw [Action.run_bind, tidied]
    exact agrees

end Agrees

end HtmlWriter
