/-! Actions: computations on a state that may fail, as a machine carries them out. A machine
counts in words and keeps texts in memory, so it may be asked for more than it can do. Then it
breaks off, and whoever asked gets no answer. -/

namespace HtmlWriter

/-- What comes of an action where the machine can do everything, and what is seen of it on the
machine that there is: the same, or nothing. -/
structure Action (ε σ α : Type) where
  run : σ → EStateM.Result ε σ α
  /-- There is none if the machine breaks off. -/
  outcome? : σ → Option (EStateM.Result ε σ α)
  agrees : ∀ state result, outcome? state = some result → run state = result

namespace Action
variable {ε σ α β : Type}

/-- An action that any machine can carry out. -/
def always (run : σ → EStateM.Result ε σ α) : Action ε σ α where
  run
  outcome? state := some (run state)
  agrees _ _ := Option.some.inj

/-- Go on where the machine can, and break off elsewhere. -/
def demand (fits : Bool) : Action ε σ Unit where
  run state := .ok () state
  outcome? state := if fits then some (.ok () state) else none
  agrees state result seen := by
    split at seen
    · exact Option.some.inj seen
    · cases seen

def breaksOff (action : Action ε σ α) (state : σ) : Bool := (action.outcome? state).isNone

instance : Monad (Action ε σ) where
  pure value := always fun state => .ok value state
  bind first next := {
    run state :=
      match first.run state with
      | .ok value middle => (next value).run middle
      | .error error middle => .error error middle
    outcome? state :=
      match first.outcome? state with
      | some (.ok value middle) => (next value).outcome? middle
      | some (.error error middle) => some (.error error middle)
      | none => none
    agrees state result seen := by
      split at seen
      next value middle started =>
        rw [first.agrees state _ started]
        exact (next value).agrees middle result seen
      next error middle started =>
        rw [first.agrees state _ started]
        exact Option.some.inj seen
      next => cases seen }

instance : MonadStateOf σ (Action ε σ) where
  get := always fun state => .ok state state
  set state := always fun _ => .ok ⟨⟩ state
  modifyGet change := always fun state => .ok (change state).1 (change state).2

instance : MonadExceptOf ε (Action ε σ) where
  throw error := always fun state => .error error state
  tryCatch body handler := {
    run state :=
      match body.run state with
      | .ok value final => .ok value final
      | .error error middle => (handler error).run middle
    outcome? state :=
      match body.outcome? state with
      | some (.ok value final) => some (.ok value final)
      | some (.error error middle) => (handler error).outcome? middle
      | none => none
    agrees state result seen := by
      split at seen
      next value final tried =>
        rw [body.agrees state _ tried]
        exact Option.some.inj seen
      next error middle tried =>
        rw [body.agrees state _ tried]
        exact (handler error).agrees middle result seen
      next => cases seen }

instance : MonadFinally (Action ε σ) where
  tryFinally' body finish := do
    let value ← tryCatch body fun error => do
      let _ ← finish none
      throw error
    let result ← finish (some value)
    return (value, result)

@[ext] theorem ext {first second : Action ε σ α} (run : first.run = second.run)
    (outcome : first.outcome? = second.outcome?) : first = second := by
  cases first
  cases second
  subst run outcome
  rfl

@[simp] theorem run_pure (value : α) (state : σ) :
    (pure value : Action ε σ α).run state = .ok value state := rfl

theorem run_bind (first : Action ε σ α) (next : α → Action ε σ β) (state : σ) :
    (first >>= next).run state =
      match first.run state with
      | .ok value middle => (next value).run middle
      | .error error middle => .error error middle := rfl

@[simp] theorem run_get (state : σ) : (get : Action ε σ σ).run state = .ok state state := rfl

@[simp] theorem run_modifyGet (change : σ → α × σ) (state : σ) :
    (modifyGet change : Action ε σ α).run state = .ok (change state).1 (change state).2 := rfl

@[simp] theorem run_throw (error : ε) (state : σ) :
    (throw error : Action ε σ α).run state = .error error state := rfl

@[simp] theorem run_demand (fits : Bool) (state : σ) :
    (demand fits : Action ε σ Unit).run state = .ok () state := rfl

theorem run_tryCatch (body : Action ε σ α) (handler : ε → Action ε σ α) (state : σ) :
    (tryCatch body handler).run state =
      match body.run state with
      | .ok value final => .ok value final
      | .error error middle => (handler error).run middle := rfl

theorem outcome?_bind (first : Action ε σ α) (next : α → Action ε σ β) (state : σ) :
    (first >>= next).outcome? state =
      match first.outcome? state with
      | some (.ok value middle) => (next value).outcome? middle
      | some (.error error middle) => some (.error error middle)
      | none => none := rfl

theorem outcome?_tryCatch (body : Action ε σ α) (handler : ε → Action ε σ α) (state : σ) :
    (tryCatch body handler).outcome? state =
      match body.outcome? state with
      | some (.ok value final) => some (.ok value final)
      | some (.error error middle) => (handler error).outcome? middle
      | none => none := rfl

instance : LawfulMonad (Action ε σ) := by
  refine LawfulMonad.mk' (Action ε σ) ?_ (fun _ _ => rfl) ?_
  · intro α action
    have same : id <$> action = action >>= pure := rfl
    rw [same]
    apply ext <;> funext state
    · rw [run_bind]
      cases action.run state <;> rfl
    · rw [outcome?_bind]
      rcases action.outcome? state with _ | _ | _ <;> rfl
  · intro α β γ first second third
    apply ext <;> funext state
    · simp only [run_bind]
      cases first.run state <;> rfl
    · simp only [outcome?_bind]
      rcases first.outcome? state with _ | _ | _ <;> rfl

end Action
end HtmlWriter
