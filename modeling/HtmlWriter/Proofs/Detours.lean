import HtmlWriter.Proofs.Programs

/-! Programs that are interrupted. Before each of its calls and questions, and at its end, a
program may be taken on a detour. If callers cannot be told apart by what a program does, and
detours lead only to callers of that kind, the program hears and leaves what it would have
heard and left without them. -/

namespace HtmlWriter
open Script Writing

def Handle.unnumbered : Handle → Handle
  | top => top
  | tag _ start => tag 0 start
  | body _ opened => body 0 opened

/-- A program that makes and asks only so much. -/
def Program.Within (calls : Call → Prop) (asks : Inquiry → Prop) : Program → Prop
  | done => True
  | make call next => calls call ∧ ∀ heard, (next heard).Within calls asks
  | ask question next => asks question ∧ ∀ report, (next report).Within calls asks

def Document.sinkless (document : Document) : Document := { document with sink := none }

/-- What is seen of a call: what was heard of it, and the document it left, but for the sink. -/
def Made.report (made : Made) : Call × Except Error Unit × Option Document :=
  (made.call, made.heard, (made.caller.step made.call).map fun result => result.2.document.sinkless)

namespace Caller
variable {caller left right next : Caller} {call : Call} {heard : Except Error Unit}

def unnumbered (caller : Caller) : Caller :=
  { caller with handles := caller.handles.map Handle.unnumbered, pieces := [] }

def outcome (caller : Caller) (call : Call) : Option (Except Error Unit × Caller) :=
  (caller.step call).map fun result => (result.1, result.2.unnumbered)

private theorem document_unnumbered (caller : Caller) :
    caller.unnumbered.document = caller.document := rfl

private theorem handles_unnumbered (handles : List Handle) :
    (handles.map Handle.unnumbered).map Handle.unnumbered = handles.map Handle.unnumbered := by
  rw [List.map_map]
  refine List.map_congr_left fun handle _ => ?_
  cases handle <;> rfl

private theorem stepAt_unnumbered (caller : Caller) (place : Place) (call : Call) :
    (caller.unnumbered.stepAt place call).map (fun result => (result.1, result.2.unnumbered)) =
      (caller.stepAt place call).map fun result => (result.1, result.2.unnumbered) := by
  have same := handles_unnumbered caller.handles
  cases call with
  | write call =>
    rw [stepAt, stepAt]
    split <;> simp [unnumbered, becomes, same]
  | start tag =>
    rw [stepAt, stepAt, document_unnumbered]
    cases (place.element tag).run caller.document with
    | ok start document => simp [unnumbered, becomes, same, Handle.unnumbered]
    | error error document => simp [unnumbered, becomes, same]
  | adjust change | detach | replaceSink sink | top =>
    simp [stepAt, unnumbered, becomes, same, output, Handle.unnumbered]
  | _ => rfl

private theorem stepTag_unnumbered (caller : Caller) (element : Nat) (start : StartTag)
    (outer : List Handle) (call : Call) :
    (caller.unnumbered.stepTag 0 start (outer.map Handle.unnumbered) call).map
        (fun result => (result.1, result.2.unnumbered)) =
      (caller.stepTag element start outer call).map
        fun result => (result.1, result.2.unnumbered) := by
  have same := handles_unnumbered outer
  cases call with
  | add requested =>
    rw [stepTag, stepTag, document_unnumbered]
    cases (start.add requested).run caller.document <;>
      simp [unnumbered, becomes, same, Handle.unnumbered]
  | openBody =>
    rw [stepTag, stepTag, document_unnumbered]
    cases start.openBody.run caller.document <;>
      simp [unnumbered, becomes, same, Handle.unnumbered]
  | finish ending => simp [stepTag, unnumbered, becomes, same]
  | drop => simp [stepTag, unnumbered, becomes, same]
  | _ => rfl

private theorem stepBody_unnumbered (caller : Caller) (element : Nat) (body : Body)
    (outer : List Handle) (call : Call) :
    (caller.unnumbered.stepBody 0 body (outer.map Handle.unnumbered) call).map
        (fun result => (result.1, result.2.unnumbered)) =
      (caller.stepBody element body outer call).map
        fun result => (result.1, result.2.unnumbered) := by
  have same := handles_unnumbered outer
  cases call with
  | endBody | drop | abandon => simp [stepBody, unnumbered, becomes, same, Handle.unnumbered]
  | _ => rfl

theorem outcome_unnumbered (caller : Caller) (call : Call) :
    caller.unnumbered.outcome call = caller.outcome call := by
  rw [outcome, outcome, step, step]
  cases front : caller.handles with
  | nil =>
    have none : caller.unnumbered.handles = [] := by rw [unnumbered, front]; rfl
    rw [none]
    exact stepAt_unnumbered caller .document call
  | cons handle outer =>
    have held : caller.unnumbered.handles = handle.unnumbered :: outer.map Handle.unnumbered := by
      rw [unnumbered, front]
      rfl
    rw [held]
    cases handle with
    | top =>
      cases call with
      | drop =>
        have same := handles_unnumbered outer
        simp only [Handle.unnumbered, unnumbered, becomes, Option.map_some, same, List.append_nil]
      | _ => exact stepAt_unnumbered caller .document _
    | tag element start => exact stepTag_unnumbered caller element start outer call
    | body element body =>
      dsimp only [Handle.unnumbered]
      rw [Option.map_or, Option.map_or, stepBody_unnumbered caller element body outer call,
        stepAt_unnumbered caller body.place call]

@[simp] theorem place?_unnumbered (caller : Caller) : caller.unnumbered.place? = caller.place? := by
  rw [place?, place?, unnumbered]
  cases caller.handles with
  | nil => rfl
  | cons handle outer => cases handle <;> rfl

@[simp] theorem unnumbered_unnumbered (caller : Caller) :
    caller.unnumbered.unnumbered = caller.unnumbered := by
  have same := handles_unnumbered caller.handles
  simp only [unnumbered, same]

theorem document_of_unnumbered (same : left.unnumbered = right.unnumbered) :
    left.document = right.document := by
  have documents := congrArg document same
  exact documents

theorem place?_of_unnumbered (same : left.unnumbered = right.unnumbered) :
    left.place? = right.place? := by
  rw [← place?_unnumbered left, same, place?_unnumbered]

/-- The same comes of a call on callers that differ in their records alone. -/
theorem step_of_unnumbered (same : left.unnumbered = right.unnumbered)
    (stepped : left.step call = some (heard, next)) :
    ∃ after, right.step call = some (heard, after) ∧ next.unnumbered = after.unnumbered := by
  have outcomes : right.outcome call = left.outcome call := by
    rw [← outcome_unnumbered, ← same, outcome_unnumbered]
  rw [outcome, outcome, stepped] at outcomes
  obtain ⟨⟨told, after⟩, beside, agree⟩ := Option.map_eq_some_iff.mp outcomes
  obtain ⟨rfl, agree⟩ := Prod.mk.inj agree
  exact ⟨after, beside, agree.symm⟩

def attempt (caller : Caller) (call : Call) : Caller :=
  match caller.step call with
  | some (_, next) => next
  | none => caller

theorem attempt_cases (caller : Caller) (call : Call) :
    caller.attempt call = caller ∨ ∃ heard, caller.Takes call heard (caller.attempt call) := by
  rw [attempt]
  cases stepped : caller.step call with
  | none => exact .inl rfl
  | some result => exact .inr ⟨result.1, takes_of_step stepped⟩

/-- Follow a program with detours. They are counted, since each may be another. -/
def followWith (detour : Nat → Caller → Caller) (caller : Caller) :
    Program → Option (List Made × Caller)
  | .done => some ([], detour 0 caller)
  | .make call next =>
      match (detour 0 caller).step call with
      | some (heard, after) =>
          (after.followWith (fun count => detour (count + 1)) (next heard)).map fun result =>
            (⟨detour 0 caller, call, heard⟩ :: result.1, result.2)
      | none => none
  | .ask question next =>
      match (detour 0 caller).place? with
      | some place =>
          (detour 0 caller).followWith (fun count => detour (count + 1))
            (next (question.answer place (detour 0 caller).document))
      | none => none

/-- A relation between callers that cannot be told apart by calls and questions of these kinds. -/
structure Alike (calls : Call → Prop) (asks : Inquiry → Prop)
    (related : Caller → Caller → Prop) : Prop where
  symm {left right : Caller} : related left right → related right left
  place {left right : Caller} : related left right → left.place? = right.place?
  document {left right : Caller} : related left right →
    left.document.sinkless = right.document.sinkless
  answer {left right : Caller} {question : Inquiry} : related left right → asks question →
    ∀ place, question.answer place left.document = question.answer place right.document
  step {left right next : Caller} {call : Call} {heard : Except Error Unit} :
    related left right → calls call → left.step call = some (heard, next) →
      ∃ after, right.step call = some (heard, after) ∧ related next after

variable {calls : Call → Prop} {asks : Inquiry → Prop} {related : Caller → Caller → Prop}

theorem Alike.steps (alike : Alike calls asks related) (both : related left right)
    (allowed : calls call) :
    Option.Rel (fun first second => first.1 = second.1 ∧ related first.2 second.2)
      (left.step call) (right.step call) := by
  cases stepped : left.step call with
  | some result =>
    obtain ⟨after, beside, still⟩ := alike.step both allowed stepped
    rw [beside]
    exact .some ⟨rfl, still⟩
  | none =>
    cases beside : right.step call with
    | none => exact .none
    | some result =>
      obtain ⟨after, same, -⟩ := alike.step (alike.symm both) allowed beside
      rw [stepped] at same
      cases same

/-- A program hears the same with detours and without, and what it leaves cannot be told apart. -/
theorem Alike.followWith (alike : Alike calls asks related) {detour : Nat → Caller → Caller}
    (returns : ∀ count {left right}, related left right → related (detour count left) right)
    {program : Program} (within : program.Within calls asks) (both : related left right) :
    Option.Rel (fun told history =>
        told.1.map Made.report = history.1.map Made.report ∧ related told.2 history.2)
      (left.followWith detour program) (right.follow program) := by
  induction program generalizing left right detour with
  | done => exact .some ⟨rfl, returns 0 both⟩
  | make call rest ih =>
    -- The detour comes first, so the call is made by the caller that returned from it.
    have back := returns 0 both
    have steps := alike.steps back within.1
    rw [Caller.followWith, follow]
    generalize stepped : (detour 0 left).step call = first at steps ⊢
    generalize beside : right.step call = second at steps ⊢
    cases steps with
    | none => exact .none
    | @some first second agree =>
      obtain ⟨heard, next⟩ := first
      obtain ⟨told, after⟩ := second
      obtain ⟨rfl, still⟩ := agree
      have later := ih heard (fun count => returns (count + 1)) (within.2 heard) still
      dsimp only
      generalize next.followWith _ (rest heard) = first at later ⊢
      generalize after.follow (rest heard) = second at later ⊢
      cases later with
      | none => exact .none
      | some agree =>
        have same : Made.report ⟨detour 0 left, call, heard⟩ =
            Made.report ⟨right, call, heard⟩ := by
          rw [Made.report, Made.report]
          dsimp only
          rw [stepped, beside, Option.map_some, Option.map_some, alike.document still]
        exact .some ⟨by rw [List.map_cons, List.map_cons, same, agree.1], agree.2⟩
  | ask question rest ih =>
    have back := returns 0 both
    rw [Caller.followWith, follow, alike.place back]
    cases right.place? with
    | none => exact .none
    | some place =>
      dsimp only
      rw [alike.answer back within.1]
      exact ih _ (fun count => returns (count + 1)) (within.2 _) back

/-- What is left of a run: what was seen of each call, the document as far as it is looked at, and
all that sinks have taken. -/
def remains {ν : Type} (view : Document → ν) (result : List Made × Caller) :
    List (Call × Except Error Unit × Option Document) × ν × List UInt8 :=
  (result.1.map Made.report, view result.2.document, result.2.output)

theorem Alike.remains_eq {ν : Type} {view : Document → ν} (alike : Alike calls asks related)
    (seen : ∀ {left right}, related left right →
      view left.document = view right.document ∧ left.output = right.output)
    {detour : Nat → Caller → Caller}
    (returns : ∀ count {left right}, related left right → related (detour count left) right)
    {program : Program} (within : program.Within calls asks) (both : related left right) :
    (left.followWith detour program).map (remains view) =
      (right.follow program).map (remains view) := by
  have beside := alike.followWith returns within both
  generalize left.followWith detour program = told at beside ⊢
  generalize right.follow program = history at beside ⊢
  cases beside with
  | none => rfl
  | some agree =>
    obtain ⟨reports, still⟩ := agree
    obtain ⟨documents, outputs⟩ := seen still
    rw [Option.map_some, Option.map_some, remains, remains, reports, documents, outputs]

end Caller
end HtmlWriter
