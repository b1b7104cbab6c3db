import HtmlWriter.Proofs.Standing

/-! Entering and leaving bodies. Inside a body the exclusions from around it lie beneath
those of the elements opened since, so the settings and the count that were saved are
enough to put back what stood, on whichever way the body is left. -/

namespace HtmlWriter
open Document Writing
variable {ε σ α β : Type}

namespace Writing

theorem run_refuseInTag_idle {document : Document} (idle : document.unfinished = none)
    (attempt : Attempt) : (refuseInTag attempt).run document = .ok () document := by
  simp only [refuseInTag, Action.run_bind, Action.run_get, idle]
  rfl

theorem run_refuseInTag_waiting {document : Document} {pending : Tag}
    (waiting : document.unfinished = some pending) (attempt : Attempt) :
    (refuseInTag attempt).run document = .error (.tagInProgress pending attempt) document := by
  simp only [refuseInTag, Action.run_bind, Action.run_get, waiting]
  rfl

end Writing

/-- From inside a body, what stood around it can be put back: the settings were saved, and
the rules have only gained exclusions, on top of the ones that were counted. -/
structure Surroundings.PutsBack (around : Surroundings) (outer : Standing)
    (document : Document) : Prop where
  settings : around.settings = outer.settings
  count : around.exclusions = outer.exclusions.length
  beneath : ∃ opened, document.rules =
    { outer.toRules with exclusions := opened ++ outer.exclusions }

theorem Surroundings.PutsBack.mono {around : Surroundings} {outer : Standing}
    {document later : Document} (inside : around.PutsBack outer document)
    (same : later.rules = document.rules) : around.PutsBack outer later :=
  ⟨inside.settings, inside.count, same ▸ inside.beneath⟩

theorem leave_putsBack {around : Surroundings} {outer : Standing} {document : Document}
    (inside : around.PutsBack outer document) :
    (finalState (leave around) document).standing = outer := by
  obtain ⟨opened, rules⟩ := inside.beneath
  have exclusions : document.exclusions = opened ++ outer.exclusions :=
    congrArg Rules.exclusions rules
  have dropped : document.exclusions.drop (document.exclusions.length - around.exclusions) =
      outer.exclusions := by
    rw [exclusions, inside.count, List.length_append, Nat.add_sub_cancel]
    exact List.drop_left
  have kept : finalState (leave around) document = { document with
      format := document.format.set around.settings
      exclusions := outer.exclusions
      rawSuffix := [] } := by
    rw [← dropped]
    rfl
  rw [kept]
  simp only [Document.rules, Rules.mk.injEq] at rules
  simp only [Document.standing, Document.rules, Format.set, rules, inside.settings]

/-- An action that leaves a body: run anywhere inside the body, it puts back what stood
around, whether it succeeds or fails. The document may be a part of the state. -/
def Leaves (document : σ → Document) (around : Surroundings) (action : Action ε σ α) : Prop :=
  ∀ outer state, around.PutsBack outer (document state) →
    (document (finalState action state)).standing = outer

namespace Leaves
variable {document : σ → Document} {around : Surroundings}

theorem bind {first : Action ε σ α} {next : α → Action ε σ β}
    (left : Leaves document around first)
    (kept : ∀ value, Keeps (standing ∘ document) (next value)) :
    Leaves document around (first >>= next) := by
  intro outer state inside
  have restored := left outer state inside
  rw [finalState] at restored
  cases ran : first.run state with
  | ok value middle =>
    rw [ran] at restored
    rw [finalState_bind_ok ran]
    exact (kept value middle).trans restored
  | error error middle =>
    rw [ran] at restored
    rw [finalState_bind_error ran]
    exact restored

end Leaves

private theorem leaves_tryFinally {around : Surroundings} {written : Writing Unit}
    (kept : Keeps rules written) : Leaves id around (tryFinally written (leave around)) := by
  intro outer document inside
  have same : finalState (tryFinally written (leave around)) document =
      finalState (leave around) (finalState written document) := by
    rw [tryFinally_eq, finalState, finalState, finalState, Action.run_bind, Action.run_tryCatch]
    cases written.run document <;> rfl
  rw [id, same]
  exact leave_putsBack (inside.mono (kept document))

theorem leave_leaves (around : Surroundings) : Leaves id around (leave around) :=
  fun _ _ inside => leave_putsBack inside

theorem endBody_leaves (tag : Tag) (around : Surroundings) :
    Leaves id around (endBody tag around) := by
  unfold endBody
  split
  · exact leaves_tryFinally ((endTag_keeps tag).mono Standing.toRules)
  all_goals
    refine (leave_leaves around).bind fun _ => ?_
    first
    | exact .bind (freshIndentedLine_prints 0).keepsStanding fun _ => endTag_keeps tag
    | exact .bind (indentFresh_prints 0).keepsStanding fun _ => endTag_keeps tag

namespace Body

theorem abandon_leaves (body : Body) {around : Surroundings} (held : body.around = some around) :
    Leaves id around body.abandon := by
  simp only [abandon, held]
  exact leave_leaves around

theorem abandon_keeps {body : Body} (ended : body.around = none) : Keeps standing body.abandon := by
  simp only [abandon, ended]
  exact .pure ()

theorem close_leaves (body : Body) {around : Surroundings} (held : body.around = some around) :
    Leaves id around body.close := by
  intro outer document inside
  rw [close_eq held]
  cases waiting : document.unfinished with
  | none =>
    have checked : (tryCatch (refuseInTag .endTag) fun error => do
        leave around
        throw error : Writing Unit).run document = .ok () document := by
      rw [Action.run_tryCatch, run_refuseInTag_idle waiting]
    rw [finalState_bind_ok checked]
    exact ((endBody_leaves body.tag around).bind fun _ => (endLine_prints body.tag).keepsStanding)
      outer document inside
  | some pending =>
    obtain ⟨last, refused⟩ :=
      run_tryCatch_rethrow (fun _ => leave around) (run_refuseInTag_waiting waiting .endTag)
    rw [finalState_bind_error refused]
    exact leave_putsBack inside

theorem close_keeps {body : Body} (ended : body.around = none) : Keeps standing body.close := by
  rw [close_ended ended]
  exact .pure ()

end Body

/-- The exclusion that an element adds, unless it forbids nothing. -/
def Tag.ownExclusions (tag : Tag) : List (Tag × Exclusion) :=
  if tag.definition.exclusion.isEmpty then [] else [(tag, tag.definition.exclusion)]

def Document.entered (document : Document) (tag : Tag) : Document :=
  { document with
    format := document.format.set (document.format.toFormatSettings.within tag.definition.layout)
    exclusions := tag.ownExclusions ++ document.exclusions
    rawSuffix := [] }

theorem run_enter (tag : Tag) (document : Document) :
    (enter tag).run document =
      .ok ⟨document.format.toFormatSettings, document.exclusions.length⟩ (document.entered tag) := by
  have pushed : (if tag.definition.exclusion.isEmpty then document.exclusions
      else (tag, tag.definition.exclusion) :: document.exclusions) =
      tag.ownExclusions ++ document.exclusions := by
    unfold Tag.ownExclusions
    split <;> rfl
  rw [Document.entered, ← pushed]
  rfl

/-- An action that enters a body: a body that was entered can be left again, and one that
could not be entered has changed nothing that stands. -/
def Opens (document : σ → Document) (opening : Action ε σ Body) : Prop :=
  ∀ state, match opening.run state with
    | .ok body entered => ∃ around, body.around = some around ∧
        around.PutsBack (document state).standing (document entered)
    | .error _ final => (document final).standing = (document state).standing

theorem StartTag.openBody_opens (start : StartTag) : Opens id start.openBody := by
  intro document
  rw [openBody_eq]
  by_cases isVoid : start.tag.definition.isVoid
  · rw [if_pos isVoid]
    rfl
  · rw [if_neg isVoid]
    have kept : Keeps standing (bracket >>= fun _ => beginBody start.tag) :=
      .bind bracket_keeps fun _ => (beginBody_prints _).keepsStanding
    rw [← bind_assoc, Action.run_bind]
    cases ran : (bracket >>= fun _ => beginBody start.tag).run document with
    | error error final => exact kept.of_error ran
    | ok value begun =>
      simp only [Action.run_bind, run_enter]
      have same := kept.of_ok ran
      rw [id, ← same]
      exact ⟨_, rfl, rfl, rfl, start.tag.ownExclusions, rfl⟩

theorem Opens.keeps {document : σ → Document} {opening : Action ε σ Body}
    {rest : Body → Action ε σ α} (opens : Opens document opening)
    (left : ∀ body around, body.around = some around → Leaves document around (rest body)) :
    Keeps (standing ∘ document) (opening >>= rest) := by
  intro state
  have opened := opens state
  cases entering : opening.run state with
  | error error final =>
    rw [entering] at opened
    rw [finalState_bind_error entering]
    exact opened
  | ok body entered =>
    rw [entering] at opened
    obtain ⟨around, held, inside⟩ := opened
    rw [finalState_bind_ok entering]
    exact left body around held _ _ inside

/-- Content that keeps the rules may change the settings and fail in any way. The body is
left if it fails, and what follows leaves it if it succeeds. -/
theorem leaves_tryCatch {document : σ → Document} {around : Surroundings}
    {content : Action ε σ Unit} {abandoning : ε → Action ε σ Unit} {rest : Action ε σ α}
    (kept : Keeps (rules ∘ document) content)
    (abandons : ∀ failure, Leaves document around (abandoning failure))
    (closes : Leaves document around rest) :
    Leaves document around (do
      tryCatch content fun failure => do
        abandoning failure
        throw failure
      rest) := by
  intro outer entered inside
  cases written : content.run entered with
  | ok value middle =>
    have passed :=
      Action.run_tryCatch content (fun failure => do abandoning failure; throw failure) entered
    rw [written] at passed
    rw [finalState_bind_ok passed]
    exact closes _ _ (inside.mono (kept.of_ok written))
  | error failure middle =>
    obtain ⟨last, ended⟩ := run_tryCatch_rethrow abandoning written
    rw [finalState_bind_error ended]
    exact abandons failure _ _ (inside.mono (kept.of_error written))

theorem StartTag.writeBody_keeps (start : StartTag) {content : Place → Writing Unit}
    (kept : ∀ place, Keeps rules (content place)) :
    Keeps standing (start.writeBody (ε := Error) content) :=
  start.openBody_opens.keeps fun body _ held =>
    leaves_tryCatch (kept body.place) (fun _ => body.abandon_leaves held) (body.close_leaves held)

def StartTag.writeChildren (start : StartTag) : List Node → Writing Unit
  | [] => start.close
  | [.text content] => start.text content
  | children => start.writeBody (ε := Error) fun inside => Node.writeAll inside children

theorem Node.write_element (place : Place) (tag : Tag) (attributes : List (String × String))
    (children : List Node) :
    (Node.element tag attributes children).write place = (do
      let start ← place.element tag
      let start ← start.addAll (attributes.map fun entry => .custom entry.1 entry.2)
      start.writeChildren children) := by
  rw [Node.write]
  congr

theorem StartTag.writeChildren_keeps (start : StartTag) {children : List Node}
    (kept : ∀ place, Keeps standing (Node.writeAll place children)) :
    Keeps standing (start.writeChildren children) := by
  unfold writeChildren
  split
  · exact close_keeps start
  · exact text_keeps start _
  · exact start.writeBody_keeps fun place => (kept place).mono Standing.toRules

mutual

theorem Node.write_keeps (place : Place) (node : Node) : Keeps standing (node.write place) :=
  match node with
  | .text content => by
    rw [Node.write]
    exact place.text_keeps content
  | .comment content => by
    rw [Node.write]
    exact comment_keeps content
  | .element tag attributes children => by
    rw [Node.write_element]
    exact .bind (place.element_keeps tag) fun start => .bind (start.addAll_keeps _) fun start =>
      start.writeChildren_keeps fun inside => Node.writeAll_keeps inside children
termination_by structural node

theorem Node.writeAll_keeps (place : Place) (nodes : List Node) :
    Keeps standing (Node.writeAll place nodes) :=
  match nodes with
  | [] => by
    rw [Node.writeAll]
    exact .pure ()
  | node :: rest => by
    rw [Node.writeAll]
    exact .bind (Node.write_keeps place node) fun _ => Node.writeAll_keeps place rest
termination_by structural nodes

end

end HtmlWriter
