import HtmlWriter.Proofs.Calls
import HtmlWriter.Proofs.Unlimited

/-! The exclusions follow the open elements. Whatever a caller did before, the exclusions in
force are those of the elements whose body it entered and neither ended nor abandoned, so what
is let through at a place depends on the place and on these elements alone. -/

namespace HtmlWriter
open Script Document Writing
variable {ε σ α β : Type}

namespace Writing

private theorem indentUnits_throws (count : Nat) : Throws Error.OfSink (indentUnits count) :=
  .bind (.demand _) fun _ => .ite (write_throws _) (.pure _)

/-- Where no start tag is unfinished, only the sink can fail what comes before an element. -/
private theorem lead_throws {document : Document} (idle : document.unfinished = none) (tag : Tag)
    {error : Error} {final : Document} (failed : (lead tag).run document = .error error final) :
    error.OfSink := by
  unfold lead at failed
  split at failed
  case h_1 | h_2 =>
    rw [indentFresh, run_refuseInTag_bind idle] at failed
    exact (Throws.bind .get fun _ => .ite (indentUnits_throws _) (.pure _)) failed
  all_goals
    rw [freshIndentedLine, freshLine, bind_assoc, run_refuseInTag_bind idle] at failed
    refine (Throws.bind (.bind .get fun _ => .ite (write_throws _) (.pure _)) fun _ => ?_) failed
    exact .bind .get fun _ => .ite (indentUnits_throws _) (.pure _)

private theorem beginTag_throws (tag : Tag) (namespaced : Bool) :
    Throws Error.OfSink (beginTag tag namespaced) := by
  unfold beginTag
  refine .bind (write_throws _) fun _ => .bind (write_throws _) fun _ => .ite ?_ (.modify _)
  exact .bind (write_throws _) fun _ => .bind (write_throws _) fun _ =>
    .bind (write_throws _) fun _ => .modify _

private theorem startTag_throws {document : Document} (idle : document.unfinished = none)
    (tag : Tag)
    (namespaced : Bool) (start : StartTag) {error : Error} {final : Document}
    (failed : (do
      lead tag
      beginTag tag namespaced
      return start : Writing StartTag).run document = .error error final) : error.OfSink := by
  rw [Action.run_bind] at failed
  cases led : (lead tag).run document with
  | error cause middle =>
    rw [led] at failed
    cases failed
    exact lead_throws idle tag led
  | ok value middle =>
    rw [led] at failed
    exact (Throws.bind (beginTag_throws tag namespaced) fun _ => .pure start) failed

end Writing

namespace Place

/-- What becomes of an element at a place inside of these open elements. Of those that forbid
it the innermost is named. -/
def verdict (place : Place) (doctype : Doctype) (around : Path) (tag : Tag) : Except Error Unit :=
  if !tag.definition.support.allows doctype then .error (.unsupportedElement tag doctype)
  else if !place.model.allows tag tag.categories then
    .error (.illegalNesting place.parent (.element tag))
  else match around.forbidding? tag with
    | some ancestor => .error (.forbiddenDescendant ancestor tag)
    | none => .ok ()

private theorem check_eq_verdict {document : Document} {around : Path}
    (excluded : document.exclusions = around.exclusions) (place : Place) (tag : Tag) :
    place.check document tag = place.verdict document.doctype around tag := by
  have found := around.find?_exclusions tag
  simp only [check, verdict, excluded, ← found]
  cases around.exclusions.find? fun entry => entry.2.forbids tag tag.categories <;> rfl

private theorem verdict_eq_ok_iff {place : Place} {doctype : Doctype} {around : Path} {tag : Tag} :
    place.verdict doctype around tag = .ok () ↔
      tag.definition.support.allows doctype ∧ place.model.allows tag tag.categories ∧
        ∀ ancestor ∈ around, ¬ ancestor.definition.exclusion.forbids tag tag.categories := by
  unfold verdict
  cases tag.definition.support.allows doctype <;>
    cases place.model.allows tag tag.categories <;> simp
  cases found : around.forbidding? tag with
  | none => simpa [Path.forbidding?] using found
  | some ancestor =>
    rw [Path.forbidding?] at found
    simpa using ⟨ancestor, List.mem_of_find?_eq_some found, by simpa using List.find?_some found⟩

end Place

/-- A run that is judged beforehand: what is rejected fails with the reason and has changed
nothing, and what is let through fails for nothing but the sink. -/
def Judged (verdict : Except Error Unit) (document : Document) :
    EStateM.Result Error Document α → Prop
  | .ok _ _ => verdict = .ok ()
  | .error error final =>
      (verdict = .error error ∧ final = document) ∨ (verdict = .ok () ∧ error.OfSink)

theorem Judged.passed {document : Document} {result : EStateM.Result Error Document α}
    (failed : ∀ error final, result = .error error final → error.OfSink) :
    Judged (.ok ()) document result := by
  cases result with
  | ok value final => rfl
  | error error final => exact .inr ⟨rfl, failed error final rfl⟩

theorem Place.element_judged (place : Place) {document : Document}
    (idle : document.unfinished = none) (tag : Tag) :
    Judged (place.check document tag) document ((place.element tag).run document) := by
  rw [Place.element_eq, run_refuseInTag_bind idle]
  change Judged _ _ ((MonadExcept.ofExcept (place.check document tag) >>= fun _ => do
    lead tag
    beginTag tag (tag.isNamespaced document.serialization)
    pure _ : Writing StartTag).run document)
  cases place.check document tag with
  | error error => exact .inl ⟨rfl, rfl⟩
  | ok value => exact .passed fun error final failed => startTag_throws idle tag _ _ failed

theorem StartTag.openBody_ok {start : StartTag} {body : Body} {document final : Document}
    (ran : start.openBody.run document = .ok body final) :
    start.tag.definition.isVoid = false ∧ ∃ begun : Document,
      begun.standing = document.standing ∧ final = begun.entered start.tag ∧
      body = ⟨start.tag, ⟨some start.tag, start.model⟩,
        some ⟨begun.format.toFormatSettings, begun.exclusions.length⟩⟩ := by
  rw [openBody_eq] at ran
  cases isVoid : start.tag.definition.isVoid with
  | true =>
    rw [if_pos isVoid] at ran
    cases ran
  | false =>
    rw [if_neg (ne_true_of_eq_false isVoid), ← bind_assoc, Action.run_bind] at ran
    have kept : Keeps standing (bracket >>= fun _ => beginBody start.tag) :=
      .bind bracket_keeps fun _ => (beginBody_prints _).keepsStanding
    cases begins : (bracket >>= fun _ => beginBody start.tag).run document with
    | error error middle =>
      rw [begins] at ran
      cases ran
    | ok value begun =>
      rw [begins] at ran
      simp only [Action.run_bind, run_enter] at ran
      cases ran
      exact ⟨rfl, begun, kept.of_ok begins, rfl, rfl⟩

theorem StartTag.writeBody_ok {start : StartTag} {content : Place → Writing Unit}
    {document final : Document}
    (ran : (start.writeBody (ε := Error) content).run document = .ok () final) :
    ∃ inside middle : Document, inside.serialization = document.serialization ∧
      (content ⟨some start.tag, start.model⟩).run inside = .ok () middle := by
  change (start.openBody >>= fun body =>
    (tryCatch (content body.place) fun failure => do
      body.abandon
      throw failure : Writing Unit) >>= fun _ => body.close).run document = _ at ran
  obtain ⟨body, inside, opens, ran⟩ := ok_of_bind ran
  obtain ⟨-, begun, same, rfl, rfl⟩ := start.openBody_ok opens
  obtain ⟨⟨⟩, ended, tried, -⟩ := ok_of_bind ran
  refine ⟨begun.entered start.tag, ?_⟩
  rw [Action.run_tryCatch] at tried
  cases written : (content ⟨some start.tag, start.model⟩).run (begun.entered start.tag) with
  | ok value middle => exact ⟨middle, congrArg (·.serialization) same, rfl⟩
  | error error middle =>
    rw [written] at tried
    obtain ⟨⟨⟩, other, -, rethrown⟩ := ok_of_bind tried
    cases rethrown

namespace Caller

/-- Each body that was not ended has counted the exclusions beneath it. -/
def Counted : List Handle → Prop
  | [] => True
  | .body _ body :: outer =>
      (∀ around ∈ body.around, around.exclusions = (Handle.opens outer).exclusions.length) ∧
        Counted outer
  | .top :: outer | .tag _ _ :: outer => Counted outer

/-- The exclusions are those of the open elements, and can be put back to those of the open
elements further out. -/
structure Follows (base : Rules) (caller : Caller) : Prop where
  rules : caller.document.rules = { base with exclusions := caller.openElements.exclusions }
  counted : Counted caller.handles

variable {base : Rules} {caller next : Caller} {call : Call} {heard : Except Error Unit}

theorem Follows.of_same (follows : Follows base caller)
    (rules : next.document.rules = caller.document.rules)
    (opens : next.openElements = caller.openElements) (counted : Counted next.handles) :
    Follows base next :=
  ⟨by rw [rules, opens, follows.rules], counted⟩

theorem Follows.enter {element : Nat} {start : StartTag} {outer : List Handle} {body : Body}
    {document : Document} (follows : Follows base caller)
    (front : caller.handles = .tag element start :: outer)
    (ran : start.openBody.run caller.document = .ok body document) (added : List Piece) :
    Follows base (caller.becomes document (.body element body :: outer) added) := by
  obtain ⟨-, begun, same, rfl, rfl⟩ := start.openBody_ok ran
  have counted := follows.counted
  rw [front] at counted
  have rules : begun.rules = { base with exclusions := (Handle.opens outer).exclusions } := by
    have kept : begun.rules = caller.document.rules := congrArg Standing.toRules same
    rw [kept, follows.rules, openElements, front]
    rfl
  refine ⟨?_, ?_, counted⟩
  · change { begun.rules with
      exclusions := start.tag.ownExclusions ++ begun.rules.exclusions } = _
    rw [rules]
    rfl
  · rintro around ⟨⟩
    exact congrArg (fun rules => rules.exclusions.length) rules

theorem Follows.putsBack {element : Nat} {body : Body} {outer : List Handle} {around : Surroundings}
    (follows : Follows base caller) (front : caller.handles = .body element body :: outer)
    (held : body.around = some around) :
    around.PutsBack ⟨{ base with exclusions := (Handle.opens outer).exclusions }, around.settings⟩
      caller.document := by
  have opened : Handle.open? (.body element body) = some body.tag := by
    simp [Handle.open?, Body.isEnded, held]
  have rules := follows.rules
  rw [openElements, front, Handle.opens, List.filterMap_cons, opened] at rules
  have counted := follows.counted
  rw [front] at counted
  exact ⟨rfl, counted.1 around held, body.tag.ownExclusions, rules⟩

/-- Where a body is left the exclusions are those of the elements around it. -/
theorem Follows.leave {element : Nat} {body : Body} {outer : List Handle} {action : Writing Unit}
    (follows : Follows base caller) (front : caller.handles = .body element body :: outer)
    (leaves : ∀ around, body.around = some around → Leaves id around action)
    (kept : body.around = none → Keeps standing action) :
    (finalState action caller.document).rules =
      { base with exclusions := (Handle.opens outer).exclusions } := by
  cases held : body.around with
  | none =>
    have closed : Handle.open? (.body element body) = none := by
      simp [Handle.open?, Body.isEnded, held]
    have rules := follows.rules
    rw [openElements, front, Handle.opens, List.filterMap_cons, closed] at rules
    exact ((kept held).mono Standing.toRules caller.document).trans rules
  | some around =>
    exact congrArg Standing.toRules (leaves around held _ _ (follows.putsBack front held))

theorem follows_of_takes (follows : Follows base caller) (takes : caller.Takes call heard next) :
    Follows base next := by
  have outside {handle : Handle} {outer : List Handle} (front : caller.handles = handle :: outer) :
      Counted outer := by
    have counted := follows.counted
    rw [front] at counted
    cases handle with
    | body element body => exact counted.2
    | top | tag element start => exact counted
  have without {element : Nat} {start : StartTag} {outer : List Handle}
      (front : caller.handles = .tag element start :: outer) :
      Handle.opens outer = caller.openElements := by
    rw [openElements, front]
    rfl
  have same {action : Writing Unit} (kept : Keeps standing action) :
      (finalState action caller.document).rules = caller.document.rules :=
    kept.mono Standing.toRules caller.document
  cases takes with
  | @write place call here single =>
    exact follows.of_same (same (call.perform_keeps place)) rfl follows.counted
  | adjust here change => exact follows.of_same rfl rfl follows.counted
  | detach here => exact follows.of_same rfl rfl follows.counted
  | replaceSink here sink => exact follows.of_same rfl rfl follows.counted
  | top here => exact follows.of_same rfl rfl follows.counted
  | @started place tag start document here ran =>
    have kept := ((place.element_keeps tag).mono Standing.toRules).of_ok ran
    exact follows.of_same kept rfl follows.counted
  | @refused place tag error document here ran =>
    have kept := ((place.element_keeps tag).mono Standing.toRules).of_error ran
    exact follows.of_same kept rfl follows.counted
  | @added element start next outer requested document front ran =>
    have kept := ((start.add_keeps requested).mono Standing.toRules).of_ok ran
    have opens : Handle.opens outer = caller.openElements := without front
    have counted : Counted outer := outside front
    exact follows.of_same kept opens counted
  | @rejected element start outer requested error document front ran =>
    have kept := ((start.add_keeps requested).mono Standing.toRules).of_error ran
    exact follows.of_same kept (without front) (outside front)
  | @finish element start outer front ending =>
    exact follows.of_same (same (ending.finish_keeps start)) (without front) (outside front)
  | opened front ran => exact follows.enter front ran _
  | @unopened element start outer error document front ran =>
    have kept := start.openBody_opens caller.document
    rw [ran] at kept
    exact follows.of_same (congrArg Standing.toRules kept) (without front) (outside front)
  | @endBody element body outer front =>
    have left := follows.leave front (fun _ => body.close_leaves) body.close_keeps
    exact ⟨left, nofun, outside front⟩
  | @dropBody element body outer front =>
    exact ⟨follows.leave front (fun _ => body.close_leaves) body.close_keeps, outside front⟩
  | dropTop front =>
    refine follows.of_same rfl ?_ (outside front)
    rw [openElements, openElements, front]
    rfl
  | giveUp front => exact follows.of_same rfl (without front) (outside front)
  | @abandon element body outer front =>
    exact ⟨follows.leave front (fun _ => body.abandon_leaves) body.abandon_keeps, outside front⟩

theorem follows_start (sink : Sink) (parameters : Parameters) (encoder : Encoder) :
    Follows (Document.start sink parameters encoder).rules (start sink parameters encoder) :=
  ⟨rfl, trivial⟩

theorem follows_of_run {sink : Sink} {parameters : Parameters} {encoder : Encoder}
    {calls : List Call} {answers : List (Except Error Unit)}
    (ran : (start sink parameters encoder).run calls = some (answers, caller)) :
    Follows (Document.start sink parameters encoder).rules caller :=
  run_keeps (Follows _) (fun _ => True) (fun _ => True)
    (fun follows _ _ takes => follows_of_takes follows takes) ran
    (fun _ _ => trivial) (fun _ _ => trivial) (follows_start sink parameters encoder)

theorem Follows.check_eq {sink : Sink} {parameters : Parameters} {encoder : Encoder}
    (follows : Follows (Document.start sink parameters encoder).rules caller) (place : Place)
    (tag : Tag) : place.check caller.document tag =
      place.verdict parameters.doctype caller.openElements tag := by
  have doctype : caller.document.doctype = parameters.doctype :=
    congrArg Rules.doctype follows.rules
  rw [place.check_eq_verdict (congrArg Rules.exclusions follows.rules), doctype]

/-- Whatever a caller did and however its calls ended, the exclusions are those of the
elements open around it, and these alone decide with the place about the next element: it is
let through unless the document type does not know it, the place does not take it, or an open
element forbids it. After any other calls that lead to the same place inside of the same
elements, the same is let through. -/
theorem gate_follows_open_elements {sink : Sink} {parameters : Parameters} {encoder : Encoder}
    {calls : List Call} {answers : List (Except Error Unit)}
    (ran : (start sink parameters encoder).run calls = some (answers, caller)) :
    caller.document.exclusions = caller.openElements.flatMap Tag.ownExclusions ∧
    (∀ (place : Place) (tag : Tag), place.check caller.document tag = .ok () ↔
      tag.definition.support.allows parameters.doctype ∧
        place.model.allows tag tag.categories ∧
        ∀ ancestor ∈ caller.openElements,
          ¬ ancestor.definition.exclusion.forbids tag tag.categories) ∧
    (∀ (place : Place) (tag : Tag), caller.place? = some place →
      caller.document.unfinished = none →
      Judged (place.verdict parameters.doctype caller.openElements tag) caller.document
        ((place.element tag).run caller.document)) ∧
    ∀ {otherSink otherEncoder otherCalls otherAnswers other},
      (start otherSink parameters otherEncoder).run otherCalls = some (otherAnswers, other) →
      other.openElements = caller.openElements →
      ∀ (place : Place) (tag : Tag),
        place.check other.document tag = place.check caller.document tag := by
  have follows := follows_of_run ran
  refine ⟨congrArg Rules.exclusions follows.rules, fun place tag => ?_, fun place tag _ idle => ?_,
    fun otherRan same place tag => ?_⟩
  · rw [follows.check_eq, place.verdict_eq_ok_iff]
  · rw [← follows.check_eq]
    exact place.element_judged idle tag
  · rw [(follows_of_run otherRan).check_eq, follows.check_eq, same]

/-- After a body inside of a link was abandoned, the link still forbids a button wherever it
is tried. -/
theorem link_forbids_button : ∃ answers caller,
    (start {} {} .markup).run
      [.start .a, .openBody, .start .span, .openBody, .abandon, .start .button] =
        some (answers, caller) ∧
    answers.getLast? = some (.error (.forbiddenDescendant .a .button)) ∧
    caller.openElements = [.a] ∧
    caller.document.exclusions = Tag.ownExclusions .a ∧
    ∀ place : Place, place.check caller.document .button ≠ .ok () := by
  have seen : ((start {} {} .markup).run
      [.start .a, .openBody, .start .span, .openBody, .abandon, .start .button]).map
        (fun result => (result.1.getLast?, result.2.openElements)) =
      some (some (.error (.forbiddenDescendant .a .button)), [.a]) := rfl
  obtain ⟨⟨answers, caller⟩, ran, same⟩ := Option.map_eq_some_iff.mp seen
  obtain ⟨last, opens⟩ := Prod.mk.inj same
  obtain ⟨exclusions, gate, -⟩ := gate_follows_open_elements ran
  rw [opens] at exclusions gate
  refine ⟨answers, caller, ran, last, opens, exclusions, fun place passed => ?_⟩
  exact ((gate place .button).mp passed).2.2 .a (.head _) (by decide)

end Caller
end HtmlWriter
