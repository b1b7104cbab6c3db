import HtmlWriter.Proofs.Outlines
import HtmlWriter.Proofs.Printing

/-! The content model in effect at the end of a path of open elements. Each element settles its
model against the one in effect around it, which was settled the same way. What comes of that can be
told from the path at once: the innermost element with a model of its own decides, and the
transparent elements inside of it add to what it decides. -/

namespace HtmlWriter
open Writing

theorem Categories.intersects_iff {first second : Categories} : first.intersects second = true ↔
    ∃ category, first.contains category = true ∧ second.contains category = true := by
  have spelled : ∀ index : Fin 10, ∃ category ∈ Category.all, Indexed.index category = index := by
    decide
  rw [BitSet.intersects, bne_iff_ne]
  constructor
  · intro meet
    -- If they had none in common, every bit would be off in one of them.
    refine Classical.byContradiction fun apart => meet (BitVec.eq_of_getLsbD_eq fun index below => ?_)
    obtain ⟨category, -, same⟩ := spelled ⟨index, below⟩
    have bit : (Indexed.index category : Fin 10).val = index := congrArg Fin.val same
    have zero : (0 : BitVec 10).getLsbD index = false := by simp
    rw [BitVec.getLsbD_and, zero, ← bit, Bool.and_eq_false_imp]
    exact fun one => eq_false_of_ne_true fun other => apart ⟨category, one, other⟩
  · rintro ⟨category, one, other⟩ none
    have bit : (first.bits &&& second.bits).getLsbD (Indexed.index category : Fin 10) = true := by
      rw [BitVec.getLsbD_and, Bool.and_eq_true]
      exact ⟨one, other⟩
    rw [none] at bit
    simp at bit

namespace ContentModel
variable {model : ContentModel}

theorem allows_iff {tag : Tag} {categories : Categories} : model.allows tag categories = true ↔
    (∃ category, categories.contains category = true ∧
      model.categories.contains category = true) ∨ model.tags.contains tag = true := by
  rw [allows, Bool.or_eq_true, Categories.intersects_iff]

theorem allowsText_iff : model.allowsText = true ↔ model.categories.contains .flow = true ∨
    model.categories.contains .phrasing = true ∨ model.categories.contains .text = true := by
  rw [allowsText, Categories.intersects_iff]
  simp [Categories.textRun]

end ContentModel

namespace Path

/-- The content model of the innermost element that has one of its own. Outside of all such
elements anything is accepted. -/
def ground (path : Path) : ContentModel :=
  match path.find? (!·.definition.content.transparent) with
  | some element => element.definition.content
  | none => .anything

/-- The transparent elements inside of that element. -/
def transparents (path : Path) : List Tag := path.takeWhile (·.definition.content.transparent)

section
variable {element : Tag} {around : Path}

private theorem ground_solid (solid : element.definition.content.transparent = false) :
    ground (element :: around) = element.definition.content := by
  rw [ground, List.find?_cons_of_pos (by rw [solid]; rfl)]

private theorem ground_transparent (transparent : element.definition.content.transparent = true) :
    ground (element :: around) = ground around := by
  rw [ground, List.find?_cons_of_neg (by rw [transparent]; nofun), ground]

private theorem transparents_solid (solid : element.definition.content.transparent = false) :
    transparents (element :: around) = [] :=
  List.takeWhile_cons_of_neg (by rw [solid]; nofun)

private theorem transparents_transparent
    (transparent : element.definition.content.transparent = true) :
    transparents (element :: around) = element :: transparents around :=
  List.takeWhile_cons_of_pos transparent

end

/-- A content model that is what a path comes to. -/
structure Governs (path : Path) (model : ContentModel) : Prop where
  settled : model.transparent = false
  categories : model.categories = path.ground.categories
  tags : ∀ tag, model.tags.contains tag = true ↔ path.ground.tags.contains tag = true ∨
    ∃ element ∈ path.transparents, element.definition.content.tags.contains tag = true

theorem governs_model (path : Path) : path.Governs path.model := by
  induction path with
  | nil =>
    refine ⟨rfl, rfl, fun tag => ?_⟩
    rw [transparents, List.takeWhile_nil]
    exact ⟨.inl, fun either => either.resolve_right nofun⟩
  | cons element around ih =>
    cases kind : element.definition.content.transparent with
    | false =>
      rw [model, ContentModel.inside, if_neg (ne_true_of_eq_false kind)]
      refine ⟨kind, by rw [ground_solid kind], fun tag => ?_⟩
      rw [ground_solid kind, transparents_solid kind]
      exact ⟨.inl, fun either => either.resolve_right nofun⟩
    | true =>
      rw [model, ContentModel.inside, if_pos kind]
      refine ⟨rfl, by rw [ground_transparent kind, ← ih.categories], fun tag => ?_⟩
      rw [ground_transparent kind, transparents_transparent kind, BitSet.contains_union,
        Bool.or_eq_true, ih.tags tag, or_assoc]
      simp only [List.mem_cons, exists_eq_or_imp]
      exact or_congr_right or_comm

def Admits (path : Path) (child : Tag) : Prop :=
  (∃ category, child.categories.contains category = true ∧
    path.ground.categories.contains category = true) ∨
  path.ground.tags.contains child = true ∨
  ∃ element ∈ path.transparents, element.definition.content.tags.contains child = true

def AdmitsText (path : Path) : Prop :=
  path.ground.categories.contains .flow = true ∨ path.ground.categories.contains .phrasing = true ∨
    path.ground.categories.contains .text = true

namespace Governs
variable {path : Path} {model : ContentModel}

theorem allows_iff (governs : path.Governs model) (child : Tag) :
    model.allows child child.categories = true ↔ path.Admits child := by
  rw [ContentModel.allows_iff, governs.categories, governs.tags, Admits]

theorem allowsText_iff (governs : path.Governs model) :
    model.allowsText = true ↔ path.AdmitsText := by
  rw [ContentModel.allowsText_iff, governs.categories, AdmitsText]

end Governs
end Path

/-- Of an element that the document type knows it is reported that it may not stand at a place if
the model does not allow it, and only then. -/
theorem Place.element_misplaced_iff (place : Place) {document : Document} {tag : Tag}
    (idle : document.unfinished = none)
    (supported : tag.definition.support.allows document.doctype = true) :
    (place.element tag).verdict document = .error (.illegalNesting place.parent (.element tag)) ↔
      ¬place.model.allows tag tag.categories = true := by
  have judged := place.element_judged idle tag
  have found : place.check document tag = .error (.illegalNesting place.parent (.element tag)) ↔
      ¬place.model.allows tag tag.categories = true := by
    rw [Place.check, supported]
    cases place.model.allows tag tag.categories with
    | false => exact iff_of_true rfl Bool.false_ne_true
    | true =>
      refine iff_of_false (fun same => ?_) fun refused => refused rfl
      cases found : document.exclusions.find? fun entry => entry.2.forbids tag tag.categories with
      | none =>
        rw [found] at same
        cases same
      | some entry =>
        rw [found] at same
        cases same
  rw [← found, Writing.verdict]
  cases ran : (place.element tag).run document with
  | ok start final =>
    rw [ran] at judged
    refine iff_of_false (fun same => by cases same) fun refused => ?_
    rw [show place.check document tag = _ from judged] at refused
    cases refused
  | error error final =>
    rw [ran] at judged
    obtain ⟨refused, -⟩ | ⟨passed, ofSink⟩ := judged
    · rw [refused]
    · rw [passed]
      refine iff_of_false (fun same => ?_) fun refused => by cases refused
      cases same
      cases ofSink

/-- The causes that say nothing about where a child stands. -/
def Error.OtherThanNesting (error : Error) : Prop :=
  ∀ parent child, error ≠ .illegalNesting parent child

theorem Prints.otherThanNesting {α : Type} {kind : Char → Prop} {offset? : Option Int64}
    {action : Writing α} (prints : Prints kind offset? action) :
    Throws Error.OtherThanNesting action := by
  rintro document error final failed parent child rfl
  cases prints.throws failed

theorem Writing.textInside_otherThanNesting (parent : Option Tag) (content : String) :
    Throws Error.OtherThanNesting (textInside parent content) := by
  have rejected (tag : Tag) :
      Throws Error.OtherThanNesting (throw (.invalidRawText tag) : Writing Unit) := by
    rintro document error final ⟨⟩ parent child same
    cases same
  have encoded := (encodedText_prints content).otherThanNesting
  unfold textInside
  refine .bind .get fun document => ?_
  cases parent with
  | none => exact encoded
  | some tag =>
    refine .ite (.bind .get fun _ => .ite (.bind (rejected tag) fun _ => ?_) ?_) encoded <;>
      exact .bind (Prints.any content).otherThanNesting fun _ => .modify _

/-- Of text it is reported that it may not stand at a place if the model does not allow text, and
only then. -/
theorem Place.text_misplaced_iff (place : Place) {document : Document}
    (idle : document.unfinished = none) (content : String) :
    (place.text content).verdict document = .error (.illegalNesting place.parent .text) ↔
      ¬place.model.allowsText = true := by
  have reads : (place.text content).verdict document =
      (if !place.model.allowsText then throw (.illegalNesting place.parent .text)
        else if !content.isEmpty then indentFresh 0 >>= fun _ => textInside place.parent content
        else pure () : Writing Unit).verdict document := by
    rw [Writing.verdict, Writing.verdict, Place.text, run_refuseInTag_bind idle]
    cases place.model.allowsText <;> rfl
  rw [reads]
  cases place.model.allowsText with
  | false => exact iff_of_true rfl Bool.false_ne_true
  | true =>
    have throws : Throws Error.OtherThanNesting
        (if !content.isEmpty then indentFresh 0 >>= fun _ => textInside place.parent content
          else pure () : Writing Unit) :=
      .ite (.bind (indentFresh_prints 0).otherThanNesting fun _ =>
        textInside_otherThanNesting _ _) (.pure _)
    refine iff_of_false (fun same => ?_) fun refused => refused rfl
    rw [if_neg (by decide), Writing.verdict] at same
    split at same
    · cases same
    · rename_i error final failed
      cases same
      exact throws failed _ _ rfl

namespace Handle

/-- The elements that were opened one in the other to get to a place, innermost first, from the top
level that was asked for last. Elements that have ended are still around what is held. -/
def path : List Handle → Path
  | [] | .top :: _ => []
  | .tag _ _ :: outer => path outer
  | .body _ opened :: outer => opened.tag :: path outer

/-- The start tags and bodies that are held have the models of their paths. -/
def Resolved : List Handle → Prop
  | [] => True
  | .top :: outer => Resolved outer
  | .tag _ start :: outer => start.model = Path.model (start.tag :: path outer) ∧ Resolved outer
  | .body _ opened :: outer => opened.place = Path.place (opened.tag :: path outer) ∧ Resolved outer

theorem Resolved.tail {handle : Handle} {outer : List Handle}
    (resolved : Resolved (handle :: outer)) : Resolved outer := by
  cases handle with
  | top => exact resolved
  | tag element start | body element opened => exact resolved.2

theorem Resolved.place {handles : List Handle} {place : Place} (resolved : Resolved handles)
    (here : placeIn handles = some place) : place = (path handles).place := by
  cases handles with
  | nil =>
    cases here
    rfl
  | cons handle outer =>
    cases handle with
    | top =>
      cases here
      rfl
    | tag element start => cases here
    | body element opened =>
      cases here
      exact resolved.1

end Handle

private theorem Place.element_settles (place : Place) (tag : Tag) :
    Yields (fun start : StartTag => start.tag = tag ∧
      start.model = tag.definition.content.inside place.model) (place.element tag) := by
  rw [Place.element_eq]
  exact .bind fun _ => .bind fun _ => .bind fun _ => .bind fun _ => .bind fun _ => .pure ⟨rfl, rfl⟩

namespace Caller
variable {caller next : Caller} {call : Call} {heard : Except Error Unit}

theorem Takes.resolved (takes : caller.Takes call heard next)
    (resolved : Handle.Resolved caller.handles) : Handle.Resolved next.handles := by
  have behind {handle : Handle} {outer : List Handle} (front : caller.handles = handle :: outer) :
      Handle.Resolved (handle :: outer) := front ▸ resolved
  cases takes with
  | write here | adjust here | detach here | replaceSink here | refused here => exact resolved
  | top here => exact resolved
  | @started place tag start document here ran =>
    obtain ⟨rfl, model⟩ := place.element_settles tag ran
    refine ⟨?_, resolved⟩
    rw [model, resolved.place here]
    rfl
  | @added element start after outer requested document front ran =>
    obtain ⟨tag, model⟩ := start.add_same requested ran
    refine ⟨?_, (behind front).tail⟩
    rw [tag, model]
    exact (behind front).1
  | @opened element start outer body document front ran =>
    obtain ⟨-, begun, -, -, rfl⟩ := start.openBody_ok ran
    refine ⟨?_, (behind front).tail⟩
    change (⟨some start.tag, start.model⟩ : Place) = _
    rw [(behind front).1]
    rfl
  | endBody front => exact ⟨(behind front).1, (behind front).2⟩
  | rejected front | finish front | unopened front | dropBody front | dropTop front | giveUp front
  | abandon front => exact (behind front).tail

theorem run_resolved {sink : Sink} {parameters : Parameters} {encoder : Encoder}
    {calls : List Call} {answers : List (Except Error Unit)}
    (ran : (start sink parameters encoder).run calls = some (answers, caller)) :
    Handle.Resolved caller.handles :=
  run_keeps (fun caller => Handle.Resolved caller.handles) (fun _ => True) (fun _ => True)
    (fun resolved _ _ takes => takes.resolved resolved) ran (fun _ _ => trivial)
    (fun _ _ => trivial) trivial

/-- However a caller got to a place, the model there is the one that the elements come to in which
it was opened, and what is refused for where it stands is what they do not admit. -/
theorem effective_model_has_closed_form {sink : Sink} {parameters : Parameters} {encoder : Encoder}
    {calls : List Call} {answers : List (Except Error Unit)} {place : Place}
    (ran : (start sink parameters encoder).run calls = some (answers, caller))
    (here : caller.place? = some place) :
    let path := Handle.path caller.handles
    path.Governs place.model ∧
      (∀ child, place.model.allows child child.categories = true ↔ path.Admits child) ∧
      (place.model.allowsText = true ↔ path.AdmitsText) ∧
      (caller.document.unfinished = none →
        (∀ child, child.definition.support.allows caller.document.doctype = true →
          ((place.element child).verdict caller.document =
            .error (.illegalNesting place.parent (.element child)) ↔ ¬path.Admits child)) ∧
        ∀ content, (place.text content).verdict caller.document =
          .error (.illegalNesting place.parent .text) ↔ ¬path.AdmitsText) := by
  intro path
  have governs : path.Governs place.model := by
    rw [(run_resolved ran).place here]
    exact path.governs_model
  refine ⟨governs, governs.allows_iff, governs.allowsText_iff, fun idle => ⟨?_, ?_⟩⟩
  · intro child supported
    rw [place.element_misplaced_iff idle supported, governs.allows_iff]
  · intro content
    rw [place.text_misplaced_iff idle, governs.allowsText_iff]

/-- In an insertion in an object in a paragraph, a parameter of the object may stand, and phrasing
content as in the paragraph, but no division. -/
theorem object_adds_through_insertion : ∃ answers caller place,
    (start {} {} .markup).run
        [.start .p, .openBody, .start .object, .openBody, .start .ins, .openBody] =
      some (answers, caller) ∧ caller.place? = some place ∧
      place.model.allows .param Tag.param.categories = true ∧
      place.model.allowsText = true ∧
      (place.element .div).verdict caller.document =
        .error (.illegalNesting (some .ins) (.element .div)) := by
  have seen : ((start {} {} .markup).run
      [.start .p, .openBody, .start .object, .openBody, .start .ins, .openBody]).map (fun result =>
        (Handle.path result.2.handles, result.2.place?.map Place.parent,
          result.2.document.unfinished, result.2.document.doctype)) =
      some ([.ins, .object, .p], some (some .ins), none, .html5) := by
    decide +kernel
  obtain ⟨⟨answers, caller⟩, ran, same⟩ := Option.map_eq_some_iff.mp seen
  simp only [Prod.mk.injEq, Option.map_eq_some_iff] at same
  obtain ⟨path, ⟨place, here, parent⟩, idle, doctype⟩ := same
  obtain ⟨-, allows, allowsText, gate⟩ := effective_model_has_closed_form ran here
  rw [path] at allows allowsText gate
  refine ⟨answers, caller, place, ran, here, (allows .param).mpr ?_, allowsText.mpr ?_, ?_⟩
  · exact .inr (.inr ⟨.object, by decide +kernel, by decide +kernel⟩)
  · exact .inr (.inl (by decide +kernel))
  · have refused := (gate idle).1 .div (by rw [doctype]; rfl)
    rw [parent] at refused
    refine refused.mpr ?_
    rw [← (Path.governs_model _).allows_iff]
    decide +kernel

end Caller
end HtmlWriter
