import HtmlWriter.Proofs.Blocking
import HtmlWriter.Proofs.CutWrites

/-! Start tags in the output, and the one that the document takes for unfinished. A start tag is
written in many parts, and a sink may fail between any two of them, or within one. From its name
on, the document knows of it until its last bracket was taken whole. Before, it does not: a start
tag that is cut off between its first bracket and its attributes is left in the output, and nobody
is told. -/

namespace HtmlWriter
open Script Writing
variable {α : Type} {document final : Document}

def StartTag.mark (start : StartTag) (serialization : Serialization) : String :=
  if start.tag.definition.isVoid then serialization.selfClose else ">"

private theorem StartTag.mark_of_solid {start : StartTag}
    (solid : start.tag.definition.isVoid = false)
    (serialization : Serialization) : start.mark serialization = ">" :=
  if_neg (ne_true_of_eq_false solid)

private theorem StartTag.mark_ne (start : StartTag) (serialization : Serialization) :
    utf8 (start.mark serialization) ≠ [] := by
  unfold mark
  split
  · cases serialization <;> decide
  · decide

theorem Streams.extends {action : Writing α} (streams : Streams action) (document : Document) :
    ∃ bytes, (finalState action document).bytes = document.bytes ++ bytes := by
  obtain ⟨texts, part, writes⟩ := streams.writes document
  exact ⟨_, by rw [writes.follows.1, List.append_assoc]⟩

theorem Prints.keeps_unfinished {kind : Char → Prop} {offset? : Option Int64}
    {action : Writing α} (prints : Prints kind offset? action) : Keeps Document.unfinished action :=
  prints.keeps fun _ _ _ => rfl

namespace Writing

theorem textInside_keeps_unfinished (parent : Option Tag) (text : String) :
    Keeps Document.unfinished (textInside parent text) := by
  have encoded := (encodedText_prints text).keeps_unfinished
  refine .bind .get fun document => ?_
  split
  · refine .ite (.bind .get fun _ => .guarded (.bind (Prints.any text).keeps_unfinished ?_)) encoded
    exact fun _ => .modify fun _ => rfl
  · exact encoded

theorem endTag_keeps_unfinished (tag : Tag) : Keeps Document.unfinished (endTag tag) :=
  .bind (refuseInTag_prints _).keeps_unfinished fun _ => .bind (Prints.any _).keeps_unfinished
    fun _ => .bind (Prints.any _).keeps_unfinished fun _ =>
      .bind (Prints.any _).keeps_unfinished fun _ => .modify fun _ => rfl

theorem endElement_keeps_unfinished (tag : Tag) : Keeps Document.unfinished (endElement tag) :=
  .bind (endTag_keeps_unfinished tag) fun _ => (endLine_prints tag).keeps_unfinished

theorem leave_keeps_unfinished (around : Surroundings) :
    Keeps Document.unfinished (leave around) := .modify fun _ => rfl

theorem endBody_keeps_unfinished (tag : Tag) (around : Surroundings) :
    Keeps Document.unfinished (endBody tag around) := by
  have left := leave_keeps_unfinished around
  unfold endBody
  split
  · rw [tryFinally_eq]
    exact .bind (.tryCatch (endTag_keeps_unfinished tag) fun _ => .bind left fun _ => .throw _)
      fun _ => left
  · exact .bind left fun _ => .bind (freshIndentedLine_prints 0).keeps_unfinished fun _ =>
      endTag_keeps_unfinished tag
  · exact .bind left fun _ => .bind (freshIndentedLine_prints 0).keeps_unfinished fun _ =>
      endTag_keeps_unfinished tag
  · exact .bind left fun _ => .bind (indentFresh_prints 0).keeps_unfinished fun _ =>
      endTag_keeps_unfinished tag
  · exact .bind left fun _ => .bind (indentFresh_prints 0).keeps_unfinished fun _ =>
      endTag_keeps_unfinished tag

end Writing

theorem Script.WriteCall.perform_keeps_unfinished {call : WriteCall} (single : call.isSingle)
    (place : Place) : Keeps Document.unfinished (call.perform place) := by
  have refused (attempt : Attempt) := (refuseInTag_prints attempt).keeps_unfinished
  have indented := (indentFresh_prints 0).keeps_unfinished
  cases call with
  | text content =>
    exact .bind (refused .text) fun _ => .guarded <|
      .ite (.bind indented fun _ => textInside_keeps_unfinished _ _) (.pure _)
  | comment content =>
    exact .bind (refused .comment) fun _ => .guarded <|
      .bind indented fun _ => (Prints.any _).keeps_unfinished
  | node tree => cases single
  | _ => exact (perform_prints rfl place).keeps_unfinished

theorem StartTag.add_keeps_unfinished (start : StartTag) (requested : Attribute) :
    Keeps Document.unfinished (start.add requested) := by
  refine .bind .get fun document => .bind (.ofExcept _) fun emission => ?_
  obtain ⟨claimed, next, -, same, prints⟩ := start.emit_eq emission
  rw [same]
  exact .bind (.ofExcept claimed) fun start => (prints start).keeps_unfinished

theorem Body.close_keeps_unfinished (body : Body) : Keeps Document.unfinished body.close := by
  cases held : body.around with
  | none =>
    rw [close_ended held]
    exact .pure ()
  | some around =>
    rw [close_eq held]
    have checked : Keeps Document.unfinished (tryCatch (refuseInTag .endTag) fun error => do
        leave around
        throw error : Writing Unit) :=
      .tryCatch (refuseInTag_prints _).keeps_unfinished fun _ =>
        .bind (leave_keeps_unfinished around) fun _ => .throw _
    exact .bind checked fun _ => .bind (endBody_keeps_unfinished body.tag around) fun _ =>
      (endLine_prints body.tag).keeps_unfinished

theorem Streams.extends_of_ok {action : Writing α} (streams : Streams action) {value : α}
    (ran : action.run document = .ok value final) :
    ∃ bytes, final.bytes = document.bytes ++ bytes := by
  have extended := streams.extends document
  rwa [finalState, ran] at extended

theorem Writing.beginTag_ok {tag : Tag} {namespaced : Bool}
    (ran : (beginTag tag namespaced).run document = .ok () final) :
    final.unfinished = some tag ∧ ∃ rest, final.bytes = document.bytes ++ utf8 "<" ++ rest := by
  rw [beginTag] at ran
  obtain ⟨⟨⟩, opened, opens, ran⟩ := ok_of_bind ran
  obtain ⟨⟨⟩, named, names, ran⟩ := ok_of_bind ran
  have begun : named.bytes = document.bytes ++ utf8 "<" ++ utf8 tag.name := by
    rw [write_ok names, write_ok opens]
  cases namespaced with
  | false =>
    cases ran
    exact ⟨rfl, _, begun⟩
  | true =>
    rw [if_pos rfl] at ran
    obtain ⟨⟨⟩, first, before, ran⟩ := ok_of_bind ran
    obtain ⟨⟨⟩, second, inside, ran⟩ := ok_of_bind ran
    obtain ⟨⟨⟩, third, after, ran⟩ := ok_of_bind ran
    cases ran
    refine ⟨rfl, utf8 tag.name ++ (utf8 " xmlns=\"" ++ (utf8 xhtmlNamespace ++ utf8 "\"")), ?_⟩
    change third.bytes = _
    rw [write_ok after, write_ok inside, write_ok before, begun]
    simp only [List.append_assoc]

/-- A start tag that was begun is the unfinished one from then on, and no other was before. Its
first bracket has been taken. -/
theorem Place.element_begins {place : Place} {tag : Tag} {start : StartTag}
    (ran : (place.element tag).run document = .ok start final) :
    start.tag = tag ∧ document.unfinished = none ∧ final.unfinished = some tag ∧
      ∃ before after, final.bytes = document.bytes ++ (before ++ utf8 "<" ++ after) := by
  cases waiting : document.unfinished with
  | some pending =>
    rw [place.run_element_waiting waiting] at ran
    cases ran
  | none =>
    rw [Place.element_eq] at ran
    obtain ⟨⟨⟩, passed, idle, ran⟩ := ok_of_bind ran
    rw [run_refuseInTag_idle waiting] at idle
    cases idle
    obtain ⟨seen, same, got, ran⟩ := ok_of_bind ran
    cases got
    obtain ⟨⟨⟩, checked, judged, ran⟩ := ok_of_bind ran
    have kept : Keeps id (MonadExcept.ofExcept (place.check document tag) : Writing Unit) :=
      .ofExcept _
    obtain rfl : checked = document := kept.of_ok judged
    obtain ⟨⟨⟩, led, leads, ran⟩ := ok_of_bind ran
    obtain ⟨⟨⟩, named, begun, ran⟩ := ok_of_bind ran
    cases ran
    obtain ⟨before, blanks⟩ := (lead_prints tag).streams.extends_of_ok leads
    obtain ⟨waits, after, bytes⟩ := beginTag_ok begun
    refine ⟨rfl, rfl, waits, before, after, ?_⟩
    rw [bytes, blanks]
    simp only [List.append_assoc]

/-- Where an action fails, the same start tag is unfinished as before, or none. -/
def FailsUnbegun (action : Writing α) : Prop :=
  ∀ ⦃document error final⦄, action.run document = .error error final →
    final.unfinished = document.unfinished

namespace FailsUnbegun

theorem of_keeps {action : Writing α} (kept : Keeps Document.unfinished action) :
    FailsUnbegun action := fun _ _ _ failed => kept.of_error failed

theorem change (change : Document → Document) : FailsUnbegun (modify change : Writing Unit) := by
  have never : Throws (fun _ => False) (modify change : Writing Unit) := .modify change
  exact fun _ _ _ failed => (never failed).elim

theorem bind {β : Type} {first : Writing α} {next : α → Writing β}
    (kept : Keeps Document.unfinished first) (rest : ∀ value, FailsUnbegun (next value)) :
    FailsUnbegun (first >>= next) := by
  intro document error final failed
  cases ran : first.run document with
  | ok value middle =>
    rw [Action.run_bind, ran] at failed
    exact (rest value failed).trans (kept.of_ok ran)
  | error cause middle =>
    rw [Action.run_bind, ran] at failed
    cases failed
    exact kept.of_error ran

theorem map {β : Type} {first : Writing α} (fails : FailsUnbegun first) (value : β) :
    FailsUnbegun (first >>= fun _ => pure value) := by
  intro document error final failed
  cases ran : first.run document with
  | ok got middle =>
    rw [Action.run_bind, ran] at failed
    cases failed
  | error cause middle =>
    rw [Action.run_bind, ran] at failed
    cases failed
    exact fails ran

theorem beginTag (tag : Tag) (namespaced : Bool) : FailsUnbegun (beginTag tag namespaced) := by
  have written (text : String) := (Prints.any text).keeps_unfinished
  have waits := FailsUnbegun.change fun document => { document with unfinished := some tag }
  unfold Writing.beginTag
  refine .bind (written _) fun _ => .bind (written _) fun _ => ?_
  split
  · exact .bind (written _) fun _ => .bind (written _) fun _ => .bind (written _) fun _ => waits
  · exact waits

/-- A start tag is taken for unfinished only once its name is written, and its namespace if it has
one. If one of these writes fails, it is not, although its first bracket may have been taken. -/
theorem element (place : Place) (tag : Tag) : FailsUnbegun (place.element tag) := by
  rw [Place.element_eq]
  exact .bind (refuseInTag_prints _).keeps_unfinished fun _ => .bind .get fun document =>
    .bind (.ofExcept _) fun _ => .bind (lead_prints tag).keeps_unfinished fun _ =>
      .map (beginTag tag _) _

end FailsUnbegun

/-- A document from which a start tag was to be completed by a mark. It is not unfinished any more
once the mark was taken whole, and until then it is. -/
def Document.CompletedBy (mark : String) (before after : Document) : Prop :=
  (utf8 mark <+: before.gained after ∧ after.unfinished = none) ∨
    (¬ utf8 mark <+: before.gained after ∧ after.unfinished = before.unfinished)

namespace Document.CompletedBy
variable {mark : String}

theorem refl (some : utf8 mark ≠ []) (document : Document) :
    CompletedBy mark document document := by
  refine .inr ⟨fun taken => ?_, rfl⟩
  rw [gained, List.drop_length] at taken
  exact some (List.prefix_nil.mp taken)

theorem marked (some : utf8 mark ≠ []) {rest : Writing α} (kept : Keeps unfinished rest)
    (streams : Streams rest) (document : Document) :
    CompletedBy mark document (finalState (do
      write mark
      modify fun document => { document with unfinished := none }
      rest) document) := by
  cases ran : (write mark).run document with
  | ok value middle =>
    rw [finalState_bind_ok ran]
    obtain ⟨bytes, taken⟩ := streams.extends { middle with unfinished := none }
    refine .inl ⟨?_, kept { middle with unfinished := none }⟩
    change utf8 mark <+: document.gained (finalState rest { middle with unfinished := none })
    have held : (finalState rest { middle with unfinished := none }).bytes =
        document.bytes ++ (utf8 mark ++ bytes) := by
      rw [taken, ← List.append_assoc, ← write_ok ran]
      rfl
    rw [gained, held, List.drop_left]
    exact List.prefix_append _ _
  | error error final =>
    rw [finalState_bind_error ran]
    refine .inr ⟨fun taken => ?_, (Prints.any mark).keeps_unfinished.of_error ran⟩
    obtain ⟨-, part, missing, split, bytes, -, more⟩ := write_error ran
    rw [gained, bytes, List.drop_left] at taken
    have longer := taken.length_le
    have short := List.length_pos_iff.mpr (more some)
    rw [split, List.length_append] at longer
    omega

end Document.CompletedBy

open Document.CompletedBy (refl marked)

namespace StartTag

theorem close_completes (start : StartTag) (document : Document) :
    document.CompletedBy (start.mark document.serialization) (finalState start.close document) := by
  have some := start.mark_ne document.serialization
  cases isVoid : start.tag.definition.isVoid with
  | true =>
    have void : start.mark document.serialization = document.serialization.selfClose := by
      rw [mark, isVoid]
      rfl
    have written : finalState start.close document = finalState (do
        write document.serialization.selfClose
        modify fun document => { document with unfinished := none }
        endLine start.tag : Writing Unit) document := by
      rw [close, isVoid]
      rfl
    rw [void] at some ⊢
    rw [written]
    exact marked some (endLine_prints _).keeps_unfinished (endLine_prints _).streams document
  | false =>
    rw [mark_of_solid isVoid] at some ⊢
    have written : start.close = (do bracket; endElement start.tag) := by
      rw [close, isVoid]
      rfl
    rw [written, bracket, bind_assoc]
    exact marked some (endElement_keeps_unfinished _) (endElement_streams _) document

theorem text_completes (start : StartTag) (content : String) (document : Document) :
    document.CompletedBy (start.mark document.serialization)
      (finalState (start.text content) document) := by
  have some := start.mark_ne document.serialization
  cases isVoid : start.tag.definition.isVoid with
  | true =>
    rw [text, isVoid]
    exact refl some document
  | false =>
    rw [mark_of_solid isVoid] at some ⊢
    obtain ⟨error, -, refused⟩ | written := start.text_cases content
    · rw [refused]
      exact refl some document
    · rw [written, bracket, bind_assoc]
      exact marked some
        (.bind (textInside_keeps_unfinished _ _) fun _ => endElement_keeps_unfinished _)
        (.bind (textInside_streams _ _) fun _ => endElement_streams _) document

theorem openBody_completes (start : StartTag) (document : Document) :
    document.CompletedBy (start.mark document.serialization)
      (finalState start.openBody document) := by
  have some := start.mark_ne document.serialization
  rw [openBody_eq]
  cases isVoid : start.tag.definition.isVoid with
  | true => exact refl some document
  | false =>
    rw [mark_of_solid isVoid] at some ⊢
    rw [if_neg Bool.false_ne_true, bracket, bind_assoc]
    have enters : Keeps Document.unfinished (enter start.tag) :=
      .bind .get fun _ => .bind (.demand _) fun _ => .modifyGet fun _ => rfl
    exact marked some
      (.bind (beginBody_prints _).keeps_unfinished fun _ => .bind enters fun _ => .pure _)
      (.bind (beginBody_prints _).streams fun _ => .bind (enter_streams _) fun _ => .pure _) document

end StartTag

theorem Script.Ending.finish_completes (start : StartTag) (ending : Ending) (document : Document) :
    document.CompletedBy (start.mark document.serialization)
      (finalState (ending.finish start) document) := by
  cases ending with
  | close => exact start.close_completes document
  | text content => exact start.text_completes content document
  | textOption content =>
    cases content with
    | none => exact start.close_completes document
    | some content => exact start.text_completes content document
  | giveUp => exact refl (start.mark_ne _) document

/-- What has become of the start tags of a run, as their bytes tell. -/
structure StartTags where
  /-- Those of which the first bracket was taken and the last was not, the last begun first. -/
  underway : List Tag := []
  /-- Those that failed while they were begun, after their first bracket had been taken. -/
  torn : List Tag := []

namespace Caller
variable {caller next : Caller} {call : Call} {heard : Except Error Unit}

/-- The start tag of which a call has written the first bracket, a byte 60. What comes before it are
blanks, and what comes after it is the name. -/
def begins (caller next : Caller) (call : Call) : Option Tag :=
  match call with
  | .start tag => if 60 ∈ caller.wrote next call then some tag else none
  | _ => none

def completes (caller next : Caller) (call : Call) : Option Tag :=
  match call, caller.handles with
  | .finish _, .tag _ start :: _ | .openBody, .tag _ start :: _ =>
      if utf8 (start.mark caller.document.serialization) <+: caller.wrote next call
      then some start.tag else none
  | _, _ => none

def startTagsAfter (caller next : Caller) (call : Call) (heard : Except Error Unit)
    (tags : StartTags) : StartTags :=
  match caller.begins next call, caller.completes next call with
  | some tag, _ =>
      { underway := tag :: tags.underway
        torn := if heard.isOk then tags.torn else tag :: tags.torn }
  | none, some tag => { tags with underway := tags.underway.erase tag }
  | none, none => tags

def startTags (caller : Caller) (tags : StartTags) : List Call → StartTags
  | [] => tags
  | call :: rest =>
      match caller.step call with
      | some (heard, next) => next.startTags (caller.startTagsAfter next call heard tags) rest
      | none => tags

/-- The document takes the start tag in hand for unfinished. Besides the one that it takes for
unfinished, only torn ones are underway. -/
structure KnowsOf (caller : Caller) (tags : StartTags) : Prop where
  inHand : ∀ element start outer, caller.handles = .tag element start :: outer →
    caller.document.unfinished = some start.tag
  behind : NoTags caller.handles.tail
  known : tags.underway = caller.document.unfinished.toList ++ tags.torn

private theorem startTagsAfter_of_none {tags : StartTags}
    (beginsNone : caller.begins next call = none)
    (completesNone : caller.completes next call = none) :
    caller.startTagsAfter next call heard tags = tags := by
  rw [startTagsAfter, beginsNone, completesNone]

private theorem not_inHand {handles : List Handle} (none : NoTags handles)
    {unfinished : Option Tag} :
    ∀ element start outer, handles = .tag element start :: outer →
      unfinished = some start.tag := by
  rintro element start outer rfl
  exact none.not_front.elim

theorem KnowsOf.stays {tags : StartTags} (knows : caller.KnowsOf tags)
    (beginsNone : caller.begins next call = none)
    (completesNone : caller.completes next call = none)
    (same : next.document.unfinished = caller.document.unfinished)
    (inHand : ∀ element start outer, next.handles = .tag element start :: outer →
      caller.document.unfinished = some start.tag) (behind : NoTags next.handles.tail) :
    next.KnowsOf (caller.startTagsAfter next call heard tags) := by
  rw [startTagsAfter_of_none beginsNone completesNone]
  refine ⟨?_, behind, ?_⟩
  · rw [same]
    exact inHand
  · rw [same]
    exact knows.known

theorem KnowsOf.completed {tags : StartTags} (knows : caller.KnowsOf tags) {element : Nat}
    {start : StartTag} {outer : List Handle} (front : caller.handles = .tag element start :: outer)
    (beginsNone : caller.begins next call = none)
    (ends : caller.completes next call =
      if utf8 (start.mark caller.document.serialization) <+:
        caller.document.gained next.document then some start.tag else none)
    (completed : caller.document.CompletedBy (start.mark caller.document.serialization)
      next.document)
    (none : NoTags next.handles) :
    next.KnowsOf (caller.startTagsAfter next call heard tags) := by
  refine ⟨not_inHand none, fun element start member => ?_, ?_⟩
  · exact none element start (List.mem_of_mem_tail member)
  · have known := knows.known
    rw [knows.inHand element start outer front] at known
    rw [startTagsAfter, beginsNone, ends]
    rcases completed with ⟨taken, idle⟩ | ⟨missing, waits⟩
    · rw [if_pos taken, idle]
      change tags.underway.erase start.tag = tags.torn
      rw [known]
      exact List.erase_cons_head start.tag tags.torn
    · rw [if_neg missing, waits, knows.inHand element start outer front]
      exact known

/-- Each call keeps the document's knowledge of the start tags that are underway, whichever of its
writes fails. -/
theorem KnowsOf.takes {tags : StartTags} (knows : caller.KnowsOf tags)
    (takes : caller.Takes call heard next) :
    next.KnowsOf (caller.startTagsAfter next call heard tags) := by
  have behind := behind_of_takes knows.behind takes
  have free {place : Place} (here : caller.place? = some place) : NoTags caller.handles :=
    noTags_of_place here knows.behind
  have outside {handle : Handle} {outer : List Handle} (front : caller.handles = handle :: outer) :
      NoTags outer := by
    have none := knows.behind
    rwa [front] at none
  cases takes with
  | @write place call here single =>
    have same := call.perform_keeps_unfinished single place caller.document
    exact knows.stays rfl rfl same (not_inHand (free here)) behind
  | adjust here change => exact knows.stays rfl rfl rfl (not_inHand (free here)) behind
  | detach here | replaceSink here => exact knows.stays rfl rfl rfl (not_inHand (free here)) behind
  | top here => exact knows.stays rfl rfl rfl (not_inHand (free here).top) behind
  | @started place tag start document here ran =>
    obtain ⟨rfl, idle, waits, before, after, bytes⟩ := Place.element_begins ran
    have taken : 60 ∈ caller.document.gained document := by
      rw [Document.gained, bytes, List.drop_left]
      exact List.mem_append_left _ (List.mem_append_right _ (.head _))
    refine ⟨?_, behind, ?_⟩
    · intro other begun outer front
      cases front
      exact waits
    · have known := knows.known
      rw [idle] at known
      have begun : caller.begins (caller.becomes document
          (.tag caller.pieces.length start :: caller.handles)
          [.opening caller.pieces.length start.tag]) (.start start.tag) = some start.tag :=
        if_pos taken
      rw [startTagsAfter, begun]
      change start.tag :: tags.underway = document.unfinished.toList ++ tags.torn
      rw [waits, known]
      rfl
  | @refused place tag error document here ran =>
    have same := FailsUnbegun.element place tag ran
    by_cases taken : 60 ∈ caller.document.gained document
    · have idle : caller.document.unfinished = none := by
        cases waiting : caller.document.unfinished with
        | none => rfl
        | some pending =>
          rw [place.run_element_waiting waiting] at ran
          cases ran
          rw [Document.gained, List.drop_length] at taken
          cases taken
      refine ⟨not_inHand (free here), behind, ?_⟩
      have known := knows.known
      rw [idle] at known same
      have begun : caller.begins (caller.becomes document caller.handles []) (.start tag) =
          some tag := if_pos taken
      rw [startTagsAfter, begun]
      change tag :: tags.underway = document.unfinished.toList ++ tag :: tags.torn
      rw [same, known]
      rfl
    · have none : caller.begins (caller.becomes document caller.handles []) (.start tag) = none :=
        if_neg taken
      exact knows.stays none rfl same (not_inHand (free here)) behind
  | @added element start next outer requested document front ran =>
    have same := (start.add_keeps_unfinished requested).of_ok ran
    refine knows.stays rfl rfl same ?_ behind
    intro other added beyond held
    cases held
    rw [knows.inHand element start outer front, (start.add_same requested ran).1]
  | @rejected element start outer requested error document front ran =>
    have same := (start.add_keeps_unfinished requested).of_error ran
    exact knows.stays rfl rfl same (not_inHand (outside front)) behind
  | @finish element start outer front ending =>
    refine knows.completed front rfl ?_ (ending.finish_completes start caller.document) (outside front)
    unfold completes
    rw [front]
    rfl
  | @opened element start outer body document front ran =>
    have completed := start.openBody_completes caller.document
    rw [finalState, ran] at completed
    refine knows.completed front rfl ?_ completed ((outside front).body _ _)
    unfold completes
    rw [front]
    rfl
  | @unopened element start outer error document front ran =>
    have completed := start.openBody_completes caller.document
    rw [finalState, ran] at completed
    refine knows.completed front rfl ?_ completed (outside front)
    unfold completes
    rw [front]
    rfl
  | @endBody element body outer front =>
    have same := body.close_keeps_unfinished caller.document
    exact knows.stays rfl rfl same (not_inHand ((outside front).body _ _)) behind
  | @dropBody element body outer front =>
    have same := body.close_keeps_unfinished caller.document
    exact knows.stays rfl rfl same (not_inHand (outside front)) behind
  | dropTop front | giveUp front => exact knows.stays rfl rfl rfl (not_inHand (outside front)) behind
  | @abandon element body outer front =>
    have same := (body.abandon_same caller.document).1
    exact knows.stays rfl rfl same (not_inHand (outside front)) behind

theorem KnowsOf.run {tags : StartTags} (knows : caller.KnowsOf tags) {calls : List Call}
    {answers : List (Except Error Unit)} {final : Caller}
    (ran : caller.run calls = some (answers, final)) :
    final.KnowsOf (caller.startTags tags calls) := by
  induction calls generalizing caller tags answers with
  | nil =>
    cases ran
    exact knows
  | cons call rest ih =>
    obtain ⟨heard, next, later, stepped, continued, -⟩ := run_cons ran
    rw [startTags, stepped]
    exact ih (knows.takes (takes_of_step stepped)) continued

/-- Whatever is called, and wherever sinks fail, the start tags that are underway in the output are
the one that the document takes for unfinished, if it does so of any, and besides those that were
torn off while they were begun. So the document is right about all start tags exactly if it takes
each that was torn off for unfinished, and in particular if none was. What it takes for unfinished
it lets nobody write after. -/
theorem unfinished_tag_is_underway {sink : Sink} {parameters : Parameters} {encoder : Encoder}
    {calls : List Call} {answers : List (Except Error Unit)}
    (ran : (start sink parameters encoder).run calls = some (answers, caller)) :
    let tags := (start sink parameters encoder).startTags {} calls
    tags.underway = caller.document.unfinished.toList ++ tags.torn ∧
      ((∀ tag, caller.document.unfinished = some tag ↔ tag ∈ tags.underway) ↔
        ∀ tag ∈ tags.torn, caller.document.unfinished = some tag) ∧
      ∀ pending, caller.document.unfinished = some pending →
        caller.document.Refuses pending := by
  intro tags
  have begun : (start sink parameters encoder).KnowsOf {} := ⟨nofun, .nil, rfl⟩
  have known := (begun.run ran).known
  refine ⟨known, ?_, fun pending waiting => Document.refuses waiting⟩
  change tags.underway = _ at known
  rw [known]
  constructor
  · intro right tag torn
    exact (right tag).mpr (List.mem_append_right _ torn)
  · intro right tag
    rw [List.mem_append, Option.mem_toList]
    exact ⟨.inl, fun underway => underway.elim id (right tag)⟩

/-- Of a paragraph with an attribute the sink takes seven bytes. The paragraph is unfinished, in
the output as for the document, and nothing can be written to another sink. -/
theorem cut_attribute_blocks : ∃ answers caller,
    (start { room := some 7 } {} .markup).run [.start .p, .add (.id "x"), .replaceSink {}] =
        some (answers, caller) ∧
      answers = [.ok (), .error (.sink .full), .ok ()] ∧
      caller.output = utf8 "<p id=\"" ∧
      ((start { room := some 7 } {} .markup).startTags {}
        [.start .p, .add (.id "x"), .replaceSink {}]).underway = [.p] ∧
      caller.document.Refuses .p := by
  have seen : ((start { room := some 7 } {} .markup).run
      [.start .p, .add (.id "x"), .replaceSink {}]).map (fun result =>
        (result.1, (start { room := some 7 } {} .markup).startTags {}
          [.start .p, .add (.id "x"), .replaceSink {}], result.2.output)) =
      some ([.ok (), .error (.sink .full), .ok ()], ⟨[.p], []⟩, utf8 "<p id=\"") := by
    rfl
  obtain ⟨⟨answers, caller⟩, ran, same⟩ := Option.map_eq_some_iff.mp seen
  simp only [Prod.mk.injEq] at same
  obtain ⟨heard, tags, output⟩ := same
  obtain ⟨-, right, refuses⟩ := unfinished_tag_is_underway ran
  rw [tags] at right
  have waiting : caller.document.unfinished = some .p := (right.mpr nofun .p).mpr (.head _)
  exact ⟨answers, caller, ran, heard, output, congrArg StartTags.underway tags, refuses .p waiting⟩

/-- Of a paragraph the sink takes one byte, its first bracket. The document takes no start tag for
unfinished, so the text that comes next is written into the start tag. -/
theorem torn_paragraph_takes_text : ∃ answers caller,
    (start { room := some 1 } {} .markup).run
        [.start .p, .replaceSink {}, .write (.text "x")] = some (answers, caller) ∧
      answers = [.error (.sink .full), .ok (), .ok ()] ∧
      ((start { room := some 1 } {} .markup).startTags {}
        [.start .p, .replaceSink {}, .write (.text "x")]).underway = [.p] ∧
      caller.document.unfinished = none ∧ caller.output = utf8 "<x" := by
  have seen : ((start { room := some 1 } {} .markup).run
      [.start .p, .replaceSink {}, .write (.text "x")]).map (fun result =>
        (result.1, (start { room := some 1 } {} .markup).startTags {}
          [.start .p, .replaceSink {}, .write (.text "x")], result.2.document.unfinished,
          result.2.output)) =
      some ([.error (.sink .full), .ok (), .ok ()], ⟨[.p], [.p]⟩, none, utf8 "<x") := by
    rfl
  obtain ⟨⟨answers, caller⟩, ran, same⟩ := Option.map_eq_some_iff.mp seen
  simp only [Prod.mk.injEq] at same
  obtain ⟨heard, tags, idle, output⟩ := same
  exact ⟨answers, caller, ran, heard, congrArg StartTags.underway tags, idle, output⟩

end Caller
end HtmlWriter
