import HtmlWriter.Proofs.Bodies

/-! Writing is streaming. Nothing that is written depends on the sink: the sink is only written
to, one text after the other, and what else changes in a document changes apart from it. So a
relation between documents that each text and each such change keeps is kept by everything that
is written, whether it succeeds or fails. -/

namespace HtmlWriter
open Script Writing
variable {α β : Type}

/-- A change that neither sees the sink nor touches it, and leaves it open whether a line has
just started. -/
structure Apart (change : Document → α × Document) : Prop where
  blind : ∀ document sink, change { document with sink } =
    ((change document).1, { (change document).2 with sink })
  line : ∀ document, (change document).2.format.atNewline = document.format.atNewline

inductive Streams : {α : Type} → Writing α → Prop
  | write (text : String) : Streams (write text)
  | throw {α : Type} (error : Error) : Streams (throw error : Writing α)
  | demand (fits : Bool) : Streams (Action.demand fits)
  | update {α : Type} {change : Document → α × Document} (apart : Apart change) :
      Streams (modifyGet change : Writing α)
  | read {α : Type} {next : Document → Writing α}
      (blind : ∀ document sink, next { document with sink } = next document)
      (rest : ∀ document, Streams (next document)) :
      Streams ((get : Writing Document) >>= next)
  | bind {α β : Type} {first : Writing α} {next : α → Writing β} (started : Streams first)
      (rest : ∀ value, Streams (next value)) : Streams (first >>= next)
  /-- A failure may be tidied up after, but not kept from the caller. -/
  | tidied {α : Type} {action : Writing α} {tidy : Document → Unit × Document}
      (tried : Streams action) (apart : Apart tidy) :
      Streams (tryCatch action fun error => do modifyGet tidy; throw error)

namespace Streams

theorem modify {change : Document → Document}
    (blind : ∀ document sink, change { document with sink } = { change document with sink })
    (line : ∀ document, (change document).format.atNewline = document.format.atNewline) :
    Streams (modify change : Writing Unit) :=
  .update ⟨fun document sink => congrArg ((), ·) (blind document sink), line⟩

theorem pure (value : α) : Streams (pure value : Writing α) := by
  have same : Apart fun document => (value, document) := ⟨fun _ _ => rfl, fun _ => rfl⟩
  exact .update same

theorem ite {condition : Prop} [Decidable condition] {yes no : Writing α}
    (first : Streams yes) (other : Streams no) : Streams (if condition then yes else no) := by
  split
  · exact first
  · exact other

theorem ofExcept (verdict : Except Error α) :
    Streams (MonadExcept.ofExcept verdict : Writing α) := by
  cases verdict with
  | ok value => exact .pure value
  | error error => exact .throw error

theorem guarded {condition : Prop} [Decidable condition] {error : Error} {rest : Writing α}
    (continues : Streams rest) :
    Streams (if condition then (MonadExcept.throw error : Writing Unit) >>= fun _ => rest
      else rest) :=
  .ite (.bind (.throw error) fun _ => continues) continues

theorem foldlM {step : β → α → Writing β} (streams : ∀ value item, Streams (step value item))
    (items : List α) (initial : β) : Streams (items.foldlM step initial) := by
  induction items generalizing initial with
  | nil => exact .pure initial
  | cons item rest ih =>
    rw [List.foldlM_cons]
    exact .bind (streams initial item) ih

end Streams

theorem Prints.streams {kind : Char → Prop} {offset? : Option Int64} {action : Writing α}
    (prints : Prints kind offset? action) :
    Streams action := by
  induction prints with
  | write fits => exact .write _
  | pure value => exact .pure value
  | throw accepts => exact .throw _
  | indent asked fits blind =>
    refine .read (fun document sink => ?_) fun _ =>
      .ite (.bind (.demand _) fun _ => .ite (.write _) (.pure _)) (.pure _)
    rw [blind]
  | read blind rest ih => exact .read blind ih
  | bind started rest ihStarted ihRest => exact .bind ihStarted ihRest

namespace Writing

theorem comment_streams (text : String) : Streams (comment text) :=
  .bind (refuseInTag_prints _).streams fun _ =>
    .guarded (.bind (indentFresh_prints 0).streams fun _ => .write _)

theorem rawText_streams (tag : Tag) (text : String) : Streams (rawText tag text) :=
  .read (fun _ _ => rfl) fun _ =>
    .guarded (.bind (.write text) fun _ => .modify (fun _ _ => rfl) fun _ => rfl)

theorem textInside_streams (parent : Option Tag) (text : String) :
    Streams (textInside parent text) := by
  refine .read (fun _ _ => rfl) fun document => ?_
  cases parent with
  | none => exact (encodedText_prints text).streams
  | some tag => exact .ite (rawText_streams tag text) (encodedText_prints text).streams

theorem bracket_streams : Streams bracket :=
  .bind (.write _) fun _ => .modify (fun _ _ => rfl) fun _ => rfl

theorem endTag_streams (tag : Tag) : Streams (endTag tag) :=
  .bind (refuseInTag_prints _).streams fun _ => .bind (.write _) fun _ => .bind (.write _) fun _ =>
    .bind (.write _) fun _ => .modify (fun _ _ => rfl) fun _ => rfl

theorem endElement_streams (tag : Tag) : Streams (endElement tag) :=
  .bind (endTag_streams tag) fun _ => (endLine_prints tag).streams

theorem beginTag_streams (tag : Tag) (namespaced : Bool) : Streams (beginTag tag namespaced) := by
  have waits : Streams (modify fun document : Document =>
      { document with unfinished := some tag } : Writing Unit) :=
    .modify (fun _ _ => rfl) fun _ => rfl
  unfold beginTag
  refine .bind (.write _) fun _ => .bind (.write _) fun _ => .ite ?_ waits
  exact .bind (.write _) fun _ => .bind (.write _) fun _ => .bind (.write _) fun _ => waits

theorem enter_streams (tag : Tag) : Streams (enter tag) :=
  .read (fun _ _ => rfl) fun _ => .bind (.demand _) fun _ =>
    .update ⟨fun _ _ => rfl, fun _ => rfl⟩

theorem leave_streams (around : Surroundings) : Streams (leave around) :=
  .modify (fun _ _ => rfl) fun _ => rfl

theorem endBody_streams (tag : Tag) (around : Surroundings) : Streams (endBody tag around) := by
  unfold endBody
  split
  · rw [tryFinally_eq]
    exact .bind (.tidied (endTag_streams tag) ⟨fun _ _ => rfl, fun _ => rfl⟩) fun _ =>
      leave_streams around
  all_goals
    refine .bind (leave_streams around) fun _ => ?_
    first
    | exact .bind (freshIndentedLine_prints 0).streams fun _ => endTag_streams tag
    | exact .bind (indentFresh_prints 0).streams fun _ => endTag_streams tag

end Writing

theorem Place.text_streams (place : Place) (content : String) : Streams (place.text content) :=
  .bind (refuseInTag_prints _).streams fun _ => .guarded <|
    .ite (.bind (indentFresh_prints 0).streams fun _ => textInside_streams _ _) (.pure _)

theorem Place.element_streams (place : Place) (tag : Tag) : Streams (place.element tag) := by
  rw [Place.element_eq]
  exact .bind (refuseInTag_prints _).streams fun _ => .read (fun _ _ => rfl) fun _ =>
    .bind (.ofExcept _) fun _ => .bind (lead_prints tag).streams fun _ =>
    .bind (beginTag_streams tag _) fun _ => .pure _

namespace StartTag

theorem emit_streams (start : StartTag) (emission : Emission) :
    Streams (start.emit emission) := by
  obtain ⟨claimed, next, -, same, prints⟩ := start.emit_eq emission
  rw [same]
  exact .bind (.ofExcept _) fun start => (prints start).streams

theorem add_streams (start : StartTag) (requested : Attribute) :
    Streams (start.add requested) :=
  .read (fun _ _ => rfl) fun _ => .bind (.ofExcept _) fun _ => emit_streams _ _

theorem addAll_streams (start : StartTag) (requested : List Attribute) :
    Streams (start.addAll requested) :=
  .foldlM add_streams requested start

theorem close_streams (start : StartTag) : Streams start.close := by
  unfold close
  refine .ite ?_ (.bind bracket_streams fun _ => endElement_streams _)
  exact .read (fun _ _ => rfl) fun _ => .bind (.write _) fun _ =>
    .bind (.modify (fun _ _ => rfl) fun _ => rfl) fun _ => (endLine_prints _).streams

theorem text_streams (start : StartTag) (content : String) : Streams (start.text content) := by
  have written : Streams (do
      bracket
      textInside (some start.tag) content
      endElement start.tag) :=
    .bind bracket_streams fun _ => .bind (textInside_streams _ _) fun _ => endElement_streams _
  exact .guarded (.guarded written)

theorem openBody_streams (start : StartTag) : Streams start.openBody := by
  rw [openBody_eq]
  exact .ite (.throw _) (.bind bracket_streams fun _ => .bind (beginBody_prints _).streams fun _ =>
    .bind (enter_streams _) fun _ => .pure _)

end StartTag

theorem Script.Ending.finish_streams (start : StartTag) (ending : Ending) :
    Streams (ending.finish start) := by
  cases ending with
  | close => exact start.close_streams
  | text content => exact start.text_streams content
  | textOption content =>
    cases content with
    | some content => exact start.text_streams content
    | none => exact start.close_streams
  | giveUp => exact .pure _

namespace Body

theorem close_streams (body : Body) : Streams body.close := by
  cases held : body.around with
  | none =>
    rw [close_ended held]
    exact .pure _
  | some around =>
    rw [close_eq held]
    exact .bind (.tidied (refuseInTag_prints _).streams ⟨fun _ _ => rfl, fun _ => rfl⟩) fun _ =>
      .bind (endBody_streams _ _) fun _ => (endLine_prints _).streams

theorem abandon_streams (body : Body) : Streams body.abandon := by
  unfold abandon
  split
  · exact .pure _
  · exact leave_streams _

end Body

theorem StartTag.writeBody_streams (start : StartTag) {content : Place → Writing Unit}
    (streams : ∀ place, Streams (content place)) :
    Streams (start.writeBody (ε := Error) content) := by
  have inside (body : Body) : Streams (tryCatch (content body.place) fun failure => do
      body.abandon
      throw failure) := by
    unfold Body.abandon
    split
    · have nothing : Apart fun document => ((), document) := ⟨fun _ _ => rfl, fun _ => rfl⟩
      exact .tidied (streams _) nothing
    · exact .tidied (streams _) ⟨fun _ _ => rfl, fun _ => rfl⟩
  exact .bind start.openBody_streams fun body => .bind (inside body) fun _ => body.close_streams

theorem StartTag.writeChildren_streams (start : StartTag) {children : List Node}
    (streams : ∀ place, Streams (Node.writeAll place children)) :
    Streams (start.writeChildren children) := by
  unfold writeChildren
  split
  · exact start.close_streams
  · exact start.text_streams _
  · exact start.writeBody_streams streams

mutual

theorem Node.write_streams (place : Place) (node : Node) : Streams (node.write place) :=
  match node with
  | .text content => by
    rw [Node.write]
    exact place.text_streams content
  | .comment content => by
    rw [Node.write]
    exact comment_streams content
  | .element tag attributes children => by
    rw [Node.write_element]
    exact .bind (place.element_streams tag) fun start => .bind (start.addAll_streams _) fun start =>
      start.writeChildren_streams fun inside => Node.writeAll_streams inside children
termination_by structural node

theorem Node.writeAll_streams (place : Place) (nodes : List Node) :
    Streams (Node.writeAll place nodes) :=
  match nodes with
  | [] => by
    rw [Node.writeAll]
    exact .pure ()
  | node :: rest => by
    rw [Node.writeAll]
    exact .bind (Node.write_streams place node) fun _ => Node.writeAll_streams place rest
termination_by structural nodes

end

theorem Script.WriteCall.perform_streams (call : WriteCall) (place : Place) :
    Streams (call.perform place) := by
  cases call with
  | text content => exact place.text_streams content
  | comment content => exact comment_streams content
  | node tree => exact tree.write_streams place
  | _ => exact (perform_prints rfl place).streams

theorem Script.Adjustment.perform_streams (change : Adjustment) : Streams change.perform :=
  .read (fun _ _ => rfl) fun _ => .bind (.demand _) fun _ =>
    .modify (fun _ _ => rfl) fun _ => rfl

namespace Streams

/-- What no text and no change apart from the sink can break is kept by everything that is
written. -/
theorem keeps (related : Document → Document → Prop) {action : Writing α}
    (streams : Streams action) (refl : ∀ document, related document document)
    (trans : ∀ {before middle after}, related before middle → related middle after →
      related before after)
    (writes : ∀ text document, related document (finalState (Writing.write text) document))
    (changes : ∀ {β : Type} {change : Document → β × Document}, Apart change →
      ∀ document, related document (change document).2)
    (document : Document) : related document (finalState action document) := by
  induction streams generalizing document with
  | write text => exact writes text document
  | throw error => exact refl document
  | demand fits => exact refl document
  | update apart => exact changes apart document
  | read blind rest ih => exact ih document document
  | @bind _ _ first next started rest ihFirst ihRest =>
    have begun := ihFirst document
    rw [finalState] at begun
    cases ran : first.run document with
    | ok value middle =>
      rw [ran] at begun
      rw [finalState_bind_ok ran]
      exact trans begun (ihRest value middle)
    | error error middle =>
      rw [ran] at begun
      rw [finalState_bind_error ran]
      exact begun
  | @tidied _ action tidy tried apart ih =>
    have begun := ih document
    rw [finalState] at begun
    rw [finalState_tryCatch]
    cases ran : action.run document with
    | ok value final =>
      rw [ran] at begun
      exact begun
    | error error middle =>
      rw [ran] at begun
      exact trans begun (changes apart middle)

end Streams
end HtmlWriter
