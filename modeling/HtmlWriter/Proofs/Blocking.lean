import HtmlWriter.Proofs.Outlines

/-! An unfinished start tag blocks a document. Only the one who holds the start tag can finish
it, so once it was given up, every attempt to write is refused with its name, before anything
else is looked at, and the sinks take nothing any more. -/

namespace HtmlWriter
open Script Writing
variable {α : Type} {document : Document} {pending : Tag}

/-- What is attempted first by a call that writes, and so what it is refused as. -/
def Script.WriteCall.attempt : WriteCall → Attempt
  | text _ | node (.text _) => .text
  | raw _ => .rawMarkup
  | comment _ | node (.comment _) => .comment
  | newline | newlineIndent _ | freshLine | freshIndentedLine _ => .newline
  | space => .space
  | indent _ | indentFresh _ => .indentation
  | xmlDeclaration => .xmlDeclaration
  | doctypeDeclaration => .doctype
  | node (.element tag _ _) => .element tag

private theorem Writing.run_refuseInTag_bind_waiting (waiting : document.unfinished = some pending)
    (attempt : Attempt) (next : Unit → Writing α) :
    (refuseInTag attempt >>= next).run document =
      .error (.tagInProgress pending attempt) document := by
  rw [Action.run_bind, run_refuseInTag_waiting waiting]

private theorem Writing.run_bind_error {β : Type} {first : Writing α} {error : Error}
    {final : Document}
    (ran : first.run document = .error error final) (next : α → Writing β) :
    (first >>= next).run document = .error error final := by
  rw [Action.run_bind, ran]

theorem Place.run_element_waiting (waiting : document.unfinished = some pending) (place : Place)
    (tag : Tag) : (place.element tag).run document =
      .error (.tagInProgress pending (.element tag)) document := by
  rw [Place.element_eq]
  exact run_refuseInTag_bind_waiting waiting _ _

private theorem Node.run_write_waiting (waiting : document.unfinished = some pending)
    (place : Place)
    (node : Node) : (node.write place).run document =
      .error (.tagInProgress pending (WriteCall.node node).attempt) document := by
  cases node with
  | text content =>
    rw [Node.write]
    exact run_refuseInTag_bind_waiting waiting _ _
  | comment content =>
    rw [Node.write]
    exact run_refuseInTag_bind_waiting waiting _ _
  | element tag attributes children =>
    rw [Node.write_element]
    exact run_bind_error (place.run_element_waiting waiting tag) _

private theorem Script.WriteCall.run_perform_waiting (waiting : document.unfinished = some pending)
    (place : Place) (call : WriteCall) : (call.perform place).run document =
      .error (.tagInProgress pending call.attempt) document := by
  have refused (attempt : Attempt) (next : Unit → Writing Unit) :=
    run_refuseInTag_bind_waiting waiting attempt next
  cases call with
  | newlineIndent offset | freshIndentedLine offset => exact run_bind_error (refused _ _) _
  | node tree => exact tree.run_write_waiting waiting place
  | _ => exact refused _ _

/-- Whatever is to be written, it is refused because of the unfinished start tag, and the sink
stays as it is. -/
structure Document.Refuses (document : Document) (pending : Tag) : Prop where
  writes : ∀ (call : WriteCall) (place : Place), (call.perform place).run document =
    .error (.tagInProgress pending call.attempt) document
  elements : ∀ (tag : Tag) (place : Place), (place.element tag).run document =
    .error (.tagInProgress pending (.element tag)) document
  ends : ∀ body : Body, body.isEnded = false →
    ∃ left, body.close.run document = .error (.tagInProgress pending .endTag) left ∧
      left.sink = document.sink
  finish : Writing.finish.run document = .error (.tagInProgress pending .endOfDocument) document

theorem Document.refuses (waiting : document.unfinished = some pending) :
    document.Refuses pending where
  writes call place := call.run_perform_waiting waiting place
  elements tag place := place.run_element_waiting waiting tag
  ends body live := by
    obtain ⟨around, held⟩ := Option.isSome_iff_exists.mp (Option.isNone_eq_false_iff.mp live)
    exact ⟨_, Body.run_close_waiting waiting held, rfl⟩
  finish := run_refuseInTag_bind_waiting waiting _ _

namespace Body

private theorem close_waiting_keeps (waiting : document.unfinished = some pending) (body : Body) :
    (finalState body.close document).unfinished = some pending ∧
      (finalState body.close document).sink = document.sink := by
  cases held : body.around with
  | none =>
    rw [close_ended held]
    exact ⟨waiting, rfl⟩
  | some around =>
    rw [finalState, run_close_waiting waiting held]
    exact ⟨waiting, rfl⟩

private theorem close_waiting_verdict (waiting : document.unfinished = some pending) (body : Body) :
    body.close.verdict document =
      if body.isEnded then .ok () else .error (.tagInProgress pending .endTag) := by
  rw [isEnded]
  cases held : body.around with
  | none =>
    rw [close_ended held]
    rfl
  | some around =>
    rw [verdict, run_close_waiting waiting held]
    rfl

theorem abandon_same (document : Document) (body : Body) :
    (finalState body.abandon document).unfinished = document.unfinished ∧
      (finalState body.abandon document).sink = document.sink := by
  unfold abandon
  split <;> exact ⟨rfl, rfl⟩

end Body

/-- Where the output goes after a call, if no call writes. -/
def Call.sinkAfter (sink : Option Sink) : Call → Option Sink
  | .detach => none
  | .replaceSink other => some other
  | _ => sink

/-- What a call adds to the output without writing: what a sink held when it was given. -/
def Call.given : Call → List UInt8
  | .replaceSink sink => sink.contents
  | _ => []

namespace Caller
variable {caller next final : Caller} {call : Call} {heard : Except Error Unit}

/-- What is heard of a call while a start tag is unfinished that was given up. Only what does
not write succeeds, and to end a body that has ended already. -/
def answerInTag (caller : Caller) (pending : Tag) : Call → Except Error Unit
  | .write call => .error (.tagInProgress pending call.attempt)
  | .start tag => .error (.tagInProgress pending (.element tag))
  | .endBody =>
      match caller.handles with
      | .body _ body :: _ =>
          if body.isEnded then .ok () else .error (.tagInProgress pending .endTag)
      | .tag .. :: _ | .top :: _ | [] => .ok ()
  | _ => .ok ()

/-- The start tag that a document waits for was given up. -/
structure Blocked (pending : Tag) (caller : Caller) : Prop where
  waiting : caller.document.unfinished = some pending
  none : NoTags caller.handles

theorem noTags_of_place {place : Place} (here : caller.place? = some place)
    (behind : NoTags caller.handles.tail) : NoTags caller.handles := by
  rw [place?] at here
  cases held : caller.handles with
  | nil => exact .nil
  | cons handle outer =>
    rw [held] at here behind
    cases handle with
    | top => exact behind.top
    | tag element start => cases here
    | body element body => exact behind.body _ _

/-- Nothing is got from a start tag but a body, so whatever is called no start tag comes to be held
behind anything else. -/
theorem behind_of_takes (behind : NoTags caller.handles.tail)
    (takes : caller.Takes call heard next) : NoTags next.handles.tail := by
  have outer {handle : Handle} {rest : List Handle} (front : caller.handles = handle :: rest) :
      NoTags rest := by
    rwa [front] at behind
  have past {handle : Handle} {rest : List Handle} (front : caller.handles = handle :: rest) :
      NoTags rest.tail :=
    fun element start member => outer front element start (List.mem_of_mem_tail member)
  cases takes with
  | write here | adjust here | detach here | replaceSink here | refused here => exact behind
  | top here | started here => exact noTags_of_place here behind
  | added front | opened front | endBody front => exact outer front
  | rejected front | finish front | unopened front | dropBody front | dropTop front
  | giveUp front | abandon front => exact past front

private theorem tags_in_front {sink : Sink} {parameters : Parameters} {encoder : Encoder}
    {calls : List Call} {answers : List (Except Error Unit)}
    (ran : (start sink parameters encoder).run calls = some (answers, caller)) :
    NoTags caller.handles.tail :=
  run_keeps (fun caller => NoTags caller.handles.tail) (fun _ => True) (fun _ => True)
    (fun behind _ _ takes => behind_of_takes behind takes) ran (fun _ _ => trivial)
    (fun _ _ => trivial) .nil

private theorem output_of_sink {document : Document} (same : document.sink = caller.document.sink)
    (handles : List Handle) (added : List Piece) :
    (caller.becomes document handles added).output = caller.output := by
  rw [output, output, becomes, Document.bytes, Document.bytes, Document.contents,
    Document.contents, same]

/-- What becomes of a caller for whom the document is blocked. -/
structure Passes (pending : Tag) (caller : Caller) (call : Call) (heard : Except Error Unit)
    (next : Caller) : Prop where
  blocked : Blocked pending next
  answer : heard = caller.answerInTag pending call
  sink : next.document.sink = call.sinkAfter caller.document.sink
  output : next.output = caller.output ++ call.given

namespace Passes
variable {pending : Tag}

theorem unwritten (document : Document) (waiting : document.unfinished = some pending)
    (same : document.sink = caller.document.sink) {handles : List Handle} (none : NoTags handles)
    (added : List Piece) (answer : heard = caller.answerInTag pending call)
    (sink : call.sinkAfter caller.document.sink = caller.document.sink)
    (given : call.given = []) :
    Passes pending caller call heard (caller.becomes document handles added) where
  blocked := ⟨waiting, none⟩
  answer := answer
  sink := same.trans sink.symm
  output := by rw [output_of_sink same, given, List.append_nil]

end Passes

theorem Blocked.passes {pending : Tag} (blocked : Blocked pending caller)
    (takes : caller.Takes call heard next) : Passes pending caller call heard next := by
  obtain ⟨waiting, none⟩ := blocked
  have refuses := Document.refuses waiting
  have noTag {element : Nat} {start : StartTag} {outer : List Handle}
      (front : caller.handles = .tag element start :: outer) : False := by
    rw [front] at none
    exact none.not_front
  have outer {handle : Handle} {rest : List Handle} (front : caller.handles = handle :: rest) :
      NoTags rest := by
    rw [front] at none
    exact none.tail
  cases takes with
  | @write place call here single =>
    have final : finalState (call.perform place) caller.document = caller.document := by
      rw [finalState, refuses.writes]
    rw [verdict, refuses.writes, final]
    exact .unwritten caller.document waiting rfl none _ rfl rfl rfl
  | adjust here change =>
    have still : (finalState change.perform caller.document).unfinished =
        some pending := waiting
    exact .unwritten _ still rfl none _ rfl rfl rfl
  | detach here => exact ⟨⟨waiting, none⟩, rfl, rfl, rfl⟩
  | replaceSink here sink => exact ⟨⟨waiting, none⟩, rfl, rfl, rfl⟩
  | top here => exact .unwritten caller.document waiting rfl none.top _ rfl rfl rfl
  | started here ran =>
    rw [refuses.elements] at ran
    cases ran
  | refused here ran =>
    rw [refuses.elements] at ran
    cases ran
    exact .unwritten caller.document waiting rfl none _ rfl rfl rfl
  | @endBody element body _ front =>
    obtain ⟨still, same⟩ := body.close_waiting_keeps waiting
    refine .unwritten _ still same ((outer front).body _ _) _ ?_ rfl rfl
    rw [body.close_waiting_verdict waiting, answerInTag, front]
  | @dropBody element body _ front =>
    obtain ⟨still, same⟩ := body.close_waiting_keeps waiting
    exact .unwritten _ still same (outer front) _ rfl rfl rfl
  | dropTop front => exact .unwritten caller.document waiting rfl (outer front) _ rfl rfl rfl
  | @abandon element body _ front =>
    obtain ⟨still, same⟩ := body.abandon_same caller.document
    exact .unwritten _ (still.trans waiting) same (outer front) _ rfl rfl rfl
  -- What is left is called on a start tag, and none is held.
  | added front | rejected front | finish front | opened front | unopened front | giveUp front =>
    exact (noTag front).elim

theorem Blocked.run {pending : Tag} (blocked : Blocked pending caller) {calls : List Call}
    {answers : List (Except Error Unit)} (ran : caller.run calls = some (answers, final)) :
    Blocked pending final ∧
      final.document.sink = calls.foldl Call.sinkAfter caller.document.sink ∧
      final.output = caller.output ++ calls.flatMap Call.given := by
  induction calls generalizing caller answers with
  | nil =>
    cases ran
    exact ⟨blocked, rfl, (List.append_nil _).symm⟩
  | cons call rest ih =>
    obtain ⟨heard, next, later, stepped, continued, -⟩ := run_cons ran
    have passes := blocked.passes (takes_of_step stepped)
    obtain ⟨last, sink, output⟩ := ih passes.blocked continued
    refine ⟨last, ?_, ?_⟩
    · rw [sink, passes.sink, List.foldl_cons]
    · rw [output, passes.output, List.flatMap_cons, List.append_assoc]

/-- A document whose unfinished start tag nobody holds is blocked for good, whatever is called on
it and wherever: nothing reaches a sink, whoever writes is told of the start tag, and so is
whoever ends the document. -/
theorem given_up_tag_blocks {sink : Sink} {parameters : Parameters} {encoder : Encoder}
    {earlier calls : List Call} {before answers : List (Except Error Unit)} {blocked : Caller}
    {place : Place} {pending : Tag}
    (ran : (start sink parameters encoder).run earlier = some (before, blocked))
    (waiting : blocked.document.unfinished = some pending) (givenUp : blocked.place? = some place)
    (continued : blocked.run calls = some (answers, final)) :
    final.document.unfinished = some pending ∧ final.document.Refuses pending ∧
      final.document.sink = calls.foldl Call.sinkAfter blocked.document.sink ∧
      final.output = blocked.output ++ calls.flatMap Call.given ∧
      ∀ call heard next, final.step call = some (heard, next) →
        heard = final.answerInTag pending call := by
  have start : Blocked pending blocked := ⟨waiting, noTags_of_place givenUp (tags_in_front ran)⟩
  obtain ⟨last, sink, output⟩ := start.run continued
  refine ⟨last.waiting, Document.refuses last.waiting, sink, output, ?_⟩
  intro call heard next stepped
  exact (last.passes (takes_of_step stepped)).answer

/-- A paragraph in a division is given up. Then the division cannot be ended, and neither the
empty text nor a line break is written, not even to another sink. -/
theorem given_up_paragraph_blocks : ∃ before blocked answers final,
    (start {} {} .markup).run [.start .div, .openBody, .start .p, .drop] =
        some (before, blocked) ∧
      blocked.document.unfinished = some .p ∧
      blocked.run [.write (.text ""), .adjust .deeper, .endBody, .endBody, .drop,
        .replaceSink {}, .write .newline] = some (answers, final) ∧
      answers = [.error (.tagInProgress .p .text), .ok (), .error (.tagInProgress .p .endTag),
        .ok (), .ok (), .ok (), .error (.tagInProgress .p .newline)] ∧
      final.document.sink = some {} ∧ final.output = utf8 "<div><p" ∧
      final.document.Refuses .p := by
  have seen : ((start {} {} .markup).run [.start .div, .openBody, .start .p, .drop]).bind
        (fun result => (result.2.run [.write (.text ""), .adjust .deeper, .endBody, .endBody,
          .drop, .replaceSink {}, .write .newline]).map fun later =>
            (result.2.document.unfinished, result.2.place?, result.2.output, later.1)) =
      some (some .p, some ⟨some .div, Tag.div.definition.content.inside .anything⟩,
        utf8 "<div><p", [.error (.tagInProgress .p .text), .ok (),
        .error (.tagInProgress .p .endTag), .ok (), .ok (), .ok (),
        .error (.tagInProgress .p .newline)]) := by
    rfl
  obtain ⟨⟨before, blocked⟩, ran, rest⟩ := Option.bind_eq_some_iff.mp seen
  obtain ⟨⟨answers, final⟩, continued, same⟩ := Option.map_eq_some_iff.mp rest
  simp only [Prod.mk.injEq] at same
  obtain ⟨waiting, givenUp, output, rfl⟩ := same
  obtain ⟨-, refuses, sink, after, -⟩ := given_up_tag_blocks ran waiting givenUp continued
  refine ⟨_, blocked, _, final, ran, waiting, continued, rfl, sink, ?_, refuses⟩
  rw [after, output]
  rfl

end Caller
end HtmlWriter
