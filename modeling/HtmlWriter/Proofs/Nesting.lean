import HtmlWriter.Proofs.Outlines

/-! Tags are nested. If every call of a run succeeds over sinks that take everything, and the
document can be finished, then the tags that were written pair off: each start tag of an
element with content has an end tag of its own, and those of one element lie inside of those
of another or apart from them. -/

namespace HtmlWriter
open Script Writing

/-- Pieces whose tags pair off, and whose start tags are all finished. -/
inductive Nested : List Piece → Prop
  | quiet {added : List Piece} (quiet : Quiet added) : Nested added
  | void {element : Nat} {tag : Tag} {attributes : List Piece}
      (isVoid : tag.definition.isVoid = true) (quiet : Quiet attributes) :
      Nested (.opening element tag :: attributes ++ [.bracket element tag])
  | element {element : Nat} {tag : Tag} {attributes content : List Piece}
      (solid : tag.definition.isVoid = false) (quiet : Quiet attributes)
      (inside : Nested content) :
      Nested (.opening element tag :: attributes ++ .bracket element tag :: content ++
        [.endTag element tag])
  | append {first second : List Piece} (before : Nested first) (after : Nested second) :
      Nested (first ++ second)

/-- Pieces that would be nested with the end tags of these elements, innermost first. -/
inductive Unclosed : List (Nat × Tag) → List Piece → Prop
  | nested {pieces : List Piece} (nested : Nested pieces) : Unclosed [] pieces
  | inside {element : Nat} {tag : Tag} {waiting : List (Nat × Tag)}
      {before attributes content : List Piece} (solid : tag.definition.isVoid = false)
      (around : Unclosed waiting before) (quiet : Quiet attributes) (nested : Nested content) :
      Unclosed ((element, tag) :: waiting)
        (before ++ (.opening element tag :: attributes ++ .bracket element tag :: content))

namespace Unclosed
variable {element : Nat} {tag : Tag} {waiting : List (Nat × Tag)} {pieces added : List Piece}

theorem append (unclosed : Unclosed waiting pieces) (nested : Nested added) :
    Unclosed waiting (pieces ++ added) := by
  cases unclosed with
  | nested before => exact .nested (before.append nested)
  | inside solid around quiet content =>
    simp only [List.append_assoc, List.cons_append]
    exact .inside solid around quiet (content.append nested)

theorem close (unclosed : Unclosed ((element, tag) :: waiting) pieces) :
    Unclosed waiting (pieces ++ [.endTag element tag]) := by
  cases unclosed with
  | inside solid around quiet content =>
    rw [List.append_assoc]
    exact around.append (.element solid quiet content)

end Unclosed

/-- The elements whose end tags are still to come, innermost first. -/
def Handle.unended (handles : List Handle) : List (Nat × Tag) :=
  handles.filterMap fun
    | .body element opened => if opened.isEnded then none else some (element, opened.tag)
    | .top | .tag _ _ => none

private theorem Body.isEnded_ended (body : Body) : body.ended.isEnded = true := rfl

private theorem Handle.unended_live {body : Body} (live : body.isEnded = false) (element : Nat)
    (outer : List Handle) :
    unended (.body element body :: outer) = (element, body.tag) :: unended outer := by
  simp [unended, live]

private theorem Handle.unended_ended {body : Body} (ended : body.isEnded = true) (element : Nat)
    (outer : List Handle) : unended (.body element body :: outer) = unended outer := by
  simp [unended, ended]

/-- What was written lacks the end tags of the bodies in hand, and the rest of the start tag
that takes attributes. -/
inductive Outline.Balanced : Outline → Prop
  | between {handles : List Handle} {pieces : List Piece} (none : NoTags handles)
      (unclosed : Unclosed (Handle.unended handles) pieces) : Balanced ⟨.none, handles, pieces⟩
  | inTag {element : Nat} {start : StartTag} {outer : List Handle}
      {before attributes : List Piece} (none : NoTags outer)
      (unclosed : Unclosed (Handle.unended outer) before) (quiet : Quiet attributes) :
      Balanced ⟨some start.tag, .tag element start :: outer,
        before ++ .opening element start.tag :: attributes⟩

theorem Outline.Moves.balanced {outline next : Outline} {call : Call}
    (balanced : outline.Balanced) (stays : call ≠ .abandon)
    (moves : outline.Moves call (.ok ()) next) : next.Balanced ∨ next.Lost := by
  cases balanced with
  | between none unclosed =>
    refine .inl ?_
    cases moves with
    | stays quiet => exact .between none (unclosed.append (.quiet quiet))
    | top free => exact .between none.top unclosed
    | started idle model => exact .inTag none unclosed .nil
    | attributed front same quiet | finishedVoid front isVoid | finished front solid quiet
    | opened front solid of inside live =>
      cases front
      exact none.not_front.elim
    | @letGo _ _ handle outer added front quiet past =>
      cases front
      have same : Handle.unended (handle :: outer) = Handle.unended outer := by
        cases handle with
        | top | tag element start => rfl
        | body element body =>
          have ended := (past element body rfl).resolve_right fun other =>
            other.elim (fun waits => waits rfl) stays
          exact Handle.unended_ended ended element outer
      rw [same] at unclosed
      exact .between none.tail (unclosed.append (.quiet quiet))
    | @ended _ element body outer rest front live idle kept =>
      cases front
      rw [Handle.unended_live live] at unclosed
      cases kept with
      | inl kept =>
        cases kept
        refine .between (none.tail.body _ _) ?_
        rw [Handle.unended_ended body.isEnded_ended]
        exact unclosed.close
      | inr gone =>
        cases gone
        exact .between none.tail unclosed.close
    | @endedInVain _ element body outer front past =>
      cases front
      have ended := past.resolve_right fun waits => waits rfl
      rw [Handle.unended_ended ended] at unclosed
      refine .between (none.tail.body _ _) ?_
      rw [Handle.unended_ended body.isEnded_ended]
      exact unclosed
  | @inTag element start outer before attributes none unclosed begun =>
    cases moves with
    | stays quiet =>
      rw [List.append_assoc]
      exact .inl (.inTag none unclosed (begun.append quiet))
    | top free => exact (free _ _ _ rfl).elim
    | started idle model => cases idle
    | attributed front same quiet =>
      cases front
      rw [← same.1, List.append_assoc]
      exact .inl (.inTag none unclosed (begun.append quiet))
    | letGo front quiet past =>
      cases front
      exact .inr ⟨nofun, none⟩
    | finishedVoid front isVoid =>
      cases front
      rw [List.append_assoc]
      exact .inl (.between none (unclosed.append (.void isVoid begun)))
    | @finished element start outer ending content front solid quiet =>
      cases front
      have whole := @Nested.element element _ _ _ solid begun (.quiet quiet)
      have ended := unclosed.append whole
      simp only [List.append_assoc, List.cons_append] at ended ⊢
      exact .inl (.between none ended)
    | @opened element start outer body front solid of inside live =>
      cases front
      have opened := @Unclosed.inside element _ _ _ _ _ solid unclosed begun (.quiet .nil)
      rw [← of, ← Handle.unended_live live] at opened
      rw [List.append_assoc, ← of]
      exact .inl (.between (none.body _ _) opened)
    | ended front live idle kept => cases front
    | endedInVain front past => cases front

private theorem Writing.finish_ok {document last : Document} {sink : Sink}
    (finished : Writing.finish.run document = .ok sink last) :
    document.unfinished = none ∧ document.sink = some sink := by
  cases waiting : document.unfinished with
  | some pending =>
    rw [finish, Action.run_bind, run_refuseInTag_waiting waiting] at finished
    cases finished
  | none =>
    refine ⟨rfl, ?_⟩
    rw [finish, run_refuseInTag_bind waiting] at finished
    simp only [detach, Action.run_bind, Action.run_modifyGet] at finished
    cases present : document.sink with
    | none =>
      rw [present] at finished
      cases finished
    | some held =>
      simp only [present] at finished
      cases flushed : held.flush with
      | ok value =>
        rw [flushed] at finished
        cases finished
        rfl
      | error fault =>
        rw [flushed] at finished
        cases finished

namespace Caller

/-- However calls are mixed, and whichever way bodies are ended: if every call succeeds and so
does finishing the document, the tags that were written are nested, and the sinks hold them in
this order. A start tag that is given up, or a body whose end fails unheard, is told by
finishing the document. -/
theorem nested_of_finish {sink closed : Sink} {parameters : Parameters} {encoder : Encoder}
    {calls : List Call} {answers : List (Except Error Unit)} {final : Caller} {last : Document}
    (takes : sink.Unlimited) (calm : ∀ call ∈ calls, call.KeepsSink ∧ call ≠ .abandon)
    (ran : (start sink parameters encoder).run calls = some (answers, final))
    (succeeded : ∀ heard ∈ answers, heard = .ok ()) (released : final.handles = [])
    (finished : Writing.finish.run final.document = .ok closed last) :
    Nested final.pieces ∧
      Spelled parameters.serialization final.pieces (final.collected ++ closed.contents) := by
  have initial : (start sink parameters encoder).outline.Balanced :=
    .between .nil (.nested (.quiet (.other _)))
  obtain ⟨recorded, phase⟩ := run_moves
    (fun outline => outline.Balanced ∨ outline.Lost) _ (· = .ok ())
    (fun phase stays good moves => by
      subst good
      exact phase.elim (moves.balanced · stays) fun lost => .inr (moves.lost lost))
    takes ran calm succeeded (.inl initial)
  obtain ⟨idle, held⟩ := Writing.finish_ok finished
  have output : final.output = final.collected ++ closed.contents := by
    rw [Caller.output, Document.bytes, Document.contents, held]
    rfl
  refine ⟨?_, output ▸ recorded.spelled⟩
  rcases phase with balanced | lost
  · generalize seen : final.outline = outline at balanced
    cases balanced with
    | @between handles pieces none unclosed =>
      obtain rfl : [] = handles := released.symm.trans (congrArg Outline.handles seen)
      obtain rfl : final.pieces = pieces := congrArg Outline.pieces seen
      cases unclosed with
      | nested nested => exact nested
    | inTag none unclosed quiet =>
      have waits := congrArg Outline.unfinished seen
      rw [outline, idle] at waits
      cases waits
  · exact (lost.1 idle).elim

/-- A body around an element with text, and one without content that is written at the top
level; it is ended twice before it is dropped. -/
theorem division_is_nested : ∃ answers final closed last,
    (start {} {} .markup).run [.start .div, .openBody, .start .p, .finish (.text "a"), .top,
        .start .br, .finish .close, .drop, .endBody, .endBody, .drop] = some (answers, final) ∧
      Writing.finish.run final.document = .ok closed last ∧
      closed.contents = utf8 "<div><p>a</p><br></div>" ∧ Nested final.pieces := by
  have seen : ((start {} {} .markup).run [.start .div, .openBody, .start .p, .finish (.text "a"),
        .top, .start .br, .finish .close, .drop, .endBody, .endBody, .drop]).map (fun result =>
      (result.1, result.2.handles.length, Writing.finish.verdict result.2.document,
        result.2.document.contents)) =
      some (List.replicate 11 (.ok ()), 0, .ok (), some (utf8 "<div><p>a</p><br></div>")) := by
    rfl
  obtain ⟨⟨answers, final⟩, ran, same⟩ := Option.map_eq_some_iff.mp seen
  simp only [Prod.mk.injEq, List.length_eq_zero_iff] at same
  obtain ⟨rfl, released, good, contents⟩ := same
  obtain ⟨closed, last, finished⟩ := Writing.ok_of_verdict good
  rw [Document.contents, (Writing.finish_ok finished).2] at contents
  refine ⟨_, final, closed, last, ran, finished, Option.some.inj contents, ?_⟩
  refine (nested_of_finish .default ?_ ran ?_ released finished).1
  · simp [Call.KeepsSink]
  · exact fun heard member => List.eq_of_mem_replicate member

end Caller
end HtmlWriter
