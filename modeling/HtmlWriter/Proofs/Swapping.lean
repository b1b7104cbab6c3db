import HtmlWriter.Proofs.Detours
import HtmlWriter.Proofs.Prefixes

/-! Sinks that are swapped. Nothing that is decided depends on the sink, so where one sink is
taken away and a fresh one is given, the output goes on in the new sink, and all else goes on
as if there had been one sink. -/

namespace HtmlWriter
open Script Writing

theorem Program.Within.leavesSink {program : Program} {asks : Inquiry → Prop}
    (within : program.Within Call.LeavesSink asks) : program.LeavesSink := by
  induction program with
  | done => trivial
  | make call next ih => exact ⟨within.1, fun heard => ih heard (within.2 heard)⟩
  | ask question next ih => exact fun report => ih report (within.2 report)

namespace Caller
variable {caller left right next : Caller} {call : Call} {heard : Except Error Unit}

/-- Give the caller sinks, one after the other, if it can take them. -/
def swapping (swaps : Nat → List Sink) (count : Nat) (caller : Caller) : Caller :=
  (swaps count).foldl (fun caller sink => caller.attempt (.replaceSink sink)) caller

/-- Callers that differ only in which sinks took what was written. -/
structure Elsewhere (left right : Caller) : Prop where
  document : left.document.sinkless = right.document.sinkless
  first : ∃ sink, left.document.sink = some sink ∧ sink.Accepts
  second : ∃ sink, right.document.sink = some sink ∧ sink.Accepts
  handles : left.unnumbered.handles = right.unnumbered.handles
  output : left.output = right.output

private theorem collected_of_takes (takes : caller.Takes call heard next)
    (leaves : call.LeavesSink) :
    next.collected = caller.collected := by
  cases takes with
  | detach here | replaceSink here sink => exact leaves.elim
  | _ => rfl

private theorem output_of_filled {sink : Sink} {taken : List UInt8} (leaves : call.LeavesSink)
    (takes : caller.Takes call heard next) (before : caller.document.sink = some sink)
    (after : next.document.sink = some (sink.filled taken)) :
    next.output = caller.output ++ taken := by
  rw [output, output, collected_of_takes takes leaves, Document.bytes, Document.bytes,
    Document.contents, Document.contents, before, after, Option.map_some, Option.map_some,
    Option.getD_some, Option.getD_some, Sink.contents_filled, List.append_assoc]

namespace Elsewhere

theorem symm (elsewhere : Elsewhere left right) : Elsewhere right left where
  document := elsewhere.document.symm
  first := elsewhere.second
  second := elsewhere.first
  handles := elsewhere.handles.symm
  output := elsewhere.output.symm

theorem place? (elsewhere : Elsewhere left right) : left.place? = right.place? := by
  rw [← place?_unnumbered left, ← place?_unnumbered right, Caller.place?, Caller.place?,
    elsewhere.handles]

private theorem eq_with_sink (elsewhere : Elsewhere left right) :
    left.document = { right.document with sink := left.document.sink } :=
  congrArg (fun document => { document with sink := left.document.sink }) elsewhere.document

theorem answer (elsewhere : Elsewhere left right) {question : Inquiry} (blind : question ≠ .sink)
    (place : Place) :
    question.answer place left.document = question.answer place right.document := by
  obtain ⟨first, present, -⟩ := elsewhere.first
  obtain ⟨second, there, -⟩ := elsewhere.second
  have same := elsewhere.eq_with_sink
  rw [present] at same
  rw [same]
  cases question with
  | sink => exact (blind rfl).elim
  | place => rfl
  | document => exact congrArg Report.text (right.document.describe_of_present there)

theorem replaceSink (elsewhere : Elsewhere left right) {sink : Sink} (accepts : sink.Accepts)
    (fresh : sink.contents = []) : Elsewhere (left.attempt (.replaceSink sink)) right := by
  rcases left.attempt_cases (.replaceSink sink) with same | ⟨heard, takes⟩
  · rwa [same]
  · generalize left.attempt (.replaceSink sink) = after at takes
    cases takes with
    | replaceSink here =>
      refine ⟨elsewhere.document, ⟨sink, rfl, accepts⟩, elsewhere.second, elsewhere.handles, ?_⟩
      have bytes : (finalState (Writing.replaceSink sink) left.document).bytes = [] := fresh
      change left.output ++ _ = right.output
      rw [becomes, bytes, List.append_nil, elsewhere.output]

theorem swapping (elsewhere : Elsewhere left right) {swaps : Nat → List Sink}
    (fresh : ∀ count, ∀ sink ∈ swaps count, sink.Accepts ∧ sink.contents = []) (count : Nat) :
    Elsewhere (left.swapping swaps count) right := by
  rw [Caller.swapping]
  have each := fresh count
  generalize swaps count = sinks at each
  induction sinks generalizing left with
  | nil => exact elsewhere
  | cons sink rest ih =>
    obtain ⟨accepts, empty⟩ := each sink (.head _)
    exact ih (elsewhere.replaceSink accepts empty) fun sink member => each sink (.tail _ member)

theorem twins (elsewhere : Elsewhere left right) {first second : Sink}
    (present : left.document.sink = some first) (there : right.document.sink = some second) :
    Twins first second left.unnumbered right.unnumbered where
  document := by
    refine ⟨[], .zero first, ?_, ?_⟩
    · rw [Sink.filled_nil, ← present]
      exact elsewhere.eq_with_sink
    · rw [Sink.filled_nil]
      exact there
  handles := elsewhere.handles
  pieces := rfl

theorem step (elsewhere : Elsewhere left right) (leaves : call.LeavesSink)
    (stepped : left.step call = some (heard, next)) :
    ∃ after, right.step call = some (heard, after) ∧ Elsewhere next after := by
  obtain ⟨first, present, accepts⟩ := elsewhere.first
  obtain ⟨second, there, takesAll⟩ := elsewhere.second
  have twins := elsewhere.twins present there
  obtain ⟨middle, forgot, same⟩ := step_of_unnumbered left.unnumbered_unnumbered.symm stepped
  obtain ⟨told, last, takes, steps⟩ := twins.step takesAll leaves (takes_of_step forgot)
  cases steps with
  | parted parted noticed =>
    -- Runs part where a sink is spent, and this one never is.
    obtain ⟨taken, -, -, -, spent, -⟩ := parted
    exact ((accepts.filled taken).not_spent spent).elim
  | alike both =>
    obtain ⟨after, beside, agree⟩ :=
      step_of_unnumbered right.unnumbered_unnumbered (step_of_takes takes)
    have here : next.document = middle.document := document_of_unnumbered same
    have later : after.document = last.document := document_of_unnumbered agree.symm
    obtain ⟨taken, -, document, grown⟩ := both.document
    have more : next.document.sink = some (first.filled taken) := by rw [here, document]
    have besides : after.document.sink = some (second.filled taken) := by rw [later, grown]
    refine ⟨after, beside, ?_, ⟨_, more, accepts.filled taken⟩, ⟨_, besides, takesAll.filled taken⟩,
      ?_, ?_⟩
    · rw [here, later, document]
      rfl
    · rw [same, ← agree, unnumbered, unnumbered, both.handles]
    · rw [output_of_filled leaves (takes_of_step stepped) present more, elsewhere.output,
        output_of_filled leaves (takes_of_step beside) there besides]

theorem alike : Alike Call.LeavesSink (· ≠ .sink) Elsewhere where
  symm := symm
  place := place?
  document := document
  answer elsewhere blind := elsewhere.answer blind
  step := step

end Elsewhere

private theorem start_elsewhere {sink : Sink} (accepts : sink.Accepts) (parameters : Parameters)
    (encoder : Encoder) :
    Elsewhere (start sink parameters encoder) (start sink parameters encoder) :=
  ⟨rfl, ⟨sink, rfl, accepts⟩, ⟨sink, rfl, accepts⟩, rfl, rfl⟩

/-- What a program writes that has one sink is what the sink holds in the end. -/
private theorem contents_of_follow {sink : Sink} {parameters : Parameters} {encoder : Encoder}
    (accepts : sink.Accepts) {program : Program} (leaves : program.LeavesSink)
    {history : List Made}
    (followed : (start sink parameters encoder).follow program = some (history, caller)) :
    caller.document.contents = some caller.output := by
  have kept := follow_keeps (fun caller => caller.collected = [] ∧
      ∃ taken, caller.document.sink = some (sink.filled taken))
    (fun ⟨nothing, taken, present⟩ leaves takes => by
      obtain ⟨_, _, streams, after⟩ := takes.streams leaves
      obtain ⟨more, grown⟩ := streams.grows accepts present
      exact ⟨(collected_of_takes takes leaves).trans nothing, _, by rw [after, grown]⟩)
    leaves followed ⟨rfl, [], by rw [Sink.filled_nil]; rfl⟩
  obtain ⟨nothing, taken, present⟩ := kept
  rw [output, nothing, List.nil_append, Document.bytes, Document.contents, present]
  rfl

/-- Sinks may be swapped at any time for fresh ones. Each call then ends as it would have ended,
each leaves the same document but for the sink, and what the sinks took, one after the other, is
what the one sink would have taken. -/
theorem swaps_are_seamless {sink : Sink} (accepts : sink.Accepts) {swaps : Nat → List Sink}
    (fresh : ∀ count, ∀ sink ∈ swaps count, sink.Accepts ∧ sink.contents = [])
    {program : Program} (within : program.Within Call.LeavesSink (· ≠ .sink))
    (parameters : Parameters) (encoder : Encoder) :
    ((start sink parameters encoder).followWith (swapping swaps) program).map
          (remains Document.sinkless) =
        ((start sink parameters encoder).follow program).map (remains Document.sinkless) ∧
      ∀ history final, (start sink parameters encoder).follow program = some (history, final) →
        final.document.contents = some final.output := by
  refine ⟨?_, fun history final followed => contents_of_follow accepts within.leavesSink followed⟩
  exact Elsewhere.alike.remains_eq (fun elsewhere => ⟨elsewhere.document, elsewhere.output⟩)
    (fun count _ _ elsewhere => elsewhere.swapping fresh count) within
    (start_elsewhere accepts parameters encoder)

/-- A script whose first text begins an end tag. Its last text says whether the second text was
taken. -/
def brokenScript : Program :=
  .make (.start .script) fun _ => .make .openBody fun _ =>
    .make (.write (.text "</scr")) fun _ => .make (.write (.text "ipt")) fun heard =>
      .make (.write (.text (if heard matches .ok () then "1" else "0"))) fun _ =>
        .make .endBody fun _ => .done

/-- The end tag is not completed in the next sink either. -/
theorem swaps_inside_script : ∃ told last history final,
    (start {} {} .markup).followWith (swapping fun _ => [{ chunk := some 2 }]) brokenScript =
        some (told, last) ∧
      (start {} {} .markup).follow brokenScript = some (history, final) ∧
      told.map Made.report = history.map Made.report ∧ last.document.contents = some [] ∧
      last.output = utf8 "<script></scr0</script>" ∧
      final.document.contents = some (utf8 "<script></scr0</script>") := by
  have swapped : ((start {} {} .markup).followWith (swapping fun _ => [{ chunk := some 2 }])
      brokenScript).map (fun result => result.2.document.contents) = some (some []) := by rfl
  have plain : ((start {} {} .markup).follow brokenScript).map (fun result => result.2.output) =
      some (utf8 "<script></scr0</script>") := by rfl
  obtain ⟨⟨told, last⟩, interrupted, left⟩ := Option.map_eq_some_iff.mp swapped
  obtain ⟨⟨history, final⟩, followed, output⟩ := Option.map_eq_some_iff.mp plain
  have fresh : ∀ count : Nat, ∀ sink ∈ [({ chunk := some 2 } : Sink)],
      sink.Accepts ∧ sink.contents = [] := by
    intro count sink member
    rw [List.mem_singleton.mp member]
    exact ⟨⟨rfl, by decide⟩, rfl⟩
  have within : brokenScript.Within Call.LeavesSink (· ≠ .sink) :=
    ⟨trivial, fun _ => ⟨trivial, fun _ => ⟨trivial, fun _ => ⟨trivial, fun _ =>
      ⟨trivial, fun _ => ⟨trivial, fun _ => trivial⟩⟩⟩⟩⟩⟩
  obtain ⟨same, whole⟩ :=
    swaps_are_seamless Sink.Unlimited.default.accepts fresh within {} .markup
  rw [interrupted, followed, Option.map_some, Option.map_some, Option.some_inj] at same
  simp only [remains, Prod.mk.injEq] at same
  obtain ⟨reports, -, outputs⟩ := same
  refine ⟨told, last, history, final, interrupted, followed, reports, left, ?_, ?_⟩
  · exact outputs.trans output
  · rw [whole history final followed, output]

end Caller
end HtmlWriter
