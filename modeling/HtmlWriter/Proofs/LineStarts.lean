import HtmlWriter.Proofs.Spacing

/-! Every call writes what it would write with automatic newlines off, with gaps in between. The
formatting state is in step with the output at every point, so no line is broken automatically
that has just started. -/

namespace HtmlWriter
open Script Writing

def Handle.plain : Handle → Handle
  | top => top
  | tag element start => tag element start
  | body element opened => body element opened.plain

/-- Calls that may write something. -/
def Call.Writes : Call → Prop
  | .adjust _ | .detach | .replaceSink _ => False
  | _ => True

namespace Caller
variable {caller next : Caller} {call : Call} {heard : Except Error Unit}

/-- The same caller with automatic newlines off, now and in the bodies that are open. -/
def plain (caller : Caller) : Caller :=
  { caller with
    document := caller.document.plain
    handles := caller.handles.map Handle.plain }

theorem place?_plain (caller : Caller) : caller.plain.place? = caller.place? := by
  rw [place?, place?, plain]
  cases caller.handles with
  | nil => rfl
  | cons handle outer => cases handle <;> rfl

theorem handles_plain {handle : Handle} {outer : List Handle}
    (front : caller.handles = handle :: outer) :
    caller.plain.handles = handle.plain :: outer.map Handle.plain := by
  rw [plain, front, List.map_cons]

private theorem takes_start {place : Place} (here : caller.place? = some place) (tag : Tag) :
    ∃ heard next, caller.Takes (.start tag) heard next ∧
      next.document = finalState (place.element tag) caller.document := by
  rw [finalState]
  cases ran : (place.element tag).run caller.document with
  | ok start document => exact ⟨_, _, .started here ran, rfl⟩
  | error error document => exact ⟨_, _, .refused here ran, rfl⟩

private theorem takes_add {element : Nat} {start : StartTag} {outer : List Handle}
    (front : caller.handles = .tag element start :: outer) (requested : Attribute) :
    ∃ heard next, caller.Takes (.add requested) heard next ∧
      next.document = finalState (start.add requested) caller.document := by
  rw [finalState]
  cases ran : (start.add requested).run caller.document with
  | ok added document => exact ⟨_, _, .added front ran, rfl⟩
  | error error document => exact ⟨_, _, .rejected front ran, rfl⟩

private theorem takes_openBody {element : Nat} {start : StartTag} {outer : List Handle}
    (front : caller.handles = .tag element start :: outer) :
    ∃ heard next, caller.Takes .openBody heard next ∧
      next.document = finalState start.openBody caller.document := by
  rw [finalState]
  cases ran : start.openBody.run caller.document with
  | ok body document => exact ⟨_, _, .opened front ran, rfl⟩
  | error error document => exact ⟨_, _, .unopened front ran, rfl⟩

/-- A call that can be made plainly as well, and does the same but for gaps. -/
def Compares (caller next : Caller) (call : Call) : Prop :=
  ∃ told after, caller.plain.Takes call told after ∧
    ∃ (α : Type) (related : α → α → Prop) (action plainly : Writing α),
      RunsBeside related action plainly ∧ next.document = finalState action caller.document ∧
        after.document = finalState plainly caller.plain.document

private theorem Takes.compares (takes : caller.Takes call heard next) (writes : call.Writes) :
    caller.Compares next call := by
  have here' {place : Place} (here : caller.place? = some place) :
      caller.plain.place? = some place := caller.place?_plain.trans here
  have starts {place : Place} {tag : Tag} (here : caller.place? = some place)
      (same : next.document = finalState (place.element tag) caller.document) :
      caller.Compares next (.start tag) := by
    obtain ⟨told, after, takes, other⟩ := takes_start (here' here) tag
    exact ⟨told, after, takes, _, _, _, _, place.element_steady tag, same, other⟩
  have adds {element : Nat} {start : StartTag} {outer : List Handle} {requested : Attribute}
      (front : caller.handles = .tag element start :: outer)
      (same : next.document = finalState (start.add requested) caller.document) :
      caller.Compares next (.add requested) := by
    obtain ⟨told, after, takes, other⟩ := takes_add (handles_plain front) requested
    exact ⟨told, after, takes, _, _, _, _, start.add_steady requested, same, other⟩
  have opens {element : Nat} {start : StartTag} {outer : List Handle}
      (front : caller.handles = .tag element start :: outer)
      (same : next.document = finalState start.openBody caller.document) :
      caller.Compares next .openBody := by
    obtain ⟨told, after, takes, other⟩ := takes_openBody (handles_plain front)
    exact ⟨told, after, takes, _, _, _, _, start.openBody_beside, same, other⟩
  have nothing : RunsBeside Eq (pure () : Writing Unit) (pure ()) := .pure rfl
  cases takes with
  | @write place call here single =>
    exact ⟨_, _, .write (here' here) single, _, _, _, _, call.perform_steady single place, rfl, rfl⟩
  | adjust here | detach here | replaceSink here => exact writes.elim
  | top here => exact ⟨_, _, .top (here' here), _, _, _, _, nothing, rfl, rfl⟩
  | started here ran | refused here ran => exact starts here (by rw [finalState, ran]; rfl)
  | added front ran | rejected front ran => exact adds front (by rw [finalState, ran]; rfl)
  | opened front ran | unopened front ran => exact opens front (by rw [finalState, ran]; rfl)
  | @finish element start outer front ending =>
    exact ⟨_, _, .finish (handles_plain front) ending, _, _, _, _, ending.finish_steady start,
      rfl, rfl⟩
  | @endBody element body outer front =>
    exact ⟨_, _, .endBody (handles_plain front), _, _, _, _, body.close_beside, rfl, rfl⟩
  | @dropBody element body outer front =>
    exact ⟨_, _, .dropBody (handles_plain front), _, _, _, _, body.close_beside, rfl, rfl⟩
  | dropTop front => exact ⟨_, _, .dropTop (handles_plain front), _, _, _, _, nothing, rfl, rfl⟩
  | giveUp front => exact ⟨_, _, .giveUp (handles_plain front), _, _, _, _, nothing, rfl, rfl⟩
  | @abandon element body outer front =>
    exact ⟨_, _, .abandon (handles_plain front), _, _, _, _, body.abandon_beside, rfl, rfl⟩

private theorem wrote_adjust {place : Place} (here : caller.place? = some place)
    (change : Adjustment) : ∃ after, caller.step (.adjust change) = some (.ok (), after) ∧
      caller.wrote after (.adjust change) = [] := by
  refine ⟨_, step_of_takes (.adjust here change), ?_⟩
  change caller.document.bytes.drop caller.document.bytes.length = []
  exact List.drop_length

theorem InStep.gapped {before : List UInt8} (inStep : caller.InStep before)
    (takes : caller.Takes call heard next) :
    ∃ told after, caller.plain.step call = some (told, after) ∧
      Gapped before (caller.plain.wrote after call) (caller.wrote next call) := by
  have writing (writes : call.Writes) (leaves : call.LeavesSink)
      (same : ∀ caller next, wrote caller next call = caller.document.gained next.document) :
      ∃ told after, caller.plain.step call = some (told, after) ∧
        Gapped before (caller.plain.wrote after call) (caller.wrote next call) := by
    obtain ⟨told, after, plainly, α, related, action, other, runs, ended, also⟩ :=
      takes.compares writes
    refine ⟨told, after, step_of_takes plainly, ?_⟩
    rw [same, same]
    -- Without a sink neither writes anything. With one, both start with nothing written to it.
    cases present : caller.document.sink with
    | none =>
      obtain ⟨_, _, streams, result⟩ := takes.streams leaves
      obtain ⟨_, _, plainStreams, outcome⟩ := plainly.streams leaves
      have absent : caller.plain.document.sink = none := present
      have gone := (streams.detached present).1
      have away := (plainStreams.detached absent).1
      rw [← result] at gone
      rw [← outcome] at away
      rw [Document.gained_detached gone, Document.gained_detached away]
      exact .nil
    | some sink =>
      have ends := (runs (inStep.accepts sink present) (.start present inStep.line)).final
      obtain ⟨bytes, written, gapped, taken, plainTaken, -⟩ := ends.gapped
      have here : caller.plain.document.sink = some sink := present
      rw [← ended] at taken
      rw [Document.gained_filled present taken, Document.gained_filled here (also ▸ plainTaken)]
      exact gapped
  cases call with
  | adjust change =>
    cases takes with
    | adjust here =>
      obtain ⟨next, stepped, nothing⟩ := wrote_adjust here change
      obtain ⟨after, plainly, also⟩ := wrote_adjust (caller.place?_plain.trans here) change
      cases stepped.symm.trans (step_of_takes (.adjust here change))
      refine ⟨_, after, plainly, ?_⟩
      rw [nothing, also]
      exact .nil
  | detach =>
    cases takes with
    | detach here =>
      exact ⟨_, _, step_of_takes (.detach (caller.place?_plain.trans here)), .nil⟩
  | replaceSink sink =>
    cases takes with
    | replaceSink here =>
      exact ⟨_, _, step_of_takes (.replaceSink (caller.place?_plain.trans here) sink), .nil⟩
  | _ => exact writing trivial trivial fun _ _ => rfl

private theorem inStep_start {sink : Sink} (accepts : sink.Accepts) (parameters : Parameters)
    (encoder : Encoder) : (start sink parameters encoder).InStep [] where
  accepts other held := by
    cases held
    exact accepts
  line := iff_of_true rfl (.inl rfl)

/-- Over sinks that accept every write, the document is at the start of a line exactly if nothing
was written to any of them or a newline last. So whatever is called next, a line is broken
automatically only where there is one. -/
theorem at_newline_follows_output {sink : Sink} (accepts : sink.Accepts) {parameters : Parameters}
    {encoder : Encoder} {calls : List Call} {answers : List (Except Error Unit)}
    (ran : (start sink parameters encoder).run calls = some (answers, caller))
    (others : ∀ call ∈ calls, call.Accepts) :
    (caller.document.format.atNewline = true ↔
      AtLineStart ((start sink parameters encoder).written calls)) ∧
    ∀ call heard next, caller.step call = some (heard, next) →
      ∃ told after, caller.plain.step call = some (told, after) ∧
        Gapped ((start sink parameters encoder).written calls)
          (caller.plain.wrote after call) (caller.wrote next call) := by
  have inStep := (inStep_start accepts parameters encoder).run ran others
  rw [List.nil_append] at inStep
  exact ⟨inStep.line, fun call heard next stepped => inStep.gapped (takes_of_step stepped)⟩

/-- A division with a paragraph, written to two sinks. A text between them is lost. -/
def dividedCalls : List Call :=
  [.start .div, .openBody, .detach, .write (.text "lost"), .replaceSink {}, .start .p,
    .finish (.text "a")]

/-- The end tag of the division gets a line of its own, since none has started there but one that
the paragraph started. -/
theorem lines_continue_in_second_sink : ∃ answers caller heard next told after,
    (start {} .pretty .markup).run dividedCalls = some (answers, caller) ∧
      (start {} .pretty .markup).written dividedCalls = utf8 "<div>\n\t<p>a</p>\n" ∧
      caller.document.format.atNewline = true ∧
      caller.step .endBody = some (heard, next) ∧ caller.wrote next .endBody = utf8 "</div>\n" ∧
      caller.plain.step .endBody = some (told, after) ∧
      caller.plain.wrote after .endBody = utf8 "</div>" ∧
      Gapped (utf8 "<div>\n\t<p>a</p>\n") (utf8 "</div>") (utf8 "</div>\n") := by
  have seen : ((start {} .pretty .markup).run dividedCalls).bind (fun result =>
        (result.2.step .endBody).bind fun later => (result.2.plain.step .endBody).map fun beside =>
          (result.2.wrote later.2 .endBody, result.2.plain.wrote beside.2 .endBody)) =
      some (utf8 "</div>\n", utf8 "</div>") := by
    rfl
  have written : (start {} .pretty .markup).written dividedCalls =
      utf8 "<div>\n\t<p>a</p>\n" := by
    rfl
  obtain ⟨⟨answers, caller⟩, ran, rest⟩ := Option.bind_eq_some_iff.mp seen
  obtain ⟨⟨heard, next⟩, stepped, rest⟩ := Option.bind_eq_some_iff.mp rest
  obtain ⟨⟨told, after⟩, plainly, same⟩ := Option.map_eq_some_iff.mp rest
  obtain ⟨wrote, plainWrote⟩ := Prod.mk.inj same
  have accepts := Sink.Unlimited.default.accepts
  obtain ⟨line, gapped⟩ := at_newline_follows_output accepts ran (by
    simp only [dividedCalls, List.forall_mem_cons, Call.Accepts, accepts]
    simp)
  obtain ⟨_, _, again, gapped⟩ := gapped .endBody heard next stepped
  cases again.symm.trans plainly
  rw [written] at line gapped
  rw [wrote, plainWrote] at gapped
  exact ⟨answers, caller, heard, next, told, after, ran, written, line.mpr (.inr rfl), stepped,
    wrote, plainly, plainWrote, gapped⟩

end Caller
end HtmlWriter
