import HtmlWriter.Proofs.Capacity
import HtmlWriter.Proofs.Programs

/-! Where lines start. The formatting state follows what was written: it is at the start of a line
as long as nothing was written, or if the last byte was a newline. That holds after every call,
also where a call failed, and goes on from one sink to the next. -/

namespace HtmlWriter
open Script Writing
variable {α : Type}

/-- Nothing was written, or a newline last. -/
def AtLineStart (bytes : List UInt8) : Prop := bytes = [] ∨ bytes.getLast? = some 10

private theorem utf8_eq_flatMap (text : String) :
    utf8 text = text.toList.flatMap String.utf8EncodeChar := by
  have encoded (chars : List Char) :
      chars.utf8Encode.data.toList = chars.flatMap String.utf8EncodeChar := by
    induction chars with
    | nil => rfl
    | cons c rest ih =>
      rw [List.utf8Encode_cons, List.utf8Encode_singleton, ByteArray.data_append,
        Array.toList_append, ih, List.flatMap_cons, List.data_toByteArray]
  rw [← encoded, ← String.toByteArray_ofList, String.ofList_toList]
  rfl

/-- In no other character's encoding the last byte is that of a newline. -/
private theorem last_encoded (c : Char) :
    ∃ last, (String.utf8EncodeChar c).getLast? = some last ∧ (last = 10 ↔ c = '\n') := by
  -- A longer encoding ends with a byte that continues a character.
  have trailing (value : Nat) : UInt8.ofNat (value % 64 + 128) ≠ 10 := by
    intro same
    have value := congrArg UInt8.toNat same
    simp at value
    omega
  have other (wide : 127 < c.val.toNat) : c ≠ '\n' := by
    rintro rfl
    exact absurd wide (by decide)
  unfold String.utf8EncodeChar
  dsimp only
  split
  · refine ⟨_, rfl, ?_, ?_⟩
    · intro same
      have value : (UInt8.ofNat c.val.toNat).toNat = 10 := congrArg UInt8.toNat same
      rw [UInt8.toNat_ofNat', Nat.mod_eq_of_lt (by omega)] at value
      exact Char.ext (UInt32.toNat_inj.mp value)
    · rintro rfl
      rfl
  · have wide : c ≠ '\n' := other (by omega)
    split
    · exact ⟨_, rfl, iff_of_false (trailing _) wide⟩
    · split
      · exact ⟨_, rfl, iff_of_false (trailing _) wide⟩
      · exact ⟨_, rfl, iff_of_false (trailing _) wide⟩

theorem Format.atNewline_after {format : Format} {before : List UInt8}
    (follows : format.atNewline = true ↔ AtLineStart before) (text : String) :
    (format.after text).atNewline = true ↔ AtLineStart (before ++ utf8 text) := by
  rw [utf8_eq_flatMap, after]
  cases ends : text.toList.getLast? with
  | none =>
    rw [List.getLast?_eq_none_iff] at ends
    rw [ends, List.flatMap_nil, List.append_nil]
    exact follows
  | some last =>
    obtain ⟨init, split⟩ := List.getLast?_eq_some_iff.mp ends
    obtain ⟨byte, encoded, newline⟩ := last_encoded last
    have written : (before ++ text.toList.flatMap String.utf8EncodeChar).getLast? = some byte := by
      rw [split, List.flatMap_append, List.flatMap_singleton, ← List.append_assoc,
        List.getLast?_append, encoded]
      rfl
    rw [AtLineStart, written, Option.some.injEq, newline, beq_iff_eq]
    refine ⟨.inr, fun start => start.resolve_left fun nothing => ?_⟩
    rw [nothing] at written
    cases written

/-- Only whether a line has started before matters to whether one has after a text. -/
theorem Format.atNewline_after_congr {first second : Format}
    (same : first.atNewline = second.atNewline) (text : String) :
    (first.after text).atNewline = (second.after text).atNewline := by
  unfold after
  cases text.toList.getLast? with
  | none => exact same
  | some last => rfl

namespace Streams
variable {action : Writing α} {document : Document}

/-- What is written is a text that the formatting state follows. -/
theorem continues (streams : Streams action) {sink : Sink} (accepts : sink.Accepts)
    (present : document.sink = some sink) :
    ∃ text, (finalState action document).sink = some (sink.filled (utf8 text)) ∧
      (finalState action document).format.atNewline = (document.format.after text).atNewline := by
  refine streams.keeps (fun before after => ∀ sink : Sink, sink.Accepts →
      before.sink = some sink → ∃ text, after.sink = some (sink.filled (utf8 text)) ∧
        after.format.atNewline = (before.format.after text).atNewline)
    ?_ ?_ ?_ ?_ document sink accepts present
  · intro document sink accepts present
    exact ⟨"", by rw [present, utf8_empty, Sink.filled_nil], by rw [Format.after_empty]⟩
  · intro before middle after first rest sink accepts present
    obtain ⟨text, taken, line⟩ := first sink accepts present
    obtain ⟨more, last, ends⟩ := rest _ (accepts.filled _) taken
    refine ⟨text ++ more, by rw [last, Sink.filled_filled, utf8_append], ?_⟩
    rw [ends, Format.atNewline_after_congr line, Format.after_after]
  · intro text document sink accepts present
    refine ⟨text, ?_, ?_⟩
    all_goals rw [finalState, run_write_of_sink present, accepts.writeAll_eq]
  · intro _ change apart document sink accepts present
    refine ⟨"", ?_, ?_⟩
    · rw [apart.sink_same, present, utf8_empty, Sink.filled_nil]
    · rw [apart.line, Format.after_empty]

theorem detached (streams : Streams action) (gone : document.sink = none) :
    (finalState action document).sink = none ∧
      (finalState action document).format.atNewline = document.format.atNewline := by
  refine streams.keeps (fun before after => before.sink = none →
      after.sink = none ∧ after.format.atNewline = before.format.atNewline)
    (fun _ gone => ⟨gone, rfl⟩) ?_ ?_ ?_ document gone
  · intro before middle after first rest gone
    obtain ⟨still, line⟩ := first gone
    exact ⟨(rest still).1, (rest still).2.trans line⟩
  · intro text document gone
    rw [finalState, run_write_detached gone]
    exact ⟨gone, rfl⟩
  · intro _ change apart document gone
    exact ⟨(apart.sink_same document).trans gone, apart.line document⟩

end Streams

def Call.Accepts : Call → Prop
  | .replaceSink sink => sink.Accepts
  | _ => True

theorem Document.gained_filled {before after : Document} {sink : Sink} {bytes : List UInt8}
    (present : before.sink = some sink) (taken : after.sink = some (sink.filled bytes)) :
    before.gained after = bytes := by
  rw [gained, Document.bytes, Document.bytes, contents, contents, present, taken, Option.map_some,
    Option.map_some, Option.getD_some, Option.getD_some, Sink.contents_filled, List.drop_left]

theorem Document.gained_detached {before after : Document} (gone : after.sink = none) :
    before.gained after = [] := by
  have nothing : after.bytes = [] := by
    rw [Document.bytes, contents, gone]
    rfl
  rw [gained, nothing, List.drop_nil]

namespace Caller
variable {caller next : Caller} {call : Call} {heard : Except Error Unit}

def wrote (caller next : Caller) : Call → List UInt8
  | .detach | .replaceSink _ => []
  | _ => caller.document.gained next.document

def written (caller : Caller) : List Call → List UInt8
  | [] => []
  | call :: rest =>
      match caller.step call with
      | some (_, next) => caller.wrote next call ++ next.written rest
      | none => []

/-- Writes are accepted, and the formatting state follows what was written. -/
structure InStep (caller : Caller) (written : List UInt8) : Prop where
  accepts : ∀ sink, caller.document.sink = some sink → sink.Accepts
  line : caller.document.format.atNewline = true ↔ AtLineStart written

theorem InStep.takes {written : List UInt8} (inStep : caller.InStep written)
    (accepts : call.Accepts) (takes : caller.Takes call heard next) :
    next.InStep (written ++ caller.wrote next call) := by
  have writes (leaves : call.LeavesSink)
      (same : caller.wrote next call = caller.document.gained next.document) :
      next.InStep (written ++ caller.wrote next call) := by
    obtain ⟨_, action, streams, after⟩ := takes.streams leaves
    rw [same]
    cases present : caller.document.sink with
    | none =>
      obtain ⟨gone, line⟩ := streams.detached present
      rw [← after] at gone line
      rw [Document.gained_detached gone, List.append_nil]
      refine ⟨fun sink held => ?_, by rw [line]; exact inStep.line⟩
      rw [gone] at held
      cases held
    | some sink =>
      have accepts := inStep.accepts sink present
      obtain ⟨text, taken, line⟩ := streams.continues accepts present
      rw [← after] at taken line
      rw [Document.gained_filled present taken]
      refine ⟨fun other held => ?_, by rw [line]; exact Format.atNewline_after inStep.line text⟩
      cases taken.symm.trans held
      exact accepts.filled _
  -- A sink that comes or goes may hold anything, but nothing is written by that.
  cases call with
  | detach =>
    cases takes with
    | detach here =>
      rw [wrote, List.append_nil]
      exact ⟨nofun, inStep.line⟩
  | replaceSink sink =>
    cases takes with
    | replaceSink here =>
      rw [wrote, List.append_nil]
      refine ⟨fun other held => ?_, inStep.line⟩
      cases held
      exact accepts
  | _ => exact writes trivial rfl

theorem InStep.run {before : List UInt8} (inStep : caller.InStep before) {calls : List Call}
    {answers : List (Except Error Unit)} {final : Caller}
    (ran : caller.run calls = some (answers, final)) (accepts : ∀ call ∈ calls, call.Accepts) :
    final.InStep (before ++ caller.written calls) := by
  induction calls generalizing caller before answers with
  | nil =>
    cases ran
    rw [written, List.append_nil]
    exact inStep
  | cons call rest ih =>
    obtain ⟨heard, next, later, stepped, continued, -⟩ := run_cons ran
    have moved := inStep.takes (accepts call (.head _)) (takes_of_step stepped)
    have last := ih moved continued fun call member => accepts call (.tail _ member)
    rw [written, stepped, ← List.append_assoc]
    exact last

end Caller
end HtmlWriter
