import HtmlWriter.Proofs.Newlines
import HtmlWriter.Proofs.Rejections

/-! Writes that are cut off. A sink takes one text after the other whole, until it has no room for
the rest of one. What it took of that one stays in the output, but the formatting state goes on as
if the text had not been written: it tells where the texts that were taken whole have ended. -/

namespace HtmlWriter
open Script Writing
variable {α β : Type} {document middle final : Document}

/-- What an action writes: the texts that are taken whole, in order, and the part that is taken of
the text that fails, if one does. -/
inductive Writes : {α : Type} → Writing α → Document → List String → List UInt8 → Prop
  | whole {document final : Document} {text : String}
      (ran : (write text).run document = .ok () final) : Writes (write text) document [text] []
  | cut {document final : Document} {text : String} {error : Error} {part rest : List UInt8}
      (ran : (write text).run document = .error error final) (split : utf8 text = part ++ rest)
      (taken : final.bytes = document.bytes ++ part) : Writes (write text) document [] part
  | throw {α : Type} {document : Document} (error : Error) :
      Writes (throw error : Writing α) document [] []
  | demand {document : Document} (fits : Bool) : Writes (Action.demand fits) document [] []
  | update {α : Type} {document : Document} {change : Document → α × Document}
      (apart : Apart change) : Writes (modifyGet change : Writing α) document [] []
  | read {α : Type} {document : Document} {next : Document → Writing α} {texts : List String}
      {part : List UInt8} (later : Writes (next document) document texts part) :
      Writes ((get : Writing Document) >>= next) document texts part
  | ended {α β : Type} {document final : Document} {first : Writing α} {next : α → Writing β}
      {error : Error} {texts : List String} {part : List UInt8}
      (ran : first.run document = .error error final)
      (started : Writes first document texts part) : Writes (first >>= next) document texts part
  | continued {α β : Type} {document middle : Document} {first : Writing α} {next : α → Writing β}
      {value : α} {texts more : List String} {part : List UInt8}
      (ran : first.run document = .ok value middle) (started : Writes first document texts [])
      (later : Writes (next value) middle more part) :
      Writes (first >>= next) document (texts ++ more) part
  | tidied {α : Type} {document : Document} {action : Writing α} {tidy : Document → Unit × Document}
      {texts : List String} {part : List UInt8} (apart : Apart tidy)
      (tried : Writes action document texts part) :
      Writes (tryCatch action fun error => do modifyGet tidy; MonadExcept.throw error)
        document texts part

private theorem Apart.bytes_same {change : Document → α × Document} (apart : Apart change)
    (document : Document) : (change document).2.bytes = document.bytes := by
  rw [Document.bytes, Document.bytes, Document.contents, Document.contents, apart.sink_same]

theorem Writing.write_error {text : String} {error : Error}
    (ran : (write text).run document = .error error final) :
    final.format = document.format ∧
      ∃ part rest, utf8 text = part ++ rest ∧ final.bytes = document.bytes ++ part ∧
        (part ≠ [] → ∃ fault, error = .sink fault) ∧ (utf8 text ≠ [] → rest ≠ []) := by
  cases present : document.sink with
  | none =>
    simp only [write, Action.always, present] at ran
    cases ran
    exact ⟨rfl, [], utf8 text, rfl, (List.append_nil _).symm, fun some => (some rfl).elim, id⟩
  | some sink =>
    have offered := sink.writeAll_offered (utf8 text)
    rw [run_write_of_sink present] at ran
    generalize sink.writeAll (utf8 text) = result at offered ran
    cases offered with
    | all room => cases ran
    | part fault split more room spent =>
      cases ran
      refine ⟨rfl, _, _, split, ?_, fun _ => ⟨fault, rfl⟩, fun _ => more⟩
      simp [Document.bytes, Document.contents, present]

namespace Writes
variable {action : Writing α} {texts : List String} {part : List UInt8}

theorem pure (value : α) (document : Document) :
    Writes (pure value : Writing α) document [] [] := by
  have same : Apart fun document => (value, document) := ⟨fun _ _ => rfl, fun _ => rfl⟩
  exact .update same

private theorem after_refusal (writes : Writes action document texts part)
    (idle : document.unfinished = none) (attempt : Attempt) :
    Writes (refuseInTag attempt >>= fun _ => action) document texts part := by
  have passes : Writes (refuseInTag attempt) document [] [] := by
    refine .read ?_
    rw [idle]
    exact .pure () document
  exact .continued (run_refuseInTag_idle idle attempt) passes writes

/-- Only where the sink fails a text is cut off. -/
theorem failed (writes : Writes action document texts part) (cut : part ≠ []) :
    ∃ fault final, action.run document = .error (.sink fault) final := by
  induction writes with
  | whole ran | throw error | demand fits | update apart => exact absurd rfl cut
  | @cut document final text error part rest ran split taken =>
    obtain ⟨-, other, _, -, also, fails, -⟩ := write_error ran
    obtain rfl : part = other := List.append_cancel_left (taken.symm.trans also)
    obtain ⟨fault, rfl⟩ := fails cut
    exact ⟨fault, final, ran⟩
  | read later ih => exact ih cut
  | ended ran started ih =>
    obtain ⟨fault, final, fails⟩ := ih cut
    exact ⟨fault, final, by rw [Action.run_bind, fails]⟩
  | continued ran started later ihStarted ihLater =>
    obtain ⟨fault, final, fails⟩ := ihLater cut
    exact ⟨fault, final, by rw [run_bind_ok ran, fails]⟩
  | @tidied α document action tidy texts part apart tried ih =>
    obtain ⟨fault, final, fails⟩ := ih cut
    exact ⟨fault, (tidy final).2, by rw [Action.run_tryCatch, fails]; rfl⟩

theorem follows (writes : Writes action document texts part) :
    (finalState action document).bytes = document.bytes ++ utf8 (String.join texts) ++ part ∧
      (finalState action document).format.atNewline =
        (document.format.after (String.join texts)).atNewline := by
  induction writes with
  | @whole document final text ran =>
    rw [finalState, ran, String.join_cons, String.join_nil, String.append_empty, List.append_nil]
    refine ⟨write_ok ran, ?_⟩
    simp only [write, Action.always] at ran
    split at ran
    · cases ran
    · split at ran
      all_goals cases ran
      rfl
  | @cut document final text error part rest ran split taken =>
    rw [finalState, ran, String.join_nil, utf8_empty, List.append_nil, Format.after_empty]
    exact ⟨taken, congrArg Format.atNewline (write_error ran).1⟩
  | throw error | demand fits =>
    rw [String.join_nil, utf8_empty, List.append_nil, List.append_nil]
    exact ⟨rfl, rfl⟩
  | @update α document change apart =>
    rw [String.join_nil, utf8_empty, List.append_nil, List.append_nil]
    exact ⟨apart.bytes_same document, apart.line document⟩
  | read later ih => exact ih
  | @ended α β document final first next error texts part ran started ih =>
    rw [finalState_bind_error ran]
    rwa [finalState, ran] at ih
  | @continued α β document middle first next value texts more part ran started later ihFirst ihLater =>
    rw [finalState_bind_ok ran]
    rw [finalState, ran, List.append_nil] at ihFirst
    obtain ⟨bytes, line⟩ := ihLater
    rw [String.join_append, utf8_append, ← List.append_assoc, ← ihFirst.1, bytes]
    refine ⟨rfl, ?_⟩
    rw [line, Format.atNewline_after_congr ihFirst.2, Format.after_after]
  | @tidied α document action tidy texts part apart tried ih =>
    rw [finalState_tryCatch]
    rw [finalState] at ih
    cases ran : action.run document with
    | ok value final => rwa [ran] at ih
    | error error final =>
      rw [ran] at ih
      exact ⟨(apart.bytes_same final).trans ih.1, (apart.line final).trans ih.2⟩

end Writes

theorem Streams.writes {action : Writing α} (streams : Streams action) (document : Document) :
    ∃ texts part, Writes action document texts part := by
  induction streams generalizing document with
  | write text =>
    cases ran : (Writing.write text).run document with
    | ok value final => exact ⟨_, _, .whole ran⟩
    | error error final =>
      obtain ⟨-, part, rest, split, taken, -⟩ := write_error ran
      exact ⟨_, _, .cut ran split taken⟩
  | throw error => exact ⟨_, _, .throw error⟩
  | demand fits => exact ⟨_, _, .demand fits⟩
  | update apart => exact ⟨_, _, .update apart⟩
  | read blind rest ih =>
    obtain ⟨texts, part, later⟩ := ih document document
    exact ⟨texts, part, .read later⟩
  | @bind α β first next started rest ihStarted ihRest =>
    obtain ⟨texts, part, begun⟩ := ihStarted document
    cases ran : first.run document with
    | error error final => exact ⟨texts, part, .ended ran begun⟩
    | ok value middle =>
      by_cases whole : part = []
      · subst whole
        obtain ⟨more, part, later⟩ := ihRest value middle
        exact ⟨texts ++ more, part, .continued ran begun later⟩
      · obtain ⟨fault, final, fails⟩ := begun.failed whole
        cases ran.symm.trans fails
  | tidied tried apart ih =>
    obtain ⟨texts, part, written⟩ := ih document
    exact ⟨texts, part, .tidied apart written⟩

namespace Caller
variable {caller next : Caller} {call : Call} {heard : Except Error Unit}

/-- The sink has taken what is written, up to where it is cut off. The formatting state is at the
start of a line exactly where the texts that were taken whole have left one. -/
theorem Takes.writes (takes : caller.Takes call heard next) {before : List UInt8}
    (truthful : caller.document.format.atNewline = true ↔ AtLineStart before) {texts : List String}
    {part : List UInt8} (writes : Writes (caller.writing call) caller.document texts part) :
    caller.wrote next call = utf8 (String.join texts) ++ part ∧
      (next.document.format.atNewline = true ↔ AtLineStart (before ++ utf8 (String.join texts))) := by
  obtain ⟨bytes, line⟩ := writes.follows
  have follows := Format.atNewline_after truthful (String.join texts)
  by_cases leaves : call.LeavesSink
  · have same := takes.writing.2 leaves
    rw [← same] at bytes line
    constructor
    · have gained : caller.document.gained next.document = utf8 (String.join texts) ++ part := by
        rw [Document.gained, bytes, List.append_assoc, List.drop_left]
      cases call with
      | detach | replaceSink sink => exact leaves.elim
      | _ => exact gained
    · rw [line]
      exact follows
  · -- Nothing is written where a sink is given or taken, so there is no text.
    have still : caller.writing call = pure () ∧ caller.wrote next call = [] ∧
        next.document.format = caller.document.format := by
      cases takes with
      | detach here | replaceSink here => exact ⟨rfl, rfl, rfl⟩
      | _ => exact (leaves trivial).elim
    obtain ⟨nothing, none, format⟩ := still
    rw [nothing] at bytes
    have empty : utf8 (String.join texts) ++ part = [] := by
      rw [List.append_assoc] at bytes
      exact (List.append_cancel_left ((List.append_nil _).trans bytes)).symm
    refine ⟨none.trans empty.symm, ?_⟩
    rw [format, (List.append_eq_nil_iff.mp empty).1, List.append_nil]
    exact truthful

private theorem atLineStart_of_part {before part : List UInt8} (cut : part ≠ []) :
    AtLineStart (before ++ part) ↔ part.getLast? = some 10 := by
  have last : (before ++ part).getLast? = part.getLast? := by
    rw [List.getLast?_append]
    cases ends : part.getLast? with
    | none => exact (cut (List.getLast?_eq_none_iff.mp ends)).elim
    | some last => rfl
  rw [AtLineStart, last]
  simp [cut]

/-- As long as the formatting state tells whether what was written before ended a line, each call
writes texts whole, one after the other, up to one that may be cut off, and only where the sink
fails. The formatting state then tells whether the last of the texts that were taken whole has
ended a line. That is still true of all that was taken if nothing was taken of the text that was
cut off. Otherwise it is true if the part that was taken of it ends a line exactly where the texts
before it have ended one. -/
theorem newline_state_follows_whole_texts {before : List UInt8}
    (truthful : caller.document.format.atNewline = true ↔ AtLineStart before)
    (stepped : caller.step call = some (heard, next)) :
    (∃ texts part, Writes (caller.writing call) caller.document texts part) ∧
      ∀ texts part, Writes (caller.writing call) caller.document texts part →
        caller.wrote next call = utf8 (String.join texts) ++ part ∧
          (part ≠ [] → ∃ fault, (caller.writing call).verdict caller.document =
            .error (.sink fault)) ∧
          (next.document.format.atNewline = true ↔
            AtLineStart (before ++ utf8 (String.join texts))) ∧
          ((next.document.format.atNewline = true ↔
              AtLineStart (before ++ caller.wrote next call)) ↔
            part = [] ∨
              (part.getLast? = some 10 ↔ AtLineStart (before ++ utf8 (String.join texts)))) := by
  have takes := takes_of_step stepped
  refine ⟨takes.writing.1.writes caller.document, fun texts part writes => ?_⟩
  obtain ⟨wrote, line⟩ := takes.writes truthful writes
  refine ⟨wrote, ?_, line, ?_⟩
  · intro cut
    obtain ⟨fault, final, failed⟩ := writes.failed cut
    refine ⟨fault, ?_⟩
    rw [verdict, failed]
  · rw [line, wrote, ← List.append_assoc]
    by_cases cut : part = []
    · rw [cut, List.append_nil]
      exact iff_of_true Iff.rfl (.inl rfl)
    · rw [atLineStart_of_part cut, or_iff_right cut]
      exact iff_comm

/-- A write of two bytes is cut off after the first, a newline. So the output is at the start of a
line again, as the formatting state has been all the time. -/
theorem cut_behind_newline_keeps_line_start :
    ((start { room := some 1 } {} .markup).document.format.atNewline = true ↔ AtLineStart []) ∧
    ∃ next, (start { room := some 1 } {} .markup).step (.write (.raw "\nb")) =
        some (.error (.sink .full), next) ∧
      (start { room := some 1 } {} .markup).wrote next (.write (.raw "\nb")) = utf8 "\n" ∧
      (next.document.format.atNewline = true ↔ AtLineStart (utf8 "\n")) := by
  have atStart : (start { room := some 1 } {} .markup).document.format.atNewline = true ↔
      AtLineStart [] := iff_of_true rfl (.inl rfl)
  have cut : Writes (write "\nb") (start { room := some 1 } {} .markup).document [] (utf8 "\n") :=
    .cut rfl (rfl : _ = utf8 "\n" ++ utf8 "b") rfl
  have stepped := step_of_takes (.write rfl rfl :
    (start { room := some 1 } {} .markup).Takes (.write (.raw "\nb")) _ _)
  have writes := cut.after_refusal rfl .rawMarkup
  obtain ⟨-, tells⟩ := newline_state_follows_whole_texts atStart stepped
  obtain ⟨wrote, -, -, still⟩ := tells _ _ writes
  refine ⟨atStart, _, stepped, wrote, ?_⟩
  have same := still.mpr (.inr (iff_of_true rfl (.inl rfl)))
  rw [wrote] at same
  exact same

/-- At the start of the output, a write of two bytes is cut off after the first. The formatting
state is still at the start of a line, but the output is not. -/
theorem cut_write_leaves_line_start :
    (start { room := some 1 } {} .markup).document.format.atNewline = true ∧
    ∃ next, (start { room := some 1 } {} .markup).step (.write (.raw "ab")) =
        some (.error (.sink .full), next) ∧
      (start { room := some 1 } {} .markup).wrote next (.write (.raw "ab")) = utf8 "a" ∧
      next.document.format.atNewline = true ∧ ¬ AtLineStart (utf8 "a") := by
  have seen : ((start { room := some 1 } {} .markup).step (.write (.raw "ab"))).map (fun stepped =>
      (stepped.1, (start { room := some 1 } {} .markup).wrote stepped.2 (.write (.raw "ab")),
        stepped.2.document.format.atNewline)) =
      some (.error (.sink .full), utf8 "a", true) := rfl
  obtain ⟨⟨heard, next⟩, stepped, same⟩ := Option.map_eq_some_iff.mp seen
  simp only [Prod.mk.injEq] at same
  obtain ⟨rfl, wrote, line⟩ := same
  exact ⟨rfl, next, stepped, wrote, line, by rw [AtLineStart]; decide⟩

end Caller
end HtmlWriter
