import HtmlWriter.Proofs.Capacity
import HtmlWriter.Proofs.Programs

/-! The same program on a sink with little room and on one that accepts every write. Both go the
same way until the first sink is full; from then on it takes nothing, whatever the program does
about the failure, so it holds a prefix of what the other takes. -/

namespace HtmlWriter
open Script Writing
variable {α : Type} {origin other : Sink}

theorem Alongside.split {action : Writing α} {limited wide : Document}
    (along : Alongside origin other (action.run limited) (action.run wide)) :
    (action.verdict limited = action.verdict wide ∧
      Document.Twins origin other (finalState action limited) (finalState action wide)) ∨
    (∃ fault, action.verdict limited = .error (.sink fault)) ∧
      Document.Parted origin other (finalState action limited) (finalState action wide) := by
  rw [verdict, verdict, finalState, finalState]
  generalize action.run limited = short at along
  generalize action.run wide = long at along
  cases along with
  | ok twins => exact .inl ⟨rfl, twins⟩
  | error twins => exact .inl ⟨rfl, twins⟩
  | partedOk parted => exact .inr ⟨⟨_, rfl⟩, parted⟩
  | partedError parted => exact .inr ⟨⟨_, rfl⟩, parted⟩

/-- Which sink there is cannot be told from a description. -/
theorem Document.describe_of_present (document : Document) {first second : Sink}
    (present : document.sink = some first) :
    ({ document with sink := some second } : Document).describe = document.describe := by
  unfold describe
  rw [present]
  rfl

namespace Document.Twins
variable {limited wide short long : Document}

theorem gained (before : Twins origin other limited wide) (after : Twins origin other short long) :
    limited.gained short = wide.gained long := by
  obtain ⟨first, -, rfl, present⟩ := before
  obtain ⟨second, -, rfl, later⟩ := after
  simp only [Document.gained, bytes, contents, present, later, Option.map_some,
    Option.getD_some, Sink.contents_filled, List.length_append, List.drop_length_add_append]

theorem answer (twins : Twins origin other limited wide)
    (same : origin.contents = other.contents) (place : Place) (question : Inquiry) :
    question.answer place limited = question.answer place wide := by
  obtain ⟨taken, -, rfl, present⟩ := twins
  cases question with
  | sink =>
    simp only [Inquiry.answer, contents, present, Option.map_some, Sink.contents_filled, same]
  | place => rfl
  | document => exact congrArg Report.text (wide.describe_of_present present)

end Document.Twins

namespace Body

private theorem pieces_eq {limited wide : Document} (body : Body) (element : Nat)
    (same : body.close.verdict limited = body.close.verdict wide) :
    body.pieces element limited = body.pieces element wide := by
  rw [verdict, verdict] at same
  rw [pieces, pieces]
  cases short : body.close.run limited <;> cases long : body.close.run wide <;>
    rw [short, long] at same <;> first | rfl | cases same

private theorem abandon_verdict (body : Body) (document : Document) :
    body.abandon.verdict document = .ok () := by
  unfold abandon
  split <;> rfl

end Body

namespace Caller

/-- Callers whose documents are twins, and who hold the same. -/
structure Twins (origin other : Sink) (limited wide : Caller) : Prop where
  document : Document.Twins origin other limited.document wide.document
  handles : limited.handles = wide.handles
  pieces : limited.pieces = wide.pieces

/-- A body is dropped that has not ended, so that nobody hears of errors. -/
def DropsOpen (caller : Caller) (call : Call) : Prop :=
  call = .drop ∧ ∃ element body outer, caller.handles = .body element body :: outer ∧
    body.isEnded = false

/-- The same call of twin callers leaves them twins, or it parts them. Then it fails, unless it
cannot. -/
inductive Steps (origin other : Sink) (caller : Caller) (call : Call) :
    Except Error Unit × Caller → Except Error Unit × Caller → Prop
  | alike {heard : Except Error Unit} {next after : Caller} (twins : Twins origin other next after) :
      Steps origin other caller call (heard, next) (heard, after)
  | parted {heard told : Except Error Unit} {next after : Caller}
      (parted : Document.Parted origin other next.document after.document)
      (noticed : (∃ fault, heard = .error (.sink fault)) ∨ caller.DropsOpen call) :
      Steps origin other caller call (heard, next) (told, after)

variable {limited wide next short full : Caller} {call : Call} {heard : Except Error Unit}

theorem Twins.becomes (twins : Twins origin other limited wide) {document after : Document}
    (both : Document.Twins origin other document after) (handles : List Handle)
    {added more : List Piece} (same : added = more) :
    Twins origin other (limited.becomes document handles added)
      (wide.becomes after handles more) where
  document := both
  handles := rfl
  pieces := by rw [Caller.becomes, Caller.becomes, twins.pieces, same]

namespace Twins

theorem place? (twins : Twins origin other limited wide) : wide.place? = limited.place? := by
  rw [Caller.place?, Caller.place?, twins.handles]

theorem written (twins : Twins origin other limited wide) (accepts : other.Accepts)
    {action : Writing Unit} (streams : Streams action) (handles : List Handle)
    {added more : List Piece}
    (same : action.verdict limited.document = action.verdict wide.document →
      Document.Twins origin other (finalState action limited.document)
        (finalState action wide.document) → added = more)
    (call : Call) :
    Steps origin other limited call
      (action.verdict limited.document,
        limited.becomes (finalState action limited.document) handles added)
      (action.verdict wide.document,
        wide.becomes (finalState action wide.document) handles more) := by
  obtain ⟨agree, both⟩ | ⟨fails, parted⟩ := (streams.alongside accepts twins.document).split
  · rw [agree]
    exact .alike (twins.becomes both handles (same agree both))
  · exact .parted parted (.inl fails)

private theorem pieces_eq (twins : Twins origin other limited wide) (start : StartTag)
    (element : Nat)
    (ending : Ending) {heard told : Except Error Unit} (same : heard = told) :
    start.pieces element limited.document heard ending =
      start.pieces element wide.document told ending := by
  obtain ⟨taken, -, changed, -⟩ := twins.document
  rw [changed, same]
  cases ending with
  | textOption content => cases content <;> rfl
  | _ => rfl

end Twins

theorem Twins.step (twins : Twins origin other limited wide) (accepts : other.Accepts)
    (leaves : call.LeavesSink) (takes : limited.Takes call heard next) :
    ∃ told after, wide.Takes call told after ∧
      Steps origin other limited call (heard, next) (told, after) := by
  have along {α : Type} {action : Writing α} (streams : Streams action) :=
    streams.alongside accepts twins.document
  have held {handles : List Handle} (front : limited.handles = handles) :
      wide.handles = handles := twins.handles.symm.trans front
  have here' {place : Place} (here : limited.place? = some place) :
      wide.place? = some place := twins.place?.trans here
  cases takes with
  | @write place call here single =>
    refine ⟨_, _, .write (here' here) single, ?_⟩
    rw [twins.handles]
    refine twins.written accepts (call.perform_streams place) _ (fun _ both => ?_) _
    rw [twins.document.gained both]
  | adjust here change =>
    refine ⟨_, _, .adjust (here' here) change, ?_⟩
    rw [twins.handles]
    exact twins.written accepts change.perform_streams _ (fun _ _ => rfl) _
  | detach here | replaceSink here => exact leaves.elim
  | top here =>
    refine ⟨_, _, .top (here' here), ?_⟩
    rw [twins.handles]
    exact .alike (twins.becomes twins.document _ rfl)
  | finish front ending =>
    refine ⟨_, _, .finish (held front) ending, ?_⟩
    exact twins.written accepts (ending.finish_streams _) _
      (fun same _ => twins.pieces_eq _ _ ending same) _
  | @started place tag start document here ran =>
    have both := along (place.element_streams tag)
    rw [ran] at both
    generalize seen : (place.element tag).run wide.document = result at both
    cases both with
    | ok both =>
      refine ⟨_, _, .started (here' here) seen, ?_⟩
      rw [twins.handles, twins.pieces]
      exact .alike (twins.becomes both _ rfl)
  | @refused place tag error document here ran =>
    have both := along (place.element_streams tag)
    rw [ran] at both
    generalize seen : (place.element tag).run wide.document = result at both
    cases both with
    | error both =>
      refine ⟨_, _, .refused (here' here) seen, ?_⟩
      rw [twins.handles]
      exact .alike (twins.becomes both _ rfl)
    | partedOk parted =>
      exact ⟨_, _, .started (here' here) seen, .parted parted (.inl ⟨_, rfl⟩)⟩
    | partedError parted =>
      exact ⟨_, _, .refused (here' here) seen, .parted parted (.inl ⟨_, rfl⟩)⟩
  | @added element start next outer requested document front ran =>
    have both := along (start.add_streams requested)
    rw [ran] at both
    generalize seen : (start.add requested).run wide.document = result at both
    cases both with
    | ok both =>
      refine ⟨_, _, .added (held front) seen, ?_⟩
      rw [twins.document.gained both]
      exact .alike (twins.becomes both _ rfl)
  | @rejected element start outer requested error document front ran =>
    have both := along (start.add_streams requested)
    rw [ran] at both
    generalize seen : (start.add requested).run wide.document = result at both
    cases both with
    | error both =>
      refine ⟨_, _, .rejected (held front) seen, ?_⟩
      rw [twins.document.gained both]
      exact .alike (twins.becomes both _ rfl)
    | partedOk parted =>
      exact ⟨_, _, .added (held front) seen, .parted parted (.inl ⟨_, rfl⟩)⟩
    | partedError parted =>
      exact ⟨_, _, .rejected (held front) seen, .parted parted (.inl ⟨_, rfl⟩)⟩
  | @opened element start outer body document front ran =>
    have both := along start.openBody_streams
    rw [ran] at both
    generalize seen : start.openBody.run wide.document = result at both
    cases both with
    | ok both => exact ⟨_, _, .opened (held front) seen, .alike (twins.becomes both _ rfl)⟩
  | @unopened element start outer error document front ran =>
    have both := along start.openBody_streams
    rw [ran] at both
    generalize seen : start.openBody.run wide.document = result at both
    cases both with
    | error both => exact ⟨_, _, .unopened (held front) seen, .alike (twins.becomes both _ rfl)⟩
    | partedOk parted =>
      exact ⟨_, _, .opened (held front) seen, .parted parted (.inl ⟨_, rfl⟩)⟩
    | partedError parted =>
      exact ⟨_, _, .unopened (held front) seen, .parted parted (.inl ⟨_, rfl⟩)⟩
  | @endBody element body outer front =>
    refine ⟨_, _, .endBody (held front), ?_⟩
    exact twins.written accepts body.close_streams _ (fun same _ => body.pieces_eq element same) _
  | @dropBody element body outer front =>
    refine ⟨_, _, .dropBody (held front), ?_⟩
    obtain ⟨agree, both⟩ | ⟨⟨fault, fails⟩, parted⟩ := (along body.close_streams).split
    · exact .alike (twins.becomes both _ (body.pieces_eq element agree))
    · -- Of this failure nobody hears, but only a body that is still open has one.
      refine .parted parted (.inr ⟨rfl, element, body, outer, front, ?_⟩)
      cases ended : body.around with
      | some around => rw [Body.isEnded, ended]; rfl
      | none =>
        rw [Body.close_ended ended] at fails
        cases fails
  | dropTop front =>
    exact ⟨_, _, .dropTop (held front), .alike (twins.becomes twins.document _ rfl)⟩
  | giveUp front =>
    exact ⟨_, _, .giveUp (held front), .alike (twins.becomes twins.document _ rfl)⟩
  | @abandon element body outer front =>
    refine ⟨_, _, .abandon (held front), ?_⟩
    have nothing : ([] : List Piece) = [] := rfl
    have written := twins.written accepts body.abandon_streams outer (fun _ _ => nothing) .abandon
    rwa [body.abandon_verdict, body.abandon_verdict] at written

/-- Once they are parted, the first takes nothing more, and the second may. -/
private theorem follow_parted (accepts : other.Accepts)
    (parted : Document.Parted origin other limited.document wide.document)
    {first second : Program} (leaves : first.LeavesSink) (stays : second.LeavesSink)
    {history told : List Made} (followed : limited.follow first = some (history, short))
    (besides : wide.follow second = some (told, full)) :
    Document.Parted origin other short.document full.document := by
  obtain ⟨taken, more, missing, room, spent, here, there⟩ := parted
  have still := follow_keeps (fun caller => caller.document.sink = some (origin.filled taken))
    (fun holds leaves takes => by
      obtain ⟨_, _, streams, after⟩ := takes.streams leaves
      rw [after]
      exact streams.stays spent holds)
    leaves followed here
  obtain ⟨last, grown⟩ := follow_keeps (fun caller => ∃ last,
      caller.document.sink = some (other.filled (taken ++ more ++ last)))
    (fun ⟨last, holds⟩ leaves takes => by
      obtain ⟨_, _, streams, after⟩ := takes.streams leaves
      obtain ⟨next, grown⟩ := streams.grows accepts holds
      rw [after]
      exact ⟨last ++ next, by rw [grown, List.append_assoc (taken ++ more)]⟩)
    stays besides ⟨[], by rw [there, List.append_nil]⟩
  rw [List.append_assoc] at grown
  exact ⟨taken, more ++ last, List.append_ne_nil_of_left_ne_nil missing last, room, spent, still,
    grown⟩

/-- Twins that follow the same program stay twins, or are parted by a call that fails, or by a
body that is dropped. -/
theorem Twins.follow (twins : Twins origin other limited wide) (accepts : other.Accepts)
    (same : origin.contents = other.contents) {program : Program} (leaves : program.LeavesSink)
    {history told : List Made} (followed : limited.follow program = some (history, short))
    (besides : wide.follow program = some (told, full)) :
    Twins origin other short full ∨
      Document.Parted origin other short.document full.document ∧
        ((∃ made ∈ history, ∃ fault, made.heard = .error (.sink fault)) ∨
          ∃ made ∈ told, made.caller.DropsOpen made.call) := by
  induction program generalizing limited wide history told with
  | done =>
    cases followed
    cases besides
    exact .inl twins
  | make call rest ih =>
    obtain ⟨heard, next, later, stepped, continued, rfl⟩ := follow_make followed
    obtain ⟨answer, after, past, beside, wide, rfl⟩ := follow_make besides
    obtain ⟨_, _, takes, steps⟩ := twins.step accepts leaves.1 (takes_of_step stepped)
    cases (step_of_takes takes).symm.trans beside
    cases steps with
    | alike both =>
      refine (ih heard both (leaves.2 heard) continued wide).imp_right fun ⟨parted, told⟩ => ?_
      refine ⟨parted, told.imp ?_ ?_⟩
      · exact fun ⟨made, member, fails⟩ => ⟨made, .tail _ member, fails⟩
      · exact fun ⟨made, member, drops⟩ => ⟨made, .tail _ member, drops⟩
    | parted parted noticed =>
      -- From here on both may make different calls, since they may have heard different things.
      have last := follow_parted accepts parted (leaves.2 heard) (leaves.2 answer) continued wide
      refine .inr ⟨last, noticed.imp ?_ ?_⟩
      · exact fun fails => ⟨_, .head _, fails⟩
      · intro drops
        exact ⟨_, .head _, drops.1, by rw [← twins.handles]; exact drops.2⟩
  | ask question rest ih =>
    obtain ⟨place, here, continued⟩ := follow_ask followed
    obtain ⟨other, there, beside⟩ := follow_ask besides
    cases there.symm.trans (twins.place?.trans here)
    rw [← twins.document.answer same] at beside
    exact ih _ twins (leaves _) continued beside

private theorem start_twins (same : origin.contents = other.contents) (parameters : Parameters)
    (encoder : Encoder) :
    Twins origin other (start origin parameters encoder) (start other parameters encoder) where
  document := .start origin other parameters encoder
  handles := rfl
  pieces := by rw [start, start, same]

/-- Whatever a program does, a sink with room for so many bytes holds in the end the first so many
of what a sink holds that accepts everything. If that is more, then some call failed that was
heard, unless a body was dropped. A sink may take what it is offered in any parts, with the same
result. -/
theorem limited_sink_takes_prefix {limited wide : Sink} {capacity : Nat}
    (room : limited.room = some capacity) (moves : limited.chunk ≠ some 0)
    (accepts : wide.Accepts) (same : limited.contents = wide.contents)
    {parameters : Parameters} {encoder : Encoder} {program : Program}
    (leaves : program.LeavesSink) {history told : List Made}
    (followed : (start limited parameters encoder).follow program = some (history, short))
    (besides : (start wide parameters encoder).follow program = some (told, full)) :
    (∃ written, full.document.contents = some (wide.contents ++ written) ∧
      short.document.contents = some (wide.contents ++ written.take capacity) ∧
      (capacity < written.length → (∀ made ∈ told, ¬made.caller.DropsOpen made.call) →
        ∃ made ∈ history, ∃ fault, made.heard = .error (.sink fault))) ∧
    ∀ sink bytes last whole, Sink.TakesInParts sink bytes last whole →
      (sink.writeAll bytes).1 = last ∧ ((sink.writeAll bytes).2 = none ↔ whole = true) := by
  refine ⟨?_, fun _ _ _ _ parts => parts.writeAll_eq⟩
  have twins := start_twins same parameters encoder
  obtain last | ⟨⟨taken, more, -, fits, spent, here, there⟩, noticed⟩ :=
    twins.follow accepts same leaves followed besides
  · obtain ⟨taken, fits, here, there⟩ := last.document
    have fits := fits.le room
    refine ⟨taken, ?_, ?_, fun overflows => by omega⟩
    · rw [Document.contents, there, Option.map_some, Sink.contents_filled]
    · rw [Document.contents, here, Option.map_some, Sink.contents_filled, same,
        List.take_of_length_le fits]
  · -- The first sink stopped only where it was full.
    have filled : capacity = taken.length := by
      have fits := fits.le room
      have full : (limited.filled taken).room = some (capacity - taken.length) := by
        rw [Sink.filled, room]
        rfl
      rcases spent with spent | stuck
      · have left := Option.some.inj (full.symm.trans spent)
        omega
      · exact (moves stuck).elim
    refine ⟨taken ++ more, ?_, ?_, fun _ kept => ?_⟩
    · rw [Document.contents, there, Option.map_some, Sink.contents_filled]
    · rw [Document.contents, here, Option.map_some, Sink.contents_filled, same, filled,
        List.take_left]
    · refine noticed.resolve_right ?_
      rintro ⟨made, member, drops⟩
      exact kept made member drops

/-- A paragraph, and after it a mark for whether it was written. -/
def markedParagraph : Program :=
  .make (.start .p) fun _ => .make (.finish (.text "a")) fun heard =>
    .make (.write (.raw (if heard matches .ok () then "." else "!"))) fun _ => .done

/-- Of a paragraph and its mark five bytes are taken, two at a time. -/
theorem five_bytes_are_taken : ∃ history short told full,
    (start { room := some 5, chunk := some 2 } {} .markup).follow markedParagraph =
        some (history, short) ∧
      (start {} {} .markup).follow markedParagraph = some (told, full) ∧
      full.document.contents = some (utf8 "<p>a</p>.") ∧
      short.document.contents = some (utf8 "<p>a<") ∧
      ∃ made ∈ history, ∃ fault, made.heard = .error (.sink fault) := by
  have narrow : ((start { room := some 5, chunk := some 2 } {} .markup).follow
      markedParagraph).isSome := by rfl
  have seen : ((start {} {} .markup).follow markedParagraph).map (fun result =>
        (result.1.map Made.call, result.2.document.contents)) =
      some ([.start .p, .finish (.text "a"), .write (.raw ".")], some (utf8 "<p>a</p>.")) := by
    rfl
  obtain ⟨⟨history, short⟩, followed⟩ := Option.isSome_iff_exists.mp narrow
  obtain ⟨⟨told, full⟩, besides, same⟩ := Option.map_eq_some_iff.mp seen
  obtain ⟨calls, contents⟩ := Prod.mk.inj same
  have leaves : markedParagraph.LeavesSink :=
    ⟨trivial, fun _ => ⟨trivial, fun _ => ⟨trivial, fun _ => trivial⟩⟩⟩
  have room : ({ room := some 5, chunk := some 2 } : Sink).room = some 5 := rfl
  have empty : ({ room := some 5, chunk := some 2 } : Sink).contents = Sink.contents {} := rfl
  obtain ⟨⟨written, all, some, fails⟩, -⟩ := limited_sink_takes_prefix room (by decide)
    Sink.Unlimited.default.accepts empty leaves followed besides
  obtain rfl : utf8 "<p>a</p>." = written := Option.some.inj (contents.symm.trans all)
  refine ⟨history, short, told, full, followed, besides, contents, some, fails (by decide) ?_⟩
  intro made member drops
  have called : made.call ∈ told.map Made.call := List.mem_map_of_mem member
  rw [calls, drops.1] at called
  simp at called

end Caller
end HtmlWriter
