import HtmlWriter.Proofs.Checks

/-! Writing to sinks that take everything. What is written there is a text at the end of the
text before, so each writing function is known by the text it adds. -/

namespace HtmlWriter

def utf8 (text : String) : List UInt8 := text.toUTF8.data.toList

@[simp] theorem utf8_empty : utf8 "" = [] := rfl

theorem utf8_append (first second : String) :
    utf8 (first ++ second) = utf8 first ++ utf8 second := by
  simp [utf8]

theorem utf8_injective {first second : String} (same : utf8 first = utf8 second) :
    first = second := by
  rw [← String.toByteArray_inj]
  exact ByteArray.ext (Array.toList_inj.mp same)

namespace Sink

/-- A sink that takes any number of bytes, some in every write, and passes them on. -/
structure Unlimited (sink : Sink) : Prop where
  room : sink.room = none
  chunk : sink.chunk ≠ some 0
  flushes : sink.flushFails = false

theorem Unlimited.default : Sink.Unlimited {} := ⟨rfl, Option.some_ne_none 0 ∘ Eq.symm, rfl⟩

def took (sink : Sink) (bytes : List UInt8) : Sink :=
  { sink with held := sink.held ++ bytes.toArray }

theorem contents_took (sink : Sink) (bytes : List UInt8) :
    (sink.took bytes).contents = sink.contents ++ bytes := by
  simp [contents, took]

theorem took_took (sink : Sink) (first second : List UInt8) :
    (sink.took first).took second = sink.took (first ++ second) := by
  simp [took]

theorem took_nil (sink : Sink) : sink.took [] = sink := by
  simp [took]

theorem Unlimited.took {sink : Sink} (unlimited : sink.Unlimited) (bytes : List UInt8) :
    (sink.took bytes).Unlimited :=
  ⟨unlimited.room, unlimited.chunk, unlimited.flushes⟩

theorem Unlimited.accept_eq {sink : Sink} (unlimited : sink.Unlimited) (byte : UInt8) :
    sink.accept byte = sink.took [byte] := by
  simp [accept, Sink.took, unlimited.room]

/-- Of the bytes that it is offered it takes at least one. -/
theorem Unlimited.portion_eq {sink : Sink} (unlimited : sink.Unlimited) (count : Nat) :
    ∃ share, sink.portion (count + 1) = .ok (share + 1) := by
  have takes := unlimited.chunk
  simp only [portion, unlimited.room, Except.ok.injEq]
  cases chunk : sink.chunk with
  | none => exact ⟨count, by simp⟩
  | some size =>
    rw [chunk] at takes
    have some : size ≠ 0 := fun none => takes (none ▸ rfl)
    exact ⟨min count (size - 1), by simp only [Option.getD_none, Option.getD_some]; omega⟩

theorem Unlimited.writeSharing_eq {sink : Sink} (unlimited : sink.Unlimited) (share : Nat)
    (bytes : List UInt8) : sink.writeSharing share bytes = (sink.took bytes, none) := by
  induction bytes generalizing sink share with
  | nil => rw [writeSharing, took_nil]
  | cons byte rest ih =>
    have next (share : Nat) : (sink.accept byte).writeSharing share rest =
        (sink.took (byte :: rest), none) := by
      rw [unlimited.accept_eq, ih (unlimited.took _), took_took]
      rfl
    cases share with
    | succ share => rw [writeSharing, next]
    | zero =>
      obtain ⟨share, offered⟩ := unlimited.portion_eq rest.length
      rw [writeSharing, offered]
      exact next share

theorem Unlimited.writeAll_eq {sink : Sink} (unlimited : sink.Unlimited) (bytes : List UInt8) :
    sink.writeAll bytes = (sink.took bytes, none) :=
  unlimited.writeSharing_eq 0 bytes

end Sink

theorem Format.after_empty (format : Format) : format.after "" = format := rfl

theorem Format.after_after (format : Format) (first second : String) :
    (format.after first).after second = format.after (first ++ second) := by
  unfold Format.after
  rw [String.toList_append, List.getLast?_append]
  cases second.toList.getLast? with
  | some last =>
    cases first.toList.getLast? <;> rfl
  | none => rfl

namespace Document

def Unlimited (document : Document) : Prop :=
  ∃ sink, document.sink = some sink ∧ sink.Unlimited

def wrote (document : Document) (text : String) : Document :=
  { document with
    sink := document.sink.map (·.took (utf8 text))
    format := document.format.after text }

variable (document : Document) (text : String)

@[simp] theorem exclusions_wrote : (document.wrote text).exclusions = document.exclusions := rfl

@[simp] theorem serialization_wrote :
    (document.wrote text).serialization = document.serialization := rfl

@[simp] theorem doctype_wrote : (document.wrote text).doctype = document.doctype := rfl

@[simp] theorem encoder_wrote : (document.wrote text).encoder = document.encoder := rfl

@[simp] theorem format_wrote : (document.wrote text).format = document.format.after text := rfl

@[simp] theorem standing_wrote : (document.wrote text).standing = document.standing := by
  simp [standing, rules]

theorem wrote_wrote (first second : String) :
    (document.wrote first).wrote second = document.wrote (first ++ second) := by
  simp only [wrote, Format.after_after, Option.map_map, utf8_append]
  congr 2
  funext sink
  exact sink.took_took _ _

theorem wrote_empty : document.wrote "" = document := by
  obtain ⟨sink, _⟩ := document
  cases sink <;> simp [wrote, Format.after_empty, Sink.took_nil]

variable {document}

theorem Unlimited.wrote (unlimited : document.Unlimited) (text : String) :
    (document.wrote text).Unlimited := by
  obtain ⟨sink, present, takes⟩ := unlimited
  exact ⟨sink.took (utf8 text), by rw [Document.wrote, present]; rfl, takes.took _⟩

theorem Unlimited.of_sink {other : Document} (unlimited : document.Unlimited)
    (same : other.sink = document.sink) : other.Unlimited := by
  obtain ⟨sink, present, takes⟩ := unlimited
  exact ⟨sink, same.trans present, takes⟩

theorem contents_wrote {bytes : List UInt8} (held : document.contents = some bytes)
    (text : String) : (document.wrote text).contents = some (bytes ++ utf8 text) := by
  cases present : document.sink with
  | none => simp [contents, present] at held
  | some sink =>
    have same : sink.contents = bytes := by simpa [contents, present] using held
    simp [contents, Document.wrote, present, Sink.contents_took, same]

end Document

namespace Writing
variable {α β : Type} {document middle : Document}

theorem run_bind_ok {first : Writing α} {value : α} (ran : first.run document = .ok value middle)
    (next : α → Writing β) : (first >>= next).run document = (next value).run middle := by
  simp only [Action.run_bind, ran]

theorem ok_of_bind {first : Writing α} {next : α → Writing β} {value : β} {final : Document}
    (ran : (first >>= next).run document = .ok value final) : ∃ got middle,
      first.run document = .ok got middle ∧ (next got).run middle = .ok value final := by
  rw [Action.run_bind] at ran
  cases started : first.run document with
  | ok got middle =>
    rw [started] at ran
    exact ⟨got, middle, rfl, ran⟩
  | error error middle =>
    rw [started] at ran
    cases ran

theorem run_write (unlimited : document.Unlimited) (text : String) :
    (write text).run document = .ok () (document.wrote text) := by
  obtain ⟨sink, present, takes⟩ := unlimited
  simp only [write, Action.always, present, takes.writeAll_eq]
  simp only [Document.wrote, present, utf8, Option.map_some]

theorem run_write_bind (unlimited : document.Unlimited) (text : String) (next : Unit → Writing β) :
    (write text >>= next).run document = (next ()).run (document.wrote text) :=
  run_bind_ok (run_write unlimited text) next

theorem run_write_write (unlimited : document.Unlimited) (first second : String)
    (next : Unit → Writing β) :
    (do write first; write second >>= next).run document =
      (write (first ++ second) >>= next).run document := by
  rw [run_write_bind unlimited, run_write_bind (unlimited.wrote _), run_write_bind unlimited,
    Document.wrote_wrote]

theorem run_refuseInTag_bind (idle : document.unfinished = none) (attempt : Attempt)
    (next : Unit → Writing β) :
    (refuseInTag attempt >>= next).run document = (next ()).run document :=
  run_bind_ok (run_refuseInTag_idle idle attempt) next

theorem run_finish (unlimited : document.Unlimited) (idle : document.unfinished = none) :
    ∃ sink final, finish.run document = .ok sink final ∧ document.contents = some sink.contents := by
  obtain ⟨sink, present, takes⟩ := unlimited
  refine ⟨sink, { document with sink := none }, ?_, ?_⟩
  · have flushed : sink.flush = .ok () := by
      rw [Sink.flush, takes.flushes, if_neg Bool.false_ne_true]
    rw [finish, run_refuseInTag_bind idle]
    simp only [detach, Action.run_bind, Action.run_modifyGet, present, flushed]
    rfl
  · rw [Document.contents, present, Option.map_some]

end Writing
end HtmlWriter
