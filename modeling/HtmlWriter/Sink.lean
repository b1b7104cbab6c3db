import HtmlWriter.Error

/-! Sinks take the bytes of a document. A sink may have room for only so many bytes, may
take only so many in one write, and may fail when it is flushed; what it has taken it
keeps. -/

namespace HtmlWriter

/-- A sink and what it holds. -/
structure Sink where
  held : Array UInt8 := #[]
  /-- How many more bytes it takes in all, unless it takes any number. -/
  room : Option Nat := none
  /-- How many bytes it takes in one write, unless it takes any number. -/
  chunk : Option Nat := none
  /-- Whether a write to the full sink takes nothing, where otherwise it fails. -/
  stalls : Bool := false
  flushFails : Bool := false
deriving DecidableEq, Repr, Inhabited

namespace Sink

/-- The bytes a sink holds, in the order they were written. -/
def contents (sink : Sink) : List UInt8 := sink.held.toList

/-- The sink after it has taken one byte more. -/
def accept (sink : Sink) (byte : UInt8) : Sink :=
  { sink with held := sink.held.push byte, room := sink.room.map (· - 1) }

/-- What a sink takes is added at the end. -/
@[simp] theorem contents_accept (sink : Sink) (byte : UInt8) :
    (sink.accept byte).contents = sink.contents ++ [byte] := by
  simp [contents, accept]

/-- How many bytes one write takes of a number that is offered. -/
def portion (sink : Sink) (offered : Nat) : Except SinkFault Nat :=
  match sink.room with
  | some 0 => if sink.stalls then .ok 0 else .error .full
  | room => .ok (min (min offered (room.getD offered)) (sink.chunk.getD offered))

/-- Write bytes while the write in progress takes `share` more of them. When it has
taken its share, the next write is offered all that is left. -/
def writeSharing (sink : Sink) (share : Nat) : List UInt8 → Sink × Option SinkFault
  | [] => (sink, none)
  | byte :: rest =>
      match share with
      | share + 1 => (sink.accept byte).writeSharing share rest
      | 0 =>
          match sink.portion (rest.length + 1) with
          | .error fault => (sink, some fault)
          | .ok 0 => (sink, some .wroteNothing)
          | .ok (share + 1) => (sink.accept byte).writeSharing share rest

/-- Write until all bytes are taken, or a write fails or takes nothing. An empty text
never reaches the sink. -/
def writeAll (sink : Sink) (bytes : List UInt8) : Sink × Option SinkFault :=
  sink.writeSharing 0 bytes

def flush (sink : Sink) : Except SinkFault Unit :=
  if sink.flushFails then .error .flushFailed else .ok ()

end Sink
end HtmlWriter
