/-
# Sinks

Where a run writes to. A sink takes bytes up to a limit and refuses a write that would
go over it. Output is collected in a buffer and handed on in whole blocks, so a refusal
shows only when a block is full or at the end.
-/

import HackAssembler.Bytes

namespace HackAssembler

/-- A receiver of bytes. -/
structure Sink where
  /-- The most bytes that are accepted in all. -/
  limit : Option Nat := none
  /-- What a refused write reports. -/
  fault : Bytes := []
  /-- What was accepted so far. -/
  received : Array UInt8 := #[]

namespace Sink

/-- Whether a sink accepts a total of this many bytes. -/
def admits (sink : Sink) (total : Nat) : Bool :=
  match sink.limit with
  | none => true
  | some limit => total ≤ limit

/-- Hand over a chunk, all of it or nothing. -/
def accept (sink : Sink) (chunk : Array UInt8) : Except Bytes Sink :=
  if sink.admits (sink.received.size + chunk.size) then
    .ok { sink with received := sink.received ++ chunk }
  else .error sink.fault

end Sink

/-- A sink with the bytes that are still to be handed over to it. -/
structure BlockWriter where
  sink : Sink
  pending : Array UInt8 := #[]

namespace BlockWriter

/-- The number of bytes in a block. -/
def blockSize : Nat := 4096

/-- How many of `total` bytes are due: whole blocks, except that the last byte always
waits, so that a block which is just full is not due yet. -/
def due (total : Nat) : Nat := (total - 1) / blockSize * blockSize

/-- Take in more bytes and hand over what is due. -/
def write (writer : BlockWriter) (text : Bytes) : Except Bytes BlockWriter :=
  match writer with
  | ⟨sink, pending⟩ =>
    let all := pending ++ text
    let full := due all.size
    if full = 0 then .ok ⟨sink, all⟩
    else (sink.accept (all.extract 0 full)).map fun sink => ⟨sink, all.extract full all.size⟩

/-- Hand over the rest, if there is any. -/
def finish (writer : BlockWriter) : Except Bytes Sink :=
  if writer.pending.isEmpty then .ok writer.sink else writer.sink.accept writer.pending

end BlockWriter

end HackAssembler
