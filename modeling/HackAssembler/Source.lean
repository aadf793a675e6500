/-
# Sources

A source as a run meets it: the bytes it delivers, a fault that may end them, and a
fault that may prevent reading it a second time. Each pass reads a source from its start
and gets the same bytes. How far a reader has come is not kept, so there is no source that
was partly read before a run, and none that delivers other bytes the second time. Lines
that a read fault cuts short are never processed.
-/

import HackAssembler.Bytes
import HackAssembler.Line

namespace HackAssembler

/-- What a run reads. -/
structure Source where
  /-- The bytes that are delivered. -/
  content : Bytes
  /-- The fault that stands in place of the end of the source. -/
  readFault : Option Bytes := none
  /-- The fault that prevents a rewind. -/
  rewindFault : Option Bytes := none
  deriving Repr, DecidableEq

namespace Source

/-- A source that fails with `fault` once `limit` bytes are delivered. A shorter source
ends before that. -/
def failingAfter (source : Source) (limit : Nat) (fault : Bytes) : Source :=
  if limit ≤ source.content.length then
    { source with content := source.content.take limit, readFault := some fault }
  else source

/-- The lines that are processed: all of them, or before a fault the complete ones. -/
def lines (source : Source) : List Bytes :=
  match source.readFault with
  | none => Line.split source.content
  | some _ => (Line.split source.content).filter Line.isComplete

end Source

end HackAssembler
