/-
# Transcripts

What an assembly does to the file that its output is for: the bytes that it hands over, and
how it ends. Output goes through a buffer, so an assembly that fails has handed over whole
blocks of what it emitted, and the rest never leaves the buffer. If the file refuses the
bytes, the end that stands in the transcript is not reached.
-/

import HackAssembler.Bytes
import HackAssembler.Config
import HackAssembler.Failure
import HackAssembler.Listing
import HackAssembler.Session
import HackAssembler.Sink
import HackAssembler.Source

namespace HackAssembler

/-- What an assembly hands over, and how it ends then. -/
structure Transcript where
  handed : Bytes
  outcome : Except Failure Session

/-- The transcript of an assembly in a new session. -/
def Session.transcript (source : Source) (config : Config) : Transcript :=
  match assemble source {} false (new config) with
  | .ok sink session => ⟨sink.received.toList, .ok session⟩
  | .error failure session =>
    let emitted := outputOf session.listing.toList
    ⟨emitted.take (BlockWriter.due emitted.length), .error failure⟩

end HackAssembler
