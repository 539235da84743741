import Playback.Failure
import Playback.Media.Stream

/-!
# Containers

A container is what a source looks like to playback: it tells its streams, and it can be read
packet by packet, moved, and told to pause. Its state is a medium `M`, which the codecs of the
same source may share.
-/

namespace Playback

/-- What a container tells about its source. -/
structure SourceInfo (S : Type) where
  streams : List StreamParams
  /-- Chapters in the order of their starts. -/
  chapters : List (Chapter S)
  /-- Bits per second of the whole source. -/
  bitRate : Option Nat
  /-- Start of the source in seconds. -/
  startTime : Option S
  /-- Length of the source in seconds. -/
  duration : Option S
  /-- The source is live. -/
  realtime : Bool
  /-- Timestamps may jump. -/
  jumping : Bool

/-- What a read comes to. -/
inductive ReadOutcome where
  | packet (p : Packet)
  | endOfFile
  deriving DecidableEq

/-- The operations of a container over the medium `M`, at times `S`. -/
structure Container (S M : Type) where
  /-- The picture of a stream that consists of a single picture. -/
  attachedPicture : Nat → M → Option Packet
  /-- Reads the next packet. -/
  read : S → M → Except SourceFailure ReadOutcome × M
  /-- Moves to another position. -/
  seek : SeekRange → M → Except SourceFailure Unit × M
  /-- Stops or resumes the transfer of a source that is not local. -/
  setPaused : Bool → M → M

end Playback
