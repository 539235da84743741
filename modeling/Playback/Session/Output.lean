import Playback.Pcm.Conversion
import Playback.Timing.DriftCorrector

/-!
# Output of sound

The state of the audio device's side: the device's format, the conversion to it, the correction of
drift, and the block that is being played. `AudioOutput.clock` is the presentation time at the end
of the block that was taken from the ring last.
-/

namespace Playback

/-- The audio device's side of a session. -/
structure AudioOutput (S : Type) where
  spec : OutputSpec
  converter : Converter
  corrector : DriftCorrector S
  /-- The converted block that is being played. -/
  block : Bytes
  /-- Number of bytes of the block that were played. -/
  index : Nat
  clock : Option S
  /-- Epoch of the block taken last. -/
  clockSerial : Nat
  /-- A callback has failed, since 64 bits do not hold what it computed with. -/
  overflowed : Bool

namespace AudioOutput

variable {S : Type} [Scalar S]

/-- Bytes of one block of silence, before it is cut to whole frames. -/
def silenceBytes : Nat := 512

/-- How many seconds the device's own buffer lasts. -/
def deviceSeconds (spec : OutputSpec) : S :=
  Scalar.ofNat spec.deviceBuffer / Scalar.ofNat (max spec.bytesPerSecond 1)

/-- The output to a device, before anything was played. -/
def new (spec : OutputSpec) : AudioOutput S where
  spec := spec
  converter := Converter.new spec.toPcmFormat
  corrector := DriftCorrector.new (deviceSeconds spec)
  block := #[]
  index := 0
  clock := none
  clockSerial := 0
  overflowed := false

/-- Silence of about `length` bytes: whole frames, and at least one. -/
def silence (out : AudioOutput S) (length : Nat) : Bytes :=
  let frameSize := max out.spec.frameSize 1
  Array.replicate (max (length / frameSize) 1 * frameSize) 0

/-- Number of bytes of the block that are still to be played. -/
def unread (out : AudioOutput S) : Nat :=
  out.block.size - out.index

/-- Seconds of sound that the device has not played yet: what is left of the block, and twice the
device's own buffer. -/
def latency (out : AudioOutput S) : S :=
  Scalar.ofNat (2 * out.spec.deviceBuffer + out.unread) /
    Scalar.ofNat (max out.spec.bytesPerSecond 1)

/-- Whether 64 bits hold the number of bytes that the device has not played yet. -/
def LatencyComputes (out : AudioOutput S) : Prop :=
  2 * out.spec.deviceBuffer + out.unread ≤ nat64Max

instance (out : AudioOutput S) : Decidable out.LatencyComputes :=
  inferInstanceAs (Decidable (_ ≤ _))

/-- Starts to play a block. -/
def load (out : AudioOutput S) (block : Bytes) : AudioOutput S :=
  { out with block := block, index := 0 }

/-- Plays at most `count` bytes of the block. -/
def play (out : AudioOutput S) (count : Nat) : Bytes × AudioOutput S :=
  let count := min count out.unread
  (out.block.extract out.index (out.index + count), { out with index := out.index + count })

end AudioOutput

end Playback
