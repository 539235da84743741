import Playback.Media.Stream

/-!
# Decoded units and timed frames

A codec turns packets into `DecodedPicture`s and `DecodedAudio` blocks, timed in ticks. A decoder
stamps them with seconds and with the *epoch* (serial number) of the packet they came from; the
result is a frame, `VideoFrame` or `AudioFrame`, that waits in a ring until it is played. The
classes `CodecUnit` and `Timed` hold what is common to both kinds before and after.
-/

namespace Playback

/-- How the pixels of a picture are arranged. -/
inductive PixelFormat where
  | yuv420p
  | rgba
  deriving DecidableEq, Inhabited

/-- The arrangement's name. -/
def PixelFormat.name : PixelFormat → String
  | yuv420p => "yuv420p"
  | rgba => "rgba"

/-- One plane of a picture; a row takes `stride` bytes. -/
structure Plane where
  data : Bytes
  stride : Nat
  deriving DecidableEq, Inhabited

/-- A picture. -/
structure Picture where
  width : Nat
  height : Nat
  format : PixelFormat
  planes : List Plane
  deriving DecidableEq, Inhabited

/-- What a video codec returns. -/
structure DecodedPicture where
  picture : Picture
  pts : Option Int
  /-- Length in ticks, zero if unknown. -/
  duration : Int
  pos : Option Int
  sampleAspect : Ratio
  deriving DecidableEq, Inhabited

/-- What an audio codec returns. -/
structure DecodedAudio where
  samples : SampleBlock
  pts : Option Int
  pos : Option Int
  deriving DecidableEq, Inhabited

/-- What a decoder asks of the output of a codec. -/
class CodecUnit (F : Type) where
  /-- Timestamp in ticks. -/
  pts : F → Option Int
  /-- Byte position of the packet that the unit came from. -/
  pos : F → Option Int
  /-- Length in seconds, if the unit itself tells. -/
  duration : {S : Type} → [Scalar S] → F → Ratio → Option S

instance : CodecUnit DecodedPicture where
  pts := DecodedPicture.pts
  pos := DecodedPicture.pos
  duration f timeBase := if 0 < f.duration then some (timeBase.seconds f.duration) else none

instance : CodecUnit DecodedAudio where
  pts := DecodedAudio.pts
  pos := DecodedAudio.pos
  duration f _ :=
    if 0 < f.samples.rate then
      some (Scalar.ofNat f.samples.count / Scalar.ofNat f.samples.rate)
    else none

/-- When a frame is to be shown, and where it came from. -/
structure FrameTiming (S : Type) where
  /-- Time of presentation in seconds. -/
  pts : Option S
  /-- Nominal length in seconds. -/
  duration : S
  /-- Epoch of the packet that the frame was decoded from. -/
  serial : Nat
  /-- Byte position of that packet. -/
  pos : Option Int
  deriving Inhabited

/-- Frames that carry their timing. -/
class Timed (S : outParam Type) (α : Type) where
  timing : α → FrameTiming S

/-- A unit stamped by a decoder. -/
structure DecodedFrame (S F : Type) extends FrameTiming S where
  content : F

/-- A picture ready for display. -/
structure VideoFrame (S : Type) extends FrameTiming S where
  picture : Picture
  sampleAspect : Ratio
  /-- The presentation layer has taken the picture into a buffer of its own. -/
  allocated : Bool

/-- A block of sound ready for output. -/
structure AudioFrame (S : Type) extends FrameTiming S where
  samples : SampleBlock

namespace VideoFrame

variable {S : Type}

instance : Timed S (VideoFrame S) := ⟨VideoFrame.toFrameTiming⟩

/-- The frame of a decoded picture. -/
def ofDecoded (d : DecodedFrame S DecodedPicture) : VideoFrame S :=
  { toFrameTiming := d.toFrameTiming
    picture := d.content.picture
    sampleAspect := d.content.sampleAspect
    allocated := false }

/-- Width over height as displayed. -/
def displayAspect [Scalar S] (f : VideoFrame S) : S :=
  StreamParams.displayAspect f.sampleAspect f.picture.width f.picture.height

end VideoFrame

namespace AudioFrame

variable {S : Type}

instance : Timed S (AudioFrame S) := ⟨AudioFrame.toFrameTiming⟩

/-- The frame of a decoded block. -/
def ofDecoded (d : DecodedFrame S DecodedAudio) : AudioFrame S :=
  { toFrameTiming := d.toFrameTiming, samples := d.content.samples }

end AudioFrame

end Playback
