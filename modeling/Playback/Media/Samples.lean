import Playback.Media.Ratio

/-!
# Interleaved samples

Sound is a sequence of *frames*, one sample per channel, written one after another. `PcmFormat`
says how the samples are encoded, `SampleBlock` adds the samples themselves, and `OutputSpec` is
the format that an audio device asks for.
-/

namespace Playback

/-- Raw data: packet payloads, picture planes and samples. -/
abbrev Bytes := Array UInt8

/-- The most bytes that a buffer can have. -/
def bufferMax : Nat := 9223372036854775807

/-- Encoding of one sample. -/
inductive SampleFormat where
  /-- Integers of 16 bits with sign, low byte first. -/
  | s16
  /-- Floating point numbers of 32 bits, low byte first. -/
  | f32
  deriving DecidableEq, Inhabited

namespace SampleFormat

/-- Bytes of one sample. -/
def width : SampleFormat → Nat
  | s16 => 2
  | f32 => 4

/-- The format's name in messages. -/
def name : SampleFormat → String
  | s16 => "s16"
  | f32 => "f32"

end SampleFormat

/-- The positions of `channels` loudspeakers, as a set of bits: mono is the centre alone, stereo
the two front sides, and more channels the first so many positions. -/
def defaultLayout (channels : Nat) : Nat :=
  match channels with
  | 0 => 0
  | 1 => 4
  | 2 => 3
  | n => if 64 ≤ n then nat64Max else 1 <<< n - 1

/-- How samples are laid out and encoded. -/
structure PcmFormat where
  /-- Frames per second. -/
  rate : Nat
  channels : Nat
  /-- Loudspeaker positions, one bit each. -/
  layout : Nat
  format : SampleFormat
  deriving DecidableEq, Inhabited

namespace PcmFormat

/-- Bytes of one frame: one sample of each channel. -/
def frameSize (f : PcmFormat) : Nat :=
  f.channels * f.format.width

/-- Bytes of one second. -/
def bytesPerSecond (f : PcmFormat) : Nat :=
  f.rate * f.frameSize

/-- The format in messages: rate, channels and encoding. -/
def describe (f : PcmFormat) : String :=
  toString f.rate ++ "Hz/" ++ toString f.channels ++ "ch/" ++ f.format.name

end PcmFormat

/-- A block of decoded sound. -/
structure SampleBlock extends PcmFormat where
  /-- Number of frames that `data` is said to hold. -/
  count : Nat
  data : Bytes
  deriving DecidableEq, Inhabited

/-- The format that an audio device takes. -/
structure OutputSpec extends PcmFormat where
  /-- Size in bytes of the device's own buffer. -/
  deviceBuffer : Nat
  deriving DecidableEq, Inhabited

end Playback
