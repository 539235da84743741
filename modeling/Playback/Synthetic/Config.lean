import Playback.Scalar
import Playback.Settings.Value

/-!
# Configuration of a synthetic source

A synthetic source is generated from a few numbers: its length, the shape of a video and an audio
stream, and a period in which decoding stalls. `Synthetic.Config.read` reads them from a
configuration; every field has a default.
-/

namespace Playback

namespace Synthetic

/-- The video stream of a synthetic source. -/
structure Video (S : Type) [Scalar S] where
  width : Nat := 64
  height : Nat := 36
  /-- Pictures per second. -/
  fps : Nat := 25
  /-- When decoding stalls, in seconds on the session's time. -/
  stallStart : Option S := none
  /-- How long decoding stalls. -/
  stallLength : S := 0.0
  /-- How long the container keeps video back after the codec has released what it held. -/
  stallRecovery : S := 0.0
  /-- Every so many packets, one has no timestamp. -/
  missingPtsEvery : Option Nat := none

/-- The default frequency of the tone: concert pitch. -/
def concertPitch : Float := 440.0

/-- The audio stream of a synthetic source. -/
structure Audio (S : Type) [Scalar S] where
  rate : Nat := 48000
  channels : Nat := 2
  samplesPerPacket : Nat := 1024
  /-- Shift of the timestamps in seconds. -/
  ptsOffset : S := 0.0
  /-- Frequency of the tone; it reaches only the samples, which are computed in `Float`. -/
  toneHz : Float := concertPitch

/-- A synthetic source. -/
structure Config (S : Type) [Scalar S] where
  /-- Length in seconds. -/
  duration : S := 10.0
  video : Option (Video S) := some {}
  audio : Option (Audio S) := some {}
  /-- Length of a chapter in seconds. -/
  chapterLength : Option S := none
  /-- Adds a stream with a single picture. -/
  coverArt : Bool := false
  realtime : Bool := false
  jumping : Bool := false
  /-- Payload bytes of a packet. -/
  packetSize : Nat := 256

/-- The frequency of the tone that the audio codec makes. -/
def Config.toneHz {S : Type} [Scalar S] (c : Config S) : Float :=
  (c.audio.map (·.toneHz)).getD concertPitch

/-! ### Reading -/

/-- Largest number of 32 bits. -/
def nat32Max : Nat := 4294967295

/-- Largest number of 16 bits. -/
def nat16Max : Nat := 65535

namespace Video

/-- Names of the settings of a video stream, in order. -/
def fields : List String :=
  ["width", "height", "fps", "stall_start", "stall_length", "stall_recovery", "missing_pts_every"]

/-- Reads a video stream from a configuration. -/
def read (s : Setting) : Option (Video Float) := do
  let d : Video Float := {}
  let entries ← s.record fields
  return {
    width := ← Setting.field entries "width" d.width (Setting.readNatural nat32Max)
    height := ← Setting.field entries "height" d.height (Setting.readNatural nat32Max)
    fps := ← Setting.field entries "fps" d.fps (Setting.readNatural nat32Max)
    stallStart := ← Setting.field entries "stall_start" d.stallStart
      (Setting.readOptional Setting.readFloat)
    stallLength := ← Setting.field entries "stall_length" d.stallLength Setting.readFloat
    stallRecovery := ← Setting.field entries "stall_recovery" d.stallRecovery Setting.readFloat
    missingPtsEvery := ← Setting.field entries "missing_pts_every" d.missingPtsEvery
      (Setting.readOptional (Setting.readNatural nat64Max)) }

/-- Holds of streams with the same settings. -/
def same (a b : Video Float) : Bool :=
  a.width == b.width && a.height == b.height && a.fps == b.fps && a.stallStart == b.stallStart &&
    a.stallLength == b.stallLength && a.stallRecovery == b.stallRecovery &&
    a.missingPtsEvery == b.missingPtsEvery

end Video

namespace Audio

/-- Names of the settings of an audio stream, in order. -/
def fields : List String :=
  ["sample_rate", "channels", "samples_per_packet", "pts_offset", "tone_hz"]

/-- Reads an audio stream from a configuration. -/
def read (s : Setting) : Option (Audio Float) := do
  let d : Audio Float := {}
  let entries ← s.record fields
  return {
    rate := ← Setting.field entries "sample_rate" d.rate (Setting.readNatural nat32Max)
    channels := ← Setting.field entries "channels" d.channels (Setting.readNatural nat16Max)
    samplesPerPacket := ← Setting.field entries "samples_per_packet" d.samplesPerPacket
      (Setting.readNatural nat32Max)
    ptsOffset := ← Setting.field entries "pts_offset" d.ptsOffset Setting.readFloat
    toneHz := ← Setting.field entries "tone_hz" d.toneHz Setting.readFloat }

/-- Holds of streams with the same settings. -/
def same (a b : Audio Float) : Bool :=
  a.rate == b.rate && a.channels == b.channels && a.samplesPerPacket == b.samplesPerPacket &&
    a.ptsOffset == b.ptsOffset && a.toneHz == b.toneHz

end Audio

namespace Config

/-- Names of the settings of a source, in order. -/
def fields : List String :=
  ["duration", "video", "audio", "chapter_length", "cover_art", "realtime",
    "discontinuous_timestamps", "packet_size"]

/-- Reads a source from a configuration. -/
def read (s : Setting) : Option (Config Float) := do
  let d : Config Float := {}
  let entries ← s.record fields
  return {
    duration := ← Setting.field entries "duration" d.duration Setting.readFloat
    video := ← Setting.field entries "video" d.video (Setting.readOptional Video.read)
    audio := ← Setting.field entries "audio" d.audio (Setting.readOptional Audio.read)
    chapterLength := ← Setting.field entries "chapter_length" d.chapterLength
      (Setting.readOptional Setting.readFloat)
    coverArt := ← Setting.field entries "cover_art" d.coverArt Setting.readBool
    realtime := ← Setting.field entries "realtime" d.realtime Setting.readBool
    jumping := ← Setting.field entries "discontinuous_timestamps" d.jumping Setting.readBool
    packetSize := ← Setting.field entries "packet_size" d.packetSize
      (Setting.readNatural nat64Max) }

/-- Holds of two streams that are both absent or have the same settings. -/
def sameOption {α : Type} (same : α → α → Bool) : Option α → Option α → Bool
  | none, none => true
  | some a, some b => same a b
  | _, _ => false

/-- Holds of sources that are as they are by default. -/
def isDefault (c : Config Float) : Bool :=
  let d : Config Float := {}
  c.duration == d.duration && sameOption Video.same c.video d.video &&
    sameOption Audio.same c.audio d.audio && c.chapterLength == d.chapterLength &&
    c.coverArt == d.coverArt && c.realtime == d.realtime && c.jumping == d.jumping &&
    c.packetSize == d.packetSize

end Config

end Synthetic

end Playback
