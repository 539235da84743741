import Playback.Source.Container
import Playback.Synthetic.Config

/-!
# Layout of a synthetic source

What follows from the configuration alone: the streams, the chapters and the number of packets of
each stream. Packet `n` of the video stream shows one picture from `n / fps` on, and packet `n` of
the audio stream starts at `n * samplesPerPacket / rate`; both streams end with the last packet
that starts before the end of the source.
-/

namespace Playback

namespace Synthetic

variable {S : Type} [Scalar S]

/-- A number of 32 bits read as one with sign. -/
def signed32 (n : Nat) : Int :=
  Int.bmod n 4294967296

/-- A number of 64 bits read as one with sign. -/
def signed64 (n : Nat) : Int :=
  Int.bmod n 18446744073709551616

/-- What follows from the configuration of a source. -/
structure Layout (S : Type) where
  streams : List StreamParams
  /-- Number of the video stream. -/
  videoIndex : Option Nat
  /-- Number of the audio stream. -/
  audioIndex : Option Nat
  /-- Number of the stream with the single picture. -/
  coverIndex : Option Nat
  chapters : List (Chapter S)
  /-- Number of video packets. -/
  videoPackets : Nat
  /-- Number of audio packets. -/
  audioPackets : Nat
  packetsPerSecond : S

namespace Video

/-- Parameters of the video stream. -/
def params (v : Video S) (index : Nat) : StreamParams :=
  let fps := signed32 (max v.fps 1)
  { StreamParams.video index ⟨1, fps⟩ v.width v.height ⟨fps, 1⟩ with codec := "synthetic-gray" }

/-- Number of pictures that start before `duration`. -/
def packets (v : Video S) (duration : S) : Nat :=
  Scalar.toNat64 (Scalar.ceil (duration * Scalar.ofNat v.fps))

/-- When packet `n` starts. -/
def time (v : Video S) (n : Nat) : S :=
  Scalar.ofNat n / Scalar.ofNat (max v.fps 1)

/-- The last packet that starts at or before `t`. -/
def packetAt (v : Video S) (t : S) : Nat :=
  Scalar.toNat64 (Scalar.floor (t * Scalar.ofNat v.fps))

end Video

namespace Audio

/-- Parameters of the audio stream. -/
def params (a : Audio S) (index : Nat) : StreamParams :=
  { StreamParams.audio index ⟨1, signed32 (max a.rate 1)⟩ a.rate a.channels with
    codec := "synthetic-tone" }

/-- Number of packets that start before `duration`. -/
def packets (a : Audio S) (duration : S) : Nat :=
  Scalar.toNat64 (Scalar.ceil
    (duration * Scalar.ofNat a.rate / Scalar.ofNat (max a.samplesPerPacket 1)))

/-- When packet `n` starts. -/
def time (a : Audio S) (n : Nat) : S :=
  Scalar.ofNat n * Scalar.ofNat a.samplesPerPacket / Scalar.ofNat (max a.rate 1)

/-- The last packet that starts at or before `t`. -/
def packetAt (a : Audio S) (t : S) : Nat :=
  Scalar.toNat64 (Scalar.floor
    (t * Scalar.ofNat a.rate / Scalar.ofNat (max a.samplesPerPacket 1)))

/-- The shift of the timestamps in ticks. -/
def offset (a : Audio S) : Int :=
  Scalar.toInt64 (Scalar.round (a.ptsOffset * Scalar.ofNat a.rate))

end Audio

/-- Parameters of the stream with the single picture. -/
def coverParams (index : Nat) : StreamParams :=
  { StreamParams.video index ⟨1, 90000⟩ 32 32 ⟨0, 1⟩ with
    frameRate := none
    attachedPicture := true
    codec := "synthetic-cover" }

/-- Chapters of equal length up to the end of the source. -/
def chaptersOf (duration : S) (length : Option S) : List (Chapter S) :=
  match length with
  | none => []
  | some length =>
    if (0.0 : S) < length then
      (List.range (Scalar.toNat64 (Scalar.ceil (duration / length)))).map fun i =>
        { start := Scalar.ofNat i * length
          stop := Scalar.min (Scalar.ofNat (i + 1) * length) duration
          title := "Chapter " ++ toString (i + 1) }
    else []

namespace Config

/-- Packets of both streams in a second. -/
def packetsPerSecond (c : Config S) : S :=
  let video : S := match c.video with
    | some v => Scalar.ofNat (max v.fps 1)
    | none => 0.0
  match c.audio with
  | some a => video + Scalar.ofNat a.rate / Scalar.ofNat (max a.samplesPerPacket 1)
  | none => video

/-- Payload bytes of both streams in a second. -/
def bytesPerSecond (c : Config S) : S :=
  c.packetsPerSecond * Scalar.ofNat c.packetSize

/-- The layout of a source. The streams are numbered in the order video, audio, cover. -/
def layout (c : Config S) : Layout S :=
  let video := c.video.toList.map fun v => v.params 0
  let audioIndex := video.length
  let audio := c.audio.toList.map fun a => a.params audioIndex
  let coverIndex := audioIndex + audio.length
  let cover := if c.coverArt then [coverParams coverIndex] else []
  let bitRate := Scalar.toNat64 (c.bytesPerSecond * 8.0)
  { streams := (video ++ audio ++ cover).map fun p => { p with bitRate := bitRate }
    videoIndex := c.video.map fun _ => 0
    audioIndex := c.audio.map fun _ => audioIndex
    coverIndex := if c.coverArt then some coverIndex else none
    chapters := chaptersOf c.duration c.chapterLength
    videoPackets := (c.video.map fun v => v.packets c.duration).getD 0
    audioPackets := (c.audio.map fun a => a.packets c.duration).getD 0
    packetsPerSecond := c.packetsPerSecond }

/-- What the container of a source tells. -/
def info (c : Config S) : SourceInfo S :=
  let layout := c.layout
  let bits := layout.packetsPerSecond * Scalar.ofNat c.packetSize * 8.0
  { streams := layout.streams
    chapters := layout.chapters
    bitRate := if (0.0 : S) < bits then some (Scalar.toNat64 bits) else none
    startTime := some 0.0
    duration := some c.duration
    realtime := c.realtime
    jumping := c.jumping }

end Config

end Synthetic

end Playback
