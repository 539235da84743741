import Playback.Media.Samples
import Playback.Synthetic.Layout

/-!
# Container of a synthetic source

The packets of both streams come in the order of their starts, video first at equal times. A
packet's payload repeats one byte, which tells its number.

A source can stall: inside a window of time the video codec holds back its pictures, and it
releases them with the first packet decoded after the window. From then on the container keeps
video packets back for the recovery time, except for one that wakes the codec, so that the
released pictures meet an empty packet queue.

Timestamps and byte positions are computed in 64 bits. A read that is to give out a packet for which
these are not enough fails (`Generator.read?`).
-/

namespace Playback

namespace Synthetic

variable {S : Type} [Scalar S]

/-- The window in which decoding stalls. -/
structure Stall (S : Type) where
  start : S
  stop : S
  /-- How long video is kept back after the release. -/
  recovery : S

namespace Stall

/-- The stall of a configuration. -/
def ofConfig (c : Config S) : Option (Stall S) :=
  c.video.bind fun v => v.stallStart.map fun start =>
    { start := start
      stop := start + Scalar.max v.stallLength 0.0
      recovery := Scalar.max v.stallRecovery 0.0 }

/-- Whether a moment is in the window. -/
def contains (w : Stall S) (now : S) : Bool :=
  w.start ≤ now && now < w.stop

end Stall

/-- Where the reading of a synthetic source is. -/
structure Progress (S : Type) where
  /-- Number of the next video packet. -/
  nextVideo : Nat
  /-- Number of the next audio packet. -/
  nextAudio : Nat
  /-- The packet that wakes the codec after a stall has gone out. -/
  wakeSent : Bool
  /-- When the codec released what it held during the stall. -/
  releasedAt : Option S

namespace Progress

/-- The beginning of a source. -/
def start : Progress S :=
  ⟨0, 0, false, none⟩

/-- Number of the next packet of a stream. -/
def next (p : Progress S) : MediaKind → Nat
  | .video => p.nextVideo
  | .audio => p.nextAudio

/-- Number of the next packet in the whole source. -/
def place (p : Progress S) : Nat :=
  p.nextVideo + p.nextAudio

end Progress

/-- A generated source with its layout and its stall. -/
structure Generator (S : Type) [Scalar S] where
  config : Config S
  layout : Layout S
  stall : Option (Stall S)

namespace Generator

/-- The generator of a configuration. -/
def new (c : Config S) (stall : Option (Stall S)) : Generator S :=
  ⟨c, c.layout, stall⟩

/-- Whether the next video packet is kept back at `now`. The first packet after the window that
asks while nothing is released yet goes out, and that is noted. -/
def heldBack (g : Generator S) (now : S) (p : Progress S) : Bool × Progress S :=
  match g.stall with
  | none => (false, p)
  | some w =>
    if now < w.stop then (false, p)
    else
      match p.releasedAt with
      | none =>
        if p.wakeSent then (now < w.stop + w.recovery, p)
        else (false, { p with wakeSent := true })
      | some released => (now < released + w.recovery, p)

/-- When video packet `n` starts, if there is one. -/
def videoTime (g : Generator S) (n : Nat) : Option S :=
  g.config.video.bind fun v => if n < g.layout.videoPackets then some (v.time n) else none

/-- When audio packet `n` starts, if there is one. -/
def audioTime (g : Generator S) (n : Nat) : Option S :=
  g.config.audio.bind fun a => if n < g.layout.audioPackets then some (a.time n) else none

/-- When packet `n` of a stream starts and the number of the stream, if there is such a packet. -/
def ready (g : Generator S) (n : Nat) : MediaKind → Option (S × Nat)
  | .video => (g.videoTime n).bind fun t => g.layout.videoIndex.map fun i => (t, i)
  | .audio => (g.audioTime n).bind fun t => g.layout.audioIndex.map fun i => (t, i)

/-- The payload of packet `n`. -/
def payload (g : Generator S) (n : Nat) : Bytes :=
  Array.replicate (max g.config.packetSize 1) (n % 251).toUInt8

/-- The byte position of the next packet. -/
def position (g : Generator S) (p : Progress S) : Int :=
  signed64 (p.place * g.config.packetSize)

/-- Whether video packet `n` comes without a timestamp. -/
def lacksPts (g : Generator S) (n : Nat) : Bool :=
  match g.config.video.bind (·.missingPtsEvery) with
  | some every => 0 < every && n % every = every - 1
  | none => false

/-- Gives out the next video packet. -/
def videoPacket (g : Generator S) (index : Nat) (p : Progress S) : Packet × Progress S :=
  let n := p.nextVideo
  ({ stream := index
     pts := if g.lacksPts n then none else some (signed64 n)
     dts := some (signed64 n)
     duration := 1
     pos := some (g.position p)
     key := true
     data := g.payload n },
    { p with nextVideo := n + 1 })

/-- Ticks in an audio packet. -/
def ticks (g : Generator S) : Int :=
  (g.config.audio.map fun a => a.samplesPerPacket).getD 0

/-- The timestamp of audio packet `n`. -/
def audioStamp (g : Generator S) (n : Nat) : Int :=
  signed64 n * g.ticks + (g.config.audio.map Audio.offset).getD 0

/-- Gives out the next audio packet. -/
def audioPacket (g : Generator S) (index : Nat) (p : Progress S) : Packet × Progress S :=
  let n := p.nextAudio
  ({ stream := index
     pts := some (g.audioStamp n)
     dts := some (g.audioStamp n)
     duration := g.ticks
     pos := some (g.position p)
     key := true
     data := g.payload n },
    { p with nextAudio := n + 1 })

/-- The stream whose turn it is at `now`, if a packet is left. -/
def turn (g : Generator S) (now : S) (p : Progress S) : Option (MediaKind × Nat) × Progress S :=
  match g.ready p.nextVideo .video, g.ready p.nextAudio .audio with
  | some (videoTime, videoIndex), some (audioTime, audioIndex) =>
    if videoTime ≤ audioTime then
      match g.heldBack now p with
      | (false, p) => (some (.video, videoIndex), p)
      | (true, p) => (some (.audio, audioIndex), p)
    else (some (.audio, audioIndex), p)
  | some (_, videoIndex), none => (some (.video, videoIndex), p)
  | none, some (_, audioIndex) => (some (.audio, audioIndex), p)
  | none, none => (none, p)

/-- Gives out the next packet of a stream. -/
def give (g : Generator S) (index : Nat) (p : Progress S) : MediaKind → Packet × Progress S
  | .video => g.videoPacket index p
  | .audio => g.audioPacket index p

/-- Gives out the next packet of either stream. -/
def read (g : Generator S) (now : S) (p : Progress S) : ReadOutcome × Progress S :=
  match g.turn now p with
  | (some (kind, index), p) =>
    let (packet, p) := g.give index p kind
    (.packet packet, p)
  | (none, p) => (.endOfFile, p)

/-- Whether 64 bits hold the byte position of packet number `place` of the whole source, and memory
its payload. -/
def PlaceComputes (g : Generator S) (place : Nat) : Prop :=
  place ≤ nat64Max ∧ place * g.config.packetSize ≤ nat64Max ∧ max g.config.packetSize 1 ≤ bufferMax

/-- Whether 64 bits hold the timestamp of audio packet `n`, and the product in it. -/
def StampComputes (g : Generator S) (n : Nat) : Prop :=
  FitsInt64 (signed64 n * g.ticks) ∧ FitsInt64 (g.audioStamp n)

/-- Whether packet `n` of a stream can be given out as packet number `place` of the whole source. -/
def PacketComputes (g : Generator S) (place : Nat) : MediaKind × Nat → Prop
  | (.video, _) => g.PlaceComputes place
  | (.audio, n) => g.StampComputes n ∧ g.PlaceComputes place

/-- Whether the packet whose turn it is at `now`, if there is one, can be given out. -/
def ReadComputes (g : Generator S) (now : S) (p : Progress S) : Prop :=
  ∀ entry ∈ (g.turn now p).1, g.PacketComputes p.place (entry.1, p.next entry.1)

instance (g : Generator S) (place : Nat) : Decidable (g.PlaceComputes place) :=
  inferInstanceAs (Decidable (_ ∧ _))

instance (g : Generator S) (n : Nat) : Decidable (g.StampComputes n) :=
  inferInstanceAs (Decidable (_ ∧ _))

instance (g : Generator S) (place : Nat) (entry : MediaKind × Nat) :
    Decidable (g.PacketComputes place entry) :=
  match entry with
  | (.video, _) => inferInstanceAs (Decidable (g.PlaceComputes place))
  | (.audio, n) => inferInstanceAs (Decidable (g.StampComputes n ∧ g.PlaceComputes place))

instance (g : Generator S) (now : S) (p : Progress S) : Decidable (g.ReadComputes now p) :=
  inferInstanceAs (Decidable (∀ entry ∈ (g.turn now p).1,
    g.PacketComputes p.place (entry.1, p.next entry.1)))

/-- As `read`; none if the read fails. -/
def read? (g : Generator S) (now : S) (p : Progress S) : Option (ReadOutcome × Progress S) :=
  if g.ReadComputes now p then some (g.read now p) else none

/-- Moves both streams to the last packet that starts at or before `t` seconds. -/
def seekTime (g : Generator S) (t : S) (p : Progress S) : Progress S :=
  let t := Scalar.clamp t 0.0 g.config.duration
  { p with
    nextVideo := (g.config.video.map (·.packetAt t)).getD p.nextVideo
    nextAudio := (g.config.audio.map (·.packetAt t)).getD p.nextAudio }

/-- Moves to the target of a range, in seconds or in bytes of payload. -/
def seek (g : Generator S) (range : SeekRange) (p : Progress S) :
    Except SourceFailure Unit × Progress S :=
  if range.hi < range.lo then
    (.error (.cannotSeek ("empty range [" ++ toString range.lo ++ ", " ++ toString range.hi ++
      "]")), p)
  else if range.byBytes then
    let perSecond := g.layout.packetsPerSecond * Scalar.ofNat g.config.packetSize
    if perSecond ≤ 0.0 then (.error (.cannotSeek "source has no data"), p)
    else (.ok (), g.seekTime (Scalar.ofInt (max range.target 0) / perSecond) p)
  else (.ok (), g.seekTime (Scalar.ofInt range.target / 1000000.0) p)

/-- The packet of the stream with the single picture. -/
def attachedPicture (g : Generator S) (index : Nat) : Option Packet :=
  if g.layout.coverIndex = some index then
    some
      { stream := index
        pts := some 0
        dts := some 0
        duration := 0
        pos := none
        key := true
        data := g.payload 0 }
  else none

/-- The generator as a container, whose reads do not fail: where 64 bits are not enough for a
packet, it comes with numbers that are too large for them. -/
def container (g : Generator S) : Container S (Progress S) where
  attachedPicture index _ := g.attachedPicture index
  read now p :=
    let (outcome, p) := g.read now p
    (.ok outcome, p)
  seek := g.seek
  setPaused _ p := p

end Generator

/-! ### Opening -/

/-- What the address of a synthetic source starts with. -/
def scheme : String := "synthetic:"

/-- Why a source cannot be opened, if it cannot. -/
def refusal (c : Config S) (uri : String) : Option SourceFailure :=
  if !uri.startsWith scheme then
    some (.cannotOpen uri ("expected a " ++ scheme ++ " uri"))
  else if c.duration ≤ 0.0 || (c.video.isNone && c.audio.isNone) then
    some (.cannotOpen uri "empty source")
  else none

end Synthetic

end Playback
