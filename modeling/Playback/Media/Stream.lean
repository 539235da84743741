import Playback.Media.Samples

/-!
# Streams and packets

What a container tells about the elementary streams in it (`StreamParams`, `Chapter`) and the
compressed packets that it hands out. `StreamParams.isUsable` says which streams can be played at
all, `StreamParams.pick` which one is opened first and `StreamParams.after` which one follows.
-/

namespace Playback

/-- The two kinds of elementary stream. -/
inductive MediaKind where
  | audio
  | video
  deriving DecidableEq, Inhabited

/-- The kind's name in messages. -/
def MediaKind.name : MediaKind → String
  | audio => "audio"
  | video => "video"

/-- What is known of one elementary stream before it is decoded. -/
structure StreamParams where
  /-- Number of the stream inside its container; packets carry it. -/
  index : Nat
  kind : MediaKind
  timeBase : Ratio
  codec : String
  bitRate : Nat
  /-- First timestamp of the stream, in ticks. -/
  startTime : Option Int
  width : Nat
  height : Nat
  frameRate : Option Ratio
  sampleAspect : Ratio
  /-- The stream is a single still picture, such as a cover. -/
  attachedPicture : Bool
  rate : Nat
  channels : Nat
  layout : Nat
  deriving DecidableEq, Inhabited

namespace StreamParams

/-- A video stream with square pixels. -/
def video (index : Nat) (timeBase : Ratio) (width height : Nat) (frameRate : Ratio) :
    StreamParams where
  index := index
  kind := .video
  timeBase := timeBase
  codec := ""
  bitRate := 0
  startTime := none
  width := width
  height := height
  frameRate := some frameRate
  sampleAspect := ⟨1, 1⟩
  attachedPicture := false
  rate := 0
  channels := 0
  layout := 0

/-- An audio stream with the default layout of its channels. -/
def audio (index : Nat) (timeBase : Ratio) (rate channels : Nat) : StreamParams where
  index := index
  kind := .audio
  timeBase := timeBase
  codec := ""
  bitRate := 0
  startTime := none
  width := 0
  height := 0
  frameRate := none
  sampleAspect := ⟨0, 1⟩
  attachedPicture := false
  rate := rate
  channels := channels
  layout := defaultLayout channels

/-- Holds if a stream is of the given kind and, for sound, its format is known. -/
def isUsable (kind : MediaKind) (p : StreamParams) : Bool :=
  p.kind = kind && (kind = .video || (0 < p.rate && 0 < p.channels))

/-- The stream to open first: the usable one with the wanted number, else the first usable one. -/
def pick (streams : List StreamParams) (kind : MediaKind) (wanted : Option Nat) :
    Option StreamParams :=
  let usable := streams.filter (isUsable kind)
  (wanted.bind fun index => usable.find? (·.index = index)).or usable.head?

/-- The next usable stream of a kind after the one numbered `index`, around the end of the list
and short of the starting point. Streams follow each other by their place in the list, whatever
their numbers. -/
def after (streams : List StreamParams) (kind : MediaKind) (index : Nat) : Option StreamParams :=
  match streams.findIdx? (·.index = index) with
  | none => none
  | some place => (streams.drop (place + 1) ++ streams.take place).find? (isUsable kind)

/-- The display aspect of a picture stream, given its pixels' shape. -/
def displayAspect {S : Type} [Scalar S] (sampleAspect : Ratio) (width height : Nat) : S :=
  let pixel : S := if sampleAspect.isValid then sampleAspect.value else 1.0
  if height = 0 then 0.0 else pixel * Scalar.ofNat width / Scalar.ofNat height

end StreamParams

/-- A titled part of a source, in seconds. -/
structure Chapter (S : Type) where
  start : S
  stop : S
  title : String

/-- A compressed packet of one stream. Timestamps are in ticks of the stream's time base. -/
structure Packet where
  /-- Number of the stream that the packet belongs to. -/
  stream : Nat
  /-- When the content is to be shown. -/
  pts : Option Int
  /-- When the packet is to be decoded. -/
  dts : Option Int
  /-- How long the content lasts, zero if unknown. -/
  duration : Int
  /-- Byte position in the source. -/
  pos : Option Int
  key : Bool
  data : Bytes
  deriving DecidableEq, Inhabited

/-- Bytes of a packet's payload. -/
def Packet.size (p : Packet) : Nat :=
  p.data.size

/-- A request to a container to move: to `target`, and in any case between `lo` and `hi`.
Positions are microseconds, or bytes if `byBytes` is set. -/
structure SeekRange where
  target : Int
  lo : Int
  hi : Int
  byBytes : Bool
  deriving DecidableEq, Inhabited

end Playback
