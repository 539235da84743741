import Playback.Decoding.Decoder
import Playback.Decoding.Stream
import Playback.Report.Metrics
import Playback.Session.Host
import Playback.Session.Output
import Playback.Timing.FrameDuration

/-!
# Sessions

A `Session` plays one source. It is a state, and all that happens to it is a function on that
state which takes the moment at which it happens:

* the reader takes packets from the container into the packet queues (`Session.Reading`);
* a decode loop for each open stream takes them through the codec into the frame ring
  (`Session.DecodeLoop`);
* the display refreshes the picture on screen (`Session.Refresh`);
* the audio device asks for sound (`Session.Callback`);
* the user pauses, steps, seeks and switches streams (`Session.Transport`, `Session.Opening`).

The log records every call that the session made to its host.
-/

namespace Playback

/-- What a decode loop is doing. -/
inductive Worker (α : Type) where
  /-- It asks its decoder for the next frame. -/
  | running
  /-- It waits for room in the ring for a frame. -/
  | holding (frame : α)
  /-- It has left its loop for good. -/
  | ended

/-- An open stream with its decoder and its decode loop. -/
structure Pipeline (S σ F α : Type) where
  stream : Stream S α
  decoder : Decoder S σ F
  worker : Worker α

namespace Pipeline

variable {S σ F α : Type}

/-- The pipeline is given up because of its decoder. -/
def fail (p : Pipeline S σ F α) : Pipeline S σ F α :=
  { p with stream := p.stream.fail, worker := .ended }

/-- The pipeline is closed: its decode loop is waited for. -/
def close (p : Pipeline S σ F α) : Pipeline S σ F α :=
  { p with stream := p.stream.close, worker := .ended }

end Pipeline

/-- The state of a codec of a kind. -/
abbrev Host.CodecOf {S : Type} (host : Host S) : MediaKind → Type
  | .video => host.VideoCodec
  | .audio => host.AudioCodec

/-- What codecs of a kind give out. -/
abbrev UnitOf : MediaKind → Type
  | .video => DecodedPicture
  | .audio => DecodedAudio

/-- The frames of a kind. -/
abbrev FrameOf (S : Type) : MediaKind → Type
  | .video => VideoFrame S
  | .audio => AudioFrame S

/-- The pipelines of a kind. -/
abbrev Host.PipelineOf {S : Type} (host : Host S) (kind : MediaKind) : Type :=
  Pipeline S (host.CodecOf kind) (UnitOf kind) (FrameOf S kind)

/-- What the reader is doing. -/
inductive Reader where
  /-- It was not started yet. -/
  | waiting
  /-- It is at the top of its loop; `lastPaused` is what the container was told last. -/
  | running (lastPaused : Bool)
  /-- It has left its loop for good. -/
  | ended
  deriving DecidableEq, Inhabited

/-- A seek that was asked for: to `target`, from the side that `relative` tells. Positions are
microseconds, or bytes if `byBytes` is set. -/
structure SeekRequest where
  target : Int
  relative : Int
  byBytes : Bool
  deriving DecidableEq, Inhabited

/-- Where the container may go for a seek: it may be somewhat off on the side that the seek came
from. -/
def SeekRequest.range (r : SeekRequest) : SeekRange where
  target := r.target
  lo := if 0 < r.relative then r.target - r.relative + 2 else int64Min
  hi := if r.relative < 0 then r.target - r.relative - 2 else int64Max
  byBytes := r.byBytes

/-- The playback of one source. -/
structure Session {S : Type} [Scalar S] (host : Host S) where
  options : Options S
  source : SourceInfo S
  medium : host.Medium
  screen : host.Screen
  video : Option (Pipeline S host.VideoCodec DecodedPicture (VideoFrame S))
  audio : Option (Pipeline S host.AudioCodec DecodedAudio (AudioFrame S))
  reader : Reader
  /-- A clock bound to no stream; it outlives them. -/
  externalClock : Clock S
  aborted : Bool
  paused : Bool
  /-- The next picture is to be shown, and then playback pauses. -/
  stepping : Bool
  /-- The end of the source was read. -/
  atEnd : Bool
  /-- The ring moved to a new picture during this refresh. -/
  refreshForced : Bool
  /-- A picture was accepted for display and not fetched yet. -/
  displayPending : Bool
  /-- The single picture of the video stream is to be queued, if it has one. -/
  attachmentDue : Bool
  /-- The end of playback was reported. -/
  quitSent : Bool
  seekPending : Option SeekRequest
  /-- Target of the last seek that was asked for, -1 if none. -/
  lastSeekTarget : Int
  /-- Byte position of the last packet read, -1 if unknown. -/
  lastPacketPos : Int
  /-- When the picture on screen became due. -/
  frameTimer : S
  output : Option (AudioOutput S)
  metrics : Metrics
  /-- Calls made to the host, the latest first. -/
  log : List (HostCall S)

namespace Session

/-- Capacity of the ring of pictures. -/
def pictureRingSize : Nat := 3

/-- Capacity of the ring of sound. -/
def soundRingSize : Nat := 9

variable {S : Type} [Scalar S] {host : Host S}

/-! ### What the options make of the source -/

/-- Longest believable duration of a picture. -/
def longestFrame (s : Session host) : S :=
  if s.source.jumping then maxFrameDurationJumping else maxFrameDuration

/-- Whether seeks are by bytes. -/
def seeksByBytes (s : Session host) : Bool :=
  s.options.seekByBytes.getD s.source.jumping

/-- Whether reading goes on however much is queued. -/
def readsAhead (s : Session host) : Bool :=
  s.options.infiniteBuffer.getD s.source.realtime

/-! ### Open streams -/

/-- The open video stream. -/
def videoStream (s : Session host) : Option (Stream S (VideoFrame S)) :=
  s.video.map (·.stream)

/-- The open audio stream. -/
def audioStream (s : Session host) : Option (Stream S (AudioFrame S)) :=
  s.audio.map (·.stream)

/-- The open pipeline of a kind. -/
def slot (s : Session host) : (kind : MediaKind) → Option (host.PipelineOf kind)
  | .video => s.video
  | .audio => s.audio

/-- Changes the open video stream. -/
def onVideo (s : Session host) (f : Stream S (VideoFrame S) → Stream S (VideoFrame S)) :
    Session host :=
  { s with video := s.video.map fun p => { p with stream := f p.stream } }

/-- Changes the open audio stream. -/
def onAudio (s : Session host) (f : Stream S (AudioFrame S) → Stream S (AudioFrame S)) :
    Session host :=
  { s with audio := s.audio.map fun p => { p with stream := f p.stream } }

/-! ### Clocks -/

/-- The clock that leads, given which streams are open. -/
def master (s : Session host) : SyncMaster :=
  match s.options.syncMaster with
  | .video => if s.video.isSome then .video else if s.audio.isSome then .audio else .external
  | .audio => if s.audio.isSome then .audio else .external
  | .external => .external

/-- The video clock's value. -/
def videoClock (s : Session host) (now : S) : Option S :=
  s.videoStream.bind (·.clockValue now)

/-- The audio clock's value. -/
def audioClock (s : Session host) (now : S) : Option S :=
  s.audioStream.bind (·.clockValue now)

/-- The leading clock's value. -/
def masterClock (s : Session host) (now : S) : Option S :=
  match s.master with
  | .video => s.videoClock now
  | .audio => s.audioClock now
  | .external => s.externalClock.read none now

/-- How far a clock is ahead of another; none if one of them is silent. -/
def gap (a b : Option S) : Option S :=
  match a, b with
  | some a, some b => some (a - b)
  | _, _ => none

/-! ### Calls to the host -/

/-- Records a call. -/
def record (s : Session host) (call : HostCall S) : Session host :=
  { s with log := call :: s.log }

/-- Records the calls that a codec received. -/
def recordCodec (s : Session host) (kind : MediaKind) (calls : List CodecCall) : Session host :=
  { s with log := (calls.map (HostCall.codec kind)).reverse ++ s.log }

/-- Reports the end of playback, the first time. -/
def quit (s : Session host) (status : QuitStatus) : Session host :=
  if s.quitSent then s else { s.record (.quit status) with quitSent := true }

end Session

end Playback
