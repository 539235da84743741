import Playback.Session.Basic

/-!
# Opening and closing

A session is opened on an address: the source is opened, moved to the start that the options ask
for, and the preferred stream of each kind is opened. It is open if at least one stream is.
Streams are opened and closed one by one, so a session can switch to another stream of a kind.
-/

namespace Playback

namespace Session

variable {S : Type} [Scalar S] {host : Host S}

/-! ### Streams -/

/-- Duration of a picture that does not tell its own: that of the frame rate, if it is known. -/
def pictureDuration (p : StreamParams) : S :=
  match p.frameRate with
  | some r => if r.isValid then 1.0 / r.value else 0.0
  | none => 0.0

/-- A stream that was just opened, with its decoder and its decode loop. -/
def freshPipeline {σ F α : Type} (p : StreamParams) (kind : MediaKind) (codec : σ) (fallback : S)
    (ringSize : Nat) (keepLast : Bool) (now : S) : Pipeline S σ F α where
  stream := Stream.new p ringSize keepLast PacketQueue.new.start now
  decoder := Decoder.new kind codec p.timeBase fallback
  worker := .running

/-- Opens a video stream. -/
def openVideo (s : Session host) (p : StreamParams) (now : S) :
    Except PlaybackFailure Unit × Session host :=
  match host.openVideo p with
  | .error e => (.error (.decoding .video e), s)
  | .ok codec =>
    let aspect := StreamParams.displayAspect p.sampleAspect p.width p.height
    let s := s.record (.window p.width p.height aspect)
    (.ok (), { s with
      video := some (freshPipeline p .video codec (pictureDuration p) pictureRingSize true now)
      attachmentDue := true })

/-- Opens an audio stream, if the presentation takes its sound. -/
def openAudio (s : Session host) (p : StreamParams) (now : S) :
    Except PlaybackFailure Unit × Session host :=
  let (spec, screen) := host.negotiate p.channels p.rate p.layout s.screen
  let s := { s.record (.negotiate p.channels p.rate p.layout) with screen := screen }
  match spec with
  | none => (.error (.decoding .audio (.cannotOpen "audio output format refused")), s)
  | some spec =>
    match host.openAudio p with
    | .error e => (.error (.decoding .audio e), s)
    | .ok codec =>
      (.ok (), { s with
        audio := some (freshPipeline p .audio codec 0.0 soundRingSize false now)
        output := some (AudioOutput.new spec) })

/-- Opens a stream. -/
def openStream (s : Session host) (p : StreamParams) (now : S) :
    Except PlaybackFailure Unit × Session host :=
  match p.kind with
  | .video => s.openVideo p now
  | .audio => s.openAudio p now

/-- Closes the open stream of a kind, and gives it as it is left. Nothing of it is displayed or
played any more. -/
def closing (s : Session host) : (kind : MediaKind) → Option (host.PipelineOf kind) × Session host
  | .video =>
    match s.video with
    | some p => (some p.close, { s with video := none, displayPending := false })
    | none => (none, s)
  | .audio =>
    match s.audio with
    | some p => (some p.close, { s with audio := none, output := none })
    | none => (none, s)

/-- Closes the open stream of a kind. -/
def closeStream (s : Session host) (kind : MediaKind) : Session host :=
  (s.closing kind).2

/-- The number of the open stream of a kind. -/
def openIndex (s : Session host) (kind : MediaKind) : Option Nat :=
  match kind with
  | .video => s.videoStream.map (·.params.index)
  | .audio => s.audioStream.map (·.params.index)

/-- The stream that a switch opens, if there is another usable one of the kind. -/
def nextParams (s : Session host) (kind : MediaKind) : Option StreamParams :=
  (s.openIndex kind).bind (StreamParams.after s.source.streams kind)

/-- Switches from the open stream of a kind to the next usable one, if there is another. -/
def cycleStream (s : Session host) (kind : MediaKind) (now : S) :
    Except PlaybackFailure Unit × Session host :=
  match s.nextParams kind with
  | none => (.ok (), s)
  | some next => (s.closeStream kind).openStream next now

/-! ### The session -/

/-- Tells every part of the session to end. -/
def abort (s : Session host) : Session host :=
  ({ s with aborted := true }.onVideo Stream.abort).onAudio Stream.abort

/-- Tells every part of the session to end, and waits for the reader. -/
def shutDown (s : Session host) : Session host :=
  { s.abort with reader := .ended }

/-- Ends playback for good: the reader ends and all streams are closed. -/
def close (s : Session host) : Session host :=
  (s.shutDown.closeStream .audio).closeStream .video

/-- Lets the reader start, once. -/
def start (s : Session host) : Session host :=
  match s.reader with
  | .waiting => { s with reader := .running false }
  | _ => s

/-- A session on an opened source, before any stream is opened. -/
def initial (options : Options S) (source : SourceInfo S) (medium : host.Medium)
    (screen : host.Screen) (now : S) : Session host where
  options := options
  source := source
  medium := medium
  screen := screen
  video := none
  audio := none
  reader := .waiting
  externalClock := Clock.new now
  aborted := false
  paused := false
  stepping := false
  atEnd := false
  refreshForced := false
  displayPending := false
  attachmentDue := false
  quitSent := false
  seekPending := none
  lastSeekTarget := -1
  lastPacketPos := -1
  frameTimer := 0.0
  output := none
  metrics := {}
  log := []

/-- The range of the seek to the start that the options ask for. -/
def startRange (start : S) (source : SourceInfo S) : SeekRange :=
  let start :=
    match source.startTime with
    | some t => start + t
    | none => start
  let target := Scalar.toInt64 (start * 1000000.0)
  ⟨target, int64Min, target, false⟩

/-- Moves the container to the start that the options ask for. A container that cannot is played
from where it is. -/
def seekStart (s : Session host) : Session host :=
  match s.options.startTime with
  | none => s
  | some start =>
    let range := startRange start s.source
    { s.record (.seek range) with medium := (host.container.seek range s.medium).2 }

/-- Opens the preferred stream of a kind; a stream that cannot be opened is left out. -/
def openPreferred (s : Session host) (kind : MediaKind) (now : S) : Session host :=
  let (disabled, wanted) :=
    match kind with
    | .audio => (s.options.disableAudio, s.options.wantedAudio)
    | .video => (s.options.disableVideo, s.options.wantedVideo)
  if disabled then s
  else
    match StreamParams.pick s.source.streams kind wanted with
    | some p => (s.openStream p now).2
    | none => s

/-- Opens the source at an address. The failure comes with the calls made until then, the latest
first. -/
def «open» (host : Host S) (uri : String) (options : Options S) (screen : host.Screen) (now : S) :
    Except (PlaybackFailure × List (HostCall S)) (Session host) :=
  match host.openSource uri with
  | .error e => .error (.source e, [])
  | .ok (source, medium) =>
    let s := (initial options source medium screen now).seekStart
    let s := (s.openPreferred .audio now).openPreferred .video now
    if s.video.isNone && s.audio.isNone then .error (.source .noStreams, s.close.log)
    else .ok s

end Session

end Playback
