import Playback.Report.Statistics
import Playback.Session.Basic

/-!
# What can be seen of a session

`Session.statistics?` is a view of the whole session at one moment; `Session.isReady` tells whether
everything that should play is open.
-/

namespace Playback

namespace Session

variable {S : Type} [Scalar S] {host : Host S}

/-- Whether the source has a stream of a kind. -/
def hasKind (s : Session host) (kind : MediaKind) : Bool :=
  s.source.streams.any (·.kind = kind)

/-- Whether every stream that should play is open, and the session was not told to end. -/
def isReady (s : Session host) : Bool :=
  let audio := s.audio.isSome || s.options.disableAudio || !s.hasKind .audio
  let video := s.video.isSome || s.options.disableVideo || !s.hasKind .video
  audio && video && !s.aborted

/-- How far the sound is ahead of the pictures; with one of them, how far the leading clock is
ahead of it. -/
def clockGap (s : Session host) (now : S) : Option S :=
  match s.audio.isSome, s.video.isSome with
  | true, true => gap (s.audioClock now) (s.videoClock now)
  | false, true => gap (s.masterClock now) (s.videoClock now)
  | true, false => gap (s.masterClock now) (s.audioClock now)
  | false, false => none

/-- Pictures per second of the video stream, if they are known. -/
def frameRate (s : Session host) : Option S :=
  (s.videoStream.bind (·.params.frameRate)).bind fun r =>
    if r.isValid then some r.value else none

/-- The session as seen at `now`. There is no view if the largest drift cannot be told. -/
def statistics? (s : Session host) (now : S) : Option (Statistics S) :=
  s.metrics.maxDriftMs?.map fun maxDrift =>
    { earlyDrops := s.metrics.earlyDrops
      lateDrops := s.metrics.lateDrops
      displayed := s.metrics.displayed
      audioFrames := s.metrics.audioFrames
      silences := s.metrics.silences
      master := s.master
      masterClock := (s.masterClock now).map Statistics.millis
      audioClock := (s.audioClock now).map Statistics.millis
      videoClock := (s.videoClock now).map Statistics.millis
      gap := (s.clockGap now).map Statistics.millis
      maxDrift := maxDrift
      hasAudio := s.audio.isSome
      hasVideo := s.video.isSome
      audioQueueBytes := (s.audioStream.map (·.packets.size)).getD 0
      videoQueueBytes := (s.videoStream.map (·.packets.size)).getD 0
      audioQueued := (s.audioStream.map (·.frames.remaining)).getD 0
      videoQueued := (s.videoStream.map (·.frames.remaining)).getD 0
      audioBandwidth := (s.audioStream.map (·.bandwidth now)).getD 0.0
      videoBandwidth := (s.videoStream.map (·.bandwidth now)).getD 0.0
      frameRate := s.frameRate
      videoSerial := s.videoStream.map (·.packets.serial)
      frameTimer := s.frameTimer
      atEnd := s.atEnd
      paused := s.paused }

end Session

end Playback
