import Playback.Report.Fixed
import Playback.Settings.Options

/-!
# Statistics of a session

`Statistics` is a view of a session at one moment: counters, clocks, queues and flags.
`Statistics.render` writes the line that is shown to a user.
-/

namespace Playback

/-- A session as seen at one moment. Clock values are in milliseconds. -/
structure Statistics (S : Type) [Scalar S] where
  earlyDrops : Nat := 0
  lateDrops : Nat := 0
  displayed : Nat := 0
  audioFrames : Nat := 0
  silences : Nat := 0
  master : SyncMaster := .audio
  masterClock : Option Int := none
  audioClock : Option Int := none
  videoClock : Option Int := none
  /-- Sound minus pictures if both are open, else the master minus the one that is. -/
  gap : Option Int := none
  maxDrift : Int := 0
  hasAudio : Bool := false
  hasVideo : Bool := false
  audioQueueBytes : Nat := 0
  videoQueueBytes : Nat := 0
  audioQueued : Nat := 0
  videoQueued : Nat := 0
  /-- Bytes per second since the stream was opened. -/
  audioBandwidth : S := 0.0
  videoBandwidth : S := 0.0
  frameRate : Option S := none
  /-- Epoch of the video stream. -/
  videoSerial : Option Nat := none
  frameTimer : S := 0.0
  atEnd : Bool := false
  paused : Bool := false

namespace Statistics

/-- Seconds to whole milliseconds. -/
def millis {S : Type} [Scalar S] (t : S) : Int :=
  Scalar.toInt64 (Scalar.round (t * 1000.0))

/-- A clock in seconds with three places, or two dashes. -/
def clockText (ms : Option Int) : String :=
  match ms with
  | none => "--"
  | some ms => Fixed.render 3 (Scalar.ofInt ms / 1000.0)

/-- The master's name in the statistics line. -/
def masterText : SyncMaster → String
  | .audio => "Audio"
  | .video => "Video"
  | .external => "External"

/-- The statistics line. -/
def render {S : Type} [Scalar S] (s : Statistics S) : String :=
  "M-" ++ masterText s.master ++ " " ++ clockText s.masterClock ++
    " A:" ++ clockText s.audioClock ++ " V:" ++ clockText s.videoClock ++
    " diff:" ++ (match s.gap with | none => "--" | some d => toString d) ++ "ms" ++
    " aq=" ++ toString (s.audioQueueBytes / 1024) ++ "KB" ++
    " vq=" ++ toString (s.videoQueueBytes / 1024) ++ "KB" ++
    " fd=" ++ toString s.earlyDrops ++ "/" ++ toString s.lateDrops

end Statistics

end Playback
