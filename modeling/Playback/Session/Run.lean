import Playback.Session.Callback
import Playback.Session.DecodeLoop
import Playback.Session.Opening
import Playback.Session.Reading
import Playback.Session.Refresh

/-!
# Runs of a session

An `Action` is one thing that can happen to a session: a step of one of its workers or a call by
the host or the user. A run is a list of actions, each with the moment at which it happens, in any
order. Laws of sessions are laws of the states that runs lead to.
-/

namespace Playback

namespace Session

/-- One thing that happens to a session. -/
inductive Action where
  /-- The reader starts. -/
  | start
  /-- The reader goes once around its loop. -/
  | readerTurn
  | videoStep
  | audioStep
  | audioDecode
  | refresh
  | takePicture
  | fill (count volume : Nat)
  | togglePause
  | step
  | seek (millis : Int)
  | seekChapter (steps : Int)
  | nextChunk
  | previousChunk
  | cycleStream (kind : MediaKind)
  | abort
  | close
  deriving DecidableEq

variable {S : Type} [Scalar S] {host : Host S}

/-- The session after an action at the moment `now`. -/
def perform (s : Session host) (now : S) : Action → Session host
  | .start => s.start
  | .readerTurn => s.readerTurn now
  | .videoStep => (s.videoStep now).2
  | .audioStep => (s.audioStep now).2
  | .audioDecode => (s.audioDecode now).2
  | .refresh => (s.refresh now).2
  | .takePicture => s.takePicture.2
  | .fill count volume => (s.fill count volume now).2
  | .togglePause => s.togglePause now
  | .step => s.step now
  | .seek millis => s.seek millis now
  | .seekChapter steps => s.seekChapter steps now
  | .nextChunk => s.nextChunk now
  | .previousChunk => s.previousChunk now
  | .cycleStream kind => (s.cycleStream kind now).2
  | .abort => s.abort
  | .close => s.close

/-- The pipeline of a kind that leaves the session in an action, as it is left. -/
def departed (s : Session host) (now : S) (action : Action) (kind : MediaKind) :
    Option (host.PipelineOf kind) :=
  match action, kind with
  | .videoStep, .video => (s.videoStep now).1.departed
  | .audioStep, .audio => (s.audioStep now).1.departed
  | .audioDecode, .audio => (s.audioDecode now).1.departed
  | .close, .audio => (s.shutDown.closing .audio).1
  | .close, .video => ((s.shutDown.closeStream .audio).closing .video).1
  | .cycleStream other, kind =>
    if other = kind then (s.nextParams kind).bind fun _ => (s.closing kind).1 else none
  | _, _ => none

/-- The session after a run. -/
def run (s : Session host) (actions : List (S × Action)) : Session host :=
  actions.foldl (fun s a => s.perform a.1 a.2) s

end Session

end Playback
