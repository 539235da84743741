import Playback.Session.Basic

/-!
# Decode loops

The decode loop of a stream asks its decoder for the next frame and puts it into the ring, waiting
for room there if it has to. A loop ends when its queue is aborted, its ring is stopped, its codec
fails, or the presentation takes no buffer for a picture. A stream whose codec fails leaves the
session, and the other stream plays on.

A picture that is already behind the master clock is dropped before it reaches the ring, as long
as more packets wait that may replace it.
-/

namespace Playback

/-- Whether a step of a decode loop did anything. -/
inductive LoopProgress where
  | moved
  /-- The loop waits or has ended. -/
  | idle
  deriving DecidableEq

/-- What a loop did whose queue has gone from one length to another. -/
def LoopProgress.ofLengths (before after : Nat) : LoopProgress :=
  if after = before then idle else moved

/-- What a step of a decode loop comes to. -/
structure LoopStep (P : Type) where
  progress : LoopProgress
  /-- The pipeline that has left the session, as it was left. -/
  departed : Option P := none

/-- The loop of a pipeline puts the frame that it holds into the ring. -/
def Pipeline.release {S σ F α : Type} (p : Pipeline S σ F α) (frame : α) :
    LoopProgress × Pipeline S σ F α :=
  match p.stream.frames.push frame with
  | .ready frames =>
    (.moved, { p with stream := { p.stream with frames := frames }, worker := .running })
  | .aborted => (.moved, { p with worker := .ended })
  | .wait => (.idle, p)

namespace Session

variable {S : Type} [Scalar S] {host : Host S}

/-- Whether a picture is dropped before it reaches the ring. -/
def dropsEarly (s : Session host) (v : Stream S (VideoFrame S))
    (d : DecodedFrame S DecodedPicture) (now : S) : Bool :=
  let master := s.master
  if master = .video || !s.options.dropPolicy.allows master then false
  else
    match gap d.pts (s.masterClock now) with
    | none => false
    | some diff =>
      !Scalar.isNaN diff && Scalar.abs diff < noSyncThreshold && diff < 0.0 &&
        d.serial = v.clock.serial && 0 < v.packets.length

/-- What the video loop does with a picture from its decoder. -/
def receivePicture (s : Session host)
    (p : Pipeline S host.VideoCodec DecodedPicture (VideoFrame S))
    (d : DecodedFrame S DecodedPicture) (now : S) : Session host :=
  if s.dropsEarly p.stream d now then { s with metrics := s.metrics.recordEarlyDrop }
  else
    let frame := VideoFrame.ofDecoded d
    let (accepted, screen) := host.allocate frame s.screen
    let s := { s.record (.allocate frame.toFrameTiming frame.allocated) with screen := screen }
    if accepted then
      { s with video := some { p with worker := .holding { frame with allocated := true } } }
    else { s with video := some { p with stream := p.stream.abort, worker := .ended } }

/-- One step of the video loop. -/
def videoStep (s : Session host) (now : S) :
    LoopStep (host.PipelineOf .video) × Session host :=
  match s.video with
  | none => ({ progress := .idle }, s)
  | some p =>
    match p.worker with
    | .ended => ({ progress := .idle }, s)
    | .holding frame =>
      let (progress, p) := p.release frame
      ({ progress }, { s with video := some p })
    | .running =>
      let r := p.decoder.next host.video now p.stream.packets s.medium
      let progress := LoopProgress.ofLengths p.stream.packets.length r.queue.length
      let p := { p with stream := { p.stream with packets := r.queue }, decoder := r.decoder }
      let s := { s.recordCodec .video r.calls with video := some p, medium := r.medium }
      match r.result with
      | .wait => ({ progress }, s)
      | .finished => ({ progress := .moved }, s)
      | .aborted => ({ progress := .moved }, { s with video := some { p with worker := .ended } })
      | .failed _ => (⟨.moved, some p.fail⟩, { s with video := none })
      | .frame d => ({ progress := .moved }, s.receivePicture p d now)

/-- One step of the audio loop. If `take` is not set, a frame that the decoder has ready is left
there, as if its codec had not returned yet. -/
def audioTurn (take : Bool) (s : Session host) (now : S) :
    LoopStep (host.PipelineOf .audio) × Session host :=
  match s.audio with
  | none => ({ progress := .idle }, s)
  | some p =>
    match p.worker with
    | .ended => ({ progress := .idle }, s)
    | .holding frame =>
      let (progress, p) := p.release frame
      ({ progress }, { s with audio := some p })
    | .running =>
      let r := p.decoder.next host.audio now p.stream.packets s.medium
      let progress := LoopProgress.ofLengths p.stream.packets.length r.queue.length
      let p := { p with stream := { p.stream with packets := r.queue }, decoder := r.decoder }
      let s := { s.recordCodec .audio r.calls with audio := some p, medium := r.medium }
      match r.result with
      | .wait => ({ progress }, s)
      | .finished => ({ progress := .moved }, s)
      | .aborted => ({ progress := .moved }, { s with audio := some { p with worker := .ended } })
      | .failed _ => (⟨.moved, some p.fail⟩, { s with audio := none })
      | .frame d =>
        if take then
          let p := { p with worker := .holding (AudioFrame.ofDecoded d) }
          ({ progress := .moved }, { s with audio := some p })
        else ({ progress }, { s with audio := some { p with decoder := r.before } })

/-- One step of the audio loop. -/
def audioStep (s : Session host) (now : S) :
    LoopStep (host.PipelineOf .audio) × Session host :=
  s.audioTurn true now

/-- One step of the audio loop up to the end of a call to its codec: what the codec gives out is
with the decoder, and not yet checked against the epoch. -/
def audioDecode (s : Session host) (now : S) :
    LoopStep (host.PipelineOf .audio) × Session host :=
  s.audioTurn false now

end Session

end Playback
