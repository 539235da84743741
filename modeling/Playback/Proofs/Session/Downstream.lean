import Playback.Proofs.Session.Consumption
import Playback.Proofs.Session.LoopMoves

/-!
# What happens behind the queues

Most actions neither put anything into the packet queues nor open or close a stream: the decode
loops take from the queues, display and audio device take from the rings, and the user's requests
touch neither. `Flows.Downstream` lists what such an action may do to the flows, and every
invariant of the flows that these few cases keep is kept by all of them (`downstream_perform`).
-/

namespace Playback

open FrameRing

/-- Nothing has entered the queues on the way from `fs` to `fs'`, and the same streams are open,
unless a decoder has failed. -/
inductive Flows.Downstream {S : Type} [Scalar S] {host : Host S} (fs fs' : Flows host) : Prop
  | nothing (hflows : fs' = fs)
  | video {v : Option (Flow S host.VideoCodec DecodedPicture (VideoFrame S))}
      (hmoves : Flow.Moves host.video Session.pictureFrame host.Refuses fs.video v)
      (hflows : fs' = { fs with video := v })
  | audio {a : Option (Flow S host.AudioCodec DecodedAudio (AudioFrame S))}
      (hmoves : Flow.Moves host.audio AudioFrame.ofDecoded False fs.audio a)
      (hflows : fs' = { fs with audio := a })
  | shows {g : FrameRing (VideoFrame S) → FrameRing (VideoFrame S)} (hg : Advances g)
      (hflows : fs' = fs.onPictures g)
  | plays {g : FrameRing (AudioFrame S) → FrameRing (AudioFrame S)} (hg : Advances g)
      (hflows : fs' = fs.onSound g)

namespace Session

variable {S : Type} [Scalar S] {host : Host S} {s : Session host}

/-- The action is neither one of the reader nor one that opens or closes streams. -/
def Action.isDownstream : Action → Bool
  | .readerTurn | .cycleStream _ | .abort | .close => false
  | _ => true

theorem downstream_perform (hforced : s.refreshForced = false) (now : S) {action : Action}
    (h : action.isDownstream = true) :
    s.flows.Downstream (s.perform now action).flows := by
  cases action with
  | readerTurn | cycleStream | abort | close => cases h
  | start => exact .nothing flows_start
  | takePicture => exact .nothing flows_takePicture
  | togglePause => exact .nothing flows_togglePause
  | step => exact .nothing flows_step
  | seek _ | seekChapter _ | nextChunk | previousChunk => exact .nothing (flows_request rfl)
  | videoStep =>
    obtain ⟨v, hflows, hmoves⟩ := s.moves_videoStep now
    exact .video hmoves hflows
  | audioStep =>
    obtain ⟨a, hflows, hmoves⟩ := s.moves_audioTurn true now
    exact .audio hmoves hflows
  | audioDecode =>
    obtain ⟨a, hflows, hmoves⟩ := s.moves_audioTurn false now
    exact .audio hmoves hflows
  | refresh =>
    obtain ⟨g, hg, hflows⟩ := flows_refresh hforced now
    exact .shows hg hflows
  | fill count volume =>
    obtain ⟨g, hg, hflows⟩ := s.flows_fill count volume now
    exact .plays hg hflows

end Session

end Playback
