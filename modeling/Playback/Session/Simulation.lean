import Playback.Session.Presentation
import Playback.Source.Scripted
import Playback.Synthetic.Codec

/-!
# Simulated hosts

Hosts made of a source that is generated or scripted and of a presentation that answers by rule.

* `Host.synthetic` plays a synthetic source with its own codecs.
* `Host.scripted` plays a script, whose rows also say what the codecs give out.
* `Host.scriptedPackets` takes the packets from a script and decodes them with the codecs of
  synthetic streams.
-/

namespace Playback

open Synthetic

namespace Host

variable {S : Type} [Scalar S]

/-- A synthetic source. The container and the video codec share the moment at which the codec
released what it held back during a stall. -/
def synthetic (c : Config S) (p : Presentation) : Host S :=
  let stall := Stall.ofConfig c
  { Medium := Progress S
    Screen := Nat
    VideoCodec := GrayCodec S
    AudioCodec := ToneCodec
    openSource := fun uri =>
      match refusal c uri with
      | some e => .error e
      | none => .ok (c.info, Progress.start)
    container := (Generator.new c stall).container
    openVideo := fun params => GrayCodec.open? params stall
    openAudio := fun params => ToneCodec.open? params c.toneHz
    video := GrayCodec.codec.within (·.releasedAt) fun m released =>
      { m with releasedAt := released }
    audio := ToneCodec.codec
    negotiate := p.negotiate
    allocate := p.allocate }

/-- A script with its own codecs. Every address opens. -/
def scripted (s : Script S) (p : Presentation) : Host S :=
  let opened (fails : Option String) {α : Type} : Except CodecFailure (List α) :=
    match fails with
    | some reason => .error (.cannotOpen reason)
    | none => .ok []
  { Medium := Script.Progress
    Screen := Nat
    VideoCodec := List DecodedPicture
    AudioCodec := List DecodedAudio
    openSource := fun _ => .ok (s.info, ⟨0, 0⟩)
    container := s.container
    openVideo := fun _ => opened s.videoOpenFails
    openAudio := fun _ => opened s.audioOpenFails
    video := Script.codec s.rows (·.pictures) s.videoDrainFails
    audio := Script.codec s.rows (·.blocks) s.audioDrainFails
    negotiate := p.negotiate
    allocate := p.allocate }

/-- The packets of a script, decoded as those of a synthetic source are by default. -/
def scriptedPackets (s : Script S) (p : Presentation) : Host S where
  Medium := Script.Progress
  Screen := Nat
  VideoCodec := GrayCodec S
  AudioCodec := ToneCodec
  openSource := fun _ => .ok (s.info, ⟨0, 0⟩)
  container := s.container
  openVideo := fun params => GrayCodec.open? params none
  openAudio := fun params => ToneCodec.open? params concertPitch
  video := GrayCodec.codec.within (fun _ => none) fun m _ => m
  audio := ToneCodec.codec
  negotiate := p.negotiate
  allocate := p.allocate

end Host

end Playback
