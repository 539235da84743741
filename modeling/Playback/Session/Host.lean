import Playback.Decoding.Codec
import Playback.Settings.Options
import Playback.Source.Container

/-!
# The host of a session

A session neither parses containers nor decodes bitstreams, and it draws and plays nothing. All of
that is the host's: it opens sources and codecs, and it presents pictures and sound. `Host`
collects what a session asks of it. A host is a collection of pure functions over states of its
own types: the medium is what container and codecs have in common, the screen is the state of the
presentation.
-/

namespace Playback

/-- What surrounds a session, at times `S`. -/
structure Host (S : Type) where
  /-- State of the container, shared with the codecs of the source. -/
  Medium : Type
  /-- State of the presentation. -/
  Screen : Type
  /-- State of a video codec. -/
  VideoCodec : Type
  /-- State of an audio codec. -/
  AudioCodec : Type
  /-- Opens the source at an address. -/
  openSource : String → Except SourceFailure (SourceInfo S × Medium)
  container : Container S Medium
  openVideo : StreamParams → Except CodecFailure VideoCodec
  openAudio : StreamParams → Except CodecFailure AudioCodec
  video : Codec S Medium VideoCodec DecodedPicture
  audio : Codec S Medium AudioCodec DecodedAudio
  /-- Chooses the output format for sound of the given channels, rate and layout, or refuses. -/
  negotiate : Nat → Nat → Nat → Screen → Option OutputSpec × Screen
  /-- Takes a picture into a buffer, or refuses. -/
  allocate : VideoFrame S → Screen → Bool × Screen

/-- A call that a session makes to its host. -/
inductive HostCall (S : Type) where
  | negotiate (channels rate layout : Nat)
  /-- A video stream of this size was opened. -/
  | window (width height : Nat) (aspect : S)
  /-- A picture needs a buffer. -/
  | allocate (timing : FrameTiming S) (allocated : Bool)
  | attachedPicture (stream : Nat)
  | read
  | seek (range : SeekRange)
  | sourcePaused (paused : Bool)
  | codec (kind : MediaKind) (call : CodecCall)
  /-- Playback ended. -/
  | quit (status : QuitStatus)

end Playback
