import Playback.Media.Frame

/-!
# Duration of a frame

How long a frame is shown is the distance to the next frame's timestamp, where that is believable,
and the frame's nominal duration otherwise.
-/

namespace Playback

variable {S : Type} [Scalar S]

/-- Longest believable frame of a source whose timestamps may jump, in seconds. -/
def maxFrameDurationJumping : S := 10.0

/-- Longest believable frame of any other source, in seconds. -/
def maxFrameDuration : S := 3600.0

/-- Seconds from `last` to `next`. The distance of their timestamps counts if both have one and it
is positive and at most `longest`; frames of different epochs are no time apart. -/
def frameDuration (last next : FrameTiming S) (longest : S) : S :=
  if last.serial ≠ next.serial then 0.0
  else
    match last.pts, next.pts with
    | some a, some b =>
      let gap := b - a
      if Scalar.isNaN gap || gap ≤ 0.0 || longest < gap then last.duration else gap
    | _, _ => last.duration

end Playback
