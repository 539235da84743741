import Playback.Settings.Options

/-!
# Delay of the next picture

A picture stays on screen for its nominal delay, shortened if the pictures are behind the master
clock and lengthened if they are ahead of it.
-/

namespace Playback

variable {S : Type} [Scalar S]

/-- Below this gap in seconds pictures are never moved. -/
def syncThresholdMin : S := 0.04

/-- Above this gap in seconds pictures are always moved. -/
def syncThresholdMax : S := 0.1

/-- A picture longer than this, in seconds, is lengthened by the gap and not doubled. -/
def doublingLimit : S := 0.1

/-- A gap of this many seconds is a jump and not a drift. -/
def noSyncThreshold : S := 10.0

/-- The delay of a picture with the nominal delay `delay`. `diff` is how far the pictures' clock
is ahead of the master clock, none if one of them is silent; a gap of `longest` seconds or more is
not believed. -/
def targetDelay (delay : S) (master : SyncMaster) (diff : Option S) (longest : S) : S :=
  let delay := Scalar.max delay 0.0
  match master, diff with
  | .video, _ => delay
  | _, none => delay
  | _, some diff =>
    let threshold := Scalar.clamp delay syncThresholdMin syncThresholdMax
    if Scalar.isFinite diff && Scalar.abs diff < longest then
      if diff ≤ -threshold then Scalar.max (delay + diff) 0.0
      else if threshold ≤ diff then
        if doublingLimit < delay then delay + diff else delay * 2.0
      else delay
    else delay

end Playback
