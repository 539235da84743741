import Playback.Pcm.Sample

/-!
# Volume

Scales the samples of an output buffer by a volume in percent. Full volume leaves the buffer as it
is and no volume clears it; what is left over at the end, short of a whole sample, keeps its value.
-/

namespace Playback

namespace Pcm

/-- The factor of a volume in percent. -/
def gain (volume : Nat) : Sample :=
  Sample.ofFloat32 (Float32.ofNat volume / 100.0)

/-- An integer sample scaled by a factor, without its fraction. -/
def scaleInt16 (factor : Sample) (n : Int16) : Int16 :=
  (n.toFloat32 * factor.toFloat32).toInt16

/-- The bytes of a buffer's whole samples after scaling, and then the rest. -/
def scale (format : SampleFormat) (factor : Sample) (data : Bytes) : Bytes :=
  let whole := data.size / format.width
  let scaled :=
    match format with
    | .s16 =>
      (Array.range whole).flatMap fun i =>
        int16Bytes (scaleInt16 factor (readInt16 data (2 * i)))
    | .f32 =>
      (Array.range whole).flatMap fun i => sampleBytes (readSample data (4 * i) * factor)
  scaled ++ data.extract (whole * format.width) data.size

/-- The buffer at a volume of at most 100 percent. -/
def applyVolume (format : SampleFormat) (volume : Nat) (data : Bytes) : Bytes :=
  let volume := Min.min volume 100
  if volume = 100 then data
  else if volume = 0 then Array.replicate data.size 0
  else scale format (gain volume) data

end Pcm

end Playback
