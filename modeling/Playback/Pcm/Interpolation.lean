import Playback.Scalar

/-!
# Linear interpolation

`interpolate` stretches or squeezes a block of interleaved frames to another number of frames. The
frame `i` of the output lies at the input position `i * (inCount - 1) / (outCount - 1)`, between
two neighbouring input frames, and is mixed from them. So the first and the last frame stay what
they are, and no channel leaves the range of its input.

Positions are scalars and samples are of any type with the operations that the mixing takes.
-/

namespace Playback

variable {S T : Type} [Scalar S]

/-- Where an output frame lies in the input. -/
structure Position (S : Type) where
  /-- The input frame at or before the position. -/
  base : Nat
  /-- The input frame after it, or the last one. -/
  next : Nat
  /-- How far the position is from `base` to `next`. -/
  fraction : S

namespace Position

/-- Distance of two output frames, in input frames. -/
def step (inCount outCount : Nat) : S :=
  if 1 < outCount then Scalar.ofNat (inCount - 1) / Scalar.ofNat (outCount - 1) else 0.0

/-- The position of output frame `i`. -/
def ofFrame (inCount outCount i : Nat) : Position S :=
  let pos : S := Scalar.ofNat i * step inCount outCount
  let base := Scalar.toNat64 (Scalar.floor pos)
  { base := base
    next := Min.min (base + 1) (inCount - 1)
    fraction := pos - Scalar.ofNat base }

end Position

/-- Resamples `inCount` frames of `channels` samples to `outCount` frames. `narrow` gives the
weight of a sample from a fraction; `silence` stands for samples that are not there. -/
def interpolate [Add T] [Sub T] [Mul T] (narrow : S → T) (silence : T) (input : Array T)
    (channels inCount outCount : Nat) : Array T :=
  if inCount = outCount ∨ inCount = 0 then input
  else
    Array.ofFn fun k : Fin (outCount * channels) =>
      let p : Position S := Position.ofFrame inCount outCount (k / channels)
      let a := input.getD (p.base * channels + k % channels) silence
      let b := input.getD (p.next * channels + k % channels) silence
      a + (b - a) * narrow p.fraction

end Playback
