import Playback.Failure
import Playback.Pcm.Interpolation
import Playback.Pcm.Sample

/-!
# Conversion to the output format

`Converter.convert` turns a block of decoded sound into bytes of the output format: samples are
decoded, channels mapped, frames resampled and samples encoded again. It can also stretch a block
to a wanted number of frames, which is how the sound's speed follows the master clock. A block
that is already in the output format and is not stretched passes through untouched.

Lengths are computed in 64 bits, and no buffer has more bytes than `bufferMax`. A conversion that
needs more fails (`Converter.Computes`).
-/

namespace Playback

namespace Pcm

/-- The average of a frame's samples. -/
def average (input : Array Sample) (first channels : Nat) : Sample :=
  let sum := (List.range channels).foldl
    (fun acc c => acc + input.getD (first + c) Sample.zero) Sample.negativeZero
  sum / Sample.ofFloat32 (Float32.ofNat channels)

/-- Maps frames of `source` channels to frames of `target` channels. A single target channel takes
the average, a single source channel is repeated, and otherwise channels keep their places: those
too many are left out and those missing are silent. -/
def mapChannels (input : Array Sample) (source target : Nat) : Array Sample :=
  if source = target then input
  else
    let frames := input.size / source
    if target = 1 then
      Array.ofFn fun i : Fin frames => average input (i * source) source
    else
      Array.ofFn fun k : Fin (frames * target) =>
        let frame := k / target
        let channel := k % target
        if source = 1 then input.getD frame Sample.zero
        else if channel < source then input.getD (frame * source + channel) Sample.zero
        else Sample.zero

end Pcm

/-- Converts blocks to an output format. -/
structure Converter where
  target : PcmFormat
  /-- Format of the latest block that was converted. -/
  source : Option PcmFormat
  deriving DecidableEq

namespace Converter

/-- A converter that has seen no block. -/
def new (target : PcmFormat) : Converter :=
  ⟨target, none⟩

/-- Whether blocks of a format pass through untouched. -/
def passes (c : Converter) (f : PcmFormat) : Bool :=
  f.rate = c.target.rate && f.channels = c.target.channels && f.format = c.target.format

/-- Frames of output for `wanted` frames of a block at `rate`. -/
def outputCount (c : Converter) (block : SampleBlock) (wanted : Nat) : Nat :=
  if block.count = 0 then 0
  else (wanted * c.target.rate + (block.rate - 1)) / block.rate

/-- Why a block cannot be converted, if it cannot. -/
def refusal (c : Converter) (block : SampleBlock) : Option ConversionFailure :=
  if block.rate = 0 ∨ block.channels = 0 then
    some (.unsupported block.toPcmFormat.describe c.target.describe)
  else if block.data.size < block.count * block.frameSize then
    some (.malformed (toString block.data.size ++ " bytes for " ++ toString block.count ++
      " samples of " ++ toString block.frameSize ++ " bytes"))
  else none

/-- The bytes of a block that can be converted. -/
def render (c : Converter) (block : SampleBlock) (wanted : Nat) : Bytes :=
  if c.passes block.toPcmFormat ∧ wanted = block.count then
    block.data.extract 0 (block.count * block.frameSize)
  else
    let samples := Pcm.decode block.format block.data (block.count * block.channels)
    let mapped := Pcm.mapChannels samples block.channels c.target.channels
    let stretched := interpolate Sample.ofFloat Sample.zero mapped c.target.channels block.count
      (c.outputCount block wanted)
    Pcm.encode c.target.format stretched

/-- Converts a block, stretched to the length of `wanted` frames at its own rate. -/
def convert (c : Converter) (block : SampleBlock) (wanted : Nat) :
    Except ConversionFailure (Bytes × Converter) :=
  match c.refusal block with
  | some e => .error e
  | none => .ok (c.render block wanted, { c with source := some block.toPcmFormat })

/-- The block goes through all stages: it is not refused, and it neither passes through nor is
empty. -/
def resamples (c : Converter) (block : SampleBlock) (wanted : Nat) : Bool :=
  (c.refusal block).isNone && !(c.passes block.toPcmFormat && wanted = block.count) &&
    0 < block.count

/-- Whether 64 bits hold the lengths that a block is converted with, and buffers its samples at each
stage, which take four bytes each. -/
def Computes (c : Converter) (block : SampleBlock) (wanted : Nat) : Prop :=
  (block.rate ≠ 0 → block.channels ≠ 0 → block.count * block.frameSize ≤ nat64Max) ∧
  (c.resamples block wanted = true →
    wanted * c.target.rate ≤ nat64Max ∧
    4 * (block.count * block.channels) ≤ bufferMax ∧
    4 * (block.count * c.target.channels) ≤ bufferMax ∧
    4 * (c.outputCount block wanted * c.target.channels) ≤ bufferMax)

instance (c : Converter) (block : SampleBlock) (wanted : Nat) :
    Decidable (c.Computes block wanted) :=
  inferInstanceAs (Decidable (_ ∧ _))

/-- As `convert`; none if the conversion fails. -/
def convert? (c : Converter) (block : SampleBlock) (wanted : Nat) :
    Option (Except ConversionFailure (Bytes × Converter)) :=
  if c.Computes block wanted then some (c.convert block wanted) else none

end Converter

end Playback
