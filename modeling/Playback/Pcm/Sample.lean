import Playback.Media.Samples

/-!
# Single samples

A `Sample` is a floating point number of 32 bits, kept as its bits. Arithmetic is that of
`Float32` on numbers. On what is not a number it keeps the bits that say why: an operation returns
its first operand that is not a number, marked as quiet, and `Sample.undefined` if both operands
are numbers and the result is none. So samples pass through the conversions with every bit as a
device would see it.

Integer samples stand for fractions of full scale: `Sample.ofInt16` divides by 32768 and
`Sample.toInt16` multiplies by 32767, after cutting to full scale.
-/

namespace Playback

/-- A sample of 32 bits. -/
structure Sample where
  bits : UInt32
  deriving DecidableEq, Inhabited

namespace Sample

/-- The sample as a number. -/
def toFloat32 (s : Sample) : Float32 :=
  Float32.ofBits s.bits

/-- Holds of samples that are not a number. -/
def isNaN (s : Sample) : Bool :=
  0x7f800000 < s.bits &&& 0x7fffffff

/-- The result of an operation on numbers that is not a number. -/
def undefined : Sample :=
  ⟨0xffc00000⟩

/-- A sample that is not a number, marked as quiet. -/
def quiet (s : Sample) : Sample :=
  ⟨s.bits ||| 0x00400000⟩

/-- The sample of a number. -/
def ofFloat32 (x : Float32) : Sample :=
  if x.isNaN then undefined else ⟨x.toBits⟩

/-- The sample nearest to a number. -/
def ofFloat (x : Float) : Sample :=
  ofFloat32 x.toFloat32

/-- Applies an operation on numbers. -/
def combine (f : Float32 → Float32 → Float32) (a b : Sample) : Sample :=
  if a.isNaN then a.quiet
  else if b.isNaN then b.quiet
  else ofFloat32 (f a.toFloat32 b.toFloat32)

instance : Add Sample := ⟨combine (· + ·)⟩

instance : Sub Sample := ⟨combine (· - ·)⟩

instance : Mul Sample := ⟨combine (· * ·)⟩

instance : Div Sample := ⟨combine (· / ·)⟩

/-- Silence. -/
def zero : Sample :=
  ⟨0⟩

/-- Silence with a negative sign, to which samples are added up. -/
def negativeZero : Sample :=
  ⟨0x80000000⟩

/-- The sample that stands for an integer of 16 bits. -/
def ofInt16 (n : Int16) : Sample :=
  ofFloat32 (n.toFloat32 / 32768.0)

/-- The integer of 16 bits nearest to a sample. -/
def toInt16 (s : Sample) : Int16 :=
  let x := s.toFloat32
  let x : Float32 := if x < -1.0 then -1.0 else if 1.0 < x then 1.0 else x
  (x * 32767.0).round.toInt16

end Sample

/-! ### Samples as bytes -/

namespace Pcm

/-- The sample of 16 bits at a byte offset. -/
def readInt16 (data : Bytes) (offset : Nat) : Int16 :=
  let low := (data.getD offset 0).toUInt16
  let high := (data.getD (offset + 1) 0).toUInt16
  (low ||| (high <<< 8)).toInt16

/-- The sample of 32 bits at a byte offset. -/
def readSample (data : Bytes) (offset : Nat) : Sample :=
  let b (k : Nat) : UInt32 := (data.getD (offset + k) 0).toUInt32
  ⟨b 0 ||| (b 1 <<< 8) ||| (b 2 <<< 16) ||| (b 3 <<< 24)⟩

/-- The bytes of an integer of 16 bits. -/
def int16Bytes (n : Int16) : Bytes :=
  let u := n.toUInt16
  #[u.toUInt8, (u >>> 8).toUInt8]

/-- The bytes of a sample of 32 bits. -/
def sampleBytes (s : Sample) : Bytes :=
  let u := s.bits
  #[u.toUInt8, (u >>> 8).toUInt8, (u >>> 16).toUInt8, (u >>> 24).toUInt8]

/-- The first `n` samples of a format, one after another. -/
def decode (format : SampleFormat) (data : Bytes) (n : Nat) : Array Sample :=
  match format with
  | .s16 => Array.ofFn fun i : Fin n => Sample.ofInt16 (readInt16 data (2 * i))
  | .f32 => Array.ofFn fun i : Fin n => readSample data (4 * i)

/-- The bytes of samples in a format. -/
def encode (format : SampleFormat) (samples : Array Sample) : Bytes :=
  match format with
  | .s16 => samples.flatMap fun s => int16Bytes s.toInt16
  | .f32 => samples.flatMap sampleBytes

end Pcm

end Playback
