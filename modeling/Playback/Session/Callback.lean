import Playback.Pcm.Volume
import Playback.Session.Basic
import Playback.Timing.TargetDelay

/-!
# The audio device's callback

The device asks for a number of bytes at a time. They come from the block that is being played
and, when it is used up, from the next frame of the current epoch in the ring; where there is
none, from blocks of silence. Then the audio clock is set to what is heard at that moment: the end
of the block taken last, less all that is still to be played.

The lengths of blocks are computed in 64 bits. A callback that takes a block for which these are not
enough fails (`Session.fill?`). `Session.fill` notes it and goes on without the block.
-/

namespace Playback

namespace Session

variable {S : Type} [Scalar S] {host : Host S}

/-- The number of frames that a block is to be stretched to, so that the sound follows the leading
clock. -/
def wantedFrames (s : Session host) (out : AudioOutput S) (block : SampleBlock) (now : S) :
    Nat × AudioOutput S :=
  if s.master = .audio then (block.count, out)
  else
    let diff := gap (s.audioClock now) (s.masterClock now)
    let (wanted, corrector) := out.corrector.wanted block.count diff block.rate
    (wanted, { out with corrector := corrector })

/-- The length in bytes of the silence that stands for a block that cannot be converted. -/
def substituteLength (out : AudioOutput S) (block : SampleBlock) : Nat :=
  let frames := if 0 < block.rate then block.count * out.spec.rate / block.rate else 0
  frames * out.spec.frameSize

/-- Whether 64 bits hold the length of the silence that stands for a block. -/
def SubstituteComputes (out : AudioOutput S) (block : SampleBlock) : Prop :=
  (0 < block.rate → block.count * out.spec.rate ≤ nat64Max) ∧
    substituteLength out block ≤ bufferMax

instance (out : AudioOutput S) (block : SampleBlock) :
    Decidable (SubstituteComputes out block) :=
  inferInstanceAs (Decidable (_ ∧ _))

/-- Whether 64 bits hold what a block is played with: the bounds of its correction, the lengths at
each stage of its conversion, and the length of the silence if it cannot be converted. -/
def BlockComputes (s : Session host) (out : AudioOutput S) (block : SampleBlock) (now : S) : Prop :=
  (s.master ≠ .audio →
    out.corrector.Computes block.count (gap (s.audioClock now) (s.masterClock now))) ∧
  out.converter.Computes block (s.wantedFrames out block now).1 ∧
  ((out.converter.refusal block).isSome = true → SubstituteComputes out block)

instance (s : Session host) (out : AudioOutput S) (block : SampleBlock) (now : S) :
    Decidable (s.BlockComputes out block now) :=
  inferInstanceAs (Decidable (_ ∧ _))

/-- Converts a frame that was taken from the ring. A block that cannot be converted is replaced by
silence. A block for which 64 bits are not enough is left out, and noted. -/
def convertFrame (s : Session host) (out : AudioOutput S) (frame : AudioFrame S) (now : S) :
    AudioOutput S × Session host :=
  let block := frame.samples
  let computes := decide (s.BlockComputes out block now)
  let (wanted, out) := s.wantedFrames out block now
  let (out, s) :=
    if computes then
      match out.converter.convert block wanted with
      | .ok (data, converter) => ({ out with converter := converter }.load data, s)
      | .error _ =>
        (out.load (out.silence (substituteLength out block)),
          { s with metrics := s.metrics.recordConversionError })
    else ({ out with overflowed := true }.load #[], s)
  let stop :=
    match frame.pts with
    | some pts =>
      if 0 < block.rate then some (pts + Scalar.ofNat block.count / Scalar.ofNat block.rate)
      else none
    | none => none
  ({ out with clock := stop, clockSerial := frame.serial },
    { s with metrics := s.metrics.recordAudioFrame })

/-- Takes the next frame of the current epoch from the ring, and drops those of earlier epochs. A
paused session takes nothing. -/
def takeSound (s : Session host) : Option (AudioFrame S) × Session host :=
  match s.audioStream with
  | none => (none, s)
  | some a =>
    if s.paused then (none, s)
    else
      let (frame, frames) :=
        a.frames.takeFirst (fun frame => frame.serial = a.packets.serial) a.frames.remaining
      (frame, s.onAudio fun a => { a with frames := frames })

/-- Starts the next block: a frame from the ring, or silence. -/
def loadBlock (s : Session host) (out : AudioOutput S) (now : S) : AudioOutput S × Session host :=
  match s.takeSound with
  | (some frame, s) => s.convertFrame out frame now
  | (none, s) =>
    (out.load (out.silence AudioOutput.silenceBytes),
      { s with metrics := s.metrics.recordSilence })

/-- Appends bytes to `data` until it has `count` of them, in at most so many rounds. A round plays
at least one byte, or takes an empty block from the ring. -/
def playUntil (count : Nat) (now : S) :
    Nat → Session host → AudioOutput S → Bytes → Bytes × AudioOutput S × Session host
  | 0, s, out, data => (data, out, s)
  | n + 1, s, out, data =>
    if count ≤ data.size then (data, out, s)
    else
      let (out, s) := if out.unread = 0 then s.loadBlock out now else (out, s)
      let (part, out) := out.play (count - data.size)
      playUntil count now n s out (data ++ part)

/-- Sets the audio clock to what is heard at `now`, and lets the external clock follow. -/
def hear (s : Session host) (out : AudioOutput S) (now : S) : Session host :=
  match s.audioStream, out.clock with
  | some _, some stop =>
    let s := s.onAudio fun a =>
      { a with clock := a.clock.setAt (stop - out.latency) out.clockSerial now }
    match s.audioStream with
    | some a =>
      { s with
        externalClock :=
          s.externalClock.syncTo none a.clock (a.clockValue now) noSyncThreshold now }
    | none => s
  | _, _ => s

/-- Fills a buffer of `count` bytes for the device, at a volume in percent. -/
def fill (s : Session host) (count volume : Nat) (now : S) : Bytes × Session host :=
  match s.output with
  | none => (Array.replicate count 0, s)
  | some out =>
    let rounds := count + (s.audioStream.map (·.frames.remaining)).getD 0
    let (data, out, s) := playUntil count now rounds s out #[]
    let s := { s with output := some out }
    let data := Pcm.applyVolume out.spec.format volume data
    (data, if s.paused then s else s.hear out now)

/-- Whether 64 bits hold the number of bytes that are still to be heard, if the audio clock is set
from it. -/
def HearComputes (s : Session host) (out : AudioOutput S) : Prop :=
  s.paused = false → s.audioStream.isSome = true → out.clock.isSome = true → out.LatencyComputes

instance (s : Session host) (out : AudioOutput S) : Decidable (s.HearComputes out) :=
  inferInstanceAs (Decidable (_ → _ → _ → _))

/-- As `fill`; none if the callback fails. -/
def fill? (s : Session host) (count volume : Nat) (now : S) : Option (Bytes × Session host) :=
  let (data, s) := s.fill count volume now
  if s.output.all fun out => !out.overflowed && s.HearComputes out then some (data, s) else none

end Session

end Playback
