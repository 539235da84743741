import Playback.Scalar

/-!
# Metrics of a session

Counters of what became of the frames, and the drift of the pictures against the master clock.
Drifts are measured in microseconds. Their extremes are kept on both sides of zero, and a drift of
more than `Metrics.outOfSyncLimit` milliseconds counts as out of sync.

A drift is a number of 64 bits, and the size of the smallest of these needs one bit more. A call
that needs this size fails: it goes no further, and what it has done until then remains.
-/

namespace Playback

/-- Counters of one session. -/
structure Metrics where
  /-- Pictures dropped before they reached the ring. -/
  earlyDrops : Nat := 0
  /-- Pictures passed over to catch up. -/
  lateDrops : Nat := 0
  /-- Pictures accepted for display. -/
  displayed : Nat := 0
  /-- Blocks of sound taken from the ring. -/
  audioFrames : Nat := 0
  /-- Blocks of silence played because no sound was ready. -/
  silences : Nat := 0
  /-- Blocks that could not be converted. -/
  conversionErrors : Nat := 0
  /-- Latest drift in microseconds; positive if the pictures are ahead. -/
  drift : Int := 0
  /-- Largest drift ahead. -/
  maxAhead : Int := 0
  /-- Largest drift behind, as a negative number. -/
  maxBehind : Int := 0
  /-- Drifts out of sync. -/
  outOfSync : Nat := 0
  /-- Drifts recorded. -/
  samples : Nat := 0
  /-- A call that recorded a drift has failed. -/
  overflowed : Bool := false
  deriving DecidableEq, Inhabited

namespace Metrics

variable {S : Type} [Scalar S]

/-- Largest drift that counts as in sync, in milliseconds. -/
def outOfSyncLimit : Int := 100

/-- Counts a picture dropped before it reached the ring. -/
def recordEarlyDrop (m : Metrics) : Metrics :=
  { m with earlyDrops := m.earlyDrops + 1 }

/-- Counts a picture passed over to catch up. -/
def recordLateDrop (m : Metrics) : Metrics :=
  { m with lateDrops := m.lateDrops + 1 }

/-- Counts a picture accepted for display. -/
def recordDisplay (m : Metrics) : Metrics :=
  { m with displayed := m.displayed + 1 }

/-- Counts a block of sound. -/
def recordAudioFrame (m : Metrics) : Metrics :=
  { m with audioFrames := m.audioFrames + 1 }

/-- Counts a block of silence. -/
def recordSilence (m : Metrics) : Metrics :=
  { m with silences := m.silences + 1 }

/-- Counts a block that could not be converted. -/
def recordConversionError (m : Metrics) : Metrics :=
  { m with conversionErrors := m.conversionErrors + 1 }

/-- The size of a drift, if 64 bits hold it. -/
def size? (drift : Int) : Option Int :=
  if drift = int64Min then none else some drift.natAbs

/-- Records a drift in microseconds. Its size is asked for last. -/
def recordMicros (m : Metrics) (drift : Int) : Metrics :=
  let large := (size? drift).any fun size => outOfSyncLimit < Int.tdiv size 1000
  { m with
    drift := drift
    maxAhead := if 0 < drift then max m.maxAhead drift else m.maxAhead
    maxBehind := if 0 < drift then m.maxBehind else min m.maxBehind drift
    samples := m.samples + 1
    outOfSync := if large then m.outOfSync + 1 else m.outOfSync
    overflowed := m.overflowed || (size? drift).isNone }

/-- Records a drift in seconds, cut to microseconds. -/
def recordDrift (m : Metrics) (drift : S) : Metrics :=
  m.recordMicros (Scalar.toInt64 (drift * 1000000.0))

/-- The latest drift in milliseconds. -/
def currentDriftMs (m : Metrics) : Int :=
  Int.tdiv m.drift 1000

/-- The largest drift on either side in milliseconds. There is none if asking for it fails. -/
def maxDriftMs? (m : Metrics) : Option Int :=
  (size? m.maxBehind).map fun behind => Int.tdiv (max m.maxAhead behind) 1000

/-- Share of the recorded drifts that were out of sync, in percent. -/
def outOfSyncPercent (m : Metrics) : S :=
  if m.samples = 0 then 0.0
  else Scalar.ofNat m.outOfSync * 100.0 / Scalar.ofNat m.samples

/-- Forgets the drifts, as after a seek. -/
def resetDrift (m : Metrics) : Metrics :=
  { m with drift := 0, maxAhead := 0, maxBehind := 0, outOfSync := 0, samples := 0 }

/-- A short text for logs, which tells the largest drift. -/
def summary? (m : Metrics) : Option String :=
  m.maxDriftMs?.map fun maxDrift =>
    "PlaybackMetrics \x7b frame_drops_early: " ++ toString m.earlyDrops ++
      ", frame_drops_late: " ++ toString m.lateDrops ++
      ", frames_displayed: " ++ toString m.displayed ++
      ", max_drift_ms: " ++ toString maxDrift ++ " \x7d"

end Metrics

end Playback
