import Playback.Timing.TargetDelay

/-!
# Drift of the sound

While sound is not the master it has to follow the master clock. `DriftCorrector` keeps a weighted
average of how far the sound is ahead and, once enough measurements are in and the average is
large enough, asks for a few samples more or fewer than a block holds, by at most a tenth.

The bounds of a correction are computed in 64 bits. A call whose products these do not hold fails
(`DriftCorrector.Computes`).
-/

namespace Playback

/-- Weighted average of the sound's drift. -/
structure DriftCorrector (S : Type) where
  /-- Weighted sum of the measurements. -/
  sum : S
  /-- Number of measurements, counted up to `warmUp`. -/
  count : Nat
  /-- Average drift in seconds below which nothing is corrected. -/
  threshold : S

namespace DriftCorrector

variable {S : Type} [Scalar S]

/-- Measurements before the first correction. -/
def warmUp : Nat := 20

/-- Weight of the past at each measurement: after `warmUp` measurements, a hundredth is left. -/
def decay : S := 0.7943282347242815

/-- Largest correction in percent of a block. -/
def maxPercent : Nat := 10

/-- A corrector without measurements. -/
def new (threshold : S) : DriftCorrector S where
  sum := 0.0
  count := 0
  threshold := threshold

/-- Forgets the measurements. -/
def reset (c : DriftCorrector S) : DriftCorrector S :=
  { c with sum := 0.0, count := 0 }

/-- The gap to the master clock, if it is a drift: finite and no jump. -/
def drift? (diff : Option S) : Option S :=
  diff.filter fun d => Scalar.isFinite d && Scalar.abs d < noSyncThreshold

/-- Takes in how far the sound's clock is ahead of the master clock. Gives the drift if the block is
to make up for it. -/
def measure (c : DriftCorrector S) (diff : Option S) : Option S × DriftCorrector S :=
  match drift? diff with
  | none => (none, c.reset)
  | some drift =>
    let c := { c with sum := drift + decay * c.sum }
    if c.count < warmUp then (none, { c with count := c.count + 1 })
    else if Scalar.abs (c.sum * (1.0 - decay)) < c.threshold then (none, c)
    else (some drift, c)

/-- The length of a block of `count` frames at the given rate that makes up for a drift. -/
def corrected (count : Nat) (drift : S) (rate : Nat) : Nat :=
  let ideal := Scalar.ofNat count + drift * Scalar.ofNat rate
  let lowest := count * (100 - maxPercent) / 100
  let highest := count * (100 + maxPercent) / 100
  let wanted := Scalar.toNat64 (Scalar.max (Scalar.round ideal) 0.0)
  max lowest (min wanted highest)

/-- The number of frames to play for a block of `count` frames at the given rate. `diff` is how
far the sound's clock is ahead of the master clock. -/
def wanted (c : DriftCorrector S) (count : Nat) (diff : Option S) (rate : Nat) :
    Nat × DriftCorrector S :=
  match c.measure diff with
  | (none, c) => (count, c)
  | (some drift, c) => (corrected count drift rate, c)

/-- Whether 64 bits hold the products from which the bounds of a correction are computed, if there
is a correction. -/
def Computes (c : DriftCorrector S) (count : Nat) (diff : Option S) : Prop :=
  (c.measure diff).1.isSome → count * (100 + maxPercent) ≤ nat64Max

instance (c : DriftCorrector S) (count : Nat) (diff : Option S) :
    Decidable (c.Computes count diff) :=
  inferInstanceAs (Decidable (_ → _))

/-- As `wanted`. There is no number if the computation fails; what was measured remains. -/
def wanted? (c : DriftCorrector S) (count : Nat) (diff : Option S) (rate : Nat) :
    Option Nat × DriftCorrector S :=
  let (wanted, c') := c.wanted count diff rate
  (if c.Computes count diff then some wanted else none, c')

end DriftCorrector

end Playback
