import Mathlib.Data.List.DropRight
import Mathlib.Data.List.Induction
import Playback.Proofs.Scalar.Rounding
import Playback.Report.Metrics

/-!
# What the metrics tell of the drifts

The metrics keep the extremes of the drifts on both sides of zero, each of them zero at first. What
they tell is the last drift, the largest one and the number of those out of sync since the last
reset, in closed form (`Metrics.Tells`), as long as no drift is the smallest number of 64 bits. The
size of that one does not fit: the call that records it fails without counting it as out of sync,
and the largest drift cannot be asked for until the next reset.
-/

namespace Playback

/-- What can be asked of the metrics. -/
inductive MetricsCall (S : Type) where
  | earlyDrop
  | lateDrop
  | display
  | audioFrame
  | silence
  | conversionError
  /-- A drift in seconds. -/
  | drift (seconds : S)
  | reset

namespace MetricsCall

variable {S : Type} [Scalar S]

/-- The metrics after a call. -/
def perform (m : Metrics) : MetricsCall S → Metrics
  | earlyDrop => m.recordEarlyDrop
  | lateDrop => m.recordLateDrop
  | display => m.recordDisplay
  | audioFrame => m.recordAudioFrame
  | silence => m.recordSilence
  | conversionError => m.recordConversionError
  | drift seconds => m.recordDrift seconds
  | reset => m.resetDrift

/-- Forgets the drifts. -/
def resets : MetricsCall S → Bool
  | reset => true
  | _ => false

/-- The drift that a call records, in microseconds. -/
def micros? : MetricsCall S → Option Int
  | drift seconds => some (Scalar.toInt64 (seconds * 1000000.0))
  | _ => none

end MetricsCall

/-- The largest size of a drift. -/
def largestSize (drifts : List Int) : Nat :=
  (drifts.map Int.natAbs).foldl max 0

/-- A drift of more than a hundred whole milliseconds. -/
def OutOfSync (drift : Int) : Prop :=
  101 ≤ drift.natAbs / 1000

instance (drift : Int) : Decidable (OutOfSync drift) :=
  inferInstanceAs (Decidable (_ ≤ _))

theorem largestSize_concat (drifts : List Int) (drift : Int) :
    largestSize (drifts ++ [drift]) = max (largestSize drifts) drift.natAbs := by
  unfold largestSize
  rw [List.map_append, List.foldl_append]
  rfl

namespace Metrics

/-! ## One drift -/

/-- What is kept of some drifts. -/
structure Tells (m : Metrics) (drifts : List Int) : Prop where
  last : m.drift = drifts.getLast?.getD 0
  ahead : 0 ≤ m.maxAhead
  behind : m.maxBehind ≤ 0
  size : max m.maxAhead (-m.maxBehind) = largestSize drifts
  /-- The lower extreme gets to the smallest number only through a drift of this size. -/
  fits : int64Min ≤ m.maxBehind
  smallest : m.maxBehind = int64Min ↔ int64Min ∈ drifts
  outOfSync : m.outOfSync = drifts.countP fun drift => drift ≠ int64Min ∧ OutOfSync drift
  samples : m.samples = drifts.length

variable {m : Metrics} {drifts : List Int} {drift : Int}

theorem outOfSync_iff (drift : Int) :
    outOfSyncLimit < Int.tdiv (drift.natAbs : Int) 1000 ↔ OutOfSync drift := by
  show (100 : Int) < Int.tdiv (drift.natAbs : Int) 1000 ↔ 101 ≤ drift.natAbs / 1000
  rw [Int.tdiv_eq_ediv_of_nonneg (Int.natCast_nonneg _)]
  omega

/-- Every drift moves one of the extremes or none, and all but the smallest one are looked at for
being out of sync. -/
theorem recordMicros_eq (m : Metrics) (drift : Int) :
    m.recordMicros drift =
      { m with
        drift := drift
        maxAhead := if 0 < drift then max m.maxAhead drift else m.maxAhead
        maxBehind := if 0 < drift then m.maxBehind else min m.maxBehind drift
        outOfSync := m.outOfSync + if drift ≠ int64Min ∧ OutOfSync drift then 1 else 0
        samples := m.samples + 1
        overflowed := m.overflowed || decide (drift = int64Min) } := by
  unfold recordMicros size?
  by_cases hsmallest : drift = int64Min
  · simp [hsmallest]
  · simp only [hsmallest, if_false, Option.any_some, outOfSync_iff]
    by_cases hout : OutOfSync drift <;> simp [hsmallest, hout]

theorem tells_nil (h : m.drift = 0 ∧ m.maxAhead = 0 ∧ m.maxBehind = 0 ∧ m.outOfSync = 0 ∧
    m.samples = 0) : m.Tells [] := by
  obtain ⟨hdrift, hahead, hbehind, hcount, hsamples⟩ := h
  constructor
  case smallest => simp [hbehind, int64Min]
  all_goals simp_all [largestSize, int64Min]

/-- The step lemma: each drift is told. -/
theorem tells_recordMicros (h : m.Tells drifts) (hdrift : FitsInt64 drift) :
    (m.recordMicros drift).Tells (drifts ++ [drift]) := by
  obtain ⟨-, hahead, hbehind, hsize, hfits, hsmallest, hcount, hsamples⟩ := h
  have hlow : int64Min ≤ drift := hdrift.1
  rw [recordMicros_eq]
  constructor
  case last => simp
  case ahead =>
    dsimp only
    split_ifs <;> omega
  case behind =>
    dsimp only
    split_ifs <;> omega
  case size =>
    rw [largestSize_concat]
    dsimp only
    split_ifs <;> omega
  case fits =>
    dsimp only
    split_ifs <;> omega
  case smallest =>
    rw [List.mem_append, List.mem_singleton, ← hsmallest]
    unfold int64Min at *
    dsimp only
    split_ifs <;> omega
  case outOfSync =>
    rw [List.countP_append, List.countP_singleton, ← hcount]
    simp
  case samples =>
    rw [List.length_append, ← hsamples]
    rfl

theorem Tells.maxDriftMs?_eq (h : m.Tells drifts) :
    m.maxDriftMs? =
      if int64Min ∈ drifts then none else some ((largestSize drifts / 1000 : Nat) : Int) := by
  unfold maxDriftMs? size?
  split_ifs with hbehind hmem hmem
  · rfl
  · exact absurd (h.smallest.1 hbehind) hmem
  · exact absurd (h.smallest.2 hmem) hbehind
  · have hsize : max m.maxAhead (m.maxBehind.natAbs : Int) = largestSize drifts := by
      rw [← h.size, Int.ofNat_natAbs_of_nonpos h.behind]
    rw [Option.map_some, hsize, Int.tdiv_eq_ediv_of_nonneg (Int.natCast_nonneg _)]
    rfl

/-! ## Every call -/

variable {S : Type} [Scalar S]

/-- The metrics after some calls. -/
def run (calls : List (MetricsCall S)) : Metrics :=
  calls.foldl MetricsCall.perform {}

/-- The drifts that some calls recorded. -/
def driftsOf (calls : List (MetricsCall S)) : List Int :=
  calls.filterMap MetricsCall.micros?

/-- The calls since the last reset. -/
def sinceReset (calls : List (MetricsCall S)) : List (MetricsCall S) :=
  calls.rtakeWhile fun call => !call.resets

theorem driftsOf_concat (calls : List (MetricsCall S)) (call : MetricsCall S) :
    driftsOf (calls ++ [call]) = driftsOf calls ++ call.micros?.toList := by
  unfold driftsOf
  rw [List.filterMap_append]
  cases hmicros : call.micros? <;> simp [hmicros]

theorem driftsOf_sinceReset_concat (calls : List (MetricsCall S)) (call : MetricsCall S) :
    driftsOf (sinceReset (calls ++ [call])) =
      if call.resets then [] else driftsOf (sinceReset calls) ++ call.micros?.toList := by
  unfold sinceReset
  rw [List.rtakeWhile_concat]
  cases call.resets
  · exact driftsOf_concat _ call
  · rfl

theorem run_concat (calls : List (MetricsCall S)) (call : MetricsCall S) :
    run (calls ++ [call]) = call.perform (run calls) :=
  List.foldl_concat ..

/-- Calls that are not about drifts change other counters. -/
theorem tells_perform [Scalar.Saturates S] (h : m.Tells drifts) (call : MetricsCall S) :
    (call.perform m).Tells (if call.resets then [] else drifts ++ call.micros?.toList) := by
  cases call with
  | reset => exact tells_nil ⟨rfl, rfl, rfl, rfl, rfl⟩
  | drift seconds => exact tells_recordMicros h (Scalar.Saturates.fits_toInt64 _)
  | _ =>
    obtain ⟨hlast, hahead, hbehind, hsize, hfits, hsmallest, hcount, hsamples⟩ := h
    show Tells _ (drifts ++ [])
    rw [List.append_nil]
    exact ⟨hlast, hahead, hbehind, hsize, hfits, hsmallest, hcount, hsamples⟩

/-- The run lemma: the metrics tell of the drifts since the last reset. -/
theorem tells_run [Scalar.Saturates S] (calls : List (MetricsCall S)) :
    (run calls).Tells (driftsOf (sinceReset calls)) := by
  induction calls using List.reverseRecOn with
  | nil => exact tells_nil ⟨rfl, rfl, rfl, rfl, rfl⟩
  | append_singleton calls call ih =>
    rw [run_concat, driftsOf_sinceReset_concat]
    exact tells_perform ih call

/-- A failure is never forgotten. -/
theorem overflowed_run (calls : List (MetricsCall S)) :
    (run calls).overflowed = true ↔ int64Min ∈ driftsOf calls := by
  induction calls using List.reverseRecOn with
  | nil => simp [run, driftsOf]
  | append_singleton calls call ih =>
    rw [run_concat, driftsOf_concat, List.mem_append, ← ih]
    cases call with
    | drift seconds =>
      show ((run calls).recordMicros _).overflowed = true ↔ _ ∨ int64Min ∈ [_]
      rw [recordMicros_eq, List.mem_singleton, Bool.or_eq_true, decide_eq_true_eq,
        eq_comm (a := int64Min)]
    | _ => exact (or_iff_left List.not_mem_nil).symm

/-- What the metrics tell after any calls. With the smallest drift of 64 bits the call that records
it fails, it does not count as out of sync, and there is no largest drift. -/
theorem drifts_told [Scalar.Saturates S] (calls : List (MetricsCall S)) :
    let m := run calls
    let drifts := driftsOf (sinceReset calls)
    (m.overflowed = true ↔ int64Min ∈ driftsOf calls) ∧
    m.currentDriftMs = Int.tdiv (drifts.getLast?.getD 0) 1000 ∧
    m.maxDriftMs? = (if int64Min ∈ drifts then none
      else some ((largestSize drifts / 1000 : Nat) : Int)) ∧
    m.outOfSync = drifts.countP (fun drift => drift ≠ int64Min ∧ OutOfSync drift) ∧
    m.samples = drifts.length ∧ m.outOfSync ≤ m.samples := by
  intro m drifts
  have htells : m.Tells drifts := tells_run calls
  refine ⟨overflowed_run calls, ?last, htells.maxDriftMs?_eq, htells.outOfSync, htells.samples,
    ?count⟩
  case last =>
    unfold currentDriftMs
    rw [htells.last]
  case count =>
    rw [htells.outOfSync, htells.samples]
    exact List.countP_le_length

/-- The lower extreme is the larger one here, and a reset forgets it. -/
theorem drifts_told_again :
    let calls : List (MetricsCall Rat) := [.drift 0.3, .drift (-0.1009), .drift (-0.4)]
    let m := run calls
    let m' := run (calls ++ [.display, .reset, .drift 0.101])
    (m.currentDriftMs = -400 ∧ m.maxDriftMs? = some 400 ∧ m.outOfSync = 2 ∧ m.samples = 3) ∧
      m'.currentDriftMs = 101 ∧ m'.maxDriftMs? = some 101 ∧ m'.outOfSync = 1 ∧
      m'.overflowed = false := by
  intro calls m m'
  have hdrifts : driftsOf (sinceReset calls) = [300000, -100900, -400000] := by decide +kernel
  have hdrifts' : driftsOf (sinceReset (calls ++ [.display, .reset, .drift 0.101])) = [101000] := by
    decide +kernel
  have hall : int64Min ∉ driftsOf (calls ++ [.display, .reset, .drift 0.101]) := by decide +kernel
  obtain ⟨-, hlast, hmax, hcount, hsamples, -⟩ := drifts_told calls
  obtain ⟨hfails, hlast', hmax', hcount', -, -⟩ :=
    drifts_told (calls ++ [.display, .reset, .drift 0.101])
  rw [hdrifts] at hlast hmax hcount hsamples
  rw [hdrifts'] at hlast' hmax' hcount'
  exact ⟨⟨hlast, hmax.trans (by decide), hcount.trans (by decide), hsamples⟩, hlast',
    hmax'.trans (by decide), hcount'.trans (by decide),
    Bool.eq_false_iff.2 fun h => hall (hfails.1 h)⟩

/-- Pictures that are so far behind that their drift is the smallest one: recording it fails. The
drift is there and has been counted, but not as out of sync, and the largest drift is unknown. -/
theorem drift_overflows :
    let m := run [MetricsCall.drift (-10000000000000 : Rat)]
    m.overflowed = true ∧ m.currentDriftMs = -9223372036854775 ∧ m.samples = 1 ∧
      m.outOfSync = 0 ∧ m.maxDriftMs? = none := by
  decide +kernel

end Metrics

end Playback
