import Mathlib.Data.List.DropRight
import Mathlib.Data.List.Induction
import Playback.Scalar.Exact
import Playback.Timing.DriftCorrector

/-!
# Corrections of the sound's drift

A corrector changes the length of a block by at most a tenth, and it changes nothing before it has
seen twenty gaps in a row that count as drift. What it has seen is told by the calls it got:
`measurements` counts the gaps in the last calls that nothing interrupted, and the corrector's own
counter is this number up to twenty (`DriftCorrector.count_run`).

Only the bounds of a correction can be too large for 64 bits, so a block gets no length exactly when
it is to be corrected and 64 bits do not hold 110 times the number of its frames
(`DriftCorrector.wanted?_eq_none_iff`).
-/

namespace Playback

variable {S : Type} [Scalar S]

/-- A gap that counts as drift: it is known, finite and less than ten seconds. -/
def Usable (diff : Option S) : Prop :=
  ∃ d ∈ diff, Scalar.isFinite d = true ∧ Scalar.abs d < 10.0

theorem isSome_drift?_iff (diff : Option S) :
    (DriftCorrector.drift? diff).isSome ↔ Usable diff := by
  show _ ↔ ∃ d ∈ diff, Scalar.isFinite d = true ∧ Scalar.abs d < noSyncThreshold
  unfold DriftCorrector.drift?
  cases diff <;> simp [Option.filter]

instance (diff : Option S) : Decidable (Usable diff) :=
  decidable_of_iff _ (isSome_drift?_iff diff)

/-- What can be asked of a drift corrector. -/
inductive CorrectorCall (S : Type) where
  /-- The length of a block. -/
  | wanted (count : Nat) (diff : Option S) (rate : Nat)
  | reset
  | setThreshold (threshold : S)

namespace CorrectorCall

/-- The call forgets what was measured before: it is a reset, or its gap does not count. -/
def interrupts : CorrectorCall S → Bool
  | wanted _ diff _ => !decide (Usable diff)
  | reset => true
  | setThreshold _ => false

/-- The call brings a gap that counts. -/
def measures : CorrectorCall S → Bool
  | wanted _ diff _ => decide (Usable diff)
  | reset | setThreshold _ => false

/-- The corrector after a call. -/
def perform (c : DriftCorrector S) : CorrectorCall S → DriftCorrector S
  | wanted count diff rate => (c.wanted? count diff rate).2
  | reset => c.reset
  | setThreshold threshold => { c with threshold := threshold }

end CorrectorCall

/-- The number of gaps that counted, since the last call that interrupted. -/
def measurements (calls : List (CorrectorCall S)) : Nat :=
  (calls.rtakeWhile fun call => !call.interrupts).countP CorrectorCall.measures

theorem measurements_concat (calls : List (CorrectorCall S)) (call : CorrectorCall S) :
    measurements (calls ++ [call]) =
      if call.interrupts then 0 else measurements calls + if call.measures then 1 else 0 := by
  unfold measurements
  rw [List.rtakeWhile_concat]
  cases call.interrupts <;> simp [List.countP_append, List.countP_singleton]

namespace DriftCorrector

variable {c : DriftCorrector S} {diff : Option S} {count rate : Nat}

/-! ## One block -/

theorem drift?_of_not_usable (hdiff : ¬Usable diff) : drift? diff = none := by
  rwa [← isSome_drift?_iff, Option.not_isSome_iff_eq_none] at hdiff

theorem measure_of_not_usable (hdiff : ¬Usable diff) :
    c.measure diff = (none, .new c.threshold) := by
  rw [measure, drift?_of_not_usable hdiff]
  rfl

/-- The average of the drifts is as large as the threshold. -/
def Exceeds (c : DriftCorrector S) (drift : S) : Prop :=
  ¬Scalar.abs ((drift + decay * c.sum) * (1.0 - decay)) < c.threshold

theorem measure_eq_some_iff {drift : S} :
    (c.measure diff).1 = some drift ↔
      drift? diff = some drift ∧ warmUp ≤ c.count ∧ c.Exceeds drift := by
  unfold measure Exceeds
  cases hdrift : drift? diff with
  | none => simp
  | some d =>
    dsimp only
    split_ifs with hcold hsmall
    · simp only [false_iff, not_and]
      intro _ hwarm
      omega
    · simp only [false_iff, not_and, not_not]
      rintro ⟨⟩ _
      exact hsmall
    · simp only [Option.some.injEq]
      constructor
      · rintro rfl
        exact ⟨rfl, Nat.not_lt.1 hcold, hsmall⟩
      · exact And.left

theorem isSome_measure_iff :
    (c.measure diff).1.isSome = true ↔
      warmUp ≤ c.count ∧ ∃ drift ∈ drift? diff, c.Exceeds drift := by
  rw [Option.isSome_iff_exists]
  constructor
  · rintro ⟨drift, h⟩
    obtain ⟨hdrift, hwarm, hexceeds⟩ := measure_eq_some_iff.1 h
    exact ⟨hwarm, drift, hdrift, hexceeds⟩
  · rintro ⟨hwarm, drift, hdrift, hexceeds⟩
    exact ⟨drift, measure_eq_some_iff.2 ⟨hdrift, hwarm, hexceeds⟩⟩

/-- The counter takes part in two ways: below `warmUp` it goes up by one and the block keeps its
length, and from there on it stays. -/
theorem count_measure (hdiff : Usable diff) :
    (c.measure diff).2.count = if c.count < warmUp then c.count + 1 else c.count := by
  obtain ⟨d, hd⟩ := Option.isSome_iff_exists.1 ((isSome_drift?_iff diff).2 hdiff)
  unfold measure
  rw [hd]
  dsimp only
  split_ifs <;> rfl

theorem wanted_eq (c : DriftCorrector S) (count : Nat) (diff : Option S) (rate : Nat) :
    c.wanted count diff rate =
      (((c.measure diff).1.map fun drift => corrected count drift rate).getD count,
        (c.measure diff).2) := by
  unfold wanted
  obtain ⟨_ | drift, c'⟩ := c.measure diff <;> rfl

theorem corrected_bounds (count : Nat) (drift : S) (rate : Nat) :
    90 * count / 100 ≤ corrected count drift rate ∧
      corrected count drift rate ≤ 110 * count / 100 := by
  unfold corrected
  dsimp only [maxPercent]
  omega

theorem wanted_bounds (c : DriftCorrector S) (count : Nat) (diff : Option S) (rate : Nat) :
    90 * count / 100 ≤ (c.wanted count diff rate).1 ∧
      (c.wanted count diff rate).1 ≤ 110 * count / 100 := by
  rw [wanted_eq]
  cases (c.measure diff).1 with
  | none =>
    show 90 * count / 100 ≤ count ∧ count ≤ 110 * count / 100
    omega
  | some drift => exact corrected_bounds count drift rate

theorem wanted_of_measure_eq_none (h : (c.measure diff).1 = none) (count rate : Nat) :
    (c.wanted count diff rate).1 = count := by
  rw [wanted_eq, h]
  rfl

/-! ## Numbers that do not fit -/

theorem wanted?_eq_none_iff :
    (c.wanted? count diff rate).1 = none ↔
      (warmUp ≤ c.count ∧ ∃ drift ∈ drift? diff, c.Exceeds drift) ∧ nat64Max < 110 * count := by
  have hnone : (c.wanted? count diff rate).1 = none ↔ ¬c.Computes count diff := by
    unfold wanted?
    dsimp only
    split <;> simp [*]
  rw [hnone, ← isSome_measure_iff, Computes, Classical.not_imp, Nat.not_le, Nat.mul_comm]
  rfl

theorem wanted?_eq_some {n : Nat} (h : (c.wanted? count diff rate).1 = some n) :
    (c.wanted count diff rate).1 = n := by
  unfold wanted? at h
  dsimp only at h
  split at h
  · exact Option.some.inj h
  · cases h

/-! ## Runs -/

/-- The corrector after some calls. -/
def run (c : DriftCorrector S) (calls : List (CorrectorCall S)) : DriftCorrector S :=
  calls.foldl CorrectorCall.perform c

theorem run_concat (c : DriftCorrector S) (calls : List (CorrectorCall S))
    (call : CorrectorCall S) : c.run (calls ++ [call]) = call.perform (c.run calls) :=
  List.foldl_concat ..

/-- One call keeps the counter at the number of measurements, up to `warmUp`. -/
theorem count_perform {n : Nat} (hcount : c.count = min warmUp n) (call : CorrectorCall S) :
    (call.perform c).count =
      min warmUp (if call.interrupts then 0 else n + if call.measures then 1 else 0) := by
  cases call with
  | reset => rfl
  | setThreshold threshold => exact hcount
  | wanted count diff rate =>
    have hstate : (c.wanted? count diff rate).2 = (c.measure diff).2 :=
      congrArg Prod.snd (c.wanted_eq count diff rate)
    by_cases hdiff : Usable diff
    · simp only [CorrectorCall.perform, CorrectorCall.interrupts, CorrectorCall.measures, hdiff,
        hstate, count_measure hdiff, decide_true, Bool.not_true, if_true, Bool.false_eq_true,
        if_false]
      split_ifs <;> omega
    · simp only [CorrectorCall.perform, CorrectorCall.interrupts, hdiff, hstate,
        measure_of_not_usable hdiff, decide_false, Bool.not_false, if_true]
      rfl

theorem count_run (threshold : S) (calls : List (CorrectorCall S)) :
    (run (.new threshold) calls).count = min warmUp (measurements calls) := by
  induction calls using List.reverseRecOn with
  | nil => rfl
  | append_singleton calls call ih =>
    rw [run_concat, measurements_concat]
    exact count_perform ih call

/-- After any calls a block's length changes by at most a tenth, and not before twenty gaps were
measured without interruption. A gap that does not count changes no length and leaves a corrector
that has measured nothing.

There is a length unless the block is to be corrected and is so long that 64 bits do not hold the
products from which the bounds of the correction are computed. -/
theorem correction_bounded (threshold : S) (calls : List (CorrectorCall S)) (count : Nat)
    (diff : Option S) (rate : Nat) :
    let c := run (.new threshold) calls
    let result := c.wanted? count diff rate
    (result.1 = none ↔ 20 ≤ measurements calls ∧ (∃ drift ∈ drift? diff, c.Exceeds drift) ∧
      nat64Max < 110 * count) ∧
    (∀ n, result.1 = some n → (90 * count / 100 ≤ n ∧ n ≤ 110 * count / 100) ∧
      (n ≠ count → 20 ≤ measurements calls)) ∧
    (¬Usable diff → result = (some count, .new c.threshold)) := by
  intro c result
  have hcount : c.count = min warmUp (measurements calls) := count_run threshold calls
  have hwarm : warmUp ≤ c.count ↔ 20 ≤ measurements calls := by
    rw [hcount]
    exact Nat.le_min.trans ⟨And.right, fun h => ⟨Nat.le_refl _, h⟩⟩
  refine ⟨?fails, fun n hn => ?bounded, fun hdiff => ?forgets⟩
  case fails =>
    rw [← hwarm, ← and_assoc]
    exact wanted?_eq_none_iff
  case bounded =>
    obtain rfl := wanted?_eq_some hn
    refine ⟨c.wanted_bounds count diff rate, fun hchanged => hwarm.1 ?_⟩
    by_contra hcold
    have hnone : (c.measure diff).1 = none :=
      Option.not_isSome_iff_eq_none.1 fun hcorrects => hcold (isSome_measure_iff.1 hcorrects).1
    exact hchanged (wanted_of_measure_eq_none hnone count rate)
  case forgets =>
    have hmeasure := measure_of_not_usable (c := c) hdiff
    have hcomputes : c.Computes count diff := by
      intro hcorrects
      rw [hmeasure] at hcorrects
      cases hcorrects
    show (if c.Computes count diff then _ else none, (c.wanted count diff rate).2) = _
    rw [if_pos hcomputes, wanted_eq, hmeasure]

/-- Sound that is half a second ahead: the block after twenty others gets as many frames more as it
may, and a gap that is not known starts the measurements again. -/
theorem correction_bounded_ahead :
    let call : CorrectorCall Rat := .wanted 1000 (some 0.5) 48000
    let calls := List.replicate 20 call
    let c := run (.new 0.01) calls
    ((c.wanted? 1000 (some 0.5) 48000).1 = some 1100 ∧ 1100 ≤ 110 * 1000 / 100 ∧
      20 ≤ measurements calls) ∧
      ¬Usable (none : Option Rat) ∧ c.wanted? 1000 none 48000 = (some 1000, .new c.threshold) := by
  intro call calls c
  have hlonger : (c.wanted? 1000 (some 0.5) 48000).1 = some 1100 := by decide +kernel
  have hchanged : 1100 ≠ 1000 := by decide
  have hunknown : ¬Usable (none : Option Rat) := by decide
  obtain ⟨-, hbounded, -⟩ := correction_bounded 0.01 calls 1000 (some 0.5) 48000
  obtain ⟨⟨-, hhighest⟩, hwarm⟩ := hbounded 1100 hlonger
  obtain ⟨-, -, hreset⟩ := correction_bounded 0.01 calls 1000 none 48000
  exact ⟨⟨hlonger, hhighest, hwarm hchanged⟩, hunknown, hreset hunknown⟩

/-- A block of so many frames that 64 bits do not hold a hundred times their number gets no length
when it is to be corrected. -/
theorem correction_overflows :
    let count := 1 <<< 60
    let calls := List.replicate 20 (.wanted count (some 0.5) 48000 : CorrectorCall Rat)
    ¬∃ n, ((run (.new 0.01) calls).wanted? count (some 0.5) 48000).1 = some n ∧
      90 * count / 100 ≤ n ∧ n ≤ 110 * count / 100 := by
  intro count calls
  have hnone : ((run (.new 0.01) calls).wanted? count (some 0.5) 48000).1 = none := by
    decide +kernel
  rintro ⟨n, hn, -⟩
  rw [hnone] at hn
  cases hn

end DriftCorrector

end Playback
