import Mathlib.Tactic.Linarith
import Mathlib.Tactic.NormNum
import Mathlib.Tactic.Ring
import Playback.Proofs.Scalar.Order
import Playback.Timing.TargetDelay

/-!
# The delay follows the gap

In exact arithmetic the delay of the next picture never decreases as the gap between the clocks
grows. It is the nominal delay as long as the gap is small; a picture that is behind never waits
longer than that, and one that is ahead never less (`FollowsGap`). With one clock silent, or with
the pictures' own clock in the lead, there is no gap to follow.
-/

namespace Playback

variable {nominal threshold longest gap x y : Rat} {master : SyncMaster}

/-- The delay of a picture as a function of the gap, which is positive if the pictures are ahead.
Gaps of `longest` seconds and more are not believed. -/
structure FollowsGap (nominal threshold longest : Rat) (delay : Option Rat → Rat) : Prop where
  nonneg : ∀ gap, 0 ≤ delay gap
  mono : ∀ x y, |x| < longest → |y| < longest → x ≤ y → delay (some x) ≤ delay (some y)
  behind : ∀ x < 0, delay (some x) ≤ nominal
  ahead : ∀ x > 0, nominal ≤ delay (some x)
  unmoved : ∀ gap, (∀ x ∈ gap, longest ≤ |x| ∨ |x| < threshold) → delay gap = nominal
  /-- A picture that is behind makes up for the gap, as far as its delay allows. -/
  shortened : ∀ x, |x| < longest → x ≤ -threshold → delay (some x) = max (nominal + x) 0
  /-- A long picture that is ahead waits for as long as the gap in addition, and a short one stays
  for twice its time. -/
  lengthened : ∀ x, |x| < longest → threshold ≤ x →
    delay (some x) = nominal + if 0.1 < nominal then x else nominal

/-! ## Gaps that are believed -/

/-- The nominal delay with the correction for a gap. -/
def corrected (nominal threshold gap : Rat) : Rat :=
  if gap ≤ -threshold then max (nominal + gap) 0
  else if threshold ≤ gap then nominal + if 0.1 < nominal then gap else nominal
  else nominal

theorem corrected_of_small (hsmall : |gap| < threshold) :
    corrected nominal threshold gap = nominal := by
  obtain ⟨hlow, hhigh⟩ := abs_lt.1 hsmall
  unfold corrected
  rw [if_neg (not_le.2 hlow), if_neg (not_le.2 hhigh)]

theorem corrected_of_ahead (hpos : 0 < threshold) (hgap : threshold ≤ gap) :
    corrected nominal threshold gap =
      nominal + if 0.1 < nominal then gap else nominal := by
  unfold corrected
  rw [if_neg (by linarith), if_pos hgap]

theorem corrected_le (hnominal : 0 ≤ nominal) (hpos : 0 < threshold) (hgap : gap ≤ 0) :
    corrected nominal threshold gap ≤ nominal := by
  unfold corrected
  rw [if_neg (not_le.2 (hgap.trans_lt hpos))]
  split_ifs
  · exact max_le (by linarith) hnominal
  · exact le_refl nominal

theorem le_corrected (hnominal : 0 ≤ nominal) (hpos : 0 < threshold) (hgap : 0 ≤ gap) :
    nominal ≤ corrected nominal threshold gap := by
  unfold corrected
  split_ifs <;> linarith

theorem corrected_nonneg (hnominal : 0 ≤ nominal) (hpos : 0 < threshold) :
    0 ≤ corrected nominal threshold gap := by
  rcases le_total 0 gap with hahead | hbehind
  · exact hnominal.trans (le_corrected hnominal hpos hahead)
  · unfold corrected
    rw [if_neg (not_le.2 (hbehind.trans_lt hpos))]
    split_ifs
    · exact le_max_right _ _
    · exact hnominal

/-- The nominal delay lies between the corrections for gaps on different sides of zero, so only two
gaps on the same side are compared. -/
theorem corrected_mono (hnominal : 0 ≤ nominal) (hpos : 0 < threshold) (hle : x ≤ y) :
    corrected nominal threshold x ≤ corrected nominal threshold y := by
  rcases le_total x 0 with hx | hx
  · rcases le_total 0 y with hy | hy
    · exact (corrected_le hnominal hpos hx).trans (le_corrected hnominal hpos hy)
    · by_cases hmoved : y ≤ -threshold
      · unfold corrected
        rw [if_pos (hle.trans hmoved), if_pos hmoved]
        exact max_le_max_right 0 (by linarith)
      · have hstays : corrected nominal threshold y = nominal :=
          corrected_of_small (abs_lt.2 ⟨not_le.1 hmoved, hy.trans_lt hpos⟩)
        rw [hstays]
        exact corrected_le hnominal hpos hx
  · by_cases hmoved : threshold ≤ x
    · rw [corrected_of_ahead hpos hmoved, corrected_of_ahead hpos (hmoved.trans hle)]
      split_ifs <;> linarith
    · have hstays : corrected nominal threshold x = nominal :=
        corrected_of_small (abs_lt.2 ⟨by linarith, not_le.1 hmoved⟩)
      rw [hstays]
      exact le_corrected hnominal hpos (hx.trans hle)

/-- A picture without a nominal delay has none to shorten and none to double. -/
theorem corrected_zero (hpos : 0 < threshold) : corrected 0 threshold gap = 0 := by
  unfold corrected
  split_ifs with hbehind hahead hlong
  · exact max_eq_right (by linarith)
  · norm_num at hlong
  · exact add_zero 0
  · rfl

/-! ## All gaps -/

theorem nominal_eq (delay : Rat) : Scalar.max delay 0.0 = max delay 0 := by
  rw [Exact.max_eq]
  norm_num

theorem targetDelay_video (delay : Rat) (gap : Option Rat) (longest : Rat) :
    targetDelay delay .video gap longest = max delay 0 :=
  nominal_eq delay

theorem targetDelay_none (delay longest : Rat) (master : SyncMaster) :
    targetDelay delay master none longest = max delay 0 := by
  unfold targetDelay
  rw [nominal_eq]
  cases master <;> rfl

theorem targetDelay_some (hmaster : master ≠ .video) (delay gap longest : Rat) :
    targetDelay delay master (some gap) longest =
      if |gap| < longest then corrected (max delay 0) (max 0.04 (min 0.1 (max delay 0))) gap
      else max delay 0 := by
  have hclamp (x : Rat) :
      Scalar.clamp x syncThresholdMin syncThresholdMax = max 0.04 (min 0.1 x) :=
    Exact.clamp_eq (by norm_num [syncThresholdMin, syncThresholdMax])
  have hdouble (x : Rat) : x * 2.0 = x + x := by
    norm_num
    ring
  have hbelieved : (Scalar.isFinite gap && decide (Scalar.abs gap < longest)) =
      decide (|gap| < longest) := by
    rw [Exact.abs_eq]
    rfl
  unfold targetDelay corrected
  cases master with
  | video => exact absurd rfl hmaster
  | audio | external =>
    simp only [nominal_eq, hclamp, hdouble, hbelieved, decide_eq_true_eq, doublingLimit]
    split_ifs <;> rfl

/-- Unless the pictures' own clock leads, the delay follows the gap, whatever the nominal delay
is. -/
theorem targetDelay_follows_gap (hmaster : master ≠ .video) (delay longest : Rat) :
    FollowsGap (max delay 0) (max 0.04 (min 0.1 (max delay 0))) longest
      fun gap => targetDelay delay master gap longest := by
  have hnominal : 0 ≤ max delay 0 := le_max_right _ _
  have hpos : 0 < max 0.04 (min 0.1 (max delay 0)) :=
    lt_of_lt_of_le (by norm_num) (le_max_left _ _)
  have hsome := targetDelay_some hmaster delay
  constructor
  case nonneg =>
    rintro (_ | gap)
    · rw [targetDelay_none]
      exact hnominal
    · rw [hsome]
      split_ifs
      · exact corrected_nonneg hnominal hpos
      · exact hnominal
  case mono =>
    intro x y hx hy hle
    rw [hsome, hsome, if_pos hx, if_pos hy]
    exact corrected_mono hnominal hpos hle
  case behind =>
    intro x hx
    rw [hsome]
    split_ifs
    · exact corrected_le hnominal hpos hx.le
    · exact le_refl _
  case ahead =>
    intro x hx
    rw [hsome]
    split_ifs
    · exact le_corrected hnominal hpos hx.le
    · exact le_refl _
  case unmoved =>
    rintro (_ | gap) hgap
    · exact targetDelay_none delay longest master
    · rw [hsome]
      split_ifs with hbelieved
      · exact corrected_of_small ((hgap gap rfl).resolve_left (not_le.2 hbelieved))
      · rfl
  case shortened =>
    intro x hx hbehind
    rw [hsome, if_pos hx, corrected, if_pos hbehind]
  case lengthened =>
    intro x hx hahead
    rw [hsome, if_pos hx, corrected_of_ahead hpos hahead]

/-- A picture of a fifth of a second with the sound in the lead: it makes up for a gap of 0.15
seconds on either side, and leaves one of 0.05 seconds alone. -/
theorem targetDelay_follows_gap_long :
    targetDelay (0.2 : Rat) .audio (some (-0.15)) 10 = 0.05 ∧
      targetDelay (0.2 : Rat) .audio (some 0.15) 10 = 0.35 ∧
      targetDelay (0.2 : Rat) .audio (some 0.05) 10 = 0.2 := by
  have hmaster : SyncMaster.audio ≠ .video := by decide
  obtain ⟨-, -, -, -, hunmoved, hshortened, hlengthened⟩ :=
    targetDelay_follows_gap hmaster 0.2 10
  refine ⟨?behind, ?ahead, ?small⟩
  case behind =>
    refine (hshortened (-0.15) ?_ ?_).trans ?_ <;> norm_num
  case ahead =>
    refine (hlengthened 0.15 ?_ ?_).trans ?_ <;> norm_num
  case small =>
    refine (hunmoved (some 0.05) ?_).trans ?_ <;> norm_num

end Playback
