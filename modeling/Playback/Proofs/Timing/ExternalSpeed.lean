import Mathlib.Algebra.Order.Ring.Abs
import Mathlib.Tactic.Linarith
import Mathlib.Tactic.NormNum
import Mathlib.Tactic.Ring
import Playback.Proofs.Scalar.Order
import Playback.Timing.ExternalSpeed

/-!
# The speed of the external clock settles

In exact arithmetic the speed of the external clock never leaves its band, whatever the queues hold.
While they hold neither too little nor too much, each call takes it a step towards the normal speed
(`distance_calm`), so it gets there from anywhere in the band. A speed that is not a whole number
of steps away from the normal one jumps over it in the end, and stays within a step of it.

The formula divides by the distance from the normal speed. That this is never zero is said with a
reading of the formula in which a division by zero gives anything whatever (`Exact.dividing`).
-/

namespace Playback

/-- The exact scalars, where a division of `x` by zero gives `quotient x`. -/
@[reducible]
def Exact.dividing (quotient : Rat → Rat) : Scalar Rat :=
  { (inferInstance : Scalar Rat) with div := fun x y => if y = 0 then quotient x else x / y }

/-- The speeds that the external clock may have. -/
def InBand (speed : Rat) : Prop :=
  0.9 ≤ speed ∧ speed ≤ 1.01

/-- The speed is a whole number of steps away from the normal one. -/
def OnGrid (speed : Rat) : Prop :=
  ∃ steps : Int, speed = 1 + steps * 0.001

/-- The queues hold neither too little nor too much. -/
def Calm (queued : Nat) : Prop :=
  3 ≤ queued ∧ queued ≤ 10

variable {speed bound : Rat} {queued steps : Nat} {fills : List Nat}

/-! ## One call -/

theorem externalSpeed_scarce (h : queued ≤ 2) :
    externalSpeed speed queued = max (speed - 0.001) 0.9 := by
  unfold externalSpeed
  rw [if_pos (show queued ≤ scarcePackets from h), Exact.max_eq]
  norm_num [externalSpeedStep, externalSpeedMin]

theorem externalSpeed_ample (h : 10 < queued) :
    externalSpeed speed queued = min (speed + 0.001) 1.01 := by
  have hsome : ¬ queued ≤ scarcePackets := Nat.not_le.2 (lt_trans (by decide) h)
  unfold externalSpeed
  rw [if_neg hsome, if_pos (show amplePackets < queued from h), Exact.min_eq]
  norm_num [externalSpeedStep, externalSpeedMax]

/-- The quotient of a number and its size is its sign, so a step has the same length on either
side. -/
theorem externalSpeed_calm (h : Calm queued) :
    externalSpeed speed queued =
      if speed < 1 then speed + 0.001 else if 1 < speed then speed - 0.001 else speed := by
  have hsome : ¬ queued ≤ scarcePackets := Nat.not_le.2 h.1
  have hfew : ¬ amplePackets < queued := Nat.not_lt.2 h.2
  have hone : (1.0 : Rat) = 1 := by norm_num
  unfold externalSpeed
  rw [if_neg hsome, if_neg hfew, hone, Exact.abs_eq]
  show (if (decide (speed = 1)) = true then speed
    else speed + 0.001 * (1 - speed) / |1 - speed|) = _
  rcases lt_trichotomy speed 1 with hslow | rfl | hfast
  · rw [if_neg (by simp [hslow.ne]), if_pos hslow, abs_of_pos (by linarith), mul_div_assoc,
      div_self (by linarith), mul_one]
  · simp
  · rw [if_neg (by simp [hfast.ne']), if_neg hfast.not_gt, if_pos hfast,
      abs_of_neg (by linarith), mul_div_assoc, div_neg, div_self (by linarith), mul_neg, mul_one,
      sub_eq_add_neg]

theorem externalSpeed_cases (speed : Rat) (queued : Nat) :
    externalSpeed speed queued = max (speed - 0.001) 0.9 ∨
      externalSpeed speed queued = min (speed + 0.001) 1.01 ∨ Calm queued := by
  rcases Nat.lt_or_ge queued 3 with hscarce | hsome
  · exact .inl (externalSpeed_scarce (Nat.le_of_lt_succ hscarce))
  · rcases Nat.lt_or_ge 10 queued with hample | hfew
    · exact .inr (.inl (externalSpeed_ample hample))
    · exact .inr (.inr ⟨hsome, hfew⟩)

theorem le_externalSpeed (h : 0.9 ≤ speed) (queued : Nat) : 0.9 ≤ externalSpeed speed queued := by
  rcases externalSpeed_cases speed queued with heq | heq | hcalm
  · rw [heq]
    exact le_max_right _ _
  · rw [heq]
    exact le_min (by linarith) (by norm_num)
  · rw [externalSpeed_calm hcalm]
    split_ifs <;> linarith

theorem externalSpeed_le (h : speed ≤ 1.01) (queued : Nat) :
    externalSpeed speed queued ≤ 1.01 := by
  rcases externalSpeed_cases speed queued with heq | heq | hcalm
  · rw [heq]
    exact max_le (by linarith) (by norm_num)
  · rw [heq]
    exact min_le_right _ _
  · rw [externalSpeed_calm hcalm]
    split_ifs <;> linarith

theorem InBand.externalSpeed (h : InBand speed) (queued : Nat) :
    InBand (externalSpeed speed queued) :=
  ⟨le_externalSpeed h.1 queued, externalSpeed_le h.2 queued⟩

/-- Both ends of the band are on the grid. -/
theorem OnGrid.externalSpeed (h : OnGrid speed) (queued : Nat) :
    OnGrid (externalSpeed speed queued) := by
  obtain ⟨steps, rfl⟩ := h
  have hdown : OnGrid (1 + steps * 0.001 - 0.001) := ⟨steps - 1, by push_cast; ring⟩
  have hup : OnGrid (1 + steps * 0.001 + 0.001) := ⟨steps + 1, by push_cast; ring⟩
  rcases externalSpeed_cases (1 + steps * 0.001) queued with heq | heq | hcalm
  · rw [heq]
    rcases max_choice (1 + steps * 0.001 - 0.001 : Rat) 0.9 with hmax | hmax
    · rwa [hmax]
    · rw [hmax]
      exact ⟨-100, by norm_num⟩
  · rw [heq]
    rcases min_choice (1 + steps * 0.001 + 0.001 : Rat) 1.01 with hmin | hmin
    · rwa [hmin]
    · rw [hmin]
      exact ⟨10, by norm_num⟩
  · rw [externalSpeed_calm hcalm]
    split_ifs
    · exact hup
    · exact hdown
    · exact ⟨steps, rfl⟩

theorem externalSpeed_step (h : InBand speed) (queued : Nat) :
    |externalSpeed speed queued - speed| ≤ 0.001 := by
  obtain ⟨hlow, hhigh⟩ := h
  rw [abs_le]
  rcases externalSpeed_cases speed queued with heq | heq | hcalm
  · rw [heq]
    constructor
    · linarith [le_max_left (speed - 0.001) 0.9]
    · linarith [max_le (show speed - 0.001 ≤ speed by linarith) hlow]
  · rw [heq]
    constructor
    · linarith [le_min (show speed ≤ speed + 0.001 by linarith) hhigh]
    · linarith [min_le_left (speed + 0.001) 1.01]
  · rw [externalSpeed_calm hcalm]
    split_ifs <;> constructor <;> linarith

theorem externalSpeed_dividing (quotient : Rat → Rat) (speed : Rat) (queued : Nat) :
    @externalSpeed Rat (Exact.dividing quotient) speed queued = externalSpeed speed queued := by
  by_cases hnormal : speed = 1.0
  · -- the normal speed is not corrected
    have hskip : (speed == 1.0) = true := decide_eq_true hnormal
    unfold externalSpeed
    rw [if_pos hskip, if_pos (show (speed == 1.0) = true from hskip)]
    rfl
  · have hdistance : Scalar.abs (1.0 - speed) ≠ 0 := by
      rw [Exact.abs_eq]
      exact abs_ne_zero.2 (sub_ne_zero.2 (Ne.symm hnormal))
    have hdivides : (Exact.dividing quotient).div (externalSpeedStep * (1.0 - speed))
        (Scalar.abs (1.0 - speed)) =
          externalSpeedStep * (1.0 - speed) / Scalar.abs (1.0 - speed) := if_neg hdistance
    unfold externalSpeed
    rw [← hdivides]
    rfl

/-! ## Calm calls -/

/-- A call takes the speed one step nearer, or over the normal speed if it was nearer than that. -/
theorem distance_calm (h : Calm queued) (hne : speed ≠ 1) :
    |externalSpeed speed queued - 1| = |(|speed - 1| - 0.001)| := by
  rw [externalSpeed_calm h]
  rcases lt_or_gt_of_ne hne with hslow | hfast
  · rw [if_pos hslow, abs_of_neg (by linarith : speed - 1 < 0), ← abs_neg]
    congr 1
    ring
  · rw [if_neg hfast.not_gt, if_pos hfast, abs_of_pos (by linarith : 0 < speed - 1)]
    congr 1
    ring

theorem externalSpeed_normal (h : Calm queued) : externalSpeed (1 : Rat) queued = 1 := by
  rw [externalSpeed_calm h, if_neg (lt_irrefl 1), if_neg (lt_irrefl 1)]

/-- A distance of at most `bound`, or of a step, is a step smaller after a call. -/
theorem near_calm (h : Calm queued) (hnear : |speed - 1| ≤ max bound 0.001) :
    |externalSpeed speed queued - 1| ≤ max (bound - 0.001) 0.001 := by
  by_cases hnormal : speed = 1
  · rw [hnormal, externalSpeed_normal h, sub_self, abs_zero]
    exact le_max_of_le_right (by norm_num)
  · rw [distance_calm h hnormal, abs_le]
    have hpos := abs_nonneg (speed - 1)
    rcases le_max_iff.1 hnear with hbound | hstep
    · exact ⟨by linarith [le_max_right (bound - 0.001) 0.001],
        by linarith [le_max_left (bound - 0.001) 0.001]⟩
    · exact ⟨by linarith [le_max_right (bound - 0.001) 0.001],
        by linarith [le_max_right (bound - 0.001) 0.001]⟩

/-! ## Runs -/

theorem inBand_run (h : InBand speed) (fills : List Nat) :
    InBand (fills.foldl externalSpeed speed) := by
  induction fills generalizing speed with
  | nil => exact h
  | cons queued fills ih => exact ih (h.externalSpeed queued)

theorem onGrid_run (h : OnGrid speed) (fills : List Nat) :
    OnGrid (fills.foldl externalSpeed speed) := by
  induction fills generalizing speed with
  | nil => exact h
  | cons queued fills ih => exact ih (h.externalSpeed queued)

theorem dividing_run (quotient : Rat → Rat) (speed : Rat) (fills : List Nat) :
    fills.foldl (@externalSpeed Rat (Exact.dividing quotient)) speed =
      fills.foldl externalSpeed speed := by
  have hcall : @externalSpeed Rat (Exact.dividing quotient) = externalSpeed := by
    funext speed queued
    exact externalSpeed_dividing quotient speed queued
  rw [hcall]

/-- The run lemma: each calm call takes a step off what bounds the distance, down to one step. -/
theorem near_run (hcalm : ∀ queued ∈ fills, Calm queued) (hnear : |speed - 1| ≤ max bound 0.001) :
    |fills.foldl externalSpeed speed - 1| ≤ max (bound - fills.length * 0.001) 0.001 := by
  induction fills generalizing speed bound with
  | nil => simpa using hnear
  | cons queued fills ih =>
    obtain ⟨hfirst, hrest⟩ := List.forall_mem_cons.1 hcalm
    have hleft : bound - (queued :: fills).length * 0.001 =
        bound - 0.001 - fills.length * 0.001 := by
      rw [List.length_cons]
      push_cast
      ring
    rw [hleft]
    exact ih hrest (near_calm hfirst hnear)

/-- As long as the steps do not come to the normal speed, each one is a step towards it. -/
theorem approach_run (hcalm : ∀ queued ∈ fills, Calm queued)
    (hfar : fills.length * 0.001 ≤ |speed - 1|) :
    |fills.foldl externalSpeed speed - 1| = |speed - 1| - fills.length * 0.001 := by
  induction fills generalizing speed with
  | nil => simp
  | cons queued fills ih =>
    obtain ⟨hfirst, hrest⟩ := List.forall_mem_cons.1 hcalm
    rw [List.length_cons] at hfar ⊢
    push_cast at hfar ⊢
    have hnonneg : (0 : Rat) ≤ fills.length * 0.001 := by positivity
    have hne : speed ≠ 1 := by
      rintro rfl
      norm_num at hfar hnonneg
      linarith
    have hcall : |externalSpeed speed queued - 1| = |speed - 1| - 0.001 := by
      rw [distance_calm hfirst hne]
      exact abs_of_nonneg (by linarith)
    rw [List.foldl_cons, ih hrest (by linarith), hcall]
    ring

theorem normal_run (hcalm : ∀ queued ∈ fills, Calm queued) :
    fills.foldl externalSpeed (1 : Rat) = 1 := by
  induction fills with
  | nil => rfl
  | cons queued fills ih =>
    obtain ⟨hfirst, hrest⟩ := List.forall_mem_cons.1 hcalm
    rw [List.foldl_cons, externalSpeed_normal hfirst]
    exact ih hrest

/-- On the grid the steps come to the normal speed, and there they end. -/
theorem arrives_run (hgrid : OnGrid speed) (hcalm : ∀ queued ∈ fills, Calm queued)
    (hlength : |speed - 1| ≤ fills.length * 0.001) : fills.foldl externalSpeed speed = 1 := by
  obtain ⟨steps, rfl⟩ := hgrid
  have hdistance : |(1 + steps * 0.001 - 1 : Rat)| = steps.natAbs * 0.001 := by
    rw [add_sub_cancel_left, abs_mul, abs_of_pos (by norm_num : (0 : Rat) < 0.001),
      Nat.cast_natAbs, Int.cast_abs]
  rw [hdistance] at hlength
  have hsteps : steps.natAbs ≤ fills.length := by
    exact_mod_cast le_of_mul_le_mul_right hlength (by norm_num)
  have htaken : (fills.take steps.natAbs).length = steps.natAbs := by
    rw [List.length_take, Nat.min_eq_left hsteps]
  have harrived : (fills.take steps.natAbs).foldl externalSpeed (1 + steps * 0.001 : Rat) = 1 := by
    have hfar : (fills.take steps.natAbs).length * 0.001 ≤ |(1 + steps * 0.001 - 1 : Rat)| := by
      rw [htaken, hdistance]
    have hgone := approach_run (fun queued hmem => hcalm queued (List.mem_of_mem_take hmem)) hfar
    rw [htaken, hdistance, sub_self, abs_eq_zero, sub_eq_zero] at hgone
    exact hgone
  rw [← List.take_append_drop steps.natAbs fills, List.foldl_append, harrived]
  exact normal_run fun queued hmem => hcalm queued (List.mem_of_mem_drop hmem)

theorem InBand.distance_le (h : InBand speed) : |speed - 1| ≤ 0.1 := by
  obtain ⟨hlow, hhigh⟩ := h
  norm_num at hlow hhigh ⊢
  exact abs_le.2 ⟨by linarith, by linarith⟩

/-- What is known of the speed after calls with any fill levels. -/
structure Settling (start speed : Rat) : Prop where
  band : InBand speed
  step : ∀ queued, |externalSpeed speed queued - speed| ≤ 0.001
  /-- Calm calls take the speed towards the normal one without a detour. -/
  approach : ∀ calm : List Nat, (∀ queued ∈ calm, Calm queued) →
    calm.length * 0.001 ≤ |speed - 1| →
      |calm.foldl externalSpeed speed - 1| = |speed - 1| - calm.length * 0.001
  /-- After so many of them it has arrived, and it stays there. -/
  settled : ∀ calm : List Nat, (∀ queued ∈ calm, Calm queued) → 101 ≤ calm.length →
    |calm.foldl externalSpeed speed - 1| ≤ 0.001 ∧
      (OnGrid start → calm.foldl externalSpeed speed = 1)

/-- From anywhere in the band, and whatever the queues have held, the speed of the external clock is
in the band and settles at the normal speed once the queues are calm. No call divides by zero. -/
theorem external_speed_settles (start : Rat) (hstart : InBand start) (fills : List Nat) :
    Settling start (fills.foldl externalSpeed start) ∧
      ∀ quotient : Rat → Rat, fills.foldl (@externalSpeed Rat (Exact.dividing quotient)) start =
        fills.foldl externalSpeed start := by
  have hband := inBand_run hstart fills
  refine ⟨⟨hband, externalSpeed_step hband, fun calm => approach_run, ?settled⟩,
    fun quotient => dividing_run quotient start fills⟩
  intro calm hcalm hlength
  have hmany : (101 : Rat) ≤ calm.length := by exact_mod_cast hlength
  refine ⟨?_, fun hgrid => ?_⟩
  · calc |calm.foldl externalSpeed (fills.foldl externalSpeed start) - 1|
        ≤ max (0.1 - calm.length * 0.001 : Rat) 0.001 :=
          near_run hcalm (le_max_of_le_left hband.distance_le)
      _ = 0.001 := max_eq_right (by linarith)
  · exact arrives_run (onGrid_run hgrid fills) hcalm (hband.distance_le.trans (by linarith))

/-- A clock at the lowest speed: while the queues are calm it gains a step with each call, and has
its normal speed after a hundred and one of them. -/
theorem external_speed_settles_slow :
    InBand 0.9 ∧ (∀ queued ∈ List.replicate 101 5, Calm queued) ∧
      |(List.replicate 40 5).foldl externalSpeed (0.9 : Rat) - 1| = 0.06 ∧
      (List.replicate 101 5).foldl externalSpeed (0.9 : Rat) = 1 := by
  have hband : InBand 0.9 := ⟨le_refl _, by norm_num⟩
  have hcalm (n : Nat) : ∀ queued ∈ List.replicate n 5, Calm queued := by
    intro queued hmem
    rw [List.eq_of_mem_replicate hmem]
    exact ⟨by decide, by decide⟩
  have hdistance : |(0.9 : Rat) - 1| = 0.1 := by norm_num [abs_of_neg]
  obtain ⟨⟨-, -, happroach, hsettled⟩, -⟩ := external_speed_settles 0.9 hband []
  refine ⟨hband, hcalm 101, ?_, (hsettled _ (hcalm 101) (by simp)).2 ⟨-100, by norm_num⟩⟩
  have hforty := happroach (List.replicate 40 5) (hcalm 40)
  rw [List.foldl_nil, hdistance, List.length_replicate] at hforty
  rw [hforty (by norm_num)]
  norm_num

end Playback
