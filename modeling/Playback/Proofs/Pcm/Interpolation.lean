import Mathlib.Tactic.Linarith
import Mathlib.Tactic.NormNum
import Mathlib.Tactic.Ring
import Playback.Pcm.Interpolation
import Playback.Proofs.Pcm.Conversion
import Playback.Proofs.Scalar.Rounding

/-!
# Interpolation stays inside its input

In exact arithmetic the frames of the output lie at evenly spaced places of the input, from the
first frame to the last. Each place is on a frame or between two neighbouring ones
(`Position.Within`), so every output sample is a mix of two samples of its own channel, and nothing
is read that is not there (`Interpolated`).
-/

namespace Playback

/-! ## Places -/

namespace Position

/-- Where a position is, in input frames. -/
def place (p : Position Rat) : Rat :=
  p.base + p.fraction

/-- The position is on one of `inCount` frames, or between it and the next one. -/
structure Within (p : Position Rat) (inCount : Nat) : Prop where
  base_lt : p.base < inCount
  next_lt : p.next < inCount
  neighbours : p.next = p.base ∨ p.next = p.base + 1
  fraction_nonneg : 0 ≤ p.fraction
  fraction_lt : p.fraction < 1

variable {inCount outCount i j n : Nat}

theorem step_of_le (h : outCount ≤ 1) : (step inCount outCount : Rat) = 0 := by
  rw [step, if_neg (Nat.not_lt.2 h)]
  norm_num

/-- Frame `outCount - 1` of the output is on frame `inCount - 1` of the input. -/
theorem last_mul_step (h : 1 < outCount) :
    ((outCount - 1 : ℕ) : Rat) * step inCount outCount = (inCount - 1 : ℕ) := by
  have hpos : ((outCount - 1 : ℕ) : Rat) ≠ 0 := by
    exact_mod_cast (Nat.sub_pos_of_lt h).ne'
  rw [step, if_pos h]
  exact mul_div_cancel₀ _ hpos

theorem step_nonneg (inCount outCount : Nat) : (0 : Rat) ≤ step inCount outCount := by
  rcases Nat.lt_or_ge 1 outCount with h | h
  · rw [step, if_pos h]
    exact div_nonneg (Nat.cast_nonneg _) (Nat.cast_nonneg _)
  · rw [step_of_le h]

theorem mul_step_mono (h : i ≤ j) :
    (i : Rat) * step inCount outCount ≤ j * step inCount outCount :=
  mul_le_mul_of_nonneg_right (by exact_mod_cast h) (step_nonneg inCount outCount)

theorem mul_step_le (hi : i < outCount) :
    (i : Rat) * step inCount outCount ≤ (inCount - 1 : ℕ) := by
  rcases Nat.lt_or_ge 1 outCount with h | h
  · rw [← last_mul_step h]
    exact mul_step_mono (by omega)
  · rw [step_of_le h, mul_zero]
    exact Nat.cast_nonneg _

/-- With equal counts the frames stay where they are. -/
theorem mul_step_self (hi : i < outCount) : (i : Rat) * step outCount outCount = i := by
  rcases Nat.lt_or_ge 1 outCount with h | h
  · have hpos : ((outCount - 1 : ℕ) : Rat) ≠ 0 := by
      exact_mod_cast (Nat.sub_pos_of_lt h).ne'
    have hone : (step outCount outCount : Rat) = 1 :=
      mul_left_cancel₀ hpos ((last_mul_step h).trans (mul_one _).symm)
    rw [hone, mul_one]
  · obtain rfl : i = 0 := by omega
    rw [Nat.cast_zero, zero_mul]

theorem place_ofFrame (inCount outCount i : Nat) :
    (ofFrame inCount outCount i).place = i * step inCount outCount :=
  add_sub_cancel _ _

theorem base_ofFrame (inCount outCount i : Nat) :
    (ofFrame inCount outCount i : Position Rat).base =
      min nat64Max ⌊(i : Rat) * step inCount outCount⌋₊ :=
  Exact.toNat64_floor _

/-- A place that is a frame leaves nothing to mix. -/
theorem ofFrame_of_whole (hn : n ≤ nat64Max) (hplace : (i : Rat) * step inCount outCount = n) :
    (ofFrame inCount outCount i : Position Rat).base = n ∧
      (ofFrame inCount outCount i : Position Rat).fraction = 0 := by
  have hbase : (ofFrame inCount outCount i : Position Rat).base = n := by
    rw [base_ofFrame, hplace, Nat.floor_natCast, Nat.min_eq_right hn]
  have hsum := place_ofFrame inCount outCount i
  rw [place, hbase, hplace] at hsum
  exact ⟨hbase, add_eq_left.1 hsum⟩

theorem within_ofFrame (hsome : 0 < inCount) (hfits : inCount ≤ nat64Max) (hi : i < outCount) :
    (ofFrame inCount outCount i).Within inCount := by
  have hnonneg : (0 : Rat) ≤ i * step inCount outCount :=
    mul_nonneg (Nat.cast_nonneg _) (step_nonneg inCount outCount)
  have hfloor : ⌊(i : Rat) * step inCount outCount⌋₊ ≤ inCount - 1 :=
    Nat.floor_le_of_le (mul_step_le hi)
  have hbase : (ofFrame inCount outCount i : Position Rat).base =
      ⌊(i : Rat) * step inCount outCount⌋₊ := by
    rw [base_ofFrame]
    omega
  have hnext : (ofFrame inCount outCount i : Position Rat).next =
      min ((ofFrame inCount outCount i : Position Rat).base + 1) (inCount - 1) := rfl
  have hsum := place_ofFrame inCount outCount i
  rw [place, hbase] at hsum
  constructor
  case base_lt => omega
  case next_lt => omega
  case neighbours => omega
  case fraction_nonneg => linarith [Nat.floor_le hnonneg]
  case fraction_lt => linarith [Nat.lt_floor_add_one ((i : Rat) * step inCount outCount)]

end Position

/-! ## Samples -/

/-- The sample of channel `c` in a frame of an interleaved block. -/
def sampleAt? (block : Array Rat) (channels c frame : Nat) : Option Rat :=
  block[frame * channels + c]?

/-- The sample of channel `c` in output frame `i` is a mix of the two input samples of that channel
at a position, and both are there. -/
def MixedAt (input output : Array Rat) (channels c i : Nat) (p : Position Rat) : Prop :=
  ∃ a b, sampleAt? input channels c p.base = some a ∧ sampleAt? input channels c p.next = some b ∧
    sampleAt? output channels c i = some ((1 - p.fraction) * a + p.fraction * b)

/-- What a block of `inCount` frames is like after it was brought to `outCount` frames. -/
structure Interpolated (input output : Array Rat) (channels inCount outCount : Nat) : Prop where
  size : output.size = outCount * channels
  within : ∀ i < outCount, (Position.ofFrame inCount outCount i).Within inCount
  inOrder : ∀ i j, i ≤ j → (Position.ofFrame inCount outCount i).place ≤
    (Position.ofFrame inCount outCount j).place
  mixed : ∀ i < outCount, ∀ c < channels,
    MixedAt input output channels c i (Position.ofFrame inCount outCount i)
  inRange : ∀ c < channels, ∀ lo hi,
    (∀ frame < inCount, ∀ x ∈ sampleAt? input channels c frame, lo ≤ x ∧ x ≤ hi) →
      ∀ i < outCount, ∀ x ∈ sampleAt? output channels c i, lo ≤ x ∧ x ≤ hi
  first : 2 ≤ outCount → ∀ c < channels,
    sampleAt? output channels c 0 = sampleAt? input channels c 0
  last : 2 ≤ outCount → ∀ c < channels,
    sampleAt? output channels c (outCount - 1) = sampleAt? input channels c (inCount - 1)

section Mixing

variable {input output : Array Rat} {channels inCount outCount c i : Nat} {p : Position Rat}

theorem MixedAt.between (h : MixedAt input output channels c i p) (hp : p.Within inCount)
    {lo hi : Rat}
    (hrange : ∀ frame < inCount, ∀ x ∈ sampleAt? input channels c frame, lo ≤ x ∧ x ≤ hi) :
    ∀ x ∈ sampleAt? output channels c i, lo ≤ x ∧ x ≤ hi := by
  intro x hx
  obtain ⟨a, b, ha, hb, hmix⟩ := h
  obtain rfl := Option.some.inj (hmix.symm.trans hx)
  obtain ⟨hloa, hahi⟩ := hrange _ hp.base_lt a ha
  obtain ⟨hlob, hbhi⟩ := hrange _ hp.next_lt b hb
  have hw : 0 ≤ p.fraction := hp.fraction_nonneg
  have hw' : 0 ≤ 1 - p.fraction := by linarith [hp.fraction_lt]
  constructor
  · calc lo = (1 - p.fraction) * lo + p.fraction * lo := by ring
      _ ≤ (1 - p.fraction) * a + p.fraction * b :=
        add_le_add (mul_le_mul_of_nonneg_left hloa hw') (mul_le_mul_of_nonneg_left hlob hw)
  · calc (1 - p.fraction) * a + p.fraction * b
      _ ≤ (1 - p.fraction) * hi + p.fraction * hi :=
        add_le_add (mul_le_mul_of_nonneg_left hahi hw') (mul_le_mul_of_nonneg_left hbhi hw)
      _ = hi := by ring

theorem exists_sampleAt? {frame : Nat} (hinput : input.size = inCount * channels)
    (hframe : frame < inCount) (hc : c < channels) :
    ∃ x, sampleAt? input channels c frame = some x := by
  have hindex : frame * channels + c < input.size := by
    calc frame * channels + c < frame * channels + channels := Nat.add_lt_add_left hc _
      _ = (frame + 1) * channels := (Nat.succ_mul _ _).symm
      _ ≤ inCount * channels := Nat.mul_le_mul_right _ hframe
      _ = input.size := hinput.symm
  exact ⟨_, Array.getElem?_eq_getElem hindex⟩

/-- Where the counts differ, the mixing reads the two samples of its own channel. -/
theorem sampleAt?_interpolate {a b : Rat} (silence : Rat) (hsome : 0 < inCount)
    (hne : inCount ≠ outCount) (hi : i < outCount) (hc : c < channels)
    (ha : sampleAt? input channels c (Position.ofFrame (S := Rat) inCount outCount i).base = some a)
    (hb : sampleAt? input channels c (Position.ofFrame (S := Rat) inCount outCount i).next =
      some b) :
    sampleAt? (interpolate (id : Rat → Rat) silence input channels inCount outCount) channels c i =
      some (a + (b - a) * (Position.ofFrame inCount outCount i).fraction) := by
  have hpos : 0 < channels := Nat.zero_lt_of_lt hc
  have hframe : (i * channels + c) / channels = i := by
    rw [Nat.mul_comm, Nat.mul_add_div hpos, Nat.div_eq_of_lt hc, Nat.add_zero]
  have hchannel : (i * channels + c) % channels = c := by
    rw [Nat.mul_comm, Nat.mul_add_mod, Nat.mod_eq_of_lt hc]
  have hindex : i * channels + c < outCount * channels := by
    rw [← Nat.div_lt_iff_lt_mul hpos, hframe]
    exact hi
  have hways : ¬(inCount = outCount ∨ inCount = 0) := by omega
  unfold sampleAt? at ha hb ⊢
  rw [interpolate, if_neg hways, Array.getElem?_ofFn, dif_pos hindex]
  simp only [hframe, hchannel, Array.getD_eq_getD_getElem?, ha, hb, Option.getD_some, id]

theorem mixedAt_interpolate (silence : Rat) (hsome : 0 < inCount) (hfits : inCount ≤ nat64Max)
    (hinput : input.size = inCount * channels) (hi : i < outCount) (hc : c < channels) :
    MixedAt input (interpolate (id : Rat → Rat) silence input channels inCount outCount)
      channels c i (Position.ofFrame inCount outCount i) := by
  have hwithin := Position.within_ofFrame hsome hfits hi
  obtain ⟨a, ha⟩ := exists_sampleAt? hinput hwithin.base_lt hc
  obtain ⟨b, hb⟩ := exists_sampleAt? hinput hwithin.next_lt hc
  refine ⟨a, b, ha, hb, ?_⟩
  -- With equal counts the block passes through, and each of its frames is a mix of itself.
  by_cases hcounts : inCount = outCount
  · subst hcounts
    obtain ⟨hbase, hfraction⟩ :=
      Position.ofFrame_of_whole (by omega) (Position.mul_step_self hi)
    rw [interpolate, if_pos (.inl rfl), hfraction, ← hbase, ha]
    congr 1
    ring
  · rw [sampleAt?_interpolate silence hsome hcounts hi hc ha hb]
    congr 1
    ring

/-- An output frame that is on an input frame is that frame. -/
theorem sampleAt?_of_whole {frame : Nat} (silence : Rat) (hsome : 0 < inCount)
    (hfits : inCount ≤ nat64Max) (hinput : input.size = inCount * channels) (hi : i < outCount)
    (hc : c < channels) (hframe : frame ≤ nat64Max)
    (hplace : (i : Rat) * Position.step inCount outCount = frame) :
    sampleAt? (interpolate (id : Rat → Rat) silence input channels inCount outCount) channels c i =
      sampleAt? input channels c frame := by
  obtain ⟨hbase, hfraction⟩ := Position.ofFrame_of_whole hframe hplace
  obtain ⟨a, b, ha, -, hmix⟩ := mixedAt_interpolate silence hsome hfits hinput hi hc
  rw [hmix, hfraction, ← hbase, ha]
  congr 1
  ring

end Mixing

/-- In exact arithmetic a block of one or more whole frames is interpolated from its own samples
only, whatever stands for samples that are not there. A count of frames is one that 64 bits hold. -/
theorem interpolation_stays_inside {input : Array Rat} {channels inCount : Nat} (outCount : Nat)
    (silence : Rat) (hsome : 0 < inCount) (hfits : inCount ≤ nat64Max)
    (hinput : input.size = inCount * channels) :
    Interpolated input (interpolate (id : Rat → Rat) silence input channels inCount outCount)
      channels inCount outCount := by
  constructor
  case size => exact size_interpolate id silence hinput fun h => absurd h hsome.ne'
  case within => exact fun i hi => Position.within_ofFrame hsome hfits hi
  case inOrder =>
    intro i j h
    rw [Position.place_ofFrame, Position.place_ofFrame]
    exact Position.mul_step_mono h
  case mixed => exact fun i hi c hc => mixedAt_interpolate silence hsome hfits hinput hi hc
  case inRange =>
    intro c hc lo hi hrange i houtput
    exact (mixedAt_interpolate silence hsome hfits hinput houtput hc).between
      (Position.within_ofFrame hsome hfits houtput) hrange
  case first =>
    intro htwo c hc
    exact sampleAt?_of_whole silence hsome hfits hinput (by omega) hc (Nat.zero_le _)
      (by rw [Nat.cast_zero, zero_mul])
  case last =>
    intro htwo c hc
    exact sampleAt?_of_whole silence hsome hfits hinput (by omega) hc (by omega)
      (Position.last_mul_step htwo)

/-- Three frames of stereo as five: the first and the last one stay, and the new ones are halfway
between their neighbours on either channel. -/
theorem interpolation_stays_inside_stereo :
    let input : Array Rat := #[0, 10, 4, 20, 8, 0]
    let output := interpolate (id : Rat → Rat) 0 input 2 3 5
    (0 < 3 ∧ 3 ≤ nat64Max ∧ input.size = 3 * 2) ∧ Interpolated input output 2 3 5 ∧
      output = #[0, 10, 2, 15, 4, 20, 6, 10, 8, 0] := by
  intro input output
  have hsome : 0 < 3 := by decide
  have hfits : 3 ≤ nat64Max := by decide
  have hinput : input.size = 3 * 2 := rfl
  exact ⟨⟨hsome, hfits, hinput⟩, interpolation_stays_inside 5 0 hsome hfits hinput,
    by decide +kernel⟩

end Playback
