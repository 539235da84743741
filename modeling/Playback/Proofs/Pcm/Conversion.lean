import Mathlib.Algebra.Order.Field.Rat
import Mathlib.Algebra.Order.Floor.Semiring
import Mathlib.Data.Rat.Floor
import Playback.Pcm.Conversion

/-!
# Length of converted sound

A block goes through four stages, each of which has its own count of samples: decoding, mapping of
channels, resampling and encoding. The length of what comes out depends on the number of frames and
on the formats only (`Converter.size_render`), and it is the same whether or not the block takes one
of the two ways around the resampling.
-/

namespace Playback

/-! ## The stages -/

namespace Pcm

theorem size_decode (format : SampleFormat) (data : Bytes) (n : Nat) :
    (decode format data n).size = n := by
  cases format <;> exact Array.size_ofFn

theorem size_encode (format : SampleFormat) (samples : Array Sample) :
    (encode format samples).size = samples.size * format.width := by
  cases format with
  | s16 => simp [encode, int16Bytes, SampleFormat.width, ← Array.sum_toList]
  | f32 => simp [encode, sampleBytes, SampleFormat.width, ← Array.sum_toList]

theorem size_mapChannels {input : Array Sample} {source count : Nat} (target : Nat)
    (hsource : 0 < source) (hinput : input.size = count * source) :
    (mapChannels input source target).size = count * target := by
  have hframes : input.size / source = count := by
    rw [hinput, Nat.mul_div_cancel _ hsource]
  unfold mapChannels
  dsimp only
  rw [hframes]
  by_cases hsame : source = target
  · rw [if_pos hsame, hinput, hsame]
  rw [if_neg hsame]
  by_cases hmono : target = 1
  · rw [if_pos hmono, Array.size_ofFn, hmono, Nat.mul_one]
  · rw [if_neg hmono, Array.size_ofFn]

end Pcm

theorem size_interpolate {S T : Type} [Scalar S] [Add T] [Sub T] [Mul T] (narrow : S → T)
    (silence : T) {input : Array T} {channels inCount outCount : Nat}
    (hinput : input.size = inCount * channels) (hnone : inCount = 0 → outCount = 0) :
    (interpolate narrow silence input channels inCount outCount).size = outCount * channels := by
  unfold interpolate
  split_ifs with hways
  · rcases hways with hsame | hempty
    · rw [hinput, hsame]
    · rw [hinput, hempty, hnone hempty]
  · exact Array.size_ofFn

namespace Converter

/-- The number of frames that a block is stretched to, in the time of the output. -/
theorem outputCount_eq (c : Converter) {block : SampleBlock} (hrate : block.rate ≠ 0)
    (wanted : Nat) :
    c.outputCount block wanted =
      if block.count = 0 then 0 else ⌈(wanted * c.target.rate / block.rate : ℚ)⌉₊ := by
  unfold outputCount
  split_ifs
  · rfl
  have hpos : (0 : ℚ) < block.rate := by exact_mod_cast Nat.pos_of_ne_zero hrate
  refine eq_of_forall_ge_iff fun n => ?_
  rw [Nat.div_le_iff_le_mul_add_pred (Nat.pos_of_ne_zero hrate), Nat.ceil_le, div_le_iff₀ hpos,
    Nat.mul_comm block.rate, Nat.add_le_add_iff_right]
  norm_cast

theorem size_render (c : Converter) {block : SampleBlock} (hrate : block.rate ≠ 0)
    (hchannels : block.channels ≠ 0) (hdata : block.count * block.frameSize ≤ block.data.size)
    (wanted : Nat) :
    (c.render block wanted).size = c.outputCount block wanted * c.target.frameSize := by
  unfold render
  split_ifs with hpasses
  · obtain ⟨hformat, rfl⟩ := hpasses
    simp only [passes, Bool.and_eq_true, decide_eq_true_eq] at hformat
    obtain ⟨⟨hrates, hchannels'⟩, hformats⟩ := hformat
    have hframe : block.frameSize = c.target.frameSize := by
      rw [PcmFormat.frameSize, PcmFormat.frameSize, hchannels', hformats]
    have hcount : c.outputCount block block.count = block.count := by
      unfold outputCount
      split_ifs with hempty
      · exact hempty.symm
      · rw [← hrates, Nat.mul_comm, Nat.mul_add_div (Nat.pos_of_ne_zero hrate),
          Nat.div_eq_of_lt (by omega), Nat.add_zero]
    rw [Array.size_extract, hcount, ← hframe]
    omega
  · have hmapped := Pcm.size_mapChannels c.target.channels (Nat.pos_of_ne_zero hchannels)
      (Pcm.size_decode block.format block.data (block.count * block.channels))
    have hnone : block.count = 0 → c.outputCount block wanted = 0 := fun hempty => if_pos hempty
    dsimp only
    rw [Pcm.size_encode, size_interpolate _ _ hmapped hnone, PcmFormat.frameSize, Nat.mul_assoc]

/-! ## What is refused -/

theorem refusal_unsupported_iff (c : Converter) (block : SampleBlock) :
    (∃ source target, c.refusal block = some (.unsupported source target)) ↔
      block.rate = 0 ∨ block.channels = 0 := by
  unfold refusal
  split_ifs with hformat <;> simp [hformat]

theorem refusal_malformed_iff (c : Converter) (block : SampleBlock) :
    (∃ reason, c.refusal block = some (.malformed reason)) ↔
      ¬(block.rate = 0 ∨ block.channels = 0) ∧
        block.data.size < block.count * block.frameSize := by
  by_cases hformat : block.rate = 0 ∨ block.channels = 0
  · simp [refusal, hformat]
  by_cases hshort : block.data.size < block.count * block.frameSize <;>
    simp [refusal, hformat, hshort]

theorem refusal_eq_none_iff (c : Converter) (block : SampleBlock) :
    c.refusal block = none ↔ ¬(block.rate = 0 ∨ block.channels = 0) ∧
      block.count * block.frameSize ≤ block.data.size := by
  unfold refusal
  split_ifs with hformat hshort
  · simp [hformat]
  · simp [hshort]
  · simp [hformat, Nat.not_lt.1 hshort]

theorem convert_eq_error_iff (c : Converter) (block : SampleBlock) (wanted : Nat)
    (e : ConversionFailure) : c.convert block wanted = .error e ↔ c.refusal block = some e := by
  unfold convert
  cases c.refusal block <;> simp

/-! ## Lengths that do not fit -/

/-- The block is in the output format and is not to be stretched. -/
def Untouched (c : Converter) (block : SampleBlock) (wanted : Nat) : Prop :=
  block.rate = c.target.rate ∧ block.channels = c.target.channels ∧
    block.format = c.target.format ∧ wanted = block.count

/-- A buffer for the samples of some stage of the conversion would be too long. -/
def Overfills (c : Converter) (block : SampleBlock) (wanted : Nat) : Prop :=
  bufferMax < 4 * (block.count * block.channels) ∨
    bufferMax < 4 * (block.count * c.target.channels) ∨
    bufferMax < 4 * (c.outputCount block wanted * c.target.channels)

theorem resamples_iff (c : Converter) (block : SampleBlock) (wanted : Nat) :
    c.resamples block wanted = true ↔
      c.refusal block = none ∧ ¬c.Untouched block wanted ∧ block.count ≠ 0 := by
  unfold resamples passes Untouched
  simp only [Bool.and_eq_true, Option.isNone_iff_eq_none, Bool.not_eq_true', Bool.and_eq_false_iff,
    decide_eq_true_eq, decide_eq_false_iff_not, Nat.pos_iff_ne_zero, and_assoc]
  tauto

/-- A conversion fails because of the length of the block's data, or of those of its samples. -/
theorem convert?_eq_none_iff (c : Converter) (block : SampleBlock) (wanted : Nat) :
    c.convert? block wanted = none ↔
      ¬(block.rate = 0 ∨ block.channels = 0) ∧
        (nat64Max < block.count * block.frameSize ∨
          block.count * block.frameSize ≤ block.data.size ∧ ¬c.Untouched block wanted ∧
            block.count ≠ 0 ∧
            (nat64Max < wanted * c.target.rate ∨ c.Overfills block wanted)) := by
  have hcomputes : c.convert? block wanted = none ↔ ¬c.Computes block wanted := by
    unfold convert?
    split <;> simp [*]
  rw [hcomputes, Computes, resamples_iff, refusal_eq_none_iff, Overfills, ← Nat.not_le,
    ← Nat.not_le, ← Nat.not_le, ← Nat.not_le, ← Nat.not_le]
  tauto

theorem convert?_eq_some_iff (c : Converter) (block : SampleBlock) (wanted : Nat)
    (answer : Except ConversionFailure (Bytes × Converter)) :
    c.convert? block wanted = some answer ↔
      c.Computes block wanted ∧ c.convert block wanted = answer := by
  unfold convert?
  split <;> simp [*]

/-- Where the data is too short, only its own length can fail to fit. -/
theorem computes_of_refused {c : Converter} {block : SampleBlock} {e : ConversionFailure}
    (he : c.refusal block = some e)
    (hlength : block.rate ≠ 0 → block.channels ≠ 0 → block.count * block.frameSize ≤ nat64Max)
    (wanted : Nat) : c.Computes block wanted := by
  refine ⟨hlength, fun hresamples => ?_⟩
  rw [((c.resamples_iff block wanted).1 hresamples).1] at he
  cases he

/-! ## Histories -/

/-- The converter after it was given a block and the number of frames to stretch it to. A block
that is refused leaves it as it is. -/
def afterBlock (c : Converter) (job : SampleBlock × Nat) : Converter :=
  match c.convert job.1 job.2 with
  | .ok (_, c') => c'
  | .error _ => c

theorem afterBlock_of_error {c : Converter} {job : SampleBlock × Nat} {e : ConversionFailure}
    (he : c.convert job.1 job.2 = .error e) : c.afterBlock job = c := by
  rw [afterBlock, he]

theorem target_afterBlock (c : Converter) (job : SampleBlock × Nat) :
    (c.afterBlock job).target = c.target := by
  unfold afterBlock convert
  cases c.refusal job.1 <;> rfl

theorem target_history (c : Converter) (jobs : List (SampleBlock × Nat)) :
    (jobs.foldl afterBlock c).target = c.target := by
  induction jobs generalizing c with
  | nil => rfl
  | cons job jobs ih => exact (ih (c.afterBlock job)).trans (c.target_afterBlock job)

/-- A block is refused because of its format, or else because it is too short, and the converter
stays as it was. Any other block becomes as many frames of the output as its wanted frames last,
rounded up, whatever was converted before; an empty block becomes nothing.

A conversion fails if 64 bits do not hold the length that the block's data must have or the number
of output frames before it is divided by the block's rate, or if a buffer cannot hold the samples of
some stage. -/
theorem converted_length (target : PcmFormat) (history : List (SampleBlock × Nat))
    (block : SampleBlock) (wanted : Nat) :
    let c := history.foldl afterBlock (.new target)
    let frames := if block.count = 0 then 0 else ⌈(wanted * target.rate / block.rate : ℚ)⌉₊
    let length := block.count * block.frameSize
    (c.convert? block wanted = none ↔ ¬(block.rate = 0 ∨ block.channels = 0) ∧
      (nat64Max < length ∨ length ≤ block.data.size ∧ ¬c.Untouched block wanted ∧
        block.count ≠ 0 ∧ (nat64Max < wanted * target.rate ∨ c.Overfills block wanted))) ∧
    ((∃ source target', c.convert? block wanted = some (.error (.unsupported source target'))) ↔
      block.rate = 0 ∨ block.channels = 0) ∧
    ((∃ reason, c.convert? block wanted = some (.error (.malformed reason))) ↔
      ¬(block.rate = 0 ∨ block.channels = 0) ∧ block.data.size < length ∧ length ≤ nat64Max) ∧
    (∀ e, c.convert? block wanted = some (.error e) → c.afterBlock (block, wanted) = c) ∧
    (∀ bytes c', c.convert? block wanted = some (.ok (bytes, c')) →
      bytes.size = frames * target.frameSize) := by
  intro c frames length
  have htarget : c.target = target := target_history (.new target) history
  simp only [convert?_eq_some_iff, convert_eq_error_iff]
  refine ⟨?fails, ?unsupported, ?malformed, ?refused, ?rendered⟩
  case fails =>
    rw [← htarget]
    exact c.convert?_eq_none_iff block wanted
  case unsupported =>
    rw [← c.refusal_unsupported_iff block]
    constructor
    · rintro ⟨source, target', -, he⟩
      exact ⟨source, target', he⟩
    · rintro ⟨source, target', he⟩
      have hformat := (c.refusal_unsupported_iff block).1 ⟨source, target', he⟩
      refine ⟨source, target', computes_of_refused he (fun hrate hchannels => ?_) wanted, he⟩
      exact absurd hformat (by simp [hrate, hchannels])
  case malformed =>
    constructor
    · rintro ⟨reason, hcomputes, he⟩
      obtain ⟨hformat, hshort⟩ := (c.refusal_malformed_iff block).1 ⟨reason, he⟩
      exact ⟨hformat, hshort, hcomputes.1 (fun h => hformat (.inl h)) (fun h => hformat (.inr h))⟩
    · rintro ⟨hformat, hshort, hfits⟩
      obtain ⟨reason, he⟩ := (c.refusal_malformed_iff block).2 ⟨hformat, hshort⟩
      exact ⟨reason, computes_of_refused he (fun _ _ => hfits) wanted, he⟩
  case refused =>
    rintro e ⟨-, he⟩
    exact afterBlock_of_error ((c.convert_eq_error_iff block wanted e).2 he)
  case rendered =>
    rintro bytes c' ⟨-, hconvert⟩
    unfold convert at hconvert
    split at hconvert
    · cases hconvert
    · rename_i hnone
      obtain ⟨rfl, -⟩ := Prod.mk.inj (Except.ok.inj hconvert)
      obtain ⟨hformat, hdata⟩ := (c.refusal_eq_none_iff block).1 hnone
      have hsize :=
        c.size_render (fun h => hformat (.inl h)) (fun h => hformat (.inr h)) hdata wanted
      rwa [c.outputCount_eq (fun h => hformat (.inl h)), htarget] at hsize

/-- Four frames of mono at 8 kHz, wanted as five, after a block that was too short: seven frames of
stereo at 11.025 kHz, which take 56 bytes as floating point numbers. -/
theorem converted_length_upmix :
    let target : PcmFormat := ⟨11025, 2, 3, .f32⟩
    let block : SampleBlock := ⟨⟨8000, 1, 4, .s16⟩, 4, #[0, 1, 0, 2, 0, 3, 0, 4]⟩
    let c := [({ block with count := 9 }, 9), (block, 4)].foldl afterBlock (.new target)
    (∃ e, Converter.convert? (.new target) { block with count := 9 } 9 = some (.error e)) ∧
    ∃ bytes c', c.convert? block 5 = some (.ok (bytes, c')) ∧ bytes.size = 56 := by
  intro target block c
  have hframes : ⌈((5 : ℕ) * (11025 : ℕ) / (8000 : ℕ) : ℚ)⌉₊ = 7 := by
    rw [Nat.ceil_eq_iff (by decide)]
    norm_num
  have hshort : ∃ reason,
      Converter.convert? (.new target) { block with count := 9 } 9 =
        some (.error (.malformed reason)) := by
    obtain ⟨-, -, hmalformed, -⟩ := converted_length target [] { block with count := 9 } 9
    exact hmalformed.2 (by decide)
  obtain ⟨-, -, -, -, hlength⟩ :=
    converted_length target [({ block with count := 9 }, 9), (block, 4)] block 5
  have hcomputes : c.Computes block 5 := by decide
  have hconvert := (c.convert?_eq_some_iff block 5 _).2 ⟨hcomputes, rfl⟩
  obtain ⟨reason, he⟩ := hshort
  have hsize := hlength _ _ hconvert
  have hfour : block.count ≠ 0 := by decide
  rw [if_neg hfour, hframes] at hsize
  exact ⟨⟨_, he⟩, _, _, hconvert, hsize⟩

/-- A block that is said to have so many frames that 64 bits do not hold the number of their bytes
is too short, but it is not refused for that. -/
theorem conversion_overflows :
    let block : SampleBlock := ⟨⟨48000, 2, 3, .s16⟩, 2 ^ 62, #[]⟩
    ¬(block.rate = 0 ∨ block.channels = 0) ∧ block.data.size < block.count * block.frameSize ∧
      ¬∃ reason, Converter.convert? (.new ⟨48000, 2, 3, .s16⟩) block block.count =
        some (.error (.malformed reason)) := by
  intro block
  refine ⟨by decide, by decide, ?_⟩
  have hnone : Converter.convert? (.new ⟨48000, 2, 3, .s16⟩) block block.count = none := by
    unfold convert?
    rw [if_neg (by decide)]
  rintro ⟨reason, he⟩
  rw [hnone] at he
  cases he

end Converter

end Playback
