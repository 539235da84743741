import Playback.Proofs.Session.ExactClocks

/-!
# Clocks are continuous

A clock jumps only when it is set, or when it follows another clock that is too far away. Every
other change of a clock goes on from the value that the clock has at that moment (`Continues`), so
between two jumps its value is where it was plus the way it has gone at each of its speeds
(`read_run`). A paused clock goes no way at all.

What carries this is that the stored drift is that of the base in every state that a clock can come
to (`anchored_run`): a clock that stood still goes on from its base, and one that runs shows its
base at the moment of its base.

A clock that follows another one from nearby gets a speed that differs a little from the other's.
The gap between the two is then a line that comes to zero after ten times the threshold
(`Closes`).
-/

namespace Playback

namespace Clock

/-! ## Runs of a clock -/

/-- What can be done to a clock. -/
inductive Change (S : Type) where
  | setAt (pts : S) (serial : Nat) (time : S)
  | clearAt (serial : Nat) (time : S)
  | setSpeed (speed : S)
  | setPaused (paused : Bool)
  /-- It follows `other`, which is read in its own epoch. -/
  | syncTo (epoch : Option Nat) (other : Clock S) (otherEpoch : Option Nat) (threshold : S)

section

variable {S : Type} [Scalar S]

/-- The effect of a change at the moment `now`. -/
def perform (k : Clock S) (now : S) : Change S → Clock S
  | .setAt pts serial time => k.setAt pts serial time
  | .clearAt serial time => k.clearAt serial time
  | .setSpeed speed => k.setSpeed speed now
  | .setPaused paused => k.setPaused paused now
  | .syncTo epoch other otherEpoch threshold =>
    k.syncTo epoch other (other.read otherEpoch now) threshold now

/-- The clock after some changes, each at its moment. -/
def run (k : Clock S) (changes : List (S × Change S)) : Clock S :=
  changes.foldl (fun k c => k.perform c.1 c.2) k

/-- The change does not set the clock. A clock that follows another one is not set if its gap is
below the threshold, or if the other one is silent. -/
def isGentle (k : Clock S) (now : S) : Change S → Bool
  | .setAt .. | .clearAt .. => false
  | .setSpeed _ | .setPaused _ => true
  | .syncTo epoch other otherEpoch threshold =>
    match k.read epoch now, other.read otherEpoch now with
    | _, none => true
    | none, some _ => false
    | some value, some target => Scalar.abs (value - target) < threshold

/-- None of the changes sets the clock. -/
def goesOn (k : Clock S) : List (S × Change S) → Bool
  | [] => true
  | c :: rest => k.isGentle c.1 c.2 && (k.perform c.1 c.2).goesOn rest

/-! ## The drift over a run -/

theorem Anchored.perform {k : Clock S} (h : k.Anchored) (now : S) (c : Change S) :
    (k.perform now c).Anchored := by
  cases c with
  | setAt pts serial time => exact k.anchored_setAt pts serial time
  | clearAt serial time => exact k.anchored_clearAt serial time
  | setSpeed speed => exact h.setSpeed speed now
  | setPaused paused => exact h.setPaused paused now
  | syncTo epoch other otherEpoch threshold => exact h.syncTo epoch other _ threshold now

/-- Whatever is done to a clock, its drift stays that of its base. -/
theorem anchored_run (opened : S) (changes : List (S × Change S)) :
    ((Clock.new opened).run changes).Anchored :=
  List.foldlRecOn changes _ (anchored_new opened) fun _ h c _ => h.perform c.1 c.2

end

/-- How fast the value of a clock grows. -/
def rate (k : Clock Rat) : Rat :=
  if k.paused then 0 else k.speed

/-- How far the clock goes from the moment `since` to the moment `until`, if it is changed in
between. -/
def travelled (k : Clock Rat) (since : Rat) : List (Rat × Change Rat) → Rat → Rat
  | [], ends => (ends - since) * k.rate
  | c :: rest, ends => (c.1 - since) * k.rate + (k.perform c.1 c.2).travelled c.1 rest ends

/-! ## What a clock shows -/

variable {k k' other : Clock Rat} {now later threshold gap : Rat} {epoch otherEpoch : Option Nat}

theorem Anchored.valueAt_eq_rate (h : k.Anchored) (now : Rat) :
    k.valueAt now = k.base.map fun base => base + (now - k.lastUpdated) * k.rate := by
  rw [h.valueAt_eq]
  congr 1
  funext base
  unfold rate
  split_ifs
  · rw [mul_zero, add_zero]
  · rfl

theorem valueAt_later (k : Clock Rat) (now later : Rat) :
    k.valueAt later = (k.valueAt now).map (· + (later - now) * k.rate) := by
  unfold valueAt rate
  rw [Option.map_map]
  congr 1
  funext base
  show _ = (if k.paused then base else _) + _
  split_ifs
  · rw [mul_zero, add_zero]
  · show (k.drift + later - (later - k.lastUpdated) * (1.0 - k.speed) : Rat) =
      k.drift + now - (now - k.lastUpdated) * (1.0 - k.speed) + (later - now) * k.speed
    norm_num
    ring

/-- A clock is a line between two changes. -/
theorem read_later (k : Clock Rat) (epoch : Option Nat) (now later : Rat) :
    k.read epoch later = (k.read epoch now).map (· + (later - now) * k.rate) := by
  unfold read
  split_ifs
  · exact k.valueAt_later now later
  · rfl

theorem valueAt_of_read {value : Rat} (h : k.read epoch now = some value) :
    k.valueAt now = some value := by
  unfold read at h
  split_ifs at h
  exact h

/-- A clock shows its base at the moment of its base. -/
theorem Anchored.valueAt_base (h : k.Anchored) {value : Rat} (hbase : k.base = some value)
    (htime : k.lastUpdated = now) : k.valueAt now = some value := by
  rw [h.valueAt_eq_rate, hbase, htime, sub_self, zero_mul, Option.map_some, add_zero]

/-! ## Changes without a jump -/

/-- The clock `k'` goes on at the moment `now` from where `k` is. -/
structure Continues (k k' : Clock Rat) (now : Rat) : Prop where
  value : k'.valueAt now = k.valueAt now
  serial : k'.serial = k.serial

theorem Continues.read (h : k.Continues k' now) (epoch : Option Nat) :
    k'.read epoch now = k.read epoch now := by
  have hcurrent : k'.isCurrent epoch = k.isCurrent epoch := by
    unfold isCurrent
    rw [h.serial]
  rw [Clock.read, Clock.read, hcurrent, h.value]

theorem continues_of_silent (hsilent : k.valueAt now = none) (hbase : k'.base = k.base)
    (hserial : k'.serial = k.serial) : k.Continues k' now := by
  rw [valueAt_eq_none_iff] at hsilent
  refine ⟨?_, hserial⟩
  rw [valueAt, valueAt, hbase, hsilent]
  rfl

theorem continues_setSpeed (h : k.Anchored) (speed now : Rat) :
    k.Continues (k.setSpeed speed now) now := by
  have hanchored := h.setSpeed speed now
  unfold setSpeed at hanchored ⊢
  rw [anchor_eq] at hanchored ⊢
  cases hvalue : k.valueAt now with
  | none => exact continues_of_silent hvalue rfl rfl
  | some value =>
    rw [hvalue] at hanchored
    exact ⟨(hanchored.valueAt_base rfl rfl).trans hvalue.symm, rfl⟩

theorem continues_setPaused (h : k.Anchored) (paused : Bool) (now : Rat) :
    k.Continues (k.setPaused paused now) now := by
  have hanchored := h.setPaused paused now
  unfold setPaused at hanchored ⊢
  split_ifs at hanchored ⊢ with hsame hpaused
  · exact ⟨rfl, rfl⟩
  · rw [anchor_eq] at hanchored ⊢
    cases hvalue : k.valueAt now with
    | none => exact continues_of_silent hvalue rfl rfl
    | some value =>
      rw [hvalue] at hanchored
      exact ⟨(hanchored.valueAt_base rfl rfl).trans hvalue.symm, rfl⟩
  · -- a clock that goes on has stood at its base, and its drift is that of its base from now on
    have hstill : k.paused = true := by
      cases paused <;> simp_all
    refine ⟨?_, rfl⟩
    rw [hanchored.valueAt_eq_rate, h.valueAt_eq_rate, rate, rate, if_pos hstill]
    simp [restart]

/-- A gap below the threshold is not cut off. -/
theorem clamp_gap (hnear : |gap| < threshold) :
    Scalar.clamp (-gap / threshold) (-1.0) 1.0 = -gap / threshold := by
  have hpos : 0 < threshold := (abs_nonneg gap).trans_lt hnear
  obtain ⟨hlow, hhigh⟩ := abs_lt.1 hnear
  have hge : ¬ -gap / threshold < -1.0 := by
    rw [div_lt_iff₀ hpos]
    norm_num
    linarith
  have hle : ¬ (1.0 : Rat) < -gap / threshold := by
    rw [lt_div_iff₀ hpos]
    norm_num
    linarith
  unfold Scalar.clamp
  rw [if_neg hge, if_neg hle]

/-- A clock that follows another one from nearby stays where it is and gets another speed. -/
theorem syncTo_of_near {value target : Rat} (hvalue : k.read epoch now = some value)
    (hnear : |value - target| < threshold) :
    k.syncTo epoch other (some target) threshold now =
      { k with
        base := some value
        drift := value - now
        lastUpdated := now
        speed := other.speed - 0.1 * (value - target) / threshold } := by
  have hgap : Scalar.abs (value - target) < threshold := by rwa [Exact.abs_eq]
  have hspeed : other.speed + Scalar.clamp (-(value - target) / threshold) (-1.0) 1.0 * 0.1 =
      other.speed - 0.1 * (value - target) / threshold := by
    rw [clamp_gap hnear]
    ring
  unfold syncTo
  rw [hvalue]
  dsimp only
  rw [if_pos hgap]
  exact congrArg (fun speed : Rat =>
    ({ k with base := some value, drift := value - now, lastUpdated := now, speed := speed } :
      Clock Rat)) hspeed

theorem continues_of_near (h : k.Anchored) {value target : Rat}
    (hvalue : k.read epoch now = some value) (hnear : |value - target| < threshold) :
    k.Continues (k.syncTo epoch other (some target) threshold now) now := by
  have hanchored := h.syncTo epoch other (some target) threshold now
  rw [syncTo_of_near hvalue hnear] at hanchored ⊢
  exact ⟨(hanchored.valueAt_base rfl rfl).trans (valueAt_of_read hvalue).symm, rfl⟩

/-- The step lemma: every gentle change goes on from where the clock is. -/
theorem continues_perform (hanchored : k.Anchored) {c : Change Rat}
    (h : k.isGentle now c = true) : k.Continues (k.perform now c) now := by
  cases c with
  | setAt | clearAt => cases h
  | setSpeed speed => exact continues_setSpeed hanchored speed now
  | setPaused paused => exact continues_setPaused hanchored paused now
  | syncTo epoch other otherEpoch threshold =>
    show k.Continues (k.syncTo epoch other (other.read otherEpoch now) threshold now) now
    cases htarget : other.read otherEpoch now with
    | none => exact ⟨rfl, rfl⟩
    | some target =>
      cases hvalue : k.read epoch now with
      | none => simp [isGentle, hvalue, htarget] at h
      | some value =>
        refine continues_of_near hanchored hvalue ?_
        simpa [isGentle, hvalue, htarget, Exact.abs_eq] using h

/-- The run lemma: the value is where it was, and as far on as the clock has gone since. -/
theorem read_run (hanchored : k.Anchored) {changes : List (Rat × Change Rat)}
    (h : k.goesOn changes = true) (epoch : Option Nat) (now later : Rat) :
    (k.run changes).read epoch later =
      (k.read epoch now).map (· + k.travelled now changes later) := by
  induction changes generalizing k now with
  | nil => exact k.read_later epoch now later
  | cons c rest ih =>
    obtain ⟨hgentle, hrest⟩ := Bool.and_eq_true_iff.1 h
    calc (k.run (c :: rest)).read epoch later
        = ((k.perform c.1 c.2).read epoch c.1).map
            (· + (k.perform c.1 c.2).travelled c.1 rest later) :=
          ih (hanchored.perform c.1 c.2) hrest c.1
      _ = (k.read epoch c.1).map (· + (k.perform c.1 c.2).travelled c.1 rest later) := by
          rw [(continues_perform hanchored hgentle).read epoch]
      _ = (k.read epoch now).map (· + k.travelled now (c :: rest) later) := by
          rw [k.read_later epoch now c.1, Option.map_map]
          congr 1
          funext value
          exact add_assoc _ _ _

/-! ## A paused clock -/

theorem paused_setSpeed (k : Clock Rat) (speed now : Rat) :
    (k.setSpeed speed now).paused = k.paused := by
  unfold setSpeed
  rw [anchor_eq]
  split <;> rfl

/-- Changes of the speed of a paused clock take it nowhere. -/
theorem still_speeds (hpaused : k.paused = true) (speeds : List (Rat × Rat)) (now later : Rat) :
    let changes := speeds.map fun s => (s.1, Change.setSpeed s.2)
    k.goesOn changes = true ∧ k.travelled now changes later = 0 := by
  induction speeds generalizing k now with
  | nil =>
    refine ⟨rfl, ?_⟩
    show (later - now) * k.rate = 0
    rw [rate, if_pos hpaused, mul_zero]
  | cons s rest ih =>
    have hstill := (k.paused_setSpeed s.2 s.1).trans hpaused
    obtain ⟨hgoes, hzero⟩ := ih hstill s.1
    refine ⟨hgoes, ?_⟩
    show (s.1 - now) * k.rate + (k.setSpeed s.2 s.1).travelled s.1 _ later = 0
    rw [rate, if_pos hpaused, mul_zero, zero_add]
    exact hzero

/-! ## A clock that follows another one from nearby -/

/-- How far a clock is ahead of another one at a moment. -/
def gapAt (k other : Clock Rat) (epoch otherEpoch : Option Nat) (now : Rat) : Option Rat :=
  Session.gap (k.read epoch now) (other.read otherEpoch now)

/-- The clock was `gap` ahead of the other one at the moment `since`, and closes this gap in ten
times the threshold. -/
structure Closes (k other : Clock Rat) (epoch otherEpoch : Option Nat)
    (gap threshold since : Rat) : Prop where
  line : ∀ t, k.gapAt other epoch otherEpoch (since + t) =
    some (gap * (1 - 0.1 * t / threshold))
  /-- The gap only shrinks until then. -/
  shrinks : ∀ t t' d d', 0 ≤ t → t < t' → t' ≤ 10 * threshold →
    k.gapAt other epoch otherEpoch (since + t) = some d →
      k.gapAt other epoch otherEpoch (since + t') = some d' → |d'| ≤ |d| ∧ (d ≠ 0 → |d'| < |d|)
  vanishes : k.gapAt other epoch otherEpoch (since + 10 * threshold) = some 0

theorem read_of_gapAt (h : k.gapAt other epoch otherEpoch now = some gap) :
    ∃ value target, k.read epoch now = some value ∧ other.read otherEpoch now = some target ∧
      value - target = gap := by
  unfold gapAt Session.gap at h
  split at h
  · rename_i value target hvalue htarget
    exact ⟨value, target, hvalue, htarget, Option.some.inj h⟩
  · cases h

theorem closes_of_line (hpos : 0 < threshold)
    (hline : ∀ t, k.gapAt other epoch otherEpoch (now + t) =
      some (gap * (1 - 0.1 * t / threshold))) :
    k.Closes other epoch otherEpoch gap threshold now := by
  have hleft (t : Rat) : 1 - 0.1 * t / threshold = (10 * threshold - t) / (10 * threshold) := by
    field_simp
    norm_num
    ring
  refine ⟨hline, fun t t' d d' _ hlt hle hd hd' => ?_, ?_⟩
  · obtain rfl := Option.some.inj ((hline t).symm.trans hd)
    obtain rfl := Option.some.inj ((hline t').symm.trans hd')
    have hten : 0 < 10 * threshold := by linarith
    have hless : |1 - 0.1 * t' / threshold| < |1 - 0.1 * t / threshold| := by
      have hlater : 0 ≤ (10 * threshold - t') / (10 * threshold) :=
        div_nonneg (by linarith) hten.le
      have hearlier : (10 * threshold - t') / (10 * threshold) <
          (10 * threshold - t) / (10 * threshold) :=
        div_lt_div_of_pos_right (by linarith) hten
      rw [hleft, hleft, abs_of_nonneg hlater, abs_of_nonneg (hlater.trans hearlier.le)]
      exact hearlier
    rw [abs_mul, abs_mul]
    refine ⟨mul_le_mul_of_nonneg_left hless.le (abs_nonneg gap), fun hne => ?_⟩
    exact mul_lt_mul_of_pos_left hless (abs_pos.2 (left_ne_zero_of_mul hne))
  · rw [hline, hleft, sub_self, zero_div, mul_zero]

/-- If both clocks run, and nobody touches them, the gap vanishes. -/
theorem closes_syncTo (hanchored : k.Anchored)
    (hgap : k.gapAt other epoch otherEpoch now = some gap) (hnear : |gap| < threshold)
    (hruns : k.paused = false) (hother : other.paused = false) :
    (k.syncTo epoch other (other.read otherEpoch now) threshold now).Closes other epoch otherEpoch
      gap threshold now := by
  obtain ⟨value, target, hvalue, htarget, rfl⟩ := read_of_gapAt hgap
  refine closes_of_line ((abs_nonneg _).trans_lt hnear) fun t => ?_
  rw [htarget]
  have hcontinues : k.Continues (k.syncTo epoch other (some target) threshold now) now :=
    continues_of_near hanchored hvalue hnear
  have hnow := hcontinues.read epoch
  have hrate : (k.syncTo epoch other (some target) threshold now).rate =
      other.speed - 0.1 * (value - target) / threshold := by
    rw [syncTo_of_near hvalue hnear, rate, if_neg (by simp [hruns])]
  have hrate' : other.rate = other.speed := if_neg (by simp [hother])
  rw [gapAt, read_later _ epoch now, hnow, hvalue, hrate, other.read_later otherEpoch now, htarget,
    hrate', Option.map_some, Option.map_some]
  refine congrArg some ?_
  show value + _ * _ - (target + _ * _) = _
  ring

theorem speed_syncTo (hgap : k.gapAt other epoch otherEpoch now = some gap)
    (hnear : |gap| < threshold) :
    |(k.syncTo epoch other (other.read otherEpoch now) threshold now).speed - other.speed| <
      0.1 := by
  obtain ⟨value, target, hvalue, htarget, rfl⟩ := read_of_gapAt hgap
  have hpos : 0 < threshold := (abs_nonneg _).trans_lt hnear
  rw [htarget, syncTo_of_near hvalue hnear]
  have hdiff : other.speed - 0.1 * (value - target) / threshold - other.speed =
      -(0.1 * ((value - target) / threshold)) := by ring
  have hsmall : |(value - target) / threshold| < 1 := by
    rw [abs_div, abs_of_pos hpos, div_lt_one hpos]
    exact hnear
  rw [hdiff, abs_neg, abs_mul, abs_of_pos (by norm_num)]
  linarith

/-! ## Every run -/

/-- The value of a clock jumps only when it is set. -/
structure Continuous (k : Clock Rat) : Prop where
  /-- The drift is that of the base. -/
  anchored : k.Anchored
  /-- The value is the base at the moment of the base, and a line from there. -/
  shows : ∀ now, k.valueAt now = k.base.map fun base => base + (now - k.lastUpdated) * k.rate
  setSpeed : ∀ epoch speed now, (k.setSpeed speed now).read epoch now = k.read epoch now
  setPaused : ∀ epoch paused now, (k.setPaused paused now).read epoch now = k.read epoch now
  /-- Changes of the speed, at whatever moments, do not move a paused clock. -/
  paused : k.paused = true → ∀ (speeds : List (Rat × Rat)) epoch now later,
    (speeds.foldl (fun k s => k.setSpeed s.2 s.1) k).read epoch later = k.read epoch now
  /-- Following another clock from nearby changes the speed only. -/
  nudge : ∀ other epoch otherEpoch now gap threshold,
    k.gapAt other epoch otherEpoch now = some gap → |gap| < threshold →
      let k' := k.syncTo epoch other (other.read otherEpoch now) threshold now
      k'.read epoch now = k.read epoch now ∧ |k'.speed - other.speed| < 0.1 ∧
        (k.paused = false → other.paused = false →
          k'.Closes other epoch otherEpoch gap threshold now)
  /-- Between two jumps the value is where it was and as far on as the clock has gone. -/
  travels : ∀ changes, k.goesOn changes = true → ∀ epoch now later,
    (k.run changes).read epoch later =
      (k.read epoch now).map (· + k.travelled now changes later)

/-- Every clock is continuous in every state that it can come to. -/
theorem clock_continuity (opened : Rat) (changes : List (Rat × Change Rat)) :
    ((Clock.new opened).run changes).Continuous := by
  have hanchored := anchored_run opened changes
  constructor
  case anchored => exact hanchored
  case shows => exact hanchored.valueAt_eq_rate
  case setSpeed =>
    intro epoch speed now
    exact (continues_setSpeed hanchored speed now).read epoch
  case setPaused =>
    intro epoch paused now
    exact (continues_setPaused hanchored paused now).read epoch
  case paused =>
    intro hpaused speeds epoch now later
    obtain ⟨hgoes, hzero⟩ := still_speeds hpaused speeds now later
    have hrun := read_run hanchored hgoes epoch now later
    rw [hzero, run, List.foldl_map] at hrun
    simpa [perform] using hrun
  case nudge =>
    intro other epoch otherEpoch now gap threshold hgap hnear
    refine ⟨?_, speed_syncTo hgap hnear, closes_syncTo hanchored hgap hnear⟩
    obtain ⟨value, target, hvalue, htarget, rfl⟩ := read_of_gapAt hgap
    rw [htarget]
    exact (continues_of_near hanchored hvalue hnear).read epoch
  case travels =>
    intro changes hgoes epoch now later
    exact read_run hanchored hgoes epoch now later

/-- A clock that was set to 1, stood still for two seconds, and goes on at double speed, shows 3 a
second later. It has then gone a twentieth too far, and loses that within a second. -/
theorem clock_continuity_nudged :
    let k : Clock Rat := (Clock.new 0).run
      [(0, .setAt 1 0 0), (0, .setPaused true), (1, .setSpeed 2), (2, .setPaused false)]
    let lead : Clock Rat := (Clock.new 3).setAt (59 / 20) 0 3
    k.read none 3 = some 3 ∧
      (k.syncTo none lead (lead.read none 3) 0.1 3).Closes lead none none (1 / 20) 0.1 3 := by
  intro k lead
  have hvalue : k.read none 3 = some 3 := by decide +kernel
  have hgap : k.gapAt lead none none 3 = some (1 / 20) := by decide +kernel
  have hnear : |(1 / 20 : Rat)| < 0.1 := by norm_num [abs_of_pos]
  obtain ⟨-, -, hcloses⟩ := (clock_continuity 0 _).nudge lead none none 3 _ 0.1 hgap hnear
  exact ⟨hvalue, hcloses rfl rfl⟩

end Clock

end Playback
