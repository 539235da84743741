import Mathlib.Algebra.Order.Floor.Semiring
import Mathlib.Tactic.Linarith
import Mathlib.Tactic.NormNum
import Playback.Proofs.Scalar.Order
import Playback.Proofs.Scalar.Rounding
import Playback.Proofs.Synthetic.Interleaving

/-!
# Where a seek lands

The packets of a stream start at the multiples of one length (`Grid`). The number of packets is
rounded up from the end of the source, and a seek rounds down from its target. In exact arithmetic
a seek therefore moves each stream to the last packet that starts at or before the target, as long
as the target is before the end of the last packet. A target at the end of a source whose last
packet ends there too is one packet too far: the stream is over then (`LandsAt`).
-/

namespace Playback

namespace Synthetic

/-- Whether a source has a stream of a kind. -/
def Config.Has (c : Config Rat) : MediaKind → Prop
  | .video => c.video.isSome
  | .audio => c.audio.isSome

/-- The streams of a source have packets of positive length. -/
structure Config.Steady (c : Config Rat) : Prop where
  video : ∀ v ∈ c.video, 0 < v.fps
  audio : ∀ a ∈ c.audio, 0 < a.rate ∧ 0 < a.samplesPerPacket

/-! ## Packets at equal distances -/

namespace Video

theorem time_eq {v : Video Rat} (hfps : 0 < v.fps) (n : Nat) : v.time n = n / v.fps := by
  rw [time, Nat.max_eq_left hfps]
  rfl

theorem packets_eq (v : Video Rat) (duration : Rat) :
    v.packets duration = min nat64Max ⌈duration * v.fps⌉₊ :=
  Exact.toNat64_ceil _

theorem packetAt_eq (v : Video Rat) (t : Rat) :
    v.packetAt t = min nat64Max ⌊t * v.fps⌋₊ :=
  Exact.toNat64_floor _

end Video

namespace Audio

variable {a : Audio Rat}

theorem time_eq (hrate : 0 < a.rate) (n : Nat) :
    a.time n = n / (a.rate / a.samplesPerPacket : Rat) := by
  rw [time, Nat.max_eq_left hrate]
  exact (div_div_eq_mul_div _ _ _).symm

theorem packets_eq (hsamples : 0 < a.samplesPerPacket) (duration : Rat) :
    a.packets duration = min nat64Max ⌈duration * (a.rate / a.samplesPerPacket : Rat)⌉₊ := by
  rw [packets, Nat.max_eq_left hsamples, ← mul_div_assoc]
  exact Exact.toNat64_ceil _

theorem packetAt_eq (hsamples : 0 < a.samplesPerPacket) (t : Rat) :
    a.packetAt t = min nat64Max ⌊t * (a.rate / a.samplesPerPacket : Rat)⌋₊ := by
  rw [packetAt, Nat.max_eq_left hsamples, ← mul_div_assoc]
  exact Exact.toNat64_floor _

end Audio

/-- There are `perSecond` packets of a stream in a second, the first one at zero. -/
structure Grid (g : Generator Rat) (kind : MediaKind) (perSecond : Rat) : Prop where
  pos : 0 < perSecond
  startOf_eq : ∀ n : Nat, g.startOf (kind, n) = n / perSecond
  packetCount_eq : g.packetCount kind = min nat64Max ⌈g.config.duration * perSecond⌉₊
  next_seekTime : ∀ t p, (g.seekTime t p).next kind =
    min nat64Max ⌊Scalar.clamp t 0.0 g.config.duration * perSecond⌋₊

theorem exists_grid {c : Config Rat} (stall : Option (Stall Rat)) (hsteady : c.Steady)
    {kind : MediaKind} (hkind : c.Has kind) : ∃ perSecond, Grid (.new c stall) kind perSecond := by
  cases kind with
  | video =>
    obtain ⟨v, hvideo⟩ := Option.isSome_iff_exists.1 hkind
    have hfps := hsteady.video v hvideo
    exact ⟨v.fps,
      { pos := by exact_mod_cast hfps
        startOf_eq := fun n => by
          simp [Generator.startOf, Generator.new, hvideo, Video.time_eq hfps]
        packetCount_eq := by
          simp [Generator.packetCount, Generator.new, Config.layout, hvideo, Video.packets_eq]
        next_seekTime := fun t p => by
          simp [Generator.seekTime, Generator.new, Progress.next, hvideo, Video.packetAt_eq] }⟩
  | audio =>
    obtain ⟨a, haudio⟩ := Option.isSome_iff_exists.1 hkind
    obtain ⟨hrate, hsamples⟩ := hsteady.audio a haudio
    exact ⟨a.rate / a.samplesPerPacket,
      { pos := by positivity
        startOf_eq := fun n => by
          simp [Generator.startOf, Generator.new, haudio, Audio.time_eq hrate]
        packetCount_eq := by
          simp [Generator.packetCount, Generator.new, Config.layout, haudio,
            Audio.packets_eq hsamples]
        next_seekTime := fun t p => by
          simp [Generator.seekTime, Generator.new, Progress.next, haudio,
            Audio.packetAt_eq hsamples] }⟩

/-! ## Landing -/

/-- How a seek to the moment `t` leaves a stream. -/
structure LandsAt (g : Generator Rat) (t : Rat) (q : Progress Rat) (kind : MediaKind) : Prop where
  /-- The packets up to the next one start at or before `t`, and no later packet does. -/
  last : ∀ n < g.packetCount kind, g.startOf (kind, n) ≤ t ↔ n ≤ q.next kind
  /-- There is a next packet if and only if the last packet of the stream ends after `t`. -/
  exists_iff : q.next kind < g.packetCount kind ↔ t < g.startOf (kind, g.packetCount kind)
  /-- With packets that 64 bits can count, none is left just at the end of a source that ends
  together with its last packet. -/
  over_iff : g.config.duration ≤ g.startOf (kind, nat64Max) →
    (g.packetCount kind ≤ q.next kind ↔
      t = g.config.duration ∧ g.startOf (kind, g.packetCount kind) = g.config.duration)
  /-- Reading gives the next packet as the first one of its stream if there is one, and otherwise
  no packet of that stream. -/
  read : ∀ codec events,
    let outcomes := ((SourceRun.start q codec).run g events).outcomes
    ∃ order, ReadsAll g q order outcomes ∧
      (g.left q .video + g.left q .audio ≤ outcomes.length →
        (numbersOf kind order).head? =
          if q.next kind < g.packetCount kind then some (q.next kind) else none)

theorem ReadsAll.head?_numbersOf {g : Generator Rat} {q : Progress Rat}
    {order : List (MediaKind × Nat)} {outcomes : List (Except SourceFailure ReadOutcome)}
    (h : ReadsAll g q order outcomes)
    (henough : g.left q .video + g.left q .audio ≤ outcomes.length) (kind : MediaKind) :
    (numbersOf kind order).head? =
      if q.next kind < g.packetCount kind then some (q.next kind) else none := by
  rw [h.complete henough kind, List.head?_range', Generator.left]
  by_cases hleft : q.next kind < g.packetCount kind
  · rw [if_pos hleft, if_neg (Nat.sub_ne_zero_of_lt hleft)]
  · rw [if_neg hleft, if_pos (Nat.sub_eq_zero_of_le (Nat.le_of_not_lt hleft))]

namespace Grid

variable {g : Generator Rat} {kind : MediaKind} {perSecond t : Rat}

theorem startOf_le_iff (h : Grid g kind perSecond) (ht : 0 ≤ t) (n : Nat) :
    g.startOf (kind, n) ≤ t ↔ n ≤ ⌊t * perSecond⌋₊ := by
  rw [h.startOf_eq, div_le_iff₀ h.pos, Nat.le_floor_iff (mul_nonneg ht h.pos.le)]

theorem lt_startOf_iff (h : Grid g kind perSecond) (ht : 0 ≤ t) (n : Nat) :
    t < g.startOf (kind, n) ↔ ⌊t * perSecond⌋₊ < n := by
  rw [← not_le, h.startOf_le_iff ht, Nat.not_le]

/-- The last packet does not end before the source, unless there are too many packets. -/
theorem duration_le_end (h : Grid g kind perSecond)
    (hfits : g.config.duration ≤ g.startOf (kind, nat64Max)) :
    g.config.duration ≤ g.startOf (kind, g.packetCount kind) := by
  rw [h.startOf_eq, le_div_iff₀ h.pos] at hfits ⊢
  rw [h.packetCount_eq, Nat.min_eq_right (Nat.ceil_le.2 hfits)]
  exact Nat.le_ceil _

theorem landsAt {c : Config Rat} {stall : Option (Stall Rat)} {q : Progress Rat}
    (h : Grid (.new c stall) kind perSecond) (ht : 0 ≤ t) (ht' : t ≤ c.duration)
    (hnext : q.next kind = min nat64Max ⌊t * perSecond⌋₊) :
    LandsAt (.new c stall) t q kind := by
  -- 64 bits hold the number of packets, so it does not matter that the position is cut to them.
  have hcount : (Generator.new c stall).packetCount kind ≤ nat64Max := by
    rw [h.packetCount_eq]
    exact Nat.min_le_left _ _
  have hexists : q.next kind < (Generator.new c stall).packetCount kind ↔
      t < (Generator.new c stall).startOf (kind, (Generator.new c stall).packetCount kind) := by
    rw [h.lt_startOf_iff ht]
    omega
  constructor
  case last =>
    intro n hn
    rw [h.startOf_le_iff ht]
    omega
  case exists_iff => exact hexists
  case over_iff =>
    intro hfits
    have hend := h.duration_le_end hfits
    rw [← not_lt, hexists, not_lt]
    constructor
    · intro hover
      exact ⟨le_antisymm ht' (hend.trans hover), le_antisymm (hover.trans ht') hend⟩
    · rintro ⟨rfl, hsame⟩
      exact hsame.le
  case read =>
    intro codec events outcomes
    obtain ⟨order, ends, hsupplied, -⟩ := supplied_run c stall q codec events
    exact ⟨order, hsupplied.readsAll, fun henough =>
      hsupplied.readsAll.head?_numbersOf henough kind⟩

end Grid

/-- A seek by time to a moment of the source moves each stream to the last packet that starts at or
before it, wherever the streams were. There is such a packet unless the moment is the end of the
last packet. -/
theorem seek_lands_on_last_packet {c : Config Rat} (stall : Option (Stall Rat)) (p : Progress Rat)
    {range : SeekRange} (hsteady : c.Steady) (hduration : 0 ≤ c.duration)
    (htime : range.byBytes = false) (hrange : range.lo ≤ range.hi) :
    ∃ q, (Generator.new c stall).container.seek range p = (.ok (), q) ∧
      ∀ kind, c.Has kind →
        LandsAt (.new c stall) (max 0 (min c.duration (range.target / 1000000))) q kind := by
  have hmillion : (1000000.0 : Rat) = 1000000 := by norm_num
  have hclamp (t : Rat) : Scalar.clamp t 0.0 c.duration = max 0 (min c.duration t) := by
    rw [show (0.0 : Rat) = 0 by norm_num, Exact.clamp_eq hduration]
  refine ⟨(Generator.new c stall).seekTime (range.target / 1000000) p, ?_, fun kind hkind => ?_⟩
  · show (Generator.new c stall).seek range p = _
    rw [Generator.seek, if_neg (Int.not_lt.2 hrange), if_neg (by simp [htime]), hmillion]
    rfl
  · obtain ⟨perSecond, hgrid⟩ := exists_grid stall hsteady hkind
    refine hgrid.landsAt (le_max_left _ _) (max_le hduration (min_le_left _ _)) ?_
    rw [hgrid.next_seekTime, ← hclamp]
    rfl

/-- Pictures at 25 Hz and packets of 1024 samples at 48 kHz for ten seconds, and a seek from the
beginning to 2.03 seconds: picture 50 and packet 95 are next. -/
theorem seek_lands_on_last_packet_inside :
    let c : Config Rat := {}
    let g := Generator.new c none
    let range : SeekRange := ⟨2030000, int64Min, int64Max, false⟩
    (c.Steady ∧ 0 ≤ c.duration ∧ range.byBytes = false ∧ range.lo ≤ range.hi) ∧
      ∃ q, g.container.seek range .start = (.ok (), q) ∧
        (q.next .video = 50 ∧ LandsAt g 2.03 q .video) ∧
        (q.next .audio = 95 ∧ LandsAt g 2.03 q .audio) := by
  intro c g range
  have hsteady : c.Steady :=
    ⟨by rintro v ⟨⟩; decide, by rintro a ⟨⟩; decide⟩
  have hduration : 0 ≤ c.duration := by decide +kernel
  have htime : range.byBytes = false := rfl
  have hrange : range.lo ≤ range.hi := by decide
  have hat : max 0 (min c.duration (range.target / 1000000)) = 2.03 := by
    show max (0 : Rat) (min 10.0 (2030000 / 1000000)) = 2.03
    norm_num
  obtain ⟨q, hseek, hlands⟩ := seek_lands_on_last_packet none .start hsteady hduration htime hrange
  rw [hat] at hlands
  have hq : q = (g.seek range .start).2 := by
    rw [show g.seek range .start = _ from hseek]
  refine ⟨⟨hsteady, hduration, htime, hrange⟩, q, hseek, ⟨?_, hlands .video rfl⟩,
    ⟨?_, hlands .audio rfl⟩⟩
  · rw [hq]
    decide +kernel
  · rw [hq]
    decide +kernel

/-- A second of pictures at 25 Hz, and a seek to its end: picture 24 is the last one that starts at
or before the target, but number 25 is next, which is not there, and reading finds the end. -/
theorem seek_to_end_passes_last_packet :
    let c : Config Rat := { duration := 1, video := some { fps := 25 }, audio := none }
    let g := Generator.new c none
    c.Steady ∧ 0 ≤ c.duration ∧
      ∃ q, g.container.seek ⟨1000000, int64Min, int64Max, false⟩ .start = (.ok (), q) ∧
        (24 < g.packetCount .video ∧ g.startOf (.video, 24) ≤ 1) ∧
        ¬ q.next .video < g.packetCount .video ∧
        (g.container.read 0 q).1 = .ok .endOfFile := by
  intro c g
  have hsteady : c.Steady := ⟨by rintro v ⟨⟩; decide, nofun⟩
  exact ⟨hsteady, by decide +kernel, _, rfl, by decide +kernel, by decide +kernel,
    by decide +kernel⟩

end Synthetic

end Playback
