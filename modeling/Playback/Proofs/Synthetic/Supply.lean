import Mathlib.Data.List.Induction
import Playback.Scalar.Exact
import Playback.Synthetic.Codec

/-!
# A source that stalls loses nothing

Whether video is kept back depends on the time, on the codec that notes when it released its
pictures, and on a flag that the reading itself sets. None of them is more than a choice between the
next packets of the two streams: the packets of each stream come in the order of their numbers, each
once, and the end comes when both streams are exhausted (`ReadsAll`). The codec gives out one
picture for each packet, although it may hold some of them back for a time (`OwesNothing`).

* `Generator.read_cases`: a read gives the next packet of a stream that is not exhausted, or the end
  when both are.
* `GrayCodec.decode_conserves`: what a codec returns and holds after a packet is what it held before
  and the packet's picture.
* `SourceRun.perform_cases`: no other event gives a packet or tells the end.
* `supplied_run`, `OwesNothing.run`: what follows over every run, by induction on its events.

A read fails if 64 bits are not enough for the packet whose turn it is (`Generator.read?`), and a
decoding if memory does not hold a picture. `SourceRun.run` counts what comes without regard to
that, and `SourceRun.run?` ends with the first failure. If there is none, both come to the same
(`SourceRun.eq_of_run?`).
-/

namespace Playback

namespace Synthetic

variable {S : Type} [Scalar S]

/-! ## Packets by number -/

namespace Generator

/-- Number of packets of a stream. -/
def packetCount (g : Generator S) : MediaKind → Nat
  | .video => g.layout.videoPackets
  | .audio => g.layout.audioPackets

/-- Number of packets of a stream that are still to come. -/
def left (g : Generator S) (p : Progress S) (kind : MediaKind) : Nat :=
  g.packetCount kind - p.next kind

/-- Number of a stream in the source. -/
def index (g : Generator S) : MediaKind → Nat
  | .video => g.layout.videoIndex.getD 0
  | .audio => g.layout.audioIndex.getD 0

/-- Packet `n` of a stream where it is packet number `place` of the whole source. -/
def packet (g : Generator S) (place : Nat) : MediaKind × Nat → Packet
  | (.video, n) =>
    { stream := g.index .video
      pts := if g.lacksPts n then none else some (signed64 n)
      dts := some (signed64 n)
      duration := 1
      pos := some (signed64 (place * g.config.packetSize))
      key := true
      data := g.payload n }
  | (.audio, n) =>
    { stream := g.index .audio
      pts := some (g.audioStamp n)
      dts := some (g.audioStamp n)
      duration := g.ticks
      pos := some (signed64 (place * g.config.packetSize))
      key := true
      data := g.payload n }

/-! ## One read -/

/-- When packet `n` of a stream starts, whether or not the stream has so many packets. -/
def startOf (g : Generator S) : MediaKind × Nat → S
  | (.video, n) => (g.config.video.map (·.time n)).getD 0.0
  | (.audio, n) => (g.config.audio.map (·.time n)).getD 0.0

variable (c : Config S) (stall : Option (Stall S))

theorem ready_cases (n : Nat) (kind : MediaKind) :
    (n < (new c stall).packetCount kind ∧ (new c stall).ready n kind =
        some ((new c stall).startOf (kind, n), (new c stall).index kind)) ∨
      ((new c stall).packetCount kind ≤ n ∧ (new c stall).ready n kind = none) := by
  cases kind with
  | video =>
    cases hvideo : c.video with
    | none => exact .inr (by simp [new, ready, videoTime, packetCount, Config.layout, hvideo])
    | some v =>
      by_cases hn : n < v.packets c.duration
      · exact .inl (by
          simp [new, ready, startOf, index, videoTime, packetCount, Config.layout, hvideo, hn])
      · exact .inr (by simpa [new, ready, videoTime, packetCount, Config.layout, hvideo] using hn)
  | audio =>
    cases haudio : c.audio with
    | none => exact .inr (by simp [new, ready, audioTime, packetCount, Config.layout, haudio])
    | some a =>
      by_cases hn : n < a.packets c.duration
      · exact .inl (by
          simp [new, ready, startOf, index, audioTime, packetCount, Config.layout, haudio, hn])
      · exact .inr (by simpa [new, ready, audioTime, packetCount, Config.layout, haudio] using hn)

/-- Asking whether video is kept back changes the flag at most. -/
theorem heldBack_eq (g : Generator S) (now : S) (p : Progress S) :
    ∃ held sent, g.heldBack now p = (held, { p with wakeSent := sent }) := by
  have hsame (held : Bool) :
      ∃ held' sent, (held, p) = (held', { p with wakeSent := sent }) :=
    ⟨held, p.wakeSent, rfl⟩
  unfold heldBack
  cases g.stall with
  | none => exact hsame _
  | some w =>
    dsimp only
    split
    · exact hsame _
    · split
      · split
        · exact hsame _
        · exact ⟨false, true, rfl⟩
      · exact hsame _

/-- A stream that is not exhausted has its turn, or both are exhausted. -/
theorem turn_cases (now : S) (p : Progress S) :
    (∃ kind sent, p.next kind < (new c stall).packetCount kind ∧
        (new c stall).turn now p =
          (some (kind, (new c stall).index kind), { p with wakeSent := sent })) ∨
      (∀ kind, (new c stall).packetCount kind ≤ p.next kind) ∧
        (new c stall).turn now p = (none, p) := by
  obtain ⟨held, sent, hheld⟩ := (new c stall).heldBack_eq now p
  rcases ready_cases c stall p.nextVideo .video with ⟨hvideo, hvideo'⟩ | ⟨hvideo, hvideo'⟩ <;>
    rcases ready_cases c stall p.nextAudio .audio with ⟨haudio, haudio'⟩ | ⟨haudio, haudio'⟩ <;>
    simp only [turn, hvideo', haudio', hheld]
  case inl.inl =>
    split
    · cases held with
      | false => exact .inl ⟨.video, sent, hvideo, rfl⟩
      | true => exact .inl ⟨.audio, sent, haudio, rfl⟩
    · exact .inl ⟨.audio, p.wakeSent, haudio, rfl⟩
  case inl.inr => exact .inl ⟨.video, p.wakeSent, hvideo, rfl⟩
  case inr.inl => exact .inl ⟨.audio, p.wakeSent, haudio, rfl⟩
  case inr.inr =>
    refine .inr ⟨?_, trivial⟩
    rintro (_ | _)
    · exact haudio
    · exact hvideo

/-- A read at `now` that gives the next packet of a stream. -/
structure Gives (g : Generator S) (now : S) (p : Progress S) (kind : MediaKind) : Prop where
  isLeft : p.next kind < g.packetCount kind
  packet : (g.read now p).1 = .packet (g.packet p.place (kind, p.next kind))
  next : ∀ k, (g.read now p).2.next k = p.next k + if k = kind then 1 else 0
  /-- It fails only for the sake of this packet. -/
  computes : g.ReadComputes now p ↔ g.PacketComputes p.place (kind, p.next kind)

/-- Every read gives the next packet of a stream that is not exhausted, or it tells the end since
both are. -/
theorem read_cases (now : S) (p : Progress S) :
    (∃ kind, (new c stall).Gives now p kind) ∨
      (∀ kind, (new c stall).packetCount kind ≤ p.next kind) ∧
        (new c stall).read now p = (.endOfFile, p) ∧ (new c stall).ReadComputes now p := by
  rcases turn_cases c stall now p with ⟨kind, sent, hleft, hturn⟩ | ⟨hexhausted, hturn⟩
  · refine .inl ⟨kind, hleft, ?_, ?_, ?_⟩
    · rw [read, hturn]
      cases kind <;> rfl
    · rw [read, hturn]
      rintro (_ | _) <;> cases kind <;> rfl
    · rw [ReadComputes, hturn]
      simp
  · refine .inr ⟨hexhausted, ?_, ?_⟩
    · rw [read, hturn]
    · rw [ReadComputes, hturn]
      simp

end Generator

/-! ## One decoding -/

namespace GrayCodec

/-- The picture of a packet. An empty packet has none. -/
def picture? (c : GrayCodec S) (packet : Packet) : Option DecodedPicture :=
  packet.data[0]?.map fun shade =>
    { picture := c.picture shade
      pts := packet.pts
      duration := packet.duration
      pos := packet.pos
      sampleAspect := ⟨1, 1⟩ }

/-- What an answer gives out. -/
def unitsOf : Except CodecFailure (List DecodedPicture) → List DecodedPicture
  | .ok units => units
  | .error _ => []

/-- Whether decoding stalls or not, the new picture comes after the held ones. -/
theorem decode_conserves (now : S) (packet : Packet) (released : Option S) (c : GrayCodec S) :
    let result := decode now packet released c
    unitsOf result.1 ++ result.2.1.held = c.held ++ [packet].filterMap c.picture? ∧
      result.2.1.picture? = c.picture? ∧ result.2.1.DecodeComputes = c.DecodeComputes := by
  cases hdata : packet.data[0]? with
  | none => simp [decode, picture?, unitsOf, hdata]
  | some shade =>
    unfold decode
    rw [hdata]
    dsimp only
    split
    · exact ⟨by simp [picture?, unitsOf, hdata], rfl, rfl⟩
    · exact ⟨by simp [picture?, unitsOf, hdata], rfl, rfl⟩

/-- The codec with the moment of the release where reading keeps it. -/
def shared : Codec S (Progress S) (GrayCodec S) DecodedPicture :=
  codec.within (·.releasedAt) fun p released => { p with releasedAt := released }

end GrayCodec

/-! ## Runs -/

/-- What can happen to an open source apart from a seek, in any order and at any time. -/
inductive SourceEvent (S : Type) where
  | read (now : S)
  | pause (on : Bool)
  | decode (now : S) (packet : Packet)
  | drain (now : S)
  | flush
  /-- Another codec of the source notes the moment at which it released its pictures. -/
  | release (moment : S)

/-- An open source with a video codec, and what both have given out. -/
structure SourceRun (S : Type) where
  progress : Progress S
  codec : GrayCodec S
  /-- What each read came to. -/
  outcomes : List (Except SourceFailure ReadOutcome)
  /-- The packets decoded since the last flush. -/
  decoded : List Packet
  /-- The pictures returned since the last flush. -/
  returned : List DecodedPicture

namespace SourceRun

/-- A source somewhere in its streams, with a codec that holds nothing. -/
def start (p : Progress S) (codec : GrayCodec S) : SourceRun S :=
  ⟨p, { codec with held := [] }, [], [], []⟩

/-- One event. -/
def perform (g : Generator S) (r : SourceRun S) : SourceEvent S → SourceRun S
  | .read now =>
    let (outcome, p) := g.container.read now r.progress
    { r with progress := p, outcomes := r.outcomes ++ [outcome] }
  | .pause on => { r with progress := g.container.setPaused on r.progress }
  | .decode now packet =>
    let (answer, codec, p) := GrayCodec.shared.decode now packet r.progress r.codec
    { r with
      progress := p
      codec := codec
      decoded := r.decoded ++ [packet]
      returned := r.returned ++ GrayCodec.unitsOf answer }
  | .drain now =>
    let (answer, codec, p) := GrayCodec.shared.drain now r.progress r.codec
    { r with progress := p, codec := codec, returned := r.returned ++ GrayCodec.unitsOf answer }
  | .flush => { r with codec := GrayCodec.shared.flush r.codec, decoded := [], returned := [] }
  | .release moment =>
    { r with progress :=
        { r.progress with releasedAt := r.progress.releasedAt.or (some moment) } }

/-- A sequence of events. -/
def run (g : Generator S) (r : SourceRun S) (events : List (SourceEvent S)) : SourceRun S :=
  events.foldl (perform g) r

theorem run_concat (g : Generator S) (r : SourceRun S) (events : List (SourceEvent S))
    (e : SourceEvent S) : r.run g (events ++ [e]) = (r.run g events).perform g e := by
  unfold run
  rw [List.foldl_append]
  rfl

/-- As `perform`; none if the event fails. -/
def perform? (g : Generator S) (r : SourceRun S) : SourceEvent S → Option (SourceRun S)
  | .read now => (g.read? now r.progress).map fun (outcome, p) =>
    { r with progress := p, outcomes := r.outcomes ++ [.ok outcome] }
  | .decode now packet =>
    if r.codec.DecodeComputes packet then some (r.perform g (.decode now packet)) else none
  | e => some (r.perform g e)

/-- As `run`; none if an event fails. -/
def run? (g : Generator S) (r : SourceRun S) (events : List (SourceEvent S)) :
    Option (SourceRun S) :=
  events.foldlM (perform? g) r

/-- Whether an event can be performed. -/
def Computes (g : Generator S) (r : SourceRun S) : SourceEvent S → Prop
  | .read now => g.ReadComputes now r.progress
  | .decode _ packet => r.codec.DecodeComputes packet
  | _ => True

instance (g : Generator S) (r : SourceRun S) (e : SourceEvent S) : Decidable (r.Computes g e) :=
  match e with
  | .read now => inferInstanceAs (Decidable (g.ReadComputes now r.progress))
  | .decode _ packet => inferInstanceAs (Decidable (r.codec.DecodeComputes packet))
  | .pause _ | .drain _ | .flush | .release _ => inferInstanceAs (Decidable True)

theorem perform?_eq (g : Generator S) (r : SourceRun S) (e : SourceEvent S) :
    r.perform? g e = if r.Computes g e then some (r.perform g e) else none := by
  cases e with
  | read now =>
    by_cases hread : g.ReadComputes now r.progress
    · have hcomputes : r.Computes g (.read now) := hread
      rw [if_pos hcomputes, perform?, Generator.read?, if_pos hread]
      rfl
    · have hfails : ¬ r.Computes g (.read now) := hread
      rw [if_neg hfails, perform?, Generator.read?, if_neg hread]
      rfl
  | decode now packet => rfl
  | pause _ | drain _ | flush | release _ => exact (if_pos trivial).symm

theorem computes_iff (g : Generator S) (r : SourceRun S) (e : SourceEvent S) :
    r.Computes g e ↔ (∀ now, e = .read now → g.ReadComputes now r.progress) ∧
      ∀ now packet, e = .decode now packet → r.codec.DecodeComputes packet := by
  cases e <;> simp [Computes]

theorem run?_concat (g : Generator S) (r : SourceRun S) (events : List (SourceEvent S))
    (e : SourceEvent S) : r.run? g (events ++ [e]) =
      (r.run? g events).bind fun q => if q.Computes g e then some (q.perform g e) else none := by
  unfold run?
  rw [List.foldlM_append]
  simp [perform?_eq]

/-- A run that does not fail comes to what it comes to without regard to failures. -/
theorem eq_of_run? {g : Generator S} {r q : SourceRun S} {events : List (SourceEvent S)}
    (h : r.run? g events = some q) : q = r.run g events := by
  induction events using List.reverseRecOn generalizing q with
  | nil => exact (Option.some.inj h).symm
  | append_singleton events e ih =>
    rw [run?_concat] at h
    obtain ⟨q', hq', hperform⟩ := Option.bind_eq_some_iff.1 h
    rw [run_concat, ← ih hq']
    split at hperform
    · exact (Option.some.inj hperform).symm
    · cases hperform

theorem run?_concat_iff (g : Generator S) (r : SourceRun S) (events : List (SourceEvent S))
    (e : SourceEvent S) : r.run? g (events ++ [e]) = some (r.run g (events ++ [e])) ↔
      r.run? g events = some (r.run g events) ∧ (r.run g events).Computes g e := by
  rw [run?_concat, run_concat]
  cases hrun : r.run? g events with
  | none => simp
  | some q =>
    obtain rfl := eq_of_run? hrun
    simp

/-- Only a read moves on: it gives the next packet of a stream, or it tells the end. -/
theorem perform_cases (c : Config S) (stall : Option (Stall S)) (r : SourceRun S)
    (e : SourceEvent S) :
    (∃ now kind, e = .read now ∧ (Generator.new c stall).Gives now r.progress kind) ∨
      (∃ now, e = .read now ∧
        (∀ kind, (Generator.new c stall).packetCount kind ≤ r.progress.next kind) ∧
        (Generator.new c stall).read now r.progress = (.endOfFile, r.progress) ∧
        (Generator.new c stall).ReadComputes now r.progress) ∨
      (∀ now, e ≠ .read now) ∧
        (∀ kind, (r.perform (.new c stall) e).progress.next kind = r.progress.next kind) ∧
        (r.perform (.new c stall) e).outcomes = r.outcomes := by
  cases e with
  | read now =>
    rcases Generator.read_cases c stall now r.progress with ⟨kind, hgives⟩ | hend
    · exact .inl ⟨now, kind, rfl, hgives⟩
    · exact .inr (.inl ⟨now, rfl, hend⟩)
  | pause on => exact .inr (.inr ⟨nofun, fun _ => rfl, rfl⟩)
  | decode now packet =>
    refine .inr (.inr ⟨nofun, ?_, rfl⟩)
    rintro (_ | _) <;> rfl
  | drain now =>
    refine .inr (.inr ⟨nofun, ?_, rfl⟩)
    rintro (_ | _) <;> rfl
  | flush => exact .inr (.inr ⟨nofun, fun _ => rfl, rfl⟩)
  | release moment =>
    refine .inr (.inr ⟨nofun, ?_, rfl⟩)
    rintro (_ | _) <;> rfl

end SourceRun

/-! ## What was read -/

/-- The numbers of one stream's packets, in the order in which packets of both streams came. -/
def numbersOf (kind : MediaKind) (order : List (MediaKind × Nat)) : List Nat :=
  (order.filter (·.1 = kind)).map (·.2)

theorem numbersOf_concat (kind k : MediaKind) (order : List (MediaKind × Nat)) (n : Nat) :
    numbersOf k (order ++ [(kind, n)]) =
      numbersOf k order ++ if k = kind then [n] else [] := by
  unfold numbersOf
  rw [List.filter_append, List.map_append]
  by_cases hk : k = kind
  · simp [hk]
  · simp [hk, Ne.symm hk]

theorem length_eq_numbers (order : List (MediaKind × Nat)) :
    order.length = (numbersOf .video order).length + (numbersOf .audio order).length := by
  induction order with
  | nil => rfl
  | cons entry order ih =>
    obtain ⟨kind, n⟩ := entry
    cases kind <;> simp [numbersOf] at ih ⊢ <;> omega

/-- The outcomes of reads that give packets in the order `order`. -/
def packetReads (g : Generator S) (place : Nat) (order : List (MediaKind × Nat)) :
    List (Except SourceFailure ReadOutcome) :=
  order.mapIdx fun i entry => .ok (.packet (g.packet (place + i) entry))

namespace Generator

/-- Whether packets can be given out in the order `order`, the first of them as packet number
`place` of the whole source. -/
def OrderComputes (g : Generator S) (place : Nat) (order : List (MediaKind × Nat)) : Prop :=
  ∀ x ∈ order.zipIdx place, g.PacketComputes x.2 x.1

theorem orderComputes_concat (g : Generator S) (place : Nat) (order : List (MediaKind × Nat))
    (entry : MediaKind × Nat) : g.OrderComputes place (order ++ [entry]) ↔
      g.OrderComputes place order ∧ g.PacketComputes (place + order.length) entry := by
  unfold OrderComputes
  rw [List.zipIdx_append, List.forall_mem_append, List.zipIdx_singleton, List.forall_mem_singleton]

end Generator

/-- What the reads have come to when they gave packets in the order `order` and then told the end
`ends` times. -/
structure Supplied (g : Generator S) (p : Progress S) (order : List (MediaKind × Nat)) (ends : Nat)
    (r : SourceRun S) : Prop where
  next : ∀ kind, r.progress.next kind = p.next kind + (numbersOf kind order).length
  numbers : ∀ kind,
    numbersOf kind order = List.range' (p.next kind) (numbersOf kind order).length
  withinBounds : ∀ kind, (numbersOf kind order).length ≤ g.left p kind
  outcomes : r.outcomes = packetReads g p.place order ++ List.replicate ends (.ok .endOfFile)
  exhausted : 0 < ends → ∀ kind, (numbersOf kind order).length = g.left p kind

namespace Supplied

variable {g : Generator S} {p : Progress S} {order : List (MediaKind × Nat)} {ends : Nat}
  {r : SourceRun S}

theorem start (g : Generator S) (p : Progress S) (codec : GrayCodec S) :
    Supplied g p [] 0 (SourceRun.start p codec) where
  next _ := rfl
  numbers _ := rfl
  withinBounds _ := Nat.zero_le _
  outcomes := rfl
  exhausted h := absurd h (Nat.lt_irrefl 0)

/-- Only the numbers of the next packets and the outcomes count. -/
theorem of_eq {r' : SourceRun S} (h : Supplied g p order ends r)
    (hnext : ∀ kind, r'.progress.next kind = r.progress.next kind)
    (houtcomes : r'.outcomes = r.outcomes) : Supplied g p order ends r' where
  next kind := (hnext kind).trans (h.next kind)
  numbers := h.numbers
  withinBounds := h.withinBounds
  outcomes := houtcomes.trans h.outcomes
  exhausted := h.exhausted

variable {c : Config S} {stall : Option (Stall S)}

theorem place_eq (h : Supplied g p order ends r) : r.progress.place = p.place + order.length := by
  have hvideo := h.next .video
  have haudio := h.next .audio
  rw [length_eq_numbers]
  simp only [Progress.next] at hvideo haudio
  simp only [Progress.place]
  omega

/-- The packet that a read gives is not one too many, since then the end was not told before. -/
theorem gives_packet {now : S} {kind : MediaKind} (h : Supplied g p order ends r)
    (hgives : g.Gives now r.progress kind) :
    Supplied g p (order ++ [(kind, r.progress.next kind)]) 0 (r.perform g (.read now)) := by
  have hleft : (numbersOf kind order).length < g.left p kind := by
    have hbound := hgives.isLeft
    rw [h.next] at hbound
    exact Nat.lt_sub_iff_add_lt'.2 hbound
  have hends : ends = 0 := by
    by_contra hends
    exact Nat.ne_of_lt hleft (h.exhausted (Nat.pos_of_ne_zero hends) kind)
  have hlength (k : MediaKind) :
      (numbersOf k (order ++ [(kind, r.progress.next kind)])).length =
        (numbersOf k order).length + if k = kind then 1 else 0 := by
    rw [numbersOf_concat, List.length_append]
    split <;> rfl
  constructor
  case next =>
    intro k
    rw [hlength]
    exact (hgives.next k).trans (by rw [h.next, Nat.add_assoc])
  case numbers =>
    intro k
    rw [hlength, numbersOf_concat, h.numbers k]
    by_cases hk : k = kind
    · subst hk
      rw [if_pos rfl, if_pos rfl, List.length_range', List.range'_concat, h.next, Nat.one_mul]
    · simp [hk]
  case withinBounds =>
    intro k
    rw [hlength]
    split
    case isTrue hk => exact hk ▸ hleft
    case isFalse => exact h.withinBounds k
  case outcomes =>
    show r.outcomes ++ [.ok (g.read now r.progress).1] = _
    simp [packetReads, h.outcomes, hends, hgives.packet, h.place_eq]
  case exhausted => exact fun hpos => absurd hpos (Nat.lt_irrefl 0)

theorem tells_end {now : S} (h : Supplied g p order ends r)
    (hexhausted : ∀ kind, g.packetCount kind ≤ r.progress.next kind)
    (hend : g.read now r.progress = (.endOfFile, r.progress)) :
    Supplied g p order (ends + 1) (r.perform g (.read now)) := by
  have hperform : r.perform g (.read now) = { r with outcomes := r.outcomes ++ [.ok .endOfFile] } :=
    by simp only [SourceRun.perform, Generator.container, hend]
  rw [hperform]
  constructor
  case next => exact h.next
  case numbers => exact h.numbers
  case withinBounds => exact h.withinBounds
  case outcomes => simp [h.outcomes, List.replicate_succ']
  case exhausted =>
    intro _ kind
    have hnext := hexhausted kind
    rw [h.next] at hnext
    exact Nat.le_antisymm (h.withinBounds kind) (Nat.sub_le_iff_le_add'.2 hnext)

theorem perform (h : Supplied (.new c stall) p order ends r) (e : SourceEvent S) :
    ∃ order' ends', Supplied (.new c stall) p order' ends' (r.perform (.new c stall) e) ∧
      ((Generator.new c stall).OrderComputes p.place order' ↔
        (Generator.new c stall).OrderComputes p.place order ∧
          ∀ now, e = .read now → (Generator.new c stall).ReadComputes now r.progress) := by
  rcases SourceRun.perform_cases c stall r e with
    ⟨now, kind, rfl, hgives⟩ | ⟨now, rfl, hexhausted, hend, hcomputes⟩ |
      ⟨hother, hnext, houtcomes⟩
  · refine ⟨_, _, h.gives_packet hgives, ?_⟩
    rw [Generator.orderComputes_concat, ← h.place_eq, ← hgives.computes]
    simp
  · refine ⟨_, _, h.tells_end hexhausted hend, ?_⟩
    simp [hcomputes]
  · refine ⟨_, _, h.of_eq hnext houtcomes, ?_⟩
    simp [hother]

end Supplied

/-- What reading a source from `p` on comes to: the packets of each stream by number, each once, in
whatever order the streams take turns, and from then on the end. -/
structure ReadsAll (g : Generator S) (p : Progress S) (order : List (MediaKind × Nat))
    (outcomes : List (Except SourceFailure ReadOutcome)) : Prop where
  inOrder : ∀ kind, numbersOf kind order <+: List.range' (p.next kind) (g.left p kind)
  complete : g.left p .video + g.left p .audio ≤ outcomes.length →
    ∀ kind, numbersOf kind order = List.range' (p.next kind) (g.left p kind)
  /-- Each read gives a packet as long as one is left. -/
  number : order.length = min outcomes.length (g.left p .video + g.left p .audio)
  outcomes : outcomes = packetReads g p.place order ++
    List.replicate (outcomes.length - (g.left p .video + g.left p .audio)) (.ok .endOfFile)

theorem Supplied.readsAll {g : Generator S} {p : Progress S} {order : List (MediaKind × Nat)}
    {ends : Nat} {r : SourceRun S} (h : Supplied g p order ends r) :
    ReadsAll g p order r.outcomes := by
  have hvideo := h.withinBounds .video
  have haudio := h.withinBounds .audio
  have horder := length_eq_numbers order
  have hreads : r.outcomes.length = order.length + ends := by
    rw [h.outcomes]
    simp [packetReads]
  have hends : ends = r.outcomes.length - (g.left p .video + g.left p .audio) := by
    rcases Nat.eq_zero_or_pos ends with hzero | hpos
    · omega
    · have hvideo' := h.exhausted hpos .video
      have haudio' := h.exhausted hpos .audio
      omega
  have hnumber : order.length = min r.outcomes.length (g.left p .video + g.left p .audio) := by
    omega
  constructor
  case inOrder =>
    intro kind
    rw [h.numbers kind]
    refine ⟨List.range' (p.next kind + (numbersOf kind order).length)
      (g.left p kind - (numbersOf kind order).length), ?_⟩
    rw [List.range'_append_1, Nat.add_sub_cancel' (h.withinBounds kind)]
  case complete =>
    intro henough kind
    have hall : (numbersOf kind order).length = g.left p kind := by
      cases kind <;> omega
    rw [h.numbers kind, hall]
  case number => exact hnumber
  case outcomes =>
    rw [← hends]
    exact h.outcomes

/-! ## What was decoded -/

/-- What was returned and what is held are the pictures of the packets decoded, and the codec still
makes the same pictures as `codec`. -/
structure OwesNothing (codec : GrayCodec S) (r : SourceRun S) : Prop where
  pictures : r.returned ++ r.codec.held = r.decoded.filterMap codec.picture?
  same : r.codec.picture? = codec.picture?
  computes : r.codec.DecodeComputes = codec.DecodeComputes

namespace OwesNothing

variable {g : Generator S} {codec : GrayCodec S} {r : SourceRun S}

theorem perform (h : OwesNothing codec r) (e : SourceEvent S) :
    OwesNothing codec (r.perform g e) := by
  cases e with
  | read now => exact ⟨h.pictures, h.same, h.computes⟩
  | pause on => exact ⟨h.pictures, h.same, h.computes⟩
  | decode now packet =>
    obtain ⟨hpictures, hsame, hcomputes⟩ :=
      GrayCodec.decode_conserves now packet r.progress.releasedAt r.codec
    refine ⟨?_, hsame.trans h.same, hcomputes.trans h.computes⟩
    calc
      (r.perform g (.decode now packet)).returned ++ (r.perform g (.decode now packet)).codec.held
        = r.returned ++ (r.codec.held ++ [packet].filterMap r.codec.picture?) := by
          rw [← hpictures, ← List.append_assoc]
          rfl
      _ = (r.decoded ++ [packet]).filterMap codec.picture? := by
          rw [← List.append_assoc, h.pictures, h.same, List.filterMap_append]
  | drain now => exact ⟨(List.append_nil _).trans h.pictures, h.same, h.computes⟩
  | flush => exact ⟨rfl, h.same, h.computes⟩
  | release moment => exact ⟨h.pictures, h.same, h.computes⟩

theorem run (g : Generator S) (p : Progress S) (codec : GrayCodec S)
    (events : List (SourceEvent S)) :
    OwesNothing codec ((SourceRun.start p codec).run g events) := by
  induction events using List.reverseRecOn with
  | nil => exact ⟨rfl, rfl, rfl⟩
  | append_singleton events e ih =>
    rw [SourceRun.run_concat]
    exact ih.perform e

end OwesNothing

/-! ## The source -/

/-- A run fails exactly if a packet that it gives out or a picture that it makes cannot be. -/
theorem supplied_run (c : Config S) (stall : Option (Stall S)) (p : Progress S)
    (codec : GrayCodec S) (events : List (SourceEvent S)) :
    let g := Generator.new c stall
    let start := SourceRun.start p codec
    ∃ order ends, Supplied g p order ends (start.run g events) ∧
      (start.run? g events = some (start.run g events) ↔
        g.OrderComputes p.place order ∧
          ∀ now packet, .decode now packet ∈ events → codec.DecodeComputes packet) := by
  intro g start
  induction events using List.reverseRecOn with
  | nil => exact ⟨[], 0, .start _ p codec, by simp [SourceRun.run?, SourceRun.run,
      Generator.OrderComputes]⟩
  | append_singleton events e ih =>
    obtain ⟨order, ends, h, hcomputes⟩ := ih
    obtain ⟨order', ends', h', horder⟩ := h.perform e
    have hcodec := (OwesNothing.run g p codec events).computes
    refine ⟨order', ends', by rwa [SourceRun.run_concat], ?_⟩
    rw [SourceRun.run?_concat_iff, SourceRun.computes_iff, hcomputes, horder, hcodec]
    simp only [List.mem_append, List.mem_singleton, or_imp, forall_and, eq_comm]
    tauto

/-- Whatever happens to a source and to its video codec, and whenever: every packet comes once and
in its place, and every picture decoded since the last flush has been returned or is still held.
This ends with a failure exactly if 64 bits are not enough for one of those packets, or memory for
one of those pictures. -/
theorem source_loses_nothing (c : Config S) (stall : Option (Stall S)) (p : Progress S)
    (codec : GrayCodec S) (events : List (SourceEvent S)) :
    let g := Generator.new c stall
    let start := SourceRun.start p codec
    let r := start.run g events
    (∃ order, ReadsAll g p order r.outcomes ∧
      (start.run? g events = some r ↔
        g.OrderComputes p.place order ∧
          ∀ now packet, .decode now packet ∈ events → codec.DecodeComputes packet)) ∧
    r.returned ++ r.codec.held = r.decoded.filterMap codec.picture? ∧
    ∀ q, start.run? g events = some q → q = r := by
  intro g start r
  obtain ⟨order, ends, h, hcomputes⟩ := supplied_run c stall p codec events
  refine ⟨⟨order, h.readsAll, hcomputes⟩, (OwesNothing.run g p codec events).pictures, ?_⟩
  exact fun q hq => SourceRun.eq_of_run? hq

/-- Sound that is shifted by more ticks than 64 bits hold: the shift is cut to the largest number,
the first packet has it as its timestamp, and the next one of the 47 cannot be given out. -/
theorem source_overflows :
    let c : Config Rat :=
      { duration := 1
        video := none
        audio := some { ptsOffset := 1000000000000000 } }
    let g := Generator.new c none
    let start := SourceRun.start .start (⟨64, 36, none, []⟩ : GrayCodec Rat)
    g.left start.progress .audio = 47 ∧
      (start.run? g [.read 0]).isSome = true ∧ (start.run? g [.read 0, .read 0]).isNone = true := by
  decide +kernel

/-- Ten packets of either kind in a second, and the codec releases its pictures at the second 1. The
second video packet is kept back until sound runs out. -/
example :
    let c : Config Rat :=
      { duration := 0.2
        video := some { fps := 10 }
        audio := some { rate := 10, samplesPerPacket := 1 }
        packetSize := 1 }
    let codec : GrayCodec Rat := ⟨64, 36, none, []⟩
    let r := (SourceRun.start .start codec).run (.new c (some ⟨0, 1, 1⟩))
      [.read 1, .release 1, .read 1, .read 1, .read 1, .read 1]
    r.outcomes = packetReads (.new c none) 0 [(.video, 0), (.audio, 0), (.audio, 1), (.video, 1)] ++
      [.ok .endOfFile] := by
  decide +kernel

end Synthetic

end Playback
