import Mathlib.Data.List.Basic
import Mathlib.Data.List.Induction
import Playback.Proofs.Decoding.Steps
import Playback.Scalar.Exact

/-!
# Times of frames

A unit with a timestamp is given out at that time. One without follows the frame before it, as far
as that frame came after the latest flush marker of the same epoch and has a time itself.

The decoder keeps one number for this, `Decoder.nextPts`. `timeAfter` says what that number is: it
is computed from the units that were given out in the decoder's epoch since the marker, and from
nothing else (`Times.next`). The frames between two markers are `Chained`, each to the ones before
it, and what the chain says of a single frame is `Filled`.
-/

namespace Playback

/-- What happens at a decoder that the times of frames depend on. -/
inductive TimingEvent (S F : Type) where
  /-- The marker of an epoch is fed to the codec. -/
  | marker (serial : Nat)
  | frame (f : DecodedFrame S F)

namespace TimingEvent

variable {S F : Type}

/-- The markers among the calls of a codec. -/
def markers (calls : List CodecCall) : List (TimingEvent S F) :=
  calls.filterMap fun
    | .flush serial => some (.marker serial)
    | _ => none

theorem markers_concat_call {e : Entry} (he : e ≠ .flush) (calls : List CodecCall) (serial : Nat) :
    markers (S := S) (F := F) (calls ++ [e.call serial]) = markers calls := by
  cases e with
  | flush => exact absurd rfl he
  | endOfStream | data packet => simp [markers, Entry.call]

/-- The frames of an epoch that were given out since its latest marker. -/
def framesOf (epoch : Nat) (events : List (TimingEvent S F)) : List (DecodedFrame S F) :=
  events.foldl (fun frames e =>
    match e with
    | .marker serial => if serial = epoch then [] else frames
    | .frame f => if f.serial = epoch then frames ++ [f] else frames) []

theorem framesOf_concat_marker (epoch serial : Nat) (events : List (TimingEvent S F)) :
    framesOf epoch (events ++ [.marker serial]) =
      if serial = epoch then [] else framesOf epoch events :=
  List.foldl_concat ..

theorem framesOf_concat_frame (epoch : Nat) (events : List (TimingEvent S F))
    (f : DecodedFrame S F) :
    framesOf epoch (events ++ [.frame f]) =
      if f.serial = epoch then framesOf epoch events ++ [f] else framesOf epoch events :=
  List.foldl_concat ..

theorem framesOf_eq_nil {epoch : Nat} {events : List (TimingEvent S F)}
    (h : ∀ f, .frame f ∈ events → f.serial ≠ epoch) : framesOf epoch events = [] := by
  induction events using List.reverseRecOn with
  | nil => rfl
  | append_singleton events e ih =>
    have hinit := ih fun f hf => h f (List.mem_append_left _ hf)
    cases e with
    | marker serial =>
      rw [framesOf_concat_marker, hinit, ite_self]
    | frame f =>
      rw [framesOf_concat_frame, hinit, if_neg (h f (by simp))]

end TimingEvent

open TimingEvent

variable {S M σ F : Type} [Scalar S] [CodecUnit F]

/-! ## The time of a unit -/

/-- How long a unit lasts: as long as it says, or `fallback`. -/
def unitLength (timeBase : Ratio) (fallback : S) (unit : F) : S :=
  (CodecUnit.duration unit timeBase).getD fallback

/-- The time of a unit: its own, or `next`. -/
def unitTime (timeBase : Ratio) (next : Option S) (unit : F) : Option S :=
  ((CodecUnit.pts unit).map timeBase.seconds).or next

/-- The end of the last of some units that follow each other, if it has a time. -/
def timeAfter (timeBase : Ratio) (fallback : S) (units : List F) : Option S :=
  units.foldl (fun next unit =>
    (unitTime timeBase next unit).map (· + unitLength timeBase fallback unit)) none

theorem timeAfter_concat (timeBase : Ratio) (fallback : S) (units : List F) (unit : F) :
    timeAfter timeBase fallback (units ++ [unit]) =
      (unitTime timeBase (timeAfter timeBase fallback units) unit).map
        (· + unitLength timeBase fallback unit) :=
  List.foldl_concat ..

namespace Decoder

variable {d d' : Decoder S σ F} {epoch : Nat} {f : DecodedFrame S F}

theorem time_stamp (d : Decoder S σ F) (unit : F) :
    let f := (d.stamp unit).1
    f.pts = unitTime d.timeBase d.nextPts unit ∧
      f.duration = unitLength d.timeBase d.fallback unit ∧
      (d.stamp unit).2.nextPts = f.pts.map (· + f.duration) := by
  have hpts : (d.stamp unit).1.pts = unitTime d.timeBase d.nextPts unit := by
    unfold stamp
    dsimp only
    split <;> rfl
  have hlength : (d.stamp unit).1.duration = unitLength d.timeBase d.fallback unit := by
    unfold stamp
    dsimp only
    split <;> rfl
  refine ⟨hpts, hlength, ?_⟩
  rw [hpts, hlength]
  unfold stamp unitTime unitLength
  dsimp only
  split
  · rename_i pts heq
    rw [heq]
    rfl
  · rename_i heq
    rw [heq]
    exact (Option.or_eq_none_iff.1 heq).2

/-- A frame that is given out has the time of its unit, and the next one comes after it. -/
theorem time_emit? (h : d.emit? epoch = some (.frame f, d')) :
    f.pts = unitTime d.timeBase d.nextPts f.content ∧
      f.duration = unitLength d.timeBase d.fallback f.content ∧
      d'.nextPts = f.pts.map (· + f.duration) := by
  obtain ⟨hserial, ⟨f', rest, t, hpending, hf, -⟩ | ⟨-, -, hf, -⟩⟩ := emit?_eq_some h
  swap
  · cases hf
  obtain rfl : f = f' := Decoded.frame.inj hf
  unfold emit? at h
  simp only [if_pos hserial, hpending, Option.some.injEq, Prod.mk.injEq, Decoded.frame.injEq] at h
  obtain ⟨hstamp, rfl⟩ := h
  have htime := time_stamp { d with pending := rest } f.content
  rwa [hstamp] at htime

end Decoder

/-! ## Frames that follow each other -/

/-- Each frame has the length of its unit, and its time after the units before it. -/
inductive Chained (timeBase : Ratio) (fallback : S) : List (DecodedFrame S F) → Prop
  | nil : Chained timeBase fallback []
  | concat {frames : List (DecodedFrame S F)} {f : DecodedFrame S F}
      (h : Chained timeBase fallback frames)
      (hlength : f.duration = unitLength timeBase fallback f.content)
      (hpts : f.pts =
        unitTime timeBase (timeAfter timeBase fallback (frames.map (·.content))) f.content) :
      Chained timeBase fallback (frames ++ [f])

/-- What the times of the frames before it make of a frame. -/
structure Filled (timeBase : Ratio) (fallback : S) (earlier : List (DecodedFrame S F))
    (f : DecodedFrame S F) : Prop where
  lasts : f.duration = unitLength timeBase fallback f.content
  own : ∀ ticks, CodecUnit.pts f.content = some ticks → f.pts = some (timeBase.seconds ticks)
  /-- Once a frame has a time, those that have none of their own follow the frame before them. -/
  follows : CodecUnit.pts f.content = none → (∃ g ∈ earlier, g.pts.isSome) →
    ∃ g p, earlier.getLast? = some g ∧ g.pts = some p ∧ f.pts = some (p + g.duration)
  silent : CodecUnit.pts f.content = none → (∀ g ∈ earlier, g.pts = none) → f.pts = none
  /-- Nothing but the units of these frames counts. -/
  determined : f.pts =
    unitTime timeBase (timeAfter timeBase fallback (earlier.map (·.content))) f.content

namespace Chained

variable {timeBase : Ratio} {fallback : S} {frames : List (DecodedFrame S F)}
  {f : DecodedFrame S F}

/-- The end of the last frame is where the next one follows. -/
theorem timeAfter_eq (h : Chained timeBase fallback frames) :
    timeAfter timeBase fallback (frames.map (·.content)) =
      frames.getLast?.bind fun g => g.pts.map (· + g.duration) := by
  cases h with
  | nil => rfl
  | concat h hlength hpts =>
    rw [List.map_append, List.map_singleton, timeAfter_concat, ← hpts, ← hlength,
      List.getLast?_concat, Option.bind_some]

/-- The last frame has a time if any of them has. -/
theorem last_timed (h : Chained timeBase fallback frames) (htimed : ∃ g ∈ frames, g.pts.isSome) :
    ∃ g p, frames.getLast? = some g ∧ g.pts = some p := by
  induction h with
  | nil => simp at htimed
  | @concat frames f h _ hpts ih =>
    obtain ⟨g, hg, hsome⟩ := htimed
    refine ⟨f, ?_⟩
    simp only [List.getLast?_concat, true_and]
    rcases List.mem_append.1 hg with hg | hg
    · obtain ⟨last, p, hlast, hp⟩ := ih ⟨g, hg, hsome⟩
      rw [hpts, h.timeAfter_eq, hlast, Option.bind_some, hp, Option.map_some, unitTime]
      cases CodecUnit.pts f.content with
      | none => exact ⟨_, rfl⟩
      | some ticks => exact ⟨_, rfl⟩
    · rw [List.mem_singleton.1 hg] at hsome
      exact Option.isSome_iff_exists.1 hsome

theorem filled (h : Chained timeBase fallback (frames ++ [f])) :
    Filled timeBase fallback frames f := by
  obtain ⟨hframes, hlength, hpts⟩ : Chained timeBase fallback frames ∧
      f.duration = unitLength timeBase fallback f.content ∧ f.pts =
        unitTime timeBase (timeAfter timeBase fallback (frames.map (·.content))) f.content := by
    generalize hall : frames ++ [f] = all at h
    cases h with
    | nil => simp at hall
    | concat h hlength hpts =>
      obtain ⟨rfl, hlast⟩ := List.append_inj' hall rfl
      obtain rfl := List.head_eq_of_cons_eq hlast
      exact ⟨h, hlength, hpts⟩
  refine ⟨hlength, fun ticks hticks => ?_, fun hnone htimed => ?_, fun hnone hsilent => ?_, hpts⟩
  · rw [hpts, unitTime, hticks]
    rfl
  · obtain ⟨g, p, hlast, hp⟩ := hframes.last_timed htimed
    refine ⟨g, p, hlast, hp, ?_⟩
    rw [hpts, unitTime, hnone, hframes.timeAfter_eq, hlast, Option.bind_some, hp]
    rfl
  · rw [hpts, unitTime, hnone, hframes.timeAfter_eq]
    cases hlast : frames.getLast? with
    | none => rfl
    | some g =>
      rw [Option.bind_some, hsilent g (List.mem_of_getLast? hlast)]
      rfl

end Chained

/-! ## The decoder's own account -/

/-- What happened at a decoder with the queue `q` fits to the time that it has in mind for the next
unit. -/
structure Times (timeBase : Ratio) (fallback : S) (events : List (TimingEvent S F))
    (d : Decoder S σ F) (q : PacketQueue) : Prop where
  ticks : d.timeBase = timeBase
  lengths : d.fallback = fallback
  ordered : q.Ordered d.serial
  le : ∀ f, .frame f ∈ events → f.serial ≤ d.serial
  next : d.nextPts =
    timeAfter timeBase fallback ((framesOf d.serial events).map (·.content))
  chained : Chained timeBase fallback (framesOf d.serial events)
  /-- Every frame so far was chained to the ones before it. -/
  filled : ∀ (i : Nat) (f : DecodedFrame S F), events[i]? = some (.frame f) →
    Chained timeBase fallback (framesOf f.serial (events.take i) ++ [f])

namespace Times

variable {timeBase : Ratio} {fallback : S} {events : List (TimingEvent S F)}
  {d d' : Decoder S σ F} {q q' : PacketQueue} {e : QueuedEntry} {f : DecodedFrame S F}

theorem of_fields (h : Times timeBase fallback events d q) (htimeBase : d'.timeBase = d.timeBase)
    (hfallback : d'.fallback = d.fallback) (hserial : d'.serial = d.serial)
    (hnext : d'.nextPts = d.nextPts) : Times timeBase fallback events d' q where
  ticks := htimeBase.trans h.ticks
  lengths := hfallback.trans h.lengths
  ordered := hserial ▸ h.ordered
  le := hserial ▸ h.le
  next := hserial ▸ hnext.trans h.next
  chained := hserial ▸ h.chained
  filled := h.filled

theorem filled_concat (h : Times timeBase fallback events d q) {event : TimingEvent S F}
    (hevent : ∀ f, event = .frame f →
      Chained timeBase fallback (framesOf f.serial events ++ [f]))
    (i : Nat) (f : DecodedFrame S F) (hi : (events ++ [event])[i]? = some (.frame f)) :
    Chained timeBase fallback (framesOf f.serial ((events ++ [event]).take i) ++ [f]) := by
  rcases Nat.lt_trichotomy i events.length with hlt | rfl | hgt
  · rw [List.getElem?_append_left hlt] at hi
    rw [List.take_append_of_le_length hlt.le]
    exact h.filled i f hi
  · rw [List.getElem?_concat_length, Option.some.injEq] at hi
    rw [List.take_left]
    exact hevent f hi
  · rw [List.getElem?_eq_none (by simp; omega)] at hi
    cases hi

/-- An entry is taken: in another epoch nothing was given out so far. -/
theorem take (h : Times timeBase fallback events d q) (htake : q.take = .ready (e, q')) :
    Times timeBase fallback events (d.taking e.serial) q' := by
  obtain ⟨hordered, hle, -⟩ := h.ordered.take htake
  by_cases hserial : e.serial = d.serial
  · have hsame : (d.taking e.serial).nextPts = d.nextPts := if_pos hserial
    have htaken : Times timeBase fallback events (d.taking e.serial) q :=
      h.of_fields rfl rfl hserial hsame
    exact ⟨htaken.1, htaken.2, hordered, htaken.4, htaken.5, htaken.6, htaken.7⟩
  · have hnone : framesOf e.serial events = [] :=
      framesOf_eq_nil fun f hf heq => by
        have := h.le f hf
        omega
    have hnext : (d.taking e.serial).nextPts = none := if_neg hserial
    refine ⟨h.ticks, h.lengths, hordered, fun f hf => (h.le f hf).trans hle, ?_, ?_, h.filled⟩
    · show (d.taking e.serial).nextPts =
        timeAfter timeBase fallback ((framesOf e.serial events).map (·.content))
      rw [hnext, hnone]
      rfl
    · show Chained timeBase fallback (framesOf e.serial events)
      rw [hnone]
      exact .nil

/-- The marker of the decoder's epoch is fed. -/
theorem flush (h : Times timeBase fallback events d q) (htimeBase : d'.timeBase = d.timeBase)
    (hfallback : d'.fallback = d.fallback) (hserial : d'.serial = d.serial)
    (hnext : d'.nextPts = none) :
    Times timeBase fallback (events ++ [.marker d.serial]) d' q := by
  have hnone : framesOf d.serial (events ++ [.marker d.serial]) = [] := by
    rw [framesOf_concat_marker, if_pos rfl]
  refine ⟨htimeBase.trans h.ticks, hfallback.trans h.lengths, hserial ▸ h.ordered,
    fun f hf => ?_, ?_, ?_, h.filled_concat nofun⟩
  · rw [hserial]
    exact h.le f (by simpa using hf)
  · rw [hserial, hnext, hnone]
    rfl
  · rw [hserial, hnone]
    exact .nil

/-- A frame of the decoder's epoch is given out. -/
theorem give (h : Times timeBase fallback events d q) (htimeBase : d'.timeBase = d.timeBase)
    (hfallback : d'.fallback = d.fallback) (hserial : d'.serial = d.serial)
    (hf : f.serial = d.serial) (hpts : f.pts = unitTime d.timeBase d.nextPts f.content)
    (hlength : f.duration = unitLength d.timeBase d.fallback f.content)
    (hnext : d'.nextPts = f.pts.map (· + f.duration)) :
    Times timeBase fallback (events ++ [.frame f]) d' q := by
  rw [h.ticks, h.next] at hpts
  rw [h.ticks, h.lengths] at hlength
  have hframes : framesOf d.serial (events ++ [.frame f]) = framesOf d.serial events ++ [f] := by
    rw [framesOf_concat_frame, if_pos hf]
  have hchained : Chained timeBase fallback (framesOf d.serial events ++ [f]) :=
    h.chained.concat hlength hpts
  refine ⟨htimeBase.trans h.ticks, hfallback.trans h.lengths, hserial ▸ h.ordered,
    fun g hg => ?_, ?_, ?_, h.filled_concat fun g hg => ?_⟩
  · rw [hserial]
    rcases List.mem_append.1 hg with hg | hg
    · exact h.le g hg
    · rw [TimingEvent.frame.inj (List.mem_singleton.1 hg), hf]
  · rw [hserial, hframes, List.map_append, List.map_singleton, timeAfter_concat, ← hpts, ← hlength,
      hnext]
  · rw [hserial, hframes]
    exact hchained
  · obtain rfl := TimingEvent.frame.inj hg
    rw [hf]
    exact hchained

theorem of_queue (h : Times timeBase fallback events d q) (hordered : q'.Ordered d.serial) :
    Times timeBase fallback events d q' :=
  ⟨h.ticks, h.lengths, hordered, h.le, h.next, h.chained, h.filled⟩

end Times

/-! ## Runs -/

/-- What happens during a call for the next frame. -/
def Decoder.Run.events (r : Decoder.Run S M σ F) : List (TimingEvent S F) :=
  markers r.calls ++
    match r.result with
    | .frame f => [.frame f]
    | _ => []

namespace DecoderBench

variable {codec : Codec S M σ F} {b : DecoderBench S M σ F}

/-- What happens during a run, in order. -/
def events (codec : Codec S M σ F) (b : DecoderBench S M σ F) :
    List (BenchOp S M) → List (TimingEvent S F)
  | [] => []
  | .next now :: ops =>
    (b.decoder.next codec now b.queue b.medium).events ++
      events codec (b.perform codec (.next now)) ops
  | op :: ops => events codec (b.perform codec op) ops

end DecoderBench

namespace Times

variable {timeBase : Ratio} {fallback : S} {codec : Codec S M σ F} {now : S}
  {b : DecoderBench S M σ F}

/-- A call for the next frame; `earlier` happened before it. -/
theorem ran {r : Decoder.Run S M σ F} (hran : Decoder.Ran codec now b r)
    (earlier : List (TimingEvent S F))
    (h : Times timeBase fallback (earlier ++ markers b.calls.reverse) b.decoder b.queue) :
    Times timeBase fallback (earlier ++ r.events) r.decoder r.queue := by
  induction hran with
  | @emits b result d hemit =>
    obtain ⟨-, ⟨f, rest, t, -, rfl, hf, -, rfl⟩ | ⟨-, -, rfl, rfl⟩⟩ := Decoder.emit?_eq_some hemit
    · obtain ⟨hpts, hlength, hnext⟩ := Decoder.time_emit? hemit
      have hgiven : Times timeBase fallback (earlier ++ markers b.calls.reverse ++ [.frame f])
          { b.decoder with pending := rest, nextPts := t } b.queue :=
        h.give rfl rfl rfl hf hpts hlength hnext
      rw [List.append_assoc] at hgiven
      exact hgiven
    · simp only [Decoder.Run.events, List.append_nil]
      exact h.of_fields rfl rfl rfl rfl
  | aborts _ hd | waits _ hd =>
    subst hd
    simp only [Decoder.Run.events, List.append_nil]
    exact h.of_fields rfl rfl rfl rfl
  | skips _ htake _ _ ih => exact ih (h.take htake)
  | @flushes b e q r _ htake _ _ _ ih =>
    have hflushed : Times timeBase fallback
        (earlier ++ markers b.calls.reverse ++ [.marker e.serial])
        { (b.decoder.taking e.serial).resetEpoch with
          codec := codec.flush b.decoder.codec, phase := .decoding, finished := none } q :=
      (h.take htake).flush rfl rfl rfl rfl
    refine ih ?_
    rw [List.append_assoc] at hflushed
    rw [List.reverse_cons, markers, List.filterMap_append]
    exact hflushed
  | fails _ htake _ hentry _ hd =>
    subst hd
    simp only [Decoder.Run.events, List.append_nil, List.reverse_cons, markers_concat_call hentry]
    exact (h.take htake).of_fields rfl rfl rfl rfl
  | feeds _ htake _ hentry _ _ ih =>
    refine ih ?_
    rw [List.reverse_cons, markers_concat_call hentry]
    exact (h.take htake).of_fields rfl rfl rfl rfl

theorem performNext {events : List (TimingEvent S F)}
    (h : Times timeBase fallback events b.decoder b.queue) (now : S) :
    Times timeBase fallback
      (events ++ (b.decoder.next codec now b.queue b.medium).events)
      (b.perform codec (.next now)).decoder (b.perform codec (.next now)).queue := by
  have hwake : Times timeBase fallback (events ++ markers []) b.decoder.wake b.queue := by
    simp only [markers, List.filterMap_nil, List.append_nil]
    unfold Decoder.wake
    split_ifs
    · exact h.of_fields rfl rfl rfl rfl
    · exact h
  have hran := hwake.ran (Decoder.ran_next codec now b.decoder b.queue b.medium) events
  simpa only [DecoderBench.perform, DecoderBench.nextCall_fst] using hran

theorem run {events : List (TimingEvent S F)} (ops : List (BenchOp S M))
    (h : Times timeBase fallback events b.decoder b.queue) :
    Times timeBase fallback (events ++ b.events codec ops) (b.run codec ops).decoder
      (b.run codec ops).queue := by
  induction ops generalizing b events with
  | nil =>
    rw [DecoderBench.events, List.append_nil]
    exact h
  | cons op ops ih =>
    cases op with
    | queue op => exact ih (h.of_queue (h.ordered.perform op))
    | medium m => exact ih h
    | next now =>
      rw [DecoderBench.events, ← List.append_assoc]
      exact ih (h.performNext now)

end Times

/-- In every run of a decoder and its queue, a frame that is given out has the time of its own unit,
or else it follows the frame before it, where only the frames of its epoch since the latest marker
count: as soon as one of these has a time, all later ones have. -/
theorem missing_times_filled (codec : Codec S M σ F) (kind : MediaKind) (c : σ) (timeBase : Ratio)
    (fallback : S) (m : M) (ops : List (BenchOp S M)) :
    let b : DecoderBench S M σ F := ⟨.new kind c timeBase fallback, .new, m, []⟩
    ∀ (i : Nat) (f : DecodedFrame S F), (b.events codec ops)[i]? = some (.frame f) →
      Filled timeBase fallback (framesOf f.serial ((b.events codec ops).take i)) f := by
  intro b i f hi
  have hnew : Times timeBase fallback [] b.decoder b.queue :=
    ⟨rfl, rfl, PacketQueue.ordered_new, nofun, rfl, .nil, nofun⟩
  exact ((hnew.run ops).filled i f hi).filled

namespace EchoCodec

/-- A codec that gives one picture for each packet, with the packet's time. -/
def codec : Codec Rat Unit Unit DecodedPicture where
  decode _ packet m s := (.ok [{ (default : DecodedPicture) with pts := packet.pts }], s, m)
  drain _ _ s := (.ok [], s, ())
  flush s := s

/-- A packet with a time and one without, and after a marker another one without. -/
def ops : List (BenchOp Rat Unit) :=
  [.queue .start, .queue (.put { (default : Packet) with pts := some 10 }), .queue (.put default),
    .next 0, .next 0, .queue .marker, .queue (.put default), .next 0]

end EchoCodec

/-- The second picture follows the first one; the third one comes after a marker and has no time. -/
theorem missing_times_filled_echo :
    let events := DecoderBench.events EchoCodec.codec
      ⟨.new .video () ⟨1, 25⟩ (1 / 25), .new, (), []⟩ EchoCodec.ops
    ∃ f g, events[2]? = some (.frame f) ∧ f.pts = some (11 / 25) ∧
      Filled ⟨1, 25⟩ (1 / 25) (framesOf f.serial (events.take 2)) f ∧
      events[4]? = some (.frame g) ∧ g.pts = none ∧
      Filled ⟨1, 25⟩ (1 / 25) (framesOf g.serial (events.take 4)) g := by
  intro events
  have hfilled := missing_times_filled EchoCodec.codec .video () ⟨1, 25⟩ (1 / 25) () EchoCodec.ops
  have hf : ∃ f, events[2]? = some (.frame f) ∧ f.pts = some (11 / 25) :=
    ⟨_, rfl, by decide +kernel⟩
  have hg : ∃ g, events[4]? = some (.frame g) ∧ g.pts = none := ⟨_, rfl, by decide +kernel⟩
  obtain ⟨f, hf, hpts⟩ := hf
  obtain ⟨g, hg, hnone⟩ := hg
  exact ⟨f, g, hf, hpts, hfilled 2 f hf, hg, hnone, hfilled 4 g hg⟩

end Playback
