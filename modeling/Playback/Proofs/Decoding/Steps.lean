import Playback.Decoding.Decoder
import Playback.Proofs.Buffer.QueueEpochs

/-!
# One call for the next frame, entry by entry

`Decoder.next` goes through the entries of a queue until there is something to report. `Ran` lists
what can happen on the way: one rule for each way to stop, and one for each kind of entry that is
passed over or fed to the codec. `ran_next` says that `Decoder.next` goes by these rules, so a fact
about a call is an induction with one case for each of them.

What a codec is fed is seen through `Codec.answer`, which treats the three kinds of entry alike.
-/

namespace Playback

/-- The call that a codec receives for an entry of the epoch `serial`. -/
def Entry.call (serial : Nat) : Entry → CodecCall
  | .flush => .flush serial
  | .endOfStream => .drain serial
  | .data packet => .decode serial packet

@[simp] theorem Entry.serial_call (serial : Nat) (e : Entry) : (e.call serial).serial = serial := by
  cases e <;> rfl

/-- The call that an entry causes when it is taken from a queue in the epoch `epoch`. -/
def QueuedEntry.call? (e : QueuedEntry) (epoch : Nat) : Option CodecCall :=
  if e.serial = epoch then some (e.entry.call e.serial) else none

namespace Codec

variable {S M σ F : Type}

/-- What a codec in the state `s` answers to an entry, and what becomes of it. -/
def answer (c : Codec S M σ F) (now : S) (m : M) (s : σ) :
    Entry → Except CodecFailure (List F) × σ × M
  | .flush => (.ok [], c.flush s, m)
  | .endOfStream => c.drain now m s
  | .data packet => c.decode now packet m s

end Codec

namespace Decoder

variable {S M σ F : Type} {codec : Codec S M σ F} {now : S} {d : Decoder S σ F} {m : M}

/-! ## Feeding -/

theorem feed_flush : d.feed codec now m .flush = (none, .flush d.serial,
    { d.resetEpoch with codec := codec.flush d.codec, phase := .decoding, finished := none }, m) :=
  rfl

theorem feed_of_error {e : Entry} (he : e ≠ .flush) {cause : CodecFailure} {s : σ} {m' : M}
    (h : codec.answer now m d.codec e = (.error cause, s, m')) :
    d.feed codec now m e = (some cause, e.call d.serial, { d with codec := s }, m') := by
  cases e with
  | flush => exact absurd rfl he
  | endOfStream | data packet =>
    simp only [Codec.answer] at h
    simp only [feed, h, Entry.call]

theorem feed_of_ok {e : Entry} (he : e ≠ .flush) {units : List F} {s : σ} {m' : M}
    (h : codec.answer now m d.codec e = (.ok units, s, m')) :
    d.feed codec now m e = (none, e.call d.serial,
      { d with
        codec := s
        pending := d.pending ++ units
        drained := d.drained || e = .endOfStream }, m') := by
  cases e with
  | flush => exact absurd rfl he
  | endOfStream | data packet =>
    simp only [Codec.answer] at h
    simp [feed, h, Entry.call]

/-! ## The entries that a call takes -/

/-- A call that came to `r` took the entries `front` from the front of the queue `q` and left the
rest of it as it was; each of them that is of the current epoch caused one call of the codec, and
the other ones caused none. The codec had received `calls` before. -/
structure Takes (q : PacketQueue) (calls : List CodecCall) (front : List QueuedEntry)
    (r : Run S M σ F) : Prop where
  entries : q.entries = front ++ r.queue.entries
  serial : r.queue.serial = q.serial
  aborted : r.queue.aborted = q.aborted
  calls : r.calls = calls.reverse ++ front.filterMap (·.call? q.serial)

theorem Takes.cons {q q' : PacketQueue} {e : QueuedEntry} {calls calls' : List CodecCall}
    {front : List QueuedEntry} {r : Run S M σ F} (h : Takes q' calls' front r)
    (htake : q.take = .ready (e, q'))
    (hcalls : calls'.reverse = calls.reverse ++ (e.call? q.serial).toList) :
    Takes q calls (e :: front) r := by
  obtain ⟨-, hentries, hserial, haborted⟩ := PacketQueue.take_eq_ready htake
  refine ⟨?_, h.serial.trans hserial, h.aborted.trans haborted, ?_⟩
  · rw [hentries, h.entries, List.cons_append]
  · rw [h.calls, hcalls, hserial, List.filterMap_cons]
    cases e.call? q.serial <;> simp

/-! ## Between two entries -/

/-- The decoder that is asked for a frame is no longer idle. -/
def wake (d : Decoder S σ F) : Decoder S σ F :=
  if d.phase = .idle then { d with phase := .decoding } else d

@[simp] theorem serial_wake (d : Decoder S σ F) : d.wake.serial = d.serial := by
  unfold wake
  split_ifs <;> rfl

variable [Scalar S] [CodecUnit F]

/-- The decoder when it takes an entry of the epoch `serial`: nothing is pending. -/
def taking (d : Decoder S σ F) (serial : Nat) : Decoder S σ F :=
  { d with
    pending := []
    drained := false
    serial := serial
    nextPts := if serial = d.serial then d.nextPts else none }

/-- Stamping a unit changes nothing but the time of the next one. -/
theorem stamp_eq (d : Decoder S σ F) (unit : F) :
    ∃ f t, d.stamp unit = (f, { d with nextPts := t }) ∧ f.content = unit ∧
      f.serial = d.serial ∧ f.pos = CodecUnit.pos unit := by
  unfold stamp
  dsimp only
  split
  · exact ⟨_, _, rfl, rfl, rfl, rfl⟩
  · exact ⟨_, d.nextPts, rfl, rfl, rfl, rfl⟩

/-- What is given out is the first pending unit, or the end of the epoch when none is left. -/
theorem emit?_eq_some {epoch : Nat} {result : Decoded S F} {d' : Decoder S σ F}
    (h : d.emit? epoch = some (result, d')) :
    epoch = d.serial ∧
      ((∃ f rest t, d.pending = f.content :: rest ∧ result = .frame f ∧ f.serial = d.serial ∧
          f.pos = CodecUnit.pos f.content ∧ d' = { d with pending := rest, nextPts := t }) ∨
        (d.pending = [] ∧ d.drained = true ∧ result = .finished ∧
          d' = { d with drained := false, phase := .finished, finished := some d.serial })) := by
  unfold emit? at h
  by_cases hserial : epoch = d.serial
  swap
  · rw [if_neg hserial] at h
    cases h
  rw [if_pos hserial] at h
  refine ⟨hserial, ?_⟩
  cases hpending : d.pending with
  | cons unit rest =>
    obtain ⟨f, t, hstamp, rfl, hf, hpos⟩ := stamp_eq { d with pending := rest } unit
    simp only [hpending, hstamp, Option.some.injEq, Prod.mk.injEq] at h
    exact .inl ⟨f, rest, t, rfl, h.1.symm, hf, hpos, h.2.symm⟩
  | nil =>
    simp only [hpending] at h
    split_ifs at h with hdrained
    simp only [Option.some.injEq, Prod.mk.injEq] at h
    exact .inr ⟨rfl, hdrained, h.1.symm, h.2.symm⟩

theorem serial_emit? {epoch : Nat} {result : Decoded S F} {d' : Decoder S σ F}
    (h : d.emit? epoch = some (result, d')) : d'.serial = d.serial := by
  obtain ⟨-, ⟨f, rest, t, -, -, -, -, rfl⟩ | ⟨-, -, -, rfl⟩⟩ := emit?_eq_some h <;> rfl

theorem codec_emit? {epoch : Nat} {result : Decoded S F} {d' : Decoder S σ F}
    (h : d.emit? epoch = some (result, d')) : d'.codec = d.codec := by
  obtain ⟨-, ⟨f, rest, t, -, -, -, -, rfl⟩ | ⟨-, -, -, rfl⟩⟩ := emit?_eq_some h <;> rfl

theorem emit?_eq_none {epoch : Nat} (h : d.emit? epoch = none) :
    d.dropStale epoch = { d with pending := [], drained := false } := by
  unfold emit? at h
  unfold dropStale
  split_ifs with hserial
  · rw [if_pos hserial] at h
    cases hpending : d.pending with
    | cons unit rest => simp [hpending] at h
    | nil =>
      cases hdrained : d.drained with
      | true => simp [hpending, hdrained] at h
      | false => rw [← hpending, ← hdrained]
  · rfl

theorem enter_dropStale {epoch : Nat} (h : d.emit? epoch = none) (serial : Nat) :
    (d.dropStale epoch).enter serial = d.taking serial := by
  rw [emit?_eq_none h]
  unfold enter taking
  split_ifs with hserial
  · rw [hserial]
  · rfl

/-! ## A whole call -/

/-- A call for the next frame from the state of a bench on comes to `r`. -/
inductive Ran (codec : Codec S M σ F) (now : S) : DecoderBench S M σ F → Run S M σ F → Prop
  /-- A unit or the end of the epoch is given out. -/
  | emits {b : DecoderBench S M σ F} {result : Decoded S F} {d : Decoder S σ F}
      (hemit : b.decoder.emit? b.queue.serial = some (result, d)) :
      Ran codec now b ⟨result, d, b.decoder, b.queue, b.medium, b.calls.reverse⟩
  | aborts {b : DecoderBench S M σ F} {d : Decoder S σ F}
      (hemit : b.decoder.emit? b.queue.serial = none)
      (hd : d = { b.decoder with pending := [], drained := false })
      (hqueue : b.queue.aborted = true) :
      Ran codec now b
        ⟨.aborted, { d with phase := .aborted }, d, b.queue, b.medium, b.calls.reverse⟩
  | waits {b : DecoderBench S M σ F} {d : Decoder S σ F}
      (hemit : b.decoder.emit? b.queue.serial = none)
      (hd : d = { b.decoder with pending := [], drained := false })
      (hqueue : b.queue.aborted = false) (hentries : b.queue.entries = []) :
      Ran codec now b ⟨.wait, d, d, b.queue, b.medium, b.calls.reverse⟩
  /-- An entry of an earlier epoch is passed over. -/
  | skips {b : DecoderBench S M σ F} {e : QueuedEntry} {q : PacketQueue} {r : Run S M σ F}
      (hemit : b.decoder.emit? b.queue.serial = none)
      (htake : b.queue.take = .ready (e, q)) (hserial : e.serial ≠ q.serial)
      (hrest : Ran codec now ⟨b.decoder.taking e.serial, q, b.medium, b.calls⟩ r) :
      Ran codec now b r
  | flushes {b : DecoderBench S M σ F} {e : QueuedEntry} {q : PacketQueue} {r : Run S M σ F}
      (hemit : b.decoder.emit? b.queue.serial = none)
      (htake : b.queue.take = .ready (e, q)) (hserial : e.serial = q.serial)
      (hentry : e.entry = .flush)
      (hrest : Ran codec now
        ⟨{ (b.decoder.taking e.serial).resetEpoch with
            codec := codec.flush b.decoder.codec, phase := .decoding, finished := none },
          q, b.medium, .flush e.serial :: b.calls⟩ r) :
      Ran codec now b r
  | fails {b : DecoderBench S M σ F} {e : QueuedEntry} {q : PacketQueue} {cause : CodecFailure}
      {s : σ} {m : M} {d : Decoder S σ F}
      (hemit : b.decoder.emit? b.queue.serial = none)
      (htake : b.queue.take = .ready (e, q)) (hserial : e.serial = q.serial)
      (hentry : e.entry ≠ .flush)
      (hanswer : codec.answer now b.medium b.decoder.codec e.entry = (.error cause, s, m))
      (hd : d = { b.decoder.taking e.serial with codec := s }) :
      Ran codec now b
        ⟨.failed cause, d, d, q, m, (e.entry.call e.serial :: b.calls).reverse⟩
  | feeds {b : DecoderBench S M σ F} {e : QueuedEntry} {q : PacketQueue} {units : List F}
      {s : σ} {m : M} {r : Run S M σ F}
      (hemit : b.decoder.emit? b.queue.serial = none)
      (htake : b.queue.take = .ready (e, q)) (hserial : e.serial = q.serial)
      (hentry : e.entry ≠ .flush)
      (hanswer : codec.answer now b.medium b.decoder.codec e.entry = (.ok units, s, m))
      (hrest : Ran codec now
        ⟨{ b.decoder.taking e.serial with
            codec := s, pending := units, drained := e.entry = .endOfStream },
          q, m, e.entry.call e.serial :: b.calls⟩ r) :
      Ran codec now b r

/-- An entry of the current epoch goes by the rules if the rest does. -/
theorem ran_feed {b : DecoderBench S M σ F} {e : QueuedEntry} {q : PacketQueue}
    {rest : Decoder S σ F → M → List CodecCall → Run S M σ F}
    (hemit : b.decoder.emit? b.queue.serial = none) (htake : b.queue.take = .ready (e, q))
    (hserial : e.serial = q.serial)
    (hrest : ∀ d m calls, Ran codec now ⟨d, q, m, calls⟩ (rest d m calls)) :
    Ran codec now b
      (match (b.decoder.taking e.serial).feed codec now b.medium e.entry with
      | (some cause, call, d, m) => ⟨.failed cause, d, d, q, m, (call :: b.calls).reverse⟩
      | (none, call, d, m) => rest d m (call :: b.calls)) := by
  by_cases hentry : e.entry = .flush
  · rw [hentry, feed_flush]
    exact .flushes hemit htake hserial hentry (hrest _ _ _)
  · rcases hanswer : codec.answer now b.medium b.decoder.codec e.entry with ⟨reply, s, m'⟩
    cases reply with
    | error cause =>
      rw [feed_of_error (d := b.decoder.taking e.serial) hentry hanswer]
      exact .fails hemit htake hserial hentry hanswer rfl
    | ok units =>
      rw [feed_of_ok (d := b.decoder.taking e.serial) hentry hanswer]
      exact .feeds hemit htake hserial hentry hanswer (hrest _ _ _)

theorem ran_run (codec : Codec S M σ F) (now : S) (entries : List QueuedEntry)
    (d : Decoder S σ F) (q : PacketQueue) (m : M) (calls : List CodecCall)
    (hentries : q.entries = entries) :
    Ran codec now ⟨d, q, m, calls⟩ (run codec now entries d q m calls) := by
  induction entries generalizing d q m calls with
  | nil =>
    rw [run]
    cases hemit : d.emit? q.serial with
    | some p => exact .emits hemit
    | none =>
      cases htake : q.take with
      | ready p =>
        obtain ⟨-, hfront, -, -⟩ := PacketQueue.take_eq_ready htake
        rw [hentries] at hfront
        cases hfront
      | aborted =>
        have haborted := PacketQueue.take_eq_aborted_iff.1 htake
        exact .aborts hemit (emit?_eq_none hemit) haborted
      | wait =>
        have hwait := PacketQueue.take_eq_wait_iff.1 htake
        exact .waits hemit (emit?_eq_none hemit) hwait.1 hwait.2
  | cons first rest ih =>
    rw [run]
    cases hemit : d.emit? q.serial with
    | some p => exact .emits hemit
    | none =>
      cases htake : q.take with
      | aborted =>
        have haborted := PacketQueue.take_eq_aborted_iff.1 htake
        exact .aborts hemit (emit?_eq_none hemit) haborted
      | wait =>
        have hwait := PacketQueue.take_eq_wait_iff.1 htake
        rw [hentries] at hwait
        cases hwait.2
      | ready p =>
        obtain ⟨e, q'⟩ := p
        obtain ⟨-, hfront, -, -⟩ := PacketQueue.take_eq_ready htake
        obtain ⟨-, rfl⟩ := List.cons.inj (hentries ▸ hfront)
        simp only [enter_dropStale hemit]
        split_ifs with hserial
        · exact ran_feed hemit htake hserial fun d m calls => ih d q' m calls rfl
        · exact .skips hemit htake hserial (ih _ q' m calls rfl)

theorem ran_next (codec : Codec S M σ F) (now : S) (d : Decoder S σ F) (q : PacketQueue) (m : M) :
    Ran codec now ⟨d.wake, q, m, []⟩ (d.next codec now q m) :=
  ran_run codec now q.entries d.wake q m [] rfl

theorem Ran.takes {b : DecoderBench S M σ F} {r : Run S M σ F} (hran : Ran codec now b r) :
    ∃ front, Takes b.queue b.calls front r := by
  have hcall {e : QueuedEntry} {q q' : PacketQueue} (htake : q.take = .ready (e, q'))
      (hserial : e.serial = q'.serial) : e.call? q.serial = some (e.entry.call e.serial) :=
    if_pos (hserial.trans (PacketQueue.take_eq_ready htake).2.2.1)
  induction hran with
  | emits | aborts | waits => exact ⟨[], rfl, rfl, rfl, by simp⟩
  | @skips b e q r _ htake hserial _ ih =>
    obtain ⟨front, hfront⟩ := ih
    refine ⟨e :: front, hfront.cons htake ?_⟩
    have hnone : e.call? b.queue.serial = none :=
      if_neg fun h => hserial (h.trans (PacketQueue.take_eq_ready htake).2.2.1.symm)
    rw [hnone, Option.toList_none, List.append_nil]
  | @flushes b e q r _ htake hserial hentry _ ih =>
    obtain ⟨front, hfront⟩ := ih
    refine ⟨e :: front, hfront.cons htake ?_⟩
    rw [hcall htake hserial, hentry, List.reverse_cons]
    rfl
  | @fails b e q cause s m d _ htake hserial =>
    have hdone : Takes q (e.entry.call e.serial :: b.calls) []
        ⟨.failed cause, d, d, q, m, (e.entry.call e.serial :: b.calls).reverse⟩ :=
      ⟨rfl, rfl, rfl, by simp⟩
    refine ⟨[e], hdone.cons htake ?_⟩
    rw [hcall htake hserial, List.reverse_cons]
    rfl
  | @feeds b e q units s m r _ htake hserial _ _ _ ih =>
    obtain ⟨front, hfront⟩ := ih
    refine ⟨e :: front, hfront.cons htake ?_⟩
    rw [hcall htake hserial, List.reverse_cons]
    rfl

theorem takes_next (codec : Codec S M σ F) (now : S) (d : Decoder S σ F) (q : PacketQueue) (m : M) :
    ∃ front, Takes q [] front (d.next codec now q m) :=
  (ran_next codec now d q m).takes

/-- A frame that is given out is of the current epoch. -/
theorem Ran.serial_frame {b : DecoderBench S M σ F} {r : Run S M σ F} (hran : Ran codec now b r)
    {f : DecodedFrame S F} (hf : r.result = .frame f) : f.serial = b.queue.serial := by
  induction hran with
  | @emits b result d hemit =>
    obtain ⟨hserial, ⟨f', rest, t, -, rfl, hf', -, -⟩ | ⟨-, -, rfl, -⟩⟩ := emit?_eq_some hemit
    · obtain rfl : f' = f := Decoded.frame.inj hf
      exact hf'.trans hserial.symm
    · cases hf
  | aborts => cases hf
  | waits => cases hf
  | fails => cases hf
  | skips _ htake _ _ ih => exact (ih hf).trans (PacketQueue.take_eq_ready htake).2.2.1
  | flushes _ htake _ _ _ ih => exact (ih hf).trans (PacketQueue.take_eq_ready htake).2.2.1
  | feeds _ htake _ _ _ _ ih => exact (ih hf).trans (PacketQueue.take_eq_ready htake).2.2.1

/-- A decoder that gives out a frame has come to the current epoch. -/
theorem Ran.serial_decoder {b : DecoderBench S M σ F} {r : Run S M σ F} (hran : Ran codec now b r)
    {f : DecodedFrame S F} (hf : r.result = .frame f) : r.decoder.serial = r.queue.serial := by
  induction hran with
  | emits hemit => exact (serial_emit? hemit).trans (emit?_eq_some hemit).1.symm
  | aborts | waits | fails => cases hf
  | skips _ _ _ _ ih | flushes _ _ _ _ _ ih | feeds _ _ _ _ _ _ ih => exact ih hf

end Decoder

/-! ## Runs of a decoder beside its queue -/

/-- What may happen to a decoder and the queue that it takes from. -/
inductive BenchOp (S M : Type) where
  | queue (op : QueueOp)
  /-- Another user of the codec's medium changes it. -/
  | medium (m : M)
  /-- The decoder is asked for the next frame; if it has to wait, it is asked again later. -/
  | next (now : S)

namespace DecoderBench

variable {S M σ F : Type} [Scalar S] [CodecUnit F]

/-- The effect of an operation. -/
def perform (codec : Codec S M σ F) (b : DecoderBench S M σ F) :
    BenchOp S M → DecoderBench S M σ F
  | .queue op => { b with queue := b.queue.perform op }
  | .medium m => { b with medium := m }
  | .next now => (b.nextCall codec now ()).1

/-- The effect of a run. -/
def run (codec : Codec S M σ F) (b : DecoderBench S M σ F) (ops : List (BenchOp S M)) :
    DecoderBench S M σ F :=
  ops.foldl (perform codec) b

theorem nextCall_fst (codec : Codec S M σ F) (now : S) (b : DecoderBench S M σ F) :
    (b.nextCall codec now ()).1 =
      let r := b.decoder.next codec now b.queue b.medium
      ⟨r.decoder, r.queue, r.medium, r.calls.reverse ++ b.calls⟩ := by
  unfold nextCall
  dsimp only
  split <;> rfl

end DecoderBench

end Playback
