import Playback.Buffer.PacketQueue
import Playback.Decoding.Codec

/-!
# Decoders

A `Decoder` takes the entries of a packet queue, feeds its codec and gives out timed frames. It
follows the queue's epochs: entries of an earlier epoch than the queue's are passed over without
reaching the codec, a flush marker makes the codec and the decoder forget the epoch before, and an
end-of-stream entry makes the codec give out what it holds, after which the decoder reports that
the epoch is finished.

A unit without a timestamp follows the frame before it in the same epoch.

`Decoder.next` is the whole call of a decode loop. It goes on until there is something to report,
or the queue is empty and the call has to wait; what was taken from the queue until then stays
taken, so a call that waited goes on where it stopped when it is made again.
-/

namespace Playback

/-- What a decoder is doing. -/
inductive DecoderPhase where
  /-- It was never asked for a frame. -/
  | idle
  | decoding
  /-- It has given out everything of an epoch. -/
  | finished
  | aborted
  deriving DecidableEq, Inhabited

/-- The phase's name. -/
def DecoderPhase.name : DecoderPhase → String
  | idle => "idle"
  | decoding => "decoding"
  | finished => "finished"
  | aborted => "aborted"

/-- The decoder of one stream; `σ` is the state of its codec. -/
structure Decoder (S σ F : Type) where
  kind : MediaKind
  timeBase : Ratio
  /-- Duration of a unit that does not tell its own. -/
  fallback : S
  codec : σ
  /-- Units given out by the codec and not yet by the decoder. -/
  pending : List F
  /-- Epoch of the entry taken last. -/
  serial : Nat
  /-- Timestamp of the next unit if it has none of its own. -/
  nextPts : Option S
  /-- The codec has given out what it held, and that is not yet reported. -/
  drained : Bool
  phase : DecoderPhase
  /-- The epoch finished last, unless the decoder has gone on since. -/
  finished : Option Nat

/-- What a call for the next frame comes to. -/
inductive Decoded (S F : Type) where
  | frame (f : DecodedFrame S F)
  /-- The epoch has no more frames. -/
  | finished
  | failed (cause : CodecFailure)
  /-- The queue is aborted. -/
  | aborted
  /-- The queue is empty. -/
  | wait

namespace Decoder

variable {S M σ F : Type} [Scalar S] [CodecUnit F]

/-- A decoder that was never asked for a frame. -/
def new (kind : MediaKind) (codec : σ) (timeBase : Ratio) (fallback : S) : Decoder S σ F where
  kind := kind
  timeBase := timeBase
  fallback := fallback
  codec := codec
  pending := []
  serial := 0
  nextPts := none
  drained := false
  phase := .idle
  finished := none

/-- Forgets what belongs to the epoch so far. -/
def resetEpoch (d : Decoder S σ F) : Decoder S σ F :=
  { d with pending := [], nextPts := none, drained := false }

/-- Takes up the epoch of an entry. -/
def enter (d : Decoder S σ F) (serial : Nat) : Decoder S σ F :=
  if serial = d.serial then d else { d.resetEpoch with serial := serial }

/-- Gives a unit its time and epoch. -/
def stamp (d : Decoder S σ F) (unit : F) : DecodedFrame S F × Decoder S σ F :=
  let pts := ((CodecUnit.pts unit).map d.timeBase.seconds).or d.nextPts
  let duration := (CodecUnit.duration unit d.timeBase).getD d.fallback
  let frame : DecodedFrame S F :=
    { pts := pts
      duration := duration
      serial := d.serial
      pos := CodecUnit.pos unit
      content := unit }
  match pts with
  | some pts => (frame, { d with nextPts := some (pts + duration) })
  | none => (frame, d)

/-- Gives out a pending unit or the end of the epoch, if the decoder is in the epoch `epoch`. -/
def emit? (d : Decoder S σ F) (epoch : Nat) : Option (Decoded S F × Decoder S σ F) :=
  if epoch = d.serial then
    match d.pending with
    | unit :: rest =>
      let (frame, d) := stamp { d with pending := rest } unit
      some (.frame frame, d)
    | [] =>
      if d.drained then
        some (.finished,
          { d with drained := false, phase := .finished, finished := some d.serial })
      else none
  else none

/-- Drops what is pending unless it is of the epoch `epoch`. -/
def dropStale (d : Decoder S σ F) (epoch : Nat) : Decoder S σ F :=
  if epoch = d.serial then d else { d with pending := [], drained := false }

/-- Hands an entry of the current epoch to the codec. -/
def feed (codec : Codec S M σ F) (now : S) (m : M) (d : Decoder S σ F) (e : Entry) :
    Option CodecFailure × CodecCall × Decoder S σ F × M :=
  match e with
  | .flush =>
    (none, .flush d.serial,
      { d.resetEpoch with
        codec := codec.flush d.codec
        phase := .decoding
        finished := none }, m)
  | .endOfStream =>
    match codec.drain now m d.codec with
    | (.ok units, s, m) =>
      (none, .drain d.serial, { d with codec := s, pending := d.pending ++ units, drained := true },
        m)
    | (.error e, s, m) => (some e, .drain d.serial, { d with codec := s }, m)
  | .data packet =>
    match codec.decode now packet m d.codec with
    | (.ok units, s, m) =>
      (none, .decode d.serial packet, { d with codec := s, pending := d.pending ++ units }, m)
    | (.error e, s, m) => (some e, .decode d.serial packet, { d with codec := s }, m)

/-- A call for the next frame after it has come to something. -/
structure Run (S M σ F : Type) where
  result : Decoded S F
  decoder : Decoder S σ F
  /-- The decoder just before it gave out the result: a frame is still pending there. -/
  before : Decoder S σ F
  queue : PacketQueue
  medium : M
  /-- The calls that the codec received, in order. -/
  calls : List CodecCall

/-- Goes through the entries of a queue until there is something to report. The list is that of
the queue's entries; `calls` are those made so far, the latest first. -/
def run (codec : Codec S M σ F) (now : S) :
    List QueuedEntry → Decoder S σ F → PacketQueue → M → List CodecCall → Run S M σ F
  | entries, d, q, m, calls =>
    match d.emit? q.serial with
    | some (result, d') => ⟨result, d', d, q, m, calls.reverse⟩
    | none =>
      let d := d.dropStale q.serial
      match entries, q.take with
      | _, .aborted => ⟨.aborted, { d with phase := .aborted }, d, q, m, calls.reverse⟩
      | _ :: rest, .ready (e, q) =>
        let d := d.enter e.serial
        if e.serial = q.serial then
          match d.feed codec now m e.entry with
          | (some cause, call, d, m) => ⟨.failed cause, d, d, q, m, (call :: calls).reverse⟩
          | (none, call, d, m) => run codec now rest d q m (call :: calls)
        else run codec now rest d q m calls
      | _, _ => ⟨.wait, d, d, q, m, calls.reverse⟩

/-- Asks for the next frame, or the end of the current epoch. -/
def next (codec : Codec S M σ F) (now : S) (d : Decoder S σ F) (q : PacketQueue) (m : M) :
    Run S M σ F :=
  let d := if d.phase = .idle then { d with phase := .decoding } else d
  run codec now q.entries d q m []

/-- The failure that a session reports for a failure of this decoder's codec. -/
def failure (d : Decoder S σ F) (cause : CodecFailure) : PlaybackFailure :=
  .decoding d.kind cause

end Decoder

/-! ### A decoder beside its queue -/

/-- A decoder with the queue that it takes from, the medium of its codec and the calls that the
codec received, the latest first. -/
structure DecoderBench (S M σ F : Type) where
  decoder : Decoder S σ F
  queue : PacketQueue
  medium : M
  calls : List CodecCall

namespace DecoderBench

variable {S M σ F : Type} [Scalar S] [CodecUnit F]

/-- The call for the next frame, as a call that may wait. -/
def nextCall (codec : Codec S M σ F) (now : S) (_ : Unit) (b : DecoderBench S M σ F) :
    DecoderBench S M σ F × Reply (Decoded S F) :=
  let r := b.decoder.next codec now b.queue b.medium
  let b : DecoderBench S M σ F := ⟨r.decoder, r.queue, r.medium, r.calls.reverse ++ b.calls⟩
  match r.result with
  | .wait => (b, .wait)
  | result => (b, .ready result)

end DecoderBench

end Playback
