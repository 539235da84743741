import Playback.Failure
import Playback.Media.Frame

/-!
# Codecs

A codec turns the packets of one stream into units. It is a machine with a state `σ` of its own
and may also use a medium `M` that it shares with other parts of the same source. It is asked for
three things: to decode a packet, to give out what it still holds at the end of the stream, and to
forget what it holds.
-/

namespace Playback

/-- A codec with states `σ` and units `F`, over a medium `M` and times `S`. -/
structure Codec (S M σ F : Type) where
  /-- Takes a packet and gives the units that are complete with it. -/
  decode : S → Packet → M → σ → Except CodecFailure (List F) × σ × M
  /-- Gives the units that are still held. -/
  drain : S → M → σ → Except CodecFailure (List F) × σ × M
  /-- Forgets everything. -/
  flush : σ → σ

namespace Codec

variable {S M M' σ F : Type}

/-- A codec seen from a larger medium, of which `get` and `set` access the codec's part. -/
def within (c : Codec S M σ F) (get : M' → M) (set : M' → M → M') : Codec S M' σ F where
  decode now packet m s :=
    let (r, s, part) := c.decode now packet (get m) s
    (r, s, set m part)
  drain now m s :=
    let (r, s, part) := c.drain now (get m) s
    (r, s, set m part)
  flush := c.flush

end Codec

/-- A call that a codec received, with the epoch that it was made for. -/
inductive CodecCall where
  | decode (serial : Nat) (packet : Packet)
  | drain (serial : Nat)
  | flush (serial : Nat)
  deriving DecidableEq

/-- The epoch that a call was made for. -/
def CodecCall.serial : CodecCall → Nat
  | decode serial _ => serial
  | drain serial => serial
  | flush serial => serial

end Playback
