import Playback.Decoding.Codec
import Playback.Synthetic.Container

/-!
# Codecs of synthetic streams

The video codec makes a gray picture of each packet, as bright as the packet's first byte says.
While its source stalls it holds the pictures back. The audio codec makes a sine tone, whose phase
follows the packet's timestamp.
-/

namespace Playback

namespace Synthetic

variable {S : Type} [Scalar S]

/-! ### Pictures -/

/-- State of a video codec. -/
structure GrayCodec (S : Type) where
  width : Nat
  height : Nat
  stall : Option (Stall S)
  /-- Pictures held back by a stall. -/
  held : List DecodedPicture

namespace GrayCodec

/-- Opens a video codec. A stream of a single picture never stalls. -/
def open? (p : StreamParams) (stall : Option (Stall S)) : Except CodecFailure (GrayCodec S) :=
  if p.width = 0 ∨ p.height = 0 then
    .error (.cannotOpen ("invalid picture size " ++ toString p.width ++ "x" ++ toString p.height))
  else
    .ok
      { width := p.width
        height := p.height
        stall := if p.attachedPicture then none else stall
        held := [] }

/-- Whether decoding stalls at `now`, and the moment of the release, which is the first one after
the window. -/
def stalled (c : GrayCodec S) (now : S) (released : Option S) : Bool × Option S :=
  match c.stall with
  | none => (false, released)
  | some w =>
    if w.contains now then (true, released)
    else if w.stop ≤ now then (false, released.or (some now))
    else (false, released)

/-- A gray picture. -/
def picture (c : GrayCodec S) (shade : UInt8) : Picture :=
  let chroma := (c.width / 2) * (c.height / 2)
  { width := c.width
    height := c.height
    format := .yuv420p
    planes :=
      [⟨Array.replicate (c.width * c.height) shade, c.width⟩,
        ⟨Array.replicate chroma 128, c.width / 2⟩,
        ⟨Array.replicate chroma 128, c.width / 2⟩] }

/-- Whether memory holds what is made of a packet. -/
def DecodeComputes (c : GrayCodec S) (packet : Packet) : Prop :=
  packet.data ≠ #[] → c.width * c.height ≤ bufferMax

instance (c : GrayCodec S) (packet : Packet) : Decidable (c.DecodeComputes packet) :=
  inferInstanceAs (Decidable (_ → _))

/-- Decodes a packet. The shared medium is the moment of the release. -/
def decode (now : S) (packet : Packet) (released : Option S) (c : GrayCodec S) :
    Except CodecFailure (List DecodedPicture) × GrayCodec S × Option S :=
  match packet.data[0]? with
  | none => (.error (.cannotDecode "empty video packet"), c, released)
  | some shade =>
    let unit : DecodedPicture :=
      { picture := c.picture shade
        pts := packet.pts
        duration := packet.duration
        pos := packet.pos
        sampleAspect := ⟨1, 1⟩ }
    match c.stalled now released with
    | (true, released) => (.ok [], { c with held := c.held ++ [unit] }, released)
    | (false, released) => (.ok (c.held ++ [unit]), { c with held := [] }, released)

/-- The video codec. -/
def codec : Codec S (Option S) (GrayCodec S) DecodedPicture where
  decode := decode
  drain _ released c := (.ok c.held, { c with held := [] }, released)
  flush c := { c with held := [] }

end GrayCodec

/-! ### Sound -/

/-- State of an audio codec. -/
structure ToneCodec where
  rate : Nat
  channels : Nat
  layout : Nat
  toneHz : Float

namespace ToneCodec

/-- Opens an audio codec for a tone. -/
def open? (p : StreamParams) (toneHz : Float) : Except CodecFailure ToneCodec :=
  if p.rate = 0 ∨ p.channels = 0 then .error (.cannotOpen "audio stream without format")
  else .ok ⟨p.rate, p.channels, p.layout, toneHz⟩

/-- The circumference of the unit circle. -/
def fullTurn : Float := 6.283185307179586

/-- The bytes of one sample of the tone at tick `n`. -/
def sampleBytes (c : ToneCodec) (n : Int) : Bytes :=
  let t := Float.ofInt n / Scalar.ofNat c.rate
  let value := ((fullTurn * c.toneHz * t).sin * 0.2 * 32767.0).toInt16.toUInt16
  #[value.toUInt8, (value >>> 8).toUInt8]

/-- Decodes a packet. -/
def decode (c : ToneCodec) (packet : Packet) : Except CodecFailure (List DecodedAudio) :=
  if packet.data.isEmpty || packet.duration ≤ 0 then
    .error (.cannotDecode "empty audio packet")
  else
    let count := packet.duration.toNat
    let first := packet.pts.getD 0
    let data := (Array.range count).flatMap fun (i : Nat) =>
      let sample := c.sampleBytes (first + (i : Int))
      (Array.range c.channels).flatMap fun _ => sample
    .ok
      [{ samples :=
          { rate := c.rate
            channels := c.channels
            layout := c.layout
            format := .s16
            count := count
            data := data }
         pts := packet.pts
         pos := packet.pos }]

/-- The audio codec, which uses no medium and holds nothing. -/
def codec {M : Type} : Codec S M ToneCodec DecodedAudio where
  decode _ packet m c := (c.decode packet, c, m)
  drain _ m c := (.ok [], c, m)
  flush c := c

end ToneCodec

end Synthetic

end Playback
