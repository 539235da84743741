import Playback.Decoding.Codec
import Playback.Source.Container

/-!
# Scripted sources

A source that plays a script: a list of packets and events, in which each packet comes with what
its codec shall make of it. The payload of a packet starts with the number of its line, so a codec
finds the line from the packet alone.
-/

namespace Playback

/-- A packet of a script and what its codec makes of it. -/
structure ScriptRow where
  packet : Packet
  /-- Units for a video codec. -/
  pictures : List DecodedPicture
  /-- Units for an audio codec. -/
  blocks : List DecodedAudio
  /-- The codec keeps what it has. -/
  hold : Bool
  /-- The codec fails with this text. -/
  fail : Option String

/-- One line of a script. -/
inductive ScriptLine where
  | row (r : ScriptRow)
  /-- Reading fails. -/
  | readError (reason : String)
  /-- Reading fails at the end of the source. -/
  | endOfFile

/-- A scripted source. -/
structure Script (S : Type) where
  info : SourceInfo S
  lines : Array ScriptLine
  /-- The single picture of one stream. -/
  attached : Option ScriptRow
  /-- Where the successive seeks lead. -/
  seekTo : List Nat
  /-- Number of the seek that fails. -/
  seekFailsAt : Option Nat
  videoOpenFails : Option String
  audioOpenFails : Option String
  videoDrainFails : Option String
  audioDrainFails : Option String

namespace ScriptRow

/-- The bytes of a line's number. -/
def numberBytes (n : Nat) : Bytes :=
  Array.ofFn fun i : Fin 4 => (n >>> (8 * i.val)).toUInt8

/-- The number that a payload starts with. -/
def numberOf (data : Bytes) : Nat :=
  (List.range 4).foldl (fun acc i => acc + (data.getD i 0).toNat <<< (8 * i)) 0

/-- The packet of a line, with a payload of at least `size` bytes that starts with its number. -/
def numbered (r : ScriptRow) (n size : Nat) : ScriptRow :=
  { r with packet := { r.packet with data := numberBytes n ++ Array.replicate (size - 4) 0 } }

end ScriptRow

/-! ### Codecs -/

namespace Script

/-- A codec that does what the rows of its packets say; its state is what it holds. -/
def codec {S M F : Type} (rows : Array ScriptRow) (units : ScriptRow → List F)
    (drainFails : Option String) : Codec S M (List F) F where
  decode _ packet m held :=
    match rows[ScriptRow.numberOf packet.data]? with
    | none => (.ok [], held, m)
    | some row =>
      match row.fail with
      | some reason => (.error (.cannotDecode reason), held, m)
      | none =>
        let held := held ++ units row
        if row.hold then (.ok [], held, m) else (.ok held, [], m)
  drain _ m held :=
    match drainFails with
    | some reason => (.error (.cannotDecode reason), held, m)
    | none => (.ok held, [], m)
  flush _ := []

/-! ### Container -/

/-- Where the reading of a script is. -/
structure Progress where
  /-- Number of the next line. -/
  position : Nat
  /-- Number of seeks so far. -/
  seeks : Nat
  deriving DecidableEq, Inhabited

variable {S : Type}

/-- A row that does nothing, in the place of lines that hold no packet. -/
def blankRow : ScriptRow :=
  ⟨default, [], [], false, none⟩

/-- The rows by line number; the single picture comes after the lines. -/
def rows (s : Script S) : Array ScriptRow :=
  let rows := s.lines.map fun
    | .row r => r
    | _ => blankRow
  match s.attached with
  | some r => rows.push r
  | none => rows

/-- The container of a script. -/
def container (s : Script S) : Container S Progress where
  attachedPicture index _ :=
    s.attached.bind fun r => if r.packet.stream = index then some r.packet else none
  read _ p :=
    match s.lines[p.position]? with
    | none => (.ok .endOfFile, p)
    | some (.row r) => (.ok (.packet r.packet), { p with position := p.position + 1 })
    | some (.readError reason) =>
      (.error (.cannotRead reason), { p with position := p.position + 1 })
    | some .endOfFile => (.error .endOfFile, { p with position := p.position + 1 })
  seek _ p :=
    let n := p.seeks
    let p := { p with seeks := n + 1 }
    if s.seekFailsAt = some n then (.error (.cannotSeek "not seekable"), p)
    else
      match s.seekTo[n]? with
      | some position => (.ok (), { p with position := position })
      | none => (.ok (), p)
  setPaused _ p := p

end Script

end Playback
