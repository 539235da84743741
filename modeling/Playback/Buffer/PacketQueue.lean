import Playback.Buffer.Reply
import Playback.Media.Stream

/-!
# Packet queues

The compressed packets of one stream on their way to its decoder, first in, first out. Each entry
carries the serial number of the *epoch* in which it was queued. Starting the queue and each flush
marker open a new epoch, so that what was queued before a seek can be told from what came after.

An aborted queue takes and gives nothing. A new queue is aborted until it is started.
-/

namespace Playback

/-- What a queue carries. -/
inductive Entry where
  | data (packet : Packet)
  /-- A new epoch begins; the codec forgets what it holds. -/
  | flush
  /-- Nothing follows in this epoch; the codec gives out what it holds. -/
  | endOfStream
  deriving DecidableEq, Inhabited

namespace Entry

/-- Payload bytes of an entry. -/
def size : Entry → Nat
  | data p => p.size
  | _ => 0

/-- Duration of an entry in ticks; a negative duration counts as none. -/
def duration : Entry → Int
  | data p => max p.duration 0
  | _ => 0

end Entry

/-- An entry with the epoch in which it was queued. -/
structure QueuedEntry where
  entry : Entry
  serial : Nat
  deriving DecidableEq, Inhabited

/-- The packets of one stream that wait for its decoder. -/
structure PacketQueue where
  entries : List QueuedEntry
  /-- Payload bytes of the entries. -/
  size : Nat
  /-- Ticks that the entries last. -/
  duration : Int
  /-- The current epoch. -/
  serial : Nat
  aborted : Bool
  deriving DecidableEq, Inhabited

namespace PacketQueue

/-- An empty queue that is not started yet. -/
def new : PacketQueue where
  entries := []
  size := 0
  duration := 0
  serial := 0
  aborted := true

/-- Number of queued entries. -/
def length (q : PacketQueue) : Nat :=
  q.entries.length

/-- Appends an entry. A flush marker opens a new epoch and belongs to it. -/
def append (q : PacketQueue) (e : Entry) : PacketQueue :=
  let serial := if e = .flush then q.serial + 1 else q.serial
  { q with
    entries := q.entries ++ [⟨e, serial⟩]
    size := q.size + e.size
    duration := q.duration + e.duration
    serial := serial }

/-- Lets the queue work, in a new epoch. -/
def start (q : PacketQueue) : PacketQueue :=
  append { q with aborted := false } .flush

/-- Appends an entry unless the queue is aborted. -/
def put? (q : PacketQueue) (e : Entry) : Option PacketQueue :=
  if q.aborted then none else some (q.append e)

/-- Appends an entry; an aborted queue stays as it is. -/
def put (q : PacketQueue) (e : Entry) : PacketQueue :=
  (q.put? e).getD q

/-- Takes the oldest entry. -/
def take (q : PacketQueue) : Reply (QueuedEntry × PacketQueue) :=
  if q.aborted then .aborted
  else
    match q.entries with
    | [] => .wait
    | e :: rest =>
      .ready (e, { q with
        entries := rest
        size := q.size - e.entry.size
        duration := q.duration - e.entry.duration })

/-- Shuts the queue down until it is started again. -/
def abort (q : PacketQueue) : PacketQueue :=
  { q with aborted := true }

/-- Drops all entries; the epoch stays. -/
def clear (q : PacketQueue) : PacketQueue :=
  { q with entries := [], size := 0, duration := 0 }

/-- Drops all entries and opens a new epoch, as after a seek. -/
def restart (q : PacketQueue) : PacketQueue :=
  q.clear.put .flush

/-- The call of a decoder that wants the oldest entry and waits for one if there is none. -/
def takeCall (_ : Unit) (q : PacketQueue) : PacketQueue × Reply QueuedEntry :=
  match q.take with
  | .ready (e, q') => (q', .ready e)
  | .aborted => (q, .aborted)
  | .wait => (q, .wait)

end PacketQueue

end Playback
