import Playback.Buffer.FrameRing
import Playback.Buffer.PacketQueue
import Playback.Timing.Clock

/-!
# Open streams

A `Stream` holds what is created when a stream of the source is opened: its packet queue, the ring
of its decoded frames, and its clock, which speaks for the epoch of the packet queue. A stream is
not used again after it was closed.
-/

namespace Playback

/-- An open stream with frames of type `α`. -/
structure Stream (S α : Type) where
  params : StreamParams
  packets : PacketQueue
  frames : FrameRing α
  clock : Clock S
  /-- The stream's decoder gave up. -/
  failed : Bool
  openedAt : S
  /-- Payload bytes accepted since the stream was opened. -/
  received : Nat

namespace Stream

variable {S α : Type} [Scalar S]

/-- A stream around an existing packet queue. -/
def new (params : StreamParams) (capacity : Nat) (keepLast : Bool) (packets : PacketQueue)
    (now : S) : Stream S α where
  params := params
  packets := packets
  frames := FrameRing.new capacity keepLast
  clock := Clock.new now
  failed := false
  openedAt := now
  received := 0

/-- The value of the stream's clock. -/
def clockValue (s : Stream S α) (now : S) : Option S :=
  s.clock.read (some s.packets.serial) now

/-- Queues a packet and counts its bytes, unless the queue is aborted. -/
def queuePacket (s : Stream S α) (p : Packet) : Stream S α :=
  match s.packets.put? (.data p) with
  | some packets => { s with packets := packets, received := s.received + p.size }
  | none => s

/-- Queues a marker or the end of the stream, unless the queue is aborted. -/
def queueEntry (s : Stream S α) (e : Entry) : Stream S α :=
  { s with packets := s.packets.put e }

/-- Whether enough is queued to stop reading: more than `minFrames` entries that last more than a
second, or whose duration is not known. A still picture and an aborted queue never need more. -/
def hasEnough (s : Stream S α) (minFrames : Nat) : Bool :=
  s.params.attachedPicture || s.packets.aborted ||
    (minFrames < s.packets.length &&
      (s.packets.duration = 0 || (1.0 : S) < s.params.timeBase.seconds s.packets.duration))

/-- Bytes received per second since the stream was opened. -/
def bandwidth (s : Stream S α) (now : S) : S :=
  let elapsed := now - s.openedAt
  if elapsed ≤ 0.0 then 0.0 else Scalar.ofNat s.received / elapsed

/-- Shuts the stream's queues down. -/
def abort (s : Stream S α) : Stream S α :=
  { s with packets := s.packets.abort, frames := s.frames.stop }

/-- Gives the stream up because of its decoder. -/
def fail (s : Stream S α) : Stream S α :=
  { s.abort with failed := true }

/-- Shuts the stream down and drops what it has queued. -/
def close (s : Stream S α) : Stream S α :=
  { s.abort with packets := s.packets.abort.clear }

end Stream

end Playback
