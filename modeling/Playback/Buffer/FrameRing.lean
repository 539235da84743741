import Playback.Buffer.Reply
import Playback.Media.Frame

/-!
# Frame rings

Decoded frames wait in a ring of fixed capacity. The producer reserves the slot at the write index
and publishes a frame in it; the consumer looks at the frame at the read index and moves on.

A ring with `keepLast` keeps the frame that was shown last, so that it can be compared with the
next one and drawn again. There, the first move only marks the frame at the read index as shown,
and each later move releases the shown frame, which makes its successor the shown one.
-/

namespace Playback

/-- A ring of decoded frames. -/
structure FrameRing (α : Type) where
  slots : Array (Option α)
  readIndex : Nat
  writeIndex : Nat
  /-- Number of frames, with the shown one. -/
  size : Nat
  /-- The frame at the read index has been shown and is kept. -/
  shown : Bool
  keepLast : Bool
  stopped : Bool

namespace FrameRing

variable {α : Type}

/-- An empty ring; it has at least one slot. -/
def new (capacity : Nat) (keepLast : Bool) : FrameRing α where
  slots := Array.replicate (max capacity 1) none
  readIndex := 0
  writeIndex := 0
  size := 0
  shown := false
  keepLast := keepLast
  stopped := false

/-- Number of slots. -/
def capacity (r : FrameRing α) : Nat :=
  r.slots.size

/-- Number of frames that were shown and are kept: none or one. -/
def shownCount (r : FrameRing α) : Nat :=
  if r.shown then 1 else 0

/-- Number of frames not yet shown. -/
def remaining (r : FrameRing α) : Nat :=
  r.size - r.shownCount

/-- The frame `k` places after the read index. -/
def frameAt (r : FrameRing α) (k : Nat) : Option α :=
  (r.slots[(r.readIndex + k) % r.capacity]?).join

/-- Asks for the slot to write the next frame to. -/
def reserve (r : FrameRing α) : Reply Nat :=
  if r.stopped then .aborted
  else if r.capacity ≤ r.size then .wait
  else .ready r.writeIndex

/-- Makes a frame in the reserved slot `index` visible to the consumer. -/
def publish (r : FrameRing α) (index : Nat) (frame : α) : FrameRing α :=
  { r with
    slots := r.slots.setIfInBounds index (some frame)
    writeIndex := (r.writeIndex + 1) % r.capacity
    size := r.size + 1 }

/-- Reserves a slot and publishes a frame in it. -/
def push (r : FrameRing α) (frame : α) : Reply (FrameRing α) :=
  r.reserve.map fun index => r.publish index frame

/-- The first frame not yet shown. -/
def next? (r : FrameRing α) : Option α :=
  if r.size ≤ r.shownCount then none else r.frameAt r.shownCount

/-- The first frame not yet shown, for a consumer that waits for it. -/
def awaitNext (r : FrameRing α) : Reply α :=
  if r.stopped then .aborted
  else if r.size ≤ r.shownCount then .wait
  else
    match r.frameAt r.shownCount with
    | some frame => .ready frame
    | none => .aborted

/-- The first frame not yet shown, unless the ring is stopped. -/
def available? (r : FrameRing α) : Option α :=
  if r.stopped then none else r.next?

/-- The frame at the read index: the shown one if there is one. -/
def last? (r : FrameRing α) : Option α :=
  if r.size = 0 then none else r.frameAt 0

/-- The second frame not yet shown. -/
def second? (r : FrameRing α) : Option α :=
  if r.size < r.shownCount + 2 then none else r.frameAt (r.shownCount + 1)

/-- Consumes the first frame not yet shown, if there is one. -/
def advance (r : FrameRing α) : FrameRing α :=
  if r.size ≤ r.shownCount then r
  else if r.keepLast && !r.shown then { r with shown := true }
  else
    { r with
      slots := r.slots.setIfInBounds r.readIndex none
      readIndex := (r.readIndex + 1) % r.capacity
      size := r.size - 1 }

/-- Consumes frames until one satisfies `p`, at most so many, and gives that one. -/
def takeFirst (p : α → Bool) : Nat → FrameRing α → Option α × FrameRing α
  | 0, r => (none, r)
  | n + 1, r =>
    match r.available? with
    | none => (none, r)
    | some frame => if p frame then (some frame, r.advance) else takeFirst p n r.advance

/-- Refuses all calls that may wait, from now on. -/
def stop (r : FrameRing α) : FrameRing α :=
  { r with stopped := true }

/-- The byte position of the shown frame, if it belongs to the epoch `serial`. -/
def lastShownPos {S : Type} [Timed S α] (r : FrameRing α) (serial : Nat) : Option Int :=
  if r.shown then
    r.last?.bind fun frame =>
      if (Timed.timing frame).serial = serial then (Timed.timing frame).pos else none
  else none

/-- Calls on a ring that may wait. -/
inductive Call (α : Type) where
  /-- Waits for a free slot and gives it back. -/
  | reserve
  /-- Waits for a free slot and publishes a frame in it. -/
  | push (frame : α)
  /-- Waits for a frame that is not yet shown. -/
  | awaitNext

/-- Answers to calls on a ring. -/
inductive Answer (α : Type) where
  | reserved
  | pushed
  | frame (value : α)

/-- Tries a call that may wait. -/
def attempt (c : Call α) (r : FrameRing α) : FrameRing α × Reply (Answer α) :=
  match c with
  | .reserve => (r, r.reserve.map fun _ => .reserved)
  | .push frame =>
    match r.push frame with
    | .ready r' => (r', .ready .pushed)
    | .aborted => (r, .aborted)
    | .wait => (r, .wait)
  | .awaitNext => (r, r.awaitNext.map .frame)

end FrameRing

end Playback
