import Mathlib.Data.Nat.ModEq
import Playback.Buffer.FrameRing

/-!
# Frame rings are bounded queues

A frame ring with its wrapping indices does what a plain log does: a list of the frames published so
far and the number of those taken. `FrameLog` is that log, with the bound on the frames in the ring
and the frame that is kept after it was taken.

* `Holds` relates a ring to a log: what the indices are, and which frame is in which slot.
* `Holds.publish`, `Holds.advance`: each step of the producer and of the consumer keeps it.
* `ring_refines_log`: over every run, ring and log give the same answers, the indices are in
  place, and the frames that are seen are the next two of the log and the kept one.

The producer may have one reservation outstanding, and the consumer may do anything meanwhile.
-/

namespace Playback

/-- One step of the producer or of the consumer of a ring. -/
inductive RingStep (α : Type) where
  /-- The producer asks for a slot. -/
  | reserve
  /-- The producer publishes a frame in the slot that it has reserved. -/
  | publish (frame : α)
  /-- The producer gives its slot back unused. -/
  | discard
  | advance
  | stop
  | next
  | second
  | last
  | await
  | available
  | remaining

/-- What a step answers. -/
inductive RingAnswer (α : Type) where
  | silent
  | slot (reply : Reply Unit)
  | frame (frame : Option α)
  | awaited (reply : Reply α)
  | count (n : Nat)

/-! ## The log -/

/-- The frames published so far, of which the first `taken` were taken. -/
structure FrameLog (α : Type) where
  capacity : Nat
  keepLast : Bool
  published : List α
  taken : Nat
  stopped : Bool
  /-- The producer has a slot. -/
  reserved : Bool

namespace FrameLog

variable {α : Type}

/-- The log of a new ring. -/
def new (capacity : Nat) (keepLast : Bool) : FrameLog α :=
  ⟨max capacity 1, keepLast, [], 0, false, false⟩

/-- Number of frames that were taken and are kept: none or one. -/
def kept (l : FrameLog α) : Nat :=
  if l.keepLast ∧ 0 < l.taken then 1 else 0

/-- Number of frames that occupy a slot. -/
def size (l : FrameLog α) : Nat :=
  l.published.length - l.taken + l.kept

/-- Whether there is a slot to write to. -/
def reserve (l : FrameLog α) : Reply Unit :=
  if l.stopped then .aborted else if l.capacity ≤ l.size then .wait else .ready ()

/-- The first frame not taken, the one after it, and the kept frame or else the first. -/
def next? (l : FrameLog α) : Option α := l.published[l.taken]?

@[inherit_doc next?]
def second? (l : FrameLog α) : Option α := l.published[l.taken + 1]?

@[inherit_doc next?]
def last? (l : FrameLog α) : Option α := l.published[l.taken - l.kept]?

/-- The first frame not taken, for a consumer that waits for it. -/
def awaitNext (l : FrameLog α) : Reply α :=
  if l.stopped then .aborted else l.next?.elim .wait .ready

/-- The effect of a step on the log, and its answer. -/
def perform (l : FrameLog α) : RingStep α → FrameLog α × RingAnswer α
  | .reserve =>
    if l.reserved then (l, .silent)
    else ({ l with reserved := l.reserve = .ready () }, .slot l.reserve)
  | .publish frame =>
    if l.reserved then
      ({ l with published := l.published ++ [frame], reserved := false }, .silent)
    else (l, .silent)
  | .discard => ({ l with reserved := false }, .silent)
  | .advance => ({ l with taken := min (l.taken + 1) l.published.length }, .silent)
  | .stop => ({ l with stopped := true }, .silent)
  | .next => (l, .frame l.next?)
  | .second => (l, .frame l.second?)
  | .last => (l, .frame l.last?)
  | .await => (l, .awaited l.awaitNext)
  | .available => (l, .frame (if l.stopped then none else l.next?))
  | .remaining => (l, .count (l.published.length - l.taken))

/-- The log after a run, and the answers given in it. -/
def run (l : FrameLog α) : List (RingStep α) → FrameLog α × List (RingAnswer α)
  | [] => (l, [])
  | step :: rest =>
    let (l, answer) := l.perform step
    let (l, answers) := l.run rest
    (l, answer :: answers)

theorem capacity_perform (l : FrameLog α) (step : RingStep α) :
    (l.perform step).1.capacity = l.capacity := by
  cases step <;> simp only [perform] <;> split_ifs <;> rfl

theorem keepLast_perform (l : FrameLog α) (step : RingStep α) :
    (l.perform step).1.keepLast = l.keepLast := by
  cases step <;> simp only [perform] <;> split_ifs <;> rfl

theorem capacity_run (l : FrameLog α) (steps : List (RingStep α)) :
    (l.run steps).1.capacity = l.capacity := by
  induction steps generalizing l with
  | nil => rfl
  | cons step rest ih => exact (ih _).trans (l.capacity_perform step)

theorem keepLast_run (l : FrameLog α) (steps : List (RingStep α)) :
    (l.run steps).1.keepLast = l.keepLast := by
  induction steps generalizing l with
  | nil => rfl
  | cons step rest ih => exact (ih _).trans (l.keepLast_perform step)

end FrameLog

/-! ## The ring with its producer -/

/-- A ring and the slot that its producer has reserved. -/
structure RingBench (α : Type) where
  ring : FrameRing α
  reserved : Option Nat

namespace RingBench

variable {α : Type}

/-- The effect of a step on the ring, and its answer. -/
def perform (b : RingBench α) : RingStep α → RingBench α × RingAnswer α
  | .reserve =>
    match b.reserved, b.ring.reserve with
    | some _, _ => (b, .silent)
    | none, .ready index => ({ b with reserved := some index }, .slot (.ready ()))
    | none, reply => (b, .slot (reply.map fun _ => ()))
  | .publish frame =>
    match b.reserved with
    | some index => (⟨b.ring.publish index frame, none⟩, .silent)
    | none => (b, .silent)
  | .discard => ({ b with reserved := none }, .silent)
  | .advance => ({ b with ring := b.ring.advance }, .silent)
  | .stop => ({ b with ring := b.ring.stop }, .silent)
  | .next => (b, .frame b.ring.next?)
  | .second => (b, .frame b.ring.second?)
  | .last => (b, .frame b.ring.last?)
  | .await => (b, .awaited b.ring.awaitNext)
  | .available => (b, .frame b.ring.available?)
  | .remaining => (b, .count b.ring.remaining)

/-- The ring after a run, and the answers given in it. -/
def run (b : RingBench α) : List (RingStep α) → RingBench α × List (RingAnswer α)
  | [] => (b, [])
  | step :: rest =>
    let (b, answer) := b.perform step
    let (b, answers) := b.run rest
    (b, answer :: answers)

end RingBench

/-! ## Slots -/

namespace FrameRing

variable {α : Type} {r : FrameRing α} {k : Nat}

theorem slot_inj {n a j k : Nat} (hj : j < n) (hk : k < n) :
    (a + j) % n = (a + k) % n ↔ j = k := by
  refine ⟨fun h => ?_, fun h => h ▸ rfl⟩
  exact Nat.ModEq.eq_of_lt_of_lt (Nat.ModEq.add_left_cancel' a h) hj hk

/-- The ring without the frame at the read index. -/
def release (r : FrameRing α) : FrameRing α :=
  { r with
    slots := r.slots.setIfInBounds r.readIndex none
    readIndex := (r.readIndex + 1) % r.capacity
    size := r.size - 1 }

@[simp] theorem capacity_publish (r : FrameRing α) (i : Nat) (f : α) :
    (r.publish i f).capacity = r.capacity := by
  simp [capacity, publish]

@[simp] theorem capacity_release (r : FrameRing α) : r.release.capacity = r.capacity := by
  simp [capacity, release]

theorem frameAt_publish (hw : r.writeIndex = (r.readIndex + r.size) % r.capacity)
    (hs : r.size < r.capacity) (hk : k < r.capacity) (f : α) :
    (r.publish r.writeIndex f).frameAt k = if k = r.size then some f else r.frameAt k := by
  have hlt : (r.readIndex + r.size) % r.capacity < r.slots.size :=
    Nat.mod_lt _ (by omega)
  have hslot := slot_inj (a := r.readIndex) hs hk
  rw [frameAt, capacity_publish]
  simp only [publish, hw, Array.getElem?_setIfInBounds, hlt, if_true, hslot]
  by_cases h : k = r.size
  · simp [h]
  · simp [h, Ne.symm h, frameAt]

theorem frameAt_release (hr : r.readIndex < r.capacity) (hk : k < r.capacity) :
    r.release.frameAt k = if k + 1 = r.capacity then none else r.frameAt (k + 1) := by
  have hshift : ((r.readIndex + 1) % r.capacity + k) % r.capacity =
      (r.readIndex + (k + 1)) % r.capacity := by
    rw [Nat.mod_add_mod, Nat.add_assoc, Nat.add_comm 1 k]
  rw [frameAt, capacity_release]
  simp only [release, hshift, Array.getElem?_setIfInBounds]
  by_cases h : k + 1 = r.capacity
  · have hin : r.readIndex < r.slots.size := hr
    rw [if_pos h, h, Nat.add_mod_right, Nat.mod_eq_of_lt hr, if_pos rfl, if_pos hin]
    rfl
  · have hne : r.readIndex ≠ (r.readIndex + (k + 1)) % r.capacity := by
      have := slot_inj (a := r.readIndex) (j := 0) (k := k + 1) (n := r.capacity)
        (by omega) (by omega)
      rw [Nat.add_zero, Nat.mod_eq_of_lt hr] at this
      omega
    rw [if_neg h, if_neg hne, frameAt]

/-! ## The relation between ring and log -/

/-- The ring `r` holds the frames of the log `l` that were not taken, after the kept one. -/
structure Holds (r : FrameRing α) (l : FrameLog α) : Prop where
  capacity_eq : r.capacity = l.capacity
  keepLast_eq : r.keepLast = l.keepLast
  stopped_eq : r.stopped = l.stopped
  readIndex_lt : r.readIndex < r.capacity
  writeIndex_eq : r.writeIndex = (r.readIndex + r.size) % r.capacity
  taken_le : l.taken ≤ l.published.length
  shownCount_eq : r.shownCount = l.kept
  size_eq : r.size = l.size
  size_le : r.size ≤ r.capacity
  frameAt_eq : ∀ k < r.capacity, r.frameAt k = l.published[l.taken - l.kept + k]?

theorem holds_new (capacity : Nat) (keepLast : Bool) :
    (FrameRing.new capacity keepLast : FrameRing α).Holds (FrameLog.new capacity keepLast) where
  capacity_eq := by simp [FrameRing.new, FrameRing.capacity, FrameLog.new]
  keepLast_eq := rfl
  stopped_eq := rfl
  readIndex_lt := by simp [FrameRing.new, FrameRing.capacity]
  writeIndex_eq := by simp [FrameRing.new]
  taken_le := Nat.le_refl 0
  shownCount_eq := by simp [FrameRing.new, shownCount, FrameLog.new, FrameLog.kept]
  size_eq := by simp [FrameRing.new, FrameLog.new, FrameLog.size, FrameLog.kept]
  size_le := by simp [FrameRing.new]
  frameAt_eq k _ := by
    have hslot : ∀ i : Nat,
        ((Array.replicate (max capacity 1) (none : Option α))[i]?).join = none := by
      intro i
      rw [Array.getElem?_replicate]
      split <;> rfl
    simp only [frameAt, FrameRing.new, FrameLog.new, List.getElem?_nil, hslot]

namespace Holds

variable {l : FrameLog α}

theorem kept_le_taken (l : FrameLog α) : l.kept ≤ l.taken := by
  unfold FrameLog.kept
  split <;> omega

/-- The frames in the ring are the last ones of the log. -/
theorem length_published (h : r.Holds l) :
    l.published.length = l.taken - l.kept + r.size := by
  have := kept_le_taken l
  have := h.taken_le
  rw [h.size_eq, FrameLog.size]
  omega

theorem frameAt_isSome_iff (h : r.Holds l) (hk : k < r.capacity) :
    (r.frameAt k).isSome ↔ k < r.size := by
  have := h.length_published
  rw [h.frameAt_eq k hk, isSome_getElem?]
  omega

/-! ### Steps that change the ring -/

theorem publish (h : r.Holds l) (hroom : r.size < r.capacity) (f : α) (reserved : Bool) :
    (r.publish r.writeIndex f).Holds
      { l with published := l.published ++ [f], reserved := reserved } where
  capacity_eq := by rw [capacity_publish]; exact h.capacity_eq
  keepLast_eq := h.keepLast_eq
  stopped_eq := h.stopped_eq
  readIndex_lt := by rw [capacity_publish]; exact h.readIndex_lt
  writeIndex_eq := by
    rw [capacity_publish]
    simp only [FrameRing.publish]
    rw [h.writeIndex_eq, Nat.mod_add_mod, Nat.add_assoc]
  taken_le := by
    have := h.taken_le
    simp only [List.length_append, List.length_singleton]
    omega
  shownCount_eq := h.shownCount_eq
  size_eq := by
    have hsize := h.size_eq
    have := h.taken_le
    simp only [FrameRing.publish, FrameLog.size, FrameLog.kept, List.length_append,
      List.length_singleton] at hsize ⊢
    omega
  size_le := by
    rw [capacity_publish]
    exact hroom
  frameAt_eq k hk := by
    rw [capacity_publish] at hk
    have hlen := h.length_published
    rw [frameAt_publish h.writeIndex_eq hroom hk]
    change _ = (l.published ++ [f])[l.taken - l.kept + k]?
    by_cases hnew : k = r.size
    · rw [if_pos hnew, hnew, ← hlen, List.getElem?_concat_length]
    · rw [if_neg hnew, h.frameAt_eq k hk]
      by_cases hold : k < r.size
      · rw [List.getElem?_append_left (by omega)]
      · rw [List.getElem?_eq_none (by omega), List.getElem?_eq_none (by simp; omega)]

theorem stop (h : r.Holds l) : r.stop.Holds { l with stopped := true } :=
  { h with stopped_eq := rfl }

/-- Nothing happens if every frame was taken. -/
theorem advance_of_size_le (h : r.Holds l) (hle : r.size ≤ r.shownCount) :
    r.advance.Holds { l with taken := min (l.taken + 1) l.published.length } := by
  have hall : min (l.taken + 1) l.published.length = l.taken := by
    have := h.taken_le
    rw [h.size_eq, h.shownCount_eq, FrameLog.size] at hle
    omega
  rw [hall, FrameRing.advance, if_pos hle]
  exact h

/-- The first frame that is taken from a ring that keeps it stays in its slot. -/
theorem advance_of_keepLast (h : r.Holds l) (hlt : ¬r.size ≤ r.shownCount)
    (hkeep : (r.keepLast && !r.shown) = true) :
    r.advance.Holds { l with taken := min (l.taken + 1) l.published.length } := by
  obtain ⟨hk, hshown⟩ : r.keepLast = true ∧ r.shown = false := by simpa using hkeep
  have hcount : r.shownCount = 0 := by simp [shownCount, hshown]
  have hlk : l.keepLast = true := h.keepLast_eq ▸ hk
  have hkept : l.kept = 0 := h.shownCount_eq ▸ hcount
  have htaken : l.taken = 0 := by
    simp only [FrameLog.kept, hlk, true_and] at hkept
    by_contra hne
    rw [if_pos (by omega)] at hkept
    omega
  have hsize := h.size_eq
  rw [FrameLog.size, hkept, htaken] at hsize
  have hone : min (l.taken + 1) l.published.length = 1 := by omega
  have hkept' : ({ l with taken := 1 } : FrameLog α).kept = 1 := by simp [FrameLog.kept, hlk]
  rw [hone, FrameRing.advance, if_neg hlt, if_pos hkeep]
  exact
    { h with
      taken_le := by simp only; omega
      shownCount_eq := by rw [hkept']; rfl
      size_eq := by
        rw [FrameLog.size, hkept']
        simp only
        omega
      frameAt_eq := fun k hlt => by
        have hold := h.frameAt_eq k hlt
        rw [hkept, htaken] at hold
        rw [hkept']
        exact hold }

/-- In every other case a slot becomes free. -/
theorem advance_of_release (h : r.Holds l) (hlt : ¬r.size ≤ r.shownCount)
    (hkeep : ¬(r.keepLast && !r.shown) = true) :
    r.advance.Holds { l with taken := min (l.taken + 1) l.published.length } := by
  have hadv : r.advance = r.release := by
    rw [FrameRing.advance, if_neg hlt, if_neg hkeep]
    rfl
  have hle := kept_le_taken l
  have hlen := h.length_published
  have hsize := h.size_eq
  have hcount := h.shownCount_eq
  rw [FrameLog.size] at hsize
  have htaken : min (l.taken + 1) l.published.length = l.taken + 1 := by omega
  have hkept : ({ l with taken := l.taken + 1 } : FrameLog α).kept = l.kept := by
    have hk := h.keepLast_eq
    simp only [shownCount, FrameLog.kept] at hcount ⊢
    by_cases hl : l.keepLast = true
    · have hs : r.shown = true := by simpa [hk, hl] using hkeep
      simpa [hl, hs] using hcount
    · simp [hl]
  rw [htaken, hadv]
  refine
    { capacity_eq := by rw [capacity_release]; exact h.capacity_eq
      keepLast_eq := h.keepLast_eq
      stopped_eq := h.stopped_eq
      readIndex_lt := ?_
      writeIndex_eq := ?_
      taken_le := ?_
      shownCount_eq := hkept ▸ h.shownCount_eq
      size_eq := ?_
      size_le := ?_
      frameAt_eq := fun k hk => ?_ }
  · have := h.readIndex_lt
    rw [capacity_release]
    exact Nat.mod_lt _ (by omega)
  · rw [capacity_release]
    simp only [release]
    rw [h.writeIndex_eq, Nat.mod_add_mod, Nat.add_assoc, Nat.add_comm 1,
      Nat.sub_add_cancel (by omega)]
  · simp only
    omega
  · rw [FrameLog.size, hkept]
    simp only [release]
    omega
  · have := h.size_le
    rw [capacity_release]
    simp only [release]
    omega
  · rw [capacity_release] at hk
    have hcap := h.size_le
    rw [hkept, frameAt_release h.readIndex_lt hk]
    have hidx : l.taken + 1 - l.kept + k = l.taken - l.kept + (k + 1) := by omega
    simp only [hidx]
    by_cases hlast : k + 1 = r.capacity
    · rw [if_pos hlast, List.getElem?_eq_none (by omega)]
    · rw [if_neg hlast, h.frameAt_eq (k + 1) (by omega)]

theorem advance (h : r.Holds l) :
    r.advance.Holds { l with taken := min (l.taken + 1) l.published.length } := by
  by_cases hlt : r.size ≤ r.shownCount
  · exact h.advance_of_size_le hlt
  · by_cases hkeep : (r.keepLast && !r.shown) = true
    · exact h.advance_of_keepLast hlt hkeep
    · exact h.advance_of_release hlt hkeep

/-! ### Answers -/

theorem frameAt_eq_of_size (h : r.Holds l) (k : Nat) :
    (if r.size ≤ k then none else r.frameAt k) = l.published[l.taken - l.kept + k]? := by
  have hlen := h.length_published
  have := h.size_le
  split_ifs with hk
  · rw [List.getElem?_eq_none (by omega)]
  · exact h.frameAt_eq k (by omega)

theorem next?_eq (h : r.Holds l) : r.next? = l.next? := by
  rw [FrameRing.next?, h.frameAt_eq_of_size, h.shownCount_eq,
    Nat.sub_add_cancel (kept_le_taken l), FrameLog.next?]

theorem second?_eq (h : r.Holds l) : r.second? = l.second? := by
  have hsecond : r.second? = if r.size ≤ r.shownCount + 1 then none
      else r.frameAt (r.shownCount + 1) := by
    simp only [FrameRing.second?, Nat.lt_succ_iff]
  rw [hsecond, h.frameAt_eq_of_size, h.shownCount_eq, ← Nat.add_assoc,
    Nat.sub_add_cancel (kept_le_taken l), FrameLog.second?]

theorem last?_eq (h : r.Holds l) : r.last? = l.last? := by
  have hlast : r.last? = if r.size ≤ 0 then none else r.frameAt 0 := by
    simp only [FrameRing.last?, Nat.le_zero]
  rw [hlast, h.frameAt_eq_of_size, Nat.add_zero, FrameLog.last?]

theorem available?_eq (h : r.Holds l) :
    r.available? = if l.stopped then none else l.next? := by
  rw [FrameRing.available?, h.stopped_eq, h.next?_eq]

theorem awaitNext_eq (h : r.Holds l) : r.awaitNext = l.awaitNext := by
  have hnext := h.next?_eq
  have hlen := h.length_published
  have hle := kept_le_taken l
  rw [FrameRing.next?, h.shownCount_eq] at hnext
  rw [FrameRing.awaitNext, FrameLog.awaitNext, h.stopped_eq, h.shownCount_eq, ← hnext]
  split_ifs with hstop hsize
  · rfl
  · rfl
  · rw [if_neg hsize, FrameLog.next?] at hnext
    rw [hnext, List.getElem?_eq_getElem (by omega)]
    rfl

theorem remaining_eq (h : r.Holds l) : r.remaining = l.published.length - l.taken := by
  rw [FrameRing.remaining, h.size_eq, h.shownCount_eq, FrameLog.size, Nat.add_sub_cancel]

theorem reserve_eq (h : r.Holds l) : (r.reserve.map fun _ => ()) = l.reserve := by
  rw [FrameRing.reserve, FrameLog.reserve, h.stopped_eq, h.capacity_eq, h.size_eq]
  split_ifs <;> rfl

end Holds

end FrameRing

/-! ## Runs -/

namespace RingBench

variable {α : Type} {b : RingBench α} {l : FrameLog α}

/-- Ring and log agree, and a reserved slot is the free one at the write index. -/
structure Holds (b : RingBench α) (l : FrameLog α) : Prop where
  ring : b.ring.Holds l
  reserved_eq : b.reserved = if l.reserved then some b.ring.writeIndex else none
  room : l.reserved = true → b.ring.size < b.ring.capacity

theorem holds_new (capacity : Nat) (keepLast : Bool) :
    (⟨FrameRing.new capacity keepLast, none⟩ : RingBench α).Holds
      (FrameLog.new capacity keepLast) where
  ring := FrameRing.holds_new capacity keepLast
  reserved_eq := rfl
  room h := by simp [FrameLog.new] at h

theorem size_advance_le (r : FrameRing α) : r.advance.size ≤ r.size := by
  unfold FrameRing.advance
  split_ifs <;> simp

theorem writeIndex_advance (r : FrameRing α) : r.advance.writeIndex = r.writeIndex := by
  unfold FrameRing.advance
  split_ifs <;> rfl

theorem capacity_advance (r : FrameRing α) : r.advance.capacity = r.capacity := by
  unfold FrameRing.advance
  split_ifs <;> simp [FrameRing.capacity]

theorem Holds.reserve (h : b.Holds l) :
    (b.perform .reserve).1.Holds (l.perform .reserve).1 ∧
      (b.perform .reserve).2 = (l.perform .reserve).2 := by
  have hreply := h.ring.reserve_eq
  have hres := h.reserved_eq
  cases hl : l.reserved with
  | true =>
    rw [hl, if_pos rfl] at hres
    simp only [perform, FrameLog.perform, hres, hl, if_true]
    exact ⟨h, trivial⟩
  | false =>
    rw [hl, if_neg Bool.false_ne_true] at hres
    cases hr : b.ring.reserve with
    | ready index =>
      have hspec := hr
      rw [hr, Reply.map] at hreply
      rw [FrameRing.reserve] at hspec
      split_ifs at hspec with hstop hfull
      rw [Reply.ready.injEq] at hspec
      simp only [perform, FrameLog.perform, hres, hr, hl, ← hreply]
      refine ⟨⟨{ h.ring with }, ?_, fun _ => ?_⟩, rfl⟩
      · simp [hspec]
      · exact Nat.lt_of_not_le hfull
    | aborted | wait =>
      rw [hr, Reply.map] at hreply
      simp only [perform, FrameLog.perform, hres, hr, hl, ← hreply, Reply.map]
      refine ⟨⟨{ h.ring with }, ?_, fun habs => ?_⟩, rfl⟩
      · simp [hres]
      · simp at habs

theorem Holds.publish (h : b.Holds l) (f : α) :
    (b.perform (.publish f)).1.Holds (l.perform (.publish f)).1 ∧
      (b.perform (.publish f)).2 = (l.perform (.publish f)).2 := by
  have hres := h.reserved_eq
  cases hl : l.reserved with
  | true =>
    rw [hl, if_pos rfl] at hres
    simp only [perform, FrameLog.perform, hres, hl, if_true]
    exact ⟨⟨h.ring.publish (h.room hl) f false, rfl, nofun⟩, trivial⟩
  | false =>
    rw [hl, if_neg Bool.false_ne_true] at hres
    simp only [perform, FrameLog.perform, hres, hl, Bool.false_eq_true, if_false]
    exact ⟨h, trivial⟩

theorem Holds.advance (h : b.Holds l) :
    (b.perform .advance).1.Holds (l.perform .advance).1 where
  ring := h.ring.advance
  reserved_eq := by
    rw [perform, FrameLog.perform]
    simp only [writeIndex_advance]
    exact h.reserved_eq
  room hl := by
    have := h.room hl
    have := size_advance_le b.ring
    simp only [perform, capacity_advance]
    omega

/-- One step of the ring is one step of the log, with the same answer. -/
theorem Holds.perform (h : b.Holds l) (step : RingStep α) :
    (b.perform step).1.Holds (l.perform step).1 ∧ (b.perform step).2 = (l.perform step).2 := by
  cases step with
  | reserve => exact h.reserve
  | publish f => exact h.publish f
  | discard => exact ⟨⟨{ h.ring with }, rfl, nofun⟩, rfl⟩
  | advance => exact ⟨h.advance, rfl⟩
  | stop => exact ⟨⟨h.ring.stop, h.reserved_eq, h.room⟩, rfl⟩
  | next => exact ⟨h, congrArg RingAnswer.frame h.ring.next?_eq⟩
  | second => exact ⟨h, congrArg RingAnswer.frame h.ring.second?_eq⟩
  | last => exact ⟨h, congrArg RingAnswer.frame h.ring.last?_eq⟩
  | await => exact ⟨h, congrArg RingAnswer.awaited h.ring.awaitNext_eq⟩
  | available => exact ⟨h, congrArg RingAnswer.frame h.ring.available?_eq⟩
  | remaining => exact ⟨h, congrArg RingAnswer.count h.ring.remaining_eq⟩

/-- A run of the ring is a run of the log, with the same answers. -/
theorem Holds.run (h : b.Holds l) (steps : List (RingStep α)) :
    (b.run steps).1.Holds (l.run steps).1 ∧ (b.run steps).2 = (l.run steps).2 := by
  induction steps generalizing b l with
  | nil => exact ⟨h, rfl⟩
  | cons step rest ih =>
    obtain ⟨hstep, hanswer⟩ := h.perform step
    obtain ⟨hrest, hanswers⟩ := ih hstep
    exact ⟨hrest, congrArg₂ List.cons hanswer hanswers⟩

/-- A slot that is reserved holds no frame. -/
theorem Holds.slot_eq_none (h : b.Holds l) {i : Nat} (hi : b.reserved = some i) :
    (b.ring.slots[i]?).join = none := by
  have hres := h.reserved_eq
  rw [hi] at hres
  split_ifs at hres with hl
  have hroom := h.room hl
  have hat := h.ring.frameAt_isSome_iff hroom
  rw [Option.some.injEq] at hres
  rw [hres, h.ring.writeIndex_eq, ← Option.not_isSome_iff_eq_none]
  exact fun hsome => absurd (hat.1 hsome) (Nat.lt_irrefl _)

/-- A ring refines the log of its frames over every run. In every state that a run leads to, the
indices are in place, the occupied slots are the first `size` ones from the read index on, a
reserved slot is free, and the frames to be seen are those of the log: the first two that were not
taken, and the kept one. -/
theorem ring_refines_log (capacity : Nat) (keepLast : Bool) (steps : List (RingStep α)) :
    let b := (⟨FrameRing.new capacity keepLast, none⟩ : RingBench α).run steps
    let l := (FrameLog.new capacity keepLast : FrameLog α).run steps
    let r := b.1.ring
    let n := max capacity 1
    b.2 = l.2 ∧
      r.capacity = n ∧ r.size ≤ n ∧ r.readIndex < n ∧
      r.writeIndex = (r.readIndex + r.size) % n ∧
      (∀ k < n, (r.frameAt k).isSome ↔ k < r.size) ∧
      (∀ i, b.1.reserved = some i → (r.slots[i]?).join = none) ∧
      r.shownCount ≤ min 1 r.size ∧
      r.shownCount = (if keepLast ∧ 0 < l.1.taken then 1 else 0) ∧
      l.1.taken ≤ l.1.published.length ∧
      r.remaining = l.1.published.length - l.1.taken ∧
      r.next? = l.1.published[l.1.taken]? ∧
      r.second? = l.1.published[l.1.taken + 1]? ∧
      r.last? = l.1.published[l.1.taken - r.shownCount]? := by
  intro b l r n
  obtain ⟨hb, hanswers⟩ : b.1.Holds l.1 ∧ b.2 = l.2 := (holds_new capacity keepLast).run steps
  have hr : r.Holds l.1 := hb.ring
  have hcap : r.capacity = n := hr.capacity_eq.trans (FrameLog.capacity_run _ steps)
  have hkept : l.1.kept = if keepLast ∧ 0 < l.1.taken then 1 else 0 := by
    rw [FrameLog.kept, FrameLog.keepLast_run _ steps]
    rfl
  have hcount := hr.shownCount_eq
  have hone : l.1.kept ≤ 1 := by
    unfold FrameLog.kept
    split_ifs <;> omega
  refine ⟨hanswers, hcap, hcap ▸ hr.size_le, hcap ▸ hr.readIndex_lt, hcap ▸ hr.writeIndex_eq,
    fun k hk => hr.frameAt_isSome_iff (hcap ▸ hk), fun i hi => hb.slot_eq_none hi, ?_,
    hcount.trans hkept, hr.taken_le, hr.remaining_eq, hr.next?_eq, hr.second?_eq, ?_⟩
  · have hsize := hr.size_eq
    rw [FrameLog.size] at hsize
    omega
  · rw [hcount]
    exact hr.last?_eq

end RingBench

end Playback
