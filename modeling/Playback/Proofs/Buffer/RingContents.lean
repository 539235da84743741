import Mathlib.Data.List.Basic
import Mathlib.Logic.Function.Iterate
import Playback.Proofs.Buffer.RingFifo

/-!
# What the frames in a ring have in common

If every frame that is published in a ring has a property, then so has every frame that the
consumer sees, whatever it does with the ring (`Carries`).
-/

namespace Playback

namespace FrameRing

variable {α : Type} {P Q : α → Prop} {r r' : FrameRing α} {x : α}

/-- The ring is in order, and all frames that were published in it have the property `P`. -/
def Carries (r : FrameRing α) (P : α → Prop) : Prop :=
  ∃ l : FrameLog α, r.Holds l ∧ ∀ x ∈ l.published, P x

theorem carries_new (capacity : Nat) (keepLast : Bool) (P : α → Prop) :
    (FrameRing.new capacity keepLast).Carries P :=
  ⟨_, holds_new capacity keepLast, nofun⟩

theorem Holds.push {l : FrameLog α} (h : r.Holds l) (hpush : r.push x = .ready r') :
    r'.Holds { l with published := l.published ++ [x], reserved := false } := by
  unfold FrameRing.push FrameRing.reserve at hpush
  by_cases hstopped : r.stopped = true
  · simp [hstopped, Reply.map] at hpush
  by_cases hfull : r.capacity ≤ r.size
  · simp [hstopped, hfull, Reply.map] at hpush
  simp only [hstopped, hfull, if_false, Bool.false_eq_true, Reply.map, Reply.ready.injEq] at hpush
  rw [← hpush]
  exact h.publish (Nat.lt_of_not_le hfull) x false

namespace Carries

theorem mono (h : r.Carries P) (hPQ : ∀ x, P x → Q x) : r.Carries Q := by
  obtain ⟨l, hl, hall⟩ := h
  exact ⟨l, hl, fun x hx => hPQ x (hall x hx)⟩

/-! ### The producer -/

theorem push (h : r.Carries P) (hx : P x) (hpush : r.push x = .ready r') : r'.Carries P := by
  obtain ⟨l, hl, hall⟩ := h
  refine ⟨_, hl.push hpush, fun y hy => ?_⟩
  rcases List.mem_append.1 hy with hy | hy
  · exact hall y hy
  · rw [List.mem_singleton.1 hy]
    exact hx

theorem stop (h : r.Carries P) : r.stop.Carries P := by
  obtain ⟨l, hl, hall⟩ := h
  exact ⟨_, hl.stop, hall⟩

/-! ### The consumer -/

theorem advance (h : r.Carries P) : r.advance.Carries P := by
  obtain ⟨l, hl, hall⟩ := h
  exact ⟨_, hl.advance, hall⟩

theorem of_next? (h : r.Carries P) (hx : r.next? = some x) : P x := by
  obtain ⟨l, hl, hall⟩ := h
  rw [hl.next?_eq] at hx
  exact hall x (List.mem_of_getElem? hx)

theorem of_available? (h : r.Carries P) (hx : r.available? = some x) : P x := by
  unfold FrameRing.available? at hx
  split_ifs at hx
  exact h.of_next? hx

theorem takeFirst (h : r.Carries P) (p : α → Bool) (n : Nat) :
    (r.takeFirst p n).2.Carries P ∧
      ∀ x, (r.takeFirst p n).1 = some x → P x ∧ p x = true := by
  induction n generalizing r with
  | zero => exact ⟨h, nofun⟩
  | succ n ih =>
    rw [FrameRing.takeFirst]
    cases hnext : r.available? with
    | none => exact ⟨h, nofun⟩
    | some y =>
      simp only
      split_ifs with hp
      · refine ⟨h.advance, fun x hx => ?_⟩
        obtain rfl : y = x := Option.some.inj hx
        exact ⟨h.of_available? hnext, hp⟩
      · exact ih h.advance

/-- A frame that is kept when the ring moves on is the one that it has moved to. -/
theorem last?_advance (h : r.Carries P) (hx : r.next? = some x)
    (hshown : r.advance.shown = true) : r.advance.last? = some x := by
  obtain ⟨l, hl, -⟩ := h
  have hadvance := hl.advance
  rw [hl.next?_eq, FrameLog.next?] at hx
  have hlt : l.taken < l.published.length := (List.getElem?_eq_some_iff.1 hx).1
  have hmin : min (l.taken + 1) l.published.length = l.taken + 1 := by omega
  rw [hmin] at hadvance
  have hkept : ({ l with taken := l.taken + 1 } : FrameLog α).kept = 1 := by
    rw [← hadvance.shownCount_eq, shownCount, if_pos hshown]
  rw [hadvance.last?_eq, FrameLog.last?, hkept]
  exact hx

end Carries

/-- The consumer may have done this to a ring: it takes frames and adds none. -/
def Consumes (g : FrameRing α → FrameRing α) : Prop :=
  ∀ (r : FrameRing α) (P : α → Prop), r.Carries P → (g r).Carries P

/-- The consumer takes frames from the ring one after the other, and does nothing else. -/
def Advances (g : FrameRing α → FrameRing α) : Prop :=
  ∀ r : FrameRing α, ∃ n : Nat, g r = advance^[n] r

theorem advances_id : Advances (id : FrameRing α → FrameRing α) :=
  fun _ => ⟨0, rfl⟩

theorem advances_iterate (n : Nat) : Advances (advance^[n] : FrameRing α → FrameRing α) :=
  fun _ => ⟨n, rfl⟩

theorem advances_takeFirst (p : α → Bool) (n : Nat) :
    Advances fun r : FrameRing α => (r.takeFirst p n).2 := by
  intro r
  induction n generalizing r with
  | zero => exact ⟨0, rfl⟩
  | succ n ih =>
    dsimp only
    rw [FrameRing.takeFirst]
    cases r.available? with
    | none => exact ⟨0, rfl⟩
    | some x =>
      dsimp only
      split
      · exact ⟨1, rfl⟩
      · obtain ⟨k, hk⟩ := ih r.advance
        exact ⟨k + 1, hk⟩

namespace Advances

variable {g g' : FrameRing α → FrameRing α}

theorem comp (h : Advances g) (h' : Advances g') : Advances (g ∘ g') := by
  intro r
  obtain ⟨n', hn'⟩ := h' r
  obtain ⟨n, hn⟩ := h (g' r)
  refine ⟨n + n', ?_⟩
  rw [Function.iterate_add_apply, ← hn', ← hn]
  rfl

theorem consumes (h : Advances g) : Consumes g := by
  intro r P hr
  obtain ⟨n, hn⟩ := h r
  rw [hn]
  exact Function.Iterate.rec (fun r : FrameRing α => r.Carries P) hr (fun _ hr => hr.advance) n

theorem stopped (h : Advances g) (r : FrameRing α) : (g r).stopped = r.stopped := by
  have hadvance (r : FrameRing α) : r.advance.stopped = r.stopped := by
    unfold FrameRing.advance
    split_ifs <;> rfl
  obtain ⟨n, hn⟩ := h r
  rw [hn]
  exact Function.Iterate.rec (fun r' : FrameRing α => r'.stopped = r.stopped) rfl
    (fun r' hr' => (hadvance r').trans hr') n

end Advances

/-! ### The frames that wait -/

/-- The frames not yet shown, the next one first. -/
def waiting (r : FrameRing α) : List α :=
  (List.range r.remaining).filterMap fun k => r.frameAt (r.shownCount + k)

theorem filterMap_range_getElem? (xs : List α) :
    (List.range xs.length).filterMap (xs[·]?) = xs := by
  induction xs with
  | nil => rfl
  | cons x xs ih => simp [List.range_succ_eq_map, List.filterMap_map, ih]

namespace Holds

variable {l : FrameLog α}

theorem waiting_eq (h : r.Holds l) : r.waiting = l.published.drop l.taken := by
  have hlen := h.length_published
  have hle := kept_le_taken l
  have hsize := h.size_le
  have hcount := h.shownCount_eq
  have hremaining : r.remaining = (l.published.drop l.taken).length := by
    rw [h.remaining_eq, List.length_drop]
  have hslot : ∀ k ∈ List.range r.remaining,
      r.frameAt (r.shownCount + k) = (l.published.drop l.taken)[k]? := by
    intro k hk
    have hlt := List.mem_range.1 hk
    rw [hremaining, List.length_drop] at hlt
    rw [h.frameAt_eq _ (by omega), List.getElem?_drop, hcount]
    congr 1
    omega
  rw [waiting, List.filterMap_congr hslot, hremaining, filterMap_range_getElem?]

theorem length_waiting (h : r.Holds l) : r.waiting.length = r.remaining := by
  rw [h.waiting_eq, h.remaining_eq, List.length_drop]

/-- The frame that the consumer takes is the one that waits first. -/
theorem next (h : r.Holds l) (hx : r.next? = some x) :
    r.advance.Holds { l with taken := l.taken + 1 } ∧ r.waiting = x :: r.advance.waiting := by
  rw [h.next?_eq] at hx
  obtain ⟨hlt, hx⟩ := List.getElem?_eq_some_iff.1 hx
  have hadvance := h.advance
  rw [Nat.min_eq_left hlt] at hadvance
  refine ⟨hadvance, ?_⟩
  rw [hadvance.waiting_eq, h.waiting_eq, List.drop_eq_getElem_cons hlt, hx]

/-- A ring that keeps the frame shown last has one as soon as a frame was taken. -/
theorem shown_of_taken (h : r.Holds l) (hkeep : l.keepLast = true) (htaken : 0 < l.taken) :
    r.shown = true ∧ r.last? = l.published[l.taken - 1]? := by
  have hkept : l.kept = 1 := if_pos ⟨hkeep, htaken⟩
  have hcount := h.shownCount_eq.trans hkept
  refine ⟨?_, by rw [h.last?_eq, FrameLog.last?, hkept]⟩
  unfold shownCount at hcount
  split_ifs at hcount with hshown
  exact hshown

end Holds

/-! ### All frames in the ring -/

/-- The frames in a ring, the shown one first. -/
def contents (r : FrameRing α) : List α :=
  (List.range r.size).filterMap r.frameAt

/-- The frames in a ring that are of the epoch `serial`. -/
def ofEpoch {S : Type} [Timed S α] (r : FrameRing α) (serial : Nat) : List α :=
  r.contents.filter fun x => (Timed.timing x).serial = serial

theorem filter_drop_of_take {p : α → Bool} {xs : List α} {m m' n : Nat}
    (hm : m ≤ m') (hn : m' ≤ n) (hnone : ∀ x ∈ xs.take n, ¬p x = true) :
    (xs.drop m').filter p = (xs.drop m).filter p := by
  have hsplit : xs.drop m = (xs.take m').drop m ++ xs.drop m' := by
    have hparts := (List.take_append_drop (m' - m) (xs.drop m)).symm
    rw [List.drop_drop, Nat.add_sub_cancel' hm, ← List.drop_take] at hparts
    exact hparts
  have hfront : ((xs.take m').drop m).filter p = [] := by
    refine List.filter_eq_nil_iff.2 fun x hx => hnone x ?_
    exact (List.take_sublist_take_left hn).subset (List.mem_of_mem_drop hx)
  rw [hsplit, List.filter_append, hfront, List.nil_append]

theorem Holds.contents_eq (h : r.Holds l) :
    r.contents = l.published.drop (l.taken - l.kept) := by
  have hlen := h.length_published
  have hsize : r.size = (l.published.drop (l.taken - l.kept)).length := by
    rw [List.length_drop]
    omega
  have hslot : ∀ k ∈ List.range r.size,
      r.frameAt k = (l.published.drop (l.taken - l.kept))[k]? := by
    intro k hk
    have hlt := List.mem_range.1 hk
    rw [h.frameAt_eq k (hlt.trans_le h.size_le), List.getElem?_drop]
  rw [contents, List.filterMap_congr hslot, hsize, filterMap_range_getElem?]

/-- The frames of an epoch stay in the ring when frames of other epochs are taken. -/
theorem Holds.ofEpoch_taken {S : Type} [Timed S α] {serial n : Nat} (h : r.Holds l)
    (h' : r'.Holds { l with taken := n }) (hn : l.taken < n)
    (hother : ∀ x ∈ l.published.take n, (Timed.timing x).serial ≠ serial) :
    r'.ofEpoch serial = r.ofEpoch serial := by
  have hkept : ({ l with taken := n } : FrameLog α).kept ≤ 1 := by
    unfold FrameLog.kept
    split <;> omega
  unfold ofEpoch
  rw [h'.contents_eq, h.contents_eq]
  refine filter_drop_of_take ?_ (Nat.sub_le n _) fun x hx => ?_
  · dsimp only
    omega
  · simpa using hother x hx

theorem Holds.contents_push (h : r.Holds l) (hpush : r.push x = .ready r') :
    r'.contents = r.contents ++ [x] := by
  have hle : l.taken - l.kept ≤ l.published.length := (Nat.sub_le _ _).trans h.taken_le
  rw [(h.push hpush).contents_eq, h.contents_eq]
  exact List.drop_append_of_le_length hle

end FrameRing

end Playback
