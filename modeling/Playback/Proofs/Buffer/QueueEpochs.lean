import Mathlib.Order.Nat
import Playback.Buffer.PacketQueue

/-!
# The epochs of a packet queue

The serials in a queue never decrease from its front to its end, and none is ahead of the queue's
own (`Ordered`). A new epoch begins with its flush marker, so as long as that marker is in the
queue, what belongs to the epoch is exactly what stands behind it (`Opens`); once it was taken,
all that is left belongs to the epoch (`Current`).
-/

namespace Playback

/-- What may happen to a packet queue apart from its decoder. -/
inductive QueueOp where
  | start
  | put (packet : Packet)
  | marker
  | endOfStream
  /-- All entries are dropped; the epoch stays. -/
  | clear
  | abort

namespace PacketQueue

variable {q q' : PacketQueue} {e : QueuedEntry} {d : Nat}

/-- The effect of an operation; puts into an aborted queue are refused. -/
def perform (q : PacketQueue) : QueueOp → PacketQueue
  | .start => q.start
  | .put packet => q.put (.data packet)
  | .marker => q.put .flush
  | .endOfStream => q.put .endOfStream
  | .clear => q.clear
  | .abort => q.abort

/-! ### Single operations -/

theorem serial_append (q : PacketQueue) (e : Entry) :
    (q.append e).serial = if e = .flush then q.serial + 1 else q.serial := rfl

theorem entries_append (q : PacketQueue) (e : Entry) :
    (q.append e).entries = q.entries ++ [⟨e, (q.append e).serial⟩] := rfl

theorem put_of_aborted (h : q.aborted = true) (e : Entry) : q.put e = q := by
  simp [put, put?, h]

theorem put_of_running (h : q.aborted = false) (e : Entry) : q.put e = q.append e := by
  simp [put, put?, h]

theorem put_cases (q : PacketQueue) (e : Entry) : q.put e = q ∨ q.put e = q.append e := by
  cases h : q.aborted with
  | true => exact .inl (put_of_aborted h e)
  | false => exact .inr (put_of_running h e)

theorem serial_le_append (q : PacketQueue) (e : Entry) : q.serial ≤ (q.append e).serial := by
  rw [serial_append]
  split <;> omega

theorem serial_le_put (q : PacketQueue) (e : Entry) : q.serial ≤ (q.put e).serial := by
  rcases put_cases q e with heq | heq <;> rw [heq]
  exact serial_le_append q e

/-- The epochs of a queue go up. -/
theorem serial_le_perform (q : PacketQueue) (op : QueueOp) : q.serial ≤ (q.perform op).serial := by
  cases op with
  | start => exact serial_le_append { q with aborted := false } .flush
  | put packet => exact serial_le_put q _
  | marker => exact serial_le_put q _
  | endOfStream => exact serial_le_put q _
  | clear => exact Nat.le_refl _
  | abort => exact Nat.le_refl _

theorem take_eq_aborted_iff : q.take = .aborted ↔ q.aborted = true := by
  unfold take
  cases q.aborted <;> cases q.entries <;> simp

theorem take_eq_wait_iff : q.take = .wait ↔ q.aborted = false ∧ q.entries = [] := by
  unfold take
  cases q.aborted <;> cases q.entries <;> simp

/-- An entry that was taken stood in front, and nothing but the accounts of the queue changes. -/
theorem take_eq_ready (h : q.take = .ready (e, q')) :
    q.aborted = false ∧ q.entries = e :: q'.entries ∧ q'.serial = q.serial ∧
      q'.aborted = q.aborted := by
  unfold take at h
  cases haborted : q.aborted with
  | true => simp [haborted] at h
  | false =>
    cases hentries : q.entries with
    | nil => simp [haborted, hentries] at h
    | cons first rest =>
      simp only [haborted, hentries, Bool.false_eq_true, if_false, Reply.ready.injEq,
        Prod.mk.injEq] at h
      obtain ⟨rfl, rfl⟩ := h
      exact ⟨rfl, rfl, rfl, rfl⟩

/-! ### Entries in a row -/

/-- Appends entries one after the other; an aborted queue stays as it is. -/
def putAll (q : PacketQueue) (entries : List Entry) : PacketQueue :=
  entries.foldl put q

theorem putAll_of_aborted (h : q.aborted = true) (entries : List Entry) :
    q.putAll entries = q := by
  induction entries with
  | nil => rfl
  | cons e entries ih => rw [putAll, List.foldl_cons, put_of_aborted h, ← putAll, ih]

theorem putAll_append (q : PacketQueue) (entries entries' : List Entry) :
    q.putAll (entries ++ entries') = (q.putAll entries).putAll entries' :=
  List.foldl_append

theorem aborted_put (q : PacketQueue) (e : Entry) : (q.put e).aborted = q.aborted := by
  rcases put_cases q e with heq | heq <;> rw [heq]
  rfl

theorem aborted_putAll (q : PacketQueue) (entries : List Entry) :
    (q.putAll entries).aborted = q.aborted := by
  induction entries generalizing q with
  | nil => rfl
  | cons e entries ih => exact (ih (q.put e)).trans (aborted_put q e)

theorem serial_put_of_ne (q : PacketQueue) {e : Entry} (he : e ≠ .flush) :
    (q.put e).serial = q.serial := by
  rcases put_cases q e with heq | heq <;> rw [heq]
  rw [serial_append, if_neg he]

theorem serial_putAll (q : PacketQueue) {entries : List Entry} (h : ∀ e ∈ entries, e ≠ .flush) :
    (q.putAll entries).serial = q.serial := by
  induction entries generalizing q with
  | nil => rfl
  | cons e entries ih =>
    have hrest : ∀ e ∈ entries, e ≠ .flush := fun x hx => h x (List.mem_cons_of_mem e hx)
    exact (ih (q.put e) hrest).trans (serial_put_of_ne q (h e List.mem_cons_self))

/-- The entries of an epoch stand in a running queue in the order in which they were put. -/
theorem entries_putAll (hrun : q.aborted = false) {entries : List Entry}
    (h : ∀ e ∈ entries, e ≠ .flush) :
    (q.putAll entries).entries = q.entries ++ entries.map (⟨·, q.serial⟩) := by
  induction entries generalizing q with
  | nil => exact (List.append_nil _).symm
  | cons e entries ih =>
    have he : e ≠ .flush := h e List.mem_cons_self
    have hrest : ∀ e ∈ entries, e ≠ .flush := fun x hx => h x (List.mem_cons_of_mem e hx)
    have hput : (q.put e).entries = q.entries ++ [⟨e, q.serial⟩] := by
      rw [put_of_running hrun, entries_append, serial_append, if_neg he]
    rw [putAll, List.foldl_cons, ← putAll, ih ((aborted_put q e).trans hrun) hrest, hput,
      serial_put_of_ne q he, List.append_assoc, List.map_cons, List.singleton_append]

theorem restart_of_aborted (h : q.aborted = true) : q.restart = q.clear :=
  put_of_aborted (q := q.clear) h .flush

theorem restart_of_running (h : q.aborted = false) : q.restart = q.clear.append .flush :=
  put_of_running (q := q.clear) h .flush

theorem aborted_restart (q : PacketQueue) : q.restart.aborted = q.aborted :=
  aborted_put q.clear .flush

/-! ### Order -/

/-- The serials of the entries go up from `d` to the serial of the queue. -/
structure Ordered (d : Nat) (q : PacketQueue) : Prop where
  sorted : q.entries.Pairwise fun a b => a.serial ≤ b.serial
  ge : ∀ e ∈ q.entries, d ≤ e.serial
  le : ∀ e ∈ q.entries, e.serial ≤ q.serial
  behind : d ≤ q.serial

theorem ordered_new : Ordered 0 new where
  sorted := .nil
  ge := nofun
  le := nofun
  behind := Nat.le_refl 0

namespace Ordered

theorem append (h : q.Ordered d) (e : Entry) : (q.append e).Ordered d := by
  have hle := serial_le_append q e
  refine ⟨?_, fun x hx => ?_, fun x hx => ?_, h.behind.trans hle⟩
  · rw [entries_append, List.pairwise_append]
    refine ⟨h.sorted, List.pairwise_singleton _ _, fun a ha b hb => ?_⟩
    rw [List.mem_singleton.1 hb]
    exact (h.le a ha).trans hle
  all_goals
    rw [entries_append, List.mem_append, List.mem_singleton] at hx
    rcases hx with hx | rfl
  · exact h.ge x hx
  · exact h.behind.trans hle
  · exact (h.le x hx).trans hle
  · exact Nat.le_refl _

theorem put (h : q.Ordered d) (e : Entry) : (q.put e).Ordered d := by
  rcases put_cases q e with heq | heq <;> rw [heq]
  · exact h
  · exact h.append e

theorem clear (h : q.Ordered d) : q.clear.Ordered d :=
  ⟨.nil, nofun, nofun, h.behind⟩

theorem perform (h : q.Ordered d) (op : QueueOp) : (q.perform op).Ordered d := by
  cases op with
  | start => exact Ordered.append (q := { q with aborted := false }) ⟨h.1, h.2, h.3, h.4⟩ _
  | put packet => exact h.put _
  | marker => exact h.put _
  | endOfStream => exact h.put _
  | clear => exact h.clear
  | abort => exact ⟨h.1, h.2, h.3, h.4⟩

/-- After an entry was taken, the rest goes on from its serial. -/
theorem take (h : q.Ordered d) (htake : q.take = .ready (e, q')) :
    q'.Ordered e.serial ∧ d ≤ e.serial ∧ e.serial ≤ q.serial := by
  obtain ⟨-, hentries, hserial, -⟩ := take_eq_ready htake
  have hsorted := h.sorted
  rw [hentries, List.pairwise_cons] at hsorted
  have hmem : e ∈ q.entries := hentries ▸ List.mem_cons_self
  refine ⟨⟨hsorted.2, hsorted.1, fun x hx => ?_, ?_⟩, h.ge e hmem, h.le e hmem⟩
  · rw [hserial]
    exact h.le x (hentries ▸ List.mem_cons_of_mem e hx)
  · rw [hserial]
    exact h.le e hmem

end Ordered

/-! ### The marker of the current epoch -/

/-- The entries are of the current epoch, and none of them opens it. -/
def Current (q : PacketQueue) (entries : List QueuedEntry) : Prop :=
  ∀ e ∈ entries, e.entry ≠ .flush ∧ e.serial = q.serial

/-- The marker of the current epoch is in the queue, with the entries `rest` behind it. -/
def Opens (q : PacketQueue) (rest : List QueuedEntry) : Prop :=
  q.Current rest ∧
    ∃ old, q.entries = old ++ ⟨.flush, q.serial⟩ :: rest ∧ ∀ e ∈ old, e.serial < q.serial

theorem opens_append_flush (h : q.Ordered d) : (q.append .flush).Opens [] := by
  refine ⟨nofun, q.entries, rfl, fun x hx => ?_⟩
  rw [serial_append, if_pos rfl]
  exact Nat.lt_succ_of_le (h.le x hx)

theorem Current.append {entries : List QueuedEntry} (h : q.Current entries) {e : Entry}
    (he : e ≠ .flush) : (q.append e).Current (entries ++ [⟨e, q.serial⟩]) := by
  intro x hx
  rw [serial_append, if_neg he]
  rcases List.mem_append.1 hx with hx | hx
  · exact h x hx
  · rw [List.mem_singleton.1 hx]
    exact ⟨he, rfl⟩

theorem Opens.append {rest : List QueuedEntry} (h : q.Opens rest) {e : Entry} (he : e ≠ .flush) :
    (q.append e).Opens (rest ++ [⟨e, q.serial⟩]) := by
  obtain ⟨hcurrent, old, hentries, hold⟩ := h
  have hserial : (q.append e).serial = q.serial := if_neg he
  refine ⟨hcurrent.append he, old, ?_, by rwa [hserial]⟩
  rw [entries_append, hserial, hentries, List.append_assoc, List.cons_append]

/-- What is taken is either the marker or left over from an earlier epoch. -/
theorem Opens.take {rest : List QueuedEntry} (h : q.Opens rest)
    (htake : q.take = .ready (e, q')) :
    (e = ⟨.flush, q.serial⟩ ∧ q'.entries = rest ∧ q'.Current rest) ∨
      (e.serial < q.serial ∧ q'.Opens rest) := by
  obtain ⟨hcurrent, old, hentries, hold⟩ := h
  obtain ⟨-, hfront, hserial, -⟩ := take_eq_ready htake
  have hcurrent' : q'.Current rest := by rwa [Current, hserial]
  rw [hfront] at hentries
  cases old with
  | nil =>
    obtain ⟨rfl, hrest⟩ := List.cons.inj hentries
    exact .inl ⟨rfl, hrest, hcurrent'⟩
  | cons first old =>
    obtain ⟨rfl, hrest⟩ := List.cons.inj hentries
    refine .inr ⟨hold e List.mem_cons_self, hcurrent', old, by rw [hserial]; exact hrest, ?_⟩
    rw [hserial]
    exact fun x hx => hold x (List.mem_cons_of_mem _ hx)

theorem Current.take (h : q.Current q.entries) (htake : q.take = .ready (e, q')) :
    (e.entry ≠ .flush ∧ e.serial = q.serial) ∧ q'.Current q'.entries := by
  obtain ⟨-, hfront, hserial, -⟩ := take_eq_ready htake
  rw [hfront] at h
  refine ⟨h e List.mem_cons_self, ?_⟩
  rw [Current, hserial]
  exact fun x hx => h x (List.mem_cons_of_mem _ hx)

end PacketQueue

end Playback
