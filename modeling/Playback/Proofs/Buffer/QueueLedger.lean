import Mathlib.Algebra.Order.BigOperators.Group.List
import Mathlib.Algebra.Ring.Int.Defs
import Mathlib.Algebra.Ring.Nat
import Mathlib.Data.List.Induction
import Playback.Proofs.Buffer.QueueEpochs

/-!
# The books of a packet queue

A packet queue is followed together with a ledger of what was done to it: how often it was started,
how many markers it has accepted, which entries it has accepted, and which of them have left it and
how. The ledger counts the epochs itself, and tags what is accepted with its own count.

At every moment the books balance (`QueueLedger.Balanced`). What was accepted is what has left and
then what still waits, in the order in which it was accepted, so nothing is lost, doubled or
overtaken. The byte count and the duration of the queue are the sums over what waits
(`PacketQueue.Accounted`), and the serial of the queue is the count of the epochs. The queue is
aborted from each abort to the next start (`QueueLedger.Halted`).
-/

namespace Playback

/-! ## Byte count and duration -/

/-- The byte count and the duration of a queue are those of its entries. -/
structure PacketQueue.Accounted (q : PacketQueue) : Prop where
  size : q.size = (q.entries.map (·.entry.size)).sum
  duration : q.duration = (q.entries.map (·.entry.duration)).sum

theorem Entry.duration_nonneg (e : Entry) : 0 ≤ e.duration := by
  cases e with
  | data p => exact Int.le_max_right p.duration 0
  | flush | endOfStream => exact Int.le_refl 0

namespace PacketQueue.Accounted

variable {q q' : PacketQueue} {e : QueuedEntry}

theorem of_entries (h : q.Accounted) (hentries : q'.entries = q.entries) (hsize : q'.size = q.size)
    (hduration : q'.duration = q.duration) : q'.Accounted := by
  constructor
  · rw [hsize, hentries, h.size]
  · rw [hduration, hentries, h.duration]

theorem append (h : q.Accounted) (e : Entry) : (q.append e).Accounted := by
  constructor
  · show q.size + e.size = _
    rw [h.size, entries_append]
    simp
  · show q.duration + e.duration = _
    rw [h.duration, entries_append]
    simp

theorem clear (q : PacketQueue) : q.clear.Accounted :=
  ⟨rfl, rfl⟩

theorem abort (h : q.Accounted) : q.abort.Accounted :=
  h.of_entries rfl rfl rfl

theorem start (h : q.Accounted) : q.start.Accounted :=
  append (q := { q with aborted := false }) (h.of_entries rfl rfl rfl) .flush

theorem put (h : q.Accounted) (e : Entry) : (q.put e).Accounted := by
  rcases put_cases q e with heq | heq <;> rw [heq]
  · exact h
  · exact h.append e

theorem perform (h : q.Accounted) (op : QueueOp) : (q.perform op).Accounted := by
  cases op with
  | start => exact h.start
  | put packet => exact h.put _
  | marker => exact h.put _
  | endOfStream => exact h.put _
  | clear => exact clear q
  | abort => exact h.abort

theorem duration_nonneg (h : q.Accounted) : 0 ≤ q.duration := by
  rw [h.duration]
  refine List.sum_nonneg fun d hd => ?_
  obtain ⟨e, -, rfl⟩ := List.mem_map.1 hd
  exact e.entry.duration_nonneg

/-- An entry that is taken is subtracted from sums that contain it. -/
theorem take (h : q.Accounted) (htake : q.take = .ready (e, q')) :
    q'.Accounted ∧ q.size = e.entry.size + q'.size ∧
      q.duration = e.entry.duration + q'.duration := by
  obtain ⟨-, hentries, -, -⟩ := take_eq_ready htake
  have hsize := h.size
  have hduration := h.duration
  rw [hentries, List.map_cons, List.sum_cons] at hsize hduration
  have htaken : q'.size = q.size - e.entry.size ∧ q'.duration = q.duration - e.entry.duration := by
    unfold PacketQueue.take at htake
    split at htake
    · cases htake
    · split at htake
      · cases htake
      · obtain ⟨rfl, rfl⟩ := Prod.mk.inj (Reply.ready.inj htake)
        exact ⟨rfl, rfl⟩
  obtain ⟨hsize', hduration'⟩ := htaken
  exact ⟨⟨by omega, by omega⟩, by omega, by omega⟩

end PacketQueue.Accounted

/-! ## The ledger -/

/-- How an entry has left a queue. -/
inductive Departure where
  /-- It was handed out. -/
  | handed
  /-- It was dropped when the queue was cleared. -/
  | dropped
  deriving DecidableEq

/-- A call that a packet queue may receive. -/
inductive QueueCall where
  | op (op : QueueOp)
  /-- The oldest entry is asked for. -/
  | get

/-- A packet queue, with what was done to it since it was new. -/
structure QueueLedger where
  queue : PacketQueue
  /-- The number of starts. -/
  starts : Nat
  /-- The number of flush markers accepted apart from those of the starts. -/
  markers : Nat
  /-- The accepted entries, each with the number of epochs begun when it was accepted. -/
  accepted : List QueuedEntry
  /-- The entries that have left the queue, in order. -/
  gone : List (Departure × QueuedEntry)

namespace QueueLedger

def new : QueueLedger :=
  ⟨.new, 0, 0, [], []⟩

/-- The number of epochs begun. -/
def epochs (l : QueueLedger) : Nat :=
  l.starts + l.markers

/-- Notes that an entry was accepted. -/
def accept (l : QueueLedger) (e : Entry) : QueueLedger :=
  { l with accepted := l.accepted ++ [⟨e, l.epochs⟩] }

/-- Puts an entry, and notes it if it was accepted. -/
def offer (l : QueueLedger) (e : Entry) : QueueLedger :=
  match l.queue.put? e with
  | none => l
  | some q =>
    accept { l with queue := q, markers := if e = .flush then l.markers + 1 else l.markers } e

/-- Asks for the oldest entry, and notes what was handed out. -/
def get (l : QueueLedger) : QueueLedger :=
  match l.queue.take with
  | .ready (e, q) => { l with queue := q, gone := l.gone ++ [(.handed, e)] }
  | .aborted | .wait => l

def perform (l : QueueLedger) : QueueCall → QueueLedger
  | .op .start =>
    accept { l with queue := l.queue.start, starts := l.starts + 1 } .flush
  | .op (.put packet) => l.offer (.data packet)
  | .op .marker => l.offer .flush
  | .op .endOfStream => l.offer .endOfStream
  | .op .clear =>
    { l with
      queue := l.queue.clear
      gone := l.gone ++ l.queue.entries.map (.dropped, ·) }
  | .op .abort => { l with queue := l.queue.abort }
  | .get => l.get

def run (l : QueueLedger) (calls : List QueueCall) : QueueLedger :=
  calls.foldl perform l

variable {l : QueueLedger}

theorem offer_of_aborted (h : l.queue.aborted = true) (e : Entry) : l.offer e = l := by
  simp [offer, PacketQueue.put?, h]

theorem offer_of_running (h : l.queue.aborted = false) (e : Entry) :
    l.offer e = accept { l with
      queue := l.queue.append e
      markers := if e = .flush then l.markers + 1 else l.markers } e := by
  simp [offer, PacketQueue.put?, h]

theorem get_of_aborted (h : l.queue.aborted = true) : l.get = l := by
  rw [get, PacketQueue.take_eq_aborted_iff.2 h]

theorem queue_offer (l : QueueLedger) (e : Entry) : (l.offer e).queue = l.queue.put e := by
  unfold offer PacketQueue.put
  cases l.queue.put? e <;> rfl

/-- The ledger does not interfere with its queue. -/
theorem queue_perform (l : QueueLedger) (op : QueueOp) :
    (l.perform (.op op)).queue = l.queue.perform op := by
  cases op with
  | start | clear | abort => rfl
  | put packet => exact l.queue_offer _
  | marker => exact l.queue_offer _
  | endOfStream => exact l.queue_offer _

/-! ## Numbered entries -/

/-- The number of markers among entries. -/
def markersIn (entries : List QueuedEntry) : Nat :=
  entries.countP (·.entry = Entry.flush)

/-- The serial of each entry is the number of markers up to it. -/
def Numbered (entries : List QueuedEntry) : Prop :=
  ∀ pre e post, entries = pre ++ e :: post → e.serial = markersIn (pre ++ [e])

theorem markersIn_append (entries entries' : List QueuedEntry) :
    markersIn (entries ++ entries') = markersIn entries + markersIn entries' :=
  List.countP_append

theorem Numbered.concat {entries : List QueuedEntry} (h : Numbered entries) {e : QueuedEntry}
    (he : e.serial = markersIn (entries ++ [e])) : Numbered (entries ++ [e]) := by
  intro pre x post hsplit
  -- the entry at the split is the new one, or an old one with the new one somewhere behind it
  rcases List.eq_nil_or_concat post with rfl | ⟨rest, last, rfl⟩
  · obtain ⟨rfl, hlast⟩ := List.append_inj' hsplit rfl
    obtain rfl := List.singleton_inj.1 hlast
    exact he
  · have hsplit' : entries ++ [e] = (pre ++ x :: rest) ++ [last] := by
      rw [hsplit, List.append_assoc, List.cons_append, List.concat_eq_append]
    exact h pre x rest (List.append_inj' hsplit' rfl).1

/-- Two entries, of which the later one is no marker, are of the same epoch if and only if no marker
stands between them. -/
theorem Numbered.same_iff {pre mid post : List QueuedEntry} {a b : QueuedEntry}
    (h : Numbered (pre ++ a :: (mid ++ b :: post))) (hb : b.entry ≠ Entry.flush) :
    a.serial = b.serial ↔ ∀ x ∈ mid, x.entry ≠ Entry.flush := by
  have hserial : a.serial = markersIn (pre ++ [a]) := h pre a _ rfl
  have hserial' : b.serial = markersIn ((pre ++ a :: mid) ++ [b]) := by
    refine h _ b post ?_
    rw [List.append_assoc, List.cons_append]
  have hnone : markersIn [b] = 0 := by
    simp [markersIn, hb]
  have hmid : markersIn mid = 0 ↔ ∀ x ∈ mid, x.entry ≠ Entry.flush := by
    simp [markersIn, List.countP_eq_zero]
  have hcons : pre ++ a :: mid = (pre ++ [a]) ++ mid := by
    rw [List.append_assoc, List.singleton_append]
  rw [hcons, markersIn_append, markersIn_append, hnone] at hserial'
  rw [← hmid]
  omega

/-! ## The books balance -/

/-- What the ledger and its queue have to do with each other at every moment. -/
structure Balanced (l : QueueLedger) : Prop where
  /-- What was accepted has left or waits, in the order of acceptance. -/
  fifo : l.accepted = l.gone.map (·.2) ++ l.queue.entries
  accounted : l.queue.Accounted
  serial : l.queue.serial = l.epochs
  ordered : l.queue.Ordered 0
  numbered : Numbered l.accepted
  marked : l.epochs = markersIn l.accepted

namespace Balanced

theorem new : new.Balanced where
  fifo := rfl
  accounted := ⟨rfl, rfl⟩
  serial := rfl
  ordered := PacketQueue.ordered_new
  numbered pre e post h := by simp [QueueLedger.new] at h
  marked := rfl

/-- An entry is accepted: the queue appends it with its serial, which the ledger counts as well. -/
theorem accept (h : l.Balanced) {q : PacketQueue} {starts markers : Nat} {e : Entry}
    (hentries : q.entries = l.queue.entries) (haccounted : q.Accounted)
    (hserial : q.serial = l.queue.serial) (hordered : q.Ordered 0)
    (hepochs : starts + markers = if e = .flush then l.epochs + 1 else l.epochs) :
    Balanced (QueueLedger.accept
      { l with queue := q.append e, starts := starts, markers := markers } e) := by
  have hepoch : (q.append e).serial = starts + markers := by
    rw [PacketQueue.serial_append, hserial, h.serial, hepochs]
  have hmarkers : starts + markers = markersIn (l.accepted ++ [⟨e, starts + markers⟩]) := by
    rw [markersIn_append, ← h.marked, hepochs]
    by_cases he : e = .flush
    · simp [markersIn, he]
    · simp [markersIn, he]
  refine ⟨?_, haccounted.append e, hepoch, hordered.append e, h.numbered.concat hmarkers, hmarkers⟩
  show l.accepted ++ [⟨e, starts + markers⟩] = l.gone.map (·.2) ++ (q.append e).entries
  rw [PacketQueue.entries_append, hentries, hepoch, h.fifo, List.append_assoc]

theorem offer (h : l.Balanced) (e : Entry) : (l.offer e).Balanced := by
  cases hrun : l.queue.aborted with
  | true =>
    rw [offer_of_aborted hrun]
    exact h
  | false =>
    rw [offer_of_running hrun]
    refine h.accept rfl h.accounted rfl h.ordered ?_
    unfold epochs
    by_cases he : e = .flush
    · simp only [he, if_true]
      omega
    · simp only [he, if_false]

theorem start (h : l.Balanced) : (l.perform (.op .start)).Balanced := by
  refine h.accept (q := { l.queue with aborted := false }) rfl
    (h.accounted.of_entries rfl rfl rfl) rfl ⟨h.ordered.1, h.ordered.2, h.ordered.3, h.ordered.4⟩ ?_
  rw [if_pos rfl]
  unfold epochs
  omega

theorem clear (h : l.Balanced) : (l.perform (.op .clear)).Balanced := by
  -- the serial stays as it is: to clear a queue does not begin an epoch
  refine ⟨?_, .clear _, h.serial, h.ordered.clear, h.numbered, h.marked⟩
  rw [perform, List.map_append, List.map_map]
  simpa [PacketQueue.clear, Function.comp_def] using h.fifo

theorem get (h : l.Balanced) : l.get.Balanced := by
  unfold QueueLedger.get
  cases htake : l.queue.take with
  | aborted | wait => exact h
  | ready taken =>
    obtain ⟨e, q⟩ := taken
    obtain ⟨-, hentries, hserial, -⟩ := PacketQueue.take_eq_ready htake
    obtain ⟨hsorted, hge, hle⟩ := h.ordered.take htake
    refine ⟨?_, (h.accounted.take htake).1, hserial.trans h.serial,
      ⟨hsorted.sorted, fun x _ => x.serial.zero_le, hsorted.le, q.serial.zero_le⟩,
      h.numbered, h.marked⟩
    show l.accepted = (l.gone ++ [(Departure.handed, e)]).map (·.2) ++ q.entries
    rw [h.fifo, hentries, List.map_append, List.append_assoc]
    rfl

theorem perform (h : l.Balanced) (call : QueueCall) : (l.perform call).Balanced := by
  cases call with
  | get => exact h.get
  | op op =>
    cases op with
    | start => exact h.start
    | put packet => exact h.offer _
    | marker => exact h.offer _
    | endOfStream => exact h.offer _
    | clear => exact h.clear
    | abort =>
      exact ⟨h.fifo, h.accounted.abort, h.serial,
        ⟨h.ordered.1, h.ordered.2, h.ordered.3, h.ordered.4⟩, h.numbered, h.marked⟩

theorem run (h : l.Balanced) (calls : List QueueCall) : (l.run calls).Balanced := by
  induction calls generalizing l with
  | nil => exact h
  | cons call calls ih => exact ih (h.perform call)

end Balanced

/-! ## Every run -/

/-- What holds of a queue and its ledger after any run. -/
structure Accounts (l : QueueLedger) : Prop where
  /-- What was accepted has been handed out, has been dropped, or waits, in the order of
  acceptance. -/
  fifo : l.accepted = l.gone.map (·.2) ++ l.queue.entries
  length : l.gone.length + l.queue.length = l.accepted.length
  size : l.queue.size = (l.queue.entries.map (·.entry.size)).sum
  duration : l.queue.duration = (l.queue.entries.map (·.entry.duration)).sum
  /-- What is subtracted when an entry is taken is contained in the sums. -/
  no_underflow : ∀ e q, l.queue.take = .ready (e, q) →
    e.entry.size ≤ l.queue.size ∧ e.entry.duration ≤ l.queue.duration
  serial : l.queue.serial = l.starts + l.markers
  sorted : l.queue.entries.Pairwise fun e e' => e.serial ≤ e'.serial
  serial_le : ∀ e ∈ l.queue.entries, e.serial ≤ l.queue.serial
  /-- Two accepted packets are of one epoch if and only if no epoch was begun between them. -/
  same_epoch : ∀ pre mid post a b p p', l.accepted = pre ++ a :: (mid ++ b :: post) →
    a.entry = .data p → b.entry = .data p' →
    (a.serial = b.serial ↔ ∀ x ∈ mid, x.entry ≠ Entry.flush)
  /-- An aborted queue refuses puts and gets, and nothing changes. -/
  refuses : l.queue.aborted = true →
    (∀ e, l.queue.put? e = none ∧ l.offer e = l) ∧ l.queue.take = .aborted ∧ l.get = l
  /-- Any other queue accepts every entry, and is empty if it has none to hand out. -/
  accepts : l.queue.aborted = false →
    (∀ e, l.queue.put? e = some (l.queue.append e)) ∧
      ((∃ e q, l.queue.take = .ready (e, q)) ∨ l.queue.take = .wait ∧ l.queue.entries = [])

theorem Balanced.accounts (h : l.Balanced) : l.Accounts where
  fifo := h.fifo
  length := by
    have hlength := congrArg List.length h.fifo
    rw [List.length_append, List.length_map] at hlength
    exact hlength.symm
  size := h.accounted.size
  duration := h.accounted.duration
  no_underflow e q htake := by
    obtain ⟨haccounted, hsize, hduration⟩ := h.accounted.take htake
    have hrest := haccounted.duration_nonneg
    omega
  serial := h.serial
  sorted := h.ordered.sorted
  serial_le := h.ordered.le
  same_epoch pre mid post a b p p' hsplit _ hb := by
    have hnumbered := h.numbered
    rw [hsplit] at hnumbered
    exact hnumbered.same_iff (by simp [hb])
  refuses haborted :=
    ⟨fun e => ⟨by simp [PacketQueue.put?, haborted], offer_of_aborted haborted e⟩,
      PacketQueue.take_eq_aborted_iff.2 haborted, get_of_aborted haborted⟩
  accepts hrun := by
    refine ⟨fun e => by simp [PacketQueue.put?, hrun], ?_⟩
    cases htake : l.queue.take with
    | ready taken => exact .inl ⟨taken.1, taken.2, rfl⟩
    | wait => exact .inr ⟨rfl, (PacketQueue.take_eq_wait_iff.1 htake).2⟩
    | aborted =>
      have haborted := PacketQueue.take_eq_aborted_iff.1 htake
      rw [hrun] at haborted
      cases haborted

/-! ## The flag -/

/-- Only a start makes a queue work, and only an abort stops it. -/
theorem aborted_perform (l : QueueLedger) (call : QueueCall) :
    (l.perform call).queue.aborted = true ↔
      call = .op .abort ∨ call ≠ .op .start ∧ l.queue.aborted = true := by
  have hoffer (e : Entry) : (l.offer e).queue.aborted = l.queue.aborted := by
    rw [queue_offer]
    rcases l.queue.put_cases e with heq | heq <;> rw [heq]
    rfl
  cases call with
  | get =>
    show l.get.queue.aborted = true ↔ _
    unfold get
    cases htake : l.queue.take with
    | aborted | wait => simp
    | ready taken => simp [(PacketQueue.take_eq_ready htake).2.2.2]
  | op op =>
    cases op with
    | start => simp [perform, QueueLedger.accept, PacketQueue.start, PacketQueue.append]
    | put packet => simp [perform, hoffer]
    | marker => simp [perform, hoffer]
    | endOfStream => simp [perform, hoffer]
    | clear => simp [perform, PacketQueue.clear]
    | abort => simp [perform, PacketQueue.abort]

/-- After each start there is an abort. -/
def Halted (calls : List QueueCall) : Prop :=
  ∀ before after, calls = before ++ .op .start :: after → .op .abort ∈ after

theorem halted_concat (calls : List QueueCall) (call : QueueCall) :
    Halted (calls ++ [call]) ↔ call = .op .abort ∨ call ≠ .op .start ∧ Halted calls := by
  constructor
  · intro h
    by_cases habort : call = .op .abort
    · exact .inl habort
    · refine .inr ⟨fun hstart => ?_, fun before after hsplit => ?_⟩
      · exact List.not_mem_nil (h calls [] (by rw [hstart]))
      · have hafter := h before (after ++ [call]) (by simp [hsplit])
        rcases List.mem_append.1 hafter with hmem | hmem
        · exact hmem
        · exact absurd (List.mem_singleton.1 hmem).symm habort
  · intro h before after hsplit
    -- the last start is the last call, or the last call comes after it
    rcases List.eq_nil_or_concat after with rfl | ⟨after, last, rfl⟩
    · obtain ⟨-, hlast⟩ := List.append_inj' hsplit rfl
      obtain rfl := List.singleton_inj.1 hlast
      rcases h with habort | ⟨hstart, -⟩
      · cases habort
      · exact absurd rfl hstart
    · rw [List.concat_eq_append, ← List.cons_append, ← List.append_assoc] at hsplit
      obtain ⟨hcalls, hlast⟩ := List.append_inj' hsplit rfl
      obtain rfl := List.singleton_inj.1 hlast
      rw [List.concat_eq_append]
      rcases h with rfl | ⟨-, hhalted⟩
      · exact List.mem_append_right _ (List.mem_singleton_self _)
      · exact List.mem_append_left _ (hhalted before after hcalls)

theorem aborted_run (calls : List QueueCall) :
    (new.run calls).queue.aborted = true ↔ Halted calls := by
  induction calls using List.reverseRecOn with
  | nil => exact ⟨fun _ before after h => by simp at h, fun _ => rfl⟩
  | append_singleton calls call ih =>
    have hrun : new.run (calls ++ [call]) = (new.run calls).perform call := by simp [run]
    rw [hrun, aborted_perform, halted_concat, ih]

/-- A queue gives account of every run of calls since it was new: it hands out what it has accepted
and not dropped, in order and once, its sums are those of its entries, and its serials count the
epochs. It is aborted, and then refuses everything, as long as it is not started and from each abort
to the next start. -/
theorem accounts_run (calls : List QueueCall) :
    (new.run calls).Accounts ∧ ((new.run calls).queue.aborted = true ↔ Halted calls) :=
  ⟨(Balanced.new.run calls).accounts, aborted_run calls⟩

end QueueLedger

end Playback
