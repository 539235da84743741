import Playback.Proofs.Buffer.QueueLedger
import Playback.Proofs.Buffer.RingContents

/-!
# Calls that wait are woken in time

A call that waits on a packet queue or on a frame ring sleeps until an operation notifies it, and
only then looks at the state again. Not every operation notifies: a queue that is cleared, a frame
that is kept when it was shown, and a move on an exhausted ring do not.

* `Waiting.resume` is an operation of this kind. It is as good as trying the call again after every
  operation (`Waiting.apply`) if what does not notify never helps the call (`resume_eq_apply`).
* `QueueSeat` and `RingSeat` are a queue and a ring with one caller that may wait, while anything
  else is done to them. What other callers do is among the operations, at the moment it is done.
* `blocking_calls_wait_exactly`: over every run, a call waits only while it has no answer, and the
  first operation that gives it one answers it, with what a call made at that moment gets.
-/

namespace Playback

/-! ## Notifications -/

namespace Waiting

variable {σ κ ρ : Type} {attempt : κ → σ → σ × Reply ρ} {w : Waiting σ κ} {k : κ}

/-- An operation has led to `state`. The waiting call looks at it only if it is notified. -/
def resume (attempt : κ → σ → σ × Reply ρ) (w : Waiting σ κ) (notified : Bool) (state : σ) :
    Waiting σ κ × Reply ρ :=
  if notified then w.apply attempt fun _ => state else ({ w with state := state }, .wait)

/-- The call that waits has no answer in the present state. -/
def Settled (attempt : κ → σ → σ × Reply ρ) (w : Waiting σ κ) : Prop :=
  ∀ k, w.pending = some k → attempt k w.state = (w.state, .wait)

theorem retry_of_none (h : w.pending = none) : w.retry attempt = (w, .wait) := by
  simp [retry, h]

theorem retry_of_wait (h : w.pending = some k) (hwait : attempt k w.state = (w.state, .wait)) :
    w.retry attempt = (w, .wait) := by
  obtain ⟨state, pending⟩ := w
  obtain rfl : pending = some k := h
  simp [retry, hwait, Reply.isAnswer]

theorem retry_of_answer (h : w.pending = some k) (hanswer : (attempt k w.state).2.isAnswer = true) :
    w.retry attempt = (⟨(attempt k w.state).1, none⟩, (attempt k w.state).2) := by
  simp [retry, h, hanswer]

/-- A notification that is not sent is not missed if the call had no use for it. -/
theorem resume_eq_apply {notified : Bool} {state : σ}
    (h : notified = false → Settled attempt { w with state := state }) :
    w.resume attempt notified state = w.apply attempt fun _ => state := by
  cases notified with
  | true => rfl
  | false =>
    cases hpending : w.pending with
    | none => exact (retry_of_none (w := { w with state := state }) hpending).symm
    | some k =>
      exact (retry_of_wait (w := { w with state := state }) hpending
        (h rfl k hpending)).symm

/-- A try that gets no answer leaves the state as it is. -/
def Patient (attempt : κ → σ → σ × Reply ρ) : Prop :=
  ∀ k s, (attempt k s).2.isAnswer = false → attempt k s = (s, .wait)

theorem Patient.retry (h : Patient attempt) (w : Waiting σ κ) :
    Settled attempt (w.retry attempt).1 := by
  intro k' hk'
  cases hpending : w.pending with
  | none =>
    rw [retry_of_none hpending] at hk'
    rw [hpending] at hk'
    cases hk'
  | some k =>
    cases hanswer : (attempt k w.state).2.isAnswer with
    | true =>
      rw [retry_of_answer hpending hanswer] at hk'
      cases hk'
    | false =>
      have hwait := h k w.state hanswer
      rw [retry_of_wait hpending hwait] at hk' ⊢
      obtain rfl : k = k' := Option.some.inj (hpending.symm.trans hk')
      exact hwait

/-- After an operation the waiting call gets what it would get if it were made then. -/
theorem Patient.apply_eq (h : Patient attempt) (hk : w.pending = some k) (op : σ → σ) :
    w.apply attempt op =
      (⟨(attempt k (op w.state)).1,
        if (attempt k (op w.state)).2.isAnswer then none else some k⟩,
        (attempt k (op w.state)).2) := by
  rw [apply]
  cases hanswer : (attempt k (op w.state)).2.isAnswer with
  | true => exact retry_of_answer (w := { w with state := op w.state }) hk hanswer
  | false =>
    have hwait := h k (op w.state) hanswer
    rw [retry_of_wait (w := { w with state := op w.state }) hk hwait, hwait, hk]
    rfl

theorem Patient.call (h : Patient attempt) (hw : Settled attempt w) (k : κ) :
    Settled attempt (w.call attempt k).1 := by
  cases hpending : w.pending with
  | some _ => simpa [Waiting.call, hpending] using hw
  | none =>
    cases hanswer : (attempt k w.state).2.isAnswer with
    | true =>
      intro k' hk'
      simp [Waiting.call, hpending, hanswer] at hk'
    | false =>
      intro k' hk'
      simp only [Waiting.call, hpending, h k w.state hanswer, Reply.isAnswer, Bool.false_eq_true,
        if_false] at hk' ⊢
      obtain rfl : k = k' := Option.some.inj hk'
      exact h k w.state hanswer

/-- A call is blocked if and only if nobody waits and there is no answer. -/
theorem call_eq_blocked_iff :
    (w.call attempt k).2 = .blocked ↔
      w.pending = none ∧ (attempt k w.state).2.isAnswer = false := by
  cases hpending : w.pending with
  | some _ => simp [Waiting.call, hpending]
  | none =>
    cases hanswer : (attempt k w.state).2.isAnswer <;> simp [Waiting.call, hpending, hanswer]

/-- A call is tried or not made. -/
theorem state_call (attempt : κ → σ → σ × Reply ρ) (w : Waiting σ κ) (k : κ) :
    (w.call attempt k).1.state = w.state ∨
      (w.call attempt k).1.state = (attempt k w.state).1 := by
  unfold Waiting.call
  split
  · exact .inl rfl
  · dsimp only
    split <;> exact .inr rfl

/-- After an operation the waiting call is tried, if there is one. -/
theorem state_apply (attempt : κ → σ → σ × Reply ρ) (w : Waiting σ κ) (op : σ → σ) :
    (w.apply attempt op).1.state = op w.state ∨
      ∃ k, w.pending = some k ∧ (w.apply attempt op).1.state = (attempt k (op w.state)).1 := by
  unfold apply retry
  split
  · exact .inl rfl
  · rename_i k hk
    refine .inr ⟨k, hk, ?_⟩
    dsimp only
    split <;> rfl

end Waiting

/-! ## A decoder that waits for a packet -/

namespace PacketQueue

variable {q : PacketQueue}

/-- The queue after a call on it that does not wait. -/
def receive (q : PacketQueue) : QueueCall → PacketQueue
  | .op op => q.perform op
  | .get => (takeCall () q).1

/-- Whether a call notifies those who wait for an entry. -/
def notifies (q : PacketQueue) : QueueCall → Bool
  | .op .start | .op .abort => true
  | .op (.put _) | .op .marker | .op .endOfStream => !q.aborted
  | .op .clear | .get => false

theorem takeCall_eq_wait_iff :
    (takeCall () q).2.isAnswer = false ↔ q.aborted = false ∧ q.entries = [] := by
  rw [← take_eq_wait_iff]
  unfold takeCall
  cases q.take <;> simp [Reply.isAnswer]

theorem takeCall_of_wait (h : (takeCall () q).2.isAnswer = false) : takeCall () q = (q, .wait) := by
  have hwait := take_eq_wait_iff.2 (takeCall_eq_wait_iff.1 h)
  rw [takeCall, hwait]

theorem patient_takeCall : Waiting.Patient takeCall :=
  fun _ _ => takeCall_of_wait

/-- A call that notifies nobody is of no use to those who wait. -/
theorem receive_of_not_notifies (hrun : q.aborted = false) (hempty : q.entries = []) {c : QueueCall}
    (h : q.notifies c = false) :
    (q.receive c).aborted = false ∧ (q.receive c).entries = [] := by
  cases c with
  | get =>
    rw [receive, takeCall_of_wait (takeCall_eq_wait_iff.2 ⟨hrun, hempty⟩)]
    exact ⟨hrun, hempty⟩
  | op op =>
    cases op with
    | clear => exact ⟨hrun, rfl⟩
    | start | abort => cases h
    | put | marker | endOfStream => simp [notifies, hrun] at h

/-- Entries arrive in an empty queue one at a time, and the queue stops working only if it is
aborted. -/
theorem receive_of_empty (hrun : q.aborted = false) (hempty : q.entries = []) (c : QueueCall) :
    ((q.receive c).aborted = true ↔ c = .op .abort) ∧ (q.receive c).entries.length ≤ 1 := by
  cases c with
  | get =>
    rw [receive, takeCall_of_wait (takeCall_eq_wait_iff.2 ⟨hrun, hempty⟩)]
    simp [hrun, hempty]
  | op op =>
    cases op with
    | start | clear | abort =>
      simp [receive, perform, start, clear, abort, append, hrun, hempty]
    | put | marker | endOfStream =>
      simp [receive, perform, put_of_running hrun, append, hrun, hempty]

end PacketQueue

/-- A packet queue, and the decoder that may wait for an entry of it. -/
abbrev QueueSeat :=
  Waiting PacketQueue Unit

/-- What happens to a queue: its decoder asks for an entry and waits for one if there is none, or
another call comes, which does not wait. -/
inductive QueueEvent where
  | await
  | call (c : QueueCall)

namespace QueueSeat

open PacketQueue (takeCall)

/-- The effect of a call that does not wait, and the answer to the decoder if it is woken. -/
def step (w : QueueSeat) (c : QueueCall) : QueueSeat × Reply QueuedEntry :=
  w.resume takeCall (w.state.notifies c) (w.state.receive c)

def after (w : QueueSeat) : QueueEvent → QueueSeat
  | .await => (w.call takeCall ()).1
  | .call c => (w.step c).1

def run (w : QueueSeat) (events : List QueueEvent) : QueueSeat :=
  events.foldl after w

variable {w : QueueSeat}

/-- No notification that the decoder needs is missing. -/
theorem step_eq_apply (h : w.Settled takeCall) (c : QueueCall) :
    w.step c = w.apply takeCall (·.receive c) := by
  refine Waiting.resume_eq_apply fun hnotify k hk => ?_
  have hwait : (takeCall () w.state).2.isAnswer = false := by
    rw [h k hk]
    rfl
  obtain ⟨hrun, hempty⟩ := PacketQueue.takeCall_eq_wait_iff.1 hwait
  exact PacketQueue.takeCall_of_wait (PacketQueue.takeCall_eq_wait_iff.2
    (PacketQueue.receive_of_not_notifies hrun hempty hnotify))

/-- Between two events, the decoder has no answer if it waits, and the sums of the queue are
right. -/
structure Sound (w : QueueSeat) : Prop where
  settled : w.Settled takeCall
  accounted : w.state.Accounted

theorem accounted_takeCall {q : PacketQueue} (h : q.Accounted) : (takeCall () q).1.Accounted := by
  unfold takeCall
  cases htake : q.take with
  | ready taken => exact (h.take htake).1
  | aborted | wait => exact h

theorem accounted_receive {q : PacketQueue} (h : q.Accounted) (c : QueueCall) :
    (q.receive c).Accounted := by
  cases c with
  | op op => exact h.perform op
  | get => exact accounted_takeCall h

theorem Sound.after (h : w.Sound) (event : QueueEvent) : (w.after event).Sound := by
  cases event with
  | await =>
    refine ⟨PacketQueue.patient_takeCall.call h.settled (), ?_⟩
    rcases Waiting.state_call takeCall w () with hstate | hstate
    · rw [QueueSeat.after, hstate]
      exact h.accounted
    · rw [QueueSeat.after, hstate]
      exact accounted_takeCall h.accounted
  | call c =>
    have hreceive := accounted_receive h.accounted c
    rw [QueueSeat.after, step_eq_apply h.settled]
    refine ⟨PacketQueue.patient_takeCall.retry _, ?_⟩
    rcases Waiting.state_apply takeCall w (·.receive c) with hstate | ⟨_, -, hstate⟩
    · rw [hstate]
      exact hreceive
    · rw [hstate]
      exact accounted_takeCall hreceive

theorem sound_run (events : List QueueEvent) : (run (.idle .new) events).Sound := by
  have hrun : ∀ w : QueueSeat, w.Sound → (w.run events).Sound := by
    induction events with
    | nil => exact fun _ h => h
    | cons event rest ih => exact fun w h => ih (w.after event) (h.after event)
  exact hrun _ ⟨nofun, rfl, rfl⟩

/-- What holds of a queue and of its decoder at any moment. -/
structure Exact (w : QueueSeat) : Prop where
  /-- The decoder waits only as long as the queue works and is empty. -/
  waits : w.pending = some () → w.state.aborted = false ∧ w.state.entries = []
  /-- It begins to wait only then. -/
  blocked_iff : w.pending = none →
    ((w.call takeCall ()).2 = .blocked ↔ w.state.aborted = false ∧ w.state.entries = [])
  /-- It is woken whenever it has an answer. -/
  woken : ∀ c, w.step c = w.apply takeCall (·.receive c)
  /-- A call gives it what it would get from the queue after that call, or else leaves everything
  as it is. -/
  answered : w.pending = some () → ∀ c, w.step c =
    match (w.state.receive c).take with
    | .ready (e, q) => (⟨q, none⟩, .ready e)
    | .aborted => (⟨w.state.receive c, none⟩, .aborted)
    | .wait => (w, .wait)
  /-- It gets the entry that has just arrived, -/
  ready_iff : w.pending = some () → ∀ c e,
    ((w.step c).2 = .ready e ↔ (w.state.receive c).entries = [e])
  /-- or it hears that the queue was aborted. -/
  aborted_iff : w.pending = some () → ∀ c, ((w.step c).2 = .aborted ↔ c = .op .abort)

theorem Sound.waits (h : w.Sound) (hpending : w.pending = some ()) :
    w.state.aborted = false ∧ w.state.entries = [] := by
  rw [← PacketQueue.takeCall_eq_wait_iff, h.settled () hpending]
  rfl

/-- A call after which the decoder still waits has changed nothing. -/
theorem Sound.receive_eq (h : w.Sound) (hpending : w.pending = some ()) {c : QueueCall}
    (hwait : (w.state.receive c).take = .wait) : w.state.receive c = w.state := by
  obtain ⟨hrun, hempty⟩ := h.waits hpending
  obtain ⟨hrun', hempty'⟩ := PacketQueue.take_eq_wait_iff.1 hwait
  cases c with
  | get =>
    rw [PacketQueue.receive, PacketQueue.takeCall_of_wait
      (PacketQueue.takeCall_eq_wait_iff.2 ⟨hrun, hempty⟩)]
  | op op =>
    cases op with
    | clear =>
      -- the sums of an empty queue are zero already
      have hsize := h.accounted.size
      have hduration := h.accounted.duration
      rw [hempty] at hsize hduration
      show w.state.clear = w.state
      unfold PacketQueue.clear
      rw [← hempty]
      exact congrArg₂ (fun n d => { w.state with size := n, duration := d }) hsize.symm
        hduration.symm
    | abort => cases hrun'
    | start => simp [PacketQueue.receive, PacketQueue.perform, PacketQueue.start,
        PacketQueue.entries_append] at hempty'
    | put | marker | endOfStream =>
      simp [PacketQueue.receive, PacketQueue.perform, PacketQueue.put_of_running hrun,
        PacketQueue.entries_append] at hempty'

theorem Sound.answered (h : w.Sound) (hpending : w.pending = some ()) (c : QueueCall) :
    w.step c =
      match (w.state.receive c).take with
      | .ready (e, q) => (⟨q, none⟩, .ready e)
      | .aborted => (⟨w.state.receive c, none⟩, .aborted)
      | .wait => (w, .wait) := by
  rw [step_eq_apply h.settled, PacketQueue.patient_takeCall.apply_eq hpending, takeCall]
  cases htake : (w.state.receive c).take with
  | ready taken | aborted => rfl
  | wait =>
    rw [h.receive_eq hpending htake]
    exact congrArg (fun p => ((⟨w.state, p⟩ : QueueSeat), Reply.wait)) hpending.symm

theorem Sound.exact (h : w.Sound) : w.Exact where
  waits := h.waits
  blocked_iff hpending := by
    rw [Waiting.call_eq_blocked_iff, PacketQueue.takeCall_eq_wait_iff]
    simp [hpending]
  woken := step_eq_apply h.settled
  answered := h.answered
  ready_iff hpending c e := by
    obtain ⟨hrun, hempty⟩ := h.waits hpending
    obtain ⟨hstops, hlength⟩ := PacketQueue.receive_of_empty hrun hempty c
    rw [h.answered hpending c]
    cases htake : (w.state.receive c).take with
    | ready taken =>
      obtain ⟨-, hentries, -⟩ := PacketQueue.take_eq_ready htake
      have hrest : taken.2.entries = [] := by
        rw [hentries, List.length_cons] at hlength
        exact List.length_eq_zero_iff.1 (by omega)
      rw [hentries, hrest]
      simp
    | aborted =>
      obtain rfl := hstops.1 (PacketQueue.take_eq_aborted_iff.1 htake)
      simp [PacketQueue.receive, PacketQueue.perform, PacketQueue.abort, hempty]
    | wait => simp [(PacketQueue.take_eq_wait_iff.1 htake).2]
  aborted_iff hpending c := by
    obtain ⟨hrun, hempty⟩ := h.waits hpending
    rw [h.answered hpending c, ← (PacketQueue.receive_of_empty hrun hempty c).1,
      ← PacketQueue.take_eq_aborted_iff]
    cases (w.state.receive c).take <;> simp

end QueueSeat

/-! ## Producer and consumer of a ring -/

namespace FrameRing

variable {α : Type} {r : FrameRing α}

/-- Whether the next move makes a slot free. -/
def releases (r : FrameRing α) : Bool :=
  decide (r.shownCount < r.size) && (!r.keepLast || r.shown)

/-- A move that makes no slot free marks the first frame as shown, at most. -/
theorem advance_of_not_releases (h : r.releases = false) :
    r.advance = { r with shown := r.advance.shown } := by
  unfold advance
  split_ifs with hle hkeep
  · rfl
  · rfl
  · cases hk : r.keepLast <;> cases hs : r.shown <;> simp_all [releases]

theorem advance_of_drained (h : r.size ≤ r.shownCount) : r.advance = r := by
  rw [advance, if_pos h]

/-- What is waited for is the frame that can be seen. -/
theorem Holds.awaitNext_eq_next? {l : FrameLog α} (h : r.Holds l) :
    r.awaitNext = if r.stopped then .aborted else r.next?.elim .wait .ready := by
  rw [h.awaitNext_eq, h.next?_eq, h.stopped_eq, FrameLog.awaitNext]

theorem size_advance_of_releases (h : r.releases = true) : r.advance.size + 1 = r.size := by
  obtain ⟨hlt, hkeep⟩ : r.shownCount < r.size ∧ (r.keepLast = false ∨ r.shown = true) := by
    simpa [releases] using h
  have hfree : ¬(r.keepLast && !r.shown) = true := by
    rcases hkeep with hkeep | hshown <;> simp [*]
  rw [advance, if_neg (by omega), if_neg hfree]
  show r.size - 1 + 1 = r.size
  omega

end FrameRing

namespace RingBench

variable {α : Type} {b : RingBench α} {c : FrameRing.Call α} {s : RingStep α} {l : FrameLog α}

/-- Tries a call that may wait. A slot that is given out is reserved from then on. -/
def attempt (c : FrameRing.Call α) (b : RingBench α) :
    RingBench α × Reply (FrameRing.Answer α) :=
  let (ring, reply) := FrameRing.attempt c b.ring
  match c, reply with
  | .reserve, .ready _ => (⟨ring, some ring.writeIndex⟩, reply)
  | _, _ => (⟨ring, b.reserved⟩, reply)

/-- Whether a step notifies those who wait. -/
def notifies (b : RingBench α) : RingStep α → Bool
  | .publish _ => b.reserved.isSome
  | .advance => b.ring.releases
  | .stop => true
  | _ => false

/-- The call has no answer: there is no free slot for it, or no frame, and the ring works. -/
def Lacks (b : RingBench α) : FrameRing.Call α → Prop
  | .reserve | .push _ => b.ring.capacity ≤ b.ring.size ∧ b.ring.stopped = false
  | .awaitNext => b.ring.size ≤ b.ring.shownCount ∧ b.ring.stopped = false

theorem attempt_reserve (b : RingBench α) :
    b.attempt .reserve =
      match b.ring.reserve with
      | .ready i => (⟨b.ring, some i⟩, .ready .reserved)
      | .aborted => (b, .aborted)
      | .wait => (b, .wait) := by
  unfold attempt FrameRing.attempt FrameRing.reserve
  split_ifs <;> rfl

theorem attempt_push (b : RingBench α) (f : α) :
    b.attempt (.push f) =
      match b.ring.push f with
      | .ready r => ({ b with ring := r }, .ready .pushed)
      | .aborted => (b, .aborted)
      | .wait => (b, .wait) := by
  unfold attempt FrameRing.attempt FrameRing.push FrameRing.reserve
  split_ifs <;> rfl

theorem attempt_awaitNext (b : RingBench α) :
    b.attempt .awaitNext = (b, b.ring.awaitNext.map .frame) := rfl

theorem reserve_eq_wait_iff :
    b.ring.reserve = .wait ↔ b.ring.capacity ≤ b.ring.size ∧ b.ring.stopped = false := by
  unfold FrameRing.reserve
  split_ifs <;> simp_all

theorem awaitNext_eq_wait_iff :
    b.ring.awaitNext = .wait ↔ b.ring.size ≤ b.ring.shownCount ∧ b.ring.stopped = false := by
  unfold FrameRing.awaitNext
  split_ifs
  · simp_all
  · simp_all
  · split <;> simp_all

/-- A call gets no answer if and only if it lacks what it asks for, and then nothing happens. -/
theorem isAnswer_attempt : (b.attempt c).2.isAnswer = false ↔ b.Lacks c := by
  cases c with
  | reserve =>
    rw [attempt_reserve, Lacks, ← reserve_eq_wait_iff]
    cases b.ring.reserve <;> simp [Reply.isAnswer]
  | push f =>
    rw [attempt_push, Lacks, ← reserve_eq_wait_iff, FrameRing.push]
    cases b.ring.reserve <;> simp [Reply.isAnswer, Reply.map]
  | awaitNext =>
    rw [attempt_awaitNext, Lacks, ← awaitNext_eq_wait_iff]
    cases b.ring.awaitNext <;> simp [Reply.isAnswer, Reply.map]

theorem attempt_of_lacks (h : b.Lacks c) : b.attempt c = (b, .wait) := by
  cases c with
  | reserve => rw [attempt_reserve, reserve_eq_wait_iff.2 h]
  | push f => rw [attempt_push, FrameRing.push, reserve_eq_wait_iff.2 h, Reply.map]
  | awaitNext => rw [attempt_awaitNext, awaitNext_eq_wait_iff.2 h, Reply.map]

theorem patient_attempt : Waiting.Patient (attempt (α := α)) :=
  fun _ _ h => attempt_of_lacks (isAnswer_attempt.1 h)

/-! ### What a step does to those who wait -/

theorem stopped_perform (b : RingBench α) (s : RingStep α) :
    (b.perform s).1.ring.stopped = true ↔ b.ring.stopped = true ∨ s = .stop := by
  cases s with
  | reserve =>
    simp only [perform]
    split <;> simp
  | publish f =>
    simp only [perform]
    split <;> simp [FrameRing.publish]
  | advance => simpa [perform] using (FrameRing.advances_iterate 1).stopped b.ring
  | stop => simp [perform, FrameRing.stop]
  | discard | next | second | last | await | available | remaining => simp [perform]

/-- A step that notifies nobody leaves the ring as it is, or marks the first frame as shown. -/
theorem ring_perform_of_not_notifies (h : b.notifies s = false) :
    (b.perform s).1.ring = { b.ring with shown := (b.perform s).1.ring.shown } := by
  cases s with
  | reserve =>
    simp only [perform]
    split <;> rfl
  | publish f =>
    have hnone : b.reserved = none := by simpa [notifies] using h
    simp [perform, hnone]
  | advance => exact FrameRing.advance_of_not_releases h
  | stop => cases h
  | discard | next | second | last | await | available | remaining => rfl

/-- For a consumer that waits there is no frame to move on to. -/
theorem ring_perform_of_drained (h : b.notifies s = false)
    (hdrained : b.ring.size ≤ b.ring.shownCount) : (b.perform s).1.ring = b.ring := by
  cases s with
  | reserve =>
    simp only [perform]
    split <;> rfl
  | publish f =>
    have hnone : b.reserved = none := by simpa [notifies] using h
    simp [perform, hnone]
  | advance => exact FrameRing.advance_of_drained hdrained
  | stop => cases h
  | discard | next | second | last | await | available | remaining => rfl

/-- What notifies nobody is of no use to those who wait. -/
theorem Lacks.perform (h : b.Lacks c) (hnotify : b.notifies s = false) :
    (b.perform s).1.Lacks c := by
  have hring := ring_perform_of_not_notifies hnotify
  cases c with
  | reserve | push =>
    unfold Lacks at h ⊢
    rw [hring]
    exact h
  | awaitNext =>
    unfold Lacks at h ⊢
    rw [ring_perform_of_drained hnotify h.1]
    exact h

/-- A producer that waits has no slot. -/
theorem Holds.reserved_of_full (h : b.Holds l) (hfull : b.ring.capacity ≤ b.ring.size) :
    b.reserved = none := by
  rw [h.reserved_eq]
  split_ifs with hl
  · exact absurd (h.room hl) (by omega)
  · rfl

theorem reserved_perform (hnone : b.reserved = none) (hfull : b.ring.capacity ≤ b.ring.size)
    (s : RingStep α) : (b.perform s).1.reserved = none := by
  cases s with
  | reserve =>
    have hreserve : ∀ i, b.ring.reserve ≠ .ready i := by
      intro i
      unfold FrameRing.reserve
      split_ifs <;> simp
    cases hr : b.ring.reserve with
    | ready i => exact absurd hr (hreserve i)
    | aborted | wait => simp [perform, hnone, hr]
  | publish f => simp [perform, hnone]
  | discard => rfl
  | advance | stop | next | second | last | await | available | remaining => exact hnone

/-- Nobody is woken in vain. -/
theorem Lacks.not_perform (h : b.Lacks c) (hb : b.Holds l) (hnotify : b.notifies s = true) :
    ¬(b.perform s).1.Lacks c := by
  have hle := hb.ring.size_le
  cases s with
  | stop =>
    cases c with
    | reserve | push | awaitNext => simp [Lacks, RingBench.perform, FrameRing.stop]
  | advance =>
    have hsize := FrameRing.size_advance_of_releases hnotify
    cases c with
    | reserve | push =>
      simp only [Lacks, RingBench.perform, capacity_advance]
      omega
    | awaitNext =>
      have hdrained : b.ring.size ≤ b.ring.shownCount := h.1
      rw [FrameRing.advance_of_drained hdrained] at hsize
      omega
  | publish f =>
    obtain ⟨i, hi⟩ := Option.isSome_iff_exists.1 hnotify
    cases c with
    | reserve | push =>
      rw [hb.reserved_of_full h.1] at hi
      cases hi
    | awaitNext =>
      have hcount : b.ring.shownCount ≤ b.ring.size := by
        rw [hb.ring.shownCount_eq, hb.ring.size_eq, FrameLog.size]
        omega
      have hmore : ¬b.ring.size + 1 ≤ b.ring.shownCount := by omega
      simp only [Lacks, RingBench.perform, hi, FrameRing.publish]
      exact fun hlacks => hmore hlacks.1
  | reserve | discard | next | second | last | await | available | remaining => cases hnotify

theorem Holds.attempt_eq_aborted_iff (h : b.Holds l) :
    (b.attempt c).2 = .aborted ↔ b.ring.stopped = true := by
  have hreserve : b.ring.reserve = .aborted ↔ b.ring.stopped = true := by
    unfold FrameRing.reserve
    split_ifs <;> simp_all
  cases c with
  | reserve =>
    rw [attempt_reserve, ← hreserve]
    cases b.ring.reserve <;> simp
  | push f =>
    rw [attempt_push, ← hreserve, FrameRing.push]
    cases b.ring.reserve <;> simp [Reply.map]
  | awaitNext =>
    rw [attempt_awaitNext, h.ring.awaitNext_eq_next?]
    cases b.ring.stopped <;> cases b.ring.next? <;> simp [Reply.map]

/-- A call that is answered is a step of the producer, or only a look at the ring. -/
theorem Holds.attempt (h : b.Holds l) (hfree : c ≠ .awaitNext → b.reserved = none) :
    ∃ l', (b.attempt c).1.Holds l' := by
  cases c with
  | awaitNext => exact ⟨l, h⟩
  | reserve =>
    have hreserve := h.reserve.1
    simp only [RingBench.perform, hfree (by simp)] at hreserve
    rw [attempt_reserve]
    cases hr : b.ring.reserve with
    | ready i =>
      rw [hr] at hreserve
      exact ⟨_, hreserve⟩
    | aborted | wait => exact ⟨l, h⟩
  | push f =>
    have hnone : b.reserved = none := hfree (by simp)
    have hpublish := (h.reserve.1.publish f).1
    simp only [RingBench.perform, hnone] at hpublish
    rw [attempt_push, FrameRing.push]
    cases hr : b.ring.reserve with
    | ready i =>
      rw [hr] at hpublish
      simp only [Reply.map, hnone]
      exact ⟨_, hpublish⟩
    | aborted | wait => exact ⟨l, h⟩

end RingBench

/-- A ring with its producer, and one caller that may wait for a slot or for a frame. -/
abbrev RingSeat (α : Type) :=
  Waiting (RingBench α) (FrameRing.Call α)

/-- What happens to a ring: a call comes and waits if it has no answer, or a step is made, which
does not wait. -/
inductive RingEvent (α : Type) where
  | call (c : FrameRing.Call α)
  | step (s : RingStep α)

namespace RingSeat

open RingBench (attempt)

variable {α : Type} {w : RingSeat α} {c : FrameRing.Call α}

/-- The effect of a step, and the answer to the waiting call if it is woken. -/
def step (w : RingSeat α) (s : RingStep α) : RingSeat α × Reply (FrameRing.Answer α) :=
  w.resume attempt (w.state.notifies s) (w.state.perform s).1

/-- A producer that has a slot asks for no other one. -/
def after (w : RingSeat α) : RingEvent α → RingSeat α
  | .call .awaitNext => (w.call attempt .awaitNext).1
  | .call c => if w.state.reserved.isSome then w else (w.call attempt c).1
  | .step s => (w.step s).1

def run (w : RingSeat α) (events : List (RingEvent α)) : RingSeat α :=
  events.foldl after w

/-- Between two events, the call that waits has no answer, and the ring is in order. -/
structure Sound (w : RingSeat α) : Prop where
  settled : w.Settled attempt
  holds : ∃ l, w.state.Holds l

theorem Sound.lacks (h : w.Sound) (hc : w.pending = some c) : w.state.Lacks c := by
  rw [← RingBench.isAnswer_attempt, h.settled c hc]
  rfl

/-- No notification that a waiting call needs is missing. -/
theorem Sound.step_eq_apply (h : w.Sound) (s : RingStep α) :
    w.step s = w.apply attempt fun b => (b.perform s).1 := by
  refine Waiting.resume_eq_apply fun hnotify c hc => ?_
  exact RingBench.attempt_of_lacks ((h.lacks hc).perform hnotify)

theorem Sound.call (h : w.Sound) (hfree : c ≠ .awaitNext → w.state.reserved = none) :
    Sound (w.call attempt c).1 := by
  refine ⟨RingBench.patient_attempt.call h.settled c, ?_⟩
  obtain ⟨l, hl⟩ := h.holds
  rcases Waiting.state_call attempt w c with hstate | hstate
  · rw [hstate]
    exact ⟨l, hl⟩
  · rw [hstate]
    exact hl.attempt hfree

theorem Sound.step (h : w.Sound) (s : RingStep α) : Sound (w.step s).1 := by
  obtain ⟨l, hl⟩ := h.holds
  have hstep := (hl.perform s).1
  rw [h.step_eq_apply]
  refine ⟨RingBench.patient_attempt.retry _, ?_⟩
  rcases Waiting.state_apply attempt w (fun b => (b.perform s).1) with
    hstate | ⟨c, hc, hstate⟩
  · rw [hstate]
    exact ⟨_, hstep⟩
  · rw [hstate]
    refine hstep.attempt fun hslot => ?_
    -- whoever waits for a slot has none, and finds none on the way
    have hfull : w.state.ring.capacity ≤ w.state.ring.size := by
      have hlacks := h.lacks hc
      cases c with
      | awaitNext => exact absurd rfl hslot
      | reserve | push => exact hlacks.1
    exact RingBench.reserved_perform (hl.reserved_of_full hfull) hfull s

theorem Sound.after (h : w.Sound) (event : RingEvent α) : (w.after event).Sound := by
  cases event with
  | step s => exact h.step s
  | call c =>
    cases c with
    | awaitNext => exact h.call (by simp)
    | reserve | push =>
      unfold RingSeat.after
      split_ifs with hres
      · exact h
      · exact h.call fun _ => by simpa using hres

theorem sound_run (capacity : Nat) (keepLast : Bool) (events : List (RingEvent α)) :
    (run (.idle ⟨.new capacity keepLast, none⟩) events).Sound := by
  have hrun : ∀ w : RingSeat α, w.Sound → (w.run events).Sound := by
    induction events with
    | nil => exact fun _ h => h
    | cons event rest ih => exact fun w h => ih (w.after event) (h.after event)
  exact hrun _ ⟨nofun, _, RingBench.holds_new capacity keepLast⟩

/-- What holds of a ring and of the call that may wait on it at any moment. -/
structure Exact (w : RingSeat α) : Prop where
  /-- A call waits only as long as it has no answer. -/
  waits : ∀ c, w.pending = some c → w.state.Lacks c
  /-- It begins to wait only then. -/
  blocked_iff : w.pending = none → ∀ c, ((w.call attempt c).2 = .blocked ↔ w.state.Lacks c)
  /-- It is woken whenever it has an answer. -/
  woken : ∀ s, w.step s = w.apply attempt fun b => (b.perform s).1
  /-- A step gives a producer the slot that it would get after that step. -/
  reserve : w.pending = some .reserve → ∀ s, let b := (w.state.perform s).1
    w.step s =
      match b.ring.reserve with
      | .ready i => (⟨⟨b.ring, some i⟩, none⟩, .ready .reserved)
      | .aborted => (⟨b, none⟩, .aborted)
      | .wait => (⟨b, some .reserve⟩, .wait)
  /-- A producer that waits with its frame publishes it there. -/
  push : ∀ f, w.pending = some (.push f) → ∀ s, let b := (w.state.perform s).1
    w.step s =
      match b.ring.push f with
      | .ready r => (⟨{ b with ring := r }, none⟩, .ready .pushed)
      | .aborted => (⟨b, none⟩, .aborted)
      | .wait => (⟨b, some (.push f)⟩, .wait)
  /-- A step gives a consumer the frame that it would see after that step. -/
  awaitNext : w.pending = some .awaitNext → ∀ s, let b := (w.state.perform s).1
    w.step s =
      if b.ring.stopped then (⟨b, none⟩, .aborted)
      else
        match b.ring.next? with
        | some f => (⟨b, none⟩, .ready (.frame f))
        | none => (⟨b, some .awaitNext⟩, .wait)
  /-- A call hears that the ring is stopped, and never otherwise. -/
  aborted_iff : ∀ c, w.pending = some c → ∀ s, ((w.step s).2 = .aborted ↔ s = .stop)
  /-- A step after which a call still waits has changed nothing that it looks at. -/
  unseen : ∀ c, w.pending = some c → ∀ s, (w.step s).2 = .wait →
    (w.step s).1.state.ring = { w.state.ring with shown := (w.step s).1.state.ring.shown } ∧
      (c = .awaitNext → (w.step s).1.state.ring = w.state.ring)

theorem Sound.step_eq (h : w.Sound) (hc : w.pending = some c) (s : RingStep α) :
    w.step s =
      (⟨((w.state.perform s).1.attempt c).1,
        if ((w.state.perform s).1.attempt c).2.isAnswer then none else some c⟩,
        ((w.state.perform s).1.attempt c).2) := by
  rw [h.step_eq_apply]
  exact RingBench.patient_attempt.apply_eq hc _

/-- A call that waits sees a ring that works, until it is stopped. -/
theorem Sound.running (h : w.Sound) (hc : w.pending = some c) : w.state.ring.stopped = false := by
  have hlacks := h.lacks hc
  cases c with
  | reserve | push | awaitNext => exact hlacks.2

theorem Sound.unseen (h : w.Sound) (hc : w.pending = some c) {s : RingStep α}
    (hwait : (w.step s).2 = .wait) :
    (w.step s).1.state.ring = { w.state.ring with shown := (w.step s).1.state.ring.shown } ∧
      (c = .awaitNext → (w.step s).1.state.ring = w.state.ring) := by
  obtain ⟨l, hl⟩ := h.holds
  have hlacks := h.lacks hc
  rw [h.step_eq hc] at hwait ⊢
  have hstill : (w.state.perform s).1.Lacks c := by
    rw [← RingBench.isAnswer_attempt, hwait]
    rfl
  have hnotify : w.state.notifies s = false := by
    by_contra hnotify
    exact hlacks.not_perform hl (by simpa using hnotify) hstill
  rw [RingBench.attempt_of_lacks hstill]
  refine ⟨RingBench.ring_perform_of_not_notifies hnotify, ?_⟩
  rintro rfl
  exact RingBench.ring_perform_of_drained hnotify hlacks.1

theorem Sound.exact (h : w.Sound) : w.Exact where
  waits c hc := h.lacks hc
  blocked_iff hnone c := by
    rw [Waiting.call_eq_blocked_iff, RingBench.isAnswer_attempt]
    simp [hnone]
  woken := h.step_eq_apply
  reserve hc s := by
    rw [h.step_eq hc, RingBench.attempt_reserve]
    dsimp only
    cases (w.state.perform s).1.ring.reserve <;> rfl
  push f hc s := by
    rw [h.step_eq hc, RingBench.attempt_push]
    dsimp only
    cases (w.state.perform s).1.ring.push f <;> rfl
  awaitNext hc s := by
    obtain ⟨l, hl⟩ := h.holds
    rw [h.step_eq hc, RingBench.attempt_awaitNext, (hl.perform s).1.ring.awaitNext_eq_next?]
    dsimp only
    cases (w.state.perform s).1.ring.stopped with
    | true => rfl
    | false => cases (w.state.perform s).1.ring.next? <;> rfl
  aborted_iff c hc s := by
    obtain ⟨l, hl⟩ := h.holds
    rw [h.step_eq hc, (hl.perform s).1.attempt_eq_aborted_iff, RingBench.stopped_perform,
      h.running hc]
    simp
  unseen c hc s := h.unseen hc

end RingSeat

/-! ## Every run -/

/-- Calls that may block wait exactly as long as they must. Over every run on a packet queue, and
over every run on a frame ring of whatever size, a call waits only in a state that has no answer for
it, and the first operation that leads to a state with an answer wakes it and answers it. -/
theorem blocking_calls_wait_exactly :
    (∀ events, (QueueSeat.run (.idle .new) events).Exact) ∧
      ∀ (α : Type) (capacity : Nat) (keepLast : Bool) (events : List (RingEvent α)),
        (RingSeat.run (.idle ⟨.new capacity keepLast, none⟩) events).Exact :=
  ⟨fun events => (QueueSeat.sound_run events).exact,
    fun _ capacity keepLast events => (RingSeat.sound_run capacity keepLast events).exact⟩

end Playback
