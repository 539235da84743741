import Playback.Proofs.Buffer.Wakeups
import Playback.Proofs.Session.PausedSession
import Playback.Proofs.Session.RingOrder

/-!
# Who can go on at a ring

A ring is stuck if a producer that asks for a slot would wait, and so would a consumer that asks for
a frame. A full ring has a frame to give unless all of its frames have been shown, and only one
shown frame is ever kept. So the one ring that gets stuck has a single slot and keeps its last frame
(`Holds.stuck_iff`); it stays stuck until it is stopped (`Holds.run_of_stuck`).

The rings of a session have other shapes from the moment when they are opened, throughout every run
(`Session.RingShapes.run`), so they are never stuck (`ring_stuck_iff`).
-/

namespace Playback

namespace FrameRing

variable {α : Type} {r r' : FrameRing α} {x : α} {l : FrameLog α}

/-! ## Stuck rings -/

/-- Producer and consumer would both wait, each for the other. -/
def Stuck (r : FrameRing α) : Prop :=
  r.reserve = .wait ∧ r.awaitNext = .wait

/-- A producer gets a slot, or a consumer gets a frame. -/
def Proceeds (r : FrameRing α) : Prop :=
  (∃ i, r.reserve = .ready i) ∨ ∃ x, r.awaitNext = .ready x

/-- The number of slots, and whether the frame that was shown last is kept. -/
def shape (r : FrameRing α) : Nat × Bool :=
  (r.capacity, r.keepLast)

theorem stuck_iff_full_and_drained :
    r.Stuck ↔ r.stopped = false ∧ r.capacity ≤ r.size ∧ r.size ≤ r.shownCount := by
  have hreserve := RingBench.reserve_eq_wait_iff (b := ⟨r, none⟩)
  have hawait := RingBench.awaitNext_eq_wait_iff (b := ⟨r, none⟩)
  rw [Stuck, hreserve, hawait]
  constructor
  · rintro ⟨⟨hfull, hrun⟩, hdrained, -⟩
    exact ⟨hrun, hfull, hdrained⟩
  · rintro ⟨hrun, hfull, hdrained⟩
    exact ⟨⟨hfull, hrun⟩, hdrained, hrun⟩

namespace Holds

theorem capacity_pos (h : r.Holds l) : 0 < r.capacity :=
  Nat.zero_lt_of_lt h.readIndex_lt

/-- Only a ring that keeps its last frame has a shown one. -/
theorem keepLast_of_shown (h : r.Holds l) (hshown : r.shown = true) : r.keepLast = true := by
  have hkept := h.shownCount_eq
  rw [shownCount, if_pos hshown, FrameLog.kept] at hkept
  rw [h.keepLast_eq]
  by_contra hnot
  rw [if_neg fun hboth => hnot hboth.1] at hkept
  cases hkept

theorem stuck_iff (h : r.Holds l) :
    r.Stuck ↔ r.stopped = false ∧ r.shape = (1, true) ∧ r.shown = true ∧ r.size = 1 := by
  rw [stuck_iff_full_and_drained, shape, Prod.mk.injEq]
  constructor
  · rintro ⟨hrun, hfull, hdrained⟩
    have hpos := h.capacity_pos
    have hshown : r.shown = true := by
      by_contra hnot
      rw [shownCount, if_neg hnot] at hdrained
      omega
    rw [shownCount, if_pos hshown] at hdrained
    exact ⟨hrun, ⟨by omega, h.keepLast_of_shown hshown⟩, hshown, by omega⟩
  · rintro ⟨hrun, ⟨hone, -⟩, hshown, hsize⟩
    rw [shownCount, if_pos hshown]
    exact ⟨hrun, by omega, by omega⟩

/-- A ring that is not stuck lets one side go on, until it is stopped. -/
theorem proceeds_iff (h : r.Holds l) : r.Proceeds ↔ r.stopped = false ∧ ¬r.Stuck := by
  have hawait := h.awaitNext_eq_next?
  rw [Proceeds, Stuck]
  cases hrun : r.stopped with
  | true => simp [FrameRing.reserve, FrameRing.awaitNext, hrun]
  | false =>
    have hreserve : (∃ i, r.reserve = .ready i) ↔ r.reserve ≠ .wait := by
      unfold FrameRing.reserve
      by_cases hfull : r.capacity ≤ r.size <;> simp [hrun, hfull]
    have hnext : (∃ x, r.awaitNext = .ready x) ↔ r.awaitNext ≠ .wait := by
      rw [hawait, hrun]
      cases r.next? <;> simp
    rw [hreserve, hnext]
    simp only [true_and, not_and_or]

theorem proceeds_of_shape (h : r.Holds l) (hrun : r.stopped = false)
    (hshape : r.shape ≠ (1, true)) : r.Proceeds :=
  h.proceeds_iff.2 ⟨hrun, fun hstuck => hshape (h.stuck_iff.1 hstuck).2.1⟩

end Holds

/-! ## The shape of a ring -/

@[simp] theorem shape_new (capacity : Nat) (keepLast : Bool) :
    (FrameRing.new capacity keepLast : FrameRing α).shape = (max capacity 1, keepLast) := by
  simp [shape, FrameRing.capacity, FrameRing.new]

theorem shape_advance (r : FrameRing α) : r.advance.shape = r.shape := by
  refine Prod.ext (RingBench.capacity_advance r) ?_
  unfold shape FrameRing.advance
  split_ifs <;> rfl

theorem shape_push (hpush : r.push x = .ready r') : r'.shape = r.shape := by
  unfold FrameRing.push at hpush
  cases hreserve : r.reserve with
  | ready i =>
    rw [hreserve] at hpush
    rw [← Reply.ready.inj hpush]
    exact Prod.ext (capacity_publish r i x) rfl
  | aborted | wait =>
    rw [hreserve] at hpush
    cases hpush

theorem Advances.shape {g : FrameRing α → FrameRing α} (h : Advances g) (r : FrameRing α) :
    (g r).shape = r.shape := by
  have hiterate (n : Nat) : (advance^[n] r).shape = r.shape := by
    induction n with
    | zero => rfl
    | succ n ih => rw [Function.iterate_succ_apply', shape_advance, ih]
  obtain ⟨n, hn⟩ := h r
  rw [hn, hiterate]

end FrameRing

/-! ## Runs of a ring -/

namespace RingBench

variable {α : Type} {b : RingBench α} {l : FrameLog α}

/-- Producer and consumer cannot help a stuck ring. -/
theorem Holds.perform_of_stuck (h : b.Holds l) (hstuck : b.ring.Stuck) {s : RingStep α}
    (hstop : s ≠ .stop) : (b.perform s).1 = b := by
  obtain ⟨-, hfull, hdrained⟩ := FrameRing.stuck_iff_full_and_drained.1 hstuck
  have hnone := h.reserved_of_full hfull
  obtain ⟨r, reserved⟩ := b
  obtain rfl : reserved = none := hnone
  cases s with
  | reserve =>
    have hwait : r.reserve = .wait := hstuck.1
    simp only [RingBench.perform, hwait]
  | advance =>
    have hsame : r.advance = r := FrameRing.advance_of_drained hdrained
    simp only [RingBench.perform, hsame]
  | stop => exact absurd rfl hstop
  | publish | discard | next | second | last | await | available | remaining => rfl

theorem Holds.run_of_stuck (h : b.Holds l) (hstuck : b.ring.Stuck) {steps : List (RingStep α)}
    (hsteps : ∀ s ∈ steps, s ≠ .stop) : (b.run steps).1 = b := by
  induction steps with
  | nil => rfl
  | cons s rest ih =>
    have hstep := h.perform_of_stuck hstuck (hsteps s List.mem_cons_self)
    calc (b.run (s :: rest)).1
        = ((b.perform s).1.run rest).1 := rfl
      _ = (b.run rest).1 := by rw [hstep]
      _ = b := ih fun s hs => hsteps s (List.mem_cons_of_mem _ hs)

/-- The ring keeps its shape. -/
theorem shape_run (capacity : Nat) (keepLast : Bool) (steps : List (RingStep α)) :
    (run ⟨.new capacity keepLast, none⟩ steps).1.ring.shape = (max capacity 1, keepLast) := by
  obtain ⟨hholds, -⟩ := (holds_new capacity keepLast).run steps
  have hcapacity := hholds.ring.capacity_eq
  have hkeep := hholds.ring.keepLast_eq
  rw [FrameLog.capacity_run] at hcapacity
  rw [FrameLog.keepLast_run] at hkeep
  exact Prod.ext hcapacity hkeep

end RingBench

/-! ## Runs of a session -/

open FrameRing

theorem Flow.Moves.shape {S M σ F α : Type} [Scalar S] [CodecUnit F] {codec : Codec S M σ F}
    {make : DecodedFrame S F → α} {refuses : Prop} {f f' : Flow S σ F α}
    (hmove : Moves codec make refuses (some f) (some f')) : f'.frames.shape = f.frames.shape := by
  cases hmove with
  | publishes _ hpush => exact shape_push hpush
  | waits | ends | decodes | endsAfter | takes | refused | leaves => rfl

namespace Session

variable {S : Type} [Scalar S] {host : Host S} {s s' : Session host} {now : S}

/-- The rings of the open streams have the shapes with which they were opened. -/
structure RingShapes (s : Session host) : Prop where
  video : ∀ f, s.flows.video = some f → f.frames.shape = (pictureRingSize, true)
  audio : ∀ f, s.flows.audio = some f → f.frames.shape = (soundRingSize, false)

namespace RingShapes

theorem of_flows {fs : Flows host} (hflows : s.flows = fs)
    (hvideo : ∀ f, fs.video = some f → f.frames.shape = (pictureRingSize, true))
    (haudio : ∀ f, fs.audio = some f → f.frames.shape = (soundRingSize, false)) :
    s.RingShapes := by
  subst hflows
  exact ⟨hvideo, haudio⟩

theorem openStream (h : s.RingShapes) (p : StreamParams) (now : S) :
    (s.openStream p now).2.RingShapes := by
  unfold Session.openStream
  split
  · unfold openVideo
    split
    · exact h
    · refine ⟨fun f hf => ?_, h.audio⟩
      obtain rfl := Option.some.inj hf
      exact shape_new pictureRingSize true
  · unfold openAudio
    dsimp only
    split
    · exact ⟨h.video, h.audio⟩
    · split
      · exact ⟨h.video, h.audio⟩
      · refine ⟨h.video, fun f hf => ?_⟩
        obtain rfl := Option.some.inj hf
        exact shape_new soundRingSize false

theorem closeStream (h : s.RingShapes) (kind : MediaKind) : (s.closeStream kind).RingShapes := by
  have hflows := s.flows_closeStream kind
  cases kind with
  | video => exact of_flows hflows (fun f hf => by cases hf) h.audio
  | audio => exact of_flows hflows h.video fun f hf => by cases hf

theorem start {uri : String} {options : Options S} {screen : host.Screen}
    (hopen : Session.open host uri options screen now = .ok s) : s.RingShapes := by
  have hclosed (s : Session host) (hflows : s.flows = ⟨none, none, false, false⟩) :
      s.RingShapes :=
    of_flows hflows (fun f hf => by cases hf) fun f hf => by cases hf
  refine of_open hopen (fun source medium _ => ?_) fun s p h => h.openStream p now
  unfold seekStart
  split <;> exact hclosed _ rfl

theorem downstream (h : s.RingShapes) (hmoves : s.flows.Downstream s'.flows) : s'.RingShapes := by
  cases hmoves with
  | nothing hflows => exact of_flows hflows h.video h.audio
  | video hmoves hflows =>
    refine of_flows hflows (fun f' hf' => ?_) h.audio
    obtain rfl := hf'
    obtain ⟨f, hf, hmove⟩ := hmoves.source
    exact hmove.shape.trans (h.video f hf)
  | audio hmoves hflows =>
    refine of_flows hflows h.video fun f' hf' => ?_
    obtain rfl := hf'
    obtain ⟨f, hf, hmove⟩ := hmoves.source
    exact hmove.shape.trans (h.audio f hf)
  | shows hg hflows =>
    refine of_flows hflows (fun f' hf' => ?_) h.audio
    obtain ⟨f, hf, rfl⟩ := Option.map_eq_some_iff.1 hf'
    exact (hg.shape f.frames).trans (h.video f hf)
  | plays hg hflows =>
    refine of_flows hflows h.video fun f' hf' => ?_
    obtain ⟨f, hf, rfl⟩ := Option.map_eq_some_iff.1 hf'
    exact (hg.shape f.frames).trans (h.audio f hf)

theorem perform (h : s.RingShapes) (hforced : s.refreshForced = false) (now : S)
    (action : Action) : (s.perform now action).RingShapes := by
  by_cases hdown : action.isDownstream = true
  · exact h.downstream (downstream_perform hforced now hdown)
  cases action with
  | readerTurn =>
    obtain ⟨video, audio, -, -, hflows⟩ := s.fed_readerTurn now
    refine of_flows hflows (fun f' hf' => ?_) fun f' hf' => ?_
    · obtain ⟨f, hf, rfl⟩ := Option.map_eq_some_iff.1 hf'
      exact h.video f hf
    · obtain ⟨f, hf, rfl⟩ := Option.map_eq_some_iff.1 hf'
      exact h.audio f hf
  | cycleStream kind =>
    cases hswitch : s.switches kind with
    | false => rwa [Session.perform, cycleStream_of_stays hswitch]
    | true =>
      obtain ⟨p, -, hcycle⟩ := cycleStream_of_switches hswitch now
      rw [Session.perform, hcycle]
      exact (h.closeStream kind).openStream p now
  | abort =>
    refine of_flows s.flows_abort (fun f' hf' => ?_) fun f' hf' => ?_
    · obtain ⟨f, hf, rfl⟩ := Option.map_eq_some_iff.1 hf'
      exact h.video f hf
    · obtain ⟨f, hf, rfl⟩ := Option.map_eq_some_iff.1 hf'
      exact h.audio f hf
  | close => exact of_flows s.flows_close (fun f hf => by cases hf) fun f hf => by cases hf
  | _ => exact absurd rfl hdown

theorem run (h : s.RingShapes) (hin : s.InOrder) (actions : List (S × Action)) :
    (s.run actions).RingShapes := by
  have hboth : (s.run actions).InOrder ∧ (s.run actions).RingShapes :=
    of_run (motive := fun s => s.InOrder ∧ s.RingShapes) ⟨hin, h⟩
      (fun _ now action h => ⟨h.1.perform now action, h.2.perform h.1.forced now action⟩) actions
  exact hboth.2

end RingShapes

/-- In every state of a session, a ring that is not stopped lets its decode loop go on or has a
frame for the display or for the audio device. -/
theorem rings_proceed {uri : String} {options : Options S} {screen : host.Screen}
    (hopen : Session.open host uri options screen now = .ok s) (actions : List (S × Action)) :
    (∀ v, (s.run actions).videoStream = some v → v.frames.stopped = false →
      v.frames.Proceeds) ∧
      ∀ a, (s.run actions).audioStream = some a → a.frames.stopped = false →
        a.frames.Proceeds := by
  have hin := (InOrder.start hopen).run actions
  have hshapes := (RingShapes.start hopen).run (.start hopen) actions
  constructor
  · intro v hv hrun
    obtain ⟨p, hp, rfl⟩ := Option.map_eq_some_iff.1 hv
    have hflow : (s.run actions).flows.video = some p.flow := congrArg (Option.map _) hp
    obtain ⟨returned, taken, l, hbooks⟩ := hin.books _ hflow
    have hne : p.flow.frames.shape ≠ (1, true) := by
      rw [hshapes.video _ hflow]
      decide
    exact hbooks.holds.proceeds_of_shape hrun hne
  · intro a ha hrun
    obtain ⟨p, hp, rfl⟩ := Option.map_eq_some_iff.1 ha
    have hflow : (s.run actions).flows.audio = some p.flow := congrArg (Option.map _) hp
    obtain ⟨l, hl⟩ := hin.sound _ hflow
    have hne : p.flow.frames.shape ≠ (1, true) := by
      rw [hshapes.audio _ hflow]
      decide
    exact hl.proceeds_of_shape hrun hne

end Session

/-! ## Every run -/

/-- In whatever state a run has left a ring, producer and consumer would both wait if and only if
the ring is not stopped, has one slot, keeps its last frame, and has shown the frame that it has.
The rings of a session have another shape: in every state of every session, a ring that is not
stopped lets its decode loop publish or has a frame for its consumer. -/
theorem ring_stuck_iff :
    (∀ (α : Type) (capacity : Nat) (keepLast : Bool) (steps : List (RingStep α)),
      let r := (RingBench.run ⟨.new capacity keepLast, none⟩ steps).1.ring
      r.reserve = .wait ∧ r.awaitNext = .wait ↔
        r.stopped = false ∧ max capacity 1 = 1 ∧ keepLast = true ∧ r.size = 1 ∧ r.shown = true) ∧
      ∀ {S : Type} [Scalar S] (host : Host S) (uri : String) (options : Options S)
        (screen : host.Screen) (opened : S) (s : Session host),
        Session.open host uri options screen opened = .ok s →
          ∀ actions : List (S × Session.Action),
            (∀ v, (s.run actions).videoStream = some v → v.frames.stopped = false →
              v.frames.Proceeds) ∧
            ∀ a, (s.run actions).audioStream = some a → a.frames.stopped = false →
              a.frames.Proceeds := by
  constructor
  · intro α capacity keepLast steps r
    obtain ⟨hholds, -⟩ := (RingBench.holds_new capacity keepLast).run steps
    have hshape : r.shape = (max capacity 1, keepLast) :=
      RingBench.shape_run capacity keepLast steps
    have hstuck := hholds.ring.stuck_iff
    change _ ↔ r.stopped = false ∧ r.shape = (1, true) ∧ r.shown = true ∧ r.size = 1 at hstuck
    rw [hshape, Prod.mk.injEq] at hstuck
    refine hstuck.trans ?_
    simp only [and_assoc, and_comm (a := r.shown = true)]
  · intro S _ host uri options screen opened s hopen actions
    exact Session.rings_proceed hopen actions

/-- A ring with a single slot is stuck once its frame has been shown. When a picture is on screen
and a block of sound is being played, both rings of the session let somebody go on. -/
theorem ring_stuck_iff_single :
    (RingBench.run ⟨.new 0 true, none⟩ [.reserve, .publish 7, .advance]).1.ring.Stuck ∧
      ∃ s, Session.open PictureAndSound.host "" {} (0 : Nat) 0 = .ok s ∧
        ∃ v a, (s.run PictureAndSound.playing).videoStream = some v ∧
          (s.run PictureAndSound.playing).audioStream = some a ∧ v.frames.shown = true ∧
          v.frames.Proceeds ∧ a.frames.Proceeds := by
  have hopen : ∃ s, Session.open PictureAndSound.host "" {} (0 : Nat) 0 = .ok s ∧
      let p := s.run PictureAndSound.playing
      p.videoStream.map (fun v => (v.frames.shown, v.frames.stopped)) = some (true, false) ∧
        p.audioStream.map (·.frames.stopped) = some false :=
    ⟨_, rfl, by decide +kernel⟩
  obtain ⟨hring, hsession⟩ := ring_stuck_iff
  refine ⟨(hring Nat 0 true [.reserve, .publish 7, .advance]).2 (by decide), ?_⟩
  obtain ⟨s, hs, hpictures, hsound⟩ := hopen
  obtain ⟨v, hv, hflags⟩ := Option.map_eq_some_iff.1 hpictures
  obtain ⟨a, ha, hruns⟩ := Option.map_eq_some_iff.1 hsound
  obtain ⟨hshown, hrun⟩ := Prod.mk.inj hflags
  obtain ⟨hvideo, haudio⟩ :=
    hsession PictureAndSound.host "" {} (0 : Nat) 0 s hs PictureAndSound.playing
  exact ⟨s, hs, v, a, hv, ha, hshown, hvideo v hv hrun, haudio a ha hruns⟩

end Playback
