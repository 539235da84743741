import Playback.Proofs.Decoding.Steps
import Playback.Proofs.Session.LoopMoves
import Playback.Proofs.Session.RefreshLoop

/-!
# Pictures on their way through a stream

In each step of the video loop the decoder may give out a picture (`Session.returns`). The loop
drops it, or takes it into its hands and later publishes it in the ring (`works_videoStep`).

`Flow.Books` says where the pictures are that were given out and not dropped. The first ones were
taken by the display, the next ones wait in the ring, and at most one is in the hands of the loop.
They all stand in the order of their epochs.
-/

namespace Playback

open FrameRing

/-! ## Steps of the video loop -/

/-- The frame that a decode loop has in its hands. -/
def Worker.held {α : Type} : Worker α → List α
  | .holding x => [x]
  | .running | .ended => []

/-- A picture that a decoder has given out, and whether its decode loop goes on without it. -/
structure Returned (S : Type) where
  picture : DecodedFrame S DecodedPicture
  dropped : Bool

/-- The pictures that were not dropped, as frames for the ring. -/
def Returned.entering {S : Type} (returned : List (Returned S)) : List (VideoFrame S) :=
  (returned.filter (!·.dropped)).map fun d => Session.pictureFrame d.picture

theorem Returned.entering_append {S : Type} (returned returned' : List (Returned S)) :
    entering (returned ++ returned') = entering returned ++ entering returned' := by
  rw [entering, List.filter_append, List.map_append]
  rfl

/-- What a step of the video loop makes of a flow, with the picture that the decoder gives out. -/
inductive Flow.Works {S σ : Type} (f : Flow S σ DecodedPicture (VideoFrame S)) :
    Option (Returned S) → Option (Flow S σ DecodedPicture (VideoFrame S)) → Prop
  /-- No picture moves. -/
  | rests {f' : Flow S σ DecodedPicture (VideoFrame S)} (hframes : f'.frames = f.frames)
      (hworker : f'.worker = f.worker) (hserial : f'.packets.serial = f.packets.serial) :
      f.Works none (some f')
  | publishes {f' : Flow S σ DecodedPicture (VideoFrame S)} {x : VideoFrame S}
      (hholds : f.worker = .holding x) (hpush : f.frames.push x = .ready f'.frames)
      (hworker : f'.worker = .running) (hserial : f'.packets.serial = f.packets.serial) :
      f.Works none (some f')
  | drops {f' : Flow S σ DecodedPicture (VideoFrame S)} {d : DecodedFrame S DecodedPicture}
      (hframes : f'.frames = f.frames) (hruns : f.worker = .running)
      (hworker : f'.worker = .running) (hserial : f'.packets.serial = f.packets.serial) :
      f.Works (some ⟨d, true⟩) (some f')
  | takes {f' : Flow S σ DecodedPicture (VideoFrame S)} {d : DecodedFrame S DecodedPicture}
      (hframes : f'.frames = f.frames) (hruns : f.worker = .running)
      (hworker : f'.worker = .holding (Session.pictureFrame d))
      (hserial : f'.packets.serial = f.packets.serial) (hcurrent : d.serial = f.packets.serial) :
      f.Works (some ⟨d, false⟩) (some f')
  | ends {f' : Flow S σ DecodedPicture (VideoFrame S)} {d : Option (Returned S)}
      (hframes : f'.frames = f.frames ∨ f'.frames = f.frames.stop) (hworker : f'.worker = .ended)
      (hserial : f'.packets.serial = f.packets.serial) : f.Works d (some f')
  | fails : f.Works none none

theorem Pipeline.works_release {S σ : Type}
    {p : Pipeline S σ DecodedPicture (VideoFrame S)} {x : VideoFrame S}
    (hholds : p.worker = .holding x) : p.flow.Works none (some (p.release x).2.flow) := by
  unfold Pipeline.release
  cases hpush : p.stream.frames.push x with
  | ready frames => exact .publishes hholds hpush rfl rfl
  | aborted => exact .ends (.inl rfl) rfl rfl
  | wait => exact .rests rfl rfl rfl

namespace Session

variable {S : Type} [Scalar S] {host : Host S} {s : Session host} {now : S}

/-- The picture that the decoder gives out in this step of the video loop. The loop drops it if it
asks for another one at once. -/
def returns (s : Session host) (now : S) : Option (Returned S) :=
  s.video.bind fun p =>
    match p.worker with
    | .running =>
      match (p.decoder.next host.video now p.stream.packets s.medium).result with
      | .frame d =>
        some ⟨d, (s.videoStep now).2.video.any fun p => p.worker matches .running⟩
      | _ => none
    | _ => none

/-- What becomes of a picture that the decoder of `f` has given out. -/
theorem works_receivePicture {p : Pipeline S host.VideoCodec DecodedPicture (VideoFrame S)}
    (hvideo : s.video = some p) (hruns : p.worker = .running)
    (d : DecodedFrame S DecodedPicture) (now : S)
    {f : Flow S host.VideoCodec DecodedPicture (VideoFrame S)}
    (hframes : p.stream.frames = f.frames) (hworker : f.worker = .running)
    (hserial : p.stream.packets.serial = f.packets.serial)
    (hcurrent : d.serial = f.packets.serial) :
    let s' := s.receivePicture p d now
    let d' : Returned S := ⟨d, s'.video.any fun p => p.worker matches .running⟩
    ∃ v, s'.flows = { s.flows with video := v } ∧
      s'.displayState =
        { s.displayState with
          earlyDrops := s.displayState.earlyDrops + [d'].countP (·.dropped) } ∧
      f.Works (some d') v := by
  have hflow : s.flows.video = some p.flow := by
    rw [flows, hvideo]
    rfl
  unfold receivePicture
  split
  · have hstays : p.worker matches .running := by rw [hruns]
    refine ⟨some p.flow, by rw [← hflow]; rfl, ?_, ?_⟩
    · simp [hvideo, hstays, displayState, Metrics.recordEarlyDrop]
    · simp only [hvideo, Option.any_some, hstays]
      exact .drops hframes hworker hruns hserial
  · dsimp only
    split
    · exact ⟨_, rfl, rfl, .takes hframes hworker rfl hserial hcurrent⟩
    · exact ⟨_, rfl, rfl, .ends (.inr (congrArg FrameRing.stop hframes)) rfl hserial⟩

theorem works_videoStep (s : Session host) (now : S) :
    ∃ v, (s.videoStep now).2.flows = { s.flows with video := v } ∧
      (s.videoStep now).2.displayState =
        { s.displayState with
          earlyDrops := s.displayState.earlyDrops + (s.returns now).toList.countP (·.dropped) } ∧
      (s.flows.video = none → v = none) ∧
      ∀ f, s.flows.video = some f → f.Works (s.returns now) v := by
  unfold returns videoStep
  cases hvideo : s.video with
  | none =>
    have hclosed : s.flows.video = none := by
      rw [flows, hvideo]
      rfl
    refine ⟨none, by rw [← hclosed], rfl, fun _ => rfl, fun f hf => ?_⟩
    rw [hclosed] at hf
    cases hf
  | some p =>
    have hflow : s.flows.video = some p.flow := by
      rw [flows, hvideo]
      rfl
    rw [hflow]
    obtain ⟨stream, decoder, worker⟩ := p
    cases worker with
    | ended =>
      refine ⟨some (Pipeline.flow ⟨stream, decoder, .ended⟩), ?_, rfl, by simp, fun f hf => ?_⟩
      · rw [← hflow]
      obtain rfl := Option.some.inj hf
      exact .rests rfl rfl rfl
    | holding x =>
      refine ⟨_, rfl, rfl, by simp, fun f hf => ?_⟩
      obtain rfl := Option.some.inj hf
      exact Pipeline.works_release rfl
    | running =>
      dsimp only [Option.bind_some]
      have hran := Decoder.ran_next host.video now decoder stream.packets s.medium
      obtain ⟨front, htakes⟩ := Decoder.takes_next host.video now decoder stream.packets s.medium
      generalize decoder.next host.video now stream.packets s.medium = r at hran htakes ⊢
      have hserial : r.queue.serial = stream.packets.serial := htakes.serial
      cases hresult : r.result with
      | wait | finished =>
        refine ⟨_, rfl, rfl, by simp, fun f hf => ?_⟩
        obtain rfl := Option.some.inj hf
        exact .rests rfl rfl hserial
      | aborted =>
        refine ⟨_, rfl, rfl, by simp, fun f hf => ?_⟩
        obtain rfl := Option.some.inj hf
        exact .ends (.inl rfl) rfl hserial
      | failed cause =>
        refine ⟨_, rfl, rfl, by simp, fun f hf => ?_⟩
        exact .fails
      | frame d =>
        obtain ⟨v, hflows, hdisplay, hworks⟩ := works_receivePicture
          (s := { s.recordCodec .video r.calls with
            video := some
              { stream := { stream with packets := r.queue }, decoder := r.decoder,
                worker := .running }
            medium := r.medium })
          rfl rfl d now (f := Pipeline.flow ⟨stream, decoder, .running⟩) rfl rfl hserial
          (hran.serial_frame hresult)
        refine ⟨v, hflows, hdisplay, by simp, fun f hf => ?_⟩
        obtain rfl := Option.some.inj hf
        exact hworks

end Session

/-! ## A flow with its book -/

/-- The pictures that were given out and taken, seen from the flow of the stream: its ring goes by
the log `l`. -/
structure Flow.Books {S σ : Type} (f : Flow S σ DecodedPicture (VideoFrame S))
    (returned : List (Returned S)) (taken : List (VideoFrame S × Fate))
    (l : FrameLog (VideoFrame S)) : Prop where
  holds : f.frames.Holds l
  keeps : l.keepLast = true
  count : l.taken = taken.length
  taken : taken.map (·.1) = l.published.take l.taken
  entered : f.worker ≠ .ended → Returned.entering returned = l.published ++ f.worker.held
  ordered : (l.published ++ f.worker.held).Pairwise (·.serial ≤ ·.serial)
  current : ∀ x ∈ l.published ++ f.worker.held, x.serial ≤ f.packets.serial

namespace Flow.Books

variable {S σ : Type} {f f' : Flow S σ DecodedPicture (VideoFrame S)}
  {returned : List (Returned S)} {taken t : List (VideoFrame S × Fate)}
  {l : FrameLog (VideoFrame S)}

theorem fresh {capacity : Nat} (hframes : f.frames = FrameRing.new capacity true)
    (hworker : f.worker = .running) : f.Books [] [] (.new capacity true) := by
  have hheld : f.worker.held = [] := by rw [hworker]; rfl
  refine ⟨hframes ▸ holds_new capacity true, rfl, rfl, rfl, fun _ => ?_, ?_, ?_⟩
  all_goals rw [hheld]
  · rfl
  · exact .nil
  · exact nofun

/-- Nothing but the queue has changed, and its epochs go up. -/
theorem of_serial_le (h : f.Books returned taken l) (hframes : f'.frames = f.frames)
    (hworker : f'.worker = f.worker) (hserial : f.packets.serial ≤ f'.packets.serial) :
    f'.Books returned taken l := by
  refine ⟨hframes ▸ h.holds, h.keeps, h.count, h.taken, ?_, ?_, fun x hx => ?_⟩
  · rw [hworker]
    exact h.entered
  · rw [hworker]
    exact h.ordered
  · rw [hworker] at hx
    exact (h.current x hx).trans hserial

theorem abort (h : f.Books returned taken l) :
    Books { f with packets := f.packets.abort, frames := f.frames.stop } returned taken
      { l with stopped := true } :=
  ⟨h.holds.stop, h.keeps, h.count, h.taken, h.entered, h.ordered, h.current⟩

/-- The display takes pictures from the ring. -/
theorem onFrames (h : f.Books returned taken l) (ht : Passed f.packets.serial f.frames t) :
    (f.onFrames advance^[t.length]).Books returned (taken ++ t)
      { l with taken := l.taken + t.length } := by
  obtain ⟨hholds, hwaiting⟩ := ht.holds h.holds
  rw [h.holds.waiting_eq, hholds.waiting_eq] at hwaiting
  refine ⟨hholds, h.keeps, ?_, ?_, h.entered, h.ordered, h.current⟩
  · rw [List.length_append, h.count]
  · have hfront : t.map (·.1) = (l.published.drop l.taken).take t.length := by
      rw [hwaiting, List.take_append_of_le_length (by simp), List.take_of_length_le (by simp)]
    rw [List.map_append, h.taken, hfront, List.take_add]

/-- The loop has left, and has lost what was in its hands. -/
theorem ended (h : f.Books returned taken l) {d : Option (Returned S)}
    (hframes : f'.frames = f.frames ∨ f'.frames = f.frames.stop) (hworker : f'.worker = .ended)
    (hserial : f'.packets.serial = f.packets.serial) :
    ∃ l, f'.Books (returned ++ d.toList) taken l := by
  have hheld : f'.worker.held = [] := by rw [hworker]; rfl
  have hordered : (l.published ++ f'.worker.held).Pairwise (·.serial ≤ ·.serial) := by
    rw [hheld, List.append_nil]
    exact (List.pairwise_append.1 h.ordered).1
  have hcurrent : ∀ x ∈ l.published ++ f'.worker.held, x.serial ≤ f'.packets.serial := by
    rw [hheld, List.append_nil, hserial]
    exact fun x hx => h.current x (List.mem_append_left _ hx)
  have hends : f'.worker ≠ .ended →
      Returned.entering (returned ++ d.toList) = l.published ++ f'.worker.held :=
    fun hnot => absurd hworker hnot
  rcases hframes with hsame | hstopped
  · exact ⟨l, hsame ▸ h.holds, h.keeps, h.count, h.taken, hends, hordered, hcurrent⟩
  · exact ⟨{ l with stopped := true }, hstopped ▸ h.holds.stop, h.keeps, h.count, h.taken, hends,
      hordered, hcurrent⟩

theorem publishes (h : f.Books returned taken l) {x : VideoFrame S} (hholds : f.worker = .holding x)
    (hpush : f.frames.push x = .ready f'.frames) (hworker : f'.worker = .running)
    (hserial : f'.packets.serial = f.packets.serial) :
    f'.Books returned taken { l with published := l.published ++ [x], reserved := false } := by
  have hheld : f.worker.held = [x] := by rw [hholds]; rfl
  have hheld' : f'.worker.held = [] := by rw [hworker]; rfl
  have hentered := h.entered (by simp [hholds])
  have hordered := h.ordered
  have hcurrent := h.current
  rw [hheld] at hentered hordered hcurrent
  refine ⟨h.holds.push hpush, h.keeps, h.count, ?_, fun _ => ?_, ?_, ?_⟩
  · rw [h.taken, List.take_append_of_le_length h.holds.taken_le]
  all_goals rw [hheld', List.append_nil]
  · exact hentered
  · exact hordered
  · rw [hserial]
    exact hcurrent

theorem takes (h : f.Books returned taken l) {d : DecodedFrame S DecodedPicture}
    (hframes : f'.frames = f.frames) (hruns : f.worker = .running)
    (hworker : f'.worker = .holding (Session.pictureFrame d))
    (hserial : f'.packets.serial = f.packets.serial) (hd : d.serial = f.packets.serial) :
    f'.Books (returned ++ [⟨d, false⟩]) taken l := by
  have hheld : f.worker.held = [] := by rw [hruns]; rfl
  have hheld' : f'.worker.held = [Session.pictureFrame d] := by rw [hworker]; rfl
  have hd' : (Session.pictureFrame d).serial = f.packets.serial := hd
  have hentered := h.entered (by simp [hruns])
  have hordered := h.ordered
  have hcurrent := h.current
  rw [hheld, List.append_nil] at hentered hordered hcurrent
  refine ⟨hframes ▸ h.holds, h.keeps, h.count, h.taken, fun _ => ?_, ?_, ?_⟩
  all_goals rw [hheld']
  · rw [Returned.entering_append, hentered]
    rfl
  · refine List.pairwise_append.2 ⟨hordered, List.pairwise_singleton _ _, fun x hx y hy => ?_⟩
    rw [List.mem_singleton.1 hy, hd']
    exact hcurrent x hx
  · intro x hx
    rw [hserial]
    rcases List.mem_append.1 hx with hx | hx
    · exact hcurrent x hx
    · rw [List.mem_singleton.1 hx, hd']

theorem works (h : f.Books returned taken l) {d : Option (Returned S)}
    (hworks : f.Works d (some f')) : ∃ l, f'.Books (returned ++ d.toList) taken l := by
  cases hworks with
  | rests hframes hworker hserial =>
    rw [Option.toList_none, List.append_nil]
    exact ⟨l, h.of_serial_le hframes hworker (Nat.le_of_eq hserial.symm)⟩
  | publishes hholds hpush hworker hserial =>
    rw [Option.toList_none, List.append_nil]
    exact ⟨_, h.publishes hholds hpush hworker hserial⟩
  | @drops _ d hframes hruns hworker hserial =>
    obtain ⟨hholds, hkeeps, hcount, htaken, hentered, hordered, hcurrent⟩ :=
      h.of_serial_le hframes (hworker.trans hruns.symm) (Nat.le_of_eq hserial.symm)
    refine ⟨l, hholds, hkeeps, hcount, htaken, fun hnot => ?_, hordered, hcurrent⟩
    rw [Option.toList_some, Returned.entering_append, ← hentered hnot]
    exact List.append_nil _
  | takes hframes hruns hworker hserial hcurrent =>
    exact ⟨l, h.takes hframes hruns hworker hserial hcurrent⟩
  | ends hframes hworker hserial => exact h.ended hframes hworker hserial

end Flow.Books

end Playback
