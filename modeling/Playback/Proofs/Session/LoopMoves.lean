import Playback.Proofs.Session.Flows

/-!
# Moves of a decode loop

Each step of a decode loop is one of the moves of `Flow.Moves`, for both kinds of stream
(`moves_videoStep`, `moves_audioTurn`). The other stream does not take part.
-/

namespace Playback

/-- The flow after its decoder was asked for a frame, which came to `r`. -/
def Flow.decoded {S M σ F α : Type} (f : Flow S σ F α) (r : Decoder.Run S M σ F) :
    Flow S σ F α :=
  { f with packets := r.queue, decoder := r.decoder }

/-- What one step of a decode loop may make of its flow. `make` turns what the decoder gives out
into a frame for the ring, and `refuses` is what is known when a frame is not let into the ring. -/
inductive Flow.Moves {S M σ F α : Type} [Scalar S] [CodecUnit F] (codec : Codec S M σ F)
    (make : DecodedFrame S F → α) (refuses : Prop) :
    Option (Flow S σ F α) → Option (Flow S σ F α) → Prop
  | closed : Moves codec make refuses none none
  | waits {f : Flow S σ F α} : Moves codec make refuses (some f) (some f)
  | ends {f : Flow S σ F α} (hworker : f.worker ≠ .running) :
      Moves codec make refuses (some f) (some { f with worker := .ended })
  | publishes {f : Flow S σ F α} {x : α} {frames : FrameRing α} (hworker : f.worker = .holding x)
      (hpush : f.frames.push x = .ready frames) :
      Moves codec make refuses (some f) (some { f with frames := frames, worker := .running })
  | decodes {f : Flow S σ F α} {now : S} {m : M} {r : Decoder.Run S M σ F}
      (hr : f.decoder.next codec now f.packets m = r) (hok : ∀ cause, r.result ≠ .failed cause)
      (hworker : f.worker = .running) :
      Moves codec make refuses (some f) (some (f.decoded r))
  | endsAfter {f : Flow S σ F α} {now : S} {m : M} {r : Decoder.Run S M σ F}
      (hr : f.decoder.next codec now f.packets m = r) (hok : ∀ cause, r.result ≠ .failed cause)
      (hwait : r.result ≠ .wait) :
      Moves codec make refuses (some f) (some { f.decoded r with worker := .ended })
  | fails {f : Flow S σ F α} : Moves codec make refuses (some f) none
  | takes {f : Flow S σ F α} {now : S} {m : M} {r : Decoder.Run S M σ F} {d : DecodedFrame S F}
      (hr : f.decoder.next codec now f.packets m = r) (hresult : r.result = .frame d) :
      Moves codec make refuses (some f) (some { f.decoded r with worker := .holding (make d) })
  /-- The presentation refuses a buffer for the frame. -/
  | refused {f : Flow S σ F α} {now : S} {m : M} {r : Decoder.Run S M σ F}
      (hr : f.decoder.next codec now f.packets m = r) (hok : ∀ cause, r.result ≠ .failed cause)
      (hrefuses : refuses) (hwait : r.result ≠ .wait) :
      Moves codec make refuses (some f) (some
        { f.decoded r with
          packets := r.queue.abort
          frames := f.frames.stop
          worker := .ended })
  /-- The frame is left with the decoder. -/
  | leaves {f : Flow S σ F α} {now : S} {m : M} {r : Decoder.Run S M σ F} {d : DecodedFrame S F}
      (hr : f.decoder.next codec now f.packets m = r) (hresult : r.result = .frame d)
      (hworker : f.worker = .running) :
      Moves codec make refuses (some f) (some { f.decoded r with decoder := r.before })

/-- A flow that is left was there before. -/
theorem Flow.Moves.source {S M σ F α : Type} [Scalar S] [CodecUnit F] {codec : Codec S M σ F}
    {make : DecodedFrame S F → α} {refuses : Prop} {v : Option (Flow S σ F α)} {f : Flow S σ F α}
    (h : Moves codec make refuses v (some f)) :
    ∃ f', v = some f' ∧ Moves codec make refuses (some f') (some f) := by
  cases v with
  | none => cases h
  | some f' => exact ⟨f', rfl, h⟩

/-- The presentation of the host may refuse a buffer for a picture. -/
def Host.Refuses {S : Type} (host : Host S) : Prop :=
  ∃ f screen, (host.allocate f screen).1 = false

namespace Session

variable {S : Type} [Scalar S] {host : Host S}

/-- The frame for the ring that is made of a picture, with a buffer. -/
def pictureFrame (d : DecodedFrame S DecodedPicture) : VideoFrame S :=
  { VideoFrame.ofDecoded d with allocated := true }

theorem flow_release {σ F α M : Type} [CodecUnit F] {codec : Codec S M σ F}
    {make : DecodedFrame S F → α} {refuses : Prop} {p : Pipeline S σ F α} {x : α}
    (hworker : p.worker = .holding x) :
    Flow.Moves codec make refuses (some p.flow) (some (p.release x).2.flow) := by
  unfold Pipeline.release
  cases hpush : p.stream.frames.push x with
  | ready frames => exact .publishes (f := p.flow) hworker hpush
  | aborted => exact .ends (f := p.flow) (by simp [Pipeline.flow, hworker])
  | wait => exact .waits

theorem moves_videoStep (s : Session host) (now : S) :
    ∃ v, (s.videoStep now).2.flows = { s.flows with video := v } ∧
      Flow.Moves host.video pictureFrame host.Refuses s.flows.video v := by
  unfold videoStep
  cases hvideo : s.video with
  | none => exact ⟨none, by rw [flows, hvideo]; rfl, by rw [flows, hvideo]; exact .closed⟩
  | some p =>
    have hflow : s.flows.video = some p.flow := by
      rw [flows, hvideo]
      rfl
    rw [hflow]
    obtain ⟨stream, decoder, worker⟩ := p
    cases worker with
    | ended => exact ⟨_, by rw [← hflow], .waits⟩
    | holding x => exact ⟨_, rfl, flow_release rfl⟩
    | running =>
      dsimp only
      generalize hr : decoder.next host.video now stream.packets s.medium = r
      cases hresult : r.result with
      | wait | finished => exact ⟨_, rfl, .decodes hr (by simp [hresult]) rfl⟩
      | aborted => exact ⟨_, rfl, .endsAfter hr (by simp [hresult]) (by simp [hresult])⟩
      | failed cause => exact ⟨_, rfl, .fails⟩
      | frame d =>
        dsimp only
        unfold receivePicture
        split
        · exact ⟨_, rfl, .decodes hr (by simp [hresult]) rfl⟩
        · dsimp only
          split
          · exact ⟨_, rfl, .takes hr hresult⟩
          · rename_i hrefused
            exact ⟨_, rfl, .refused hr (by simp [hresult])
              ⟨_, _, Bool.eq_false_iff.2 hrefused⟩ (by simp [hresult])⟩

theorem moves_audioTurn (take : Bool) (s : Session host) (now : S) :
    ∃ a, (s.audioTurn take now).2.flows = { s.flows with audio := a } ∧
      Flow.Moves host.audio AudioFrame.ofDecoded False s.flows.audio a := by
  unfold audioTurn
  cases haudio : s.audio with
  | none => exact ⟨none, by rw [flows, haudio]; rfl, by rw [flows, haudio]; exact .closed⟩
  | some p =>
    have hflow : s.flows.audio = some p.flow := by
      rw [flows, haudio]
      rfl
    rw [hflow]
    obtain ⟨stream, decoder, worker⟩ := p
    cases worker with
    | ended => exact ⟨_, by rw [← hflow], .waits⟩
    | holding x => exact ⟨_, rfl, flow_release rfl⟩
    | running =>
      dsimp only
      generalize hr : decoder.next host.audio now stream.packets s.medium = r
      cases hresult : r.result with
      | wait | finished => exact ⟨_, rfl, .decodes hr (by simp [hresult]) rfl⟩
      | aborted => exact ⟨_, rfl, .endsAfter hr (by simp [hresult]) (by simp [hresult])⟩
      | failed cause => exact ⟨_, rfl, .fails⟩
      | frame d =>
        dsimp only
        split
        · exact ⟨_, rfl, .takes hr hresult⟩
        · exact ⟨_, rfl, .leaves hr hresult rfl⟩

end Session

end Playback
