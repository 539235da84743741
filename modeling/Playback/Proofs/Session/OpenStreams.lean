import Playback.Proofs.Decoding.Steps
import Playback.Proofs.Session.ReaderState

/-!
# Open streams at two moments

What is done to a stream while it is open. A queue that was aborted is never started again, and what
is put into it leaves no trace (`Stream.Later`); a decode loop ends for good, and only when the
queue or the ring of its stream is shut down (`Pipeline.Later`).

Almost every action keeps the streams that are open in this sense (`Session.Keeps`). A step of a
decode loop does too, unless it hands its stream over because the codec has failed
(`Session.Looped`). Streams are opened and closed one by one: what is done to the slot of a kind
leaves the other one as it is.
-/

namespace Playback

/-! ## A stream at two moments -/

/-- A stream at a later moment, whatever was done to it meanwhile: what is shut down stays so, and
takes nothing. -/
structure Stream.Later {S α : Type} (v v' : Stream S α) : Prop where
  params : v'.params = v.params
  shut : v.packets.aborted = v.frames.stopped → v'.packets.aborted = v'.frames.stopped
  aborted : v.packets.aborted = true → v'.packets.aborted = true
  stopped : v.frames.stopped = true → v'.frames.stopped = true
  serial : v.packets.aborted = true → v'.packets.serial = v.packets.serial
  received : v.packets.aborted = true → v'.received = v.received
  entries : v.packets.aborted = true →
    v'.packets.entries = v.packets.entries ∨ v'.packets.entries = []

namespace Stream.Later

variable {S α : Type} {v v' v'' : Stream S α}

theorem refl (v : Stream S α) : v.Later v :=
  ⟨rfl, id, id, id, fun _ => rfl, fun _ => rfl, fun _ => .inl rfl⟩

theorem trans (h : v.Later v') (h' : v'.Later v'') : v.Later v'' where
  params := h'.params.trans h.params
  shut hshut := h'.shut (h.shut hshut)
  aborted habort := h'.aborted (h.aborted habort)
  stopped hstop := h'.stopped (h.stopped hstop)
  serial habort := (h'.serial (h.aborted habort)).trans (h.serial habort)
  received habort := (h'.received (h.aborted habort)).trans (h.received habort)
  entries habort := by
    rcases h'.entries (h.aborted habort) with hsame | hnone
    · rw [hsame]
      exact h.entries habort
    · exact .inr hnone

/-- Only the clock or the frames are concerned, and the ring is not stopped. -/
theorem of_packets (hparams : v'.params = v.params) (hpackets : v'.packets = v.packets)
    (hstopped : v'.frames.stopped = v.frames.stopped) (hreceived : v'.received = v.received) :
    v.Later v' where
  params := hparams
  shut hshut := by rw [hpackets, hstopped, hshut]
  aborted habort := by rw [hpackets, habort]
  stopped hstop := hstopped.trans hstop
  serial _ := by rw [hpackets]
  received _ := hreceived
  entries _ := .inl (by rw [hpackets])

theorem clock (v : Stream S α) (c : Clock S) : v.Later { v with clock := c } :=
  of_packets rfl rfl rfl rfl

theorem frames (v : Stream S α) {g : FrameRing α → FrameRing α} (hg : FrameRing.Advances g) :
    v.Later { v with frames := g v.frames } :=
  of_packets rfl rfl (hg.stopped v.frames) rfl

theorem queueEntry (v : Stream S α) (e : Entry) : v.Later (v.queueEntry e) where
  params := rfl
  shut hshut := (v.packets.aborted_put e).trans hshut
  aborted habort := (v.packets.aborted_put e).trans habort
  stopped := id
  serial habort := congrArg PacketQueue.serial (PacketQueue.put_of_aborted habort e)
  received _ := rfl
  entries habort := .inl (congrArg PacketQueue.entries (PacketQueue.put_of_aborted habort e))

theorem queuePacket (v : Stream S α) (p : Packet) : v.Later (v.queuePacket p) := by
  unfold Stream.queuePacket PacketQueue.put?
  cases haborted : v.packets.aborted with
  | true => exact refl v
  | false =>
    have hnot : v.packets.aborted ≠ true := by simp [haborted]
    exact ⟨rfl, id, id, id, fun h => absurd h hnot, fun h => absurd h hnot,
      fun h => absurd h hnot⟩

theorem restart (v : Stream S α) : v.Later { v with packets := v.packets.restart } where
  params := rfl
  shut hshut := v.packets.aborted_restart.trans hshut
  aborted habort := v.packets.aborted_restart.trans habort
  stopped := id
  serial habort := by rw [PacketQueue.restart_of_aborted habort]; rfl
  received _ := rfl
  entries habort := .inr (by rw [PacketQueue.restart_of_aborted habort]; rfl)

/-- A decoder takes nothing from an aborted queue. -/
theorem taken (v : Stream S α) {M σ F : Type} {calls : List CodecCall}
    {front : List QueuedEntry} {r : Decoder.Run S M σ F}
    (h : Decoder.Takes v.packets calls front r)
    (hnone : v.packets.aborted = true → r.queue = v.packets) :
    v.Later { v with packets := r.queue } where
  params := rfl
  shut hshut := h.aborted.trans hshut
  aborted habort := h.aborted.trans habort
  stopped := id
  serial _ := h.serial
  received _ := rfl
  entries habort := .inl (congrArg PacketQueue.entries (hnone habort))

theorem abort (v : Stream S α) : v.Later v.abort :=
  ⟨rfl, fun _ => rfl, fun _ => rfl, fun _ => rfl, fun _ => rfl, fun _ => rfl, fun _ => .inl rfl⟩

theorem fail (v : Stream S α) : v.Later v.fail :=
  ⟨rfl, fun _ => rfl, fun _ => rfl, fun _ => rfl, fun _ => rfl, fun _ => rfl, fun _ => .inl rfl⟩

theorem close (v : Stream S α) : v.Later v.close :=
  ⟨rfl, fun _ => rfl, fun _ => rfl, fun _ => rfl, fun _ => rfl, fun _ => rfl, fun _ => .inr rfl⟩

end Stream.Later

namespace Pipeline

variable {S σ F α : Type} {p p' p'' : Pipeline S σ F α}

/-- The queue of a stream and its ring are shut down together, and they are if the decode loop has
ended. -/
structure Sound (p : Pipeline S σ F α) : Prop where
  shut : p.stream.packets.aborted = p.stream.frames.stopped
  ended : p.worker = .ended → p.stream.packets.aborted = true

/-- An open stream at a later moment. A decode loop ends only when queue or ring is shut down. -/
structure Later (p p' : Pipeline S σ F α) : Prop where
  stream : p.stream.Later p'.stream
  ended : p.worker = .ended → p'.worker = .ended
  ends : p'.worker = .ended → p.worker = .ended ∨ p'.stream.packets.aborted = true ∨
    p'.stream.frames.stopped = true

theorem Later.refl (p : Pipeline S σ F α) : p.Later p :=
  ⟨.refl _, id, .inl⟩

theorem Later.trans (h : p.Later p') (h' : p'.Later p'') : p.Later p'' where
  stream := h.stream.trans h'.stream
  ended hended := h'.ended (h.ended hended)
  ends hended := by
    rcases h'.ends hended with hended' | hshut
    · rcases h.ends hended' with hended'' | habort | hstop
      · exact .inl hended''
      · exact .inr (.inl (h'.stream.aborted habort))
      · exact .inr (.inr (h'.stream.stopped hstop))
    · exact .inr hshut

theorem Later.sound (h : p.Later p') (hp : p.Sound) : p'.Sound where
  shut := h.stream.shut hp.shut
  ended hended := by
    rcases h.ends hended with hended' | habort | hstop
    · exact h.stream.aborted (hp.ended hended')
    · exact habort
    · exact (h.stream.shut hp.shut).trans hstop

theorem Later.of_stream {f : Stream S α → Stream S α} (hf : ∀ v : Stream S α, v.Later (f v))
    (p : Pipeline S σ F α) : p.Later { p with stream := f p.stream } :=
  ⟨hf p.stream, id, .inl⟩

theorem sound_fresh (params : StreamParams) (kind : MediaKind) (codec : σ) (fallback : S)
    (ringSize : Nat) (keepLast : Bool) (now : S) [Scalar S] :
    (Session.freshPipeline params kind codec fallback ringSize keepLast now :
      Pipeline S σ F α).Sound :=
  ⟨rfl, nofun⟩

/-- The slot of a kind of stream at two moments between which no stream was opened or closed. -/
theorem rel_refl (v : Option (Pipeline S σ F α)) : Option.Rel Later v v := by
  cases v with
  | none => exact .none
  | some p => exact .some (.refl p)

theorem rel_trans {v v' v'' : Option (Pipeline S σ F α)} (h : Option.Rel Later v v')
    (h' : Option.Rel Later v' v'') : Option.Rel Later v v'' := by
  cases h with
  | none => exact h'
  | some h =>
    cases h' with
    | some h' => exact .some (h.trans h')

theorem later_release {x : α} (hworker : p.worker = .holding x) : p.Later (p.release x).2 := by
  unfold release
  cases hpush : p.stream.frames.push x with
  | ready frames =>
    have hstopped : frames.stopped = p.stream.frames.stopped := by
      unfold FrameRing.push at hpush
      cases hreserve : p.stream.frames.reserve with
      | ready i =>
        rw [hreserve, Reply.map, Reply.ready.injEq] at hpush
        rw [← hpush]
        rfl
      | aborted | wait => simp [hreserve, Reply.map] at hpush
    refine ⟨.of_packets rfl rfl hstopped rfl, by simp [hworker], fun h => ?_⟩
    cases h
  | aborted =>
    have hstopped : p.stream.frames.stopped = true := by
      unfold FrameRing.push FrameRing.reserve at hpush
      split_ifs at hpush with hstopped
      · exact hstopped
      · cases hpush
      · cases hpush
    exact ⟨.refl _, fun _ => rfl, fun _ => .inr (.inr hstopped)⟩
  | wait => exact .refl p

theorem later_fail (p : Pipeline S σ F α) : p.Later p.fail :=
  ⟨.fail _, fun _ => rfl, fun _ => .inr (.inl rfl)⟩

theorem later_close (p : Pipeline S σ F α) : p.Later p.close :=
  ⟨.close _, fun _ => rfl, fun _ => .inr (.inl rfl)⟩

end Pipeline

/-! ## What one action does to the open streams -/

namespace Session

variable {S : Type} [Scalar S] {host : Host S} {s s' s'' : Session host} {now : S}

/-- The same streams are open at a later moment. -/
structure Keeps (s s' : Session host) : Prop where
  video : Option.Rel Pipeline.Later s.video s'.video
  audio : Option.Rel Pipeline.Later s.audio s'.audio

theorem Keeps.slot (h : s.Keeps s') (kind : MediaKind) :
    Option.Rel Pipeline.Later (s.slot kind) (s'.slot kind) := by
  cases kind with
  | video => exact h.video
  | audio => exact h.audio

theorem Keeps.trans (h : s.Keeps s') (h' : s'.Keeps s'') : s.Keeps s'' :=
  ⟨Pipeline.rel_trans h.video h'.video, Pipeline.rel_trans h.audio h'.audio⟩

theorem Keeps.of_eq (hvideo : s'.video = s.video) (haudio : s'.audio = s.audio) : s.Keeps s' :=
  ⟨hvideo ▸ Pipeline.rel_refl _, haudio ▸ Pipeline.rel_refl _⟩

theorem keeps_onVideo {f : Stream S (VideoFrame S) → Stream S (VideoFrame S)}
    (hf : ∀ v : Stream S (VideoFrame S), v.Later (f v)) (s : Session host) :
    s.Keeps (s.onVideo f) := by
  refine ⟨?_, Pipeline.rel_refl _⟩
  unfold onVideo
  cases s.video with
  | none => exact .none
  | some p => exact .some (.of_stream hf p)

theorem keeps_onAudio {f : Stream S (AudioFrame S) → Stream S (AudioFrame S)}
    (hf : ∀ a : Stream S (AudioFrame S), a.Later (f a)) (s : Session host) :
    s.Keeps (s.onAudio f) := by
  refine ⟨Pipeline.rel_refl _, ?_⟩
  unfold onAudio
  cases s.audio with
  | none => exact .none
  | some p => exact .some (.of_stream hf p)

theorem keeps_quit (status : QuitStatus) : s.Keeps (s.quit status) := by
  unfold quit
  split <;> exact .of_eq rfl rfl

/-! ### The user -/

theorem keeps_switchPause (s : Session host) (now : S) : s.Keeps (s.switchPause now) := by
  have hclock {α : Type} (v : Stream S α) :
      v.Later { v with clock := v.clock.setPaused (!s.paused) now } := .clock v _
  have hboth := (keeps_onVideo hclock s).trans (keeps_onAudio hclock _)
  exact hboth.trans (.of_eq rfl rfl)

theorem keeps_step (s : Session host) (now : S) : s.Keeps (s.step now) := by
  unfold step
  dsimp only
  split
  · exact (s.keeps_switchPause now).trans (.of_eq rfl rfl)
  · exact .of_eq rfl rfl

theorem keeps_request {action : Action} (h : action.isRequest = true) (s : Session host) (now : S) :
    s.Keeps (s.perform now action) := by
  obtain ⟨pending, target, hnoted⟩ := request_eq h s now
  rw [hnoted]
  exact .of_eq rfl rfl

theorem keeps_abort (s : Session host) : s.Keeps s.abort := by
  have hflag : s.Keeps { s with aborted := true } := .of_eq rfl rfl
  exact (hflag.trans (keeps_onVideo .abort _)).trans (keeps_onAudio .abort _)

theorem keeps_shutDown (s : Session host) : s.Keeps s.shutDown :=
  s.keeps_abort.trans (.of_eq rfl rfl)

/-! ### The reader -/

theorem keeps_forwardPause (lastPaused : Bool) : s.Keeps (s.forwardPause lastPaused) := by
  unfold forwardPause
  split <;> exact .of_eq rfl rfl

theorem keeps_enterEpoch (r : SeekRequest) (now : S) : s.Keeps (s.enterEpoch r now) := by
  have hrestart := (keeps_onAudio .restart s).trans (keeps_onVideo .restart _)
  unfold enterEpoch
  dsimp only
  split
  · refine (hrestart.trans ?_).trans (keeps_step _ now)
    exact .of_eq rfl rfl
  · exact hrestart.trans (.of_eq rfl rfl)

theorem keeps_performSeek (r : SeekRequest) (now : S) : s.Keeps (s.performSeek r now).2 := by
  unfold performSeek
  dsimp only
  split
  · exact .of_eq rfl rfl
  · rename_i m _
    have hmoved : s.Keeps { s.record (.seek r.range) with medium := m } := .of_eq rfl rfl
    exact hmoved.trans (keeps_enterEpoch r now)

theorem keeps_queueAttachment (s : Session host) : s.Keeps s.queueAttachment := by
  have hqueue (p : Packet) (s : Session host) :
      s.Keeps (s.onVideo fun v => (v.queuePacket p).queueEntry .endOfStream) :=
    keeps_onVideo (fun v => (Stream.Later.queuePacket v p).trans (.queueEntry _ _)) s
  unfold queueAttachment
  split
  · exact .of_eq rfl rfl
  · dsimp only
    split
    · split
      · split
        · refine Keeps.trans ?_ (hqueue _ _)
          exact .of_eq rfl rfl
        · exact .of_eq rfl rfl
      · exact .of_eq rfl rfl
    · exact .of_eq rfl rfl

theorem keeps_gate (paused : Bool) : s.Keeps (s.gate paused).2 := by
  have hattach := s.keeps_queueAttachment
  unfold gate
  dsimp only
  split_ifs
  · exact hattach
  · exact (hattach.trans (keeps_quit _)).trans (.of_eq rfl rfl)
  · exact hattach

theorem keeps_failReader (e : SourceFailure) : s.Keeps (s.failReader e) :=
  (keeps_quit _).trans (.of_eq rfl rfl)

theorem keeps_readerTop (s : Session host) (now : S) : s.Keeps (s.readerTop now).2 := by
  unfold readerTop
  split
  · exact .of_eq rfl rfl
  · exact .of_eq rfl rfl
  · rename_i lastPaused _
    split
    · exact .of_eq rfl rfl
    · have hpause : s.Keeps (s.forwardPause lastPaused) := keeps_forwardPause lastPaused
      dsimp only
      split
      · exact hpause.trans (keeps_gate _)
      · rename_i r _
        have hseek := hpause.trans (keeps_performSeek r now)
        split
        · rename_i s' heq
          rw [heq] at hseek
          refine (hseek.trans ?_).trans (keeps_failReader _)
          exact .of_eq rfl rfl
        · rename_i s' heq
          rw [heq] at hseek
          refine (hseek.trans ?_).trans (keeps_gate _)
          exact .of_eq rfl rfl

theorem keeps_route (p : Packet) : s.Keeps (s.route p) := by
  have hpos : s.Keeps { s with lastPacketPos := p.pos.getD s.lastPacketPos } := .of_eq rfl rfl
  unfold route
  dsimp only
  split
  · exact hpos.trans (keeps_onAudio (fun a => .queuePacket a p) _)
  · split
    · exact hpos.trans (keeps_onVideo (fun v => .queuePacket v p) _)
    · exact hpos

theorem keeps_reachEnd (s : Session host) : s.Keeps s.reachEnd := by
  unfold reachEnd
  split
  · exact .of_eq rfl rfl
  · refine ((keeps_onVideo (fun v => .queueEntry v .endOfStream) s).trans
      (keeps_onAudio (fun a => .queueEntry a .endOfStream) _)).trans ?_
    exact .of_eq rfl rfl

theorem keeps_readPacket (s : Session host) (now : S) : s.Keeps (s.readPacket now) := by
  unfold readPacket
  dsimp only
  have hread (m : host.Medium) : s.Keeps { s.record .read with medium := m } := .of_eq rfl rfl
  split
  · refine Keeps.trans ?_ (keeps_route _)
    exact .of_eq rfl rfl
  · exact (hread _).trans (keeps_reachEnd _)
  · exact (hread _).trans (keeps_reachEnd _)
  · exact (hread _).trans (keeps_failReader _)

theorem keeps_readerTurn (s : Session host) (now : S) : s.Keeps (s.readerTurn now) := by
  have htop := s.keeps_readerTop now
  unfold readerTurn
  split
  · rename_i s' heq
    rw [heq] at htop
    exact htop.trans (s'.keeps_readPacket now)
  · rename_i s' _ heq
    rw [heq] at htop
    exact htop

/-! ### The display -/

theorem keptByRefresh_keeps (now : S) :
    KeptByRefresh now (Keeps : Session host → Session host → Prop) where
  trans h h' := h.trans h'
  display _ _ _ _ _ _ := .of_eq rfl rfl
  clock s k := keeps_onVideo (fun v => .clock v (k v)) s
  ring := keeps_onVideo fun v => .frames v (FrameRing.advances_iterate 1)
  pause s := s.keeps_switchPause now

theorem keeps_refresh (s : Session host) (now : S) : s.Keeps (s.refresh now).2 :=
  (keptByRefresh_keeps now).refresh s

/-! ### The audio device -/

theorem keptByFill_keeps (now : S) :
    KeptByFill now (Keeps : Session host → Session host → Prop) where
  trans h h' := h.trans h'
  device _ _ _ := .of_eq rfl rfl
  counts _ _ _ _ := .of_eq rfl rfl
  clock s k := keeps_onAudio (fun a => .clock a (k a)) s
  ring s p n := keeps_onAudio (fun a => .frames a (FrameRing.advances_takeFirst p n)) s

theorem keeps_fill (s : Session host) (count volume : Nat) (now : S) :
    s.Keeps (s.fill count volume now).2 :=
  (keptByFill_keeps now).fill s count volume

end Session

/-! ### The decode loops -/

section Decoding

variable {S M σ F α : Type} [Scalar S] [CodecUnit F] {codec : Codec S M σ F} {now : S}

/-- Nothing is taken from an aborted queue. -/
theorem Decoder.Ran.queue_of_aborted {b : DecoderBench S M σ F} {r : Run S M σ F}
    (hran : Ran codec now b r) (haborted : b.queue.aborted = true) : r.queue = b.queue := by
  have hnone {q : PacketQueue} {e : QueuedEntry} {q' : PacketQueue} (haborted : q.aborted = true) :
      q.take ≠ .ready (e, q') := by
    rw [PacketQueue.take_eq_aborted_iff.2 haborted]
    exact nofun
  cases hran with
  | emits | aborts | waits => rfl
  | skips _ htake | flushes _ htake | fails _ htake | feeds _ htake =>
    exact absurd htake (hnone haborted)

theorem Decoder.Ran.aborted_of_result {b : DecoderBench S M σ F} {r : Run S M σ F}
    (hran : Ran codec now b r) (hresult : r.result = .aborted) : r.queue.aborted = true := by
  induction hran with
  | emits hemit =>
    obtain ⟨-, ⟨f, rest, t, -, hframe, -⟩ | ⟨-, -, hfinished, -⟩⟩ := emit?_eq_some hemit
    · exact absurd (hframe.symm.trans hresult) nofun
    · exact absurd (hfinished.symm.trans hresult) nofun
  | aborts _ _ hqueue => exact hqueue
  | waits | fails => cases hresult
  | skips _ _ _ _ ih | flushes _ _ _ _ _ ih | feeds _ _ _ _ _ _ ih => exact ih hresult

namespace Pipeline

variable {p : Pipeline S σ F α}

/-- The decoder was asked for a frame, and the loop goes on with it or ends with the queue. -/
theorem later_decoded (codec : Codec S M σ F) (now : S) (hworker : p.worker = .running) (m : M)
    (d : Decoder S σ F) (w : Worker α)
    (hw : w = .ended → (p.decoder.next codec now p.stream.packets m).result = .aborted) :
    p.Later
      { stream := { p.stream with
          packets := (p.decoder.next codec now p.stream.packets m).queue }
        decoder := d
        worker := w } := by
  have hran := Decoder.ran_next codec now p.decoder p.stream.packets m
  obtain ⟨front, htakes⟩ := hran.takes
  exact ⟨.taken p.stream htakes hran.queue_of_aborted, by simp [hworker],
    fun hended => .inr (.inl (hran.aborted_of_result (hw hended)))⟩

end Pipeline

end Decoding

namespace Session

variable {S : Type} [Scalar S] {host : Host S} {s s' : Session host} {now : S}

/-- The pipeline of a kind leaves, and the other one stays as it is. -/
def Leaves (s : Session host) (kind : MediaKind) (left : Option (host.PipelineOf kind))
    (s' : Session host) : Prop :=
  (∃ p p', s.slot kind = some p ∧ left = some p' ∧ p.Later p') ∧ s'.slot kind = none ∧
    ∀ other ≠ kind, s'.slot other = s.slot other

theorem others_of_audio (h : s'.audio = s.audio) : ∀ other ≠ .video, s'.slot other = s.slot other
  | .video, hother => absurd rfl hother
  | .audio, _ => h

theorem others_of_video (h : s'.video = s.video) : ∀ other ≠ .audio, s'.slot other = s.slot other
  | .video, _ => h
  | .audio, hother => absurd rfl hother

/-- A pipeline goes on in its slot, and the other one stays as it is. -/
theorem Keeps.of_slot {kind : MediaKind} {p p' : host.PipelineOf kind}
    (hslot : s.slot kind = some p) (hlater : p.Later p') (hslot' : s'.slot kind = some p')
    (hothers : ∀ other ≠ kind, s'.slot other = s.slot other) : s.Keeps s' := by
  have hslots (other : MediaKind) :
      Option.Rel Pipeline.Later (s.slot other) (s'.slot other) := by
    by_cases hown : other = kind
    · subst hown
      rw [hslot, hslot']
      exact .some hlater
    · rw [hothers other hown]
      exact Pipeline.rel_refl _
  exact ⟨hslots .video, hslots .audio⟩

/-- What a step of the decode loop of a kind does to the open streams, where `left` is the pipeline
that it hands over: it keeps them, or its own stream leaves because of its codec. -/
def Looped (s : Session host) (kind : MediaKind) (left : Option (host.PipelineOf kind))
    (s' : Session host) : Prop :=
  left = none ∧ s.Keeps s' ∨ s.Leaves kind left s'

theorem looped_videoStep (s : Session host) (now : S) :
    s.Looped .video (s.videoStep now).1.departed (s.videoStep now).2 := by
  unfold videoStep
  cases hvideo : s.video with
  | none => exact .inl ⟨rfl, .of_eq rfl rfl⟩
  | some p =>
    have hslot : s.slot .video = some p := hvideo
    cases hworker : p.worker with
    | ended =>
      simp only [hworker]
      exact .inl ⟨rfl, .of_eq rfl rfl⟩
    | holding x =>
      simp only [hworker]
      exact .inl ⟨rfl, .of_slot hslot (Pipeline.later_release hworker) rfl (others_of_audio rfl)⟩
    | running =>
      have hdecoded := Pipeline.later_decoded host.video now hworker s.medium
      simp only [hworker]
      cases hresult : (p.decoder.next host.video now p.stream.packets s.medium).result with
      | wait | finished =>
        exact .inl ⟨rfl, .of_slot hslot (hdecoded _ .running nofun) rfl (others_of_audio rfl)⟩
      | aborted =>
        have hended := hdecoded (p.decoder.next host.video now p.stream.packets s.medium).decoder
          .ended fun _ => hresult
        exact .inl ⟨rfl, .of_slot hslot hended rfl (others_of_audio rfl)⟩
      | failed cause =>
        have hlater := (hdecoded p.decoder .running nofun).trans (Pipeline.later_fail _)
        exact .inr ⟨⟨p, _, hvideo, rfl, ⟨hlater.stream, fun _ => rfl, hlater.ends⟩⟩, rfl,
          others_of_audio rfl⟩
      | frame d =>
        refine .inl ⟨rfl, ?_⟩
        dsimp only
        unfold receivePicture
        split
        · exact .of_slot hslot (hdecoded _ .running nofun) rfl (others_of_audio rfl)
        · dsimp only
          split
          · exact .of_slot hslot (hdecoded _ (.holding _) nofun) rfl (others_of_audio rfl)
          · refine .of_slot hslot ?_ rfl (others_of_audio rfl)
            have hstream := (hdecoded p.decoder .running nofun).stream
            exact ⟨hstream.trans (.abort _), fun _ => rfl, fun _ => .inr (.inl rfl)⟩

theorem looped_audioTurn (take : Bool) (s : Session host) (now : S) :
    s.Looped .audio (s.audioTurn take now).1.departed (s.audioTurn take now).2 := by
  unfold audioTurn
  cases haudio : s.audio with
  | none => exact .inl ⟨rfl, .of_eq rfl rfl⟩
  | some p =>
    have hslot : s.slot .audio = some p := haudio
    cases hworker : p.worker with
    | ended =>
      simp only [hworker]
      exact .inl ⟨rfl, .of_eq rfl rfl⟩
    | holding x =>
      simp only [hworker]
      exact .inl ⟨rfl, .of_slot hslot (Pipeline.later_release hworker) rfl (others_of_video rfl)⟩
    | running =>
      have hdecoded := Pipeline.later_decoded host.audio now hworker s.medium
      simp only [hworker]
      cases hresult : (p.decoder.next host.audio now p.stream.packets s.medium).result with
      | wait | finished =>
        exact .inl ⟨rfl, .of_slot hslot (hdecoded _ .running nofun) rfl (others_of_video rfl)⟩
      | aborted =>
        have hended := hdecoded (p.decoder.next host.audio now p.stream.packets s.medium).decoder
          .ended fun _ => hresult
        exact .inl ⟨rfl, .of_slot hslot hended rfl (others_of_video rfl)⟩
      | failed cause =>
        have hlater := (hdecoded p.decoder .running nofun).trans (Pipeline.later_fail _)
        exact .inr ⟨⟨p, _, haudio, rfl, ⟨hlater.stream, fun _ => rfl, hlater.ends⟩⟩, rfl,
          others_of_video rfl⟩
      | frame d =>
        dsimp only
        split
        · exact .inl ⟨rfl, .of_slot hslot (hdecoded _ (.holding _) nofun) rfl (others_of_video rfl)⟩
        · exact .inl ⟨rfl, .of_slot hslot (hdecoded _ .running nofun) rfl (others_of_video rfl)⟩

/-! ### Opening and closing -/

variable {kind : MediaKind} {p : StreamParams}

theorem openIndex_eq (s : Session host) (kind : MediaKind) :
    s.openIndex kind = (s.slot kind).map (·.stream.params.index) := by
  cases kind <;> exact Option.map_map ..

/-- A session switches from an open stream. -/
theorem exists_of_switches (h : s.switches kind = true) : ∃ p, s.slot kind = some p := by
  unfold switches nextParams at h
  rw [openIndex_eq] at h
  cases hslot : s.slot kind with
  | none => simp [hslot] at h
  | some p => exact ⟨p, rfl⟩

/-- A stream is closed, and the other one stays as it is. -/
theorem slot_closeStream (s : Session host) (kind : MediaKind) :
    (s.closeStream kind).slot kind = none ∧
      ∀ other ≠ kind, (s.closeStream kind).slot other = s.slot other := by
  unfold closeStream closing
  cases kind with
  | video =>
    cases hvideo : s.video with
    | none => exact ⟨hvideo, others_of_audio rfl⟩
    | some p => exact ⟨rfl, others_of_audio rfl⟩
  | audio =>
    cases haudio : s.audio with
    | none => exact ⟨haudio, others_of_video rfl⟩
    | some p => exact ⟨rfl, others_of_video rfl⟩

/-- What is handed over when a stream is closed. -/
theorem closing_eq (s : Session host) (kind : MediaKind) :
    (s.closing kind).1 = (s.slot kind).map (·.close) := by
  cases kind with
  | video =>
    unfold closing slot
    cases s.video <;> rfl
  | audio =>
    unfold closing slot
    cases s.audio <;> rfl

/-- A stream is opened, or not, and the other one stays as it is. -/
theorem slot_openStream (s : Session host) (hkind : p.kind = kind) (now : S) :
    ((s.openStream p now).2.slot kind = s.slot kind ∨
        ∃ q : host.PipelineOf kind, q.Sound ∧ (s.openStream p now).2.slot kind = some q) ∧
      ∀ other ≠ kind, (s.openStream p now).2.slot other = s.slot other := by
  subst hkind
  unfold openStream
  cases p.kind with
  | video =>
    unfold openVideo
    cases host.openVideo p with
    | error e => exact ⟨.inl rfl, others_of_audio rfl⟩
    | ok codec => exact ⟨.inr ⟨_, Pipeline.sound_fresh .., rfl⟩, others_of_audio rfl⟩
  | audio =>
    unfold openAudio
    dsimp only
    split
    · exact ⟨.inl rfl, others_of_video rfl⟩
    · cases host.openAudio p with
      | error e => exact ⟨.inl rfl, others_of_video rfl⟩
      | ok codec => exact ⟨.inr ⟨_, Pipeline.sound_fresh .., rfl⟩, others_of_video rfl⟩

/-- A switch leaves the other kind alone, and a stream that it opens works. -/
theorem slot_cycleStream (h : s.switches kind = true) (now : S) :
    (∀ q, (s.cycleStream kind now).2.slot kind = some q → q.Sound) ∧
      ∀ other ≠ kind, (s.cycleStream kind now).2.slot other = s.slot other := by
  obtain ⟨p, hkind, hcycle⟩ := cycleStream_of_switches h now
  obtain ⟨hclosed, hothers⟩ := s.slot_closeStream kind
  obtain ⟨hopened, hothers'⟩ := (s.closeStream kind).slot_openStream hkind now
  rw [hcycle]
  refine ⟨fun q hq => ?_, fun other hother => (hothers' other hother).trans (hothers other hother)⟩
  rcases hopened with hsame | ⟨q', hq', hnew⟩
  · cases hq.symm.trans (hsame.trans hclosed)
  · exact Option.some.inj (hnew.symm.trans hq) ▸ hq'

theorem slot_close (s : Session host) (kind : MediaKind) : s.close.slot kind = none := by
  obtain ⟨haudio, -⟩ := s.shutDown.slot_closeStream .audio
  obtain ⟨hvideo, hother⟩ := (s.shutDown.closeStream .audio).slot_closeStream .video
  cases kind with
  | video => exact hvideo
  | audio => exact (hother .audio nofun).trans haudio

end Session

end Playback
