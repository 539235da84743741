import Playback.Proofs.Session.ReaderState

/-!
# What happens to the clocks

`Session.clocks` is what a session knows about time: whether it is paused, the clocks of its streams
and its own one, and what the audio device's side remembers. This file says what the user, the
reader, the decode loops and the opening of streams do to it.

* Pausing and resuming concerns all clocks at once (`Clocks.switched`). A turn of the reader leaves
  the clocks alone unless it performs a seek (`clocks_readerTurn`).
* A decode loop leaves them alone, unless its stream leaves (`clocks_videoStep`,
  `clocks_audioTurn`). The clock of a stream that is opened was never set (`opened_open`,
  `clocks_cycleVideo`, `clocks_cycleAudio`).
* So there are few ways in which an action changes the clocks that is none of the reader and
  presents nothing (`handled_perform`).
-/

namespace Playback

/-- What a session knows about time. -/
structure Clocks (S : Type) where
  paused : Bool
  /-- The clock of the open video stream. -/
  video : Option (Clock S)
  /-- The clock of the open audio stream. -/
  audio : Option (Clock S)
  external : Clock S
  output : Option (AudioOutput S)

/-- All clocks are paused, or go on. -/
def Clocks.switched {S : Type} [Scalar S] (c : Clocks S) (now : S) : Clocks S :=
  { c with
    paused := !c.paused
    video := c.video.map (·.setPaused (!c.paused) now)
    audio := c.audio.map (·.setPaused (!c.paused) now)
    external := c.external.setPaused (!c.paused) now }

/-- The clocks after a seek: the session's own one is set, and if they were paused they go on. -/
def Clocks.sought {S : Type} [Scalar S] (c : Clocks S) (external : Clock S) (now : S) : Clocks S :=
  let c := { c with external := external }
  if c.paused then c.switched now else c

/-- The session's own clock after the seek `r`. -/
def SeekRequest.reached {S : Type} [Scalar S] (r : SeekRequest) (k : Clock S) (now : S) : Clock S :=
  if r.byBytes then k.clearAt 0 now else k.setAt (Scalar.ofInt r.target / 1000000.0) 0 now

/-- What a turn of the reader does to the clocks; `seeks` tells whether it performs a seek. -/
inductive Clocks.Turned {S : Type} [Scalar S] (now : S) (c : Clocks S) : Bool → Clocks S → Prop
  | stays : Turned now c false c
  | sought (external : Clock S) : Turned now c true (c.sought external now)

/-- What an action does to the clocks that is none of the reader and presents nothing. -/
inductive Clocks.Handled {S : Type} [Scalar S] (now : S) (c : Clocks S) : Clocks S → Prop
  | stays : Handled now c c
  | switched : Handled now c (c.switched now)
  /-- The video stream leaves, or another one is opened. -/
  | video (video : Option (Clock S)) (hnew : ∀ k, video = some k → k = .new now) :
      Handled now c { c with video := video }
  /-- The audio stream leaves, or another one is opened. -/
  | audio (audio : Option (Clock S)) (output : Option (AudioOutput S))
      (hnew : ∀ k, audio = some k → k = .new now) :
      Handled now c { c with audio := audio, output := output }
  | closed (output : Option (AudioOutput S)) :
      Handled now c { c with video := none, audio := none, output := output }

/-- The clocks of streams that were just opened. -/
structure Clocks.Opened {S : Type} [Scalar S] (c : Clocks S) : Prop where
  paused : c.paused = false
  video : ∀ k, c.video = some k → ∃ opened, k = .new opened
  audio : ∀ k, c.audio = some k →
    (∃ opened, k = .new opened) ∧ ∃ spec, c.output = some (.new spec)

theorem Stream.clock_queuePacket {S α : Type} (v : Stream S α) (p : Packet) :
    (v.queuePacket p).clock = v.clock := by
  unfold Stream.queuePacket
  split <;> rfl

theorem Pipeline.clock_release {S σ F α : Type} (p : Pipeline S σ F α) (x : α) :
    (p.release x).2.stream.clock = p.stream.clock := by
  unfold Pipeline.release
  split <;> rfl

namespace Session

variable {S : Type} [Scalar S] {host : Host S} {s s' : Session host} {now : S}

def clocks (s : Session host) : Clocks S :=
  ⟨s.paused, s.videoStream.map (·.clock), s.audioStream.map (·.clock), s.externalClock, s.output⟩

/-! ## Pausing -/

theorem clocks_onVideo {f : Stream S (VideoFrame S) → Stream S (VideoFrame S)}
    {g : Clock S → Clock S} (hf : ∀ v, (f v).clock = g v.clock) :
    (s.onVideo f).clocks = { s.clocks with video := s.clocks.video.map g } := by
  unfold clocks onVideo videoStream audioStream
  cases s.video with
  | none => rfl
  | some p => simp [hf]

theorem clocks_onAudio {f : Stream S (AudioFrame S) → Stream S (AudioFrame S)}
    {g : Clock S → Clock S} (hf : ∀ a, (f a).clock = g a.clock) :
    (s.onAudio f).clocks = { s.clocks with audio := s.clocks.audio.map g } := by
  unfold clocks onAudio videoStream audioStream
  cases s.audio with
  | none => rfl
  | some p => simp [hf]

theorem clocks_onVideo_of_eq {f : Stream S (VideoFrame S) → Stream S (VideoFrame S)}
    (hf : ∀ v, (f v).clock = v.clock) : (s.onVideo f).clocks = s.clocks := by
  rw [clocks_onVideo (g := id) hf, Option.map_id]
  rfl

theorem clocks_onAudio_of_eq {f : Stream S (AudioFrame S) → Stream S (AudioFrame S)}
    (hf : ∀ a, (f a).clock = a.clock) : (s.onAudio f).clocks = s.clocks := by
  rw [clocks_onAudio (g := id) hf, Option.map_id]
  rfl

theorem clocks_switchPause (s : Session host) (now : S) :
    (s.switchPause now).clocks = s.clocks.switched now := by
  unfold clocks switchPause onVideo onAudio videoStream audioStream
  cases s.video <;> cases s.audio <;> rfl

theorem clocks_togglePause (s : Session host) (now : S) :
    (s.togglePause now).clocks = s.clocks.switched now :=
  s.clocks_switchPause now

theorem clocks_step (s : Session host) (now : S) :
    (s.step now).clocks = if s.paused then s.clocks.switched now else s.clocks := by
  unfold step
  split
  · exact s.clocks_switchPause now
  · rfl

/-! ## Requests -/

theorem clocks_request {action : Action} (h : action.isRequest = true) :
    (s.perform now action).clocks = s.clocks := by
  obtain ⟨pending, target, hnoted⟩ := request_eq h s now
  rw [hnoted]
  rfl

@[simp] theorem clocks_start : s.start.clocks = s.clocks := by
  unfold start
  split <;> rfl

@[simp] theorem clocks_takePicture : s.takePicture.2.clocks = s.clocks := by
  unfold takePicture
  split <;> rfl

/-! ## The reader -/

@[simp] theorem clocks_quit (status : QuitStatus) : (s.quit status).clocks = s.clocks := by
  unfold quit
  split <;> rfl

@[simp] theorem clocks_failReader (e : SourceFailure) : (s.failReader e).clocks = s.clocks :=
  clocks_quit _

theorem clocks_forwardPause (lastPaused : Bool) :
    (s.forwardPause lastPaused).clocks = s.clocks := by
  unfold forwardPause
  split <;> rfl

theorem clocks_queueAttachment : s.queueAttachment.clocks = s.clocks := by
  unfold queueAttachment
  split
  · rfl
  · dsimp only
    split
    · split
      · split
        · rename_i p _
          exact clocks_onVideo_of_eq fun v => v.clock_queuePacket p
        · rfl
      · rfl
    · rfl

theorem clocks_gate (paused : Bool) : (s.gate paused).2.clocks = s.clocks := by
  have hattach := clocks_queueAttachment (s := s)
  unfold gate
  dsimp only
  split_ifs
  · exact hattach
  · exact (clocks_quit _).trans hattach
  · exact hattach

theorem clocks_enterEpoch (s : Session host) (r : SeekRequest) (now : S) :
    (s.enterEpoch r now).clocks = s.clocks.sought (r.reached s.externalClock now) now := by
  have hrestart : ((s.onAudio fun a => { a with packets := a.packets.restart }).onVideo fun v =>
      { v with packets := v.packets.restart }).clocks = s.clocks := by
    rw [clocks_onVideo_of_eq, clocks_onAudio_of_eq]
    · exact fun a => rfl
    · exact fun v => rfl
  unfold enterEpoch
  dsimp only
  generalize hset : (if r.byBytes = true then _ else _ : Clock S) = external
  have hreached : r.reached s.externalClock now = external := hset
  unfold Clocks.sought
  rw [hreached, ← hrestart]
  dsimp only
  split_ifs with hpaused hpaused' hpaused'
  · exact (clocks_step _ now).trans (if_pos hpaused)
  · exact absurd hpaused hpaused'
  · exact absurd hpaused' hpaused
  · rfl

theorem clocks_performSeek (s : Session host) (r : SeekRequest) (now : S) :
    s.clocks.Turned now (s.performSeek r now).1.isOk (s.performSeek r now).2.clocks := by
  unfold performSeek
  dsimp only
  rcases host.container.seek r.range (s.record (.seek r.range)).medium with ⟨_ | _, m⟩
  · exact .stays
  · dsimp only
    rw [clocks_enterEpoch]
    exact .sought _

theorem clocks_readerTop (s : Session host) (now : S) :
    s.clocks.Turned now (s.seekSucceeds now) (s.readerTop now).2.clocks := by
  unfold readerTop seekSucceeds
  cases s.reader with
  | waiting => exact .stays
  | ended => exact .stays
  | running lastPaused =>
    dsimp only
    have hpending : (s.forwardPause lastPaused).seekPending = s.seekPending := by
      unfold forwardPause
      split <;> rfl
    by_cases haborted : s.aborted = true
    · rw [if_pos haborted, haborted]
      cases s.seekPending with
      | none => exact .stays
      | some r => exact .stays
    · rw [if_neg haborted, hpending]
      cases s.seekPending with
      | none =>
        dsimp only
        rw [clocks_gate, clocks_forwardPause]
        exact .stays
      | some r =>
        have hseek := (s.forwardPause lastPaused).clocks_performSeek r now
        rw [clocks_forwardPause] at hseek
        rcases hresult : (s.forwardPause lastPaused).performSeek r now with ⟨e | u, s'⟩
        · rw [hresult] at hseek
          simp only [haborted, hresult]
          rw [clocks_failReader]
          exact hseek
        · rw [hresult] at hseek
          simp only [haborted, hresult]
          rw [clocks_gate]
          exact hseek

theorem clocks_route (p : Packet) : (s.route p).clocks = s.clocks := by
  unfold route
  dsimp only
  split_ifs
  · exact clocks_onAudio_of_eq fun a => a.clock_queuePacket p
  · exact clocks_onVideo_of_eq fun v => v.clock_queuePacket p
  · rfl

theorem clocks_reachEnd : s.reachEnd.clocks = s.clocks := by
  have hends : ((s.onVideo (·.queueEntry .endOfStream)).onAudio
      (·.queueEntry .endOfStream)).clocks = s.clocks := by
    rw [clocks_onAudio_of_eq, clocks_onVideo_of_eq]
    · exact fun v => rfl
    · exact fun a => rfl
  unfold reachEnd
  split_ifs
  · rfl
  · exact hends

theorem clocks_readPacket : (s.readPacket now).clocks = s.clocks := by
  unfold readPacket
  rcases host.container.read now s.medium with ⟨e | p | _, m⟩
  · cases e with
    | endOfFile => exact clocks_reachEnd
    | cannotOpen | cannotRead | cannotSeek | noStreams => exact clocks_failReader _
  · exact clocks_route p
  · exact clocks_reachEnd

theorem clocks_readerTurn (s : Session host) (now : S) :
    s.clocks.Turned now (s.seekSucceeds now) (s.readerTurn now).clocks := by
  have htop := s.clocks_readerTop now
  unfold readerTurn
  split
  · rename_i s' heq
    rw [heq] at htop
    rw [clocks_readPacket]
    exact htop
  · rename_i s' _ heq
    rw [heq] at htop
    exact htop

/-! ## The decode loops -/

theorem clocks_receivePicture {p : Pipeline S host.VideoCodec DecodedPicture (VideoFrame S)}
    (hvideo : s.video = some p) (d : DecodedFrame S DecodedPicture) :
    (s.receivePicture p d now).clocks = s.clocks := by
  unfold receivePicture
  split
  · rfl
  · dsimp only
    split <;> (unfold clocks videoStream; rw [hvideo]; rfl)

/-- A step of the video loop changes no clock, but the stream may leave. -/
theorem clocks_videoStep (s : Session host) (now : S) :
    (s.videoStep now).2.clocks = s.clocks ∨
      (s.videoStep now).2.clocks = { s.clocks with video := none } := by
  unfold videoStep
  cases hvideo : s.video with
  | none => exact .inl rfl
  | some p =>
    obtain ⟨stream, decoder, worker⟩ := p
    cases worker with
    | ended => exact .inl rfl
    | holding x =>
      refine .inl ?_
      unfold clocks videoStream
      dsimp only
      rw [hvideo, Option.map_some, Option.map_some, Pipeline.clock_release]
      rfl
    | running =>
      dsimp only
      generalize decoder.next host.video now stream.packets s.medium = r
      cases r.result with
      | wait | finished | aborted =>
        refine .inl ?_
        unfold clocks videoStream
        rw [hvideo]
        rfl
      | failed cause => exact .inr rfl
      | frame d =>
        refine .inl ((clocks_receivePicture rfl d).trans ?_)
        unfold clocks videoStream
        rw [hvideo]
        rfl

/-- A step of the audio loop changes no clock, but the stream may leave. -/
theorem clocks_audioTurn (take : Bool) (s : Session host) (now : S) :
    (s.audioTurn take now).2.clocks = s.clocks ∨
      (s.audioTurn take now).2.clocks = { s.clocks with audio := none } := by
  unfold audioTurn
  cases haudio : s.audio with
  | none => exact .inl rfl
  | some p =>
    obtain ⟨stream, decoder, worker⟩ := p
    cases worker with
    | ended => exact .inl rfl
    | holding x =>
      refine .inl ?_
      unfold clocks audioStream
      dsimp only
      rw [haudio, Option.map_some, Option.map_some, Pipeline.clock_release]
      rfl
    | running =>
      dsimp only
      generalize decoder.next host.audio now stream.packets s.medium = r
      cases r.result with
      | wait | finished | aborted =>
        refine .inl ?_
        unfold clocks audioStream
        rw [haudio]
        rfl
      | failed cause => exact .inr rfl
      | frame d =>
        refine .inl ?_
        unfold clocks audioStream
        dsimp only
        split <;> (rw [haudio]; rfl)

/-! ## Opening and closing -/

theorem clocks_abort (s : Session host) : s.abort.clocks = s.clocks := by
  unfold abort
  rw [clocks_onAudio_of_eq, clocks_onVideo_of_eq]
  · rfl
  · exact fun v => rfl
  · exact fun a => rfl

theorem clocks_closeVideo (s : Session host) :
    (s.closeStream .video).clocks = { s.clocks with video := none } := by
  unfold closeStream closing clocks videoStream
  cases hv : s.video with
  | none => simp [hv]
  | some p => rfl

theorem clocks_closeAudio (s : Session host) :
    ∃ output, (s.closeStream .audio).clocks =
      { s.clocks with audio := none, output := output } := by
  unfold closeStream closing clocks audioStream
  cases ha : s.audio with
  | none => exact ⟨s.output, by simp [ha]⟩
  | some p => exact ⟨none, rfl⟩

theorem clocks_close (s : Session host) :
    ∃ output,
      s.close.clocks = { s.clocks with video := none, audio := none, output := output } := by
  obtain ⟨output, haudio⟩ := s.shutDown.clocks_closeAudio
  have habort : s.shutDown.clocks = s.clocks :=
    s.clocks_abort
  rw [habort] at haudio
  refine ⟨output, ?_⟩
  unfold close
  rw [clocks_closeVideo, haudio]

theorem clocks_openVideo (s : Session host) (p : StreamParams) (now : S) :
    (s.openVideo p now).2.clocks = s.clocks ∨
      (s.openVideo p now).2.clocks = { s.clocks with video := some (.new now) } := by
  unfold openVideo
  cases host.openVideo p with
  | error e => exact .inl rfl
  | ok c => exact .inr rfl

theorem clocks_openAudio (s : Session host) (p : StreamParams) (now : S) :
    (s.openAudio p now).2.clocks = s.clocks ∨
      ∃ spec, (s.openAudio p now).2.clocks =
        { s.clocks with audio := some (.new now), output := some (.new spec) } := by
  unfold openAudio
  dsimp only
  split
  · exact .inl rfl
  · rename_i spec _
    cases host.openAudio p with
    | error e => exact .inl rfl
    | ok c => exact .inr ⟨spec, rfl⟩

theorem clocks_cycleVideo (h : s.switches .video = true) (now : S) :
    ∃ video, (∀ k, video = some k → k = .new now) ∧
      (s.cycleStream .video now).2.clocks = { s.clocks with video := video } := by
  obtain ⟨p, hkind, hcycle⟩ := cycleStream_of_switches h now
  rw [hcycle, openStream, hkind]
  have hopen := (s.closeStream .video).clocks_openVideo p now
  rw [clocks_closeVideo] at hopen
  rcases hopen with hsame | hnew
  · refine ⟨none, fun k hk => ?_, hsame⟩
    cases hk
  · exact ⟨some (.new now), fun k hk => (Option.some.inj hk).symm, hnew⟩

theorem clocks_cycleAudio (h : s.switches .audio = true) (now : S) :
    ∃ audio output, (∀ k, audio = some k → k = .new now ∧ ∃ spec, output = some (.new spec)) ∧
      (s.cycleStream .audio now).2.clocks =
        { s.clocks with audio := audio, output := output } := by
  obtain ⟨p, hkind, hcycle⟩ := cycleStream_of_switches h now
  obtain ⟨output, hclose⟩ := s.clocks_closeAudio
  rw [hcycle, openStream, hkind]
  have hopen := (s.closeStream .audio).clocks_openAudio p now
  rw [hclose] at hopen
  rcases hopen with hsame | ⟨spec, hnew⟩
  · refine ⟨none, output, fun k hk => ?_, hsame⟩
    cases hk
  · exact ⟨some (.new now), some (.new spec),
      fun k hk => ⟨(Option.some.inj hk).symm, spec, rfl⟩, hnew⟩

theorem opened_openStream (h : s.clocks.Opened) (p : StreamParams) (now : S) :
    (s.openStream p now).2.clocks.Opened := by
  unfold openStream
  cases p.kind with
  | video =>
    rcases s.clocks_openVideo p now with hsame | hnew
    · exact hsame ▸ h
    · refine ⟨?_, fun k hk => ?_, ?_⟩
      all_goals rw [hnew] at *
      · exact h.paused
      · exact ⟨now, (Option.some.inj hk).symm⟩
      · exact h.audio
  | audio =>
    rcases s.clocks_openAudio p now with hsame | ⟨spec, hnew⟩
    · exact hsame ▸ h
    · refine ⟨?_, ?_, fun k hk => ?_⟩
      all_goals rw [hnew] at *
      · exact h.paused
      · exact h.video
      · exact ⟨⟨now, (Option.some.inj hk).symm⟩, spec, rfl⟩

theorem opened_open {uri : String} {options : Options S} {screen : host.Screen}
    (hopen : Session.open host uri options screen now = .ok s) : s.clocks.Opened := by
  refine of_open hopen (fun source medium _ => ?_) fun s p h => opened_openStream h p now
  unfold seekStart
  split <;> exact ⟨rfl, nofun, nofun⟩

/-! ## Any other action -/

/-- The action lets the session present something. -/
def Action.presents : Action → Bool
  | .refresh | .fill _ _ => true
  | _ => false

theorem handled_audioTurn (s : Session host) (take : Bool) (now : S) :
    s.clocks.Handled now (s.audioTurn take now).2.clocks := by
  rcases s.clocks_audioTurn take now with hstays | hleft
  · rw [hstays]
    exact .stays
  · rw [hleft]
    exact .audio none _ nofun

theorem handled_cycleStream (s : Session host) (kind : MediaKind) (now : S) :
    s.clocks.Handled now (s.cycleStream kind now).2.clocks := by
  cases hswitch : s.switches kind with
  | false =>
    rw [cycleStream_of_stays hswitch now]
    exact .stays
  | true =>
    cases kind with
    | video =>
      obtain ⟨video, hnew, hclocks⟩ := clocks_cycleVideo hswitch now
      rw [hclocks]
      exact .video video hnew
    | audio =>
      obtain ⟨audio, output, hnew, hclocks⟩ := clocks_cycleAudio hswitch now
      rw [hclocks]
      exact .audio audio output fun k hk => (hnew k hk).1

theorem handled_perform {action : Action} (hreader : action ≠ .readerTurn)
    (hpresents : action.presents = false) (now : S) :
    s.clocks.Handled now (s.perform now action).clocks := by
  have hstays {s' : Session host} (hclocks : s'.clocks = s.clocks) :
      s.clocks.Handled now s'.clocks := by
    rw [hclocks]
    exact .stays
  cases action with
  | readerTurn => exact absurd rfl hreader
  | refresh | fill _ _ => cases hpresents
  | start => exact hstays clocks_start
  | takePicture => exact hstays clocks_takePicture
  | seek _ | seekChapter _ | nextChunk | previousChunk => exact hstays (clocks_request rfl)
  | abort => exact hstays s.clocks_abort
  | togglePause =>
    unfold Session.perform
    rw [clocks_togglePause]
    exact .switched
  | step =>
    unfold Session.perform
    rw [clocks_step]
    split
    · exact .switched
    · exact .stays
  | videoStep =>
    unfold Session.perform
    rcases s.clocks_videoStep now with hsteps | hleft
    · exact hstays hsteps
    · rw [hleft]
      exact .video none nofun
  | audioStep => exact s.handled_audioTurn true now
  | audioDecode => exact s.handled_audioTurn false now
  | cycleStream kind => exact s.handled_cycleStream kind now
  | close =>
    obtain ⟨output, hclocks⟩ := s.clocks_close
    unfold Session.perform
    rw [hclocks]
    exact .closed output

end Session

end Playback
