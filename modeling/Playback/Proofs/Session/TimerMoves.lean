import Playback.Proofs.Session.ClockMoves

/-!
# What moves the frame timer

The display goes on by three things: whether the session is paused, the clock of the open video
stream, and the frame timer (`Pacing`). Apart from a refresh, only the end of a pause moves the
frame timer, by as long as the video clock has stood still (`Pacing.switched`). All other actions
leave it where it is, whatever they do to the clock (`shifts_perform`).
-/

namespace Playback

/-- What tells the display when to go on. -/
structure Pacing (S : Type) where
  paused : Bool
  /-- The clock of the open video stream. -/
  clock : Option (Clock S)
  timer : S

section

variable {S : Type} [Scalar S]

/-- The session is paused, or goes on. -/
def Pacing.switched (p : Pacing S) (now : S) : Pacing S where
  paused := !p.paused
  clock := p.clock.map (·.setPaused (!p.paused) now)
  timer :=
    match p.paused, p.clock with
    | true, some k => p.timer + (now - k.lastUpdated)
    | _, _ => p.timer

/-- What an action does to the pacing that is no refresh. -/
inductive Pacing.Shifts (now : S) (p : Pacing S) : Pacing S → Prop
  | stays : Shifts now p p
  | switched : Shifts now p (p.switched now)
  /-- The video stream leaves, or another one is opened. -/
  | reopened (clock : Option (Clock S)) (hnew : ∀ k, clock = some k → k = .new now) :
      Shifts now p { p with clock := clock }

end

namespace Session

variable {S : Type} [Scalar S] {host : Host S} {s s' : Session host} {now : S}

/-- The pacing of a session. -/
def pacing (s : Session host) : Pacing S :=
  ⟨s.clocks.paused, s.clocks.video, s.frameTimer⟩

theorem pacing_of_clocks (hclocks : s'.clocks = s.clocks) (htimer : s'.frameTimer = s.frameTimer) :
    s'.pacing = s.pacing := by
  unfold pacing
  rw [hclocks, htimer]

/-! ## The end of a pause -/

theorem pacing_switchPause (s : Session host) (now : S) :
    (s.switchPause now).pacing = s.pacing.switched now := by
  have hclocks := s.clocks_switchPause now
  have htimer : (s.switchPause now).frameTimer = (s.pacing.switched now).timer := by
    unfold switchPause Pacing.switched pacing clocks
    dsimp only
    cases s.paused <;> cases s.videoStream <;> rfl
  unfold pacing
  rw [hclocks, htimer]
  rfl

theorem pacing_step (s : Session host) (now : S) :
    (s.step now).pacing = if s.paused then s.pacing.switched now else s.pacing := by
  unfold step
  split
  · exact s.pacing_switchPause now
  · rfl

/-! ## Requests -/

theorem frameTimer_request {action : Action} (h : action.isRequest = true) :
    (s.perform now action).frameTimer = s.frameTimer := by
  obtain ⟨pending, target, hnoted⟩ := request_eq h s now
  rw [hnoted]

@[simp] theorem frameTimer_start : s.start.frameTimer = s.frameTimer := by
  unfold start
  split <;> rfl

@[simp] theorem frameTimer_takePicture : s.takePicture.2.frameTimer = s.frameTimer := by
  unfold takePicture
  split <;> rfl

/-! ## The reader -/

@[simp] theorem frameTimer_quit (status : QuitStatus) :
    (s.quit status).frameTimer = s.frameTimer := by
  unfold quit
  split <;> rfl

@[simp] theorem frameTimer_failReader (e : SourceFailure) :
    (s.failReader e).frameTimer = s.frameTimer :=
  frameTimer_quit _

theorem frameTimer_forwardPause (lastPaused : Bool) :
    (s.forwardPause lastPaused).frameTimer = s.frameTimer := by
  unfold forwardPause
  split <;> rfl

theorem frameTimer_queueAttachment : s.queueAttachment.frameTimer = s.frameTimer := by
  unfold queueAttachment
  split
  · rfl
  · dsimp only
    split
    · split
      · split <;> rfl
      · rfl
    · rfl

theorem pacing_gate (paused : Bool) : (s.gate paused).2.pacing = s.pacing := by
  refine pacing_of_clocks (clocks_gate paused) ?_
  unfold gate
  dsimp only
  split_ifs
  · exact frameTimer_queueAttachment
  · exact (frameTimer_quit _).trans frameTimer_queueAttachment
  · exact frameTimer_queueAttachment

theorem frameTimer_readPacket : (s.readPacket now).frameTimer = s.frameTimer := by
  have hend (s : Session host) : s.reachEnd.frameTimer = s.frameTimer := by
    unfold reachEnd
    split <;> rfl
  unfold readPacket
  rcases host.container.read now s.medium with ⟨e | p | _, m⟩
  · cases e with
    | endOfFile => exact hend _
    | cannotOpen | cannotRead | cannotSeek | noStreams => exact frameTimer_failReader _
  · dsimp only
    unfold route
    dsimp only
    split_ifs <;> rfl
  · exact hend _

/-- A seek that is performed ends the pause. -/
theorem pacing_enterEpoch (s : Session host) (r : SeekRequest) (now : S) :
    (s.enterEpoch r now).pacing = if s.paused then s.pacing.switched now else s.pacing := by
  have hrestart : ((s.onAudio fun a => { a with packets := a.packets.restart }).onVideo fun v =>
      { v with packets := v.packets.restart }).pacing = s.pacing := by
    refine pacing_of_clocks ?_ rfl
    rw [clocks_onVideo_of_eq, clocks_onAudio_of_eq]
    · exact fun a => rfl
    · exact fun v => rfl
  have hends (s' : Session host) (h : s'.pacing = s.pacing) :
      (if s'.paused then s'.step now else s').pacing =
        if s.paused then s.pacing.switched now else s.pacing := by
    have hpaused : s'.paused = s.paused := congrArg Pacing.paused h
    rw [← h, ← hpaused]
    split
    · rename_i hpaused
      exact (s'.pacing_step now).trans (if_pos hpaused)
    · rfl
  unfold enterEpoch
  exact hends _ hrestart

theorem shifts_performSeek (s : Session host) (r : SeekRequest) (now : S) :
    s.pacing.Shifts now (s.performSeek r now).2.pacing := by
  unfold performSeek
  dsimp only
  rcases host.container.seek r.range (s.record (.seek r.range)).medium with ⟨_ | _, m⟩
  · exact .stays
  · dsimp only
    rw [pacing_enterEpoch]
    split
    · exact .switched
    · exact .stays

theorem shifts_readerTop (s : Session host) (now : S) :
    s.pacing.Shifts now (s.readerTop now).2.pacing := by
  unfold readerTop
  cases s.reader with
  | waiting | ended => exact .stays
  | running lastPaused =>
    have hforward : (s.forwardPause lastPaused).pacing = s.pacing :=
      pacing_of_clocks (clocks_forwardPause lastPaused) (frameTimer_forwardPause lastPaused)
    dsimp only
    split
    · exact .stays
    · split
      · rw [pacing_gate, hforward]
        exact .stays
      · rename_i r _
        have hseek := (s.forwardPause lastPaused).shifts_performSeek r now
        rw [hforward] at hseek
        split
        · rename_i heq
          rw [heq] at hseek
          rw [pacing_of_clocks (clocks_failReader _) (frameTimer_failReader _)]
          exact hseek
        · rename_i heq
          rw [heq] at hseek
          rw [pacing_gate]
          exact hseek

theorem shifts_readerTurn (s : Session host) (now : S) :
    s.pacing.Shifts now (s.readerTurn now).pacing := by
  have htop := s.shifts_readerTop now
  unfold readerTurn
  split
  · rename_i heq
    rw [heq] at htop
    rw [pacing_of_clocks clocks_readPacket frameTimer_readPacket]
    exact htop
  · rename_i heq
    rw [heq] at htop
    exact htop

/-! ## The decode loops -/

theorem frameTimer_videoStep : (s.videoStep now).2.frameTimer = s.frameTimer := by
  unfold videoStep
  split
  · rfl
  · split
    · rfl
    · rfl
    · dsimp only
      split
      · rfl
      · rfl
      · rfl
      · rfl
      · unfold receivePicture
        split
        · rfl
        · dsimp only
          split <;> rfl

theorem frameTimer_audioTurn (take : Bool) :
    (s.audioTurn take now).2.frameTimer = s.frameTimer := by
  unfold audioTurn
  split
  · rfl
  · split
    · rfl
    · rfl
    · dsimp only
      split
      · rfl
      · rfl
      · rfl
      · rfl
      · split <;> rfl

theorem shifts_videoStep (s : Session host) (now : S) :
    s.pacing.Shifts now (s.videoStep now).2.pacing := by
  rcases s.clocks_videoStep now with hsame | hleft
  · rw [pacing_of_clocks hsame frameTimer_videoStep]
    exact .stays
  · have hpacing : (s.videoStep now).2.pacing = { s.pacing with clock := none } := by
      unfold pacing
      rw [hleft, frameTimer_videoStep]
    rw [hpacing]
    exact .reopened none nofun

/-- The audio stream has no part in the pacing. -/
theorem pacing_audioTurn (take : Bool) : (s.audioTurn take now).2.pacing = s.pacing := by
  rcases s.clocks_audioTurn take now with hsame | hleft
  · exact pacing_of_clocks hsame (frameTimer_audioTurn take)
  · unfold pacing
    rw [hleft, frameTimer_audioTurn]

/-! ## Sound -/

theorem keptByFill_frameTimer (now : S) :
    KeptByFill now fun s s' : Session host => s'.frameTimer = s.frameTimer where
  trans h h' := h'.trans h
  device _ _ _ := rfl
  counts _ _ _ _ := rfl
  clock _ _ := rfl
  ring _ _ _ := rfl

theorem frameTimer_fill (count volume : Nat) :
    (s.fill count volume now).2.frameTimer = s.frameTimer :=
  (keptByFill_frameTimer now).fill s count volume

theorem pacing_fill (s : Session host) (count volume : Nat) (now : S) :
    (s.fill count volume now).2.pacing = s.pacing := by
  have hfilled := s.filled_fill count volume now
  have hsame : (s.fill count volume now).2.clocks.paused = s.clocks.paused ∧
      (s.fill count volume now).2.clocks.video = s.clocks.video := by
    generalize (s.fill count volume now).2.clocks = c at hfilled ⊢
    cases hfilled <;> exact ⟨rfl, rfl⟩
  unfold pacing
  rw [hsame.1, hsame.2, frameTimer_fill]

/-! ## Opening and closing -/

theorem frameTimer_closeStream (s : Session host) (kind : MediaKind) :
    (s.closeStream kind).frameTimer = s.frameTimer := by
  unfold closeStream closing
  cases kind <;> (dsimp only; split <;> rfl)

theorem frameTimer_openStream (s : Session host) (p : StreamParams) (now : S) :
    (s.openStream p now).2.frameTimer = s.frameTimer := by
  unfold openStream
  split
  · unfold openVideo
    split <;> rfl
  · unfold openAudio
    dsimp only
    split
    · rfl
    · split <;> rfl

theorem frameTimer_open {uri : String} {options : Options S} {screen : host.Screen}
    (hopen : Session.open host uri options screen now = .ok s) : s.frameTimer = 0.0 := by
  refine of_open hopen (fun source medium _ => ?_) fun s p h => ?_
  · unfold seekStart
    split <;> rfl
  · exact (s.frameTimer_openStream p now).trans h

theorem shifts_cycleStream (s : Session host) (kind : MediaKind) (now : S) :
    s.pacing.Shifts now (s.cycleStream kind now).2.pacing := by
  cases hswitch : s.switches kind with
  | false =>
    rw [cycleStream_of_stays hswitch]
    exact .stays
  | true =>
    have htimer : (s.cycleStream kind now).2.frameTimer = s.frameTimer := by
      obtain ⟨p, -, hcycle⟩ := cycleStream_of_switches hswitch now
      rw [hcycle, frameTimer_openStream, frameTimer_closeStream]
    cases kind with
    | video =>
      obtain ⟨video, hnew, hclocks⟩ := clocks_cycleVideo hswitch now
      have hpacing : (s.cycleStream .video now).2.pacing = { s.pacing with clock := video } := by
        unfold pacing
        rw [hclocks, htimer]
      rw [hpacing]
      exact .reopened video hnew
    | audio =>
      obtain ⟨audio, output, -, hclocks⟩ := clocks_cycleAudio hswitch now
      have hpacing : (s.cycleStream .audio now).2.pacing = s.pacing := by
        unfold pacing
        rw [hclocks, htimer]
      rw [hpacing]
      exact .stays

theorem pacing_close (s : Session host) : s.close.pacing = { s.pacing with clock := none } := by
  obtain ⟨output, hclocks⟩ := s.clocks_close
  have htimer : s.close.frameTimer = s.frameTimer := by
    unfold close
    rw [frameTimer_closeStream, frameTimer_closeStream]
    rfl
  unfold pacing
  rw [hclocks, htimer]

/-! ## Any action but a refresh -/

theorem shifts_perform {action : Action} (hrefresh : action ≠ .refresh) (s : Session host)
    (now : S) : s.pacing.Shifts now (s.perform now action).pacing := by
  have hstays (hclocks : (s.perform now action).clocks = s.clocks)
      (htimer : (s.perform now action).frameTimer = s.frameTimer) :
      s.pacing.Shifts now (s.perform now action).pacing := by
    rw [pacing_of_clocks hclocks htimer]
    exact .stays
  have haudio (take : Bool) : s.pacing.Shifts now (s.audioTurn take now).2.pacing := by
    rw [pacing_audioTurn]
    exact .stays
  cases action with
  | refresh => exact absurd rfl hrefresh
  | start => exact hstays clocks_start frameTimer_start
  | takePicture => exact hstays clocks_takePicture frameTimer_takePicture
  | seek _ | seekChapter _ | nextChunk | previousChunk =>
    exact hstays (clocks_request rfl) (frameTimer_request rfl)
  | abort => exact hstays s.clocks_abort rfl
  | readerTurn => exact s.shifts_readerTurn now
  | videoStep => exact s.shifts_videoStep now
  | cycleStream kind => exact s.shifts_cycleStream kind now
  | audioStep => exact haudio true
  | audioDecode => exact haudio false
  | fill count volume =>
    unfold Session.perform
    rw [pacing_fill]
    exact .stays
  | togglePause =>
    have hpacing : (s.togglePause now).pacing = s.pacing.switched now := s.pacing_switchPause now
    unfold Session.perform
    rw [hpacing]
    exact .switched
  | step =>
    unfold Session.perform
    rw [pacing_step]
    split
    · exact .switched
    · exact .stays
  | close =>
    unfold Session.perform
    rw [pacing_close]
    exact .reopened none nofun

end Session

end Playback
