import Playback.Proofs.Session.Flows

/-!
# What the display keeps

The settings of a session stay as they are from its opening on. Of the rest of its state, the
display goes by three counts of pictures and by a flag for the picture that was accepted and not
fetched yet (`DisplayState`). Reader, audio loop, sound and the user's requests leave all of that
as it is; only the stream of pictures takes the flag with it when it is closed.
-/

namespace Playback

/-- The settings of a session, and what its display keeps. -/
structure DisplayState (S : Type) [Scalar S] where
  options : Options S
  source : SourceInfo S
  /-- A picture was accepted for display and not fetched yet. -/
  pending : Bool
  earlyDrops : Nat
  lateDrops : Nat
  displayed : Nat

namespace Session

variable {S : Type} [Scalar S] {host : Host S} {s : Session host} {now : S}

/-- The display's part of a session. -/
def displayState (s : Session host) : DisplayState S :=
  ⟨s.options, s.source, s.displayPending, s.metrics.earlyDrops, s.metrics.lateDrops,
    s.metrics.displayed⟩

/-! ### The user's requests -/

@[simp] theorem displayState_switchPause : (s.switchPause now).displayState = s.displayState := rfl

@[simp] theorem displayState_step : (s.step now).displayState = s.displayState := by
  unfold step
  split <;> rfl

theorem displayState_request {action : Action} (h : action.isRequest = true) :
    (s.perform now action).displayState = s.displayState := by
  obtain ⟨pending, target, hnoted⟩ := request_eq h s now
  rw [hnoted]
  rfl

@[simp] theorem displayState_start : s.start.displayState = s.displayState := by
  unfold start
  split <;> rfl

/-! ### The reader -/

@[simp] theorem displayState_quit (status : QuitStatus) :
    (s.quit status).displayState = s.displayState := by
  unfold quit
  split <;> rfl

@[simp] theorem displayState_failReader (e : SourceFailure) :
    (s.failReader e).displayState = s.displayState :=
  displayState_quit _

theorem displayState_forwardPause (lastPaused : Bool) :
    (s.forwardPause lastPaused).displayState = s.displayState := by
  unfold forwardPause
  split <;> rfl

theorem displayState_queueAttachment : s.queueAttachment.displayState = s.displayState := by
  unfold queueAttachment
  split
  · rfl
  · dsimp only
    split
    · split
      · split <;> rfl
      · rfl
    · rfl

theorem displayState_performSeek (r : SeekRequest) :
    (s.performSeek r now).2.displayState = s.displayState := by
  unfold performSeek
  dsimp only
  split
  · rfl
  · unfold enterEpoch
    dsimp only
    split
    · exact displayState_step
    · rfl

theorem displayState_gate (paused : Bool) : (s.gate paused).2.displayState = s.displayState := by
  unfold gate
  dsimp only
  split
  · exact displayState_queueAttachment
  · split
    · exact (displayState_quit _).trans displayState_queueAttachment
    · exact displayState_queueAttachment

theorem displayState_readerTop : (s.readerTop now).2.displayState = s.displayState := by
  unfold readerTop
  cases s.reader with
  | waiting => rfl
  | ended => rfl
  | running lastPaused =>
    have hpause : (s.forwardPause lastPaused).displayState = s.displayState :=
      displayState_forwardPause lastPaused
    dsimp only
    split
    · rfl
    · split
      · exact (displayState_gate _).trans hpause
      · rename_i r _
        have hseek : ((s.forwardPause lastPaused).performSeek r now).2.displayState =
            s.displayState :=
          (displayState_performSeek r).trans hpause
        split
        · rename_i heq
          rw [heq] at hseek
          exact (displayState_failReader _).trans hseek
        · rename_i heq
          rw [heq] at hseek
          exact (displayState_gate _).trans hseek

theorem displayState_readPacket : (s.readPacket now).displayState = s.displayState := by
  have hend (s : Session host) : s.reachEnd.displayState = s.displayState := by
    unfold reachEnd
    split <;> rfl
  unfold readPacket
  rcases host.container.read now s.medium with ⟨e | p | _, m⟩
  · cases e with
    | endOfFile => exact hend _
    | cannotOpen | cannotRead | cannotSeek | noStreams => exact displayState_failReader _
  · dsimp only
    unfold route
    dsimp only
    split
    · rfl
    · split <;> rfl
  · exact hend _

theorem displayState_readerTurn : (s.readerTurn now).displayState = s.displayState := by
  have htop : (s.readerTop now).2.displayState = s.displayState := displayState_readerTop
  unfold readerTurn
  split
  · rename_i heq
    rw [heq] at htop
    exact displayState_readPacket.trans htop
  · rename_i heq
    rw [heq] at htop
    exact htop

/-! ### Sound -/

theorem displayState_audioTurn (take : Bool) :
    (s.audioTurn take now).2.displayState = s.displayState := by
  unfold audioTurn
  split
  · rfl
  · split
    · rfl
    · rfl
    · dsimp only
      split
      · rfl
      · rfl
      · rfl
      · rfl
      · split <;> rfl

theorem keptByFill_displayState (now : S) :
    KeptByFill now fun s s' : Session host => s'.displayState = s.displayState where
  trans h h' := h'.trans h
  device _ _ _ := rfl
  counts _ _ _ _ := rfl
  clock _ _ := rfl
  ring _ _ _ := rfl

theorem displayState_fill (count volume : Nat) :
    (s.fill count volume now).2.displayState = s.displayState :=
  (keptByFill_displayState now).fill s count volume

/-! ### Pictures -/

/-- When the picture to display is fetched, or its stream is closed, none is pending any more. -/
theorem displayState_takePicture :
    s.takePicture.2.displayState = { s.displayState with pending := false } := by
  unfold takePicture
  cases hpending : s.displayPending with
  | true => rfl
  | false => simp [displayState, hpending]

theorem displayState_closeStream (s : Session host) (kind : MediaKind) :
    (s.closeStream kind).displayState =
      match kind with
      | .video => { s.displayState with pending := s.video.isNone && s.displayPending }
      | .audio => s.displayState := by
  unfold closeStream closing
  cases kind with
  | audio =>
    dsimp only
    split <;> rfl
  | video =>
    cases hv : s.video <;> simp [displayState]

theorem displayState_openStream (s : Session host) (p : StreamParams) (now : S) :
    (s.openStream p now).2.displayState = s.displayState := by
  unfold openStream
  split
  · unfold openVideo
    split <;> rfl
  · unfold openAudio
    dsimp only
    split
    · rfl
    · split <;> rfl

theorem displayState_cycleAudio (s : Session host) (now : S) :
    (s.cycleStream .audio now).2.displayState = s.displayState := by
  cases hswitch : s.switches .audio with
  | false => rw [cycleStream_of_stays hswitch]
  | true =>
    obtain ⟨p, -, hcycle⟩ := cycleStream_of_switches hswitch now
    rw [hcycle, displayState_openStream, displayState_closeStream]

theorem displayState_cycleVideo {s : Session host} (h : s.switches .video = true) (now : S) :
    (s.cycleStream .video now).2.displayState = { s.displayState with pending := false } := by
  have hopen : s.video.isNone = false := by
    unfold switches nextParams openIndex videoStream at h
    cases hv : s.video with
    | none => simp [hv] at h
    | some p => rfl
  obtain ⟨p, -, hcycle⟩ := cycleStream_of_switches h now
  rw [hcycle, displayState_openStream, displayState_closeStream]
  simp [hopen]

theorem displayState_open {uri : String} {options : Options S} {screen : host.Screen}
    (hopen : Session.open host uri options screen now = .ok s) :
    ∃ source, s.displayState = ⟨options, source, false, 0, 0, 0⟩ := by
  refine of_open hopen (fun source medium _ => ⟨source, ?_⟩) fun s p h => ?_
  · unfold seekStart
    split <;> rfl
  · obtain ⟨source, hstate⟩ := h
    exact ⟨source, (s.displayState_openStream p now).trans hstate⟩

theorem displayState_close (s : Session host) :
    ∃ pending, s.close.displayState = { s.displayState with pending := pending } := by
  have habort : s.shutDown.displayState = s.displayState :=
    rfl
  unfold close
  rw [displayState_closeStream, displayState_closeStream, habort]
  exact ⟨_, rfl⟩

end Session

end Playback
