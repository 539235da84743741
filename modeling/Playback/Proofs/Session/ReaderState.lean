import Playback.Proofs.Session.Downstream

/-!
# What the reader goes by

What the reader keeps from turn to turn is its `ReaderState`: whether it has left its loop, whether
the end of the source was read, whether a single picture is to be queued, and whether the end of
playback was reported. Decoding, display, sound and the user's requests leave all of that as it is.
A stream that is opened may only make its picture due.
-/

namespace Playback

/-- What the reader keeps from turn to turn. -/
structure ReaderState where
  reader : Reader
  atEnd : Bool
  attachmentDue : Bool
  quitSent : Bool

namespace Session

variable {S : Type} [Scalar S] {host : Host S} {s : Session host} {now : S}

/-- The reader's part of a session. -/
def readerState (s : Session host) : ReaderState :=
  ⟨s.reader, s.atEnd, s.attachmentDue, s.quitSent⟩

@[simp] theorem readerState_switchPause : (s.switchPause now).readerState = s.readerState := rfl

@[simp] theorem readerState_step : (s.step now).readerState = s.readerState := by
  unfold step
  split <;> rfl

theorem readerState_request {action : Action} (h : action.isRequest = true) :
    (s.perform now action).readerState = s.readerState := by
  obtain ⟨pending, target, hnoted⟩ := request_eq h s now
  rw [hnoted]
  rfl

@[simp] theorem readerState_takePicture : s.takePicture.2.readerState = s.readerState := by
  unfold takePicture
  split <;> rfl

/-! ### Decoding, display and sound -/

theorem readerState_videoStep : (s.videoStep now).2.readerState = s.readerState := by
  unfold videoStep
  split
  · rfl
  · split
    · rfl
    · rfl
    · dsimp only
      split
      · rfl
      · rfl
      · rfl
      · rfl
      · unfold receivePicture
        split
        · rfl
        · dsimp only
          split <;> rfl

theorem readerState_audioTurn (take : Bool) :
    (s.audioTurn take now).2.readerState = s.readerState := by
  unfold audioTurn
  split
  · rfl
  · split
    · rfl
    · rfl
    · dsimp only
      split
      · rfl
      · rfl
      · rfl
      · rfl
      · split <;> rfl

theorem keptByRefresh_readerState (now : S) :
    KeptByRefresh now fun s s' : Session host => s'.readerState = s.readerState where
  trans h h' := h'.trans h
  display _ _ _ _ _ _ := rfl
  clock _ _ := rfl
  ring _ := rfl
  pause _ := readerState_switchPause

theorem readerState_refresh : (s.refresh now).2.readerState = s.readerState :=
  (keptByRefresh_readerState now).refresh s

theorem keptByFill_readerState (now : S) :
    KeptByFill now fun s s' : Session host => s'.readerState = s.readerState where
  trans h h' := h'.trans h
  device _ _ _ := rfl
  counts _ _ _ _ := rfl
  clock _ _ := rfl
  ring _ _ _ := rfl

theorem readerState_fill (count volume : Nat) :
    (s.fill count volume now).2.readerState = s.readerState :=
  (keptByFill_readerState now).fill s count volume

/-- Of all this, only the start of the reader concerns it. -/
theorem readerState_perform {action : Action} (h : action.isDownstream = true)
    (hstart : action ≠ .start) (now : S) : (s.perform now action).readerState = s.readerState := by
  cases action with
  | readerTurn | cycleStream | abort | close => cases h
  | start => exact absurd rfl hstart
  | takePicture => exact readerState_takePicture
  | togglePause => rfl
  | step => exact readerState_step
  | seek _ | seekChapter _ | nextChunk | previousChunk => exact readerState_request rfl
  | videoStep => exact readerState_videoStep
  | audioStep => exact readerState_audioTurn true
  | audioDecode => exact readerState_audioTurn false
  | refresh => exact readerState_refresh
  | fill count volume => exact readerState_fill count volume

/-! ### Opening and closing -/

theorem readerState_closeStream (s : Session host) (kind : MediaKind) :
    (s.closeStream kind).readerState = s.readerState := by
  unfold closeStream closing
  cases kind with
  | video | audio =>
    dsimp only
    split <;> rfl

theorem readerState_openAudio (s : Session host) (p : StreamParams) (now : S) :
    (s.openAudio p now).2.readerState = s.readerState := by
  unfold openAudio
  dsimp only
  split
  · rfl
  · split <;> rfl

theorem readerState_openVideo (s : Session host) (p : StreamParams) (now : S) :
    ∃ due, (s.openVideo p now).2.readerState = { s.readerState with attachmentDue := due } := by
  unfold openVideo
  split
  · exact ⟨s.attachmentDue, rfl⟩
  · exact ⟨true, rfl⟩

theorem readerState_openStream (s : Session host) (p : StreamParams) (now : S) :
    ∃ due, (s.openStream p now).2.readerState = { s.readerState with attachmentDue := due } := by
  unfold openStream
  split
  · exact s.readerState_openVideo p now
  · exact ⟨s.attachmentDue, s.readerState_openAudio p now⟩

theorem readerState_cycleAudio (h : s.switches .audio = true) (now : S) :
    (s.cycleStream .audio now).2.readerState = s.readerState := by
  obtain ⟨p, hkind, hcycle⟩ := cycleStream_of_switches h now
  rw [hcycle, openStream, hkind]
  exact (readerState_openAudio _ p now).trans (s.readerState_closeStream .audio)

theorem readerState_cycleVideo (h : s.switches .video = true) (now : S) :
    ∃ due, (s.cycleStream .video now).2.readerState =
      { s.readerState with attachmentDue := due } := by
  obtain ⟨p, hkind, hcycle⟩ := cycleStream_of_switches h now
  obtain ⟨due, hopen⟩ := (s.closeStream .video).readerState_openStream p now
  rw [readerState_closeStream] at hopen
  exact ⟨due, hcycle ▸ hopen⟩

/-- When a session was opened, its reader waits, and nothing has ended. -/
theorem readerState_open {uri : String} {options : Options S} {screen : host.Screen}
    (hopen : Session.open host uri options screen now = .ok s) :
    ∃ due, s.readerState = ⟨.waiting, false, due, false⟩ := by
  refine of_open hopen (fun source medium _ => ⟨false, ?_⟩) fun s p h => ?_
  · unfold seekStart
    split <;> rfl
  · obtain ⟨due, hstate⟩ := h
    obtain ⟨due', hopened⟩ := s.readerState_openStream p now
    rw [hstate] at hopened
    exact ⟨due', hopened⟩

end Session

end Playback
