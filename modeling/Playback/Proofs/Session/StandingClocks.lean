import Playback.Proofs.Session.ClockMoves

/-!
# Clocks in a pause

While a session is paused, all its clocks stand still: each one is paused itself, or it was never
set (`Clocks.Still`). This holds throughout every run (`settled_run`), also of a stream that is
opened during the pause: its clock runs, but nobody sets it before the pause ends.

What the workers do in a pause leaves the clocks as they are, unless the reader performs a seek
(`frozen_perform`), which ends the pause (`seek_ends_pause`).
-/

namespace Playback

/-! ## Clocks that stand still -/

section

variable {S : Type}

/-- The clock stands still: it is paused, or it was never set. -/
def Clock.Stands (k : Clock S) : Prop :=
  k.paused = true ∨ k.base = none

namespace Clocks

/-- All clocks stand still. -/
structure Still (c : Clocks S) : Prop where
  external : c.external.paused = true
  video : ∀ k, c.video = some k → k.Stands
  audio : ∀ k, c.audio = some k → k.Stands

/-- In a paused session all clocks stand still. -/
def Settled (c : Clocks S) : Prop :=
  c.paused = true → c.Still

/-- The clocks at a later moment of a pause. -/
structure Frozen (c c' : Clocks S) : Prop where
  paused : c'.paused = c.paused
  external : c'.external = c.external
  video : ∀ k, c'.video = some k → c.video = some k
  audio : ∀ k, c'.audio = some k → c.audio = some k

variable {c c' c'' : Clocks S}

theorem Settled.of_running (hrun : c.paused = false) : c.Settled :=
  fun hpaused => absurd (hrun.symm.trans hpaused) Bool.false_ne_true

/-- Another video stream is open, or none. -/
theorem Settled.withVideo (h : c.Settled) {video : Option (Clock S)}
    (hvideo : ∀ k, video = some k → k.Stands) : ({ c with video := video } : Clocks S).Settled :=
  fun hpaused => ⟨(h hpaused).external, hvideo, (h hpaused).audio⟩

/-- Another audio stream is open, or none. -/
theorem Settled.withAudio (h : c.Settled) {audio : Option (Clock S)}
    {output : Option (AudioOutput S)} (haudio : ∀ k, audio = some k → k.Stands) :
    ({ c with audio := audio, output := output } : Clocks S).Settled :=
  fun hpaused => ⟨(h hpaused).external, (h hpaused).video, haudio⟩

theorem Frozen.refl (c : Clocks S) : c.Frozen c :=
  ⟨rfl, rfl, fun _ hk => hk, fun _ hk => hk⟩

theorem Frozen.of_eq (h : c' = c) : c.Frozen c' :=
  h.symm ▸ refl c

theorem Frozen.trans (h : c.Frozen c') (h' : c'.Frozen c'') : c.Frozen c'' :=
  ⟨h'.paused.trans h.paused, h'.external.trans h.external, fun k hk => h.video k (h'.video k hk),
    fun k hk => h.audio k (h'.audio k hk)⟩

end Clocks

end

section

variable {S : Type} [Scalar S]

namespace Clock

variable {k : Clock S}

theorem Stands.valueAt_eq (h : k.Stands) (now : S) : k.valueAt now = k.base := by
  unfold valueAt
  rcases h with hpaused | hnone
  · simp [hpaused]
  · simp [hnone]

theorem Stands.read_eq (h : k.Stands) (epoch : Option Nat) (now now' : S) :
    k.read epoch now' = k.read epoch now := by
  unfold read
  rw [h.valueAt_eq, h.valueAt_eq]

theorem stands_new (now : S) : (Clock.new now).Stands :=
  .inr rfl

theorem paused_setPaused (k : Clock S) (now : S) : (k.setPaused true now).paused = true := by
  unfold setPaused
  split
  · assumption
  · rfl

end Clock

namespace Clocks.Settled

variable {c c' : Clocks S} {now : S}

theorem switched (c : Clocks S) (now : S) : (c.switched now).Settled := by
  cases hc : c.paused with
  | true => exact of_running (by rw [Clocks.switched, hc]; rfl)
  | false =>
    unfold Clocks.switched
    rw [hc]
    refine fun _ => ⟨c.external.paused_setPaused now, fun k hk => ?_, fun k hk => ?_⟩
    all_goals
      obtain ⟨k, -, rfl⟩ := Option.map_eq_some_iff.1 hk
      exact .inl (k.paused_setPaused now)

theorem turned (h : c.Settled) {seeks : Bool} (hturned : c.Turned now seeks c') : c'.Settled := by
  cases hturned with
  | stays => exact h
  | sought external =>
    unfold Clocks.sought
    dsimp only
    split
    · exact switched _ now
    · rename_i hrun
      exact of_running (Bool.eq_false_iff.2 hrun)

theorem refreshed (h : c.Settled) {sets : S → Nat → Prop} (hrefreshed : c.Refreshed now sets c') :
    c'.Settled := by
  cases hc : c.paused with
  | true =>
    rw [hrefreshed.paused hc]
    exact h
  | false =>
    rcases hrefreshed.pauses hc with hrun | ⟨d, -, rfl⟩
    · exact of_running hrun
    · exact switched d now

theorem filled (h : c.Settled) {fs : List (AudioFrame S)} (hfilled : c.Filled now fs c') :
    c'.Settled := by
  cases hfilled with
  | closed => exact h
  | paused => exact fun hpaused => ⟨(h hpaused).external, (h hpaused).video, (h hpaused).audio⟩
  | heard _ _ hrun => exact of_running hrun

theorem handled (h : c.Settled) (hhandled : c.Handled now c') : c'.Settled := by
  cases hhandled with
  | stays => exact h
  | switched => exact switched c now
  | video video hnew => exact h.withVideo fun k hk => hnew k hk ▸ Clock.stands_new now
  | audio audio output hnew => exact h.withAudio fun k hk => hnew k hk ▸ Clock.stands_new now
  | closed output =>
    have hvideo : { c with video := none }.Settled := h.withVideo nofun
    exact hvideo.withAudio nofun

end Clocks.Settled

end

/-! ## Every run -/

namespace Session

variable {S : Type} [Scalar S] {host : Host S} {s s' : Session host} {now : S}

theorem settled_perform (h : s.clocks.Settled) (now : S) (action : Action) :
    (s.perform now action).clocks.Settled := by
  have hother (hreader : action ≠ .readerTurn) (hpresents : action.presents = false) :
      (s.perform now action).clocks.Settled :=
    h.handled (handled_perform hreader hpresents now)
  cases action with
  | readerTurn => exact h.turned (s.clocks_readerTurn now)
  | refresh => exact h.refreshed (s.refreshed_refresh now)
  | fill count volume => exact h.filled (s.filled_fill count volume now)
  | _ => exact hother nofun rfl

theorem settled_run (h : s.clocks.Settled) (actions : List (S × Action)) :
    (s.run actions).clocks.Settled :=
  of_run (motive := fun s => s.clocks.Settled) h
    (fun _ now action h => settled_perform h now action) actions

/-! ## What happens in a pause -/

/-- A seek that the reader performs ends the pause. -/
theorem seek_ends_pause (hpaused : s.paused = true) (hseek : s.seekSucceeds now = true) :
    (s.readerTurn now).paused = false := by
  have hturned := s.clocks_readerTurn now
  rw [hseek] at hturned
  have hends : (s.readerTurn now).clocks.paused = false := by
    generalize (s.readerTurn now).clocks = c at hturned ⊢
    cases hturned with
    | sought external =>
      have hpaused' : s.clocks.paused = true := hpaused
      unfold Clocks.sought Clocks.switched
      dsimp only
      rw [if_pos hpaused', hpaused']
      rfl
  exact hends

/-- The action is none that a user asks for. -/
def Action.isQuiet : Action → Bool
  | .start | .readerTurn | .videoStep | .audioStep | .audioDecode | .refresh | .takePicture
  | .fill _ _ => true
  | .togglePause | .step | .seek _ | .seekChapter _ | .nextChunk | .previousChunk
  | .cycleStream _ | .abort | .close => false

/-- In this run no user asks for anything, and no seek that was asked for before succeeds. -/
def quiet (s : Session host) : List (S × Action) → Bool
  | [] => true
  | (now, action) :: rest =>
    action.isQuiet && !(action = .readerTurn && s.seekSucceeds now) &&
      (s.perform now action).quiet rest

theorem frozen_perform (hpaused : s.paused = true) {action : Action}
    (hquiet : action.isQuiet = true)
    (hseek : action = .readerTurn → s.seekSucceeds now = false) :
    s.clocks.Frozen (s.perform now action).clocks := by
  have haudio (take : Bool) : s.clocks.Frozen (s.audioTurn take now).2.clocks := by
    rcases s.clocks_audioTurn take now with hsame | hleft
    · exact .of_eq hsame
    · rw [hleft]
      exact ⟨rfl, rfl, fun _ hk => hk, nofun⟩
  cases action with
  | start => exact .of_eq clocks_start
  | takePicture => exact .of_eq clocks_takePicture
  | readerTurn =>
    have hturned := s.clocks_readerTurn now
    rw [hseek rfl] at hturned
    unfold Session.perform
    generalize (s.readerTurn now).clocks = c at hturned ⊢
    cases hturned with
    | stays => exact .refl _
  | videoStep =>
    rcases s.clocks_videoStep now with hsame | hleft
    · exact .of_eq hsame
    · unfold Session.perform
      rw [hleft]
      exact ⟨rfl, rfl, nofun, fun _ hk => hk⟩
  | audioStep => exact haudio true
  | audioDecode => exact haudio false
  | refresh => exact .of_eq ((s.refreshed_refresh now).paused hpaused)
  | fill count volume =>
    have hfilled := s.filled_fill count volume now
    unfold Session.perform
    generalize (s.fill count volume now).2.clocks = c at hfilled ⊢
    cases hfilled with
    | closed => exact .refl _
    | paused => exact ⟨rfl, rfl, fun _ hk => hk, fun _ hk => hk⟩
    | heard _ _ hrun => exact absurd (hrun.symm.trans hpaused) Bool.false_ne_true
  | _ => cases hquiet

end Session

end Playback
