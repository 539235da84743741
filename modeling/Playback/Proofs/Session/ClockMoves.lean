import Playback.Proofs.Session.ClockState

/-!
# How pictures and sound set the clocks

A refresh and a fill are what makes the clocks of the streams follow the presentation.

* A refresh of a paused session changes no clock. Otherwise the video clock is set by the pictures
  that are shown or passed over, and after the last one the session may pause
  (`Clocks.Refreshed`, `refreshed_refresh`).
* A fill sets the audio clock by the block that was converted last, which may be one of an earlier
  fill (`Clocks.Filled`, `filled_fill`). In a paused session it changes no clock either.
-/

namespace Playback

open FrameRing

/-! ## A refresh -/

section

variable {S : Type} [Scalar S]

/-- A clock at a later moment. Meanwhile it was set only in the ways that `sets` allows, and paused
and resumed. -/
inductive Clock.Driven (sets : S → Nat → Prop) (k : Clock S) : Clock S → Prop
  | refl : Driven sets k k
  | set {k' : Clock S} {pts : S} {serial : Nat} (h : Driven sets k k') (hsets : sets pts serial)
      (time : S) : Driven sets k (k'.setAt pts serial time)
  | pause {k' : Clock S} (h : Driven sets k k') (paused : Bool) (time : S) :
      Driven sets k (k'.setPaused paused time)

namespace Clock.Driven

variable {sets sets' : S → Nat → Prop} {k k' k'' : Clock S}

theorem mono (h : k.Driven sets k') (hsets : ∀ pts serial, sets pts serial → sets' pts serial) :
    k.Driven sets' k' := by
  induction h with
  | refl => exact .refl
  | set _ hset time ih => exact .set ih (hsets _ _ hset) time
  | pause _ paused time ih => exact .pause ih paused time

theorem trans (h : k.Driven sets k') (h' : k'.Driven sets k'') : k.Driven sets k'' := by
  induction h' with
  | refl => exact h
  | set _ hset time ih => exact .set ih hset time
  | pause _ paused time ih => exact .pause ih paused time

end Clock.Driven

/-- What a refresh does to the clocks, if `sets` tells how the video clock may be set by it. -/
structure Clocks.Refreshed (now : S) (sets : S → Nat → Prop) (c c' : Clocks S) : Prop where
  paused : c.paused = true → c' = c
  pauses : c.paused = false →
    c'.paused = false ∨ ∃ d : Clocks S, d.paused = false ∧ c' = d.switched now
  video : ∀ k', c'.video = some k' → ∃ k, c.video = some k ∧ k.Driven sets k'
  audio : ∀ k', c'.audio = some k' → ∃ k, c.audio = some k ∧ k.Driven (fun _ _ => False) k'
  output : c'.output = c.output

namespace Clocks.Refreshed

variable {sets sets' : S → Nat → Prop} {c c' c'' : Clocks S} {now : S}

theorem refl (c : Clocks S) : c.Refreshed now sets c :=
  ⟨fun _ => rfl, .inl, fun k hk => ⟨k, hk, .refl⟩, fun k hk => ⟨k, hk, .refl⟩, rfl⟩

theorem of_eq (h : c' = c) : c.Refreshed now sets c' :=
  h.symm ▸ refl c

theorem mono (h : c.Refreshed now sets c') (hsets : ∀ pts serial, sets pts serial →
    sets' pts serial) : c.Refreshed now sets' c' where
  paused := h.paused
  pauses := h.pauses
  video k' hk' := by
    obtain ⟨k, hk, hdriven⟩ := h.video k' hk'
    exact ⟨k, hk, hdriven.mono hsets⟩
  audio := h.audio
  output := h.output

theorem trans (h : c.Refreshed now sets c') (h' : c'.Refreshed now sets c'') :
    c.Refreshed now sets c'' where
  paused hc := by
    have hsame := h.paused hc
    exact (h'.paused (hsame ▸ hc)).trans hsame
  pauses hc := by
    rcases h.pauses hc with hrun | ⟨d, hd, hswitched⟩
    · exact h'.pauses hrun
    · -- after a pause there is nothing more
      have hstopped : c'.paused = true := by
        rw [hswitched, Clocks.switched, hd]
        rfl
      exact .inr ⟨d, hd, (h'.paused hstopped).trans hswitched⟩
  video k'' hk'' := by
    obtain ⟨k', hk', hlast⟩ := h'.video k'' hk''
    obtain ⟨k, hk, hfirst⟩ := h.video k' hk'
    exact ⟨k, hk, hfirst.trans hlast⟩
  audio k'' hk'' := by
    obtain ⟨k', hk', hlast⟩ := h'.audio k'' hk''
    obtain ⟨k, hk, hfirst⟩ := h.audio k' hk'
    exact ⟨k, hk, hfirst.trans hlast⟩
  output := h'.output.trans h.output

/-- A picture with this time is due. -/
theorem shows (hrun : c.paused = false) (timing : FrameTiming S) (external : Clock S)
    (hsets : ∀ pts, timing.pts = some pts → sets pts timing.serial) :
    c.Refreshed now sets
      { c with
        external := external
        video := c.video.map fun k =>
          timing.pts.elim k fun pts => k.setAt pts timing.serial now } where
  paused hc := absurd (hrun.symm.trans hc) Bool.false_ne_true
  pauses _ := .inl hrun
  video k' hk' := by
    obtain ⟨k, hk, rfl⟩ := Option.map_eq_some_iff.1 hk'
    refine ⟨k, hk, ?_⟩
    cases hpts : timing.pts with
    | none => exact .refl
    | some pts => exact .set .refl (hsets pts hpts) now
  audio k hk := ⟨k, hk, .refl⟩
  output := rfl

/-- The session pauses. -/
theorem pause (h : c.Refreshed now sets c') (hrun : c.paused = false) (hrun' : c'.paused = false) :
    c.Refreshed now sets (c'.switched now) where
  paused hc := absurd (hrun.symm.trans hc) Bool.false_ne_true
  pauses _ := .inr ⟨c', hrun', rfl⟩
  video k'' hk'' := by
    obtain ⟨k', hk', rfl⟩ := Option.map_eq_some_iff.1 hk''
    obtain ⟨k, hk, hdriven⟩ := h.video k' hk'
    exact ⟨k, hk, .pause hdriven _ now⟩
  audio k'' hk'' := by
    obtain ⟨k', hk', rfl⟩ := Option.map_eq_some_iff.1 hk''
    obtain ⟨k, hk, hdriven⟩ := h.audio k' hk'
    exact ⟨k, hk, .pause hdriven _ now⟩
  output := h.output

end Clocks.Refreshed

end

/-- The ways in which the pictures that a refresh has taken may set the video clock: each one that
was not thrown away sets it to its time. -/
def TimedBy {S : Type} (taken : List (VideoFrame S × Fate)) (pts : S) (serial : Nat) : Prop :=
  ∃ x ∈ taken, x.2 ≠ .stale ∧ x.1.pts = some pts ∧ x.1.serial = serial

namespace TimedBy

variable {S : Type} {taken rest : List (VideoFrame S × Fate)} {pts : S} {serial : Nat}

theorem append_left (h : TimedBy taken pts serial) : TimedBy (taken ++ rest) pts serial := by
  obtain ⟨x, hx, htimed⟩ := h
  exact ⟨x, List.mem_append_left _ hx, htimed⟩

theorem append_right (h : TimedBy rest pts serial) : TimedBy (taken ++ rest) pts serial := by
  obtain ⟨x, hx, htimed⟩ := h
  exact ⟨x, List.mem_append_right _ hx, htimed⟩

end TimedBy

namespace Session

variable {S : Type} [Scalar S] {host : Host S} {s s' : Session host} {now : S}

theorem clocks_advanceRing : s.advanceRing.clocks = s.clocks :=
  clocks_onVideo_of_eq fun _ => rfl

theorem clocks_showTime (s : Session host) (current : FrameTiming S) (now : S) :
    ∃ external, (s.showTime current now).clocks =
      { s.clocks with
        external := external
        video := s.clocks.video.map fun k =>
          current.pts.elim k fun pts => k.setAt pts current.serial now } := by
  unfold showTime
  cases current.pts with
  | none => exact ⟨s.externalClock, by simp [clocks, Function.comp_def]⟩
  | some pts =>
    have hset (external : Clock S) :
        ({ s.onVideo fun v => { v with clock := v.clock.setAt pts current.serial now } with
          externalClock := external } : Session host).clocks =
        { s.clocks with
          external := external
          video := s.clocks.video.map (·.setAt pts current.serial now) } := by
      unfold clocks onVideo videoStream
      cases s.video <;> rfl
    dsimp only [Option.elim_some]
    split
    · exact ⟨s.externalClock, hset s.externalClock⟩
    · exact ⟨_, hset _⟩

theorem clocks_passNext : s.passNext.clocks = s.clocks :=
  clocks_advanceRing (s := { s with metrics := s.metrics.recordLateDrop })

theorem clocks_showNext : (s.showNext now).clocks =
    if s.stepping && !s.paused then s.clocks.switched now else s.clocks := by
  have hforced : ({ s.advanceRing with refreshForced := true } : Session host).clocks = s.clocks :=
    clocks_advanceRing (s := s)
  rw [showNext, ← hforced, ← clocks_switchPause]
  exact apply_ite clocks _ _ _

section

variable {v : Stream S (VideoFrame S)} {current : VideoFrame S} {shown : Session host}

/-- A picture that is due sets the clock of its stream. -/
theorem clocks_of_due (hdue : s.Due v now current shown) : ∃ external, shown.clocks =
    { s.clocks with
      external := external
      video := s.clocks.video.map fun k =>
        current.pts.elim k fun pts => k.setAt pts current.serial now } := by
  obtain ⟨last, -, -, rfl⟩ := hdue.timed
  exact clocks_showTime _ current.toFrameTiming now

/-- It does so whether it is shown then or passed over. -/
theorem refreshed_of_due (hdue : s.Due v now current shown) (fate : Fate) (hfate : fate ≠ .stale) :
    s.clocks.Refreshed now (TimedBy [(current, fate)]) shown.clocks := by
  obtain ⟨external, hshown⟩ := clocks_of_due hdue
  rw [hshown]
  exact .shows hdue.running _ external fun pts hpts =>
    ⟨_, List.mem_singleton_self _, hfate, hpts, rfl⟩

theorem paused_of_due (hdue : s.Due v now current shown) : shown.paused = false := by
  obtain ⟨external, hshown⟩ := clocks_of_due hdue
  exact (congrArg Clocks.paused hshown).trans hdue.running

end

theorem refreshed_refreshRound (s : Session host) (v : Stream S (VideoFrame S))
    (remaining now : S) :
    s.clocks.Refreshed now (TimedBy ((s.refreshRound v remaining now).taken? v).toList)
      (s.refreshRound v remaining now).outcome.2.clocks := by
  have hcase := s.lookCase_refreshRound v remaining now
  generalize s.refreshRound v remaining now = round at hcase ⊢
  cases hcase with
  | nothing | paused | waits => exact .of_eq rfl
  | stale => exact .of_eq clocks_advanceRing
  | late hdue =>
    rw [taken?_late hdue.next hdue.serial, RefreshRound.outcome, clocks_passNext]
    exact refreshed_of_due hdue .late nofun
  | shows hdue =>
    rw [taken?_shown hdue.next forced_showNext, RefreshRound.outcome, clocks_showNext]
    have hrefreshed := refreshed_of_due hdue .shown nofun
    split
    · exact hrefreshed.pause hdue.running (paused_of_due hdue)
    · exact hrefreshed

theorem refreshed_advanceVideo (n : Nat) (s : Session host) (remaining now : S) :
    s.clocks.Refreshed now (TimedBy (passes n s remaining now))
      (advanceVideo n s remaining now).2.clocks := by
  induction n generalizing s remaining with
  | zero => exact .refl _
  | succ n ih =>
    unfold advanceVideo passes
    cases s.videoStream with
    | none => exact .refl _
    | some v =>
      dsimp only
      split
      · exact .refl _
      have hround := s.refreshed_refreshRound v remaining now
      generalize s.refreshRound v remaining now = round at hround ⊢
      cases round with
      | done r =>
        rw [List.append_nil]
        exact hround
      | again r =>
        exact (hround.mono fun _ _ => .append_left).trans
          ((ih r.2 r.1).mono fun _ _ => .append_right)

theorem clocks_adjusted (s : Session host) (now : S) :
    s.paused = true ∧ s.adjusted now = s ∨
      s.paused = false ∧ ∃ external,
        (s.adjusted now).clocks = { s.clocks with external := external } := by
  unfold adjusted
  cases hpaused : s.paused with
  | true => exact .inl ⟨rfl, rfl⟩
  | false =>
    refine .inr ⟨rfl, ?_⟩
    split
    · unfold adjustExternalSpeed
      dsimp only
      split
      · exact ⟨s.externalClock, rfl⟩
      · exact ⟨_, rfl⟩
    · exact ⟨s.externalClock, rfl⟩

theorem clocks_acceptPicture (now : S) : (s.acceptPicture now).clocks = s.clocks := by
  unfold acceptPicture
  split
  · rfl
  · split <;> rfl

/-- A refresh changes the clocks as the pictures tell that it takes. -/
theorem refreshed_refresh (s : Session host) (now : S) :
    s.clocks.Refreshed now (TimedBy (s.passed now)) (s.refresh now).2.clocks := by
  have hlast : (s.refresh now).2.clocks = (s.looked now).2.clocks :=
    clocks_acceptPicture (s := (s.looked now).2) now
  have hloop : (s.adjusted now).clocks.Refreshed now (TimedBy (s.passed now))
      (s.looked now).2.clocks := refreshed_advanceVideo _ _ _ _
  rw [hlast]
  rcases s.clocks_adjusted now with ⟨-, hsame⟩ | ⟨hrun, external, hadjusted⟩
  · rw [hsame] at hloop
    exact hloop
  · refine .trans ?_ hloop
    rw [hadjusted]
    exact ⟨fun hc => absurd (hrun.symm.trans hc) Bool.false_ne_true, .inl,
      fun k hk => ⟨k, hk, .refl⟩, fun k hk => ⟨k, hk, .refl⟩, rfl⟩

end Session

/-! ## A fill -/

section

variable {S : Type} [Scalar S]

/-- When a block of sound ends. -/
def AudioFrame.stop? (f : AudioFrame S) : Option S :=
  match f.pts with
  | some pts =>
    if 0 < f.samples.rate then
      some (pts + Scalar.ofNat f.samples.count / Scalar.ofNat f.samples.rate)
    else none
  | none => none

/-- The audio device's side has played on, and meanwhile it has converted the blocks `fs`. What it
remembers is of the last one of these, if there is one. -/
structure AudioOutput.Plays (out : AudioOutput S) (fs : List (AudioFrame S))
    (out' : AudioOutput S) : Prop where
  spec : out'.spec = out.spec
  clock : out'.clock = fs.getLast?.elim out.clock AudioFrame.stop?
  serial : out'.clockSerial = fs.getLast?.elim out.clockSerial (·.serial)

namespace AudioOutput.Plays

variable {out out' out'' : AudioOutput S} {fs fs' : List (AudioFrame S)}

theorem refl (out : AudioOutput S) : out.Plays [] out :=
  ⟨rfl, rfl, rfl⟩

theorem trans (h : out.Plays fs out') (h' : out'.Plays fs' out'') :
    out.Plays (fs ++ fs') out'' := by
  refine ⟨h'.spec.trans h.spec, ?_, ?_⟩ <;> rw [List.getLast?_append]
  · rw [h'.clock, h.clock]
    cases fs'.getLast? <;> rfl
  · rw [h'.serial, h.serial]
    cases fs'.getLast? <;> rfl

theorem play (out : AudioOutput S) (count : Nat) : out.Plays [] (out.play count).2 :=
  ⟨rfl, rfl, rfl⟩

end AudioOutput.Plays

/-- What a fill does to the clocks, if it converts the blocks `fs`. -/
inductive Clocks.Filled (now : S) (fs : List (AudioFrame S)) (c : Clocks S) : Clocks S → Prop
  /-- There is no device. -/
  | closed (hnone : c.output = none) : Filled now fs c c
  | paused {out out' : AudioOutput S} (hout : c.output = some out) (hplays : out.Plays fs out')
      (hpaused : c.paused = true) : Filled now fs c { c with output := some out' }
  /-- The audio clock is set to what is heard at this moment. -/
  | heard {out out' : AudioOutput S} (hout : c.output = some out) (hplays : out.Plays fs out')
      (hrun : c.paused = false) (external : Clock S) :
      Filled now fs c
        { c with
          output := some out'
          external := external
          audio := c.audio.map fun k =>
            out'.clock.elim k fun stop => k.setAt (stop - out'.latency) out'.clockSerial now }

end

namespace Session

variable {S : Type} [Scalar S] {host : Host S} {s s' : Session host} {now : S}

theorem clocks_convertFrame (out : AudioOutput S) (frame : AudioFrame S) :
    (s.convertFrame out frame now).2.clocks = s.clocks := by
  unfold convertFrame
  dsimp only
  split
  · split <;> rfl
  · rfl

theorem plays_convertFrame (s : Session host) (out : AudioOutput S) (frame : AudioFrame S)
    (now : S) : out.Plays [frame] (s.convertFrame out frame now).1 := by
  have hwanted : (s.wantedFrames out frame.samples now).2.spec = out.spec := by
    unfold wantedFrames
    split <;> rfl
  unfold convertFrame
  dsimp only
  split
  · split <;> exact ⟨hwanted, rfl, rfl⟩
  · exact ⟨hwanted, rfl, rfl⟩

theorem clocks_takeSound : s.takeSound.2.clocks = s.clocks := by
  unfold takeSound
  split
  · rfl
  · split
    · rfl
    · exact clocks_onAudio_of_eq fun _ => rfl

theorem clocks_loadBlock (s : Session host) (out : AudioOutput S) (now : S) :
    (s.loadBlock out now).2.clocks = s.clocks ∧
      out.Plays s.takeSound.1.toList (s.loadBlock out now).1 := by
  have htaken := clocks_takeSound (s := s)
  unfold loadBlock
  split
  · rename_i frame s' heq
    rw [heq] at htaken ⊢
    exact ⟨(clocks_convertFrame out frame).trans htaken, s'.plays_convertFrame out frame now⟩
  · rename_i s' heq
    rw [heq] at htaken ⊢
    exact ⟨htaken, rfl, rfl, rfl⟩

theorem clocks_playUntil (count : Nat) (now : S) (n : Nat) (s : Session host)
    (out : AudioOutput S) (data : Bytes) :
    (playUntil count now n s out data).2.2.clocks = s.clocks ∧
      out.Plays (convertedUntil count now n s out data) (playUntil count now n s out data).2.1 := by
  induction n generalizing s out data with
  | zero => exact ⟨rfl, .refl out⟩
  | succ n ih =>
    unfold playUntil convertedUntil
    split
    · exact ⟨rfl, .refl out⟩
    by_cases hunread : out.unread = 0
    · simp only [if_pos hunread]
      obtain ⟨hclocks, hload⟩ := s.clocks_loadBlock out now
      obtain ⟨hrest, hplays⟩ := ih (s.loadBlock out now).2
        ((s.loadBlock out now).1.play (count - data.size)).2
        (data ++ ((s.loadBlock out now).1.play (count - data.size)).1)
      exact ⟨hrest.trans hclocks, hload.trans ((AudioOutput.Plays.play _ _).trans hplays)⟩
    · simp only [if_neg hunread, List.nil_append]
      obtain ⟨hrest, hplays⟩ := ih s (out.play (count - data.size)).2
        (data ++ (out.play (count - data.size)).1)
      exact ⟨hrest, (AudioOutput.Plays.play out _).trans hplays⟩

theorem clocks_hear (s : Session host) (out : AudioOutput S) (now : S) :
    ∃ external, (s.hear out now).clocks =
      { s.clocks with
        external := external
        audio := s.clocks.audio.map fun k =>
          out.clock.elim k fun stop => k.setAt (stop - out.latency) out.clockSerial now } := by
  unfold hear
  cases ha : s.audioStream with
  | none => exact ⟨s.externalClock, by simp [clocks, ha]⟩
  | some a =>
    cases out.clock with
    | none => exact ⟨s.externalClock, by simp [clocks, Function.comp_def]⟩
    | some stop =>
      have hset (external : Clock S) :
          ({ s.onAudio fun a =>
              { a with clock := a.clock.setAt (stop - out.latency) out.clockSerial now } with
            externalClock := external } : Session host).clocks =
          { s.clocks with
            external := external
            audio := s.clocks.audio.map
              (·.setAt (stop - out.latency) out.clockSerial now) } := by
        unfold clocks onAudio audioStream
        cases s.audio <;> rfl
      dsimp only [Option.elim_some]
      split
      · exact ⟨_, hset _⟩
      · exact ⟨s.externalClock, hset s.externalClock⟩

/-- A fill changes the clocks as the blocks tell that it converts. -/
theorem filled_fill (s : Session host) (count volume : Nat) (now : S) :
    s.clocks.Filled now (s.converted count now) (s.fill count volume now).2.clocks := by
  unfold fill converted
  cases hout : s.output with
  | none => exact .closed hout
  | some out =>
    obtain ⟨hclocks, hplays⟩ := clocks_playUntil count now
      (count + (s.audioStream.map (·.frames.remaining)).getD 0) s out #[]
    dsimp only
    generalize playUntil (S := S) _ _ _ _ _ _ = played at hclocks hplays ⊢
    obtain ⟨data, out', s'⟩ := played
    dsimp only at hclocks hplays ⊢
    have hplayed : ({ s' with output := some out' } : Session host).clocks =
        { s.clocks with output := some out' } := by
      rw [← hclocks]
      rfl
    have hpaused : s'.paused = s.paused := congrArg Clocks.paused hclocks
    split
    · rename_i hstill
      rw [hplayed]
      exact .paused hout hplays (hpaused.symm.trans hstill)
    · rename_i hrun
      obtain ⟨external, hheard⟩ :=
        ({ s' with output := some out' } : Session host).clocks_hear out' now
      rw [hheard, hplayed]
      exact .heard hout hplays (hpaused.symm.trans (Bool.eq_false_iff.2 hrun)) external

end Session

end Playback
