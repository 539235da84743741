import Playback.Proofs.Session.ExactClocks
import Playback.Proofs.Session.PausedSession
import Playback.Proofs.Session.TimerMoves
import Playback.Proofs.Timing.TargetDelay

/-!
# The frame timer

The frame timer tells when the picture on screen became due, so it must not be in the future. A
refresh of a session that runs moves it on by the delay of a picture that is due, and so never past
the moment of the refresh (`Pacing.Displays`). The end of a pause moves it on by as long as the
video clock has stood still, and it stays behind the time if it was not ahead of that clock before
(`Pacing.InTime`).

This is so unless a refresh renews the timer in the pause itself, because the next picture is of a
new epoch (`renews_refresh`). Then the time from the pause to that refresh counts twice when the
pause ends, and the timer is in the future (`TimerLaws.ahead`).
-/

namespace Playback

open FrameRing

/-! ## A refresh -/

section

variable {S : Type} [Scalar S] {host : Host S}

/-- The delay of the first picture not shown yet, if there is one. -/
def Session.nextDelay (s : Session host) (now : S) : Option S :=
  s.videoStream.bind fun v => v.frames.last?.bind fun last => v.frames.next?.map fun current =>
    s.delayOf v last.toFrameTiming current.toFrameTiming now

end

theorem FrameRing.next?_of_remaining {α : Type} {r : FrameRing α} (h : r.remaining = 0) :
    r.next? = none := by
  unfold remaining at h
  exact if_pos (Nat.sub_eq_zero_iff_le.1 h)

/-- A picture that has no nominal delay is not delayed, however far the clocks are apart. -/
theorem targetDelay_zero (master : SyncMaster) (diff : Option Rat) (longest : Rat) :
    targetDelay 0.0 master diff longest = 0 := by
  have hzero : max (0.0 : Rat) 0 = 0 := by norm_num
  by_cases hvideo : master = .video
  · rw [hvideo, targetDelay_video, hzero]
  · cases diff with
    | none => rw [targetDelay_none, hzero]
    | some diff =>
      have hpos : (0 : Rat) < max 0.04 (min 0.1 0) := lt_max_of_lt_left (by norm_num)
      rw [targetDelay_some hvideo, hzero, corrected_zero hpos, ite_self]

namespace Pacing

/-- A picture was due at the moment `now`, and set the video clock. -/
structure Shown (now : Rat) (p p' : Pacing Rat) : Prop where
  paused : p'.paused = p.paused
  timer : p'.timer ≤ now
  clock : ∀ k', p'.clock = some k' → ∃ k, p.clock = some k ∧ k'.paused = k.paused

/-- What a refresh does to the pacing of a session that runs. -/
inductive Displays (now : Rat) (p : Pacing Rat) : Pacing Rat → Prop
  | waits : Displays now p p
  | shows {p' : Pacing Rat} (h : p.Shown now p') : Displays now p p'
  /-- The session was to show one picture and to pause then. -/
  | pauses {p' : Pacing Rat} (h : p.Shown now p') : Displays now p (p'.switched now)

variable {p p' p'' : Pacing Rat} {now : Rat}

theorem Shown.trans (h : p.Shown now p') (h' : p'.Shown now p'') : p.Shown now p'' := by
  refine ⟨h'.paused.trans h.paused, h'.timer, fun k'' hk'' => ?_⟩
  obtain ⟨k', hk', hlast⟩ := h'.clock k'' hk''
  obtain ⟨k, hk, hfirst⟩ := h.clock k' hk'
  exact ⟨k, hk, hlast.trans hfirst⟩

theorem Shown.displays (h : p.Shown now p') (h' : p'.Displays now p'') : p.Displays now p'' := by
  cases h' with
  | waits => exact .shows h
  | shows h' => exact .shows (h.trans h')
  | pauses h' => exact .pauses (h.trans h')

end Pacing

/-- A timer that was due does not get into the future by its delay. -/
theorem Session.timerAfter_le {timer delay now : Rat} (hdue : ¬ now < timer + delay) :
    timerAfter timer delay now ≤ now := by
  unfold timerAfter
  dsimp only
  split
  · exact le_refl now
  · exact not_lt.1 hdue

namespace Session

variable {host : Host Rat} {s s' : Session host} {now : Rat}

/-- The first picture of an epoch does not wait: it has no delay, and the timer starts with it. -/
theorem timerFor_of_waits {v : Stream Rat (VideoFrame Rat)} {last current : FrameTiming Rat}
    (hwaits : s.Waits v last current now) : s.timerFor last current now = s.frameTimer := by
  unfold Waits at hwaits
  unfold timerFor at hwaits ⊢
  by_cases hepoch : last.serial ≠ current.serial
  · rw [if_pos hepoch, delayOf, frameDuration, if_pos hepoch, targetDelay_zero, add_zero] at hwaits
    exact absurd hwaits (lt_irrefl now)
  · exact if_neg hepoch

theorem frameTimer_showTime (s : Session host) (current : FrameTiming Rat) (now : Rat) :
    (s.showTime current now).frameTimer = s.frameTimer := by
  unfold showTime
  split
  · rfl
  · dsimp only
    split <;> rfl

theorem shown_of_due {v : Stream Rat (VideoFrame Rat)} {current : VideoFrame Rat}
    (hdue : s.Due v now current s') : s.pacing.Shown now s'.pacing := by
  obtain ⟨external, hclocks⟩ := clocks_of_due hdue
  have htimer : s'.frameTimer ≤ now := by
    obtain ⟨last, -, hpast, rfl⟩ := hdue.timed
    rw [frameTimer_showTime]
    exact timerAfter_le hpast
  unfold pacing
  rw [hclocks]
  refine ⟨rfl, htimer, fun k' hk' => ?_⟩
  obtain ⟨k, hk, rfl⟩ := Option.map_eq_some_iff.1 hk'
  refine ⟨k, hk, ?_⟩
  cases current.pts <;> rfl

theorem pacing_showNext (s : Session host) (now : Rat) : (s.showNext now).pacing =
    if s.stepping && !s.paused then s.pacing.switched now else s.pacing := by
  have hforced : ({ s.advanceRing with refreshForced := true } : Session host).pacing = s.pacing :=
    pacing_of_clocks (clocks_advanceRing (s := s)) rfl
  rw [showNext, ← hforced, ← pacing_switchPause]
  exact apply_ite pacing _ _ _

theorem displays_advanceVideo (n : Nat) (s : Session host) (remaining now : Rat)
    (hrun : s.paused = false) :
    s.pacing.Displays now (advanceVideo n s remaining now).2.pacing := by
  induction n generalizing s remaining with
  | zero => exact .waits
  | succ n ih =>
    unfold advanceVideo
    cases s.videoStream with
    | none => exact .waits
    | some v =>
      dsimp only
      split
      · exact .waits
      have hcase := s.lookCase_refreshRound v remaining now
      generalize s.refreshRound v remaining now = round at hcase ⊢
      cases hcase with
      | nothing => exact .waits
      | stale =>
        have hsame : s.advanceRing.pacing = s.pacing := pacing_of_clocks clocks_advanceRing rfl
        exact hsame ▸ ih s.advanceRing remaining hrun
      | paused hpaused => cases hpaused.symm.trans hrun
      | waits _ _ _ htimer hwaits =>
        rw [timerFor_of_waits hwaits] at htimer
        rw [htimer]
        exact .waits
      | @late current shown hdue =>
        have hpacing : shown.passNext.pacing = shown.pacing := pacing_of_clocks clocks_passNext rfl
        have hshown : s.pacing.Shown now shown.passNext.pacing := hpacing ▸ shown_of_due hdue
        exact hshown.displays (ih _ _ (hshown.paused.trans hrun))
      | shows hdue =>
        dsimp only
        rw [pacing_showNext]
        split
        · exact .pauses (shown_of_due hdue)
        · exact .shows (shown_of_due hdue)

/-- When only stale pictures are thrown away, the first of the current epoch waits for its delay. -/
theorem waits_advanceVideo (n : Nat) (s : Session host) (remaining now : Rat)
    (hrun : s.paused = false) (hforced : s.refreshForced = false) (hn : s.pictures < n)
    (hstale : ∀ x ∈ passes n s remaining now, x.2 = .stale) {delay : Rat}
    (hdelay : (advanceVideo n s remaining now).2.nextDelay now = some delay) :
    now < s.frameTimer + delay := by
  induction n generalizing s remaining with
  | zero => exact absurd hn (Nat.not_lt_zero _)
  | succ n ih =>
    unfold advanceVideo at hdelay
    unfold passes at hstale
    cases hv : s.videoStream with
    | none =>
      rw [hv] at hdelay
      simp [nextDelay, hv] at hdelay
    | some v =>
      rw [hv] at hdelay hstale
      dsimp only at hdelay hstale
      have hpictures : s.pictures = v.frames.remaining := by
        unfold pictures
        rw [hv]
        rfl
      split at hdelay
      · rename_i hnone
        simp [nextDelay, hv, next?_of_remaining hnone] at hdelay
      rename_i hsome
      rw [if_neg hsome] at hstale
      have hcase := s.lookCase_refreshRound v remaining now
      generalize s.refreshRound v remaining now = round at hcase hdelay hstale
      cases hcase with
      | nothing hnone => rcases hnone with hnone | hnone <;> simp [nextDelay, hv, hnone] at hdelay
      | stale =>
        have hfewer : s.advanceRing.pictures = s.pictures - 1 :=
          pictures_of_advance flows_advanceRing
        refine ih s.advanceRing remaining hrun hforced (by omega) (fun x hx => ?_) hdelay
        exact hstale x (List.mem_append_right _ hx)
      | paused hpaused => cases hpaused.symm.trans hrun
      | @waits last current _ _ hlast hnext _ _ hwaits =>
        have hdelay' : s.nextDelay now = some delay := hdelay
        have hfirst : s.nextDelay now =
            some (s.delayOf v last.toFrameTiming current.toFrameTiming now) := by
          simp [nextDelay, hv, hlast, hnext]
        rw [← Option.some.inj (hfirst.symm.trans hdelay'), ← timerFor_of_waits hwaits]
        exact hwaits
      | late hdue =>
        rw [taken?_late hdue.next hdue.serial] at hstale
        cases hstale _ (List.mem_cons_self ..)
      | shows hdue =>
        rw [taken?_shown hdue.next forced_showNext] at hstale
        cases hstale _ (List.mem_cons_self ..)

theorem pacing_adjusted (s : Session host) (now : Rat) :
    (s.adjusted now).pacing = s.pacing := by
  have htimer : (s.adjusted now).frameTimer = s.frameTimer := by
    unfold adjusted
    split
    · unfold adjustExternalSpeed
      dsimp only
      split <;> rfl
    · rfl
  rcases s.clocks_adjusted now with ⟨-, hsame⟩ | ⟨-, external, hclocks⟩
  · rw [hsame]
  · unfold pacing
    rw [hclocks, htimer]

theorem pacing_acceptPicture (s : Session host) (now : Rat) :
    (s.acceptPicture now).pacing = s.pacing := by
  refine pacing_of_clocks (clocks_acceptPicture now) ?_
  unfold acceptPicture
  split
  · rfl
  · split <;> rfl

theorem displays_refresh (hrun : s.paused = false) (now : Rat) :
    s.pacing.Displays now (s.refresh now).2.pacing := by
  have hsame := s.pacing_adjusted now
  have hrun' : (s.adjusted now).paused = false := (congrArg Pacing.paused hsame).trans hrun
  have hlast : (s.refresh now).2.pacing = (s.looked now).2.pacing :=
    (s.looked now).2.pacing_acceptPicture now
  rw [hlast, looked_eq, ← hsame]
  exact displays_advanceVideo _ _ _ _ hrun'

theorem waits_refresh (hrun : s.paused = false) (hforced : s.refreshForced = false)
    (hstale : ∀ x ∈ s.passed now, x.2 = .stale) {delay : Rat}
    (hdelay : (s.refresh now).2.nextDelay now = some delay) : now < s.frameTimer + delay := by
  have hsame := s.pacing_adjusted now
  have hrun' : (s.adjusted now).paused = false := (congrArg Pacing.paused hsame).trans hrun
  have hforced' : (s.adjusted now).refreshForced = false :=
    (congrArg Flows.forced (s.adjusted_spec now).1).trans hforced
  have hlast : (s.refresh now).2.nextDelay now = (s.looked now).2.nextDelay now := by
    have haccept (s : Session host) : (s.acceptPicture now).nextDelay now = s.nextDelay now := by
      unfold acceptPicture
      split
      · rfl
      · split <;> rfl
    exact haccept _
  have htimer : (s.adjusted now).frameTimer = s.frameTimer := congrArg Pacing.timer hsame
  rw [hlast, looked_eq] at hdelay
  rw [← htimer]
  exact waits_advanceVideo _ _ _ _ hrun' hforced' (Nat.lt_succ_self _) hstale hdelay

/-- A refresh in a pause may start the frame timer anew. -/
theorem renews_refresh (hpaused : s.paused = true) (hforced : s.refreshForced = false)
    (now : Rat) : (s.refresh now).2.pacing = s.pacing ∨
      (s.refresh now).2.pacing = { s.pacing with timer := now } := by
  obtain ⟨-, timer, htimer, hrefresh⟩ := refresh_of_paused hpaused hforced now
  have hpacing : (s.refresh now).2.pacing = { s.pacing with timer := timer } := by
    rw [hrefresh]
    have hclocks : (s.passBy (s.passed now).length).clocks = s.clocks :=
      clocks_onVideo_of_eq fun _ => rfl
    have hsame : ({ s.passBy (s.passed now).length with frameTimer := timer } :
        Session host).clocks = s.clocks := hclocks
    unfold pacing
    rw [hsame]
  rw [hpacing]
  rcases htimer with rfl | rfl
  · exact .inl rfl
  · exact .inr rfl

end Session

/-! ## Timers that are not ahead -/

namespace Clock

variable {k : Clock Rat} {now : Rat}

theorem lastUpdated_pause (hrun : k.paused = false) : (k.setPaused true now).lastUpdated = now := by
  unfold setPaused
  rw [if_neg (by simp [hrun])]
  rfl

theorem paused_resume (k : Clock Rat) (now : Rat) : (k.setPaused false now).paused = false := by
  unfold setPaused
  split
  · assumption
  · rfl

end Clock

namespace Pacing

/-- At the moment `time` the frame timer is not in the future, and in a pause it is not ahead of the
video clock either, unless it was renewed in a pause. -/
structure InTime (p : Pacing Rat) (time : Rat) (renewed : Bool) : Prop where
  runs : p.paused = false → ∀ k, p.clock = some k → k.paused = false
  past : renewed = false → p.timer ≤ time
  stands : renewed = false → p.paused = true → ∀ k, p.clock = some k → p.timer ≤ k.lastUpdated

/-- The video clock stopped before the moment `now`. -/
def stoppedBefore (p : Pacing Rat) (now : Rat) : Bool :=
  p.paused && p.clock.any (·.lastUpdated < now)

variable {p p' : Pacing Rat} {time now : Rat} {renewed : Bool}

theorem switched_of_running (hrun : p.paused = false) :
    p.switched now = ⟨true, p.clock.map (·.setPaused true now), p.timer⟩ := by
  unfold switched
  rw [hrun]
  rfl

theorem switched_of_paused (hpaused : p.paused = true) :
    p.switched now = ⟨false, p.clock.map (·.setPaused false now),
      p.timer + p.clock.elim 0 fun k => now - k.lastUpdated⟩ := by
  unfold switched
  rw [hpaused]
  cases p.clock with
  | none => rw [Option.elim_none, add_zero]; rfl
  | some k => rfl

namespace InTime

theorem later (h : p.InTime time renewed) (hle : time ≤ now) : p.InTime now renewed :=
  ⟨h.runs, fun hkept => (h.past hkept).trans hle, h.stands⟩

theorem switched (h : p.InTime time renewed) (hle : time ≤ now) :
    (p.switched now).InTime now renewed := by
  cases hpaused : p.paused with
  | false =>
    -- the clock stops at this moment
    rw [switched_of_running hpaused]
    refine ⟨nofun, fun hkept => (h.past hkept).trans hle, fun hkept _ k' hk' => ?_⟩
    obtain ⟨k, hk, rfl⟩ := Option.map_eq_some_iff.1 hk'
    rw [Clock.lastUpdated_pause (h.runs hpaused k hk)]
    exact (h.past hkept).trans hle
  | true =>
    rw [switched_of_paused hpaused]
    refine ⟨fun _ k' hk' => ?_, fun hkept => ?_, nofun⟩
    · obtain ⟨k, -, rfl⟩ := Option.map_eq_some_iff.1 hk'
      exact k.paused_resume now
    · cases hclock : p.clock with
      | none => exact (add_zero p.timer).trans_le ((h.past hkept).trans hle)
      | some k =>
        have hstands : p.timer ≤ k.lastUpdated := h.stands hkept hpaused k hclock
        show p.timer + (now - k.lastUpdated) ≤ now
        linarith

theorem shifts (h : p.InTime time renewed) (hle : time ≤ now) (hshifts : p.Shifts now p') :
    p'.InTime now renewed := by
  cases hshifts with
  | stays => exact h.later hle
  | switched => exact h.switched hle
  | reopened clock hnew =>
    refine ⟨fun _ k hk => ?_, fun hkept => (h.past hkept).trans hle, fun hkept _ k hk => ?_⟩
    · rw [hnew k hk]
      rfl
    · rw [hnew k hk]
      exact (h.past hkept).trans hle

theorem of_shown (h : p.InTime time renewed) (hrun : p.paused = false) (hshown : p.Shown now p')
    (renewed' : Bool) : p'.InTime now renewed' := by
  refine ⟨fun _ k' hk' => ?_, fun _ => hshown.timer, fun _ hpaused => ?_⟩
  · obtain ⟨k, hk, hsame⟩ := hshown.clock k' hk'
    exact hsame.trans (h.runs hrun k hk)
  · rw [hshown.paused, hrun] at hpaused
    cases hpaused

/-- A picture that is shown brings the timer back from the future. -/
theorem displays (h : p.InTime time renewed) (hle : time ≤ now) (hrun : p.paused = false)
    (hdisplays : p.Displays now p') :
    p'.InTime now (if p'.timer ≠ p.timer then false else renewed) := by
  cases hdisplays with
  | waits =>
    rw [if_neg (not_not.2 rfl)]
    exact h.later hle
  | shows hshown => exact h.of_shown hrun hshown _
  | pauses hshown => exact (h.of_shown hrun hshown _).switched (le_refl now)

/-- In a pause the timer is renewed, and it is ahead of the clock then that stands still. -/
theorem renews (h : p.InTime time renewed) (hle : time ≤ now) (hpaused : p.paused = true)
    (hrenews : p' = p ∨ p' = { p with timer := now }) :
    p'.InTime now (if p'.timer ≠ p.timer then p.stoppedBefore now else renewed) := by
  by_cases hmoved : p'.timer ≠ p.timer
  · rw [if_pos hmoved]
    obtain rfl | rfl := hrenews
    · exact absurd rfl hmoved
    refine ⟨h.runs, fun _ => le_refl now, fun hnot _ k hk => ?_⟩
    have hclock : p.clock = some k := hk
    rw [stoppedBefore, hpaused, hclock] at hnot
    simpa using hnot
  · rw [if_neg hmoved]
    have hsame : p' = p := by
      obtain rfl | rfl := hrenews
      · rfl
      · have hnow : now = p.timer := not_not.1 hmoved
        rw [hnow]
    rw [hsame]
    exact h.later hle

end InTime

end Pacing

/-! ## Every run -/

namespace Session

variable {host : Host Rat} {s p : Session host} {time now : Rat} {renewed : Bool}

/-- Whether the last refresh of a run that moved the frame timer did so after the video clock had
stopped. If no refresh moves it, that is what `renewed` tells of the time before the run. -/
def renewedIn (s : Session host) (renewed : Bool) : List (Rat × Action) → Bool
  | [] => renewed
  | (now, action) :: rest =>
    let s' := s.perform now action
    s'.renewedIn
      (if action = .refresh ∧ s'.frameTimer ≠ s.frameTimer then s.pacing.stoppedBefore now
        else renewed) rest

theorem inTime_refresh (h : s.pacing.InTime time renewed) (hforced : s.refreshForced = false)
    (hle : time ≤ now) :
    (s.refresh now).2.pacing.InTime now
      (if (s.refresh now).2.frameTimer ≠ s.frameTimer then s.pacing.stoppedBefore now
        else renewed) := by
  cases hpaused : s.paused with
  | false =>
    have hrun : s.pacing.stoppedBefore now = false := by
      have hrun' : s.pacing.paused = false := hpaused
      rw [Pacing.stoppedBefore, hrun', Bool.false_and]
    rw [hrun]
    exact h.displays hle hpaused (displays_refresh hpaused now)
  | true => exact h.renews hle hpaused (renews_refresh hpaused hforced now)

theorem inTime_run (h : s.pacing.InTime time renewed) (horder : s.InOrder)
    {actions : List (Rat × Action)}
    (htimes : (time :: actions.map (·.1)).Pairwise (· ≤ ·)) :
    (s.run actions).pacing.InTime ((actions.map (·.1)).getLastD time)
      (s.renewedIn renewed actions) := by
  induction actions generalizing s time renewed with
  | nil => exact h
  | cons a rest ih =>
    obtain ⟨now, action⟩ := a
    obtain ⟨hle, hrest⟩ := List.pairwise_cons.1 htimes
    have hnow : time ≤ now := hle now (List.mem_cons_self ..)
    rw [List.map_cons, List.getLastD_cons]
    refine ih ?_ (horder.perform now action) hrest
    by_cases hrefresh : action = .refresh
    · subst hrefresh
      have hrefreshed := inTime_refresh h horder.forced hnow
      simpa only [perform, true_and] using hrefreshed
    · simpa [hrefresh] using h.shifts hnow (shifts_perform hrefresh s now)

theorem pacing_of_resume (hforced : s.refreshForced = false) (hpaused : s.paused = true)
    {action : Action} (hresumes : (s.perform now action).paused = false) :
    (s.perform now action).pacing = s.pacing.switched now := by
  have hends : (s.perform now action).pacing.paused = false := hresumes
  have hpaused' : s.pacing.paused = true := hpaused
  by_cases hrefresh : action = .refresh
  · subst hrefresh
    have hstill : (s.perform now .refresh).pacing.paused = s.pacing.paused := by
      show (s.refresh now).2.pacing.paused = s.pacing.paused
      rcases renews_refresh hpaused hforced now with hsame | hrenewed
      · rw [hsame]
      · rw [hrenewed]
    rw [hstill, hpaused'] at hends
    cases hends
  · have hshifts := shifts_perform hrefresh s now
    generalize (s.perform now action).pacing = p' at hshifts hends ⊢
    cases hshifts with
    | switched => rfl
    | stays | reopened =>
      rw [hpaused'] at hends
      cases hends

/-- What holds of the frame timer of a session that was left alone since the moment `time`, if
`renewed` tells whether the timer was renewed in a pause. -/
structure TimerLaws (p : Session host) (time : Rat) (renewed : Bool) : Prop where
  /-- The timer is not in the future. -/
  past : renewed = false → p.frameTimer ≤ time
  /-- Until the timer is moved again, the next picture waits for its delay at most. -/
  waits : renewed = false → ∀ actions now delay,
    let q := p.run actions
    q.paused = false → q.frameTimer = p.frameTimer → (∀ x ∈ q.passed now, x.2 = .stale) →
      (q.refresh now).2.nextDelay now = some delay → now < time + delay
  /-- The timer is not ahead of the clock that stands still in a pause. -/
  stands : renewed = false → p.paused = true → ∀ k, p.clocks.video = some k →
    p.frameTimer ≤ k.lastUpdated
  /-- The end of a pause moves the timer by as long as the video clock has stood still. -/
  resumes : p.paused = true → ∀ now action, (p.perform now action).paused = false →
    (p.perform now action).frameTimer =
      p.frameTimer + p.clocks.video.elim 0 fun k => now - k.lastUpdated
  /-- A timer that is renewed in a pause gets as far into the future when the pause ends as it was
  renewed after the clock stopped. -/
  ahead : p.paused = true → ∀ now k, p.clocks.video = some k →
    (p.refresh now).2.frameTimer ≠ p.frameTimer → ∀ later action,
      ((p.refresh now).2.perform later action).paused = false →
        ((p.refresh now).2.perform later action).frameTimer = later + (now - k.lastUpdated)

theorem timer_of_resume (hforced : s.refreshForced = false) (hpaused : s.paused = true)
    {action : Action} (hresumes : (s.perform now action).paused = false) :
    (s.perform now action).frameTimer =
      s.frameTimer + s.clocks.video.elim 0 fun k => now - k.lastUpdated := by
  have hends := pacing_of_resume hforced hpaused hresumes
  rw [Pacing.switched_of_paused hpaused] at hends
  exact congrArg Pacing.timer hends

theorem timerLaws (h : p.pacing.InTime time renewed) (horder : p.InOrder) :
    p.TimerLaws time renewed where
  past := h.past
  waits hkept actions now delay := by
    intro q hrun htimer hstale hdelay
    have hwaits := waits_refresh hrun (horder.run actions).forced hstale hdelay
    have hpast : p.frameTimer ≤ time := h.past hkept
    rw [htimer] at hwaits
    linarith
  stands := h.stands
  resumes hpaused now action hresumes := timer_of_resume horder.forced hpaused hresumes
  ahead hpaused now k hk hmoved later action hresumes := by
    obtain hsame | hrenewed := renews_refresh hpaused horder.forced now
    · exact absurd (congrArg Pacing.timer hsame) hmoved
    have hforced : (p.refresh now).2.refreshForced = false := (horder.perform now .refresh).forced
    have hpaused' : (p.refresh now).2.paused = true :=
      (congrArg Pacing.paused hrenewed).trans hpaused
    have hclock : (p.refresh now).2.clocks.video = some k :=
      (congrArg Pacing.clock hrenewed).trans hk
    have htimer : (p.refresh now).2.frameTimer = now := congrArg Pacing.timer hrenewed
    rw [timer_of_resume hforced hpaused' hresumes, hclock, htimer, Option.elim_some]
    ring

theorem inTime_open {uri : String} {options : Options Rat} {screen : host.Screen}
    (hopen : Session.open host uri options screen now = .ok s) (hstart : 0 ≤ now) :
    s.pacing.InTime now false := by
  have hopened := opened_open hopen
  refine ⟨fun _ k hk => ?_, fun _ => ?_, fun _ hpaused => ?_⟩
  · obtain ⟨time, rfl⟩ := hopened.video k hk
    rfl
  · have hzero : s.pacing.timer = 0.0 := frameTimer_open hopen
    rw [hzero]
    norm_num
    exact hstart
  · cases hopened.paused.symm.trans hpaused

end Session

/-! ## A source with two pictures -/

namespace TwoPictures

open PictureScript in
/-- Two pictures; the first seek leads to the second one. -/
def host : Host Rat :=
  Host.scripted { script 1 #[.row (row 0), .row (row 1)] none with seekTo := [1] } {}

/-- The reader and the decode loop work on. -/
def working (now : Rat) : List (Rat × Session.Action) :=
  [(now, .readerTurn), (now, .videoStep), (now, .videoStep)]

/-- One picture is shown, and the other one waits in a pause. -/
def paused : List (Rat × Session.Action) :=
  (0, .start) :: working 0 ++ working 0 ++
    [(1 / 20, .refresh), (1 / 20, .togglePause), (1, .refresh), (1, .togglePause)]

/-- One picture is shown. Then a seek leads to the other one, the session is paused, and it is
refreshed after a second. -/
def sought : List (Rat × Session.Action) :=
  (0, .start) :: working 0 ++ [(1 / 20, .refresh), (1 / 20, .seek 400)] ++ working (1 / 20) ++
    [(1 / 20, .togglePause), (21 / 20, .refresh), (21 / 20, .togglePause)]

end TwoPictures

/-! ## Every run -/

/-- The frame timer is never in the future, and the next picture waits for its delay at most, unless
the timer was renewed in a pause after the video clock had stopped. Then it gets into the future
when the pause ends, by as long as the clock had stood still when it was renewed. -/
theorem frame_timer_in_time {host : Host Rat} {uri : String} {options : Options Rat}
    {screen : host.Screen} {opened : Rat} {s : Session host}
    (hopen : Session.open host uri options screen opened = .ok s) (hstart : 0 ≤ opened)
    (actions : List (Rat × Session.Action))
    (htimes : (opened :: actions.map (·.1)).Pairwise (· ≤ ·)) :
    (s.run actions).TimerLaws ((actions.map (·.1)).getLastD opened)
      (s.renewedIn false actions) := by
  have horder : s.InOrder := .start hopen
  exact Session.timerLaws (Session.inTime_run (Session.inTime_open hopen hstart) horder htimes)
    (horder.run actions)

/-- After a pause of almost a second the next picture waits for its own 40 milliseconds at most. -/
theorem frame_timer_in_time_resumed :
    ∃ s, Session.open TwoPictures.host "" {} (0 : Nat) 0 = .ok s ∧
      let p := s.run TwoPictures.paused
      s.renewedIn false TwoPictures.paused = false ∧ p.frameTimer ≤ 1 ∧
        (p.refresh (101 / 100)).2.nextDelay (101 / 100) = some (1 / 25) ∧
        (101 / 100 : Rat) < 1 + 1 / 25 := by
  have hopen : ∃ s, Session.open TwoPictures.host "" {} (0 : Nat) 0 = .ok s ∧
      let p := s.run TwoPictures.paused
      s.renewedIn false TwoPictures.paused = false ∧ p.paused = false ∧
        (∀ x ∈ p.passed (101 / 100), x.2 = .stale) ∧
        (p.refresh (101 / 100)).2.nextDelay (101 / 100) = some (1 / 25) :=
    ⟨_, rfl, by decide +kernel⟩
  obtain ⟨s, hs, hkept, hrun, hstale, hdelay⟩ := hopen
  have htime : (TwoPictures.paused.map (·.1)).getLastD 0 = 1 := by decide +kernel
  have hlaws := frame_timer_in_time hs (le_refl 0) TwoPictures.paused (by decide +kernel)
  rw [htime] at hlaws
  refine ⟨s, hs, hkept, hlaws.past hkept, hdelay, ?_⟩
  generalize s.run TwoPictures.paused = p at hlaws hrun hstale hdelay
  exact hlaws.waits hkept [] _ _ hrun rfl hstale hdelay

/-- The picture that the seek leads to renews the timer in the pause, and when the pause ends the
timer is a second ahead. -/
theorem frame_timer_ahead :
    ∃ s, Session.open TwoPictures.host "" {} (0 : Nat) 0 = .ok s ∧
      (0 :: TwoPictures.sought.map (·.1)).Pairwise (· ≤ ·) ∧
      (TwoPictures.sought.map (·.1)).getLast? = some (21 / 20) ∧
      (s.run TwoPictures.sought).frameTimer = 41 / 20 := by
  refine ⟨_, rfl, ?_⟩
  decide +kernel

end Playback
