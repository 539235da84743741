import Playback.Proofs.Session.PausedSession
import Playback.Proofs.Session.ReaderCalls

/-!
# Single steps

A session that steps shows the next picture that is due and then pauses. Until the user gives the
step up or asks for something else, nothing but that happens: no picture is passed over because it
is late (`refreshRound_of_stepping`), and the refresh that shows a picture is also the one that
pauses (`refresh_of_stepping`). In the pause no more pictures are shown, and the step stays.
-/

namespace Playback

open FrameRing

namespace Session

variable {S : Type} [Scalar S] {host : Host S} {s s' : Session host} {now : S}

/-! ## A refresh while stepping -/

theorem passesOver_of_stepping (hstep : s.stepping = true) (v : Stream S (VideoFrame S))
    (current : FrameTiming S) (now : S) : s.passesOver v current now = false := by
  unfold passesOver
  rw [hstep]
  cases v.frames.second? with
  | none => exact Bool.and_false _
  | some next => simp

/-- What a look at the ring comes to while a running session steps. -/
inductive StepLooks (s : Session host) (v : Stream S (VideoFrame S)) :
    RefreshRound (S × Session host) → Prop
  | waits {r : S × Session host} (hrun : r.2.paused = false) (hforced : r.2.refreshForced = false) :
      StepLooks s v (.done r)
  | shows {r : S × Session host} {f : VideoFrame S} (hnext : v.frames.next? = some f)
      (hpaused : r.2.paused = true) (hforced : r.2.refreshForced = true) : StepLooks s v (.done r)
  | stale {remaining : S} {f : VideoFrame S} (hnext : v.frames.next? = some f)
      (hserial : f.serial ≠ v.packets.serial) : StepLooks s v (.again (remaining, s.advanceRing))

theorem refreshRound_of_stepping (hstep : s.stepping = true) (hrun : s.paused = false)
    (hforced : s.refreshForced = false) (v : Stream S (VideoFrame S)) (remaining now : S) :
    StepLooks s v (s.refreshRound v remaining now) := by
  have hcase := s.lookCase_refreshRound v remaining now
  generalize s.refreshRound v remaining now = round at hcase ⊢
  have hstepping {current : VideoFrame S} {shown : Session host}
      (hdue : s.Due v now current shown) : shown.stepping = true :=
    (congrArg Dealings.stepping ((keptByRefresh_dealings now).due hdue)).trans hstep
  cases hcase with
  | nothing | waits => exact .waits hrun hforced
  | stale hnext hserial => exact .stale hnext hserial
  | paused hpaused => cases hpaused.symm.trans hrun
  | late hdue hlate =>
    cases hlate.symm.trans (passesOver_of_stepping (hstepping hdue) v _ now)
  | @shows current shown hdue =>
    refine .shows hdue.next ?_ forced_showNext
    have hrunning := paused_of_due hdue
    have hclocks : (shown.showNext now).clocks = shown.clocks.switched now := by
      rw [clocks_showNext, hstepping hdue, hrunning]
      rfl
    refine (congrArg Clocks.paused hclocks).trans ?_
    show (!shown.paused) = true
    rw [hrunning]
    rfl

/-- While a session steps, a refresh passes over nothing that is late, and it pauses if and only if
it shows a picture. -/
theorem advanceVideo_of_stepping (n : Nat) (s : Session host) (remaining now : S)
    (hstep : s.stepping = true) (hrun : s.paused = false) (hforced : s.refreshForced = false) :
    (∀ x ∈ passes n s remaining now, x.2 ≠ .late) ∧
      (advanceVideo n s remaining now).2.paused =
        (passes n s remaining now).any (·.2 = .shown) := by
  induction n generalizing s remaining with
  | zero => exact ⟨List.forall_mem_nil _, hrun⟩
  | succ n ih =>
    unfold advanceVideo passes
    cases s.videoStream with
    | none => exact ⟨List.forall_mem_nil _, hrun⟩
    | some v =>
      dsimp only
      split
      · exact ⟨List.forall_mem_nil _, hrun⟩
      have hlooks := refreshRound_of_stepping hstep hrun hforced v remaining now
      generalize s.refreshRound v remaining now = round at hlooks ⊢
      cases hlooks with
      | waits hrun' hforced' => simp [RefreshRound.taken?, hforced', hrun']
      | shows hnext hpaused hforced' => simp [RefreshRound.taken?, hforced', hnext, hpaused]
      | @stale remaining f hnext hserial =>
        obtain ⟨hlate, hpauses⟩ := ih s.advanceRing remaining hstep hrun hforced
        rw [taken?_stale hnext hserial]
        have hstale : Fate.stale ≠ .late := by decide
        refine ⟨List.forall_mem_cons.2 ⟨hstale, hlate⟩, hpauses.trans ?_⟩
        simp

theorem refresh_of_stepping (hstep : s.stepping = true) (hrun : s.paused = false)
    (hforced : s.refreshForced = false) (now : S) :
    (∀ x ∈ s.passed now, x.2 ≠ .late) ∧
      (s.refresh now).2.paused = (s.passed now).any (·.2 = .shown) := by
  have hadjusted := (keptByRefresh_dealings now).adjusted s
  obtain ⟨hflows, -⟩ := s.adjusted_spec now
  have hrun' : (s.adjusted now).paused = false := by
    rcases s.clocks_adjusted now with ⟨hpaused, -⟩ | ⟨-, external, hclocks⟩
    · exact absurd (hrun.symm.trans hpaused) Bool.false_ne_true
    · exact (congrArg Clocks.paused hclocks).trans hrun
  have hlast : (s.refresh now).2.paused = (s.looked now).2.paused :=
    congrArg Clocks.paused (clocks_acceptPicture (s := (s.looked now).2) now)
  obtain ⟨hlate, hpauses⟩ := advanceVideo_of_stepping ((s.adjusted now).pictures + 1)
    (s.adjusted now) (s.adjusted now).options.refreshRate now
    ((congrArg Dealings.stepping hadjusted).trans hstep) hrun'
    ((congrArg Flows.forced hflows).trans hforced)
  exact ⟨hlate, hlast.trans hpauses⟩

/-- The refresh that shows a picture is the one that pauses, and in a pause none is shown. -/
theorem refresh_of_step (h : s.InOrder) (hstep : s.stepping = true) (now : S) :
    (s.passed now).countP (·.2 = .late) = 0 ∧
      (s.refresh now).2.paused.toNat = s.paused.toNat + (s.passed now).countP (·.2 = .shown) := by
  cases hpaused : s.paused with
  | true =>
    obtain ⟨hstale, timer, -, hrefresh⟩ := refresh_of_paused hpaused h.forced now
    have hnone (fate : Fate) (hfate : fate ≠ .stale) :
        (s.passed now).countP (·.2 = fate) = 0 := by
      refine List.countP_eq_zero.2 fun x hx => ?_
      simpa [hstale x hx] using hfate.symm
    have hpaused' : (s.refresh now).2.paused = true :=
      (congrArg Session.paused hrefresh).trans hpaused
    rw [hpaused', hnone .late nofun, hnone .shown nofun]
    exact ⟨rfl, rfl⟩
  | false =>
    obtain ⟨hlate, hpauses⟩ := refresh_of_stepping hstep hpaused h.forced now
    obtain ⟨hany, hcount⟩ := accepts_looked h.forced h.books now
    refine ⟨List.countP_eq_zero.2 fun x hx => ?_, ?_⟩
    · simpa using hlate x hx
    · rw [hpauses, ← hcount, hany]
      exact (Nat.zero_add _).symm

/-! ## Everything else -/

theorem paused_perform {action : Action} (hquiet : action.isQuiet = true)
    (hrefresh : action ≠ .refresh) (hseek : action = .readerTurn → s.seekSucceeds now = false) :
    (s.perform now action).paused = s.paused := by
  have hsame {s' : Session host} (hclocks : s'.clocks = s.clocks) : s'.paused = s.paused :=
    congrArg Clocks.paused hclocks
  have haudio (take : Bool) : (s.audioTurn take now).2.paused = s.paused := by
    rcases s.clocks_audioTurn take now with hclocks | hclocks
    · exact hsame hclocks
    · exact congrArg Clocks.paused hclocks
  cases action with
  | start => exact hsame clocks_start
  | takePicture => exact hsame clocks_takePicture
  | refresh => exact absurd rfl hrefresh
  | audioStep => exact haudio true
  | audioDecode => exact haudio false
  | videoStep =>
    rcases s.clocks_videoStep now with hclocks | hclocks
    · exact hsame hclocks
    · exact congrArg Clocks.paused hclocks
  | readerTurn =>
    have hturned := s.clocks_readerTurn now
    rw [hseek rfl] at hturned
    refine hsame ?_
    unfold Session.perform
    generalize (s.readerTurn now).clocks = c at hturned ⊢
    cases hturned with
    | stays => rfl
  | fill count volume =>
    have hfilled := s.filled_fill count volume now
    have hpaused : (s.fill count volume now).2.clocks.paused = s.clocks.paused := by
      generalize (s.fill count volume now).2.clocks = c at hfilled ⊢
      cases hfilled <;> rfl
    exact hpaused
  | _ => cases hquiet

/-- Only a refresh shows pictures or passes over late ones. -/
theorem counts_perform {action : Action} (hquiet : action.isQuiet = true)
    (hrefresh : action ≠ .refresh) (now : S) :
    (s.perform now action).displayState.lateDrops = s.displayState.lateDrops ∧
      (s.perform now action).displayState.displayed = s.displayState.displayed := by
  have hcounts {s' : Session host} {pending : Bool} {early : Nat}
      (hdisplay : s'.displayState =
        { s.displayState with pending := pending, earlyDrops := early }) :
      s'.displayState.lateDrops = s.displayState.lateDrops ∧
        s'.displayState.displayed = s.displayState.displayed :=
    ⟨by rw [hdisplay], by rw [hdisplay]⟩
  cases action with
  | start => exact hcounts displayState_start
  | readerTurn => exact hcounts displayState_readerTurn
  | audioStep => exact hcounts (displayState_audioTurn true)
  | audioDecode => exact hcounts (displayState_audioTurn false)
  | fill count volume => exact hcounts (displayState_fill count volume)
  | refresh => exact absurd rfl hrefresh
  | takePicture => exact hcounts displayState_takePicture
  | videoStep =>
    obtain ⟨v, -, hdisplay, -⟩ := s.works_videoStep now
    exact hcounts hdisplay
  | _ => cases hquiet

/-- Nobody but the user gives a step up. -/
theorem stepping_perform (hsent : s.Unreported) (hstep : s.stepping = true) {action : Action}
    (hquiet : action.isQuiet = true) (now : S) : (s.perform now action).stepping = true := by
  have hsame (h : action.isDealing = false) : (s.perform now action).stepping = true :=
    (congrArg Dealings.stepping (dealings_perform h now)).trans hstep
  cases action with
  | readerTurn =>
    cases calling_readerTurn hsent now with
    | rests hdealings => exact (congrArg Dealings.stepping hdealings).trans hstep
    | works _ _ hdealings | ends _ _ _ hdealings =>
      refine (congrArg Dealings.stepping hdealings).trans ?_
      rw [worked, hstep]
      rfl
  | start | videoStep | audioStep | audioDecode | refresh | takePicture | fill _ _ =>
    exact hsame rfl
  | _ => cases hquiet

theorem quiet_append (s : Session host) (actions rest : List (S × Action)) :
    s.quiet (actions ++ rest) = (s.quiet actions && (s.run actions).quiet rest) := by
  induction actions generalizing s with
  | nil => rfl
  | cons a actions ih =>
    rw [List.cons_append, quiet, quiet, ih, ← Bool.and_assoc]
    rfl

/-- A step was just asked for: by the user, or by a seek that the reader has performed in a
pause. -/
inductive JustStepped (s : Session host) (now : S) : Session host → Prop
  | user : JustStepped s now (s.step now)
  | seek (hpaused : s.paused = true) (hseek : s.seekSucceeds now = true) :
      JustStepped s now (s.readerTurn now)

theorem JustStepped.exists_perform {p : Session host} (h : s.JustStepped now p) :
    ∃ action, p = s.perform now action := by
  cases h with
  | user => exact ⟨.step, rfl⟩
  | seek => exact ⟨.readerTurn, rfl⟩

theorem JustStepped.spec {p : Session host} (h : s.JustStepped now p) (hsent : s.Unreported) :
    p.stepping = true ∧ p.paused = false := by
  cases h with
  | user =>
    refine ⟨congrArg Dealings.stepping (s.dealings_step now), ?_⟩
    have hclocks := s.clocks_step now
    refine (congrArg Clocks.paused hclocks).trans ?_
    cases hpaused : s.paused with
    | false => exact hpaused
    | true =>
      show (!s.paused) = false
      rw [hpaused]
      rfl
  | seek hpaused hseek =>
    refine ⟨?_, seek_ends_pause hpaused hseek⟩
    cases calling_readerTurn hsent now with
    | rests _ hsought => exact absurd (hseek.symm.trans hsought) Bool.noConfusion
    | works _ _ hdealings | ends _ _ _ hdealings =>
      refine (congrArg Dealings.stepping hdealings).trans ?_
      rw [worked, hpaused, hseek]
      exact Bool.or_true _

end Session

/-! ## Runs after a step -/

/-- What has come of a step since `p`, where it was asked for, by the book begun there. -/
structure OneStep {S : Type} [Scalar S] {host : Host S} (p : Session host)
    (b : PictureBook host) : Prop where
  /-- The step is not given up. -/
  stepping : b.session.stepping = true
  /-- No picture was passed over because it was late. -/
  late : b.fates .late = 0
  /-- At most one picture was shown, and the session is paused since then. -/
  shown : b.fates .shown = b.session.paused.toNat
  lateDrops : b.session.metrics.lateDrops = p.metrics.lateDrops
  displayed : b.session.metrics.displayed = p.metrics.displayed + b.session.paused.toNat

namespace OneStep

variable {S : Type} [Scalar S] {host : Host S} {p : Session host} {b : PictureBook host} {now : S}

theorem start (hstep : p.stepping = true) (hrun : p.paused = false) : OneStep p (.start p) := by
  have hnone : p.paused.toNat = 0 := by rw [hrun]; rfl
  refine ⟨hstep, rfl, hnone.symm, rfl, ?_⟩
  show p.metrics.displayed = p.metrics.displayed + p.paused.toNat
  rw [hnone, Nat.add_zero]

theorem refresh (h : OneStep p b) (horder : b.session.InOrder)
    (hstep : (b.session.refresh now).2.stepping = true) : OneStep p (b.perform now .refresh) := by
  obtain ⟨hlate, hpauses⟩ := Session.refresh_of_step horder h.stepping now
  obtain ⟨-, hcount⟩ := Session.accepts_looked horder.forced horder.books now
  have hdisplay := Session.displayState_refresh horder.forced now
  rw [hlate, hcount] at hdisplay
  refine ⟨hstep, ?_, ?_, ?_, ?_⟩
  · calc (b.taken ++ b.session.passed now).countP (·.2 = .late)
        = b.fates .late + 0 := by rw [List.countP_append, hlate]; rfl
      _ = 0 := h.late
  · calc (b.taken ++ b.session.passed now).countP (·.2 = .shown)
        = b.fates .shown + (b.session.passed now).countP (·.2 = .shown) := List.countP_append ..
      _ = (b.session.refresh now).2.paused.toNat := by rw [h.shown, hpauses]
  · exact (congrArg DisplayState.lateDrops hdisplay).trans h.lateDrops
  · calc (b.session.refresh now).2.metrics.displayed
        = b.session.metrics.displayed + (b.session.passed now).countP (·.2 = .shown) :=
          congrArg DisplayState.displayed hdisplay
      _ = p.metrics.displayed + (b.session.refresh now).2.paused.toNat := by
          rw [h.displayed, hpauses, Nat.add_assoc]

theorem perform (h : OneStep p b) (horder : b.session.InOrder) (hsent : b.session.Unreported)
    {action : Session.Action} (hquiet : action.isQuiet = true)
    (hseek : action = .readerTurn → b.session.seekSucceeds now = false) :
    OneStep p (b.perform now action) := by
  have hstep := Session.stepping_perform hsent h.stepping hquiet now
  by_cases hrefresh : action = .refresh
  · subst hrefresh
    exact h.refresh horder hstep
  · have hpaused := Session.paused_perform hquiet hrefresh hseek
    obtain ⟨hlate, hdisplayed⟩ := Session.counts_perform (s := b.session) hquiet hrefresh now
    have hbook : (b.perform now action).taken = b.taken := by
      cases action with
      | refresh => exact absurd rfl hrefresh
      | start | readerTurn | videoStep | audioStep | audioDecode | takePicture | fill _ _ => rfl
      | _ => cases hquiet
    have hfates (fate : Fate) : (b.perform now action).fates fate = b.fates fate :=
      congrArg (·.countP (·.2 = fate)) hbook
    have hsession := b.session_perform now action
    refine ⟨?_, (hfates .late).trans h.late, (hfates .shown).trans ?_, ?_, ?_⟩
    all_goals rw [hsession]
    · exact hstep
    · rw [hpaused]
      exact h.shown
    · exact hlate.trans h.lateDrops
    · rw [hpaused]
      exact hdisplayed.trans h.displayed

theorem run (h : OneStep p b) (horder : b.session.InOrder) (hsent : b.session.Unreported)
    {actions : List (S × Session.Action)} (hquiet : b.session.quiet actions = true) :
    OneStep p (b.run actions) := by
  induction actions generalizing b with
  | nil => exact h
  | cons a actions ih =>
    unfold Session.quiet at hquiet
    obtain ⟨hhere, hrest⟩ := Bool.and_eq_true_iff.1 hquiet
    obtain ⟨haction, hturn⟩ := Bool.and_eq_true_iff.1 hhere
    have hseek : a.2 = .readerTurn → b.session.seekSucceeds a.1 = false := by
      intro hreader
      simpa [hreader] using hturn
    have hsession := b.session_perform a.1 a.2
    refine ih (h.perform horder hsent haction hseek) ?_ ?_ ?_
    all_goals rw [hsession]
    · exact horder.perform a.1 a.2
    · exact hsent.perform a.1 a.2
    · exact hrest

end OneStep

namespace Stepping

open PictureScript in
/-- Four packets with one picture each. -/
def host : Host Rat :=
  Host.scripted (script 1 #[.row (row 0), .row (row 1), .row (row 2), .row (row 3)] none) {}

/-- The packets are read, the first picture is shown, and playback is paused. -/
def before : List (Rat × Session.Action) :=
  (0, .start) :: List.replicate 4 (0, .readerTurn) ++ List.replicate 8 (0, .videoStep) ++
    [(1 / 20, .refresh), (1 / 20, .takePicture), (1 / 5, .togglePause)]

/-- Long after the step, all pictures that wait are late. -/
def after : List (Rat × Session.Action) :=
  [(9, .refresh), (9, .takePicture), (9, .videoStep), (10, .refresh)]

end Stepping

/-- A step shows at most one picture. Let a step be asked for, whatever the session has done since
it was opened, and then let its reader, its decode loops, the display and the audio device go on, in
any order and at any moments, without a toggle, another step, a switch or a seek. At every point of
this run no picture was passed over because it was late, and at most one was shown; the session is
paused if and only if one was. -/
theorem step_shows_one {S : Type} [Scalar S] {host : Host S} {uri : String} {options : Options S}
    {screen : host.Screen} {opened : S} {s : Session host}
    (hopen : Session.open host uri options screen opened = .ok s)
    (before : List (S × Session.Action)) {now : S} {p : Session host}
    (hstep : (s.run before).JustStepped now p) {actions : List (S × Session.Action)}
    (hquiet : p.quiet actions = true) {first : List (S × Session.Action)}
    (hfirst : first <+: actions) :
    let b := (PictureBook.start p).run first
    b.session = p.run first ∧ OneStep p b := by
  have horder : (s.run before).InOrder := (Session.InOrder.start hopen).run before
  have hsent : (s.run before).Unreported := (Session.Unreported.start hopen).run before
  obtain ⟨hstepping, hrun⟩ := hstep.spec hsent
  obtain ⟨action, rfl⟩ := hstep.exists_perform
  obtain ⟨rest, rfl⟩ := hfirst
  rw [Session.quiet_append] at hquiet
  exact ⟨PictureBook.session_run _ first, (OneStep.start hstepping hrun).run
    (horder.perform now action) (hsent.perform now action) (Bool.and_eq_true_iff.1 hquiet).1⟩

/-- A step from a pause that lasted until all pictures were late. -/
theorem step_shows_one_late :
    ∃ s, Session.open Stepping.host "" {} (0 : Nat) 0 = .ok s ∧
      let p := (s.run Stepping.before).step (1 / 5)
      let b := (PictureBook.start p).run Stepping.after
      p.quiet Stepping.after = true ∧ b.fates .shown = 1 ∧ b.session.paused = true ∧
        (b.session.videoStream.map (·.frames.remaining)) = some 2 ∧ OneStep p b := by
  have hopen : ∃ s, Session.open Stepping.host "" {} (0 : Nat) 0 = .ok s ∧
      let p := (s.run Stepping.before).step (1 / 5)
      let b := (PictureBook.start p).run Stepping.after
      p.quiet Stepping.after = true ∧ b.fates .shown = 1 ∧ b.session.paused = true ∧
        (b.session.videoStream.map (·.frames.remaining)) = some 2 :=
    ⟨_, rfl, by decide +kernel⟩
  obtain ⟨s, hs, hquiet, hshown, hpaused, htwo⟩ := hopen
  obtain ⟨-, hone⟩ := step_shows_one hs Stepping.before .user hquiet (List.prefix_refl _)
  exact ⟨s, hs, hquiet, hshown, hpaused, htwo, hone⟩

end Playback
