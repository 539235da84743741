import Playback.Session.Run

/-!
# A refresh, look by look

A refresh looks at the first picture in the ring that was not shown yet, and it looks again as long
as it takes one that it does not show. `Session.LookCase` lists what one look may come to, with all
that is known then. Only `lookCase_refreshRound` takes the look itself apart.
-/

namespace Playback

namespace Session

variable {S : Type} [Scalar S] {host : Host S} {s : Session host} {now : S}

/-! ## What a look comes to -/

/-- The frame timer from which the delay of the picture `current` counts. It starts anew if the
picture on screen is of another epoch. -/
def timerFor (s : Session host) (last current : FrameTiming S) (now : S) : S :=
  if last.serial ≠ current.serial then now else s.frameTimer

/-- How long the picture `last` stays on screen before `current` is due. -/
def delayOf (s : Session host) (v : Stream S (VideoFrame S)) (last current : FrameTiming S)
    (now : S) : S :=
  targetDelay (frameDuration last current s.longestFrame) s.master
    (gap (v.clockValue now) (s.masterClock now)) s.longestFrame

/-- The picture `current` has to wait until `last` was on screen for its delay. -/
def Waits (s : Session host) (v : Stream S (VideoFrame S)) (last current : FrameTiming S)
    (now : S) : Prop :=
  now < s.timerFor last current now + s.delayOf v last current now

/-- The picture `current` is due at the moment `now`, and `shown` is the session whose clocks it has
set. -/
structure Due (s : Session host) (v : Stream S (VideoFrame S)) (now : S) (current : VideoFrame S)
    (shown : Session host) : Prop where
  next : v.frames.next? = some current
  serial : current.serial = v.packets.serial
  running : s.paused = false
  timed : ∃ last, v.frames.last? = some last ∧
    ¬ s.Waits v last.toFrameTiming current.toFrameTiming now ∧
    shown = ({ s with
      frameTimer := timerAfter (s.timerFor last.toFrameTiming current.toFrameTiming now)
        (s.delayOf v last.toFrameTiming current.toFrameTiming now) now } : Session host).showTime
      current.toFrameTiming now

/-- The picture that is due is passed over. -/
def passNext (s : Session host) : Session host :=
  { s with metrics := s.metrics.recordLateDrop }.advanceRing

/-- The picture that is due is shown, and a session that steps pauses with it. -/
def showNext (s : Session host) (now : S) : Session host :=
  let s := { s.advanceRing with refreshForced := true }
  if s.stepping && !s.paused then s.switchPause now else s

/-- What one look at the ring may come to. -/
inductive LookCase (s : Session host) (v : Stream S (VideoFrame S)) (remaining now : S) :
    RefreshRound (S × Session host) → Prop
  | nothing (hnone : v.frames.last? = none ∨ v.frames.next? = none) :
      LookCase s v remaining now (.done (remaining, s))
  | stale {current : VideoFrame S} (hnext : v.frames.next? = some current)
      (hserial : current.serial ≠ v.packets.serial) :
      LookCase s v remaining now (.again (remaining, s.advanceRing))
  | paused {timer : S} (hpaused : s.paused = true) (htimer : timer = s.frameTimer ∨ timer = now) :
      LookCase s v remaining now (.done (remaining, { s with frameTimer := timer }))
  | waits {last current : VideoFrame S} {r timer : S} (hlast : v.frames.last? = some last)
      (hnext : v.frames.next? = some current) (hrun : s.paused = false)
      (htimer : timer = s.timerFor last.toFrameTiming current.toFrameTiming now)
      (hwaits : s.Waits v last.toFrameTiming current.toFrameTiming now) :
      LookCase s v remaining now (.done (r, { s with frameTimer := timer }))
  | late {current : VideoFrame S} {shown : Session host} (hdue : s.Due v now current shown)
      (hlate : shown.passesOver v current.toFrameTiming now = true) :
      LookCase s v remaining now (.again (remaining, shown.passNext))
  | shows {current : VideoFrame S} {shown : Session host} (hdue : s.Due v now current shown)
      (hkept : shown.passesOver v current.toFrameTiming now = false) :
      LookCase s v remaining now (.done (remaining, shown.showNext now))

theorem lookCase_refreshRound (s : Session host) (v : Stream S (VideoFrame S))
    (remaining now : S) : s.LookCase v remaining now (s.refreshRound v remaining now) := by
  unfold refreshRound
  cases hlast : v.frames.last? with
  | none => exact .nothing (.inl hlast)
  | some last =>
    cases hnext : v.frames.next? with
    | none => exact .nothing (.inr hnext)
    | some current =>
      dsimp only
      by_cases hserial : current.serial ≠ v.packets.serial
      · rw [if_pos hserial]
        exact .stale hnext hserial
      rw [if_neg hserial]
      rw [Decidable.not_not] at hserial
      have htimed : (if last.serial ≠ current.serial then { s with frameTimer := now } else s) =
          { s with frameTimer := s.timerFor last.toFrameTiming current.toFrameTiming now } := by
        unfold timerFor
        split <;> rfl
      rw [htimed]
      split
      · rename_i hpaused
        refine .paused hpaused ?_
        unfold timerFor
        split
        · exact .inr rfl
        · exact .inl rfl
      rename_i hrun
      rw [Bool.not_eq_true] at hrun
      split
      · rename_i hwaits
        exact .waits hlast hnext hrun rfl hwaits
      · rename_i hpast
        generalize hshown : showTime (S := S) _ _ _ = shown
        have hdue : s.Due v now current shown :=
          ⟨hnext, hserial, hrun, last, hlast, hpast, hshown.symm⟩
        cases hlate : shown.passesOver v current.toFrameTiming now with
        | true => exact .late hdue hlate
        | false => exact .shows hdue hlate

/-! ## A refresh -/

/-- The session in which a refresh begins to look at the ring. -/
def adjusted (s : Session host) (now : S) : Session host :=
  if !s.paused && s.master = .external && s.source.realtime then s.adjustExternalSpeed now else s

/-- The session when a refresh has looked at the ring of pictures, before it accepts one, and the
time until the next refresh. -/
def looked (s : Session host) (now : S) : S × Session host :=
  let s :=
    if !s.paused && s.master = .external && s.source.realtime then s.adjustExternalSpeed now
    else s
  let looks := (s.videoStream.map (·.frames.remaining)).getD 0 + 1
  advanceVideo looks s s.options.refreshRate now

theorem refresh_eq (s : Session host) (now : S) :
    s.refresh now = ((s.looked now).1,
      { (s.looked now).2.acceptPicture now with refreshForced := false }) :=
  rfl

end Session

end Playback
