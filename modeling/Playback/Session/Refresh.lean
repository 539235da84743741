import Playback.Session.Transport
import Playback.Timing.ExternalSpeed
import Playback.Timing.TargetDelay

/-!
# Refreshing the display

`Session.refresh` is called on a steady tick. It looks at the pictures in the ring, moves on to
the next one when the one on screen has been there for its delay, passes over pictures that are
late if another one follows, and returns the seconds until the next call is of use.
`Session.takePicture` then gives the picture to display, once for each one accepted.
-/

namespace Playback

namespace Session

variable {S : Type} [Scalar S] {host : Host S}

/-- Keeps the queues of a live source from running dry or over, by the speed of the external
clock. -/
def adjustExternalSpeed (s : Session host) (now : S) : Session host :=
  let queued := (s.videoStream.map (·.packets.length)).toList ++
    (s.audioStream.map (·.packets.length)).toList
  match queued.min? with
  | none => s
  | some queued =>
    { s with
      externalClock := s.externalClock.setSpeed (externalSpeed s.externalClock.speed queued) now }

/-- Moves the ring of pictures on. -/
def advanceRing (s : Session host) : Session host :=
  s.onVideo fun v => { v with frames := v.frames.advance }

/-- Sets the video clock to a picture that is due, and lets the external clock follow. -/
def showTime (s : Session host) (current : FrameTiming S) (now : S) : Session host :=
  match current.pts with
  | none => s
  | some pts =>
    let s := s.onVideo fun v => { v with clock := v.clock.setAt pts current.serial now }
    match s.videoStream with
    | none => s
    | some v =>
      { s with
        externalClock :=
          s.externalClock.syncTo none v.clock (v.clockValue now) noSyncThreshold now }

/-- Whether the picture that is due is passed over: it is late, dropping is allowed, and another
picture follows. -/
def passesOver (s : Session host) (v : Stream S (VideoFrame S)) (current : FrameTiming S)
    (now : S) : Bool :=
  1 < v.frames.remaining &&
    match v.frames.second? with
    | none => false
    | some next =>
      let duration := frameDuration current next.toFrameTiming s.longestFrame
      !s.stepping && s.options.dropPolicy.allows s.master && s.frameTimer + duration < now

/-- The frame timer after a delay; it starts anew if it has fallen too far behind. -/
def timerAfter (timer delay now : S) : S :=
  let timer := timer + delay
  if (0.0 : S) < delay && syncThresholdMax < now - timer then now else timer

/-- What a look at the ring of pictures comes to. -/
inductive RefreshRound (α : Type) where
  /-- Nothing more is to be done. The number is the time until the next call is of use. -/
  | done (session : α)
  /-- A picture was passed over or thrown away; the ring is looked at again. -/
  | again (session : α)

/-- One look at the ring of pictures; `remaining` is the time until the next call so far. -/
def refreshRound (s : Session host) (v : Stream S (VideoFrame S)) (remaining now : S) :
    RefreshRound (S × Session host) :=
  match v.frames.last?, v.frames.next? with
  | some last, some current =>
    let last := last.toFrameTiming
    let current := current.toFrameTiming
    if current.serial ≠ v.packets.serial then .again (remaining, s.advanceRing)
    else
      let s := if last.serial ≠ current.serial then { s with frameTimer := now } else s
      if s.paused then .done (remaining, s)
      else
        let duration := frameDuration last current s.longestFrame
        let diff := gap (v.clockValue now) (s.masterClock now)
        let delay := targetDelay duration s.master diff s.longestFrame
        if now < s.frameTimer + delay then
          .done (Scalar.min (s.frameTimer + delay - now) remaining, s)
        else
          let s := { s with frameTimer := timerAfter s.frameTimer delay now }
          let s := s.showTime current now
          if s.passesOver v current now then
            .again (remaining, { s with metrics := s.metrics.recordLateDrop }.advanceRing)
          else
            let s := { s.advanceRing with refreshForced := true }
            .done (remaining, if s.stepping && !s.paused then s.switchPause now else s)
  | _, _ => .done (remaining, s)

/-- Looks at the ring until nothing more is to be done, at most so many times. -/
def advanceVideo : Nat → Session host → S → S → S × Session host
  | 0, s, remaining, _ => (remaining, s)
  | n + 1, s, remaining, now =>
    match s.videoStream with
    | none => (remaining, s)
    | some v =>
      if v.frames.remaining = 0 then (remaining, s)
      else
        match s.refreshRound v remaining now with
        | .done r => r
        | .again (remaining, s) => advanceVideo n s remaining now

/-- Accepts the picture that the ring moved to for display, and records its drift. Where that fails,
the metrics say so and the call has no result. -/
def acceptPicture (s : Session host) (now : S) : Session host :=
  match s.videoStream with
  | none => s
  | some v =>
    if s.refreshForced && v.frames.shown then
      let metrics := s.metrics.recordDisplay
      let metrics :=
        match gap (v.clockValue now) (s.masterClock now) with
        | some drift => metrics.recordDrift drift
        | none => metrics
      { s with displayPending := true, metrics := metrics }
    else s

/-- Refreshes the display. Gives the seconds until the next call is of use. -/
def refresh (s : Session host) (now : S) : S × Session host :=
  let s :=
    if !s.paused && s.master = .external && s.source.realtime then s.adjustExternalSpeed now
    else s
  let looks := (s.videoStream.map (·.frames.remaining)).getD 0 + 1
  let (remaining, s) := advanceVideo looks s s.options.refreshRate now
  (remaining, { s.acceptPicture now with refreshForced := false })

/-- The picture on screen, if one was accepted since the last call. -/
def takePicture (s : Session host) : Option (VideoFrame S) × Session host :=
  if s.displayPending then
    (s.videoStream.bind (·.frames.last?), { s with displayPending := false })
  else (none, s)

end Session

end Playback
