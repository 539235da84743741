import Playback.Session.Basic

/-!
# Pausing, stepping and seeking

What a user asks of a running session. Pausing takes effect at once, on all clocks. A seek is only
noted; the reader performs it at the top of its loop, and until then further seeks are ignored.
-/

namespace Playback

namespace Session

variable {S : Type} [Scalar S] {host : Host S}

/-! ### Pausing -/

/-- Pauses or resumes. On resuming, the frame timer moves on by as long as the video clock stood
still, so that the picture on screen is not late all of a sudden. -/
def switchPause (s : Session host) (now : S) : Session host :=
  let frozen : S :=
    match s.videoStream with
    | some v => now - v.clock.lastUpdated
    | none => 0.0
  let timer :=
    match s.paused, s.videoStream with
    | true, some _ => s.frameTimer + frozen
    | _, _ => s.frameTimer
  let paused := !s.paused
  let s := s.onVideo fun v => { v with clock := v.clock.setPaused paused now }
  let s := s.onAudio fun a => { a with clock := a.clock.setPaused paused now }
  { s with
    frameTimer := timer
    externalClock := s.externalClock.setPaused paused now
    paused := paused }

/-- The user's pause key: pauses or resumes, and gives up a step under way. -/
def togglePause (s : Session host) (now : S) : Session host :=
  { s.switchPause now with stepping := false }

/-- Shows the next picture and then pauses. -/
def step (s : Session host) (now : S) : Session host :=
  let s := if s.paused then s.switchPause now else s
  { s with stepping := true }

/-! ### Seeking -/

/-- Notes a seek unless one is pending. -/
def requestSeek (s : Session host) (target relative : Int) (byBytes : Bool) : Session host :=
  if s.seekPending.isSome then s
  else
    { s with seekPending := some ⟨target, relative, byBytes⟩, lastSeekTarget := target }

/-- Bytes per second that are assumed if a source does not tell its bit rate. -/
def defaultByteRate : S := 180000.0

/-- Bytes per second of the source. -/
def byteRate (s : Session host) : S :=
  match s.source.bitRate with
  | some bits => if 0 < bits then Scalar.ofNat bits / 8.0 else defaultByteRate
  | none => defaultByteRate

/-- The byte position that is being played: that of the picture on screen, else of the sound, else
of the last packet read. -/
def bytePosition (s : Session host) : Int :=
  let video := s.videoStream.bind fun v => v.frames.lastShownPos v.packets.serial
  let audio := s.audioStream.bind fun a => a.frames.lastShownPos a.packets.serial
  (video.or audio).getD (max s.lastPacketPos 0)

/-- The time that is being played: that of the leading clock, else the target of the last seek. -/
def timePosition (s : Session host) (now : S) : S :=
  (s.masterClock now).getD (Scalar.ofInt (max s.lastSeekTarget 0) / 1000000.0)

/-- Seeks by a number of seconds. -/
def seekBySeconds (s : Session host) (delta now : S) : Session host :=
  if s.seeksByBytes then
    let bytes := Scalar.toInt64 (delta * s.byteRate)
    s.requestSeek (s.bytePosition + bytes) bytes true
  else
    let position := s.timePosition now + delta
    let position :=
      match s.source.startTime with
      | some start => if position < start then start else position
      | none => position
    s.requestSeek (Scalar.toInt64 (position * 1000000.0)) (Scalar.toInt64 (delta * 1000000.0)) false

/-- Seeks by a number of milliseconds. -/
def seek (s : Session host) (millis : Int) (now : S) : Session host :=
  s.seekBySeconds (Scalar.ofInt millis / 1000.0) now

/-! ### Chapters -/

/-- The number of the chapter that is being played, -1 before the first one. -/
def currentChapter (s : Session host) (now : S) : Int :=
  let position := (s.masterClock now).getD 0.0
  match s.source.chapters.reverse.findIdx? (fun c => c.start ≤ position) with
  | some fromEnd => s.source.chapters.length - 1 - fromEnd
  | none => -1

/-- Seeks to the start of the chapter so many after the current one; no seek if there is none. -/
def seekChapter (s : Session host) (steps : Int) (now : S) : Session host :=
  match s.source.chapters[(max (s.currentChapter now + steps) 0).toNat]? with
  | some chapter => s.requestSeek (Scalar.toInt64 (chapter.start * 1000000.0)) 0 false
  | none => s

/-- Milliseconds of a jump in a source without chapters. -/
def jumpMillis : Int := 60000

/-- Seeks to the next chapter, or forward by a minute if there is no more than one. -/
def nextChunk (s : Session host) (now : S) : Session host :=
  if 1 < s.source.chapters.length then s.seekChapter 1 now else s.seek jumpMillis now

/-- Seeks to the previous chapter, or back by a minute if there is no more than one. -/
def previousChunk (s : Session host) (now : S) : Session host :=
  if 1 < s.source.chapters.length then s.seekChapter (-1) now else s.seek (-jumpMillis) now

end Session

end Playback
