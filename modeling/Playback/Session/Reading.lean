import Playback.Session.Transport

/-!
# The reader

One turn of the reader's loop has two parts. `Session.readerTop` does what has to be done whether
or not anything is read: it forwards a pause to the container, performs a pending seek, queues the
single picture of a stream that has one, and decides whether to read on, to wait because enough is
queued, or to end the session because everything was played. `Session.readPacket` then takes one
packet from the container to the stream that it belongs to, or notes the end of the source.
-/

namespace Playback

namespace Session

variable {S : Type} [Scalar S] {host : Host S}

/-! ### Seeking -/

/-- Starts a new epoch everywhere after the container has moved to `target`. A paused session
shows the first picture there. -/
def enterEpoch (s : Session host) (r : SeekRequest) (now : S) : Session host :=
  let restart {α : Type} (stream : Stream S α) : Stream S α :=
    { stream with packets := stream.packets.restart }
  let s := (s.onAudio restart).onVideo restart
  let clock :=
    if r.byBytes then s.externalClock.clearAt 0 now
    else s.externalClock.setAt (Scalar.ofInt r.target / 1000000.0) 0 now
  let s :=
    { s with
      externalClock := clock
      attachmentDue := true
      atEnd := false
      metrics := s.metrics.resetDrift }
  if s.paused then s.step now else s

/-- Moves the container and starts a new epoch. If the container fails, all else stays. -/
def performSeek (s : Session host) (r : SeekRequest) (now : S) :
    Except SourceFailure Unit × Session host :=
  let s := s.record (.seek r.range)
  match host.container.seek r.range s.medium with
  | (.error e, medium) => (.error e, { s with medium := medium })
  | (.ok _, medium) => (.ok (), { s with medium := medium }.enterEpoch r now)

/-! ### The top of the loop -/

/-- What the reader does next. -/
inductive ReaderGate where
  /-- It has left its loop. -/
  | ended
  /-- It waits because enough is queued. -/
  | full
  /-- It reads a packet. -/
  | ready
  deriving DecidableEq

/-- The reader leaves its loop because the source failed. -/
def failReader (s : Session host) (e : SourceFailure) : Session host :=
  { s.quit (.ofFailure e) with reader := .ended }

/-- Tells the container that playback was paused or resumed. -/
def forwardPause (s : Session host) (lastPaused : Bool) : Session host :=
  if s.paused = lastPaused then s
  else
    { s.record (.sourcePaused s.paused) with
      medium := host.container.setPaused s.paused s.medium
      reader := .running s.paused }

/-- Queues the single picture of the video stream, if that is due, and the end after it. -/
def queueAttachment (s : Session host) : Session host :=
  if !s.attachmentDue then s
  else
    let s := { s with attachmentDue := false }
    match s.videoStream with
    | some v =>
      if v.params.attachedPicture then
        let s := s.record (.attachedPicture v.params.index)
        match host.container.attachedPicture v.params.index s.medium with
        | some p => s.onVideo fun v => (v.queuePacket p).queueEntry .endOfStream
        | none => s
      else s
    | none => s

/-- Whether enough is queued: too many bytes in all, or enough in every open stream. -/
def buffersFull (s : Session host) : Bool :=
  let bytes {α : Type} (stream : Option (Stream S α)) : Nat :=
    (stream.map (·.packets.size)).getD 0
  s.options.maxQueueSize < bytes s.audioStream + bytes s.videoStream ||
    (s.audioStream.all (·.hasEnough s.options.minFrames) &&
      s.videoStream.all (·.hasEnough s.options.minFrames))

/-- Whether the decoder of a stream has finished the current epoch and all its frames are shown. -/
def playedOut {σ F α : Type} (p : Pipeline S σ F α) : Bool :=
  p.decoder.finished = some p.stream.packets.serial && p.stream.frames.remaining = 0

/-- Whether the source has ended and every open stream was played out. -/
def allPlayed (s : Session host) : Bool :=
  s.atEnd && s.audio.all playedOut && s.video.all playedOut

/-- What is left of the top of the loop when seeks are done. `paused` tells whether playback was
paused when the turn began. -/
def gate (s : Session host) (paused : Bool) : ReaderGate × Session host :=
  let s := s.queueAttachment
  if !s.readsAhead && s.buffersFull then (.full, s)
  else if s.allPlayed && !paused && s.options.autoExit then
    (.ended, { s.quit .endOfStream with reader := .ended })
  else (.ready, s)

/-- The top of the reader's loop. -/
def readerTop (s : Session host) (now : S) : ReaderGate × Session host :=
  match s.reader with
  | .waiting | .ended => (.ended, s)
  | .running lastPaused =>
    if s.aborted then (.ended, { s with reader := .ended })
    else
      let paused := s.paused
      let s := s.forwardPause lastPaused
      match s.seekPending with
      | none => s.gate paused
      | some r =>
        match s.performSeek r now with
        | (.error e, s) => (.ended, { s with seekPending := none }.failReader e)
        | (.ok _, s) => { s with seekPending := none }.gate paused

/-! ### Reading -/

/-- Takes a packet to the open stream that it belongs to. Packets of other streams, and those of a
stream with a single picture, are dropped. -/
def route (s : Session host) (p : Packet) : Session host :=
  let s := { s with lastPacketPos := p.pos.getD s.lastPacketPos }
  if s.audioStream.any (·.params.index = p.stream) then s.onAudio (·.queuePacket p)
  else if s.videoStream.any fun v => v.params.index = p.stream && !v.params.attachedPicture then
    s.onVideo (·.queuePacket p)
  else s

/-- Notes the end of the source and tells every open stream, the first time. -/
def reachEnd (s : Session host) : Session host :=
  if s.atEnd then s
  else
    { (s.onVideo (·.queueEntry .endOfStream)).onAudio (·.queueEntry .endOfStream) with
      atEnd := true }

/-- Reads a packet. -/
def readPacket (s : Session host) (now : S) : Session host :=
  let (outcome, medium) := host.container.read now s.medium
  let s := { s.record .read with medium := medium }
  match outcome with
  | .ok (.packet p) => { s with atEnd := false }.route p
  | .ok .endOfFile => s.reachEnd
  | .error .endOfFile => s.reachEnd
  | .error e => s.failReader e

/-- One turn of the reader's loop. -/
def readerTurn (s : Session host) (now : S) : Session host :=
  match s.readerTop now with
  | (.ready, s) => s.readPacket now
  | (_, s) => s

end Session

end Playback
