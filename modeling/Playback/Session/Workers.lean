import Playback.Session.DecodeLoop
import Playback.Session.Reading

/-!
# Letting the workers run

The reader and the two decode loops are independent of each other. `Session.settle` lets them run
in turns, each as far as it gets, until none of them can do anything: the reader has reached the
end of the source, or enough is queued, or it may not read any more; a decode loop has emptied its
packet queue, or has a frame that its ring has no room for. The end of the source is read once
for each seek.

The video loop waits with a picture that the presentation has taken into a buffer, so the picture
goes into the ring whatever happens meanwhile. The audio loop waits inside the call to its codec,
so its decoder drops the sound if a new epoch has begun when the ring has room again.

A container may go on for ever, so the number of steps is bounded by a number that no real source
reaches.
-/

namespace Playback

namespace Session

variable {S : Type} [Scalar S] {host : Host S}

/-- How many more packets the reader may read; none if there is no limit. -/
abbrev Allowance := Option Nat

/-- Lets the reader run. Gives what is left of its allowance, and whether it read anything, which
`progress` tells of the turns so far. -/
def runReader : Nat → Allowance → LoopProgress → Session host → S →
    Allowance × LoopProgress × Session host
  | 0, allowance, progress, s, _ => (allowance, progress, s)
  | n + 1, allowance, progress, s, now =>
    match s.readerTop now with
    | (.ready, s) =>
      if s.atEnd || allowance = some 0 then (allowance, progress, s)
      else runReader n (allowance.map (· - 1)) .moved (s.readPacket now) now
    | (_, s) => (allowance, progress, s)

/-- The next step of the audio loop: it takes a frame from its decoder when the ring has room for
it, and until then decodes no further than to the next frame. -/
def audioLoop (s : Session host) (now : S) :
    LoopStep (host.PipelineOf .audio) × Session host :=
  match s.audio with
  | none => ({ progress := .idle }, s)
  | some p =>
    if p.stream.frames.reserve.isAnswer then s.audioStep now
    else if p.decoder.pending.isEmpty then s.audioDecode now
    else ({ progress := .idle }, s)

/-- Lets a decode loop run. Tells whether it did anything, which `progress` tells of the steps so
far. -/
def runLoop {P : Type} (step : Session host → S → LoopStep P × Session host) :
    Nat → LoopProgress → Session host → S → LoopProgress × Session host
  | 0, progress, s, _ => (progress, s)
  | n + 1, progress, s, now =>
    let (result, s) := step s now
    match result.progress with
    | .idle => (progress, s)
    | .moved => runLoop step n .moved s now

/-- Lets reader, video loop and audio loop run in turns until none of them does anything. `bound`
limits the number of steps of each, and `n` the number of rounds. -/
def runWorkers (bound : Nat) : Nat → Allowance → Session host → S → Session host
  | 0, _, s, _ => s
  | n + 1, allowance, s, now =>
    let (allowance, reader, s) := runReader bound allowance .idle s now
    let (video, s) := runLoop videoStep bound .idle s now
    let (audio, s) := runLoop audioLoop bound .idle s now
    if reader = .idle ∧ video = .idle ∧ audio = .idle then s
    else runWorkers bound n allowance s now

/-- More steps than any worker takes in one run. -/
def workerBound : Nat := 1000000000

/-- Lets the workers run until each of them has to wait. Once the session was told to end, nobody
lets its workers run any more. -/
def settle (s : Session host) (allowance : Allowance) (now : S) : Session host :=
  if s.aborted then s else runWorkers workerBound workerBound allowance s now

end Session

end Playback
