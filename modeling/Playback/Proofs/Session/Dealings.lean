import Playback.Proofs.Session.ReaderTurns

/-!
# Requests and calls

`Session.dealings` is what the user has asked for, a step or a seek, and what was called of the
container: its reads, its seeks and the report of the end, which come from the reader alone once a
session is open. Decode loops, display and sound leave all of that as it is, and so do opening and
closing (`dealings_perform`). The requests of the user make at most one seek pending
(`dealings_request`).
-/

namespace Playback

/-- The call is a read, a seek or the report of the end. -/
def HostCall.ofReader {S : Type} : HostCall S → Bool
  | .read | .seek _ | .quit _ => true
  | _ => false

/-- What was asked of a session, and what it has called of its container. -/
structure Dealings (S : Type) where
  /-- The next picture is to be shown, and then playback pauses. -/
  stepping : Bool
  /-- The seek that the reader is to perform. -/
  pending : Option SeekRequest
  /-- Reads, seeks and reports of the end, the latest first. -/
  calls : List (HostCall S)

namespace Session

variable {S : Type} [Scalar S] {host : Host S} {s s' s'' : Session host} {now : S}

/-- The reads, seeks and reports of the end that were made, the latest first. -/
def calls (s : Session host) : List (HostCall S) :=
  s.log.filter HostCall.ofReader

def dealings (s : Session host) : Dealings S :=
  ⟨s.stepping, s.seekPending, s.calls⟩

/-- The reports of the end are among these calls. -/
theorem quits_eq (s : Session host) : s.quits = s.calls.filterMap HostCall.quit? := by
  unfold quits calls
  rw [List.filterMap_filter]
  refine List.filterMap_congr fun c _ => ?_
  cases c <;> rfl

/-! ## Whoever does not deal with the container -/

theorem calls_recordCodec (kind : MediaKind) (calls : List CodecCall) :
    (s.recordCodec kind calls).calls = s.calls := by
  have hnone :
      (calls.map (HostCall.codec (S := S) kind)).reverse.filter HostCall.ofReader = [] := by
    refine List.filter_eq_nil_iff.2 fun c hc => ?_
    obtain ⟨call, -, rfl⟩ := List.mem_map.1 (List.mem_reverse.1 hc)
    exact Bool.false_ne_true
  unfold Session.calls recordCodec
  rw [List.filter_append, hnone, List.nil_append]

@[simp] theorem dealings_start : s.start.dealings = s.dealings := by
  unfold start
  split <;> rfl

@[simp] theorem dealings_takePicture : s.takePicture.2.dealings = s.dealings := by
  unfold takePicture
  split <;> rfl

theorem dealings_recordCodec (kind : MediaKind) (calls : List CodecCall) :
    (s.recordCodec kind calls).dealings = s.dealings :=
  congrArg (Dealings.mk s.stepping s.seekPending) (calls_recordCodec kind calls)

theorem dealings_videoStep : (s.videoStep now).2.dealings = s.dealings := by
  unfold videoStep
  split
  · rfl
  · split
    · rfl
    · rfl
    · have hcodec (calls : List CodecCall) := dealings_recordCodec (s := s) .video calls
      dsimp only
      split
      · exact hcodec _
      · exact hcodec _
      · exact hcodec _
      · exact hcodec _
      · unfold receivePicture
        split
        · exact hcodec _
        · dsimp only
          split <;> exact hcodec _

theorem dealings_audioTurn (take : Bool) : (s.audioTurn take now).2.dealings = s.dealings := by
  unfold audioTurn
  split
  · rfl
  · split
    · rfl
    · rfl
    · have hcodec (calls : List CodecCall) := dealings_recordCodec (s := s) .audio calls
      dsimp only
      split
      · exact hcodec _
      · exact hcodec _
      · exact hcodec _
      · exact hcodec _
      · split <;> exact hcodec _

/-! ### Display -/

theorem keptByRefresh_dealings (now : S) :
    KeptByRefresh now fun s s' : Session host => s'.dealings = s.dealings where
  trans h h' := h'.trans h
  display _ _ _ _ _ _ := rfl
  clock _ _ := rfl
  ring _ := rfl
  pause _ := rfl

theorem dealings_refresh : (s.refresh now).2.dealings = s.dealings :=
  (keptByRefresh_dealings now).refresh s

/-! ### Sound -/

theorem keptByFill_dealings (now : S) :
    KeptByFill now fun s s' : Session host => s'.dealings = s.dealings where
  trans h h' := h'.trans h
  device _ _ _ := rfl
  counts _ _ _ _ := rfl
  clock _ _ := rfl
  ring _ _ _ := rfl

theorem dealings_fill (count volume : Nat) :
    (s.fill count volume now).2.dealings = s.dealings :=
  (keptByFill_dealings now).fill s count volume

/-! ### Opening and closing -/

theorem dealings_closeStream (s : Session host) (kind : MediaKind) :
    (s.closeStream kind).dealings = s.dealings := by
  unfold closeStream closing
  cases kind with
  | video | audio =>
    dsimp only
    split <;> rfl

theorem dealings_openStream (s : Session host) (p : StreamParams) (now : S) :
    (s.openStream p now).2.dealings = s.dealings := by
  unfold openStream
  split
  · unfold openVideo
    split <;> rfl
  · unfold openAudio
    dsimp only
    split
    · rfl
    · split <;> rfl

theorem dealings_cycleStream (s : Session host) (kind : MediaKind) (now : S) :
    (s.cycleStream kind now).2.dealings = s.dealings := by
  unfold cycleStream
  split
  · rfl
  · exact (dealings_openStream _ _ _).trans (s.dealings_closeStream kind)

theorem dealings_close : s.close.dealings = s.dealings := by
  unfold close
  rw [dealings_closeStream, dealings_closeStream]
  rfl

/-- The calls with which a session opens: the seek to the start that the options ask for. -/
def startCalls (options : Options S) (source : SourceInfo S) : List (HostCall S) :=
  options.startTime.toList.map fun start => .seek (startRange start source)

/-- When a session was opened, nothing was asked for, and nothing was called of the container but to
move to the start. -/
theorem dealings_open {uri : String} {options : Options S} {screen : host.Screen}
    (hopen : Session.open host uri options screen now = .ok s) :
    ∃ source medium, host.openSource uri = .ok (source, medium) ∧
      s.dealings = ⟨false, none, startCalls options source⟩ := by
  refine of_open hopen (fun source medium hsource => ⟨source, medium, hsource, ?_⟩) fun s p h => ?_
  · unfold seekStart startCalls initial
    dsimp only
    cases options.startTime <;> rfl
  · obtain ⟨source, medium, hsource, hdealings⟩ := h
    exact ⟨source, medium, hsource, (s.dealings_openStream p now).trans hdealings⟩

/-! ## Requests -/

/-- The request for a seek by a number of seconds. -/
def secondsRequest (s : Session host) (delta now : S) : SeekRequest :=
  if s.seeksByBytes then
    let bytes := Scalar.toInt64 (delta * s.byteRate)
    ⟨s.bytePosition + bytes, bytes, true⟩
  else
    let position := s.timePosition now + delta
    let position :=
      match s.source.startTime with
      | some start => if position < start then start else position
      | none => position
    ⟨Scalar.toInt64 (position * 1000000.0), Scalar.toInt64 (delta * 1000000.0), false⟩

/-- The request for a seek by so many chapters; none if there is no such chapter. -/
def chapterRequest (s : Session host) (steps : Int) (now : S) : Option SeekRequest :=
  s.source.chapters[(max (s.currentChapter now + steps) 0).toNat]?.map fun chapter =>
    ⟨Scalar.toInt64 (chapter.start * 1000000.0), 0, false⟩

/-- The seek that an action asks for. -/
def requested (s : Session host) (now : S) : Action → Option SeekRequest
  | .seek millis => some (s.secondsRequest (Scalar.ofInt millis / 1000.0) now)
  | .seekChapter steps => s.chapterRequest steps now
  | .nextChunk =>
    if 1 < s.source.chapters.length then s.chapterRequest 1 now
    else some (s.secondsRequest (Scalar.ofInt jumpMillis / 1000.0) now)
  | .previousChunk =>
    if 1 < s.source.chapters.length then s.chapterRequest (-1) now
    else some (s.secondsRequest (Scalar.ofInt (-jumpMillis) / 1000.0) now)
  | _ => none

/-- A request counts unless one is pending. -/
theorem dealings_requestSeek (s : Session host) (target relative : Int) (byBytes : Bool) :
    (s.requestSeek target relative byBytes).dealings =
      { s.dealings with pending := s.seekPending.or (some ⟨target, relative, byBytes⟩) } := by
  unfold requestSeek
  cases hpending : s.seekPending with
  | some r => simp [dealings, hpending]
  | none => rfl

theorem dealings_seekBySeconds (s : Session host) (delta now : S) :
    (s.seekBySeconds delta now).dealings =
      { s.dealings with pending := s.seekPending.or (some (s.secondsRequest delta now)) } := by
  unfold seekBySeconds secondsRequest
  split <;> exact dealings_requestSeek ..

theorem dealings_seekChapter (s : Session host) (steps : Int) (now : S) :
    (s.seekChapter steps now).dealings =
      { s.dealings with pending := s.seekPending.or (s.chapterRequest steps now) } := by
  unfold seekChapter chapterRequest
  cases s.source.chapters[(max (s.currentChapter now + steps) 0).toNat]? with
  | some chapter => exact dealings_requestSeek ..
  | none => simp [dealings]

theorem dealings_request {action : Action} (h : action.isRequest = true) (now : S) :
    (s.perform now action).dealings =
      { s.dealings with pending := s.seekPending.or (s.requested now action) } := by
  cases action with
  | seek millis => exact s.dealings_seekBySeconds _ now
  | seekChapter steps => exact s.dealings_seekChapter steps now
  | nextChunk =>
    simp only [Session.perform, requested, nextChunk]
    split
    · exact s.dealings_seekChapter 1 now
    · exact s.dealings_seekBySeconds _ now
  | previousChunk =>
    simp only [Session.perform, requested, previousChunk]
    split
    · exact s.dealings_seekChapter (-1) now
    · exact s.dealings_seekBySeconds _ now
  | _ => cases h

theorem dealings_step (s : Session host) (now : S) :
    (s.step now).dealings = { s.dealings with stepping := true } := by
  unfold step
  split <;> rfl

/-! ## Every action -/

/-- The action is one of the reader, or it asks for a step or a seek, or gives a step up. -/
def Action.isDealing : Action → Bool
  | .readerTurn | .togglePause | .step | .seek _ | .seekChapter _ | .nextChunk | .previousChunk =>
    true
  | _ => false

theorem dealings_perform {action : Action} (h : action.isDealing = false) (now : S) :
    (s.perform now action).dealings = s.dealings := by
  cases action with
  | start => exact dealings_start
  | takePicture => exact dealings_takePicture
  | videoStep => exact dealings_videoStep
  | audioStep => exact dealings_audioTurn true
  | audioDecode => exact dealings_audioTurn false
  | refresh => exact dealings_refresh
  | fill count volume => exact dealings_fill count volume
  | cycleStream kind => exact s.dealings_cycleStream kind now
  | abort => rfl
  | close => exact dealings_close
  | _ => cases h

/-- Only the reader reads and seeks, and only the reader reports the end. -/
theorem calls_perform {action : Action} (h : action ≠ .readerTurn) (now : S) :
    (s.perform now action).calls = s.calls := by
  cases action with
  | readerTurn => exact absurd rfl h
  | togglePause => rfl
  | step => exact congrArg Dealings.calls (s.dealings_step now)
  | seek _ | seekChapter _ | nextChunk | previousChunk =>
    exact congrArg Dealings.calls (dealings_request rfl now)
  | start | videoStep | audioStep | audioDecode | refresh | takePicture | fill _ _ | cycleStream _
  | abort | close =>
    exact congrArg Dealings.calls (dealings_perform rfl now)

/-- Only the reader serves requests, and only requests wait for it. -/
theorem seekPending_perform {action : Action} (h : action ≠ .readerTurn) (now : S) :
    (s.perform now action).seekPending = s.seekPending.or (s.requested now action) := by
  have hsame (h : action.isDealing = false) : (s.perform now action).seekPending = s.seekPending :=
    congrArg Dealings.pending (dealings_perform h now)
  cases action with
  | readerTurn => exact absurd rfl h
  | seek _ | seekChapter _ | nextChunk | previousChunk =>
    exact congrArg Dealings.pending (dealings_request rfl now)
  | togglePause => exact (Option.or_none).symm
  | step => exact (congrArg Dealings.pending (s.dealings_step now)).trans Option.or_none.symm
  | start | videoStep | audioStep | audioDecode | refresh | takePicture | fill _ _ | cycleStream _
  | abort | close =>
    exact (hsame rfl).trans Option.or_none.symm

end Session

end Playback
