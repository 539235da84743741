import Playback.Proofs.Session.EndOfSource

/-!
# The end of playback

A session with the option to exit reports the end of playback when the source has ended and
everything was played out. Two questions are answered here for every run.

Is anything left then? The decoders have finished their epochs and the rings are empty. Nothing is
left anywhere if no stream has got data behind the end of its epoch (`nothing_left_at_exit`). A
decoder forgets that it has finished an epoch at the next marker only, so packets that a source
delivers after its end, without a seek, may be cut off (`packet_left_at_exit`).

Is the end ever missed? When everything was played out, the next turn reports it unless the reader
waits because enough is queued (`exit_reported_iff`). That is the case for ever if every open stream
is a single picture or was shut down, and also if no stream is open any more (`exit_missed`).
-/

namespace Playback

/-! ## What is left -/

/-- Nothing of a stream is left to be played. -/
structure Pipeline.Exhausted {S σ F α : Type} (p : Pipeline S σ F α) : Prop where
  queue : ∀ e ∈ p.stream.packets.entries, ∀ packet, e.entry ≠ .data packet
  pending : p.decoder.pending = []
  held : ∀ x, p.worker ≠ .holding x
  ring : p.stream.frames.remaining = 0

section

variable {S M σ F α : Type} {codec : Codec S M σ F} {atEnd cover : Bool} {r : EpochRecord}
  {p : Pipeline S σ F α}

theorem Session.playedOut_iff : Session.playedOut p = true ↔
    p.decoder.finished = some p.stream.packets.serial ∧ p.stream.frames.remaining = 0 := by
  simp [Session.playedOut]

theorem Recording.exhausted (h : Recording codec atEnd cover r p.flow)
    (hplayed : Session.playedOut p = true) (hquiet : codec.Quiet r.entries) : p.Exhausted := by
  obtain ⟨hfinished, hring⟩ := Session.playedOut_iff.1 hplayed
  refine ⟨fun e he packet hdata => ?_, h.follows.not_pending hquiet hfinished,
    fun x hx => h.held x hx hquiet hfinished, hring⟩
  have hend := (hquiet _ (h.follows.behind_end hfinished e he)).1
  rw [hdata] at hend
  cases hend

/-! ## What the reader may wait for -/

/-- The reader has to read on until there is enough for the stream. -/
def Stream.wanting {S α : Type} (s : Stream S α) : Bool :=
  !s.params.attachedPicture && !s.packets.aborted

/-- A stream that was played out holds no bytes, and there is never enough for it unless it wants
nothing. -/
theorem Recording.played_queue [Scalar S] (h : Recording codec atEnd cover r p.flow)
    (hplayed : Session.playedOut p = true)
    (hends : ∀ e ∈ afterEnd r.entries, e = .endOfStream)
    (hnothing : p.stream.params.attachedPicture = false → afterEnd r.entries = [])
    (minFrames : Nat) :
    p.stream.packets.size = 0 ∧ p.stream.hasEnough minFrames = !p.stream.wanting := by
  obtain ⟨hfinished, -⟩ := Session.playedOut_iff.1 hplayed
  have hbehind := h.follows.behind_end hfinished
  constructor
  · have hsize : p.stream.packets.size = _ := h.follows.accounted.size
    rw [hsize]
    refine List.sum_eq_zero fun n hn => ?_
    obtain ⟨e, he, rfl⟩ := List.mem_map.1 hn
    rw [hends _ (hbehind e he)]
    rfl
  · unfold Stream.hasEnough Stream.wanting
    cases hcover : p.stream.params.attachedPicture with
    | true => simp
    | false =>
      have hempty : p.stream.packets.entries = [] := by
        refine List.eq_nil_iff_forall_not_mem.2 fun e he => ?_
        have hmem := hbehind e he
        rw [hnothing hcover] at hmem
        cases hmem
      simp [PacketQueue.length, hempty]

end

namespace Session

variable {S : Type} [Scalar S] {host : Host S} {s s' : Session host} {now : S}

instance (s : Session host) (now : S) (status : QuitStatus) : Decidable (s.Reports now status) :=
  inferInstanceAs (Decidable (_ = _))

/-- The reader is at the top of its loop, and the session is to exit: everything was played out, and
neither pause nor seek nor abort stands against it. -/
def exitDue (s : Session host) : Bool :=
  s.reader matches .running _ && s.options.autoExit && !s.paused && !s.aborted &&
    s.seekPending.isNone && s.allPlayed

/-- There is an open stream for which the reader has to read on. -/
def wanting (s : Session host) : Bool :=
  s.audioStream.any (·.wanting) || s.videoStream.any (·.wanting)

/-! ### The decision, seen from the flows -/

theorem hasEnough_of_flow {σ F α : Type} {p p' : Pipeline S σ F α} (h : p'.flow = p.flow)
    (minFrames : Nat) : p'.stream.hasEnough minFrames = p.stream.hasEnough minFrames := by
  have hparams : p'.stream.params = p.stream.params := congrArg Flow.params h
  have hpackets : p'.stream.packets = p.stream.packets := congrArg Flow.packets h
  unfold Stream.hasEnough
  rw [hparams, hpackets]

/-- Payload bytes that wait in the queue of a stream. -/
def queuedBytes {α : Type} (v : Option (Stream S α)) : Nat :=
  (v.map (·.packets.size)).getD 0

theorem buffersFull_eq (s : Session host) :
    s.buffersFull =
      (decide (s.options.maxQueueSize < queuedBytes s.audioStream + queuedBytes s.videoStream) ||
        (s.audioStream.all (·.hasEnough s.options.minFrames) &&
          s.videoStream.all (·.hasEnough s.options.minFrames))) :=
  rfl

theorem buffersFull_of_flows (hflows : s'.flows = s.flows) (hoptions : s'.options = s.options) :
    s'.buffersFull = s.buffersFull := by
  have hstream {σ F α : Type} {v v' : Option (Pipeline S σ F α)}
      (h : v'.map Pipeline.flow = v.map Pipeline.flow) (minFrames : Nat) :
      queuedBytes (v'.map (·.stream)) = queuedBytes (v.map (·.stream)) ∧
        (v'.map (·.stream)).all (·.hasEnough minFrames) =
          (v.map (·.stream)).all (·.hasEnough minFrames) := by
    cases v with
    | none =>
      rw [Option.map_none, Option.map_eq_none_iff] at h
      rw [h]
      exact ⟨rfl, rfl⟩
    | some p =>
      obtain ⟨p', rfl, hflow⟩ := Option.map_eq_some_iff.1 h
      have hpackets : p'.stream.packets = p.stream.packets := congrArg Flow.packets hflow
      simp [queuedBytes, hasEnough_of_flow hflow, hpackets]
  obtain ⟨hsize, henough⟩ := hstream (congrArg Flows.video hflows) s.options.minFrames
  obtain ⟨hsize', henough'⟩ := hstream (congrArg Flows.audio hflows) s.options.minFrames
  rw [buffersFull_eq, buffersFull_eq, hoptions]
  unfold audioStream videoStream
  rw [hsize, hsize', henough, henough']

theorem allPlayed_of_flows (hflows : s'.flows = s.flows) (hend : s'.atEnd = s.atEnd) :
    s'.allPlayed = s.allPlayed := by
  have hplayed {σ F α : Type} {v v' : Option (Pipeline S σ F α)}
      (h : v'.map Pipeline.flow = v.map Pipeline.flow) : v'.all playedOut = v.all playedOut := by
    have hall (v : Option (Pipeline S σ F α)) : v.all playedOut = (v.map Pipeline.flow).all
        fun f => f.decoder.finished = some f.packets.serial && f.frames.remaining = 0 := by
      cases v <;> rfl
    rw [hall, hall, h]
  unfold allPlayed
  rw [hend, hplayed (congrArg Flows.video hflows), hplayed (congrArg Flows.audio hflows)]

theorem options_queueAttachment (s : Session host) :
    s.queueAttachment.options = s.options ∧ s.queueAttachment.source = s.source := by
  unfold queueAttachment
  split
  · exact ⟨rfl, rfl⟩
  · dsimp only
    split
    · split
      · split <;> exact ⟨rfl, rfl⟩
      · exact ⟨rfl, rfl⟩
    · exact ⟨rfl, rfl⟩

/-- What a turn that is to exit comes to, if it has nothing to put into the queue of pictures. -/
theorem reports_iff_of_exitDue (hdue : s.exitDue = true) (hsent : s.quitSent = false)
    (hflows : ∀ lastPaused, (s.forwardPause lastPaused).queueAttachment.flows = s.flows) (now : S) :
    s.Reports now .endOfStream ↔ s.readsAhead = true ∨ s.buffersFull = false := by
  unfold exitDue at hdue
  simp only [Bool.and_eq_true, Bool.not_eq_true', Option.isNone_iff_eq_none] at hdue
  obtain ⟨⟨⟨⟨⟨hreader, hexit⟩, hpaused⟩, haborted⟩, hseek⟩, hplayed⟩ := hdue
  cases hrunning : s.reader with
  | waiting => simp [hrunning] at hreader
  | ended => simp [hrunning] at hreader
  | running lastPaused =>
    obtain ⟨hoptions, hsource, hend, -, hpending⟩ := s.forwardPause_spec lastPaused
    obtain ⟨hoptions', hsource'⟩ := (s.forwardPause lastPaused).options_queueAttachment
    obtain ⟨-, -, -, hend', -⟩ := (s.forwardPause lastPaused).attaches_queueAttachment
    have hsilent : s.Silent (s.forwardPause lastPaused).queueAttachment :=
      (s.silent_forwardPause lastPaused).trans (silent_queueAttachment _)
    have htop : s.readerTop now = (s.forwardPause lastPaused).gate false := by
      unfold readerTop
      simp only [hrunning, haborted, hpending, hseek, hpaused]
      rfl
    replace hflows := hflows lastPaused
    unfold Reports readerTurn
    rw [htop]
    unfold gate
    replace hoptions := hoptions'.trans hoptions
    replace hsource := hsource'.trans hsource
    replace hend := hend'.trans hend
    clear hoptions' hsource' hend'
    -- how the reader came to the test does not matter any more
    generalize (s.forwardPause lastPaused).queueAttachment = s' at *
    have hahead : s'.readsAhead = s.readsAhead := by
      unfold readsAhead
      rw [hoptions, hsource]
    have hgate : (s'.allPlayed && !false && s'.options.autoExit) = true := by
      rw [allPlayed_of_flows hflows hend, hoptions, hplayed, hexit]
      rfl
    have hquit : (s'.quit .endOfStream).quits = .endOfStream :: s.quits := by
      rw [quits_quit, hsilent.1, hsilent.2, hsent]
      rfl
    have hstay : s'.quits ≠ .endOfStream :: s.quits := by
      rw [hsilent.1]
      exact (List.cons_ne_self _ _).symm
    simp only [hahead, buffersFull_of_flows hflows hoptions, hgate]
    by_cases hfull : (!s.readsAhead && s.buffersFull) = true
    · rw [if_pos hfull]
      refine iff_of_false hstay ?_
      simpa using hfull
    · rw [if_neg hfull]
      refine iff_of_true hquit ?_
      simp only [Bool.and_eq_true, Bool.not_eq_true', not_and, Bool.not_eq_true] at hfull
      cases hahead' : s.readsAhead with
      | true => exact .inl rfl
      | false => exact .inr (hfull hahead')

end Session

/-- A queue of pictures that was shut down takes nothing. -/
theorem Flows.fed_of_aborted {S : Type} {host : Host S} {fs : Flows host}
    (h : ∀ f, fs.video = some f → f.packets.aborted = true) (entries : List Entry) :
    fs.fed false entries [] = fs := by
  have hvideo : fs.video.map (·.fed false entries) = fs.video.map (·.fed false []) := by
    cases hv : fs.video with
    | none => rfl
    | some f => simp [Flow.fed, PacketQueue.fed_of_aborted (h f hv)]
  calc
    fs.fed false entries [] = fs.fed false [] [] := by rw [fed, hvideo]; rfl
    _ = fs := fed_nil fs

namespace Recorded

variable {S : Type} [Scalar S] {host : Host S} {t : Recorded host}

/-- No open stream has accepted anything behind the end of its epoch; a single picture may be told
of the end twice. -/
structure EndsOnce (t : Recorded host) : Prop where
  video : ∀ v, t.session.videoStream = some v → v.params.attachedPicture = false →
    afterEnd t.video.entries = []
  audio : ∀ a, t.session.audioStream = some a → afterEnd t.audio.entries = []

namespace Kept

open Session

/-- A stream that was played out has got its single picture, if it has one. -/
theorem nothing_due (h : t.Kept) (hplayed : t.session.allPlayed = true) {s' : Session host}
    (hflows : s'.flows = t.session.flows) (hdue : s'.attachmentDue = t.session.attachmentDue) :
    s'.queueAttachment.flows = t.session.flows := by
  obtain ⟨pic, hpic, hfed, -, -⟩ := s'.attaches_queueAttachment
  rw [hflows] at hpic hfed
  rw [hdue] at hpic
  rw [hfed]
  cases hpic with
  | nothing => exact Flows.fed_nil _
  | picture hdue' =>
    refine Flows.fed_of_aborted (fun f hf => ?_) _
    by_contra hrun
    have hentries := h.due hdue' f hf (Bool.eq_false_iff.2 hrun)
    have hfollows := (h.video f hf).follows
    rw [hentries] at hfollows
    obtain ⟨p, hp, rfl⟩ := Option.map_eq_some_iff.1 hf
    simp only [allPlayed, hp, Option.all_some, Bool.and_eq_true] at hplayed
    exact hfollows.unfinished (playedOut_iff.1 hplayed.2).1

/-- When everything was played out, there is enough unless an open stream wants more. -/
theorem buffersFull_eq_not_wanting (h : t.Kept) (hplayed : t.session.allPlayed = true)
    (honce : t.EndsOnce) : t.session.buffersFull = !t.session.wanting := by
  simp only [allPlayed, Bool.and_eq_true] at hplayed
  obtain ⟨⟨-, haudio⟩, hvideo⟩ := hplayed
  have hpictures : queuedBytes t.session.videoStream = 0 ∧
      t.session.videoStream.all (·.hasEnough t.session.options.minFrames) =
        !t.session.videoStream.any (·.wanting) := by
    unfold videoStream
    cases hopen : t.session.video with
    | none => exact ⟨rfl, rfl⟩
    | some p =>
      have hflow : t.session.flows.video = some p.flow := congrArg (Option.map Pipeline.flow) hopen
      have hrecording := h.video _ hflow
      have hnothing := honce.video p.stream (by rw [videoStream, hopen]; rfl)
      rw [hopen] at hvideo
      -- a cover may have been told of the end again, but there is always enough for it
      refine hrecording.played_queue hvideo (fun e he => ?_) hnothing _
      cases hcover : p.stream.params.attachedPicture with
      | true => exact hrecording.cover hcover e he
      | false =>
        rw [hnothing hcover] at he
        cases he
  have hsound : queuedBytes t.session.audioStream = 0 ∧
      t.session.audioStream.all (·.hasEnough t.session.options.minFrames) =
        !t.session.audioStream.any (·.wanting) := by
    unfold audioStream
    cases hopen : t.session.audio with
    | none => exact ⟨rfl, rfl⟩
    | some p =>
      have hflow : t.session.flows.audio = some p.flow := congrArg (Option.map Pipeline.flow) hopen
      have hnothing := honce.audio p.stream (by rw [audioStream, hopen]; rfl)
      rw [hopen] at haudio
      exact (h.audio _ hflow).played_queue haudio (by simp [hnothing]) (fun _ => hnothing) _
  rw [buffersFull_eq, hpictures.1, hpictures.2, hsound.1, hsound.2, wanting]
  simp

end Kept

end Recorded

/-! ## Sources that are played to their ends -/

namespace Exit

open PictureScript

/-- A session that is to exit at its end. -/
def options : Options Rat :=
  { autoExit := true }

/-- A source with one packet. -/
def single : Host Rat :=
  Host.scripted (script 1 #[.row (row 0)] none) {}

/-- A source that delivers another packet after its end. -/
def resuming : Host Rat :=
  Host.scripted (script 1 #[.row (row 0), .endOfFile, .row (row 1)] none) {}

/-- A source of which the codec fails at the end. -/
def failing : Host Rat :=
  Host.scripted (script 1 #[.row (row 0)] (some "broken")) {}

/-- The packet is read and its picture goes into the ring. The end of the source is read, and the
decode loop comes to it. -/
def toEnd : List (Rat × Session.Action) :=
  [(0, .start), (0, .readerTurn), (0, .videoStep), (0, .videoStep), (0, .readerTurn),
    (0, .videoStep)]

/-- The picture is shown. -/
def shown : List (Rat × Session.Action) :=
  toEnd ++ [(1, .refresh)]

/-- The reader reads on before the picture is shown, and comes to an end again. -/
def resumed : List (Rat × Session.Action) :=
  toEnd ++ [(0, .readerTurn), (0, .readerTurn), (1, .refresh)]

end Exit

/-! ## Every run -/

section

variable {S : Type} [Scalar S] {host : Host S} {uri : String} {options : Options S}
  {screen : host.Screen} {opened : S} {s : Session host}

/-- When a turn of the reader reports the end of playback, all open streams were played out. Nothing
is left of a stream behind whose end nothing was accepted but further ends. -/
theorem nothing_left_at_exit (hopen : Session.open host uri options screen opened = .ok s)
    (actions : List (S × Session.Action)) (now : S) :
    let t := (Recorded.start s).run actions
    let t' := t.perform now .readerTurn
    t.session = s.run actions ∧
    (t.session.Reports now .endOfStream →
      (∀ p, t'.session.video = some p →
        p.decoder.finished = some p.stream.packets.serial ∧ p.stream.frames.remaining = 0 ∧
          (host.video.Quiet t'.video.entries → p.Exhausted)) ∧
      ∀ p, t'.session.audio = some p →
        p.decoder.finished = some p.stream.packets.serial ∧ p.stream.frames.remaining = 0 ∧
          (host.audio.Quiet t'.audio.entries → p.Exhausted)) := by
  intro t t'
  refine ⟨Recorded.session_run _ actions, fun hreports => ?_⟩
  have hkept : t'.Kept := ((Recorded.Kept.start hopen).run actions).perform now .readerTurn
  have hplayed : t'.session.allPlayed = true := (Session.allPlayed_of_reports hreports).1
  simp only [Session.allPlayed, Bool.and_eq_true] at hplayed
  obtain ⟨⟨-, haudio⟩, hvideo⟩ := hplayed
  constructor
  · intro p hp
    have hflow : t'.session.flows.video = some p.flow := congrArg (Option.map Pipeline.flow) hp
    rw [hp] at hvideo
    obtain ⟨hfinished, hring⟩ := Session.playedOut_iff.1 hvideo
    exact ⟨hfinished, hring, (hkept.video _ hflow).exhausted hvideo⟩
  · intro p hp
    have hflow : t'.session.flows.audio = some p.flow := congrArg (Option.map Pipeline.flow) hp
    rw [hp] at haudio
    obtain ⟨hfinished, hring⟩ := Session.playedOut_iff.1 haudio
    exact ⟨hfinished, hring, (hkept.audio _ hflow).exhausted haudio⟩

/-- A source with one packet is played to its end. -/
theorem nothing_left_at_exit_single :
    ∃ s, Session.open Exit.single "" Exit.options (0 : Nat) 0 = .ok s ∧
      let t := (Recorded.start s).run Exit.shown
      let t' := t.perform 1 .readerTurn
      t.session.Reports 1 .endOfStream ∧ ∃ p, t'.session.video = some p ∧ p.Exhausted := by
  have hopen : ∃ s, Session.open Exit.single "" Exit.options (0 : Nat) 0 = .ok s ∧
      let t := (Recorded.start s).run Exit.shown
      let t' := t.perform 1 .readerTurn
      t.session.Reports 1 .endOfStream ∧ afterEnd t'.video.entries = [] ∧
        t'.session.video.isSome = true :=
    ⟨_, rfl, by decide +kernel⟩
  obtain ⟨s, hs, hreports, hnothing, hvideo⟩ := hopen
  obtain ⟨p, hp⟩ := Option.isSome_iff_exists.1 hvideo
  obtain ⟨-, hleft⟩ := nothing_left_at_exit hs Exit.shown 1
  obtain ⟨hpictures, -⟩ := hleft hreports
  exact ⟨s, hs, hreports, p, hp, (hpictures p hp).2.2 (Codec.quiet_of_afterEnd hnothing)⟩

open PictureScript in
/-- The source has delivered another packet after its end, and the end of playback is reported when
this packet still waits for its decoder. -/
theorem packet_left_at_exit :
    ∃ s, Session.open Exit.resuming "" Exit.options (0 : Nat) 0 = .ok s ∧
      let t := (Recorded.start s).run Exit.resumed
      t.session.Reports 1 .endOfStream ∧
        (t.perform 1 .readerTurn).session.videoStream.map (·.packets.entries.map (·.entry)) =
          some [.data (row 1).packet, .endOfStream] := by
  refine ⟨_, rfl, ?_⟩
  decide +kernel

/-- When everything was played out and the session is to exit, the next turn of the reader reports
that, unless there is enough in the queues. If nothing was accepted behind the ends of the streams,
that is so if and only if no open stream wants more. -/
theorem exit_reported_iff (hopen : Session.open host uri options screen opened = .ok s)
    (actions : List (S × Session.Action)) (now : S) :
    let t := (Recorded.start s).run actions
    t.session = s.run actions ∧
    (t.session.exitDue = true →
      (t.session.Reports now .endOfStream ↔
        t.session.readsAhead = true ∨ t.session.buffersFull = false) ∧
      (t.EndsOnce → (t.session.Reports now .endOfStream ↔
        t.session.readsAhead = true ∨ t.session.wanting = true))) := by
  intro t
  refine ⟨Recorded.session_run _ actions, fun hdue => ?_⟩
  have hkept : t.Kept := (Recorded.Kept.start hopen).run actions
  have hplayed : t.session.allPlayed = true := (Bool.and_eq_true_iff.1 hdue).2
  have hsent : t.session.quitSent = false := by
    refine hkept.unreported fun hended => ?_
    have hreader : t.session.reader = .ended := hended
    simp [Session.exitDue, hreader] at hdue
  have hiff := Session.reports_iff_of_exitDue hdue hsent (fun lastPaused => by
    obtain ⟨-, -, -, hattachment, -⟩ := t.session.forwardPause_spec lastPaused
    exact hkept.nothing_due hplayed (Session.flows_forwardPause lastPaused) hattachment) now
  refine ⟨hiff, fun honce => ?_⟩
  rw [hiff, hkept.buffersFull_eq_not_wanting hplayed honce, Bool.not_eq_false']

/-- A source with one packet is played to its end. -/
theorem exit_reported_single :
    ∃ s, Session.open Exit.single "" Exit.options (0 : Nat) 0 = .ok s ∧
      let t := (Recorded.start s).run Exit.shown
      t.session.exitDue = true ∧ t.session.wanting = true ∧ t.session.Reports 1 .endOfStream := by
  have hopen : ∃ s, Session.open Exit.single "" Exit.options (0 : Nat) 0 = .ok s ∧
      let t := (Recorded.start s).run Exit.shown
      t.session.exitDue = true ∧ t.session.wanting = true ∧ afterEnd t.video.entries = [] ∧
        t.session.audio.isNone = true :=
    ⟨_, rfl, by decide +kernel⟩
  obtain ⟨s, hs, hdue, hwanting, hnothing, haudio⟩ := hopen
  have honce : ((Recorded.start s).run Exit.shown).EndsOnce := by
    refine ⟨fun _ _ _ => hnothing, fun a ha => ?_⟩
    rw [Session.audioStream, Option.isNone_iff_eq_none.1 haudio] at ha
    cases ha
  obtain ⟨-, hexit⟩ := exit_reported_iff hs Exit.shown 1
  obtain ⟨-, hreports⟩ := hexit hdue
  exact ⟨s, hs, hdue, hwanting, (hreports honce).2 (.inr hwanting)⟩

/-- The only stream has left the session because its codec failed at the end. Nothing is left to be
played, but that is not reported. -/
theorem exit_missed :
    ∃ s, Session.open Exit.failing "" Exit.options (0 : Nat) 0 = .ok s ∧
      let t := (Recorded.start s).run Exit.toEnd
      t.session.exitDue = true ∧ t.session.video.isNone = true ∧ t.session.audio.isNone = true ∧
        ¬ t.session.Reports 1 .endOfStream := by
  refine ⟨_, rfl, ?_⟩
  decide +kernel

end

end Playback
