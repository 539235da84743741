import Playback.Proofs.Session.ReaderState

/-!
# Turns of the reader

One turn of the reader either does nothing that matters here, or it performs a seek if one is
pending, queues the single picture of a stream if that is due, and then perhaps reads
(`Session.readerTurn_cases`). What a read may put into the queues is listed in `Reads`. Most of what
follows does not ask whether the container has the picture (`Session.turns_readerTurn`).

A turn that reports the end of playback has found everything played out (`allPlayed_of_reports`).
-/

namespace Playback

open Flows

/-- The status that a call to the host reports. -/
def HostCall.quit? {S : Type} : HostCall S → Option QuitStatus
  | .quit status => some status
  | _ => none

/-! ## What a turn puts into the queues -/

/-- A packet that the container may give out, as the next one or as the single picture of a
stream. -/
inductive Host.Gives {S : Type} (host : Host S) (p : Packet) : Prop
  | read {now : S} {m m' : host.Medium} (h : host.container.read now m = (.ok (.packet p), m'))
  | attached {index : Nat} {m : host.Medium} (h : host.container.attachedPicture index m = some p)

/-- The open video stream consists of a single picture. -/
def Flows.cover {S : Type} {host : Host S} (fs : Flows host) : Bool :=
  fs.video.any (·.params.attachedPicture)

@[simp] theorem Flows.cover_fed {S : Type} {host : Host S} (fs : Flows host) (restarts : Bool)
    (video audio : List Entry) : (fs.fed restarts video audio).cover = fs.cover := by
  unfold cover fed
  cases fs.video <;> rfl

/-- The single picture of a stream is put into its queue, and the end behind it, if that is due.
The container `gives` the picture. -/
inductive Attaches (gives : Packet → Prop) (due cover : Bool) : List Entry → Prop
  | nothing : Attaches gives due cover []
  | picture (hdue : due = true) (hcover : cover = true) {p : Packet} (hp : gives p) :
      Attaches gives due cover [.data p, .endOfStream]

/-- What a read may put into the queues of pictures and sound, if the end of the source was read
before or not, and whether it has been read then. -/
inductive Reads (gives : Packet → Prop) (cover atEnd : Bool) :
    List Entry → List Entry → Bool → Prop
  | nothing : Reads gives cover atEnd [] [] atEnd
  | ends (hend : atEnd = false) : Reads gives cover atEnd [.endOfStream] [.endOfStream] true
  | video (hcover : cover = false) {p : Packet} (hp : gives p) :
      Reads gives cover atEnd [.data p] [] false
  | audio {p : Packet} (hp : gives p) : Reads gives cover atEnd [] [.data p] false
  /-- A packet belongs to no open stream. -/
  | drops : Reads gives cover atEnd [] [] false

theorem Attaches.unmarked {gives : Packet → Prop} {due cover : Bool} {pic : List Entry}
    (h : Attaches gives due cover pic) : Unmarked pic := by
  cases h <;> simp [Unmarked]

theorem Reads.unmarked {gives : Packet → Prop} {cover atEnd atEnd' : Bool}
    {video audio : List Entry} (h : Reads gives cover atEnd video audio atEnd') :
    Unmarked video ∧ Unmarked audio := by
  cases h <;> simp [Unmarked]

/-- No packet that is read gets into the queue of a stream that consists of a single picture. -/
theorem Reads.ends_of_cover {gives : Packet → Prop} {atEnd atEnd' : Bool}
    {video audio : List Entry} (h : Reads gives true atEnd video audio atEnd') :
    ∀ e ∈ video, e = .endOfStream := by
  cases h with
  | video hnot => cases hnot
  | nothing | ends | audio | drops => simp

namespace Session

variable {S : Type} [Scalar S] {host : Host S} {s s' : Session host} {now : S}

/-- What a turn of the reader makes of a session. A seek succeeded if `sought` is set. -/
inductive Turns (sought : Bool) (s s' : Session host) : Prop
  | idle (hsought : sought = false) (hflows : s'.flows = s.flows) (hend : s'.atEnd = s.atEnd)
      (hdue : s'.attachmentDue = s.attachmentDue)
  | works {pic video audio : List Entry}
      (hpic : Attaches host.Gives (s.attachmentDue || sought) s.flows.cover pic)
      (hreads : Reads host.Gives s.flows.cover (s.atEnd && !sought) video audio s'.atEnd)
      (hflows : s'.flows = s.flows.fed sought (pic ++ video) audio)
      (hdue : s'.attachmentDue = false)

@[simp] theorem atEnd_quit (status : QuitStatus) : (s.quit status).atEnd = s.atEnd := by
  unfold quit
  split <;> rfl

@[simp] theorem attachmentDue_quit (status : QuitStatus) :
    (s.quit status).attachmentDue = s.attachmentDue := by
  unfold quit
  split <;> rfl

/-- What the reader puts into the queue of pictures before it reads: the single picture of the open
stream and the end behind it, if that is due and the container has the picture. -/
def attachment (s : Session host) : List Entry :=
  match s.videoStream with
  | some v =>
    if s.attachmentDue && v.params.attachedPicture then
      match host.container.attachedPicture v.params.index s.medium with
      | some p => [.data p, .endOfStream]
      | none => []
    else []
  | none => []

theorem attaches_attachment (s : Session host) :
    Attaches host.Gives s.attachmentDue s.flows.cover s.attachment := by
  unfold attachment
  split
  · rename_i v hv
    split
    · rename_i hcover
      simp only [Bool.and_eq_true] at hcover
      split
      · rename_i p hp
        refine .picture hcover.1 ?_ (.attached hp)
        obtain ⟨pipeline, hpipeline, rfl⟩ := Option.map_eq_some_iff.1 hv
        rw [Flows.cover, flows, hpipeline]
        exact hcover.2
      · exact .nothing
    · exact .nothing
  · exact .nothing

theorem queueAttachment_spec (s : Session host) :
    s.queueAttachment.flows = s.flows.fed false s.attachment [] ∧
      s.queueAttachment.atEnd = s.atEnd ∧ s.queueAttachment.attachmentDue = false := by
  have hnil : s.flows = s.flows.fed false [] [] := (fed_nil s.flows).symm
  unfold queueAttachment attachment
  cases hdue : s.attachmentDue with
  | false =>
    refine ⟨?_, rfl, hdue⟩
    cases s.videoStream <;> exact hnil
  | true =>
    simp only [Bool.not_true, Bool.false_eq_true, if_false, Bool.true_and]
    have hstream : ({ s with attachmentDue := false } : Session host).videoStream =
        s.videoStream := rfl
    rw [hstream]
    cases s.videoStream with
    | none => exact ⟨hnil, rfl, rfl⟩
    | some v =>
      dsimp only
      split
      · dsimp only [record]
        cases host.container.attachedPicture v.params.index s.medium with
        | none => exact ⟨hnil, rfl, rfl⟩
        | some p =>
          refine ⟨flows_onVideo_put fun v => ?_, rfl, rfl⟩
          obtain ⟨hparams, hframes, hpackets⟩ := v.putAll_queuePacket p
          refine ⟨hparams, hframes, ?_⟩
          rw [Stream.queueEntry, hpackets]
          rfl
      · exact ⟨hnil, rfl, rfl⟩

theorem attaches_queueAttachment (s : Session host) :
    ∃ pic, Attaches host.Gives s.attachmentDue s.flows.cover pic ∧
      s.queueAttachment.flows = s.flows.fed false pic [] ∧
      s.queueAttachment.atEnd = s.atEnd ∧ s.queueAttachment.attachmentDue = false :=
  ⟨s.attachment, s.attaches_attachment, s.queueAttachment_spec⟩

theorem gate_spec (s : Session host) (paused : Bool) :
    (s.gate paused).2.flows = s.flows.fed false s.attachment [] ∧
      (s.gate paused).2.atEnd = s.atEnd ∧ (s.gate paused).2.attachmentDue = false := by
  obtain ⟨hflows, hend, hdue⟩ := s.queueAttachment_spec
  unfold gate
  dsimp only
  split
  · exact ⟨hflows, hend, hdue⟩
  · split
    · exact ⟨(flows_quit _).trans hflows, (atEnd_quit _).trans hend,
        (attachmentDue_quit _).trans hdue⟩
    · exact ⟨hflows, hend, hdue⟩

/-! ### Reading -/

theorem flows_reachEnd (h : s.atEnd = false) :
    s.reachEnd.flows = s.flows.fed false [.endOfStream] [.endOfStream] := by
  have hvideo : (s.onVideo (·.queueEntry .endOfStream)).flows =
      s.flows.fed false [.endOfStream] [] := flows_onVideo_put fun v => ⟨rfl, rfl, rfl⟩
  have haudio (s : Session host) : (s.onAudio (·.queueEntry .endOfStream)).flows =
      s.flows.fed false [] [.endOfStream] := flows_onAudio_put fun a => ⟨rfl, rfl, rfl⟩
  unfold reachEnd
  rw [if_neg (by simp [h])]
  have hboth := haudio (s.onVideo (·.queueEntry .endOfStream))
  rw [hvideo, fed_append] at hboth
  exact hboth

theorem reads_reachEnd (s : Session host) :
    ∃ video audio, Reads host.Gives s.flows.cover s.atEnd video audio s.reachEnd.atEnd ∧
      s.reachEnd.flows = s.flows.fed false video audio ∧
      s.reachEnd.attachmentDue = s.attachmentDue := by
  cases hend : s.atEnd with
  | true =>
    have hsame : s.reachEnd = s := if_pos hend
    rw [hsame, hend]
    exact ⟨[], [], .nothing, (fed_nil s.flows).symm, rfl⟩
  | false =>
    have hafter : s.reachEnd.atEnd = true ∧ s.reachEnd.attachmentDue = s.attachmentDue := by
      unfold reachEnd
      rw [if_neg (by simp [hend])]
      exact ⟨rfl, rfl⟩
    rw [hafter.1]
    exact ⟨[.endOfStream], [.endOfStream], .ends rfl, flows_reachEnd hend, hafter.2⟩

theorem reads_route (s : Session host) (atEnd : Bool) {p : Packet} (hp : host.Gives p) :
    ∃ video audio, Reads host.Gives s.flows.cover atEnd video audio false ∧
      (s.route p).flows = s.flows.fed false video audio ∧
      (s.route p).atEnd = s.atEnd ∧ (s.route p).attachmentDue = s.attachmentDue := by
  unfold route
  dsimp only
  split
  · exact ⟨[], [.data p], .audio hp, flows_onAudio_put fun a => a.putAll_queuePacket p, rfl, rfl⟩
  · split
    · rename_i hvideo
      refine ⟨[.data p], [], .video ?_ hp, flows_onVideo_put fun v => v.putAll_queuePacket p, rfl,
        rfl⟩
      have hany : s.videoStream.any (fun v => v.params.index = p.stream &&
          !v.params.attachedPicture) = true := hvideo
      unfold videoStream at hany
      unfold Flows.cover flows
      cases hpipeline : s.video with
      | none => rfl
      | some pipeline =>
        rw [hpipeline] at hany
        simp only [Option.map_some, Option.any_some, Bool.and_eq_true, Bool.not_eq_true'] at hany
        exact hany.2
    · exact ⟨[], [], .drops, (fed_nil s.flows).symm, rfl, rfl⟩

theorem reads_readPacket (s : Session host) (now : S) :
    ∃ video audio, Reads host.Gives s.flows.cover s.atEnd video audio (s.readPacket now).atEnd ∧
      (s.readPacket now).flows = s.flows.fed false video audio ∧
      (s.readPacket now).attachmentDue = s.attachmentDue := by
  unfold readPacket
  rcases hread : host.container.read now s.medium with ⟨e | p | _, m⟩
  · cases e with
    | endOfFile => exact reads_reachEnd { s.record .read with medium := m }
    | cannotOpen | cannotRead | cannotSeek | noStreams =>
      refine ⟨[], [], ?_, (flows_failReader _).trans (fed_nil s.flows).symm, attachmentDue_quit _⟩
      have hsame (e : SourceFailure) :
          (failReader { s.record .read with medium := m } e).atEnd = s.atEnd := atEnd_quit _
      dsimp only
      rw [hsame]
      exact .nothing
  · obtain ⟨video, audio, hreads, hflows, hend, hdue⟩ :=
      reads_route { s.record .read with medium := m, atEnd := false } s.atEnd (.read hread)
    refine ⟨video, audio, ?_, hflows, hdue⟩
    dsimp only
    rw [hend]
    exact hreads
  · exact reads_reachEnd { s.record .read with medium := m }

/-! ### A whole turn -/

theorem forwardPause_spec (s : Session host) (lastPaused : Bool) :
    let s' := s.forwardPause lastPaused
    s'.options = s.options ∧ s'.source = s.source ∧ s'.atEnd = s.atEnd ∧
      s'.attachmentDue = s.attachmentDue ∧ s'.seekPending = s.seekPending := by
  unfold forwardPause
  split <;> exact ⟨rfl, rfl, rfl, rfl, rfl⟩

theorem performSeek_spec (s : Session host) (r : SeekRequest) (now : S) :
    let sought := (s.performSeek r now).1.isOk
    let s' := (s.performSeek r now).2
    s'.flows = s.flows.fed sought [] [] ∧ s'.atEnd = (s.atEnd && !sought) ∧
      s'.attachmentDue = (s.attachmentDue || sought) := by
  refine ⟨s.flows_performSeek now r, ?_⟩
  unfold performSeek
  dsimp only
  rcases host.container.seek r.range (s.record (.seek r.range)).medium with ⟨_ | _, m⟩
  · simp [Except.isOk, Except.toBool, record]
  · unfold enterEpoch
    dsimp only
    split
    · have hstep (s : Session host) :
          (s.step now).atEnd = s.atEnd ∧ (s.step now).attachmentDue = s.attachmentDue := by
        unfold step
        split <;> exact ⟨rfl, rfl⟩
      simp [hstep, Except.isOk, Except.toBool]
    · simp [Except.isOk, Except.toBool]

/-- Not too much is queued when the reader goes on to read. -/
theorem room_gate (s : Session host) (paused : Bool) (hready : (s.gate paused).1 = .ready)
    (hahead : (s.gate paused).2.readsAhead = false) : (s.gate paused).2.buffersFull = false := by
  unfold gate at hready hahead ⊢
  dsimp only at hready hahead ⊢
  split at hready
  · cases hready
  · rename_i hroom
    split at hready
    · cases hready
    · rename_i hexit
      rw [if_neg hroom, if_neg hexit] at hahead ⊢
      rw [hahead] at hroom
      exact Bool.eq_false_iff.2 hroom

theorem room_readerTop (s : Session host) (now : S) (hready : (s.readerTop now).1 = .ready)
    (hahead : (s.readerTop now).2.readsAhead = false) :
    (s.readerTop now).2.buffersFull = false := by
  unfold readerTop at hready hahead ⊢
  cases hreader : s.reader with
  | waiting | ended => simp [hreader] at hready
  | running lastPaused =>
    simp only [hreader] at hready hahead ⊢
    split at hready
    · cases hready
    rename_i hrunning
    rw [if_neg hrunning] at hahead ⊢
    split at hready
    · rename_i hpending
      simp only [hpending] at hahead ⊢
      exact room_gate _ _ hready hahead
    · rename_i r hpending
      simp only [hpending] at hahead ⊢
      split at hready
      · cases hready
      · rename_i hsought
        simp only [hsought] at hahead ⊢
        exact room_gate _ _ hready hahead

/-- The reader is in its loop, and neither an abort nor a pending seek that fails makes it leave
before it has queued what is due. -/
def passesTop (s : Session host) (now : S) : Bool :=
  s.reader matches .running _ && !s.aborted && (s.seekPending.isNone || s.seekSucceeds now)

/-- The top of the loop ends the turn, or it comes to the gate with the pending seek performed. -/
theorem readerTop_cases (s : Session host) (now : S) :
    let s' := (s.readerTop now).2
    (s.passesTop now = false ∧ (s.readerTop now).1 ≠ .ready ∧ s.seekSucceeds now = false ∧
      s'.flows = s.flows ∧ s'.atEnd = s.atEnd ∧ s'.attachmentDue = s.attachmentDue) ∨
    ∃ (top : Session host) (paused : Bool), s.readerTop now = top.gate paused ∧
      top.flows = s.flows.fed (s.seekSucceeds now) [] [] ∧
      top.atEnd = (s.atEnd && !s.seekSucceeds now) ∧
      top.attachmentDue = (s.attachmentDue || s.seekSucceeds now) := by
  unfold readerTop passesTop seekSucceeds
  cases s.reader with
  | waiting => exact .inl ⟨rfl, nofun, rfl, rfl, rfl, rfl⟩
  | ended => exact .inl ⟨rfl, nofun, rfl, rfl, rfl, rfl⟩
  | running lastPaused =>
    dsimp only
    have hflows : (s.forwardPause lastPaused).flows = s.flows := flows_forwardPause lastPaused
    obtain ⟨-, -, hend, hdue, hpending⟩ := s.forwardPause_spec lastPaused
    by_cases haborted : s.aborted = true
    · rw [if_pos haborted]
      refine .inl ⟨by rw [haborted]; rfl, nofun, ?_, rfl, rfl, rfl⟩
      cases s.seekPending with
      | none => rfl
      | some r =>
        dsimp only
        rw [haborted]
        rfl
    rw [if_neg haborted, hpending]
    have hrunning : s.aborted = false := Bool.eq_false_iff.2 haborted
    cases s.seekPending with
    | none =>
      refine .inr ⟨s.forwardPause lastPaused, s.paused, rfl, hflows.trans (fed_nil s.flows).symm,
        hend.trans ?_, hdue.trans ?_⟩
      · rw [Bool.not_false, Bool.and_true]
      · rw [Bool.or_false]
    | some r =>
      have hseek := (s.forwardPause lastPaused).performSeek_spec r now
      dsimp only
      rw [hrunning, Bool.not_false, Bool.true_and]
      rcases hresult : (s.forwardPause lastPaused).performSeek r now with ⟨e | u, s'⟩
      · rw [hresult, hflows, hend, hdue] at hseek
        obtain ⟨hflows', hend', hdue'⟩ := hseek
        refine .inl ⟨rfl, nofun, rfl, (flows_failReader e).trans (hflows'.trans (fed_nil s.flows)),
          (atEnd_quit _).trans (hend'.trans ?_), (attachmentDue_quit _).trans (hdue'.trans ?_)⟩
        · simp [Except.isOk, Except.toBool]
        · simp [Except.isOk, Except.toBool]
      · rw [hresult, hflows, hend, hdue] at hseek
        exact .inr ⟨{ s' with seekPending := none }, s.paused, rfl, hseek⟩

/-- The top of the loop ends the turn, or it has queued what was due. -/
theorem turns_readerTop (s : Session host) (now : S) :
    let s' := (s.readerTop now).2
    ((s.readerTop now).1 ≠ .ready ∧ s.seekSucceeds now = false ∧ s'.flows = s.flows ∧
      s'.atEnd = s.atEnd ∧ s'.attachmentDue = s.attachmentDue) ∨
    ∃ pic, Attaches host.Gives (s.attachmentDue || s.seekSucceeds now) s.flows.cover pic ∧
      s'.flows = s.flows.fed (s.seekSucceeds now) pic [] ∧
      s'.atEnd = (s.atEnd && !s.seekSucceeds now) ∧ s'.attachmentDue = false := by
  rcases s.readerTop_cases now with ⟨-, hleaves⟩ | ⟨top, paused, htop, hflows, hend, hdue⟩
  · exact .inl hleaves
  obtain ⟨hgate, hend', hdue'⟩ := top.gate_spec paused
  have hpic := top.attaches_attachment
  rw [hflows, cover_fed, hdue] at hpic
  rw [hflows, fed_append] at hgate
  dsimp only
  rw [htop]
  exact .inr ⟨top.attachment, hpic, hgate, hend'.trans hend, hdue'⟩

/-- A turn ends at the top of the loop, or it queues what is due there and what it reads then. -/
theorem readerTurn_cases (s : Session host) (now : S) :
    let s' := s.readerTurn now
    (s.passesTop now = false ∧ s.seekSucceeds now = false ∧ s'.flows = s.flows ∧
      s'.atEnd = s.atEnd ∧ s'.attachmentDue = s.attachmentDue) ∨
    ∃ (top : Session host) (video audio : List Entry),
      top.flows = s.flows.fed (s.seekSucceeds now) [] [] ∧
      top.attachmentDue = (s.attachmentDue || s.seekSucceeds now) ∧
      Reads host.Gives s.flows.cover (s.atEnd && !s.seekSucceeds now) video audio s'.atEnd ∧
      s'.flows = s.flows.fed (s.seekSucceeds now) (top.attachment ++ video) audio ∧
      s'.attachmentDue = false := by
  have hcases := s.readerTop_cases now
  unfold readerTurn
  rcases hcases with ⟨hleaves, hnot, hsought, hflows, hend, hdue⟩ |
    ⟨top, paused, htop, hflows, hend, hdue⟩
  · rcases hresult : s.readerTop now with ⟨g, s'⟩
    rw [hresult] at hnot hflows hend hdue
    cases g with
    | ready => exact absurd rfl hnot
    | ended | full => exact .inl ⟨hleaves, hsought, hflows, hend, hdue⟩
  · obtain ⟨hgate, hend', hdue'⟩ := top.gate_spec paused
    rw [hflows, fed_append] at hgate
    rw [htop]
    rcases hresult : top.gate paused with ⟨g, s'⟩
    rw [hresult] at hgate hend' hdue'
    cases g with
    | ready =>
      obtain ⟨video, audio, hreads, hfed, hdue''⟩ := s'.reads_readPacket now
      rw [hgate, cover_fed, hend', hend] at hreads
      refine .inr ⟨top, video, audio, hflows, hdue, hreads, ?_, hdue''.trans hdue'⟩
      dsimp only
      rw [hfed, hgate, fed_append]
      rfl
    | ended | full =>
      have hnothing :
          Reads host.Gives s.flows.cover (s.atEnd && !s.seekSucceeds now) [] [] s'.atEnd :=
        (hend'.trans hend) ▸ .nothing
      refine .inr ⟨top, [], [], hflows, hdue, hnothing, ?_, hdue'⟩
      rw [List.append_nil]
      exact hgate

theorem turns_readerTurn (s : Session host) (now : S) :
    Turns (s.seekSucceeds now) s (s.readerTurn now) := by
  rcases s.readerTurn_cases now with ⟨-, hsought, hflows, hend, hdue⟩ |
    ⟨top, video, audio, htop, hdue, hreads, hflows, hdue'⟩
  · exact .idle hsought hflows hend hdue
  · have hpic := top.attaches_attachment
    rw [htop, cover_fed, hdue] at hpic
    exact .works hpic hreads hflows hdue'

/-- A turn of the reader restarts the queues if it performs a seek, and then puts entries. -/
theorem fed_readerTurn (s : Session host) (now : S) :
    Fed (s.seekSucceeds now) s.flows (s.readerTurn now).flows := by
  cases s.turns_readerTurn now with
  | idle hsought hflows =>
    rw [hsought, hflows]
    exact ⟨[], [], nofun, nofun, (fed_nil s.flows).symm⟩
  | works hpic hreads hflows =>
    exact ⟨_, _, hpic.unmarked.append hreads.unmarked.1, hreads.unmarked.2, hflows⟩

/-! ## What a turn reports -/

/-- The ends of playback that were reported, the latest first. -/
def quits (s : Session host) : List QuitStatus :=
  s.log.filterMap HostCall.quit?

/-- The next turn of the reader reports the end of playback. -/
def Reports (s : Session host) (now : S) (status : QuitStatus) : Prop :=
  (s.readerTurn now).quits = status :: s.quits

/-- Nothing is reported on the way from `s` to `s'`. -/
def Silent (s s' : Session host) : Prop :=
  s'.quits = s.quits ∧ s'.quitSent = s.quitSent

/-- What is reported on the way from `s` to `s'`. -/
inductive Reporting (s s' : Session host) : Prop
  | silent (h : s.Silent s')
  | fails (e : SourceFailure) (hreader : s'.reader = .ended)
      (hquits : s'.quits = if s.quitSent then s.quits else .ofFailure e :: s.quits)
  | ends (hreader : s'.reader = .ended) (hplayed : s'.allPlayed = true)
      (hquits : s'.quits = if s.quitSent then s.quits else .endOfStream :: s.quits)

theorem Silent.trans {s'' : Session host} (h : s.Silent s') (h' : s'.Silent s'') :
    s.Silent s'' :=
  ⟨h'.1.trans h.1, h'.2.trans h.2⟩

theorem Silent.reporting {s'' : Session host} (h : s.Silent s') (h' : Reporting s' s'') :
    Reporting s s'' := by
  cases h' with
  | silent h' => exact .silent (h.trans h')
  | fails e hreader hquits => exact .fails e hreader (by rw [hquits, h.1, h.2])
  | ends hreader hplayed hquits => exact .ends hreader hplayed (by rw [hquits, h.1, h.2])

theorem quits_quit (status : QuitStatus) :
    (s.quit status).quits = if s.quitSent then s.quits else status :: s.quits := by
  unfold quit
  split <;> rfl

theorem reporting_failReader (e : SourceFailure) : Reporting s (s.failReader e) :=
  .fails e rfl (quits_quit _)

theorem silent_forwardPause (s : Session host) (lastPaused : Bool) :
    s.Silent (s.forwardPause lastPaused) := by
  unfold forwardPause
  split <;> exact ⟨rfl, rfl⟩

theorem silent_performSeek (s : Session host) (r : SeekRequest) (now : S) :
    s.Silent (s.performSeek r now).2 := by
  unfold performSeek
  dsimp only
  split
  · exact ⟨rfl, rfl⟩
  · unfold enterEpoch
    dsimp only
    split
    · unfold step
      split <;> exact ⟨rfl, rfl⟩
    · exact ⟨rfl, rfl⟩

theorem silent_queueAttachment (s : Session host) : s.Silent s.queueAttachment := by
  unfold queueAttachment
  split
  · exact ⟨rfl, rfl⟩
  · dsimp only
    split
    · split
      · split <;> exact ⟨rfl, rfl⟩
      · exact ⟨rfl, rfl⟩
    · exact ⟨rfl, rfl⟩

theorem reporting_gate (s : Session host) (paused : Bool) :
    Reporting s (s.gate paused).2 ∧ ((s.gate paused).1 = .ready → s.Silent (s.gate paused).2) := by
  have hattach := s.silent_queueAttachment
  unfold gate
  dsimp only
  split
  · exact ⟨.silent hattach, fun _ => hattach⟩
  · split
    · rename_i hexit
      simp only [Bool.and_eq_true] at hexit
      refine ⟨hattach.reporting (.ends rfl ?_ (quits_quit _)), nofun⟩
      have hplayed := hexit.1.1
      unfold quit
      split <;> exact hplayed
    · exact ⟨.silent hattach, fun _ => hattach⟩

theorem reporting_readerTop (s : Session host) (now : S) :
    Reporting s (s.readerTop now).2 ∧
      ((s.readerTop now).1 = .ready → s.Silent (s.readerTop now).2) := by
  have hgate {s' : Session host} (h : s.Silent s') (paused : Bool) :
      Reporting s (s'.gate paused).2 ∧
        ((s'.gate paused).1 = .ready → s.Silent (s'.gate paused).2) := by
    obtain ⟨hreporting, hsilent⟩ := s'.reporting_gate paused
    exact ⟨h.reporting hreporting, fun hready => h.trans (hsilent hready)⟩
  unfold readerTop
  cases s.reader with
  | waiting => exact ⟨.silent ⟨rfl, rfl⟩, nofun⟩
  | ended => exact ⟨.silent ⟨rfl, rfl⟩, nofun⟩
  | running lastPaused =>
    dsimp only
    have hpause := s.silent_forwardPause lastPaused
    split
    · exact ⟨.silent ⟨rfl, rfl⟩, nofun⟩
    split
    · exact hgate hpause _
    · rename_i r _
      have hsought := hpause.trans (silent_performSeek _ r now)
      split
      · rename_i e s' heq
        rw [heq] at hsought
        have hsought' : s.Silent { s' with seekPending := none } := hsought
        exact ⟨hsought'.reporting (reporting_failReader e), nofun⟩
      · rename_i u s' heq
        rw [heq] at hsought
        have hsought' : s.Silent { s' with seekPending := none } := hsought
        exact hgate hsought' _

theorem reporting_readPacket (s : Session host) (now : S) : Reporting s (s.readPacket now) := by
  have hend (s : Session host) : s.Silent s.reachEnd := by
    unfold reachEnd
    split <;> exact ⟨rfl, rfl⟩
  unfold readPacket
  rcases host.container.read now s.medium with ⟨e | p | _, m⟩
  · have hread : s.Silent { s.record .read with medium := m } := ⟨rfl, rfl⟩
    cases e with
    | endOfFile => exact .silent (hread.trans (hend _))
    | cannotOpen | cannotRead | cannotSeek | noStreams =>
      exact hread.reporting (reporting_failReader _)
  · dsimp only
    unfold route
    dsimp only
    split
    · exact .silent ⟨rfl, rfl⟩
    · split <;> exact .silent ⟨rfl, rfl⟩
  · exact .silent (hend { s.record .read with medium := m })

theorem reporting_readerTurn (s : Session host) (now : S) : Reporting s (s.readerTurn now) := by
  obtain ⟨hreporting, hsilent⟩ := s.reporting_readerTop now
  unfold readerTurn
  split
  · rename_i s' heq
    rw [heq] at hsilent
    exact (hsilent rfl).reporting (s'.reporting_readPacket now)
  · rename_i s' _ heq
    rw [heq] at hreporting
    exact hreporting

/-- Playback is reported to have ended only when everything was played out. -/
theorem allPlayed_of_reports (h : s.Reports now .endOfStream) :
    (s.readerTurn now).allPlayed = true ∧ s.quitSent = false := by
  have hnot (status : QuitStatus) : s.quits ≠ status :: s.quits := (List.cons_ne_self _ _).symm
  unfold Reports at h
  cases s.reporting_readerTurn now with
  | silent hsilent =>
    rw [hsilent.1] at h
    exact absurd h (hnot _)
  | fails e hreader hquits =>
    rw [hquits] at h
    split at h
    · exact absurd h (hnot _)
    · cases List.head_eq_of_cons_eq h
  | ends hreader hplayed hquits =>
    rw [hquits] at h
    split at h
    · exact absurd h (hnot _)
    · rename_i hsent
      exact ⟨hplayed, Bool.eq_false_iff.2 hsent⟩

/-- The end of playback was not reported before the reader has left its loop. -/
theorem unreported_readerTurn (h : s.reader ≠ .ended → s.quitSent = false)
    (hreader : (s.readerTurn now).reader ≠ .ended) : (s.readerTurn now).quitSent = false := by
  by_cases hended : s.reader = .ended
  · have hsame : s.readerTurn now = s := by
      unfold readerTurn readerTop
      rw [hended]
    rw [hsame] at hreader
    exact absurd hended hreader
  · cases s.reporting_readerTurn now with
    | silent hsilent => exact hsilent.2.trans (h hended)
    | fails e hended' => exact absurd hended' hreader
    | ends hended' => exact absurd hended' hreader

end Session

end Playback
