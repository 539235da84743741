import Playback.Proofs.Decoding.EpochEnd
import Playback.Proofs.Session.ReaderTurns

/-!
# Sessions with what was accepted in each epoch

A session is followed together with a record for each kind of stream: the entries that the queue of
the stream has accepted since the marker of its current epoch, and whether the stream was opened
with this epoch when the end of the source had been read already (`Recorded`). The session itself
does not know the records.

Throughout every run (`Recorded.Kept.run`) the decoders follow what is recorded, and once the end of
the source was read, the last entry of every record is the end of the stream. There is one
exception: nothing at all may have been accepted since a stream was opened too late.
-/

namespace Playback

/-! ## Records -/

/-- What a queue has accepted in its current epoch. -/
structure EpochRecord where
  /-- The entries behind the marker of the epoch, in order. -/
  entries : List Entry
  /-- The epoch began when the stream was opened, and the end of the source had been read then. -/
  late : Bool

namespace EpochRecord

/-- The record of a stream that was just opened. -/
def opened (late : Bool) : EpochRecord :=
  ⟨[], late⟩

/-- The record after the reader took the queue from `q` to `q'`. -/
def after (r : EpochRecord) (q q' : PacketQueue) : EpochRecord :=
  if q'.serial = q.serial then
    { r with entries := r.entries ++ (q'.entries.drop q.length).map (·.entry) }
  else ⟨(q'.entries.map (·.entry)).tail, false⟩

/-- The record after the reader took a stream from `v` to `v'`. -/
def afterTurn {S α : Type} (r : EpochRecord) (v v' : Option (Stream S α)) : EpochRecord :=
  match v, v' with
  | some v, some v' => r.after v.packets v'.packets
  | _, _ => r

variable {q : PacketQueue} {entries : List Entry}

theorem after_self (r : EpochRecord) (q : PacketQueue) : r.after q q = r := by
  simp [after, PacketQueue.length]

theorem after_of_aborted (r : EpochRecord) (h : q.aborted = true) (restarts : Bool)
    (entries : List Entry) : r.after q (q.fed restarts entries) = r := by
  obtain ⟨hserial, hnew⟩ := PacketQueue.new_of_aborted h restarts entries
  rw [after, if_pos hserial, hnew]
  simp

theorem after_of_running (r : EpochRecord) (h : q.aborted = false) (hentries : Unmarked entries) :
    r.after q (q.fed false entries) = { r with entries := r.entries ++ entries } := by
  obtain ⟨hserial, hnew⟩ := PacketQueue.new_of_running h hentries
  rw [after, if_pos hserial, hnew]

theorem after_of_restarted (r : EpochRecord) (h : q.aborted = false) (hentries : Unmarked entries) :
    r.after q (q.fed true entries) = ⟨entries, false⟩ := by
  obtain ⟨hserial, hnew⟩ := PacketQueue.new_of_restarted h hentries
  rw [after, if_neg (by omega), hnew]
  rfl

end EpochRecord

/-! ## Flows with their records -/

variable {S M σ F α : Type}

/-- A flow goes by the record of its queue. The end of the source was read if `atEnd` is set; a
stream that is a `cover` consists of a single picture. -/
structure Recording (codec : Codec S M σ F) (atEnd cover : Bool) (r : EpochRecord)
    (f : Flow S σ F α) : Prop where
  follows : Follows codec r.entries f.decoder f.packets
  held : ∀ x, f.worker = .holding x → codec.Quiet r.entries →
    f.decoder.finished ≠ some f.packets.serial
  told : f.packets.aborted = false → atEnd = true →
    r.entries.getLast? = some .endOfStream ∨ r.late = true ∧ r.entries = []
  cover : cover = true → ∀ e ∈ afterEnd r.entries, e = .endOfStream

namespace Recording

variable {codec : Codec S M σ F} {atEnd atEnd' cover : Bool} {r : EpochRecord} {f f' : Flow S σ F α}
  {entries : List Entry}

theorem opened {opens : StreamParams → Except CodecFailure σ} (codec : Codec S M σ F)
    (h : f.Opened opens) (atEnd : Bool) : Recording codec atEnd cover (.opened atEnd) f := by
  obtain @⟨p, c, hopen, kind, fallback, ringSize, keepLast⟩ := h
  exact ⟨.fresh codec kind c p.timeBase fallback, nofun, fun _ hend => .inr ⟨hend, rfl⟩,
    by simp [EpochRecord.opened, afterEnd]⟩

theorem consume (h : Recording codec atEnd cover r f) (g : FrameRing α → FrameRing α) :
    Recording codec atEnd cover r (f.onFrames g) :=
  ⟨h.follows, h.held, h.told, h.cover⟩

theorem abort (h : Recording codec atEnd cover r f) :
    Recording codec atEnd cover r
      { f with packets := f.packets.abort, frames := f.frames.stop } :=
  ⟨h.follows.abort, h.held, nofun, h.cover⟩

/-! ### The decode loop -/

/-- The decode loop goes on without a frame. -/
theorem running (h : Recording codec atEnd cover r f) {d : Decoder S σ F} {q : PacketQueue}
    {frames : FrameRing α} {worker : Worker α} (hworker : ∀ x, worker ≠ .holding x)
    (hfollows : Follows codec r.entries d q) (haborted : q.aborted = f.packets.aborted) :
    Recording codec atEnd cover r ⟨f.params, q, frames, d, worker⟩ :=
  ⟨hfollows, fun x hx => absurd hx (hworker x), haborted ▸ h.told, h.cover⟩

section Moves

variable [Scalar S] [CodecUnit F] {make : DecodedFrame S F → α} {refuses : Prop} {now : S} {m : M}
  {run : Decoder.Run S M σ F}

/-- A call to the decoder that does not fail, seen from before its result is given out and from
after that. -/
theorem decoded (h : Recording codec atEnd cover r f)
    (hr : f.decoder.next codec now f.packets m = run) (hok : ∀ cause, run.result ≠ .failed cause) :
    Follows codec r.entries run.before run.queue ∧ Follows codec r.entries run.decoder run.queue ∧
      run.queue.serial = f.packets.serial ∧ run.queue.aborted = f.packets.aborted := by
  subst hr
  obtain ⟨front, htakes⟩ := Decoder.takes_next codec now f.decoder f.packets m
  obtain ⟨hbefore, hafter⟩ := h.follows.next now m hok
  exact ⟨hbefore, hafter, htakes.serial, htakes.aborted⟩

theorem moves (h : Recording codec atEnd cover r f)
    (hmove : Flow.Moves codec make refuses (some f) (some f')) :
    Recording codec atEnd cover r f' ∧ f'.params = f.params ∧
      (f'.packets.aborted = false → f.packets.aborted = false) := by
  cases hmove with
  | waits => exact ⟨h, rfl, id⟩
  | ends => exact ⟨h.running nofun h.follows rfl, rfl, id⟩
  | publishes => exact ⟨h.running nofun h.follows rfl, rfl, id⟩
  | decodes hr hok hworker =>
    obtain ⟨-, hfollows, -, haborted⟩ := h.decoded hr hok
    have hidle : ∀ x, f.worker ≠ .holding x := by simp [hworker]
    exact ⟨h.running hidle hfollows haborted, rfl, haborted.symm.trans⟩
  | endsAfter hr hok =>
    obtain ⟨-, hfollows, -, haborted⟩ := h.decoded hr hok
    exact ⟨h.running nofun hfollows haborted, rfl, haborted.symm.trans⟩
  | @takes _ now m run d hr hresult =>
    obtain ⟨hbefore, hfollows, hserial, haborted⟩ := h.decoded hr (by simp [hresult])
    refine ⟨⟨hfollows, fun x _ hquiet hfinished => ?_, haborted ▸ h.told, h.cover⟩, rfl,
      haborted.symm.trans⟩
    -- the frame was pending, so the epoch cannot have been finished before
    subst hr
    obtain ⟨hpending, hsame⟩ := (Decoder.ran_next codec now f.decoder f.packets m).pending hresult
    exact hpending (hbefore.not_pending hquiet (hsame ▸ hfinished))
  | refused hr hok =>
    obtain ⟨-, hfollows, -, -⟩ := h.decoded hr hok
    exact ⟨⟨hfollows.abort, nofun, nofun, h.cover⟩, rfl, nofun⟩
  | leaves hr hresult hworker =>
    obtain ⟨hfollows, -, -, haborted⟩ := h.decoded hr (by simp [hresult])
    have hidle : ∀ x, f.worker ≠ .holding x := by simp [hworker]
    exact ⟨h.running hidle hfollows haborted, rfl, haborted.symm.trans⟩

end Moves

/-! ### The reader -/

/-- What a turn of the reader puts into a queue fits the record: the end of the stream comes last if
the end of the source was read, and a cover gets no data behind it. -/
structure Fits (r : EpochRecord) (atEnd' cover : Bool) (entries : List Entry) : Prop where
  unmarked : Unmarked entries
  told : atEnd' = true → (r.entries ++ entries).getLast? = some .endOfStream ∨
    r.late = true ∧ r.entries ++ entries = []
  cover : cover = true → ∀ e ∈ afterEnd (r.entries ++ entries), e = .endOfStream

/-- A turn of the reader that performs no seek. -/
theorem fed (h : Recording codec atEnd cover r f)
    (hentries : f.packets.aborted = false → Fits r atEnd' cover entries) :
    Recording codec atEnd' cover (r.after f.packets (f.fed false entries).packets)
      (f.fed false entries) := by
  have hpackets : (f.fed false entries).packets = f.packets.fed false entries := rfl
  rw [hpackets]
  cases hrun : f.packets.aborted with
  | true =>
    have hfed : f.fed false entries = f := by
      rw [Flow.fed, PacketQueue.fed_of_aborted hrun]
      rfl
    rw [r.after_of_aborted hrun, hfed]
    exact ⟨h.follows, h.held, by simp [hrun], h.cover⟩
  | false =>
    obtain ⟨hunmarked, htold, hcover⟩ := hentries hrun
    have hserial : (f.packets.putAll entries).serial = f.packets.serial :=
      f.packets.serial_putAll hunmarked
    rw [r.after_of_running hrun hunmarked]
    refine ⟨h.follows.putAll hrun hunmarked, fun x hx hquiet => ?_, fun _ => htold, hcover⟩
    have hheld := h.held x hx hquiet.of_append
    rw [← hserial] at hheld
    exact hheld

/-- A turn of the reader that performs a seek. -/
theorem sought (h : Recording codec atEnd cover r f)
    (hentries : Fits (.opened false) atEnd' cover entries) :
    Recording codec atEnd' cover (r.after f.packets (f.fed true entries).packets)
      (f.fed true entries) := by
  have hpackets : (f.fed true entries).packets = f.packets.fed true entries := rfl
  rw [hpackets]
  cases hrun : f.packets.aborted with
  | true =>
    have hfed : f.fed true entries = { f with packets := f.packets.clear } := by
      rw [Flow.fed, PacketQueue.fed_of_aborted hrun]
      rfl
    rw [r.after_of_aborted hrun, hfed]
    have hstill : f.packets.clear.aborted = true := hrun
    exact ⟨h.follows.clear_of_aborted hrun, h.held, by simp [hstill], h.cover⟩
  | false =>
    obtain ⟨hunmarked, htold, hcover⟩ := hentries
    have hfollows : Follows codec entries f.decoder (f.packets.fed true entries) :=
      (h.follows.restart hrun).putAll ((f.packets.aborted_restart).trans hrun) hunmarked
    have hserial : (f.packets.fed true entries).serial = f.packets.serial + 1 :=
      (PacketQueue.new_of_restarted hrun hunmarked).1
    rw [r.after_of_restarted hrun hunmarked]
    refine ⟨hfollows, fun x _ _ hfinished => ?_, fun _ => htold, hcover⟩
    have hle := h.follows.finished _ hfinished
    have hbehind := h.follows.ordered.behind
    have hnew : (f.fed true entries).packets.serial = f.packets.serial + 1 := hserial
    omega

theorem ends_append {entries entries' : List Entry}
    (h : ∀ e ∈ afterEnd entries, e = .endOfStream) (h' : ∀ e ∈ entries', e = .endOfStream) :
    ∀ e ∈ afterEnd (entries ++ entries'), e = .endOfStream := by
  intro e he
  by_cases hend : Entry.endOfStream ∈ entries
  · rw [afterEnd_append hend] at he
    rcases List.mem_append.1 he with he | he
    · exact h e he
    · exact h' e he
  · rw [afterEnd_of_not_mem hend] at he
    exact h' e (mem_of_mem_afterEnd he)

variable {gives : Packet → Prop} {due atEnd₀ : Bool} {pic video audio : List Entry}

/-- What a turn puts into the queue of pictures fits a record that fits so far, if nothing was
accepted there as long as the single picture is due. -/
theorem Fits.of_turn (hpic : Attaches gives due cover pic)
    (hreads : Reads gives cover atEnd₀ video audio atEnd')
    (hdue : due = true → r.entries = [])
    (htold : atEnd₀ = true →
      r.entries.getLast? = some .endOfStream ∨ r.late = true ∧ r.entries = [])
    (hcover : cover = true → ∀ e ∈ afterEnd r.entries, e = .endOfStream) :
    Fits r atEnd' cover (pic ++ video) := by
  have hvideo (hc : cover = true) : ∀ e ∈ video, e = .endOfStream := by
    subst hc
    exact hreads.ends_of_cover
  refine ⟨hpic.unmarked.append hreads.unmarked.1, fun hend => ?_, fun hc => ?_⟩
  · cases hreads with
    | ends => exact .inl (by simp)
    | nothing =>
      cases hpic with
      | nothing => simpa using htold hend
      | picture => exact .inl (by simp)
    | video | audio | drops => cases hend
  · cases hpic with
    | nothing => exact ends_append (hcover hc) (hvideo hc)
    | picture hdue' =>
      rw [hdue hdue']
      exact hvideo hc

theorem Fits.of_read (hreads : Reads gives cover atEnd₀ video audio atEnd')
    (htold : atEnd₀ = true →
      r.entries.getLast? = some .endOfStream ∨ r.late = true ∧ r.entries = []) :
    Fits r atEnd' false audio := by
  refine ⟨hreads.unmarked.2, fun hend => ?_, nofun⟩
  cases hreads with
  | ends => exact .inl (by simp)
  | nothing => simpa using htold hend
  | video | audio | drops => cases hend

end Recording

/-- The record of a stream after a turn of the reader is that of its flow. -/
theorem EpochRecord.afterTurn_fed {v v' : Option (Pipeline S σ F α)} {f' : Flow S σ F α}
    {sought : Bool} {entries : List Entry}
    (hv : v'.map Pipeline.flow = (v.map Pipeline.flow).map (·.fed sought entries))
    (hf : v'.map Pipeline.flow = some f') :
    ∃ f, v.map Pipeline.flow = some f ∧ f' = f.fed sought entries ∧
      ∀ r : EpochRecord, r.afterTurn (v.map (·.stream)) (v'.map (·.stream)) =
        r.after f.packets (f.fed sought entries).packets := by
  rw [hf] at hv
  obtain ⟨f, hold, hnew⟩ := Option.map_eq_some_iff.1 hv.symm
  refine ⟨f, hold, hnew.symm, fun r => ?_⟩
  rw [hnew]
  obtain ⟨p, rfl, rfl⟩ := Option.map_eq_some_iff.1 hold
  obtain ⟨p', rfl, rfl⟩ := Option.map_eq_some_iff.1 hf
  rfl

/-- Both flows go by their records. -/
structure Flows.Recorded {S : Type} {host : Host S} (fs : Flows host) (rs : ReaderState)
    (pictures sound : EpochRecord) : Prop where
  forced : fs.forced = false
  video : ∀ f, fs.video = some f →
    Recording host.video rs.atEnd f.params.attachedPicture pictures f
  audio : ∀ f, fs.audio = some f → Recording host.audio rs.atEnd false sound f
  due : rs.attachmentDue = true → ∀ f, fs.video = some f → f.packets.aborted = false →
    pictures.entries = []
  unreported : rs.reader ≠ .ended → rs.quitSent = false

namespace Flows.Recorded

variable {S : Type} {host : Host S} {fs : Flows host} {rs : ReaderState} {video audio : EpochRecord}

theorem onPictures (h : fs.Recorded rs video audio)
    (g : FrameRing (VideoFrame S) → FrameRing (VideoFrame S)) :
    (fs.onPictures g).Recorded rs video audio := by
  refine ⟨h.forced, fun f hf => ?_, h.audio, fun hdue f hf hrun => ?_, h.unreported⟩
  · obtain ⟨f', hold, rfl⟩ := Option.map_eq_some_iff.1 hf
    exact (h.video f' hold).consume g
  · obtain ⟨f', hold, rfl⟩ := Option.map_eq_some_iff.1 hf
    exact h.due hdue f' hold hrun

theorem onSound (h : fs.Recorded rs video audio)
    (g : FrameRing (AudioFrame S) → FrameRing (AudioFrame S)) :
    (fs.onSound g).Recorded rs video audio := by
  refine ⟨h.forced, h.video, fun f hf => ?_, h.due, h.unreported⟩
  obtain ⟨f', hold, rfl⟩ := Option.map_eq_some_iff.1 hf
  exact (h.audio f' hold).consume g

theorem videoMoves [Scalar S] (h : fs.Recorded rs video audio)
    {v : Option (Flow S host.VideoCodec DecodedPicture (VideoFrame S))}
    (hmoves : Flow.Moves host.video Session.pictureFrame host.Refuses fs.video v) :
    ({ fs with video := v } : Flows host).Recorded rs video audio := by
  refine ⟨h.forced, fun f (hf : v = some f) => ?_, h.audio,
    fun hdue f (hf : v = some f) hrun => ?_, h.unreported⟩
  all_goals
    subst hf
    obtain ⟨f', hold, hmove⟩ := hmoves.source
    obtain ⟨hrecording, hparams, haborted⟩ := (h.video f' hold).moves hmove
  · rw [hparams]
    exact hrecording
  · exact h.due hdue f' hold (haborted hrun)

theorem audioMoves [Scalar S] (h : fs.Recorded rs video audio)
    {a : Option (Flow S host.AudioCodec DecodedAudio (AudioFrame S))}
    (hmoves : Flow.Moves host.audio AudioFrame.ofDecoded False fs.audio a) :
    ({ fs with audio := a } : Flows host).Recorded rs video audio := by
  refine ⟨h.forced, h.video, fun f (hf : a = some f) => ?_, h.due, h.unreported⟩
  subst hf
  obtain ⟨f', hold, hmove⟩ := hmoves.source
  exact ((h.audio f' hold).moves hmove).1

theorem downstream [Scalar S] (h : fs.Recorded rs video audio) {fs' : Flows host}
    (hdown : fs.Downstream fs') : fs'.Recorded rs video audio := by
  cases hdown with
  | nothing hflows => exact hflows ▸ h
  | video hmoves hflows => exact hflows ▸ h.videoMoves hmoves
  | audio hmoves hflows => exact hflows ▸ h.audioMoves hmoves
  | shows _ hflows => exact hflows ▸ h.onPictures _
  | plays _ hflows => exact hflows ▸ h.onSound _

end Flows.Recorded

/-! ## Sessions with their records -/

/-- A session with the records of its streams. -/
structure Recorded {S : Type} [Scalar S] (host : Host S) where
  session : Session host
  video : EpochRecord
  audio : EpochRecord

namespace Recorded

variable {S : Type} [Scalar S] {host : Host S}

/-- A session that was just opened. -/
def start (s : Session host) : Recorded host :=
  ⟨s, .opened false, .opened false⟩

/-- The effect of an action at the moment `now`. -/
def perform (t : Recorded host) (now : S) (action : Session.Action) : Recorded host :=
  let s := t.session.perform now action
  match action with
  | .readerTurn =>
    { session := s
      video := t.video.afterTurn t.session.videoStream s.videoStream
      audio := t.audio.afterTurn t.session.audioStream s.audioStream }
  | .cycleStream .video =>
    { t with
      session := s
      video := if t.session.switches .video then .opened t.session.atEnd else t.video }
  | .cycleStream .audio =>
    { t with
      session := s
      audio := if t.session.switches .audio then .opened t.session.atEnd else t.audio }
  | _ => { t with session := s }

/-- The effect of a run. -/
def run (t : Recorded host) (actions : List (S × Session.Action)) : Recorded host :=
  actions.foldl (fun t a => t.perform a.1 a.2) t

theorem session_perform (t : Recorded host) (now : S) (action : Session.Action) :
    (t.perform now action).session = t.session.perform now action := by
  unfold perform
  split <;> rfl

theorem session_run (t : Recorded host) (actions : List (S × Session.Action)) :
    (t.run actions).session = t.session.run actions :=
  (List.foldl_hom session fun t a => (t.session_perform a.1 a.2).symm).symm

theorem perform_of_stays {t : Recorded host} {kind : MediaKind}
    (hswitch : t.session.switches kind = false) (now : S) :
    t.perform now (.cycleStream kind) = t := by
  cases kind <;> simp [perform, Session.perform, hswitch, Session.cycleStream_of_stays hswitch]

/-- The flows through the session go by the records. -/
def Kept (t : Recorded host) : Prop :=
  t.session.flows.Recorded t.session.readerState t.video t.audio

namespace Kept

variable {t : Recorded host}

/-- Neither the records nor the reader take part. -/
theorem downstream (h : t.Kept) (now : S) {action : Session.Action}
    (hdown : action.isDownstream = true) (hstart : action ≠ .start) :
    Kept { t with session := t.session.perform now action } := by
  rw [Kept, Session.readerState_perform hdown hstart]
  exact Flows.Recorded.downstream h (Session.downstream_perform h.forced now hdown)

/-! ### The reader -/

theorem videoTurn (h : t.Kept) {sought atEnd' : Bool} {pic video audio : List Entry}
    (hpic : Attaches host.Gives (t.session.attachmentDue || sought) t.session.flows.cover pic)
    (hreads :
      Reads host.Gives t.session.flows.cover (t.session.atEnd && !sought) video audio atEnd')
    {v' : Option (Pipeline S host.VideoCodec DecodedPicture (VideoFrame S))}
    (hv : v'.map Pipeline.flow = t.session.flows.video.map (·.fed sought (pic ++ video)))
    {f' : Flow S host.VideoCodec DecodedPicture (VideoFrame S)}
    (hf : v'.map Pipeline.flow = some f') :
    Recording host.video atEnd' f'.params.attachedPicture
      (t.video.afterTurn t.session.videoStream (v'.map (·.stream))) f' := by
  obtain ⟨f, hold, rfl, hrecord⟩ := EpochRecord.afterTurn_fed hv hf
  have hrecording := h.video f hold
  have hcover : t.session.flows.cover = f.params.attachedPicture := by
    rw [Flows.cover, Session.flows, hold]
    rfl
  rw [hcover] at hpic hreads
  have hstream : t.session.videoStream = t.session.video.map (·.stream) := rfl
  rw [hstream, hrecord]
  cases sought with
  | false =>
    rw [Bool.or_false] at hpic
    rw [Bool.not_false, Bool.and_true] at hreads
    exact hrecording.fed fun hrun => .of_turn hpic hreads (fun hdue => h.due hdue f hold hrun)
      (hrecording.told hrun) hrecording.cover
  | true =>
    rw [Bool.not_true, Bool.and_false] at hreads
    exact hrecording.sought (.of_turn hpic hreads (fun _ => rfl) (by simp)
      (by simp [EpochRecord.opened, afterEnd]))

theorem audioTurn (h : t.Kept) {sought cover atEnd' : Bool} {video audio : List Entry}
    (hreads : Reads host.Gives cover (t.session.atEnd && !sought) video audio atEnd')
    {a' : Option (Pipeline S host.AudioCodec DecodedAudio (AudioFrame S))}
    (ha : a'.map Pipeline.flow = t.session.flows.audio.map (·.fed sought audio))
    {f' : Flow S host.AudioCodec DecodedAudio (AudioFrame S)}
    (hf : a'.map Pipeline.flow = some f') :
    Recording host.audio atEnd' false
      (t.audio.afterTurn t.session.audioStream (a'.map (·.stream))) f' := by
  obtain ⟨f, hold, rfl, hrecord⟩ := EpochRecord.afterTurn_fed ha hf
  have hrecording := h.audio f hold
  have hstream : t.session.audioStream = t.session.audio.map (·.stream) := rfl
  rw [hstream, hrecord]
  cases sought with
  | false =>
    rw [Bool.not_false, Bool.and_true] at hreads
    exact hrecording.fed fun hrun => .of_read hreads (hrecording.told hrun)
  | true =>
    rw [Bool.not_true, Bool.and_false] at hreads
    exact hrecording.sought (.of_read hreads (by simp))

theorem readerTurn (h : t.Kept) (now : S) : (t.perform now .readerTurn).Kept := by
  have hunreported : (t.session.readerTurn now).reader ≠ .ended →
      (t.session.readerTurn now).quitSent = false := Session.unreported_readerTurn h.unreported
  cases t.session.turns_readerTurn now with
  | idle hsought hflows hend hdue =>
    have hfed : (t.session.readerTurn now).flows = t.session.flows.fed false ([] ++ []) [] :=
      hflows.trans (Flows.fed_nil _).symm
    have hpic : Attaches host.Gives (t.session.attachmentDue || false) t.session.flows.cover [] :=
      .nothing
    have hreads : Reads host.Gives t.session.flows.cover (t.session.atEnd && !false) [] []
        (t.session.readerTurn now).atEnd := by
      rw [hend, Bool.not_false, Bool.and_true]
      exact .nothing
    refine ⟨(congrArg Flows.forced hfed).trans h.forced,
      fun f hf => h.videoTurn hpic hreads (congrArg Flows.video hfed) hf,
      fun f hf => h.audioTurn hreads (congrArg Flows.audio hfed) hf, ?_, hunreported⟩
    intro hdue' f hf hrun
    obtain ⟨f', hold, rfl, hrecord⟩ :=
      EpochRecord.afterTurn_fed (congrArg Flows.video hfed) hf
    have hrun' : f'.packets.aborted = false := (f'.aborted_fed _ _).symm.trans hrun
    have hentries := h.due (hdue.symm.trans hdue') f' hold hrun'
    have hsame := (hrecord t.video).trans (t.video.after_self f'.packets)
    exact (congrArg EpochRecord.entries hsame).trans hentries
  | works hpic hreads hflows hdue =>
    refine ⟨(congrArg Flows.forced hflows).trans h.forced,
      fun f hf => h.videoTurn hpic hreads (congrArg Flows.video hflows) hf,
      fun f hf => h.audioTurn hreads (congrArg Flows.audio hflows) hf, ?_, hunreported⟩
    intro hdue'
    have hnot : (t.session.readerTurn now).attachmentDue = true := hdue'
    rw [hdue] at hnot
    cases hnot

/-! ### Opening and closing -/

theorem start {s : Session host} {uri : String} {options : Options S} {screen : host.Screen}
    {now : S} (hopen : Session.open host uri options screen now = .ok s) :
    (Recorded.start s).Kept := by
  have hjust := Session.justOpened_open hopen
  obtain ⟨due, hreader⟩ := Session.readerState_open hopen
  have hkept : s.flows.Recorded ⟨.waiting, false, due, false⟩ (.opened false) (.opened false) :=
    ⟨hjust.forced, fun f hf => .opened host.video (hjust.video f hf) false,
      fun f hf => .opened host.audio (hjust.audio f hf) false, fun _ _ _ _ => rfl, fun _ => rfl⟩
  rw [← hreader] at hkept
  exact hkept

theorem cycleVideo (h : t.Kept) (now : S) : (t.perform now (.cycleStream .video)).Kept := by
  cases hswitch : t.session.switches .video with
  | false =>
    rw [perform_of_stays hswitch]
    exact h
  | true =>
    obtain ⟨v, hv, hflows⟩ := Session.flows_cycleVideo hswitch now
    obtain ⟨due, hreader⟩ := Session.readerState_cycleVideo hswitch now
    have hperform : t.perform now (.cycleStream .video) =
        { t with
          session := (t.session.cycleStream .video now).2
          video := .opened t.session.atEnd } := by
      simp [perform, Session.perform, hswitch]
    rw [hperform, Kept, hflows, hreader]
    exact ⟨h.forced, fun f hf => .opened host.video (hv f hf) t.session.atEnd, h.audio,
      fun _ _ _ _ => rfl, h.unreported⟩

theorem cycleAudio (h : t.Kept) (now : S) : (t.perform now (.cycleStream .audio)).Kept := by
  cases hswitch : t.session.switches .audio with
  | false =>
    rw [perform_of_stays hswitch]
    exact h
  | true =>
    obtain ⟨a, ha, hflows⟩ := Session.flows_cycleAudio hswitch now
    have hreader := Session.readerState_cycleAudio hswitch now
    have hperform : t.perform now (.cycleStream .audio) =
        { t with
          session := (t.session.cycleStream .audio now).2
          audio := .opened t.session.atEnd } := by
      simp [perform, Session.perform, hswitch]
    rw [hperform, Kept, hflows, hreader]
    exact ⟨h.forced, h.video, fun f hf => .opened host.audio (ha f hf) t.session.atEnd, h.due,
      h.unreported⟩

theorem abort (h : t.Kept) : Kept { t with session := t.session.abort } := by
  have hreader : t.session.abort.readerState = t.session.readerState := rfl
  rw [Kept, Session.flows_abort, hreader]
  refine ⟨h.forced, fun f hf => ?_, fun f hf => ?_, fun _ f hf hrun => ?_, h.unreported⟩
  · obtain ⟨f', hold, rfl⟩ := Option.map_eq_some_iff.1 hf
    exact (h.video f' hold).abort
  · obtain ⟨f', hold, rfl⟩ := Option.map_eq_some_iff.1 hf
    exact (h.audio f' hold).abort
  · obtain ⟨f', hold, rfl⟩ := Option.map_eq_some_iff.1 hf
    cases hrun

theorem close (h : t.Kept) : Kept { t with session := t.session.close } := by
  have hended : t.session.close.reader = .ended := by
    have hreader : t.session.close.readerState =
        { t.session.readerState with reader := .ended } := by
      unfold Session.close
      rw [Session.readerState_closeStream, Session.readerState_closeStream]
      rfl
    exact congrArg ReaderState.reader hreader
  rw [Kept, Session.flows_close]
  exact ⟨h.forced, (fun f hf => nomatch hf), (fun f hf => nomatch hf),
    (fun _ f hf => nomatch hf), fun hnot => absurd hended hnot⟩

theorem startReader (h : t.Kept) : Kept { t with session := t.session.start } := by
  unfold Session.start
  split
  · rename_i hwaiting
    have hsent : t.session.quitSent = false :=
      h.unreported (by simp [Session.readerState, hwaiting])
    exact ⟨h.forced, h.video, h.audio, h.due, fun _ => hsent⟩
  · exact h

theorem perform (h : t.Kept) (now : S) (action : Session.Action) : (t.perform now action).Kept := by
  cases action with
  | readerTurn => exact h.readerTurn now
  | cycleStream kind =>
    cases kind with
    | video => exact h.cycleVideo now
    | audio => exact h.cycleAudio now
  | start => exact h.startReader
  | abort => exact h.abort
  | close => exact h.close
  | _ => exact h.downstream now rfl (by simp)

theorem run (h : t.Kept) (actions : List (S × Session.Action)) : (t.run actions).Kept := by
  induction actions generalizing t with
  | nil => exact h
  | cons a actions ih => exact ih (h.perform a.1 a.2)

end Kept

end Recorded

end Playback
