import Playback.Proofs.Buffer.QueueEpochs
import Playback.Proofs.Buffer.RingContents
import Playback.Proofs.Session.Untouched

/-!
# What flows through a session

Packets and frames pass through queues, decoders and rings, and most of what happens to a session
does not touch these at all. `Session.flows` is the part of a session that they pass through, and
this file says what most of the actions do to it:

* pausing, stepping, asking for a seek and all timekeeping do nothing to it,
* a seek restarts the queues (`flows_performSeek`), and what the reader puts into them comes behind
  everything else (`flows_onVideo_put`, `flows_onAudio_put`),
* a stream that is opened starts with an empty ring and a queue that was just started, and a stream
  that is closed is gone (`flows_cycleVideo`, `flows_cycleAudio`, `flows_close`).

What is to hold of every session is shown of the opening of a stream and of one action (`of_open`,
`of_run`).
-/

namespace Playback

/-- The part of a pipeline that packets and frames pass through. -/
structure Flow (S σ F α : Type) where
  params : StreamParams
  packets : PacketQueue
  frames : FrameRing α
  decoder : Decoder S σ F
  worker : Worker α

/-- The flow through a pipeline. -/
def Pipeline.flow {S σ F α : Type} (p : Pipeline S σ F α) : Flow S σ F α :=
  ⟨p.stream.params, p.stream.packets, p.stream.frames, p.decoder, p.worker⟩

/-- The flows through a session, whether a picture is to be accepted in the present refresh, and
whether the session is to end. -/
structure Flows {S : Type} (host : Host S) where
  video : Option (Flow S host.VideoCodec DecodedPicture (VideoFrame S))
  audio : Option (Flow S host.AudioCodec DecodedAudio (AudioFrame S))
  forced : Bool
  aborted : Bool

/-- The consumer of a flow does something to its ring. -/
def Flow.onFrames {S σ F α : Type} (f : Flow S σ F α) (g : FrameRing α → FrameRing α) :
    Flow S σ F α :=
  { f with frames := g f.frames }

/-- The display does something to the ring of pictures. -/
def Flows.onPictures {S : Type} {host : Host S} (fs : Flows host)
    (g : FrameRing (VideoFrame S) → FrameRing (VideoFrame S)) : Flows host :=
  { fs with video := fs.video.map (·.onFrames g) }

/-- The audio device does something to the ring of sound. -/
def Flows.onSound {S : Type} {host : Host S} (fs : Flows host)
    (g : FrameRing (AudioFrame S) → FrameRing (AudioFrame S)) : Flows host :=
  { fs with audio := fs.audio.map (·.onFrames g) }

namespace Session

variable {S : Type} [Scalar S] {host : Host S} {s : Session host} {now : S}

/-- The flows through a session. -/
def flows (s : Session host) : Flows host :=
  ⟨s.video.map Pipeline.flow, s.audio.map Pipeline.flow, s.refreshForced, s.aborted⟩

/-! ## Nothing flows -/

theorem flows_onVideo {f : Stream S (VideoFrame S) → Stream S (VideoFrame S)}
    (hf : ∀ v, (f v).params = v.params ∧ (f v).packets = v.packets ∧ (f v).frames = v.frames) :
    (s.onVideo f).flows = s.flows := by
  unfold flows onVideo
  cases s.video with
  | none => rfl
  | some p => simp [Pipeline.flow, hf]

theorem flows_onAudio {f : Stream S (AudioFrame S) → Stream S (AudioFrame S)}
    (hf : ∀ a, (f a).params = a.params ∧ (f a).packets = a.packets ∧ (f a).frames = a.frames) :
    (s.onAudio f).flows = s.flows := by
  unfold flows onAudio
  cases s.audio with
  | none => rfl
  | some p => simp [Pipeline.flow, hf]

@[simp] theorem flows_quit (status : QuitStatus) : (s.quit status).flows = s.flows := by
  unfold quit
  split <;> rfl

theorem flows_setClocks (f : Clock S → Clock S) :
    ((s.onVideo fun v => { v with clock := f v.clock }).onAudio fun a =>
      { a with clock := f a.clock }).flows = s.flows := by
  rw [flows_onAudio, flows_onVideo]
  · exact fun v => ⟨rfl, rfl, rfl⟩
  · exact fun a => ⟨rfl, rfl, rfl⟩

@[simp] theorem flows_switchPause : (s.switchPause now).flows = s.flows :=
  flows_setClocks fun c => c.setPaused (!s.paused) now

@[simp] theorem flows_togglePause : (s.togglePause now).flows = s.flows :=
  flows_switchPause

@[simp] theorem flows_step : (s.step now).flows = s.flows := by
  unfold step
  by_cases hpaused : s.paused = true
  · simp only [hpaused, if_true]
    exact flows_switchPause
  · simp only [hpaused]
    rfl

theorem flows_request {action : Action} (h : action.isRequest = true) :
    (s.perform now action).flows = s.flows := by
  obtain ⟨pending, target, hnoted⟩ := request_eq h s now
  rw [hnoted]
  rfl

@[simp] theorem flows_start : s.start.flows = s.flows := by
  unfold start
  split <;> rfl

@[simp] theorem flows_takePicture : s.takePicture.2.flows = s.flows := by
  unfold takePicture
  split <;> rfl

@[simp] theorem flows_forwardPause (lastPaused : Bool) :
    (s.forwardPause lastPaused).flows = s.flows := by
  unfold forwardPause
  split <;> rfl

@[simp] theorem flows_failReader (e : SourceFailure) : (s.failReader e).flows = s.flows :=
  flows_quit _

end Session

/-! ## The reader -/

/-- No entry is a marker. -/
def Unmarked (entries : List Entry) : Prop :=
  ∀ e ∈ entries, e ≠ .flush

theorem Unmarked.append {entries entries' : List Entry} (h : Unmarked entries)
    (h' : Unmarked entries') : Unmarked (entries ++ entries') :=
  fun e he => (List.mem_append.1 he).elim (h e) (h' e)

/-- The queue is restarted, if `restarts` is set, and then gets entries. -/
def PacketQueue.fed (q : PacketQueue) (restarts : Bool) (entries : List Entry) : PacketQueue :=
  (if restarts then q.restart else q).putAll entries

theorem PacketQueue.aborted_fed (q : PacketQueue) (restarts : Bool) (entries : List Entry) :
    (q.fed restarts entries).aborted = q.aborted := by
  rw [fed, aborted_putAll]
  cases restarts with
  | false => rfl
  | true => exact q.aborted_restart

theorem PacketQueue.serial_le_fed (q : PacketQueue) (restarts : Bool) (entries : List Entry) :
    q.serial ≤ (q.fed restarts entries).serial := by
  have hput (q : PacketQueue) : q.serial ≤ (q.putAll entries).serial := by
    induction entries generalizing q with
    | nil => exact Nat.le_refl _
    | cons e entries ih => exact (q.serial_le_put e).trans (ih (q.put e))
  cases restarts with
  | false => exact hput q
  | true => exact (q.clear.serial_le_put .flush).trans (hput q.restart)

/-- An aborted queue may be cleared, but it takes nothing. -/
theorem PacketQueue.fed_of_aborted {q : PacketQueue} (h : q.aborted = true) (restarts : Bool)
    (entries : List Entry) : q.fed restarts entries = if restarts then q.clear else q := by
  unfold fed
  cases restarts with
  | false => exact putAll_of_aborted h entries
  | true =>
    simp only [if_true, restart_of_aborted h]
    exact putAll_of_aborted (q := q.clear) h entries

/-- What is new in an aborted queue: nothing. -/
theorem PacketQueue.new_of_aborted {q : PacketQueue} (h : q.aborted = true) (restarts : Bool)
    (entries : List Entry) :
    (q.fed restarts entries).serial = q.serial ∧
      (q.fed restarts entries).entries.drop q.length = [] := by
  rw [fed_of_aborted h]
  cases restarts with
  | false => exact ⟨rfl, List.drop_length⟩
  | true => exact ⟨rfl, List.drop_nil⟩

/-- What is new in a running queue: the entries, behind those before. -/
theorem PacketQueue.new_of_running {q : PacketQueue} (h : q.aborted = false) {entries : List Entry}
    (hentries : Unmarked entries) :
    (q.fed false entries).serial = q.serial ∧
      ((q.fed false entries).entries.drop q.length).map (·.entry) = entries := by
  have hfed : q.fed false entries = q.putAll entries := rfl
  rw [hfed]
  refine ⟨serial_putAll q hentries, ?_⟩
  rw [entries_putAll h hentries, length, List.drop_left]
  simp [Function.comp_def]

/-- What is new in a queue that was restarted: a marker, and the entries behind it. -/
theorem PacketQueue.new_of_restarted {q : PacketQueue} (h : q.aborted = false)
    {entries : List Entry} (hentries : Unmarked entries) :
    (q.fed true entries).serial = q.serial + 1 ∧
      (q.fed true entries).entries.map (·.entry) = .flush :: entries := by
  have hrestart : q.restart = q.clear.append .flush := restart_of_running h
  have hrun : q.restart.aborted = false := (aborted_restart q).trans h
  have hfed : q.fed true entries = q.restart.putAll entries := rfl
  rw [hfed]
  constructor
  · rw [serial_putAll _ hentries, hrestart]
    rfl
  · rw [entries_putAll hrun hentries, hrestart]
    simp [entries_append, clear, Function.comp_def]

/-- The queue of a flow is restarted, if `restarts` is set, and then gets entries. -/
def Flow.fed {S σ F α : Type} (f : Flow S σ F α) (restarts : Bool) (entries : List Entry) :
    Flow S σ F α :=
  { f with packets := f.packets.fed restarts entries }

theorem Flow.aborted_fed {S σ F α : Type} (f : Flow S σ F α) (restarts : Bool)
    (entries : List Entry) : (f.fed restarts entries).packets.aborted = f.packets.aborted :=
  f.packets.aborted_fed restarts entries

theorem Stream.putAll_queuePacket {S α : Type} (v : Stream S α) (p : Packet) :
    (v.queuePacket p).params = v.params ∧ (v.queuePacket p).frames = v.frames ∧
      (v.queuePacket p).packets = v.packets.putAll [.data p] := by
  unfold Stream.queuePacket PacketQueue.putAll
  simp only [List.foldl_cons, List.foldl_nil, PacketQueue.put]
  cases v.packets.put? (.data p) <;> exact ⟨rfl, rfl, rfl⟩

namespace Flows

variable {S : Type} {host : Host S} {fs fs' fs'' : Flows host} {restarts : Bool}

/-- Both queues are restarted, if `restarts` is set, and then get entries. -/
def fed (fs : Flows host) (restarts : Bool) (video audio : List Entry) : Flows host :=
  { fs with
    video := fs.video.map (·.fed restarts video)
    audio := fs.audio.map (·.fed restarts audio) }

/-- The reader has restarted the queues, if `restarts` is set, and has put entries since then. -/
def Fed (restarts : Bool) (fs fs' : Flows host) : Prop :=
  ∃ video audio, Unmarked video ∧ Unmarked audio ∧ fs' = fs.fed restarts video audio

theorem fed_nil (fs : Flows host) : fs.fed false [] [] = fs := by
  obtain ⟨_ | v, _ | a, forced, aborted⟩ := fs <;> rfl

theorem fed_append (fs : Flows host) (restarts : Bool) (video video' audio audio' : List Entry) :
    (fs.fed restarts video audio).fed false video' audio' =
      fs.fed restarts (video ++ video') (audio ++ audio') := by
  obtain ⟨_ | v, _ | a, forced, aborted⟩ := fs <;>
    simp [fed, Flow.fed, PacketQueue.fed, PacketQueue.putAll_append]

end Flows

namespace Session

variable {S : Type} [Scalar S] {host : Host S} {s : Session host} {now : S}

open Flows

theorem flows_onVideo_put {f : Stream S (VideoFrame S) → Stream S (VideoFrame S)}
    {entries : List Entry} (hf : ∀ v, (f v).params = v.params ∧ (f v).frames = v.frames ∧
      (f v).packets = v.packets.putAll entries) :
    (s.onVideo f).flows = s.flows.fed false entries [] := by
  unfold flows onVideo
  rcases s.video with _ | p <;> rcases s.audio with _ | p' <;>
    simp [Pipeline.flow, fed, Flow.fed, PacketQueue.fed, hf, PacketQueue.putAll]

theorem flows_onAudio_put {f : Stream S (AudioFrame S) → Stream S (AudioFrame S)}
    {entries : List Entry} (hf : ∀ a, (f a).params = a.params ∧ (f a).frames = a.frames ∧
      (f a).packets = a.packets.putAll entries) :
    (s.onAudio f).flows = s.flows.fed false [] entries := by
  unfold flows onAudio
  rcases s.video with _ | p <;> rcases s.audio with _ | p' <;>
    simp [Pipeline.flow, fed, Flow.fed, PacketQueue.fed, hf, PacketQueue.putAll]

/-- The seek that the next turn of the reader performs succeeds, if there is one. -/
def seekSucceeds (s : Session host) (now : S) : Bool :=
  match s.reader, s.seekPending with
  | .running lastPaused, some r =>
    !s.aborted && ((s.forwardPause lastPaused).performSeek r now).1.isOk
  | _, _ => false

theorem running_of_seekSucceeds (h : s.seekSucceeds now = true) : s.flows.aborted = false := by
  unfold seekSucceeds at h
  split at h
  · exact Bool.not_eq_true' _ ▸ (Bool.and_eq_true_iff.1 h).1
  · cases h

theorem flows_restart :
    ((s.onAudio fun a => { a with packets := a.packets.restart }).onVideo fun v =>
      { v with packets := v.packets.restart }).flows = s.flows.fed true [] [] := by
  unfold flows onVideo onAudio
  rcases s.video with _ | p <;> rcases s.audio with _ | p' <;> rfl

theorem flows_enterEpoch (r : SeekRequest) :
    (s.enterEpoch r now).flows = s.flows.fed true [] [] := by
  unfold enterEpoch
  dsimp only
  split_ifs
  all_goals
    try rw [flows_step]
    exact flows_restart

theorem flows_performSeek (s : Session host) (now : S) (r : SeekRequest) :
    (s.performSeek r now).2.flows = s.flows.fed (s.performSeek r now).1.isOk [] [] := by
  unfold performSeek
  dsimp only
  rcases host.container.seek r.range (s.record (.seek r.range)).medium with ⟨_ | _, m⟩
  · exact (fed_nil s.flows).symm
  · exact flows_enterEpoch r

end Session

/-! ## Opening and closing -/

/-- The flow through a stream that was just opened. -/
inductive Flow.Opened {S σ F α : Type} (opens : StreamParams → Except CodecFailure σ) :
    Flow S σ F α → Prop
  | intro {p : StreamParams} {c : σ} (hopen : opens p = .ok c) (kind : MediaKind) (fallback : S)
      (ringSize : Nat) (keepLast : Bool) :
      Opened opens ⟨p, PacketQueue.new.start, FrameRing.new ringSize keepLast,
        Decoder.new kind c p.timeBase fallback, .running⟩

namespace Session

variable {S : Type} [Scalar S] {host : Host S}

/-- The open stream of a kind is to be closed for another one. -/
def switches (s : Session host) (kind : MediaKind) : Bool :=
  (s.nextParams kind).isSome

theorem kind_after {streams : List StreamParams} {kind : MediaKind} {index : Nat} {p : StreamParams}
    (h : StreamParams.after streams kind index = some p) : p.kind = kind := by
  unfold StreamParams.after at h
  split at h
  · cases h
  · have husable := List.find?_some h
    simp only [StreamParams.isUsable, Bool.and_eq_true, decide_eq_true_eq] at husable
    exact husable.1

theorem flows_abort (s : Session host) :
    s.abort.flows =
      { s.flows with
        video := s.flows.video.map fun f =>
          { f with packets := f.packets.abort, frames := f.frames.stop }
        audio := s.flows.audio.map fun f =>
          { f with packets := f.packets.abort, frames := f.frames.stop }
        aborted := true } := by
  unfold abort flows onVideo onAudio
  rcases s.video with _ | p <;> rcases s.audio with _ | p' <;> rfl

theorem flows_closeStream (s : Session host) (kind : MediaKind) :
    (s.closeStream kind).flows =
      match kind with
      | .video => { s.flows with video := none }
      | .audio => { s.flows with audio := none } := by
  unfold closeStream closing flows
  cases kind with
  | video =>
    cases hv : s.video with
    | none => simp [hv]
    | some p => rfl
  | audio =>
    cases ha : s.audio with
    | none => simp [ha]
    | some p => rfl

theorem flows_close (s : Session host) : s.close.flows = ⟨none, none, s.flows.forced, true⟩ := by
  unfold close
  rw [flows_closeStream, flows_closeStream]
  rfl

theorem flows_openVideo (s : Session host) (p : StreamParams) (now : S) :
    (s.openVideo p now).2.flows = s.flows ∨
      ∃ f, f.Opened host.openVideo ∧
        (s.openVideo p now).2.flows = { s.flows with video := some f } := by
  unfold openVideo
  cases hopen : host.openVideo p with
  | error e => exact .inl rfl
  | ok c => exact .inr ⟨_, .intro hopen .video (pictureDuration p) pictureRingSize true, rfl⟩

theorem flows_openAudio (s : Session host) (p : StreamParams) (now : S) :
    (s.openAudio p now).2.flows = s.flows ∨
      ∃ f, f.Opened host.openAudio ∧
        (s.openAudio p now).2.flows = { s.flows with audio := some f } := by
  unfold openAudio
  dsimp only
  split
  · exact .inl rfl
  · cases hopen : host.openAudio p with
    | error e => exact .inl rfl
    | ok c => exact .inr ⟨_, .intro hopen .audio 0.0 soundRingSize false, rfl⟩

theorem cycleStream_of_stays {s : Session host} {kind : MediaKind} (h : s.switches kind = false)
    (now : S) : (s.cycleStream kind now).2 = s := by
  unfold switches at h
  unfold cycleStream
  rw [Option.isSome_eq_false_iff, Option.isNone_iff_eq_none] at h
  rw [h]

theorem cycleStream_of_switches {s : Session host} {kind : MediaKind}
    (h : s.switches kind = true) (now : S) :
    ∃ p : StreamParams, p.kind = kind ∧
      s.cycleStream kind now = (s.closeStream kind).openStream p now := by
  obtain ⟨p, hp⟩ := Option.isSome_iff_exists.1 h
  obtain ⟨index, -, hafter⟩ := Option.bind_eq_some_iff.1 hp
  exact ⟨p, kind_after hafter, by rw [cycleStream, hp]⟩

theorem flows_cycleVideo {s : Session host} (h : s.switches .video = true) (now : S) :
    ∃ v, (∀ f, v = some f → f.Opened host.openVideo) ∧
      (s.cycleStream .video now).2.flows = { s.flows with video := v } := by
  obtain ⟨p, hkind, hcycle⟩ := cycleStream_of_switches h now
  have hclose := s.flows_closeStream .video
  rw [hcycle, openStream, hkind]
  have hopen := (s.closeStream .video).flows_openVideo p now
  rw [hclose] at hopen
  rcases hopen with hsame | ⟨f, hf, hflows⟩
  · exact ⟨none, (fun f hf => nomatch hf), hsame⟩
  · refine ⟨some f, fun f' hf' => ?_, hflows⟩
    rw [← Option.some.inj hf']
    exact hf

theorem flows_cycleAudio {s : Session host} (h : s.switches .audio = true) (now : S) :
    ∃ a, (∀ f, a = some f → f.Opened host.openAudio) ∧
      (s.cycleStream .audio now).2.flows = { s.flows with audio := a } := by
  obtain ⟨p, hkind, hcycle⟩ := cycleStream_of_switches h now
  have hclose := s.flows_closeStream .audio
  rw [hcycle, openStream, hkind]
  have hopen := (s.closeStream .audio).flows_openAudio p now
  rw [hclose] at hopen
  rcases hopen with hsame | ⟨f, hf, hflows⟩
  · exact ⟨none, (fun f hf => nomatch hf), hsame⟩
  · refine ⟨some f, fun f' hf' => ?_, hflows⟩
    rw [← Option.some.inj hf']
    exact hf

/-- All open streams were just opened, and nothing else has happened. -/
structure JustOpened (s : Session host) : Prop where
  forced : s.flows.forced = false
  running : s.flows.aborted = false
  video : ∀ f, s.flows.video = some f → f.Opened host.openVideo
  audio : ∀ f, s.flows.audio = some f → f.Opened host.openAudio

theorem JustOpened.of_flows {s s' : Session host} (h : s.JustOpened) (hflows : s'.flows = s.flows) :
    s'.JustOpened := by
  obtain ⟨hforced, hrunning, hvideo, haudio⟩ := h
  rw [← hflows] at hforced hrunning hvideo haudio
  exact ⟨hforced, hrunning, hvideo, haudio⟩

theorem JustOpened.openStream {s : Session host} (h : s.JustOpened) (p : StreamParams) (now : S) :
    (s.openStream p now).2.JustOpened := by
  unfold Session.openStream
  cases p.kind with
  | video =>
    rcases s.flows_openVideo p now with hsame | ⟨f, hf, hflows⟩
    · exact h.of_flows hsame
    · refine ⟨by rw [hflows]; exact h.forced, by rw [hflows]; exact h.running, fun f' hf' => ?_,
        by rw [hflows]; exact h.audio⟩
      rw [hflows] at hf'
      rw [← Option.some.inj hf']
      exact hf
  | audio =>
    rcases s.flows_openAudio p now with hsame | ⟨f, hf, hflows⟩
    · exact h.of_flows hsame
    · refine ⟨by rw [hflows]; exact h.forced, by rw [hflows]; exact h.running,
        by rw [hflows]; exact h.video, fun f' hf' => ?_⟩
      rw [hflows] at hf'
      rw [← Option.some.inj hf']
      exact hf

/-! ## What holds of every session -/

/-- What holds of a source before any of its streams is opened, and still holds when a preferred one
is, holds of every session that was opened. -/
theorem of_picked {motive : Session host → Prop} {uri : String} {options : Options S}
    {screen : host.Screen} {now : S} {s : Session host}
    (hopen : Session.open host uri options screen now = .ok s)
    (hstart : ∀ source medium, host.openSource uri = .ok (source, medium) →
      motive (initial options source medium screen now).seekStart)
    (hstream : ∀ (s : Session host) (kind : MediaKind) (wanted : Option Nat) (p : StreamParams),
      StreamParams.pick s.source.streams kind wanted = some p → motive s →
        motive (s.openStream p now).2) :
    motive s := by
  have hpreferred (s : Session host) (h : motive s) (kind : MediaKind) :
      motive (s.openPreferred kind now) := by
    unfold openPreferred
    cases kind with
    | video | audio =>
      dsimp only
      split
      · exact h
      · split
        · exact hstream s _ _ _ ‹_› h
        · exact h
  unfold Session.open at hopen
  cases hsource : host.openSource uri with
  | error e =>
    rw [hsource] at hopen
    cases hopen
  | ok source =>
    rw [hsource] at hopen
    dsimp only at hopen
    split at hopen
    · cases hopen
    · rw [← Except.ok.inj hopen]
      exact hpreferred _ (hpreferred _ (hstart source.1 source.2 hsource) .audio) .video

/-- What holds of a source before any of its streams is opened, and still holds when one is, holds
of every session that was opened. -/
@[elab_as_elim]
theorem of_open {motive : Session host → Prop} {uri : String} {options : Options S}
    {screen : host.Screen} {now : S} {s : Session host}
    (hopen : Session.open host uri options screen now = .ok s)
    (hstart : ∀ source medium, host.openSource uri = .ok (source, medium) →
      motive (initial options source medium screen now).seekStart)
    (hstream : ∀ (s : Session host) (p : StreamParams), motive s → motive (s.openStream p now).2) :
    motive s :=
  of_picked hopen hstart fun s _ _ p _ h => hstream s p h

/-- What every action keeps is kept by every run. -/
theorem of_run {motive : Session host → Prop} {s : Session host} (h : motive s)
    (hstep : ∀ (s : Session host) (now : S) (action : Action),
      motive s → motive (s.perform now action)) (actions : List (S × Action)) :
    motive (s.run actions) := by
  induction actions generalizing s with
  | nil => exact h
  | cons a actions ih => exact ih (hstep s a.1 a.2 h)

theorem justOpened_open {uri : String} {options : Options S} {screen : host.Screen} {now : S}
    {s : Session host} (hopen : Session.open host uri options screen now = .ok s) :
    s.JustOpened := by
  have hclosed (s : Session host) (hflows : s.flows = ⟨none, none, false, false⟩) :
      s.JustOpened := by
    refine ⟨by rw [hflows], by rw [hflows], fun f hf => ?_, fun f hf => ?_⟩
    · simp [hflows] at hf
    · simp [hflows] at hf
  refine of_open hopen (fun source medium _ => ?_) fun s p h => h.openStream p now
  unfold seekStart
  split <;> exact hclosed _ rfl

end Session

end Playback
