import Playback.Proofs.Session.AutoExit
import Playback.Proofs.Session.PictureFlow

/-!
# How much is queued

The reader stops reading as long as more is queued than the options allow, so the last packet that
it has read may come on top of that. The single picture of a stream is queued without such a test,
but only once for each opening and each seek, when nothing else is in its queue. So if no packet of
a container has more bytes than `largest`, at most two of that size are queued above the limit
(`queued_bytes_bounded`), and that many may be (`queued_bytes_bounded_cover`).
-/

namespace Playback

/-! ## Bytes of a queue -/

/-- Payload bytes of some entries. -/
def payload (entries : List Entry) : Nat :=
  (entries.map (·.size)).sum

theorem payload_cons (e : Entry) (entries : List Entry) :
    payload (e :: entries) = e.size + payload entries := by
  rw [payload, List.map_cons, List.sum_cons]
  rfl

namespace PacketQueue

variable {q q' : PacketQueue}

theorem size_put_le (q : PacketQueue) (e : Entry) : (q.put e).size ≤ q.size + e.size := by
  rcases put_cases q e with heq | heq <;> rw [heq]
  · exact Nat.le_add_right _ _
  · exact Nat.le_refl _

theorem size_putAll_le (q : PacketQueue) (entries : List Entry) :
    (q.putAll entries).size ≤ q.size + payload entries := by
  induction entries generalizing q with
  | nil => exact Nat.le_refl _
  | cons e entries ih =>
    have hput := q.size_put_le e
    calc
      ((q.put e).putAll entries).size ≤ (q.put e).size + payload entries := ih (q.put e)
      _ ≤ q.size + (e.size + payload entries) := by omega
      _ = q.size + payload (e :: entries) := by rw [payload_cons]

theorem size_restart (q : PacketQueue) : q.restart.size = 0 := by
  have hput := q.clear.size_put_le .flush
  exact Nat.le_zero.1 hput

theorem size_fed_le (q : PacketQueue) (restarts : Bool) (entries : List Entry) :
    (q.fed restarts entries).size ≤ (if restarts then 0 else q.size) + payload entries := by
  have hput := size_putAll_le (if restarts then q.restart else q) entries
  cases restarts with
  | false => exact hput
  | true => exact hput.trans (Nat.le_of_eq (congrArg (· + payload entries) q.size_restart))

theorem size_take_le {e : QueuedEntry} (htake : q.take = .ready (e, q')) : q'.size ≤ q.size := by
  unfold take at htake
  split at htake
  · cases htake
  · split at htake
    · cases htake
    · obtain ⟨-, rfl⟩ := Prod.mk.inj (Reply.ready.inj htake)
      exact Nat.sub_le _ _

end PacketQueue

theorem Decoder.Ran.size_le {S M σ F : Type} [Scalar S] [CodecUnit F] {codec : Codec S M σ F}
    {now : S} {b : DecoderBench S M σ F} {r : Decoder.Run S M σ F} (hran : Ran codec now b r) :
    r.queue.size ≤ b.queue.size := by
  induction hran with
  | emits | aborts | waits => exact Nat.le_refl _
  | fails _ htake => exact PacketQueue.size_take_le htake
  | skips _ htake _ _ ih => exact ih.trans (PacketQueue.size_take_le htake)
  | flushes _ htake _ _ _ ih => exact ih.trans (PacketQueue.size_take_le htake)
  | feeds _ htake _ _ _ _ ih => exact ih.trans (PacketQueue.size_take_le htake)

/-! ## Bytes of the flows -/

/-- Payload bytes in the queue of a flow, if there is one. -/
def Flow.bytes {S σ F α : Type} (f : Option (Flow S σ F α)) : Nat :=
  (f.map (·.packets.size)).getD 0

/-- Nothing was put into the queue on the way from a flow to another. -/
def Flow.Loses {S σ F α : Type} (f f' : Option (Flow S σ F α)) : Prop :=
  ∀ y, f' = some y → ∃ x, f = some x ∧ y.packets.size ≤ x.packets.size ∧
    (y.packets.aborted = false → x.packets.aborted = false)

namespace Flow

variable {S M σ F α : Type}

theorem Loses.refl (f : Option (Flow S σ F α)) : Loses f f :=
  fun y hy => ⟨y, hy, Nat.le_refl _, id⟩

theorem Loses.bytes_le {f f' : Option (Flow S σ F α)} (h : Loses f f') : bytes f' ≤ bytes f := by
  cases hf' : f' with
  | none => exact Nat.zero_le _
  | some y =>
    obtain ⟨x, rfl, hsize, -⟩ := h y hf'
    exact hsize

theorem loses_onFrames (f : Option (Flow S σ F α)) (g : FrameRing α → FrameRing α) :
    Loses f (f.map (·.onFrames g)) := by
  intro y hy
  obtain ⟨x, hx, rfl⟩ := Option.map_eq_some_iff.1 hy
  exact ⟨x, hx, Nat.le_refl _, id⟩

theorem loses_abort (f : Option (Flow S σ F α)) :
    Loses f (f.map fun f => { f with packets := f.packets.abort, frames := f.frames.stop }) := by
  intro y hy
  obtain ⟨x, hx, rfl⟩ := Option.map_eq_some_iff.1 hy
  exact ⟨x, hx, Nat.le_refl _, nofun⟩

theorem Moves.loses [Scalar S] [CodecUnit F] {codec : Codec S M σ F} {make : DecodedFrame S F → α}
    {refuses : Prop} {f f' : Option (Flow S σ F α)} (h : Moves codec make refuses f f') :
    Loses f f' := by
  have hdecoded {x : Flow S σ F α} {now : S} {m : M} {r : Decoder.Run S M σ F}
      (hr : x.decoder.next codec now x.packets m = r) :
      r.queue.size ≤ x.packets.size ∧ r.queue.aborted = x.packets.aborted := by
    subst hr
    obtain ⟨front, htakes⟩ := Decoder.takes_next codec now x.decoder x.packets m
    exact ⟨(Decoder.ran_next codec now x.decoder x.packets m).size_le, htakes.aborted⟩
  intro y hy
  subst hy
  obtain ⟨x, rfl, hmove⟩ := h.source
  refine ⟨x, rfl, ?_⟩
  cases hmove with
  | waits | ends | publishes => exact ⟨Nat.le_refl _, id⟩
  | decodes hr | endsAfter hr | takes hr | leaves hr =>
    obtain ⟨hsize, haborted⟩ := hdecoded hr
    exact ⟨hsize, haborted.symm.trans⟩
  | refused hr =>
    obtain ⟨hsize, -⟩ := hdecoded hr
    exact ⟨hsize, nofun⟩

theorem bytes_opened {opens : StreamParams → Except CodecFailure σ} {f : Option (Flow S σ F α)}
    (h : ∀ x, f = some x → x.Opened opens) : bytes f = 0 := by
  cases hf : f with
  | none => rfl
  | some x =>
    obtain ⟨-, -, -, -, -⟩ := h x hf
    rfl

theorem bytes_fed_le (f : Option (Flow S σ F α)) (restarts : Bool) (entries : List Entry) :
    bytes (f.map (·.fed restarts entries)) ≤
      (if restarts then 0 else bytes f) + payload entries := by
  cases f with
  | none => exact Nat.zero_le _
  | some x => exact x.packets.size_fed_le restarts entries

theorem bytes_fed_nil_le (f : Option (Flow S σ F α)) (restarts : Bool) :
    bytes (f.map (·.fed restarts [])) ≤ bytes f := by
  refine (bytes_fed_le f restarts []).trans ?_
  cases restarts with
  | false => exact Nat.le_refl _
  | true => exact Nat.zero_le _

/-- What goes into a queue that holds nothing of size is all that is there; an aborted queue takes
nothing. -/
theorem bytes_fed_of_empty {f : Option (Flow S σ F α)}
    (h : ∀ x, f = some x → x.packets.aborted = false → x.packets.size = 0) (entries : List Entry) :
    bytes (f.map (·.fed false entries)) ≤ max (bytes f) (payload entries) := by
  cases f with
  | none => exact Nat.zero_le _
  | some x =>
    cases hrun : x.packets.aborted with
    | true =>
      have hsame : (x.fed false entries).packets = x.packets := PacketQueue.fed_of_aborted hrun ..
      refine Nat.le_trans (Nat.le_of_eq ?_) (Nat.le_max_left _ _)
      exact congrArg PacketQueue.size hsame
    | false =>
      have hfed := x.packets.size_fed_le false entries
      rw [if_neg Bool.false_ne_true, h x rfl hrun, Nat.zero_add] at hfed
      exact hfed.trans (Nat.le_max_right _ _)

end Flow

/-! ## What may be queued -/

/-- The queues hold no more than the `limit` and two of the `largest` packets. As long as the single
picture of the video stream is to be queued, nothing of size is in its queue. -/
structure Flows.Bounded {S : Type} {host : Host S} (limit largest : Nat) (due : Bool)
    (fs : Flows host) : Prop where
  forced : fs.forced = false
  sound : Flow.bytes fs.audio ≤ limit + largest
  total : Flow.bytes fs.audio + Flow.bytes fs.video ≤ limit + 2 * largest
  due : due = true → ∀ f, fs.video = some f → f.packets.aborted = false → f.packets.size = 0

namespace Flows.Bounded

variable {S : Type} {host : Host S} {limit largest : Nat} {due : Bool} {fs fs' : Flows host}

theorem loses (h : fs.Bounded limit largest due) (hforced : fs'.forced = false)
    (hvideo : Flow.Loses fs.video fs'.video) (haudio : Flow.Loses fs.audio fs'.audio) :
    fs'.Bounded limit largest due := by
  have hpictures := hvideo.bytes_le
  have hsound := haudio.bytes_le
  have hlimit := h.sound
  have htotal := h.total
  refine ⟨hforced, by omega, by omega, fun hdue f' hf' hrun => ?_⟩
  obtain ⟨f, hf, hsize, hrun'⟩ := hvideo f' hf'
  exact Nat.le_zero.1 (hsize.trans (Nat.le_of_eq (h.due hdue f hf (hrun' hrun))))

/-- Behind the queues nothing is put into them. -/
theorem downstream [Scalar S] (h : fs.Bounded limit largest due) (hdown : fs.Downstream fs') :
    fs'.Bounded limit largest due := by
  cases hdown with
  | nothing hflows => exact hflows ▸ h
  | video hmoves hflows => exact hflows ▸ h.loses h.forced hmoves.loses (.refl _)
  | audio hmoves hflows => exact hflows ▸ h.loses h.forced (.refl _) hmoves.loses
  | @shows g _ hflows => exact hflows ▸ h.loses h.forced (Flow.loses_onFrames _ g) (.refl _)
  | @plays g _ hflows => exact hflows ▸ h.loses h.forced (.refl _) (Flow.loses_onFrames _ g)

theorem openVideo (h : fs.Bounded limit largest due)
    {v : Option (Flow S host.VideoCodec DecodedPicture (VideoFrame S))}
    (hv : ∀ f, v = some f → f.Opened host.openVideo) (due' : Bool) :
    ({ fs with video := v } : Flows host).Bounded limit largest due' := by
  have hempty := Flow.bytes_opened hv
  have hsound := h.sound
  refine ⟨h.forced, hsound, ?_, fun _ f (hf : v = some f) _ => ?_⟩
  · dsimp only
    omega
  · rw [hf] at hempty
    exact hempty

theorem openAudio (h : fs.Bounded limit largest due)
    {a : Option (Flow S host.AudioCodec DecodedAudio (AudioFrame S))}
    (ha : ∀ f, a = some f → f.Opened host.openAudio) :
    ({ fs with audio := a } : Flows host).Bounded limit largest due := by
  have hempty := Flow.bytes_opened ha
  have htotal := h.total
  refine ⟨h.forced, ?_, ?_, h.due⟩
  all_goals
    dsimp only
    omega

/-- The single picture goes into a queue that holds nothing of size, so it is the only one there. -/
theorem attach (h : fs.Bounded limit largest due) {sought cover : Bool} {pic : List Entry}
    (hpic : Attaches host.Gives (due || sought) cover pic)
    (hgives : ∀ p, host.Gives p → p.size ≤ largest) :
    (fs.fed sought pic []).Bounded limit largest false := by
  have hsound := Flow.bytes_fed_nil_le fs.audio sought
  have hpictures : Flow.bytes (fs.video.map (·.fed sought pic)) ≤
      max (Flow.bytes fs.video) largest := by
    cases hpic with
    | nothing => exact (Flow.bytes_fed_nil_le fs.video sought).trans (Nat.le_max_left _ _)
    | @picture hdue _ p hp =>
      have hp : payload [.data p, .endOfStream] ≤ largest := hgives p hp
      cases sought with
      | true =>
        have hfed := Flow.bytes_fed_le fs.video true [.data p, .endOfStream]
        rw [if_pos rfl, Nat.zero_add] at hfed
        exact (hfed.trans hp).trans (Nat.le_max_right _ _)
      | false =>
        rw [Bool.or_false] at hdue
        exact (Flow.bytes_fed_of_empty (h.due hdue) _).trans (max_le_max_left _ hp)
  have hlimit := h.sound
  have htotal := h.total
  refine ⟨h.forced, hsound.trans hlimit, ?_, by simp⟩
  show Flow.bytes (fs.audio.map (·.fed sought [])) +
    Flow.bytes (fs.video.map (·.fed sought pic)) ≤ limit + 2 * largest
  omega

/-- A packet is read when no more than the limit is queued. -/
theorem read (hforced : fs.forced = false)
    (hroom : Flow.bytes fs.audio + Flow.bytes fs.video ≤ limit) {cover atEnd atEnd' : Bool}
    {video audio : List Entry} (hreads : Reads host.Gives cover atEnd video audio atEnd')
    (hgives : ∀ p, host.Gives p → p.size ≤ largest) :
    (fs.fed false video audio).Bounded limit largest false := by
  have hpayload : payload video + payload audio ≤ largest := by
    cases hreads with
    | nothing | ends | drops => exact Nat.zero_le _
    | video _ hp => exact hgives _ hp
    | audio hp => exact (Nat.zero_add _).trans_le (hgives _ hp)
  have hpictures : Flow.bytes (fs.video.map (·.fed false video)) ≤
      Flow.bytes fs.video + payload video := Flow.bytes_fed_le fs.video false video
  have hsound : Flow.bytes (fs.audio.map (·.fed false audio)) ≤
      Flow.bytes fs.audio + payload audio := Flow.bytes_fed_le fs.audio false audio
  refine ⟨hforced, ?_, ?_, by simp⟩
  all_goals
    dsimp only [fed]
    omega

end Flows.Bounded

namespace Session

variable {S : Type} [Scalar S] {host : Host S} {s s' : Session host} {now : S}

theorem queuedBytes_videoStream (s : Session host) :
    queuedBytes s.videoStream = Flow.bytes s.flows.video := by
  unfold videoStream flows
  cases s.video <;> rfl

theorem queuedBytes_audioStream (s : Session host) :
    queuedBytes s.audioStream = Flow.bytes s.flows.audio := by
  unfold audioStream flows
  cases s.audio <;> rfl

/-! ### The settings -/

/-- The options and what is known of the source are the same. -/
def SameSettings (s s' : Session host) : Prop :=
  s'.options = s.options ∧ s'.source = s.source

theorem sameSettings_of_display (h : s'.displayState = s.displayState) : s.SameSettings s' :=
  ⟨congrArg DisplayState.options h, congrArg DisplayState.source h⟩

theorem sameSettings_of_pending {pending : Bool}
    (h : s'.displayState = { s.displayState with pending := pending }) : s.SameSettings s' :=
  ⟨congrArg DisplayState.options h, congrArg DisplayState.source h⟩

theorem SameSettings.readsAhead_eq (h : s.SameSettings s') : s'.readsAhead = s.readsAhead := by
  unfold readsAhead
  rw [h.1, h.2]

theorem sameSettings_perform (hforced : s.refreshForced = false) (now : S) (action : Action) :
    s.SameSettings (s.perform now action) := by
  cases action with
  | start => exact sameSettings_of_display displayState_start
  | readerTurn => exact sameSettings_of_display displayState_readerTurn
  | videoStep =>
    obtain ⟨-, -, hdisplay, -⟩ := s.works_videoStep now
    exact ⟨congrArg DisplayState.options hdisplay, congrArg DisplayState.source hdisplay⟩
  | audioStep => exact sameSettings_of_display (displayState_audioTurn true)
  | audioDecode => exact sameSettings_of_display (displayState_audioTurn false)
  | refresh =>
    have hdisplay := displayState_refresh hforced now
    exact ⟨congrArg DisplayState.options hdisplay, congrArg DisplayState.source hdisplay⟩
  | takePicture => exact sameSettings_of_pending displayState_takePicture
  | fill count volume => exact sameSettings_of_display (displayState_fill count volume)
  | togglePause => exact ⟨rfl, rfl⟩
  | step => exact sameSettings_of_display displayState_step
  | seek _ | seekChapter _ | nextChunk | previousChunk =>
    exact sameSettings_of_display (displayState_request rfl)
  | cycleStream kind =>
    cases hswitch : s.switches kind with
    | false =>
      have hsame : s.perform now (.cycleStream kind) = s := cycleStream_of_stays hswitch now
      rw [hsame]
      exact ⟨rfl, rfl⟩
    | true =>
      cases kind with
      | video => exact sameSettings_of_pending (displayState_cycleVideo hswitch now)
      | audio => exact sameSettings_of_display (s.displayState_cycleAudio now)
  | abort => exact ⟨rfl, rfl⟩
  | close =>
    obtain ⟨pending, hdisplay⟩ := s.displayState_close
    exact sameSettings_of_pending hdisplay

/-! ### One action -/

/-- A session that does not read ahead, and whose queues are bounded. -/
structure Bounded (limit largest : Nat) (s : Session host) : Prop where
  options : s.options.maxQueueSize = limit
  waits : s.readsAhead = false
  flows : s.flows.Bounded limit largest s.attachmentDue

namespace Bounded

variable {limit largest : Nat}

theorem readerTurn (h : s.Bounded limit largest) (hgives : ∀ p, host.Gives p → p.size ≤ largest)
    (now : S) :
    (s.readerTurn now).flows.Bounded limit largest (s.readerTurn now).attachmentDue := by
  have htop := s.turns_readerTop now
  have hroom := s.room_readerTop now
  have hsettings : s.SameSettings (s.readerTop now).2 :=
    sameSettings_of_display displayState_readerTop
  unfold Session.readerTurn
  rcases hresult : s.readerTop now with ⟨g, s'⟩
  rw [hresult] at htop hroom hsettings
  rcases htop with ⟨hnot, -, hflows, -, hdue⟩ | ⟨pic, hpic, hflows, -, hdue⟩
  · have hsame : s'.flows.Bounded limit largest s'.attachmentDue := by
      rw [hflows, hdue]
      exact h.flows
    cases g with
    | ready => exact absurd rfl hnot
    | ended | full => exact hsame
  · have hattached : s'.flows.Bounded limit largest false := hflows ▸ h.flows.attach hpic hgives
    cases g with
    | ended | full =>
      dsimp only at hdue ⊢
      rw [hdue]
      exact hattached
    | ready =>
      obtain ⟨video, audio, hreads, hfed, hdue'⟩ := s'.reads_readPacket now
      have hnotfull := hroom rfl (hsettings.readsAhead_eq.trans h.waits)
      rw [buffersFull_eq, queuedBytes_audioStream, queuedBytes_videoStream, Bool.or_eq_false_iff,
        decide_eq_false_iff_not, Nat.not_lt, hsettings.1, h.options] at hnotfull
      dsimp only at hdue ⊢
      rw [hfed, hdue', hdue]
      exact .read hattached.forced hnotfull.1 hreads hgives

theorem downstream (h : s.Bounded limit largest) (now : S) {action : Action}
    (hdown : action.isDownstream = true) (hstart : action ≠ .start) :
    (s.perform now action).flows.Bounded limit largest (s.perform now action).attachmentDue := by
  have hdue : (s.perform now action).attachmentDue = s.attachmentDue :=
    congrArg ReaderState.attachmentDue (readerState_perform hdown hstart now)
  rw [hdue]
  exact h.flows.downstream (downstream_perform h.flows.forced now hdown)

theorem startReader (h : s.Bounded limit largest) :
    s.start.flows.Bounded limit largest s.start.attachmentDue := by
  have hdue : s.start.attachmentDue = s.attachmentDue := by
    unfold Session.start
    split <;> rfl
  rw [flows_start, hdue]
  exact h.flows

theorem cycleStream (h : s.Bounded limit largest) (kind : MediaKind) (now : S) :
    (s.cycleStream kind now).2.flows.Bounded limit largest
      (s.cycleStream kind now).2.attachmentDue := by
  cases hswitch : s.switches kind with
  | false =>
    rw [cycleStream_of_stays hswitch]
    exact h.flows
  | true =>
    cases kind with
    | video =>
      obtain ⟨v, hv, hflows⟩ := flows_cycleVideo hswitch now
      rw [hflows]
      exact h.flows.openVideo hv _
    | audio =>
      obtain ⟨a, ha, hflows⟩ := flows_cycleAudio hswitch now
      have hdue : (s.cycleStream .audio now).2.attachmentDue = s.attachmentDue :=
        congrArg ReaderState.attachmentDue (readerState_cycleAudio hswitch now)
      rw [hflows, hdue]
      exact h.flows.openAudio ha

theorem abort (h : s.Bounded limit largest) :
    s.abort.flows.Bounded limit largest s.abort.attachmentDue := by
  have hdue : s.abort.attachmentDue = s.attachmentDue := rfl
  rw [flows_abort, hdue]
  exact h.flows.loses h.flows.forced (Flow.loses_abort _) (Flow.loses_abort _)

theorem close (h : s.Bounded limit largest) :
    s.close.flows.Bounded limit largest s.close.attachmentDue := by
  rw [flows_close]
  exact ⟨h.flows.forced, Nat.zero_le _, Nat.zero_le _, fun _ f hf => nomatch hf⟩

theorem perform (h : s.Bounded limit largest) (hgives : ∀ p, host.Gives p → p.size ≤ largest)
    (now : S) (action : Action) : (s.perform now action).Bounded limit largest := by
  have hforced : s.refreshForced = false := h.flows.forced
  have hsettings := sameSettings_perform hforced now action
  refine ⟨by rw [hsettings.1, h.options], hsettings.readsAhead_eq.trans h.waits, ?_⟩
  cases action with
  | start => exact h.startReader
  | readerTurn => exact h.readerTurn hgives now
  | cycleStream kind => exact h.cycleStream kind now
  | abort => exact h.abort
  | close => exact h.close
  | _ => exact h.downstream now rfl (by simp)

/-! ### Every run -/

theorem start {uri : String} {options : Options S} {screen : host.Screen} {opened : S}
    (hopen : Session.open host uri options screen opened = .ok s) (hahead : s.readsAhead = false)
    (largest : Nat) : s.Bounded options.maxQueueSize largest := by
  obtain ⟨hforced, -, hvideo, haudio⟩ := justOpened_open hopen
  obtain ⟨source, hdisplay⟩ := displayState_open hopen
  have hoptions : s.options = options := congrArg DisplayState.options hdisplay
  have hpictures : Flow.bytes s.flows.video = 0 := Flow.bytes_opened hvideo
  have hsound : Flow.bytes s.flows.audio = 0 := Flow.bytes_opened haudio
  refine ⟨by rw [hoptions], hahead, hforced, by omega, by omega, fun _ f hf _ => ?_⟩
  rw [hf] at hpictures
  exact hpictures

theorem run (h : s.Bounded limit largest) (hgives : ∀ p, host.Gives p → p.size ≤ largest)
    (actions : List (S × Action)) : (s.run actions).Bounded limit largest :=
  of_run h (fun _ now action h => h.perform hgives now action) actions

end Bounded

end Session

/-! ## A cover beside sound -/

/-- A script gives out the packets of its lines and its single picture. -/
theorem Script.of_gives {S : Type} [Scalar S] {script : Script S} {presentation : Presentation}
    {p : Packet} (h : (Host.scripted script presentation).Gives p) :
    (∃ r, .row r ∈ script.lines ∧ r.packet = p) ∨
      ∃ r, script.attached = some r ∧ r.packet = p := by
  cases h with
  | @read now m m' hread =>
    left
    have hread : script.container.read now m = (.ok (.packet p), m') := hread
    unfold Script.container at hread
    dsimp only at hread
    split at hread
    · cases hread
    · rename_i r hline
      obtain rfl : r.packet = p := by
        injection hread with houtcome
        injection houtcome with houtcome
        injection houtcome
      exact ⟨r, Array.mem_of_getElem? hline, rfl⟩
    · cases hread
    · cases hread
  | @attached index m hattached =>
    right
    have hattached : script.container.attachedPicture index m = some p := hattached
    obtain ⟨r, hr, hp⟩ := Option.bind_eq_some_iff.1 hattached
    split at hp
    · exact ⟨r, hr, Option.some.inj hp⟩
    · cases hp

namespace CoverBesideSound

/-- A packet of four bytes. -/
def row (stream number : Nat) : ScriptRow where
  packet :=
    { (default : Packet) with stream := stream, data := ScriptRow.numberBytes number }
  pictures := []
  blocks := []
  hold := false
  fail := none

/-- A stream of pictures, one of sound with one packet, and a cover. -/
def script : Script Rat where
  info :=
    { streams :=
        [.video 0 ⟨1, 25⟩ 8 4 ⟨25, 1⟩, .audio 1 ⟨1, 48000⟩ 48000 2,
          { StreamParams.video 2 ⟨1, 25⟩ 8 4 ⟨25, 1⟩ with attachedPicture := true }]
      chapters := []
      bitRate := none
      startTime := none
      duration := none
      realtime := false
      jumping := false }
  lines := #[.row (row 1 0)]
  attached := some (row 2 1)
  seekTo := []
  seekFailsAt := none
  videoOpenFails := none
  audioOpenFails := none
  videoDrainFails := none
  audioDrainFails := none

def host : Host Rat :=
  Host.scripted script {}

/-- Nothing is to be read as long as there is anything in the queues. -/
def options : Options Rat :=
  { maxQueueSize := 0 }

/-- The packet of sound is read, and then the cover is opened and queued. -/
def actions : List (Rat × Session.Action) :=
  [(0, .start), (0, .readerTurn), (0, .cycleStream .video), (0, .readerTurn)]

end CoverBesideSound

/-! ## Every run -/

section

variable {S : Type} [Scalar S] {host : Host S} {uri : String} {options : Options S}
  {screen : host.Screen} {opened : S} {s : Session host}

/-- Payload bytes of the packets that wait in the queue of a stream, if it is open. -/
def Session.waitingBytes {α : Type} (v : Option (Stream S α)) : Nat :=
  (v.map fun v => payload (v.packets.entries.map (·.entry))).getD 0

/-- A queue counts the bytes that it holds. -/
theorem Recorded.Kept.waitingBytes_eq {t : Recorded host} (h : t.Kept) :
    Session.waitingBytes t.session.videoStream = Flow.bytes t.session.flows.video ∧
      Session.waitingBytes t.session.audioStream = Flow.bytes t.session.flows.audio := by
  have hpayload {q : PacketQueue} (hq : q.Accounted) :
      payload (q.entries.map (·.entry)) = q.size := by
    rw [hq.size, payload, List.map_map]
    rfl
  have hvideo := h.video
  have haudio := h.audio
  unfold Session.videoStream Session.audioStream Session.waitingBytes
  unfold Session.flows at hvideo haudio ⊢
  constructor
  · cases hp : t.session.video with
    | none => rfl
    | some p =>
      rw [hp] at hvideo
      exact hpayload (hvideo p.flow rfl).follows.accounted
  · cases hp : t.session.audio with
    | none => rfl
    | some p =>
      rw [hp] at haudio
      exact hpayload (haudio p.flow rfl).follows.accounted

/-- A session that does not read ahead never holds more than the limit and two of the largest
packets in its queues. -/
theorem queued_bytes_bounded (hopen : Session.open host uri options screen opened = .ok s)
    (hahead : s.readsAhead = false) {largest : Nat}
    (hgives : ∀ p, host.Gives p → p.size ≤ largest) (actions : List (S × Session.Action)) :
    let s' := s.run actions
    Session.waitingBytes s'.audioStream + Session.waitingBytes s'.videoStream ≤
      options.maxQueueSize + 2 * largest := by
  intro s'
  have hbounded : s'.Bounded options.maxQueueSize largest :=
    (Session.Bounded.start hopen hahead largest).run hgives actions
  have hkept : ((Recorded.start s).run actions).Kept := (Recorded.Kept.start hopen).run actions
  obtain ⟨hvideo, haudio⟩ := hkept.waitingBytes_eq
  have hsame : ((Recorded.start s).run actions).session = s' := Recorded.session_run _ _
  rw [hsame] at hvideo haudio
  rw [hvideo, haudio]
  exact hbounded.flows.total

/-- The bound is reached: the cover and the packet of sound wait although the limit is zero. -/
theorem queued_bytes_bounded_cover :
    ∃ s, Session.open CoverBesideSound.host "" CoverBesideSound.options (0 : Nat) 0 = .ok s ∧
      let s' := s.run CoverBesideSound.actions
      s.readsAhead = false ∧
        Session.waitingBytes s'.audioStream + Session.waitingBytes s'.videoStream ≤ 0 + 2 * 4 ∧
        Session.waitingBytes s'.audioStream + Session.waitingBytes s'.videoStream = 8 := by
  have hopen : ∃ s,
      Session.open CoverBesideSound.host "" CoverBesideSound.options (0 : Nat) 0 = .ok s ∧
        s.readsAhead = false ∧
        Session.waitingBytes (s.run CoverBesideSound.actions).audioStream +
          Session.waitingBytes (s.run CoverBesideSound.actions).videoStream = 8 :=
    ⟨_, rfl, by decide +kernel⟩
  obtain ⟨s, hs, hahead, hreached⟩ := hopen
  have hgives : ∀ p, CoverBesideSound.host.Gives p → p.size ≤ 4 := by
    intro p hp
    rcases Script.of_gives hp with ⟨r, hr, rfl⟩ | ⟨r, hr, rfl⟩
    · obtain rfl : r = CoverBesideSound.row 1 0 :=
        ScriptLine.row.inj (Array.mem_singleton.1 hr)
      decide
    · obtain rfl : CoverBesideSound.row 2 1 = r := Option.some.inj hr
      decide
  exact ⟨s, hs, hahead, queued_bytes_bounded hs hahead hgives CoverBesideSound.actions, hreached⟩

end

end Playback
