import Playback.Proofs.Session.GenuineFlows
import Playback.Proofs.Session.ReaderTurns

/-!
# Sessions with what is put into their queues

A session is followed together with what its reader puts into the queues (`Traced`): how many seeks
have succeeded, and which packets were put into each queue since its latest marker (`Intake`).
Throughout every run both flows are genuine with respect to these packets (`Traced.Kept.run`).

An epoch begins with each seek that succeeds, unless the queue was aborted before: an aborted queue
refuses the marker, so its epoch goes on. The queue of an open stream is aborted only when the
session ends or the presentation has refused a frame.
-/

namespace Playback

/-- What a frame on the way to display shows of the unit that it was made from. -/
def VideoFrame.Shows {S : Type} (f : VideoFrame S) (u : DecodedPicture) : Prop :=
  f.picture = u.picture ∧ f.sampleAspect = u.sampleAspect ∧ f.pos = u.pos

@[inherit_doc VideoFrame.Shows]
def AudioFrame.Shows {S : Type} (f : AudioFrame S) (u : DecodedAudio) : Prop :=
  f.samples = u.samples ∧ f.pos = u.pos

/-! ## What was put into a queue -/

/-- What the reader has put into a packet queue since the latest marker there. -/
structure Intake where
  /-- The packets, each with the number of seeks that had succeeded when it was put. -/
  packets : List (Nat × Packet)
  /-- The number of seeks that had succeeded when the marker was put. -/
  marker : Nat
  /-- The number of seeks since then whose marker the queue has refused. -/
  refused : Nat

namespace Intake

/-- Nothing was put since the marker that came after so many seeks. -/
def opened (seeks : Nat) : Intake :=
  ⟨[], seeks, 0⟩

/-- The packets without their numbers. -/
def put (i : Intake) : List Packet :=
  i.packets.map (·.2)

/-- What was put after a turn of the reader that took the queue from `q` to `q'`. In that turn a
seek succeeded if `sought` is set, and with it so many `seeks` in all. -/
def after (i : Intake) (sought : Bool) (seeks : Nat) (q q' : PacketQueue) : Intake :=
  if q'.serial = q.serial then
    { i with
      packets := i.packets ++
        (packetsOf ((q'.entries.drop q.length).map (·.entry))).map (seeks, ·)
      refused := if sought then i.refused + 1 else i.refused }
  else ⟨(packetsOf (q'.entries.map (·.entry))).map (seeks, ·), seeks, 0⟩

/-- The packets were all put after as many seeks as the marker. Only an aborted queue refuses
markers. -/
structure Fits (i : Intake) (seeks : Nat) (q : PacketQueue) : Prop where
  marked : ∀ p ∈ i.packets, p.1 = i.marker
  total : i.marker + i.refused = seeks
  aborted : 0 < i.refused → q.aborted = true

variable {i : Intake} {seeks : Nat} {q q' : PacketQueue} {entries : List Entry}

theorem fits_opened (seeks : Nat) (q : PacketQueue) : (opened seeks).Fits seeks q where
  marked := nofun
  total := rfl
  aborted := nofun

theorem Fits.of_aborted (h : i.Fits seeks q) (hq : q.aborted = true → q'.aborted = true) :
    i.Fits seeks q' :=
  ⟨h.marked, h.total, fun hrefused => hq (h.aborted hrefused)⟩

theorem put_append (i : Intake) (seeks : Nat) (packets : List Packet) :
    { i with packets := i.packets ++ packets.map (seeks, ·) }.put = i.put ++ packets := by
  simp [put, Function.comp_def]

/-- An aborted queue takes no packet and no marker. -/
theorem after_of_aborted (i : Intake) (hq : q.aborted = true) (sought : Bool) (seeks : Nat)
    (entries : List Entry) :
    i.after sought seeks q (q.fed sought entries) =
      { i with refused := if sought then i.refused + 1 else i.refused } := by
  obtain ⟨hserial, hdrop⟩ := PacketQueue.new_of_aborted hq sought entries
  rw [after, if_pos hserial, hdrop]
  simp [packetsOf]

/-- A seek begins with a marker, and what is put in the same turn comes after it. -/
theorem after_of_sought (i : Intake) (hq : q.aborted = false) (hentries : Unmarked entries)
    (seeks : Nat) :
    i.after true seeks q (q.fed true entries) =
      ⟨(packetsOf entries).map (seeks, ·), seeks, 0⟩ := by
  obtain ⟨hserial, hnew⟩ := PacketQueue.new_of_restarted hq hentries
  rw [after, if_neg (by omega), hnew]
  rfl

/-- Without a seek the packets of a turn come after those before. -/
theorem after_of_running (i : Intake) (hq : q.aborted = false) (hentries : Unmarked entries)
    (seeks : Nat) :
    i.after false seeks q (q.fed false entries) =
      { i with packets := i.packets ++ (packetsOf entries).map (seeks, ·) } := by
  obtain ⟨hserial, hnew⟩ := PacketQueue.new_of_running hq hentries
  rw [after, if_pos hserial, hnew]
  rfl

end Intake

/-! ## Flows with what was put into them -/

variable {S M σ F α : Type} [Timed S α]

/-- A flow that is genuine with respect to what was put into its queue. The queue is aborted only if
the session is to end or, where the presentation `refuses` frames, if it has refused one. -/
structure Tracked (codec : Codec S M σ F) (opens : StreamParams → Except CodecFailure σ)
    (shows : α → F → Prop) (refuses : Prop) (aborted : Bool) (seeks : Nat) (i : Intake)
    (f : Flow S σ F α) : Prop where
  fits : i.Fits seeks f.packets
  genuine : ∃ c, opens f.params = .ok c ∧ f.Genuine codec c shows i.put
  aborts : f.packets.aborted = true → aborted = true ∨ refuses
  refused : 0 < i.refused → refuses

/-- What was put into the queue of a stream after a turn of the reader took the stream from `v` to
`v'`; see `Intake.after`. -/
def Intake.afterTurn {α : Type} (i : Intake) (sought : Bool) (seeks : Nat)
    (v v' : Option (Stream S α)) : Intake :=
  match v, v' with
  | some v, some v' => i.after sought seeks v.packets v'.packets
  | _, _ => i

namespace Tracked

variable {codec : Codec S M σ F} {opens : StreamParams → Except CodecFailure σ}
  {shows : α → F → Prop} {refuses : Prop} {aborted : Bool} {seeks : Nat} {i : Intake}
  {f f' : Flow S σ F α}

theorem opened (hf : f.Opened opens) (refuses : Prop) (aborted : Bool) (seeks : Nat) :
    Tracked codec opens shows refuses aborted seeks (.opened seeks) f := by
  have hrun : f.packets.aborted = false := by
    cases hf
    rfl
  refine ⟨Intake.fits_opened seeks f.packets, Flow.Genuine.opened codec shows hf, fun h => ?_,
    nofun⟩
  exact absurd h (by simp [hrun])

theorem consume (h : Tracked codec opens shows refuses aborted seeks i f)
    {g : FrameRing α → FrameRing α} (hg : FrameRing.Consumes g) :
    Tracked codec opens shows refuses aborted seeks i (f.onFrames g) := by
  obtain ⟨c, hopen, hgenuine⟩ := h.genuine
  exact ⟨h.fits, ⟨c, hopen, hgenuine.consume hg⟩, h.aborts, h.refused⟩

theorem abort (h : Tracked codec opens shows refuses aborted seeks i f) :
    Tracked codec opens shows refuses true seeks i
      { f with packets := f.packets.abort, frames := f.frames.stop } := by
  obtain ⟨c, hopen, hgenuine⟩ := h.genuine
  exact ⟨h.fits.of_aborted fun _ => rfl, ⟨c, hopen, hgenuine.abort⟩, fun _ => .inl rfl, h.refused⟩

theorem moves [Scalar S] [CodecUnit F] {make : DecodedFrame S F → α}
    (h : Tracked codec opens shows refuses aborted seeks i f)
    (hforget : ∀ p c, opens p = .ok c → codec.Forgetful c)
    (hmake : Flow.Genuine.Faithful make shows)
    (hmove : Flow.Moves codec make refuses (some f) (some f')) :
    Tracked codec opens shows refuses aborted seeks i f' := by
  obtain ⟨c, hopen, hgenuine⟩ := h.genuine
  obtain ⟨hgenuine', hparams, hqueue⟩ := hgenuine.moves (hforget _ c hopen) hmake hmove
  have hopen' : ∃ c, opens f'.params = .ok c ∧ f'.Genuine codec c shows i.put :=
    ⟨c, hparams ▸ hopen, hgenuine'⟩
  rcases hqueue with hsame | ⟨haborted, hrefuses⟩
  · exact ⟨h.fits.of_aborted hsame.trans, hopen', fun ha => h.aborts (hsame ▸ ha), h.refused⟩
  · exact ⟨h.fits.of_aborted fun _ => haborted, hopen', fun _ => .inr hrefuses, h.refused⟩

/-! ### A turn of the reader -/

/-- An aborted queue goes on with its epoch; a seek adds to the markers that it has refused. -/
theorem fed_of_aborted (h : Tracked codec opens shows refuses aborted seeks i f)
    (hqueue : f.packets.aborted = true) {sought : Bool} (hsought : sought = true → aborted = false)
    (entries : List Entry) :
    Tracked codec opens shows refuses aborted (if sought then seeks + 1 else seeks)
      { i with refused := if sought then i.refused + 1 else i.refused } (f.fed sought entries) := by
  obtain ⟨c, hopen, hgenuine⟩ := h.genuine
  obtain ⟨hmarked, htotal, -⟩ := h.fits
  have hstays : (f.fed sought entries).packets.aborted = true :=
    (f.aborted_fed sought entries).trans hqueue
  have haborts := h.aborts hqueue
  refine ⟨⟨hmarked, ?_, fun _ => hstays⟩, ⟨c, hopen, hgenuine.fed_of_aborted hqueue sought entries⟩,
    fun _ => haborts, ?_⟩
  · cases sought with
    | false => exact htotal
    | true =>
      simp only [if_true]
      omega
  · cases sought with
    | false => exact h.refused
    | true => exact fun _ => haborts.resolve_left (by simp [hsought rfl])

theorem not_refused (h : Tracked codec opens shows refuses aborted seeks i f)
    (hrun : f.packets.aborted = false) : i.refused = 0 := by
  by_contra hne
  have hqueue := h.fits.aborted (Nat.pos_of_ne_zero hne)
  rw [hrun] at hqueue
  cases hqueue

/-- Without a seek, a running queue gets packets of its epoch. -/
theorem fed_of_running (h : Tracked codec opens shows refuses aborted seeks i f)
    (hrun : f.packets.aborted = false) {entries : List Entry} (hentries : Unmarked entries) :
    Tracked codec opens shows refuses aborted seeks
      { i with packets := i.packets ++ (packetsOf entries).map (seeks, ·) }
      (f.fed false entries) := by
  obtain ⟨c, hopen, hgenuine⟩ := h.genuine
  obtain ⟨hmarked, htotal, -⟩ := h.fits
  have hnone := h.not_refused hrun
  have haborts (ha : (f.fed false entries).packets.aborted = true) : aborted = true ∨ refuses :=
    h.aborts ((f.aborted_fed false entries).symm.trans ha)
  refine ⟨⟨fun p hp => ?_, htotal, fun hpos => absurd hpos (by simp [hnone])⟩, ⟨c, hopen, ?_⟩,
    haborts, h.refused⟩
  · rcases List.mem_append.1 hp with hp | hp
    · exact hmarked p hp
    · obtain ⟨packet, -, rfl⟩ := List.mem_map.1 hp
      simp only
      omega
  · rw [Intake.put_append]
    exact hgenuine.putAll hrun hentries

/-- After a seek, a running queue gets the packets of a new epoch. -/
theorem fed_of_sought (h : Tracked codec opens shows refuses aborted seeks i f)
    (hrun : f.packets.aborted = false) {entries : List Entry} (hentries : Unmarked entries)
    (seeks' : Nat) :
    Tracked codec opens shows refuses aborted seeks'
      ⟨(packetsOf entries).map (seeks', ·), seeks', 0⟩ (f.fed true entries) := by
  obtain ⟨c, hopen, hgenuine⟩ := h.genuine
  have hput : (⟨(packetsOf entries).map (seeks', ·), seeks', 0⟩ : Intake).put =
      [] ++ packetsOf entries := by
    simp [Intake.put, Function.comp_def]
  have haborts (ha : (f.fed true entries).packets.aborted = true) : aborted = true ∨ refuses :=
    h.aborts ((f.aborted_fed true entries).symm.trans ha)
  refine ⟨⟨fun p hp => ?_, rfl, nofun⟩, ⟨c, hopen, ?_⟩, haborts, nofun⟩
  · obtain ⟨packet, -, rfl⟩ := List.mem_map.1 hp
    rfl
  · rw [hput]
    exact (hgenuine.restart hrun).putAll ((f.aborted_fed true []).trans hrun) hentries

/-- A turn of the reader, in which a seek succeeded if `sought` is set. -/
theorem fed (h : Tracked codec opens shows refuses aborted seeks i f) {sought : Bool}
    (hsought : sought = true → aborted = false) {entries : List Entry}
    (hentries : Unmarked entries) :
    let seeks' := if sought then seeks + 1 else seeks
    Tracked codec opens shows refuses aborted seeks'
      (i.after sought seeks' f.packets (f.fed sought entries).packets) (f.fed sought entries) := by
  intro seeks'
  have hpackets : (f.fed sought entries).packets = f.packets.fed sought entries := rfl
  rw [hpackets]
  by_cases hqueue : f.packets.aborted = true
  · rw [i.after_of_aborted hqueue]
    exact h.fed_of_aborted hqueue hsought entries
  have hrun : f.packets.aborted = false := Bool.eq_false_iff.2 hqueue
  cases sought with
  | false =>
    rw [i.after_of_running hrun hentries]
    exact h.fed_of_running hrun hentries
  | true =>
    rw [i.after_of_sought hrun hentries]
    exact h.fed_of_sought hrun hentries seeks'

/-- What was put into a queue after a turn of the reader stays tracked. -/
theorem afterTurn {seeks : Nat} {v v' : Option (Pipeline S σ F α)} {entries : List Entry}
    (h : ∀ f, v.map Pipeline.flow = some f →
      Tracked codec opens shows refuses aborted seeks i f)
    {sought : Bool} (hsought : sought = true → aborted = false) (hentries : Unmarked entries)
    (hv : v'.map Pipeline.flow = (v.map Pipeline.flow).map (·.fed sought entries)) :
    let seeks' := if sought then seeks + 1 else seeks
    ∀ f, v'.map Pipeline.flow = some f →
      Tracked codec opens shows refuses aborted seeks'
        (i.afterTurn sought seeks' (v.map (·.stream)) (v'.map (·.stream))) f := by
  intro seeks' f hf
  rw [hf] at hv
  obtain ⟨f', hold, hnew⟩ := Option.map_eq_some_iff.1 hv.symm
  have hfed := (h f' hold).fed hsought hentries
  rw [hnew] at hfed
  obtain ⟨p, rfl, rfl⟩ := Option.map_eq_some_iff.1 hold
  obtain ⟨p', rfl, rfl⟩ := Option.map_eq_some_iff.1 hf
  exact hfed

end Tracked

theorem faithful_pictureFrame {S : Type} :
    Flow.Genuine.Faithful (Session.pictureFrame (S := S)) VideoFrame.Shows :=
  fun _ hpos => ⟨⟨rfl, rfl, hpos⟩, rfl⟩

theorem faithful_ofDecoded {S : Type} :
    Flow.Genuine.Faithful (AudioFrame.ofDecoded (S := S)) AudioFrame.Shows :=
  fun _ hpos => ⟨⟨rfl, hpos⟩, rfl⟩

/-- Both flows are tracked, and no picture is to be accepted outside of a refresh. -/
structure Flows.Tracked {S : Type} {host : Host S} (seeks : Nat) (video audio : Intake)
    (fs : Flows host) : Prop where
  forced : fs.forced = false
  video : ∀ f, fs.video = some f →
    Playback.Tracked host.video host.openVideo VideoFrame.Shows host.Refuses fs.aborted seeks
      video f
  audio : ∀ f, fs.audio = some f →
    Playback.Tracked host.audio host.openAudio AudioFrame.Shows False fs.aborted seeks
      audio f

namespace Flows.Tracked

variable {S : Type} {host : Host S} {seeks : Nat} {video audio : Intake} {fs : Flows host}

theorem onPictures (h : fs.Tracked seeks video audio)
    {g : FrameRing (VideoFrame S) → FrameRing (VideoFrame S)} (hg : FrameRing.Consumes g) :
    (fs.onPictures g).Tracked seeks video audio := by
  refine ⟨h.forced, fun f hf => ?_, h.audio⟩
  obtain ⟨f', hold, rfl⟩ := Option.map_eq_some_iff.1 hf
  exact (h.video f' hold).consume hg

theorem onSound (h : fs.Tracked seeks video audio)
    {g : FrameRing (AudioFrame S) → FrameRing (AudioFrame S)} (hg : FrameRing.Consumes g) :
    (fs.onSound g).Tracked seeks video audio := by
  refine ⟨h.forced, h.video, fun f hf => ?_⟩
  obtain ⟨f', hold, rfl⟩ := Option.map_eq_some_iff.1 hf
  exact (h.audio f' hold).consume hg

theorem videoMoves [Scalar S] (h : fs.Tracked seeks video audio)
    (hforget : ∀ p c, host.openVideo p = .ok c → host.video.Forgetful c)
    {v : Option (Flow S host.VideoCodec DecodedPicture (VideoFrame S))}
    (hmoves : Flow.Moves host.video Session.pictureFrame host.Refuses fs.video v) :
    ({ fs with video := v } : Flows host).Tracked seeks video audio := by
  refine ⟨h.forced, fun f (hf : v = some f) => ?_, h.audio⟩
  subst hf
  obtain ⟨f', hold, hmove⟩ := hmoves.source
  exact (h.video f' hold).moves hforget faithful_pictureFrame hmove

theorem audioMoves [Scalar S] (h : fs.Tracked seeks video audio)
    (hforget : ∀ p c, host.openAudio p = .ok c → host.audio.Forgetful c)
    {a : Option (Flow S host.AudioCodec DecodedAudio (AudioFrame S))}
    (hmoves : Flow.Moves host.audio AudioFrame.ofDecoded False fs.audio a) :
    ({ fs with audio := a } : Flows host).Tracked seeks video audio := by
  refine ⟨h.forced, h.video, fun f (hf : a = some f) => ?_⟩
  subst hf
  obtain ⟨f', hold, hmove⟩ := hmoves.source
  exact (h.audio f' hold).moves hforget faithful_ofDecoded hmove

theorem downstream [Scalar S] (h : fs.Tracked seeks video audio)
    (hvideo : ∀ p c, host.openVideo p = .ok c → host.video.Forgetful c)
    (haudio : ∀ p c, host.openAudio p = .ok c → host.audio.Forgetful c) {fs' : Flows host}
    (hdown : fs.Downstream fs') : fs'.Tracked seeks video audio := by
  cases hdown with
  | nothing hflows => exact hflows ▸ h
  | video hmoves hflows => exact hflows ▸ h.videoMoves hvideo hmoves
  | audio hmoves hflows => exact hflows ▸ h.audioMoves haudio hmoves
  | shows hg hflows => exact hflows ▸ h.onPictures hg.consumes
  | plays hg hflows => exact hflows ▸ h.onSound hg.consumes

end Flows.Tracked

/-! ## Sessions with what was put into their queues -/

/-- A session, with what its reader has put into its queues. -/
structure Traced {S : Type} [Scalar S] (host : Host S) where
  session : Session host
  /-- The number of seeks that have succeeded. -/
  seeks : Nat
  video : Intake
  audio : Intake

namespace Traced

variable {S : Type} [Scalar S] {host : Host S}

/-- A session that was just opened. -/
def start (s : Session host) : Traced host :=
  ⟨s, 0, .opened 0, .opened 0⟩

/-- The effect of an action at the moment `now`. -/
def perform (t : Traced host) (now : S) (action : Session.Action) : Traced host :=
  let s := t.session.perform now action
  match action with
  | .readerTurn =>
    let sought := t.session.seekSucceeds now
    let seeks := if sought then t.seeks + 1 else t.seeks
    { session := s
      seeks := seeks
      video := t.video.afterTurn sought seeks t.session.videoStream s.videoStream
      audio := t.audio.afterTurn sought seeks t.session.audioStream s.audioStream }
  | .cycleStream .video =>
    { t with
      session := s
      video := if t.session.switches .video then .opened t.seeks else t.video }
  | .cycleStream .audio =>
    { t with
      session := s
      audio := if t.session.switches .audio then .opened t.seeks else t.audio }
  | _ => { t with session := s }

theorem perform_of_stays {t : Traced host} {kind : MediaKind}
    (hswitch : t.session.switches kind = false) (now : S) :
    t.perform now (.cycleStream kind) = t := by
  cases kind <;> simp [perform, Session.perform, hswitch, Session.cycleStream_of_stays hswitch]

/-- The effect of a run. -/
def run (t : Traced host) (actions : List (S × Session.Action)) : Traced host :=
  actions.foldl (fun t a => t.perform a.1 a.2) t

theorem session_perform (t : Traced host) (now : S) (action : Session.Action) :
    (t.perform now action).session = t.session.perform now action := by
  unfold perform
  split <;> rfl

theorem session_run (t : Traced host) (actions : List (S × Session.Action)) :
    (t.run actions).session = t.session.run actions :=
  (List.foldl_hom session fun t a => (t.session_perform a.1 a.2).symm).symm

/-- The flows through the session are tracked. -/
def Kept (t : Traced host) : Prop :=
  t.session.flows.Tracked t.seeks t.video t.audio

namespace Kept

variable {t : Traced host}

theorem start {s : Session host} (h : s.JustOpened) : (Traced.start s).Kept where
  forced := h.forced
  video f hf := .opened (h.video f hf) _ _ 0
  audio f hf := .opened (h.audio f hf) _ _ 0

theorem readerTurn (h : t.Kept) (now : S) : (t.perform now .readerTurn).Kept := by
  obtain ⟨video, audio, hvideo, haudio, hflows⟩ := t.session.fed_readerTurn now
  have hsought : t.session.seekSucceeds now = true → t.session.flows.aborted = false :=
    Session.running_of_seekSucceeds
  have haborted : (t.session.readerTurn now).flows.aborted = t.session.flows.aborted := by
    rw [hflows]
    rfl
  refine ⟨(congrArg Flows.forced hflows).trans h.forced, ?_, ?_⟩
  · have htracked := Tracked.afterTurn h.video hsought hvideo (congrArg Flows.video hflows)
    rw [← haborted] at htracked
    exact htracked
  · have htracked := Tracked.afterTurn h.audio hsought haudio (congrArg Flows.audio hflows)
    rw [← haborted] at htracked
    exact htracked

theorem cycleVideo (h : t.Kept) (now : S) : (t.perform now (.cycleStream .video)).Kept := by
  cases hswitch : t.session.switches .video with
  | false =>
    rw [perform_of_stays hswitch]
    exact h
  | true =>
    obtain ⟨v, hv, hflows⟩ := Session.flows_cycleVideo hswitch now
    have hperform : t.perform now (.cycleStream .video) =
        { t with
          session := (t.session.cycleStream .video now).2
          video := .opened t.seeks } := by
      simp [perform, Session.perform, hswitch]
    rw [hperform, Kept, hflows]
    exact ⟨h.forced, fun f hf => .opened (hv f hf) _ _ t.seeks, h.audio⟩

theorem cycleAudio (h : t.Kept) (now : S) : (t.perform now (.cycleStream .audio)).Kept := by
  cases hswitch : t.session.switches .audio with
  | false =>
    rw [perform_of_stays hswitch]
    exact h
  | true =>
    obtain ⟨a, ha, hflows⟩ := Session.flows_cycleAudio hswitch now
    have hperform : t.perform now (.cycleStream .audio) =
        { t with
          session := (t.session.cycleStream .audio now).2
          audio := .opened t.seeks } := by
      simp [perform, Session.perform, hswitch]
    rw [hperform, Kept, hflows]
    exact ⟨h.forced, h.video, fun f hf => .opened (ha f hf) _ _ t.seeks⟩

theorem abort (h : t.Kept) : Kept { t with session := t.session.abort } := by
  rw [Kept, Session.flows_abort]
  refine ⟨h.forced, fun f hf => ?_, fun f hf => ?_⟩
  · obtain ⟨f', hold, rfl⟩ := Option.map_eq_some_iff.1 hf
    exact (h.video f' hold).abort
  · obtain ⟨f', hold, rfl⟩ := Option.map_eq_some_iff.1 hf
    exact (h.audio f' hold).abort

theorem close (h : t.Kept) : Kept { t with session := t.session.close } := by
  rw [Kept, Session.flows_close]
  exact ⟨h.forced, (fun f hf => nomatch hf), (fun f hf => nomatch hf)⟩

theorem perform (h : t.Kept) (hvideo : ∀ p c, host.openVideo p = .ok c → host.video.Forgetful c)
    (haudio : ∀ p c, host.openAudio p = .ok c → host.audio.Forgetful c) (now : S)
    (action : Session.Action) : (t.perform now action).Kept := by
  cases action with
  | readerTurn => exact h.readerTurn now
  | cycleStream kind =>
    cases kind with
    | video => exact h.cycleVideo now
    | audio => exact h.cycleAudio now
  | abort => exact h.abort
  | close => exact h.close
  | _ => exact h.downstream hvideo haudio (Session.downstream_perform h.forced now rfl)

theorem run (h : t.Kept) (hvideo : ∀ p c, host.openVideo p = .ok c → host.video.Forgetful c)
    (haudio : ∀ p c, host.openAudio p = .ok c → host.audio.Forgetful c)
    (actions : List (S × Session.Action)) : (t.run actions).Kept := by
  induction actions generalizing t with
  | nil => exact h
  | cons a actions ih => exact ih (h.perform hvideo haudio a.1 a.2)

end Kept

end Traced

end Playback
