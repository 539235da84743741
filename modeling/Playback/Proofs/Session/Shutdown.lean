import Playback.Proofs.Session.Consumption
import Playback.Proofs.Session.EndOfSource

/-!
# The end of a session

A session that is told to end shuts all its streams down, and the reader leaves its loop. From then
on, whatever is asked of the session, nothing is read and every stream stays shut down.

A switch to another stream is not refused, though: it opens a stream that works. Nothing is ever put
into the queue of this stream, so its decode loop waits for packets in vain, until the session is
told to end once more (`aborted_streams`, `opened_after_abort`).
-/

namespace Playback

open FrameRing

/-! ## Decoders that get nothing -/

/-- A decoder has nothing to give out, and there is nothing for it in the queue but markers. -/
structure Decoder.Starves {S σ F : Type} (d : Decoder S σ F) (q : PacketQueue) : Prop where
  running : q.aborted = false
  markers : ∀ e ∈ q.entries, e = ⟨.flush, q.serial⟩
  pending : d.pending = []
  drained : d.drained = false

namespace Decoder

variable {S M σ F : Type} [Scalar S] [CodecUnit F] {codec : Codec S M σ F} {now : S}

/-- Such a decoder passes over the markers and then waits. -/
theorem Ran.starves {b : DecoderBench S M σ F} {r : Run S M σ F} (hran : Ran codec now b r)
    (h : b.decoder.Starves b.queue) : r.result = .wait ∧ r.decoder.Starves r.queue := by
  have hmarker {q q' : PacketQueue} {d : Decoder S σ F} {e : QueuedEntry} (h : d.Starves q)
      (htake : q.take = .ready (e, q')) : e = ⟨.flush, q'.serial⟩ := by
    obtain ⟨-, hentries, hserial, -⟩ := PacketQueue.take_eq_ready htake
    rw [hserial]
    exact h.markers e (hentries ▸ List.mem_cons_self)
  induction hran with
  | emits hemit =>
    obtain ⟨-, ⟨f, rest, t, hpending, -⟩ | ⟨-, hdrained, -⟩⟩ := emit?_eq_some hemit
    · rw [h.pending] at hpending
      cases hpending
    · rw [h.drained] at hdrained
      cases hdrained
  | aborts _ _ hqueue =>
    rw [h.running] at hqueue
    cases hqueue
  | waits _ hd =>
    subst hd
    exact ⟨rfl, h.running, h.markers, rfl, rfl⟩
  | skips _ htake hserial =>
    rw [hmarker h htake] at hserial
    exact absurd rfl hserial
  | flushes _ htake _ _ _ ih =>
    obtain ⟨-, hentries, hserial, haborted⟩ := PacketQueue.take_eq_ready htake
    refine ih ⟨haborted.trans h.running, fun x hx => ?_, rfl, rfl⟩
    rw [hserial]
    exact h.markers x (hentries ▸ List.mem_cons_of_mem _ hx)
  | fails _ htake _ hentry | feeds _ htake _ hentry =>
    rw [hmarker h htake] at hentry
    exact absurd rfl hentry

theorem Starves.next {d : Decoder S σ F} {q : PacketQueue} (h : d.Starves q)
    (codec : Codec S M σ F) (now : S) (m : M) :
    (d.next codec now q m).result = .wait ∧
      (d.next codec now q m).decoder.Starves (d.next codec now q m).queue := by
  have hwake : d.wake.Starves q := by
    unfold wake
    split
    · exact ⟨h.running, h.markers, h.pending, h.drained⟩
    · exact h
  exact (ran_next codec now d q m).starves hwake

end Decoder

/-! ## Streams at the end of a session -/

/-- Queue and ring refuse all calls that may wait. -/
structure Flow.ShutDown {S σ F α : Type} (f : Flow S σ F α) : Prop where
  queue : f.packets.aborted = true
  ring : f.frames.stopped = true

/-- A stream works, but there is nothing for its decode loop to do. -/
structure Flow.Stranded {S σ F α : Type} (f : Flow S σ F α) : Prop where
  starves : f.decoder.Starves f.packets
  ring : f.frames.stopped = false
  loops : f.worker = .running

/-- What becomes of a stream at the end, whether or not it was opened after that. -/
def Flow.EndsAs {S σ F α : Type} (reopened : Bool) (f : Flow S σ F α) : Prop :=
  if reopened then f.Stranded else f.ShutDown

/-- An open stream was open before, and what had become of it is still so. -/
def Flow.Lasts {S σ F α : Type} (v v' : Option (Flow S σ F α)) : Prop :=
  ∀ f', v' = some f' → ∃ f, v = some f ∧ ∀ reopened, f.EndsAs reopened → f'.EndsAs reopened

namespace Flow

variable {S M σ F α : Type} {f f' : Flow S σ F α}

theorem Lasts.refl (v : Option (Flow S σ F α)) : Lasts v v :=
  fun f hf => ⟨f, hf, fun _ => id⟩

theorem stranded_opened {opens : StreamParams → Except CodecFailure σ} (h : f.Opened opens) :
    f.Stranded := by
  obtain ⟨hopen, kind, fallback, ringSize, keepLast⟩ := h
  refine ⟨⟨rfl, fun e he => ?_, rfl, rfl⟩, rfl, rfl⟩
  exact List.mem_singleton.1 he

theorem shutDown_abort (f : Flow S σ F α) :
    ShutDown { f with packets := f.packets.abort, frames := f.frames.stop } :=
  ⟨rfl, rfl⟩

section Moves

variable [Scalar S] [CodecUnit F] {codec : Codec S M σ F} {make : DecodedFrame S F → α}
  {refuses : Prop}

theorem ShutDown.moves (h : f.ShutDown)
    (hmove : Moves codec make refuses (some f) (some f')) : f'.ShutDown := by
  have hdecoded {now : S} {m : M} {r : Decoder.Run S M σ F}
      (hr : f.decoder.next codec now f.packets m = r) : r.queue.aborted = true := by
    subst hr
    obtain ⟨front, htakes⟩ := Decoder.takes_next codec now f.decoder f.packets m
    exact htakes.aborted.trans h.queue
  cases hmove with
  | waits | ends => exact ⟨h.queue, h.ring⟩
  | publishes _ hpush => simp [push, reserve, h.ring, Reply.map] at hpush
  | decodes hr | endsAfter hr | takes hr | leaves hr => exact ⟨hdecoded hr, h.ring⟩
  | refused => exact ⟨rfl, rfl⟩

theorem Stranded.moves (h : f.Stranded)
    (hmove : Moves codec make refuses (some f) (some f')) : f'.Stranded := by
  have hdecoded {now : S} {m : M} {r : Decoder.Run S M σ F}
      (hr : f.decoder.next codec now f.packets m = r) :
      r.result = .wait ∧ r.decoder.Starves r.queue := by
    subst hr
    exact h.starves.next codec now m
  cases hmove with
  | waits => exact h
  | ends hworker => exact absurd h.loops hworker
  | publishes hworker => simp [h.loops] at hworker
  | decodes hr => exact ⟨(hdecoded hr).2, h.ring, h.loops⟩
  | endsAfter hr _ hwait => exact absurd (hdecoded hr).1 hwait
  | refused hr _ _ hwait => exact absurd (hdecoded hr).1 hwait
  | takes hr hresult | leaves hr hresult => simp [(hdecoded hr).1] at hresult

theorem EndsAs.moves {reopened : Bool} (h : f.EndsAs reopened)
    (hmove : Moves codec make refuses (some f) (some f')) : f'.EndsAs reopened := by
  cases reopened with
  | true => exact Stranded.moves h hmove
  | false => exact ShutDown.moves h hmove

theorem Moves.lasts {v v' : Option (Flow S σ F α)} (h : Moves codec make refuses v v') :
    Lasts v v' := by
  rintro f' rfl
  obtain ⟨f, hf, hmove⟩ := h.source
  exact ⟨f, hf, fun _ hends => hends.moves hmove⟩

end Moves

/-- The decode loop of a stream that was opened too late waits for ever. -/
theorem EndsAs.waits [Scalar S] [CodecUnit F] {reopened : Bool} (h : f.EndsAs reopened)
    (codec : Codec S M σ F) :
    if reopened then
      f.Stranded ∧ ∀ now m, (f.decoder.next codec now f.packets m).result = .wait
    else f.ShutDown := by
  cases reopened with
  | true => exact ⟨h, fun now m => (h.starves.next codec now m).1⟩
  | false => exact h

theorem EndsAs.onFrames {reopened : Bool} (h : f.EndsAs reopened)
    {g : FrameRing α → FrameRing α} (hg : Advances g) : (f.onFrames g).EndsAs reopened := by
  cases reopened with
  | true => exact ⟨h.starves, (hg.stopped f.frames).trans h.ring, h.loops⟩
  | false => exact ⟨h.queue, (hg.stopped f.frames).trans h.ring⟩

theorem lasts_onFrames {g : FrameRing α → FrameRing α} (hg : Advances g)
    (v : Option (Flow S σ F α)) : Lasts v (v.map (·.onFrames g)) := by
  intro f' hf'
  obtain ⟨f, hf, rfl⟩ := Option.map_eq_some_iff.1 hf'
  exact ⟨f, hf, fun _ hends => hends.onFrames hg⟩

end Flow

/-- The streams of a session that was `told` to end. -/
structure Flows.Closes {S : Type} {host : Host S} (fs : Flows host) (told : Bool)
    (reopened : MediaKind → Bool) : Prop where
  forced : fs.forced = false
  aborted : fs.aborted = told
  video : told = true → ∀ f, fs.video = some f → f.EndsAs (reopened .video)
  audio : told = true → ∀ f, fs.audio = some f → f.EndsAs (reopened .audio)

namespace Flows.Closes

variable {S : Type} {host : Host S} {fs fs' : Flows host} {told : Bool}
  {reopened : MediaKind → Bool}

theorem lasts (h : fs.Closes told reopened) (hforced : fs'.forced = fs.forced)
    (haborted : fs'.aborted = fs.aborted) (hvideo : Flow.Lasts fs.video fs'.video)
    (haudio : Flow.Lasts fs.audio fs'.audio) : fs'.Closes told reopened := by
  refine ⟨hforced.trans h.forced, haborted.trans h.aborted, fun htold f' hf' => ?_,
    fun htold f' hf' => ?_⟩
  · obtain ⟨f, hf, hends⟩ := hvideo f' hf'
    exact hends _ (h.video htold f hf)
  · obtain ⟨f, hf, hends⟩ := haudio f' hf'
    exact hends _ (h.audio htold f hf)

theorem downstream [Scalar S] (h : fs.Closes told reopened) (hdown : fs.Downstream fs') :
    fs'.Closes told reopened := by
  cases hdown with
  | nothing hflows => exact hflows ▸ h
  | video hmoves hflows => exact hflows ▸ h.lasts rfl rfl hmoves.lasts (.refl _)
  | audio hmoves hflows => exact hflows ▸ h.lasts rfl rfl (.refl _) hmoves.lasts
  | shows hg hflows => exact hflows ▸ h.lasts rfl rfl (Flow.lasts_onFrames hg _) (.refl _)
  | plays hg hflows => exact hflows ▸ h.lasts rfl rfl (.refl _) (Flow.lasts_onFrames hg _)

end Flows.Closes

/-! ## Sessions that are told to end -/

namespace Session

variable {S : Type} [Scalar S] {host : Host S} {s : Session host}

/-- The action tells a session to end. -/
def Action.ends : Action → Bool
  | .abort | .close => true
  | _ => false

/-- Once the session is to end, the reader puts nothing into the queues. -/
theorem flows_readerTurn_of_aborted (h : s.aborted = true) (now : S) :
    (s.readerTurn now).flows = s.flows := by
  unfold readerTurn readerTop
  cases s.reader with
  | waiting | ended => rfl
  | running lastPaused =>
    dsimp only
    rw [if_pos h]
    rfl

end Session

/-- A session with what it was told of its end. -/
structure Closing {S : Type} [Scalar S] (host : Host S) where
  session : Session host
  /-- It was told to end. -/
  told : Bool
  /-- The kinds of stream of which one was switched to another since then. -/
  reopened : MediaKind → Bool

namespace Closing

variable {S : Type} [Scalar S] {host : Host S}

/-- A session that was just opened. -/
def start (s : Session host) : Closing host :=
  ⟨s, false, fun _ => false⟩

/-- The effect of an action at the moment `now`. -/
def perform (t : Closing host) (now : S) (action : Session.Action) : Closing host :=
  let s := t.session.perform now action
  match action with
  | .abort | .close => ⟨s, true, fun _ => false⟩
  | .cycleStream kind =>
    { t with
      session := s
      reopened := fun k => t.reopened k || (k = kind && t.session.switches kind) }
  | _ => { t with session := s }

/-- The effect of a run. -/
def run (t : Closing host) (actions : List (S × Session.Action)) : Closing host :=
  actions.foldl (fun t a => t.perform a.1 a.2) t

theorem session_perform (t : Closing host) (now : S) (action : Session.Action) :
    (t.perform now action).session = t.session.perform now action := by
  unfold perform
  split <;> rfl

theorem session_run (t : Closing host) (actions : List (S × Session.Action)) :
    (t.run actions).session = t.session.run actions :=
  (List.foldl_hom session fun t a => (t.session_perform a.1 a.2).symm).symm

theorem told_run (t : Closing host) (actions : List (S × Session.Action)) :
    (t.run actions).told = (t.told || actions.any (·.2.ends)) := by
  induction actions generalizing t with
  | nil => exact (Bool.or_false _).symm
  | cons a actions ih =>
    have haction : (t.perform a.1 a.2).told = (t.told || a.2.ends) := by
      cases ha : a.2 <;> simp [perform, Session.Action.ends]
    exact (ih (t.perform a.1 a.2)).trans (by rw [haction, List.any_cons, Bool.or_assoc])

/-- The streams are as the session was told. -/
def Kept (t : Closing host) : Prop :=
  t.session.flows.Closes t.told t.reopened

namespace Kept

variable {t : Closing host}

theorem start {s : Session host} {uri : String} {options : Options S} {screen : host.Screen}
    {now : S} (hopen : Session.open host uri options screen now = .ok s) :
    (Closing.start s).Kept :=
  have hjust := Session.justOpened_open hopen
  ⟨hjust.forced, hjust.running, nofun, nofun⟩

theorem readerTurn (h : t.Kept) (now : S) : (t.perform now .readerTurn).Kept := by
  cases haborted : t.session.aborted with
  | true =>
    have hflows : (t.perform now .readerTurn).session.flows = t.session.flows :=
      Session.flows_readerTurn_of_aborted haborted now
    rw [Kept, hflows]
    exact h
  | false =>
    obtain ⟨video, audio, -, -, hflows⟩ := t.session.fed_readerTurn now
    have hnot : t.told = false := h.aborted.symm.trans haborted
    refine ⟨(congrArg Flows.forced hflows).trans h.forced,
      (congrArg Flows.aborted hflows).trans h.aborted, fun htold => ?_, fun htold => ?_⟩
    all_goals
      have htold : t.told = true := htold
      rw [hnot] at htold
      cases htold

theorem cycleStream (h : t.Kept) (kind : MediaKind) (now : S) :
    (t.perform now (.cycleStream kind)).Kept := by
  cases hswitch : t.session.switches kind with
  | false =>
    have hsame : t.perform now (.cycleStream kind) = t := by
      simp [perform, Session.perform, hswitch, Session.cycleStream_of_stays hswitch]
    rw [hsame]
    exact h
  | true =>
    have hperform : t.perform now (.cycleStream kind) =
        { t with
          session := (t.session.cycleStream kind now).2
          reopened := fun k => t.reopened k || k = kind } := by
      simp [perform, Session.perform, hswitch]
    rw [hperform, Kept]
    cases kind with
    | video =>
      obtain ⟨v, hv, hflows⟩ := Session.flows_cycleVideo hswitch now
      rw [hflows]
      refine ⟨h.forced, h.aborted, fun _ f hf => ?_, fun htold f hf => ?_⟩
      · simpa [Flow.EndsAs] using Flow.stranded_opened (hv f hf)
      · simpa using h.audio htold f hf
    | audio =>
      obtain ⟨a, ha, hflows⟩ := Session.flows_cycleAudio hswitch now
      rw [hflows]
      refine ⟨h.forced, h.aborted, fun htold f hf => ?_, fun _ f hf => ?_⟩
      · simpa using h.video htold f hf
      · simpa [Flow.EndsAs] using Flow.stranded_opened (ha f hf)

theorem abort (h : t.Kept) (now : S) : (t.perform now .abort).Kept := by
  have hflows : (t.perform now .abort).session.flows = _ := t.session.flows_abort
  rw [Kept, hflows]
  refine ⟨h.forced, rfl, fun _ f hf => ?_, fun _ f hf => ?_⟩
  all_goals
    obtain ⟨f', -, rfl⟩ := Option.map_eq_some_iff.1 hf
    exact f'.shutDown_abort

theorem close (h : t.Kept) (now : S) : (t.perform now .close).Kept := by
  have hflows : (t.perform now .close).session.flows = _ := t.session.flows_close
  rw [Kept, hflows]
  exact ⟨h.forced, rfl, (fun _ f hf => nomatch hf), fun _ f hf => nomatch hf⟩

theorem perform (h : t.Kept) (now : S) (action : Session.Action) : (t.perform now action).Kept := by
  cases action with
  | readerTurn => exact h.readerTurn now
  | cycleStream kind => exact h.cycleStream kind now
  | abort => exact h.abort now
  | close => exact h.close now
  | _ => exact h.downstream (Session.downstream_perform h.forced now rfl)

theorem run (h : t.Kept) (actions : List (S × Session.Action)) : (t.run actions).Kept := by
  induction actions generalizing t with
  | nil => exact h
  | cons a actions ih => exact ih (h.perform a.1 a.2)

end Kept

end Closing

/-! ## A source with two streams of pictures -/

namespace TwoAngles

/-- A packet is read, and the session is told to end. A seek is asked for after that. -/
def aborted : List (Rat × Session.Action) :=
  [(0, .start), (0, .readerTurn), (0, .abort), (0, .seek 400), (0, .readerTurn), (0, .videoStep)]

/-- The session is told to end, and then to switch to the other stream. -/
def reopened : List (Rat × Session.Action) :=
  [(0, .start), (0, .abort), (0, .cycleStream .video), (0, .videoStep)]

end TwoAngles

/-! ## Every run -/

section

variable {S : Type} [Scalar S] {host : Host S} {uri : String} {options : Options S}
  {screen : host.Screen} {opened : S} {s : Session host}

/-- A session stays aborted once it was told to end. Every stream that is open then is shut down,
except those that were switched to since it was told so. These work, and their decode loops wait for
packets that never come. -/
theorem aborted_streams (hopen : Session.open host uri options screen opened = .ok s)
    (actions : List (S × Session.Action)) :
    let t := (Closing.start s).run actions
    t.session = s.run actions ∧
      (t.session.aborted = true ↔ ∃ a ∈ actions, a.2 = .abort ∨ a.2 = .close) ∧
      (t.session.aborted = true →
        (∀ p, t.session.video = some p →
          if t.reopened .video then
            p.flow.Stranded ∧
              ∀ now m, (p.decoder.next host.video now p.stream.packets m).result = .wait
          else p.flow.ShutDown) ∧
        ∀ p, t.session.audio = some p →
          if t.reopened .audio then
            p.flow.Stranded ∧
              ∀ now m, (p.decoder.next host.audio now p.stream.packets m).result = .wait
          else p.flow.ShutDown) := by
  intro t
  have hkept : t.Kept := (Closing.Kept.start hopen).run actions
  have haborted : t.session.aborted = t.told := hkept.aborted
  have htold : t.told = actions.any (·.2.ends) := Closing.told_run _ actions
  refine ⟨Closing.session_run _ actions, ?_, ?_⟩
  · rw [haborted, htold, List.any_eq_true]
    refine exists_congr fun a => and_congr_right fun _ => ?_
    cases a.2 <;> simp [Session.Action.ends]
  · intro htrue
    rw [haborted] at htrue
    constructor
    · intro p hp
      exact (hkept.video htrue p.flow (congrArg (Option.map Pipeline.flow) hp)).waits host.video
    · intro p hp
      exact (hkept.audio htrue p.flow (congrArg (Option.map Pipeline.flow) hp)).waits host.audio

/-- The stream is still open, and it is shut down. -/
theorem aborted_streams_first :
    ∃ s, Session.open TwoAngles.host "" {} (0 : Nat) 0 = .ok s ∧
      let t := (Closing.start s).run TwoAngles.aborted
      t.session.aborted = true ∧ ∃ p, t.session.video = some p ∧ p.flow.ShutDown := by
  have hopen : ∃ s, Session.open TwoAngles.host "" {} (0 : Nat) 0 = .ok s ∧
      let t := (Closing.start s).run TwoAngles.aborted
      t.reopened .video = false ∧ t.session.video.isSome = true :=
    ⟨_, rfl, by decide +kernel⟩
  obtain ⟨s, hs, hnot, hvideo⟩ := hopen
  obtain ⟨p, hp⟩ := Option.isSome_iff_exists.1 hvideo
  obtain ⟨-, htold, hstreams⟩ := aborted_streams hs TwoAngles.aborted
  have haborted := htold.2 ⟨(0, .abort), by simp [TwoAngles.aborted], .inl rfl⟩
  have hshut := (hstreams haborted).1 p hp
  rw [hnot] at hshut
  exact ⟨s, hs, haborted, p, hp, hshut⟩

/-- The session is aborted, and the other stream is open. Its queue takes packets, its ring takes
pictures, and its decode loop has not ended. -/
theorem opened_after_abort :
    ∃ s, Session.open TwoAngles.host "" {} (0 : Nat) 0 = .ok s ∧
      let t := (Closing.start s).run TwoAngles.reopened
      t.session.aborted = true ∧
        t.session.videoStream.map (fun v =>
          (v.params.index, v.packets.aborted, v.frames.stopped)) = some (1, false, false) ∧
        t.session.video.map (fun p => p.worker matches .running) = some true := by
  refine ⟨_, rfl, ?_⟩
  decide +kernel

end

end Playback
