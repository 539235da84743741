import Playback.Proofs.Session.OpenStreams
import Playback.Proofs.Session.SeekBarrier

/-!
# All streams that were ever open

A stream leaves its session when its codec fails, when the session switches to another stream, and
when the session is closed. Each of these steps hands over the stream as it is left
(`Session.departed`), and `StreamHistory` keeps it; nothing refers to it any more, so nothing
happens to it either.

The queue of a stream is aborted exactly when its ring is stopped, and both are if its decode loop
has ended (`Pipeline.Sound`). A stream keeps this as long as it is open, so a decode loop that has
ended leaves no queue behind that still takes packets (`dead_loop_leaves_no_live_queue`).
-/

namespace Playback

/-! ## Lists of streams -/

namespace Pipeline

variable {S σ F α : Type} {l l' l'' : List (Pipeline S σ F α)} {v v' : Option (Pipeline S σ F α)}

/-- The streams of a list at a later moment, and behind them others that were opened meanwhile. -/
structure Grows (l l' : List (Pipeline S σ F α)) : Prop where
  kept : ∀ (i : Nat) (p : Pipeline S σ F α), l[i]? = some p → ∃ p', l'[i]? = some p' ∧ p.Later p'
  opened : ∀ (i : Nat) (p' : Pipeline S σ F α), l[i]? = none → l'[i]? = some p' → p'.Sound

theorem Grows.refl (l : List (Pipeline S σ F α)) : Grows l l :=
  ⟨fun _ p hp => ⟨p, hp, .refl p⟩, fun _ _ hnone hp => absurd (hnone.symm.trans hp) nofun⟩

theorem Grows.trans (h : Grows l l') (h' : Grows l' l'') : Grows l l'' where
  kept i p hp := by
    obtain ⟨p', hp', hlater⟩ := h.kept i p hp
    obtain ⟨p'', hp'', hlater'⟩ := h'.kept i p' hp'
    exact ⟨p'', hp'', hlater.trans hlater'⟩
  opened i p'' hnone hp'' := by
    cases hp' : l'[i]? with
    | none => exact h'.opened i p'' hp' hp''
    | some p' =>
      obtain ⟨q, hq, hlater⟩ := h'.kept i p' hp'
      obtain rfl : q = p'' := Option.some.inj (hq.symm.trans hp'')
      exact hlater.sound (h.opened i p' hnone hp')

theorem Grows.append_left (h : Grows l l') (past : List (Pipeline S σ F α)) :
    Grows (past ++ l) (past ++ l') where
  kept i p hp := by
    by_cases hi : i < past.length
    · rw [List.getElem?_append_left hi] at hp ⊢
      exact ⟨p, hp, .refl p⟩
    · rw [List.getElem?_append_right (by omega)] at hp ⊢
      exact h.kept _ p hp
  opened i p' hnone hp' := by
    have hi : past.length ≤ i := by
      have := List.getElem?_eq_none_iff.1 hnone
      simp at this
      omega
    rw [List.getElem?_append_right hi] at hnone hp'
    exact h.opened _ p' hnone hp'

theorem Grows.sound (h : Grows l l') (hl : ∀ p ∈ l, p.Sound) : ∀ p ∈ l', p.Sound := by
  intro p' hp'
  obtain ⟨i, hi⟩ := List.mem_iff_getElem?.1 hp'
  cases hp : l[i]? with
  | none => exact h.opened i p' hp hi
  | some p =>
    obtain ⟨q, hq, hlater⟩ := h.kept i p hp
    obtain rfl : q = p' := Option.some.inj (hq.symm.trans hi)
    exact hlater.sound (hl p (List.mem_of_getElem? hp))

/-- The slot of a kind keeps its stream. -/
theorem grows_of_rel (h : Option.Rel Later v v') : Grows v.toList v'.toList := by
  cases h with
  | none => exact .refl []
  | @some p p' h =>
    refine ⟨fun i q hq => ?_, fun i q hnone hq => ?_⟩
    · cases i with
      | zero => exact ⟨p', rfl, Option.some.inj hq ▸ h⟩
      | succ i => cases hq
    · cases i with
      | zero => cases hnone
      | succ i => cases hq

/-- The stream of the slot leaves, and another one may come. -/
theorem grows_of_leaving {p p' : Pipeline S σ F α} (h : p.Later p')
    (hnew : ∀ q, v' = some q → q.Sound) : Grows [p] (p' :: v'.toList) := by
  refine ⟨fun i q hq => ?_, fun i q hnone hq => ?_⟩
  · cases i with
    | zero => exact ⟨p', rfl, Option.some.inj hq ▸ h⟩
    | succ i => cases hq
  · cases i with
    | zero => cases hnone
    | succ i => exact hnew q (Option.mem_toList.1 (List.mem_of_getElem? hq))

/-- What becomes of the stream of a slot unless the session switches to another one: it stays, or it
leaves and none comes for it. -/
def StaysOrLeaves (v left v' : Option (Pipeline S σ F α)) : Prop :=
  left = none ∧ Option.Rel Later v v' ∨
    (∃ p p', v = some p ∧ left = some p' ∧ p.Later p') ∧ v' = none

theorem StaysOrLeaves.grows {left : Option (Pipeline S σ F α)} (h : StaysOrLeaves v left v') :
    Grows v.toList (left.toList ++ v'.toList) := by
  rcases h with ⟨rfl, hrel⟩ | ⟨⟨p, p', rfl, rfl, hlater⟩, rfl⟩
  · exact grows_of_rel hrel
  · exact grows_of_leaving hlater fun q hq => nomatch hq

end Pipeline

/-! ## What an action does to a slot -/

namespace Session

variable {S : Type} [Scalar S] {host : Host S} {s s' : Session host} {now : S}
  {kind : MediaKind} {action : Action}

theorem Looped.own {left : Option (host.PipelineOf kind)} (h : s.Looped kind left s') :
    Pipeline.StaysOrLeaves (s.slot kind) left (s'.slot kind) := by
  rcases h with ⟨hnone, hkeeps⟩ | ⟨hleaves, hgone, -⟩
  · exact .inl ⟨hnone, hkeeps.slot kind⟩
  · exact .inr ⟨hleaves, hgone⟩

theorem Looped.other {left : Option (host.PipelineOf kind)} (h : s.Looped kind left s')
    {other : MediaKind} (hother : other ≠ kind) :
    Pipeline.StaysOrLeaves (s.slot other) none (s'.slot other) := by
  rcases h with ⟨-, hkeeps⟩ | ⟨-, -, hsame⟩
  · exact .inl ⟨rfl, hkeeps.slot other⟩
  · exact .inl ⟨rfl, hsame other hother ▸ Pipeline.rel_refl _⟩

/-- No stream leaves in such an action, and none is opened. -/
def Action.keepsStreams : Action → Bool
  | .videoStep | .audioStep | .audioDecode | .cycleStream _ | .close => false
  | _ => true

theorem keeps_start (s : Session host) : s.Keeps s.start := by
  unfold start
  split <;> exact .of_eq rfl rfl

theorem keeps_takePicture (s : Session host) : s.Keeps s.takePicture.2 := by
  unfold takePicture
  split <;> exact .of_eq rfl rfl

theorem keeps_perform {action : Action} (h : action.keepsStreams = true) (s : Session host)
    (now : S) : s.Keeps (s.perform now action) := by
  cases action with
  | videoStep | audioStep | audioDecode | cycleStream | close => cases h
  | start => exact s.keeps_start
  | readerTurn => exact s.keeps_readerTurn now
  | refresh => exact s.keeps_refresh now
  | takePicture => exact s.keeps_takePicture
  | fill count volume => exact s.keeps_fill count volume now
  | togglePause => exact (s.keeps_switchPause now).trans (.of_eq rfl rfl)
  | step => exact s.keeps_step now
  | seek _ | seekChapter _ | nextChunk | previousChunk => exact keeps_request rfl s now
  | abort => exact s.keeps_abort

theorem departed_of_keepsStreams (h : action.keepsStreams = true) (s : Session host) (now : S)
    (kind : MediaKind) : s.departed now action kind = none := by
  cases action with
  | videoStep | audioStep | audioDecode | cycleStream | close => cases h
  | _ => cases kind <;> rfl

/-- The stream that is switched from leaves, if there is one to switch to. -/
theorem departed_cycleStream (s : Session host) (now : S) (kind : MediaKind) :
    s.departed now (.cycleStream kind) kind =
      if s.switches kind then (s.slot kind).map (·.close) else none := by
  unfold switches
  cases kind with
  | video | audio =>
    rw [← closing_eq]
    simp only [departed, if_true]
    cases s.nextParams _ <;> rfl

theorem departed_close (s : Session host) (now : S) (kind : MediaKind) :
    s.departed now .close kind = (s.shutDown.slot kind).map (·.close) := by
  cases kind with
  | audio => exact s.shutDown.closing_eq .audio
  | video =>
    have hother := (s.shutDown.slot_closeStream .audio).2 .video nofun
    have hleft := (s.shutDown.closeStream .audio).closing_eq .video
    rw [hother] at hleft
    exact hleft

/-- No action but a switch opens a stream. -/
theorem staysOrLeaves_perform (haction : action ≠ .cycleStream kind) (s : Session host) (now : S) :
    Pipeline.StaysOrLeaves (s.slot kind) (s.departed now action kind)
      ((s.perform now action).slot kind) := by
  cases hkeeps : action.keepsStreams with
  | true =>
    exact .inl ⟨departed_of_keepsStreams hkeeps s now kind, (keeps_perform hkeeps s now).slot kind⟩
  | false =>
    cases action with
    | videoStep =>
      cases kind with
      | video => exact (s.looped_videoStep now).own
      | audio => exact (s.looped_videoStep now).other nofun
    | audioStep | audioDecode =>
      cases kind with
      | video => exact (s.looped_audioTurn _ now).other nofun
      | audio => exact (s.looped_audioTurn _ now).own
    | cycleStream other =>
      have hkind : other ≠ kind := fun h => haction (h ▸ rfl)
      have hsame : (s.perform now (.cycleStream other)).slot kind = s.slot kind := by
        cases hswitch : s.switches other with
        | false => exact congrArg (slot · kind) (cycleStream_of_stays hswitch now)
        | true => exact (slot_cycleStream hswitch now).2 kind hkind.symm
      have hnone : s.departed now (.cycleStream other) kind = none := by
        cases kind <;> exact if_neg hkind
      exact .inl ⟨hnone, hsame ▸ Pipeline.rel_refl _⟩
    | close =>
      have hshut := s.keeps_shutDown.slot kind
      have hnone : (s.perform now .close).slot kind = none := s.slot_close kind
      rw [departed_close, hnone]
      generalize s.slot kind = v, s.shutDown.slot kind = v' at hshut ⊢
      cases hshut with
      | none => exact .inl ⟨rfl, .none⟩
      | some hlater => exact .inr ⟨⟨_, _, rfl, rfl, hlater.trans (Pipeline.later_close _)⟩, rfl⟩
    | _ => cases hkeeps

/-- A stream that a switch opens works. -/
theorem grows_perform (s : Session host) (now : S) (action : Action) (kind : MediaKind) :
    Pipeline.Grows (s.slot kind).toList
      ((s.departed now action kind).toList ++ ((s.perform now action).slot kind).toList) := by
  by_cases haction : action = .cycleStream kind
  · subst haction
    rw [departed_cycleStream]
    cases hswitch : s.switches kind with
    | false =>
      have hstays : s.perform now (.cycleStream kind) = s := cycleStream_of_stays hswitch now
      rw [hstays]
      exact .refl _
    | true =>
      have hnew := (slot_cycleStream hswitch now).1
      obtain ⟨p, hp⟩ := exists_of_switches hswitch
      rw [hp]
      exact Pipeline.grows_of_leaving p.later_close hnew
  · exact (staysOrLeaves_perform haction s now).grows

end Session

/-! ## The history -/

/-- A session with the streams of either kind that have left it, the first one first, each as it was
left. -/
structure StreamHistory {S : Type} [Scalar S] (host : Host S) where
  session : Session host
  past : (kind : MediaKind) → List (host.PipelineOf kind)

namespace StreamHistory

variable {S : Type} [Scalar S] {host : Host S}

/-- Of a session that was just opened, no stream has left. -/
def start (s : Session host) : StreamHistory host :=
  ⟨s, fun _ => []⟩

def perform (h : StreamHistory host) (now : S) (action : Session.Action) : StreamHistory host where
  session := h.session.perform now action
  past kind := h.past kind ++ (h.session.departed now action kind).toList

def run (h : StreamHistory host) (actions : List (S × Session.Action)) : StreamHistory host :=
  actions.foldl (fun h a => h.perform a.1 a.2) h

/-- All streams of a kind that were ever open, in the order in which they were opened. -/
def streams (h : StreamHistory host) (kind : MediaKind) : List (host.PipelineOf kind) :=
  h.past kind ++ (h.session.slot kind).toList

theorem session_run (h : StreamHistory host) (actions : List (S × Session.Action)) :
    (h.run actions).session = h.session.run actions := by
  induction actions generalizing h with
  | nil => rfl
  | cons a rest ih => exact ih (h.perform a.1 a.2)

theorem grows_perform (h : StreamHistory host) (now : S) (action : Session.Action)
    (kind : MediaKind) : Pipeline.Grows (h.streams kind) ((h.perform now action).streams kind) := by
  unfold streams perform
  simp only [List.append_assoc]
  exact (h.session.grows_perform now action kind).append_left _

theorem grows_run (h : StreamHistory host) (actions : List (S × Session.Action))
    (kind : MediaKind) : Pipeline.Grows (h.streams kind) ((h.run actions).streams kind) := by
  induction actions generalizing h with
  | nil => exact .refl _
  | cons a rest ih => exact (h.grows_perform a.1 a.2 kind).trans (ih (h.perform a.1 a.2))

end StreamHistory

/-! ## Every run -/

/-- A stream takes nothing any more, and the reader does not wait for it. -/
structure Stream.ShutDown {S α : Type} [Scalar S] (v : Stream S α) : Prop where
  aborted : v.packets.aborted = true
  stopped : v.frames.stopped = true
  refuses : ∀ e, v.packets.put? e = none
  enough : ∀ minFrames, v.hasEnough minFrames = true

section

variable {S σ F α : Type} {p p' : Pipeline S σ F α}

theorem Pipeline.sound_of_opened {opens : StreamParams → Except CodecFailure σ}
    (h : p.flow.Opened opens) : p.Sound := by
  obtain ⟨stream, decoder, worker⟩ := p
  generalize hflow : Pipeline.flow _ = f at h
  obtain ⟨hopen, kind, fallback, ringSize, keepLast⟩ := h
  have hpackets : stream.packets = PacketQueue.new.start := congrArg Flow.packets hflow
  have hframes : stream.frames = FrameRing.new ringSize keepLast := congrArg Flow.frames hflow
  have hworker : worker = .running := congrArg Flow.worker hflow
  exact ⟨by rw [hpackets, hframes]; rfl, by simp [hworker]⟩

variable [Scalar S]

/-- Queue and ring of a stream are shut down together, and if the decode loop has ended. -/
structure Pipeline.LeavesNothing (p : Pipeline S σ F α) : Prop where
  shut_iff : p.stream.packets.aborted = true ↔ p.stream.frames.stopped = true
  dead : p.worker = .ended → p.stream.ShutDown

/-- A decode loop that has ended stays so, and the stream has got nothing since then. -/
structure Pipeline.StaysDead (p p' : Pipeline S σ F α) : Prop where
  ended : p'.worker = .ended
  dead : p'.stream.ShutDown
  params : p'.stream.params = p.stream.params
  serial : p'.stream.packets.serial = p.stream.packets.serial
  received : p'.stream.received = p.stream.received
  entries : p'.stream.packets.entries = p.stream.packets.entries ∨ p'.stream.packets.entries = []

/-- The streams of a list are there at a later moment, and those that were dead are still. -/
def Pipeline.DeadStay (l l' : List (Pipeline S σ F α)) : Prop :=
  ∀ (i : Nat) (p : Pipeline S σ F α), l[i]? = some p →
    ∃ p', l'[i]? = some p' ∧ (p.worker = .ended → p.StaysDead p')

theorem Stream.shutDown {v : Stream S α} (haborted : v.packets.aborted = true)
    (hstopped : v.frames.stopped = true) : v.ShutDown where
  aborted := haborted
  stopped := hstopped
  refuses e := by simp [PacketQueue.put?, haborted]
  enough minFrames := by simp [Stream.hasEnough, haborted]

theorem Pipeline.Sound.dead (h : p.Sound) (hended : p.worker = .ended) : p.stream.ShutDown :=
  Stream.shutDown (h.ended hended) (h.shut ▸ h.ended hended)

theorem Pipeline.Sound.leavesNothing (h : p.Sound) : p.LeavesNothing where
  shut_iff := by rw [h.shut]
  dead := h.dead

theorem Pipeline.Later.staysDead (h : p.Later p') (hp : p.Sound) (hended : p.worker = .ended) :
    p.StaysDead p' where
  ended := h.ended hended
  dead := (h.sound hp).dead (h.ended hended)
  params := h.stream.params
  serial := h.stream.serial (hp.ended hended)
  received := h.stream.received (hp.ended hended)
  entries := h.stream.entries (hp.ended hended)

theorem Pipeline.Grows.deadStay {l l' : List (Pipeline S σ F α)} (h : Grows l l')
    (hl : ∀ p ∈ l, p.Sound) : DeadStay l l' := by
  intro i p hi
  obtain ⟨p', hi', hlater⟩ := h.kept i p hi
  exact ⟨p', hi', hlater.staysDead (hl p (List.mem_of_getElem? hi))⟩

end

/-- A dead decode loop leaves no live queue behind. Of all the streams that were ever open in a
session, open or not by now, the queue of each is aborted exactly when its ring is stopped, and both
are if its decode loop has ended. Whatever is done then, the stream takes nothing any more, no
packet, marker or end, its epoch and the bytes that it has received stay as they are, and the reader
does not wait for it. -/
theorem dead_loop_leaves_no_live_queue {S : Type} [Scalar S] {host : Host S} {uri : String}
    {options : Options S} {screen : host.Screen} {opened : S} {s : Session host}
    (hopen : Session.open host uri options screen opened = .ok s)
    (actions : List (S × Session.Action)) :
    let h := (StreamHistory.start s).run actions
    h.session = s.run actions ∧ ∀ kind,
      (∀ p ∈ h.streams kind, p.LeavesNothing) ∧
        ∀ more, Pipeline.DeadStay (h.streams kind) ((h.run more).streams kind) := by
  intro h
  refine ⟨StreamHistory.session_run _ actions, fun kind => ?_⟩
  have hopened := Session.justOpened_open hopen
  have hstart : ∀ p ∈ (StreamHistory.start s).streams kind, p.Sound := by
    intro p hp
    cases kind with
    | video =>
      have hvideo : s.video = some p := Option.mem_toList.1 hp
      exact Pipeline.sound_of_opened (hopened.video p.flow (by rw [Session.flows, hvideo]; rfl))
    | audio =>
      have haudio : s.audio = some p := Option.mem_toList.1 hp
      exact Pipeline.sound_of_opened (hopened.audio p.flow (by rw [Session.flows, haudio]; rfl))
  have hsound : ∀ p ∈ h.streams kind, p.Sound :=
    ((StreamHistory.start s).grows_run actions kind).sound hstart
  exact ⟨fun p hp => (hsound p hp).leavesNothing,
    fun more => (h.grows_run more kind).deadStay hsound⟩

/-- The video loop has ended because a buffer was refused, and the stream is still open when a seek
succeeds. -/
theorem refused_stream_stays_dead :
    ∃ s, Session.open RefusedBuffer.host "" {} (0 : Nat) 0 = .ok s ∧
      let h := (StreamHistory.start s).run (RefusedBuffer.actions.take 6)
      ∃ p p', (h.streams .video)[0]? = some p ∧ p.worker = .ended ∧
        ((h.run (RefusedBuffer.actions.drop 6)).streams .video)[0]? = some p' ∧ p.StaysDead p' := by
  have hrun : ∃ s, Session.open RefusedBuffer.host "" {} (0 : Nat) 0 = .ok s ∧
      let h := (StreamHistory.start s).run (RefusedBuffer.actions.take 6)
      ((h.streams .video)[0]?.any fun p => p.worker matches .ended) = true :=
    ⟨_, rfl, by decide +kernel⟩
  obtain ⟨s, hs, hended⟩ := hrun
  obtain ⟨p, hp, hworker⟩ := (Option.any_eq_true _ _).1 hended
  obtain ⟨-, hrun⟩ := dead_loop_leaves_no_live_queue hs (RefusedBuffer.actions.take 6)
  obtain ⟨p', hp', hdead⟩ := (hrun .video).2 (RefusedBuffer.actions.drop 6) 0 p hp
  have hended : p.worker = .ended := by
    cases hw : p.worker with
    | ended => rfl
    | running | holding x => simp [hw] at hworker
  exact ⟨s, hs, p, p', hp, hended, hp', hdead hended⟩

end Playback
