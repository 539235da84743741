import Playback.Proofs.Session.Downstream
import Playback.Proofs.Session.PictureBook

/-!
# Rings in order

Throughout every run (`InOrder.run`), the ring of pictures goes by a book on its stream, and the
ring of sound holds what was published in it and not taken.
-/

namespace Playback

open FrameRing

section

variable {S M σ F α : Type} [Scalar S] [CodecUnit F] {codec : Codec S M σ F}
  {make : DecodedFrame S F → α} {refuses : Prop} {f f' : Flow S σ F α}

/-- A decode loop begins no epoch. It shuts a queue down only if a buffer is refused. -/
theorem Flow.Moves.queue (hmove : Moves codec make refuses (some f) (some f')) :
    f'.packets.serial = f.packets.serial ∧
      (f'.packets.aborted = f.packets.aborted ∨ f'.packets.aborted = true ∧ refuses) := by
  have hdecoded {now : S} {m : M} {r : Decoder.Run S M σ F}
      (hr : f.decoder.next codec now f.packets m = r) :
      r.queue.serial = f.packets.serial ∧ r.queue.aborted = f.packets.aborted := by
    obtain ⟨front, htakes⟩ := Decoder.takes_next codec now f.decoder f.packets m
    rw [← hr]
    exact ⟨htakes.serial, htakes.aborted⟩
  cases hmove with
  | waits | ends | publishes => exact ⟨rfl, .inl rfl⟩
  | decodes hr => exact ⟨(hdecoded hr).1, .inl (hdecoded hr).2⟩
  | endsAfter hr => exact ⟨(hdecoded hr).1, .inl (hdecoded hr).2⟩
  | takes hr => exact ⟨(hdecoded hr).1, .inl (hdecoded hr).2⟩
  | leaves hr => exact ⟨(hdecoded hr).1, .inl (hdecoded hr).2⟩
  | refused hr _ hrefuses => exact ⟨(hdecoded hr).1, .inr ⟨rfl, hrefuses⟩⟩

theorem Flow.Moves.holds (hring : ∃ l, f.frames.Holds l)
    (hmove : Moves codec make refuses (some f) (some f')) : ∃ l, f'.frames.Holds l := by
  obtain ⟨l, hl⟩ := hring
  cases hmove with
  | waits | ends | decodes | endsAfter | takes | leaves => exact ⟨l, hl⟩
  | publishes _ hpush => exact ⟨_, hl.push hpush⟩
  | refused => exact ⟨_, hl.stop⟩

end

namespace Session

variable {S : Type} [Scalar S] {host : Host S} {s s' : Session host} {now : S}

/-- The ring of sound is in order, if there is one. -/
def SoundInOrder (s : Session host) : Prop :=
  ∀ f, s.flows.audio = some f → ∃ l, f.frames.Holds l

namespace SoundInOrder

theorem of_flows {fs : Flows host} (h : s.SoundInOrder) (hflows : s'.flows = fs)
    (haudio : fs.audio = s.flows.audio) : s'.SoundInOrder := by
  intro f hf
  rw [hflows, haudio] at hf
  exact h f hf

theorem of_opened (hopened : ∀ f, s.flows.audio = some f → f.Opened host.openAudio) :
    s.SoundInOrder := by
  intro f hf
  obtain @⟨p, c, -, kind, fallback, ringSize, keepLast⟩ := hopened f hf
  exact ⟨_, holds_new ringSize keepLast⟩

theorem downstream (h : s.SoundInOrder) (hmoves : s.flows.Downstream s'.flows) :
    s'.SoundInOrder := by
  cases hmoves with
  | nothing hflows => exact h.of_flows hflows rfl
  | video _ hflows => exact h.of_flows hflows rfl
  | shows _ hflows => exact h.of_flows hflows rfl
  | @audio a hmoves hflows =>
    intro f' hf'
    obtain rfl : a = some f' := (congrArg Flows.audio hflows).symm.trans hf'
    obtain ⟨f, hf, hmove⟩ := hmoves.source
    exact hmove.holds (h f hf)
  | @plays g hg hflows =>
    intro f' hf'
    obtain ⟨f, hf, rfl⟩ := Option.map_eq_some_iff.1 ((congrArg Flows.audio hflows).symm.trans hf')
    obtain ⟨l, hl⟩ := h f hf
    obtain ⟨l', hl', -⟩ := hg.consumes f.frames (fun _ => True) ⟨l, hl, fun _ _ => trivial⟩
    exact ⟨l', hl'⟩

theorem perform (h : s.SoundInOrder) (hforced : s.refreshForced = false) (now : S)
    (action : Action) : (s.perform now action).SoundInOrder := by
  by_cases hdown : action.isDownstream = true
  · exact h.downstream (downstream_perform hforced now hdown)
  cases action with
  | readerTurn =>
    obtain ⟨video, audio, -, -, hflows⟩ := s.fed_readerTurn now
    intro f' hf'
    obtain ⟨f, hf, rfl⟩ := Option.map_eq_some_iff.1 ((congrArg Flows.audio hflows).symm.trans hf')
    exact h f hf
  | cycleStream kind =>
    cases hswitch : s.switches kind with
    | false =>
      have hstays := cycleStream_of_stays hswitch now
      exact h.of_flows (congrArg Session.flows hstays) rfl
    | true =>
      cases kind with
      | video =>
        obtain ⟨v, -, hflows⟩ := flows_cycleVideo hswitch now
        exact h.of_flows hflows rfl
      | audio =>
        obtain ⟨a, hopened, hflows⟩ := flows_cycleAudio hswitch now
        have haudio := congrArg Flows.audio hflows
        exact of_opened fun f hf => hopened f (haudio.symm.trans hf)
  | abort =>
    intro f' hf'
    obtain ⟨f, hf, rfl⟩ :=
      Option.map_eq_some_iff.1 ((congrArg Flows.audio s.flows_abort).symm.trans hf')
    obtain ⟨l, hl⟩ := h f hf
    exact ⟨_, hl.stop⟩
  | close =>
    intro f' hf'
    cases (congrArg Flows.audio s.flows_close).symm.trans hf'
  | _ => exact absurd rfl hdown

end SoundInOrder

/-- Both rings are in order. -/
structure InOrder (s : Session host) : Prop where
  book : ∃ b : PictureBook host, b.session = s ∧ b.Kept
  sound : s.SoundInOrder

namespace InOrder

theorem forced (h : s.InOrder) : s.refreshForced = false := by
  obtain ⟨b, rfl, hb⟩ := h.book
  exact hb.forced

theorem books (h : s.InOrder) :
    ∀ f, s.flows.video = some f → ∃ returned taken l, f.Books returned taken l := by
  obtain ⟨b, rfl, hb⟩ := h.book
  exact fun f hf => ⟨_, _, hb.books f hf⟩

theorem start {uri : String} {options : Options S} {screen : host.Screen}
    (hopen : Session.open host uri options screen now = .ok s) : s.InOrder :=
  ⟨⟨.start s, rfl, .start hopen⟩, .of_opened (justOpened_open hopen).audio⟩

theorem perform (h : s.InOrder) (now : S) (action : Action) : (s.perform now action).InOrder := by
  obtain ⟨b, hsession, hb⟩ := h.book
  refine ⟨⟨b.perform now action, ?_, hb.perform now action⟩, h.sound.perform h.forced now action⟩
  rw [b.session_perform, hsession]

theorem run (h : s.InOrder) (actions : List (S × Action)) : (s.run actions).InOrder :=
  of_run h (fun _ now action h => h.perform now action) actions

end InOrder

end Session

end Playback
