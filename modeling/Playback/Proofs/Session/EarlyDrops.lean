import Playback.Proofs.Session.EndOfSource

/-!
# Pictures that are dropped early

The video loop drops a picture that comes too late before it reaches the ring, if something waits in
the queue of its stream that may replace it. Between the call that decodes the picture and the look
at the queue the other workers go on (`Session.inHand`, `Action.isBesideVideo`), so the queue may be
in a later epoch by then, and may hold nothing but ends of the stream.

Whatever they do, the queue holds entries of a single epoch, and no marker as long as this is the
epoch of the picture (`PacketQueue.Past`). So a packet of its epoch waits unless a seek came in
between or only ends of the stream wait (`early_drop_replaced`, `last_picture_dropped`).
-/

namespace Playback

namespace PacketQueue

/-- A packet of the epoch `n` waits in the queue. -/
def Supplies (q : PacketQueue) (n : Nat) : Prop :=
  ∃ e ∈ q.entries, e.serial = n ∧ ∃ packet, e.entry = .data packet

/-- A queue from which something of the epoch `n` was decoded: all that waits is of the same epoch,
and the marker of the epoch `n` was taken. -/
structure Past (n : Nat) (q : PacketQueue) : Prop where
  behind : n ≤ q.serial
  current : ∀ e ∈ q.entries, e.serial = q.serial
  taken : n = q.serial → ∀ e ∈ q.entries, e.entry ≠ .flush

variable {q : PacketQueue} {n : Nat} {entries : List Entry}

namespace Past

theorem of_current (h : q.Current q.entries) : q.Past q.serial :=
  ⟨Nat.le_refl _, fun e he => (h e he).2, fun _ e he => (h e he).1⟩

/-- A packet of the epoch waits unless a later one has begun or only ends of the stream wait. -/
theorem supplies_iff (h : q.Past n) :
    q.Supplies n ↔ n = q.serial ∧ ∃ e ∈ q.entries, e.entry ≠ .endOfStream := by
  constructor
  · rintro ⟨e, he, rfl, packet, hpacket⟩
    exact ⟨h.current e he, e, he, by simp [hpacket]⟩
  · rintro ⟨hserial, e, he, hend⟩
    refine ⟨e, he, (h.current e he).trans hserial.symm, ?_⟩
    cases hentry : e.entry with
    | data packet => exact ⟨packet, rfl⟩
    | flush => exact absurd hentry (h.taken hserial e he)
    | endOfStream => exact absurd hentry hend

/-! ### The other workers -/

theorem putAll (h : q.Past n) (hentries : Unmarked entries) : (q.putAll entries).Past n := by
  cases hrun : q.aborted with
  | true =>
    rw [putAll_of_aborted hrun]
    exact h
  | false =>
    have hserial := q.serial_putAll hentries
    refine ⟨hserial ▸ h.behind, fun x hx => ?_, fun hn x hx => ?_⟩
    all_goals
      rw [entries_putAll hrun hentries] at hx
      rcases List.mem_append.1 hx with hx | hx
    · exact (h.current x hx).trans hserial.symm
    · obtain ⟨e, -, rfl⟩ := List.mem_map.1 hx
      exact hserial.symm
    · exact h.taken (hn.trans hserial) x hx
    · obtain ⟨e, he, rfl⟩ := List.mem_map.1 hx
      exact hentries e he

/-- A queue that works is in a later epoch after a restart. -/
theorem restart (h : q.Past n) : q.restart.Past n := by
  cases hrun : q.aborted with
  | true =>
    rw [restart_of_aborted hrun]
    exact ⟨h.behind, nofun, fun _ => nofun⟩
  | false =>
    have hentries : q.restart.entries = [⟨.flush, q.restart.serial⟩] := by
      rw [restart_of_running hrun]
      rfl
    have hserial : q.restart.serial = q.serial + 1 := by
      rw [restart_of_running hrun]
      rfl
    have hbehind := h.behind
    refine ⟨by omega, fun x hx => ?_, fun hn => by omega⟩
    rw [hentries, List.mem_singleton] at hx
    rw [hx]

theorem fed (h : q.Past n) (restarts : Bool) (hentries : Unmarked entries) :
    (q.fed restarts entries).Past n := by
  cases restarts with
  | false => exact h.putAll hentries
  | true => exact h.restart.putAll hentries

theorem abort (h : q.Past n) : q.abort.Past n :=
  ⟨h.behind, h.current, h.taken⟩

end Past

end PacketQueue

/-- The stream of pictures is open, and something of the epoch `n` was decoded from its queue. -/
structure Flows.Past {S : Type} {host : Host S} (n : Nat) (fs : Flows host) : Prop where
  forced : fs.forced = false
  video : ∃ f, fs.video = some f ∧ f.packets.Past n

namespace Session

variable {S : Type} [Scalar S] {host : Host S} {s s' : Session host} {now : S}
  {d : DecodedFrame S DecodedPicture} {n : Nat}

/-! ## A picture in the hands of the loop -/

/-- The session when the decoder of the video loop has given out a picture, and the picture, at
which the loop has not looked yet. -/
def inHand (s : Session host) (now : S) : Option (Session host × DecodedFrame S DecodedPicture) :=
  match s.video with
  | some ⟨stream, decoder, .running⟩ =>
    let r := decoder.next host.video now stream.packets s.medium
    match r.result with
    | .frame d =>
      let p : Pipeline S host.VideoCodec DecodedPicture (VideoFrame S) :=
        ⟨{ stream with packets := r.queue }, r.decoder, .running⟩
      some ({ s.recordCodec .video r.calls with video := some p, medium := r.medium }, d)
    | _ => none
  | _ => none

theorem inHand_eq_some (h : s.inHand now = some (s', d)) :
    ∃ stream decoder, s.video = some ⟨stream, decoder, .running⟩ ∧
      let r := decoder.next host.video now stream.packets s.medium
      r.result = .frame d ∧
        s' = { s.recordCodec .video r.calls with
          video := some ⟨{ stream with packets := r.queue }, r.decoder, .running⟩
          medium := r.medium } := by
  unfold inHand at h
  split at h
  · rename_i stream decoder hvideo
    dsimp only at h
    split at h
    · rename_i hresult
      obtain ⟨rfl, rfl⟩ := Prod.mk.inj (Option.some.inj h)
      exact ⟨stream, decoder, hvideo, hresult, rfl⟩
    · cases h
  · cases h

/-- What the step of the loop makes of the picture, if nothing comes in between. -/
theorem videoStep_of_inHand (h : s.inHand now = some (s', d)) :
    ∃ p, s'.video = some p ∧
      s.videoStep now = ({ progress := .moved }, s'.receivePicture p d now) := by
  obtain ⟨stream, decoder, hvideo, hresult, rfl⟩ := inHand_eq_some h
  refine ⟨_, rfl, ?_⟩
  simp only [videoStep, hvideo, hresult]

/-- A picture is of the epoch that the queue is in when it is decoded. Its decoder has come to this
epoch, so it has left nothing of an earlier one in the queue. -/
theorem past_inHand {t : Recorded host} (hkept : t.Kept)
    (h : t.session.inHand now = some (s', d)) :
    s'.flows.Past d.serial ∧ ∀ p, s'.video = some p → d.serial = p.stream.packets.serial := by
  obtain ⟨stream, decoder, hvideo, hresult, rfl⟩ := inHand_eq_some h
  generalize hr : decoder.next host.video now stream.packets t.session.medium = r at hresult ⊢
  have hran := Decoder.ran_next host.video now decoder stream.packets t.session.medium
  rw [hr] at hran
  have hdecoder : r.decoder.serial = r.queue.serial := hran.serial_decoder hresult
  have hflow : t.session.flows.video =
      some ⟨stream.params, stream.packets, stream.frames, decoder, .running⟩ := by
    rw [flows, hvideo]
    rfl
  obtain ⟨-, hfollows, hqueue, -⟩ := (hkept.video _ hflow).decoded hr (by simp [hresult])
  have hcurrent : r.queue.Current r.queue.entries := by
    rcases hfollows.source with ⟨hlt, -⟩ | ⟨-, hcurrent, -⟩
    · omega
    · exact hcurrent
  have hframe : d.serial = r.queue.serial := (hran.serial_frame hresult).trans hqueue.symm
  refine ⟨⟨hkept.forced, _, rfl, hframe ▸ .of_current hcurrent⟩, ?_⟩
  rintro p ⟨⟩
  exact hframe

/-! ## Until the loop looks at it -/

/-- The action is neither one of the video loop nor one that ends it. -/
def Action.isBesideVideo : Action → Bool
  | .videoStep | .cycleStream .video | .close => false
  | _ => true

theorem past_perform (h : s.flows.Past n) (now : S) {action : Action}
    (hbeside : action.isBesideVideo = true) : (s.perform now action).flows.Past n := by
  obtain ⟨hforced, f, hf, hpast⟩ := h
  have hsame {s' : Session host} (hflows : s'.flows = s.flows) : s'.flows.Past n :=
    hflows ▸ ⟨hforced, f, hf, hpast⟩
  cases action with
  | videoStep | close => cases hbeside
  | readerTurn =>
    obtain ⟨video, audio, hunmarked, -, hflows⟩ := s.fed_readerTurn now
    rw [perform, hflows, Flows.fed, hf]
    exact ⟨hforced, _, rfl, hpast.fed _ hunmarked⟩
  | cycleStream kind =>
    cases kind with
    | video => cases hbeside
    | audio =>
      cases hswitch : s.switches .audio with
      | false =>
        rw [perform, cycleStream_of_stays hswitch]
        exact ⟨hforced, f, hf, hpast⟩
      | true =>
        obtain ⟨a, -, hflows⟩ := flows_cycleAudio hswitch now
        rw [perform, hflows]
        exact ⟨hforced, f, hf, hpast⟩
  | abort =>
    rw [perform, flows_abort, hf]
    exact ⟨hforced, _, rfl, hpast.abort⟩
  | audioStep | audioDecode =>
    obtain ⟨a, hflows, -⟩ := s.moves_audioTurn _ now
    exact ⟨(congrArg Flows.forced hflows).trans hforced, f, (congrArg Flows.video hflows).trans hf,
      hpast⟩
  | refresh =>
    obtain ⟨g, -, hflows⟩ := flows_refresh hforced now
    rw [perform, hflows, Flows.onPictures, hf]
    exact ⟨hforced, _, rfl, hpast⟩
  | fill count volume =>
    obtain ⟨g, -, hflows⟩ := s.flows_fill count volume now
    rw [perform, hflows]
    exact ⟨hforced, f, hf, hpast⟩
  | seek _ | seekChapter _ | nextChunk | previousChunk => exact hsame (flows_request rfl)
  | _ => exact hsame (by simp [perform])

theorem past_run (h : s.flows.Past n) {between : List (S × Action)}
    (hbetween : ∀ a ∈ between, a.2.isBesideVideo = true) : (s.run between).flows.Past n := by
  induction between generalizing s with
  | nil => exact h
  | cons a between ih =>
    exact ih (past_perform h a.1 (hbetween a List.mem_cons_self))
      fun x hx => hbetween x (List.mem_cons_of_mem a hx)

/-- A picture is dropped early only if something waits in the queue. -/
theorem waits_of_dropsEarly {v : Stream S (VideoFrame S)} (h : s.dropsEarly v d now = true) :
    v.packets.entries ≠ [] := by
  unfold dropsEarly at h
  dsimp only at h
  split at h
  · cases h
  · split at h
    · cases h
    · simp only [Bool.and_eq_true, decide_eq_true_eq] at h
      exact List.ne_nil_of_length_pos h.2

end Session

/-! ## Three pictures, two of them late -/

namespace LatePictures

open PictureScript in
/-- Three packets with one picture each. -/
def host : Host Rat :=
  Host.scripted (script 1 #[.row (row 0), .row (row 1), .row (row 2)] none) {}

/-- All packets are read, and the first picture is shown. -/
def shown : List (Rat × Session.Action) :=
  [(0, .start)] ++ List.replicate 3 (0, .readerTurn) ++ List.replicate 2 (0, .videoStep) ++
    [(9 / 200, .refresh)]

/-- The second picture comes too late, and the end of the source is read. -/
def dropped : List (Rat × Session.Action) :=
  shown ++ [(1, .videoStep), (1, .readerTurn)]

end LatePictures

/-! ## Every run -/

section

variable {S : Type} [Scalar S] {host : Host S} {uri : String} {options : Options S}
  {screen : host.Screen} {opened : S} {s s' : Session host} {d : DecodedFrame S DecodedPicture}

/-- The video loop decodes a picture of the current epoch of its queue and then looks whether to
drop it. Whatever the other workers do in between: if the picture is dropped early, something waits
in the queue, and a packet of its epoch does if and only if no later epoch has begun and not all
that waits are ends of the stream. -/
theorem early_drop_replaced (hopen : Session.open host uri options screen opened = .ok s)
    (before : List (S × Session.Action)) {now : S}
    (hpicture : (s.run before).inHand now = some (s', d)) (between : List (S × Session.Action))
    (hbetween : ∀ a ∈ between, a.2.isBesideVideo = true) (later : S) :
    (∃ p, s'.video = some p ∧ d.serial = p.stream.packets.serial ∧
      (s.run before).videoStep now =
        ({ progress := .moved }, s'.receivePicture p d now)) ∧
    ∃ p, (s'.run between).video = some p ∧
      ((s'.run between).dropsEarly p.stream d later = true →
        p.stream.packets.entries ≠ [] ∧
        (p.stream.packets.Supplies d.serial ↔
          d.serial = p.stream.packets.serial ∧
            ∃ e ∈ p.stream.packets.entries, e.entry ≠ .endOfStream)) := by
  obtain ⟨p, hp, hstep⟩ := Session.videoStep_of_inHand hpicture
  have hkept : ((Recorded.start s).run before).Kept := (Recorded.Kept.start hopen).run before
  have hsession : ((Recorded.start s).run before).session = s.run before :=
    Recorded.session_run _ before
  rw [← hsession] at hpicture
  obtain ⟨hpast, hserial⟩ := Session.past_inHand hkept hpicture
  obtain ⟨-, f, hf, hqueue⟩ := Session.past_run hpast hbetween
  obtain ⟨p', hp', rfl⟩ := Option.map_eq_some_iff.1 hf
  exact ⟨⟨p, hp, hserial p hp, hstep⟩, p', hp', fun hdrop =>
    ⟨Session.waits_of_dropsEarly hdrop, hqueue.supplies_iff⟩⟩

/-- The second picture is dropped while the third packet waits, with the end of the stream behind
it. -/
theorem early_drop_replaced_late :
    ∃ s, Session.open LatePictures.host "" {} (0 : Nat) 0 = .ok s ∧
      ∃ s' d, (s.run LatePictures.shown).inHand 1 = some (s', d) ∧
        ∃ p, (s'.run [(1, .readerTurn)]).video = some p ∧
          (s'.run [(1, .readerTurn)]).dropsEarly p.stream d 1 = true ∧
          p.stream.packets.Supplies d.serial := by
  have hopen : ∃ s, Session.open LatePictures.host "" {} (0 : Nat) 0 = .ok s ∧
      (((s.run LatePictures.shown).inHand 1).any fun x =>
        (x.1.run [(1, .readerTurn)]).video.any fun p =>
          (x.1.run [(1, .readerTurn)]).dropsEarly p.stream x.2 1 &&
            decide (x.2.serial = p.stream.packets.serial) &&
            p.stream.packets.entries.any (·.entry ≠ .endOfStream)) = true :=
    ⟨_, rfl, by decide +kernel⟩
  obtain ⟨s, hs, hany⟩ := hopen
  obtain ⟨⟨s', d⟩, hpicture, hany⟩ := (Option.any_eq_true _ _).1 hany
  obtain ⟨p, hp, hany⟩ := (Option.any_eq_true _ _).1 hany
  simp only [Bool.and_eq_true, decide_eq_true_eq, List.any_eq_true] at hany
  obtain ⟨⟨hearly, hserial⟩, hwaits⟩ := hany
  obtain ⟨-, p', hp', hdrop⟩ := early_drop_replaced hs LatePictures.shown hpicture
    [(1, .readerTurn)] (by simp [Session.Action.isBesideVideo]) 1
  obtain rfl : p = p' := Option.some.inj (hp.symm.trans hp')
  exact ⟨s, hs, s', d, hpicture, p, hp, hearly, (hdrop hearly).2.2 ⟨hserial, hwaits⟩⟩

/-- The third picture is dropped while nothing but the end of the stream waits. -/
theorem last_picture_dropped :
    ∃ s, Session.open LatePictures.host "" {} (0 : Nat) 0 = .ok s ∧
      ∃ s' d, (s.run LatePictures.dropped).inHand 1 = some (s', d) ∧ d.pos = some 1002 ∧
        ∃ p, s'.video = some p ∧ s'.dropsEarly p.stream d 1 = true ∧
          p.stream.packets.entries.map (·.entry) = [.endOfStream] ∧
          ¬ p.stream.packets.Supplies d.serial := by
  have hopen : ∃ s, Session.open LatePictures.host "" {} (0 : Nat) 0 = .ok s ∧
      (((s.run LatePictures.dropped).inHand 1).any fun x =>
        decide (x.2.pos = some 1002) && x.1.video.any fun p =>
          x.1.dropsEarly p.stream x.2 1 &&
            decide (p.stream.packets.entries.map (·.entry) = [.endOfStream])) = true :=
    ⟨_, rfl, by decide +kernel⟩
  obtain ⟨s, hs, hany⟩ := hopen
  obtain ⟨⟨s', d⟩, hpicture, hany⟩ := (Option.any_eq_true _ _).1 hany
  simp only [Bool.and_eq_true, decide_eq_true_eq] at hany
  obtain ⟨hpos, hany⟩ := hany
  obtain ⟨p, hp, hany⟩ := (Option.any_eq_true _ _).1 hany
  simp only [Bool.and_eq_true, decide_eq_true_eq] at hany
  obtain ⟨hearly, hends⟩ := hany
  refine ⟨s, hs, s', d, hpicture, hpos, p, hp, hearly, hends, ?_⟩
  rintro ⟨e, he, -, packet, hpacket⟩
  have hentry : e.entry ∈ [Entry.endOfStream] := hends ▸ List.mem_map_of_mem he
  rw [hpacket] at hentry
  simp at hentry

end

end Playback
