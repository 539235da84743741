import Playback.Proofs.Session.Traces
import Playback.Scalar.Exact
import Playback.Session.Simulation

/-!
# The seek barrier

Whatever is shown or converted is of the current epoch of its stream, and was made by the codec from
nothing but packets that the reader put after the marker of this epoch (`seek_barrier`).

This is the marker of the last seek that succeeded, unless the presentation has refused a buffer for
a picture: the stream of that picture stays open, but its queue takes no marker any more, and the
pictures that were already in its ring are still shown (`stale_picture_after_seek`).
-/

namespace Playback

/-! ## The barrier -/

variable {S M σ F α : Type} [Timed S α]

/-- What is known of a frame that leaves a stream with the queue `q`. It is of the epoch of `q`, and
it shows a unit that the codec made from packets put there since the marker of this epoch. All these
packets were put after the last seek that succeeded, unless the queue has refused a marker. -/
structure Barrier (codec : Codec S M σ F) (opens : StreamParams → Except CodecFailure σ)
    (shows : α → F → Prop) (refuses : Prop) (seeks : Nat) (i : Intake) (params : StreamParams)
    (q : PacketQueue) (x : α) : Prop where
  current : (Timed.timing x).serial = q.serial
  made : ∃ c u, opens params = .ok c ∧ codec.Made c i.put u ∧ shows x u
  latest : i.refused = 0 → ∀ p ∈ i.packets, p.1 = seeks
  earlier : 0 < i.refused → refuses ∧ q.aborted = true ∧ ∀ p ∈ i.packets, p.1 < seeks

theorem Tracked.barrier {codec : Codec S M σ F} {opens : StreamParams → Except CodecFailure σ}
    {shows : α → F → Prop} {refuses : Prop} {aborted : Bool} {seeks : Nat} {i : Intake}
    {f : Flow S σ F α} {c : σ} {x : α} (h : Tracked codec opens shows refuses aborted seeks i f)
    (hopen : opens f.params = .ok c) (hserial : (Timed.timing x).serial = f.packets.serial)
    (hgenuine : Genuine codec c shows i.put f.packets.serial x) :
    Barrier codec opens shows refuses seeks i f.params f.packets x := by
  obtain ⟨hmarked, htotal, haborted⟩ := h.fits
  obtain ⟨u, hshows, hvouched⟩ := hgenuine
  refine ⟨hserial, ⟨c, u, hopen, hvouched.made hserial, hshows⟩, fun hnone p hp => ?_,
    fun hpos => ⟨h.refused hpos, haborted hpos, fun p hp => ?_⟩⟩
  · have hmarker := hmarked p hp
    omega
  · have hmarker := hmarked p hp
    omega

/-! ## A host that refuses a buffer -/

/-- The codec of a script is the same after each flush. -/
theorem Script.forgetful_codec {S M F : Type} (rows : Array ScriptRow) (units : ScriptRow → List F)
    (drainFails : Option String) (c : List F) :
    (Script.codec rows units drainFails : Codec S M (List F) F).Forgetful c := by
  refine Codec.forgetful_of_flush (fun _ _ => rfl) (fun e held now now' m m' => ?_) c
  cases e with
  | flush => exact ⟨rfl, rfl⟩
  | endOfStream =>
    unfold Codec.answer Script.codec
    cases drainFails <;> exact ⟨rfl, rfl⟩
  | data packet =>
    unfold Codec.answer Script.codec
    dsimp only
    split
    · exact ⟨rfl, rfl⟩
    · split
      · exact ⟨rfl, rfl⟩
      · split <;> exact ⟨rfl, rfl⟩

theorem Host.forgetful_scripted {S : Type} [Scalar S] (s : Script S) (p : Presentation) :
    (∀ c, (Host.scripted s p).video.Forgetful c) ∧ ∀ c, (Host.scripted s p).audio.Forgetful c :=
  ⟨Script.forgetful_codec s.rows (·.pictures) s.videoDrainFails,
    Script.forgetful_codec s.rows (·.blocks) s.audioDrainFails⟩

namespace RefusedBuffer

/-- A packet with one picture. -/
def row (n : Nat) : ScriptRow where
  packet := { (default : Packet) with data := ScriptRow.numberBytes n, pos := some (1000 + n) }
  pictures := [{ (default : DecodedPicture) with pts := some n, pos := some (1000 + n) }]
  blocks := []
  hold := false
  fail := none

/-- A video stream with two pictures. -/
def script : Script Rat where
  info :=
    { streams := [.video 0 ⟨1, 25⟩ 8 4 ⟨25, 1⟩]
      chapters := []
      bitRate := none
      startTime := none
      duration := none
      realtime := false
      jumping := false }
  lines := #[.row (row 0), .row (row 1)]
  attached := none
  seekTo := []
  seekFailsAt := none
  videoOpenFails := none
  audioOpenFails := none
  videoDrainFails := none
  audioDrainFails := none

/-- The presentation takes the first picture and refuses the second one. -/
def host : Host Rat :=
  Host.scripted script { refused := some 1 }

/-- Both packets are read and decoded, and then a seek succeeds. -/
def actions : List (Rat × Session.Action) :=
  [(0, .start), (0, .readerTurn), (0, .readerTurn), (0, .videoStep), (0, .videoStep),
    (0, .videoStep), (0, .seek 400), (0, .readerTurn)]

end RefusedBuffer

/-! ## Every run -/

/-- A picture that a refresh accepts is of the current epoch, and so is every block of sound that a
fill converts, whatever the session did since it was opened. Both were made from nothing but packets
that the reader put after the marker of this epoch. For sound, this is the marker of the last seek
that succeeded. For pictures it may be that of an earlier one if the host refuses buffers. -/
theorem seek_barrier {S : Type} [Scalar S] {host : Host S} {uri : String} {options : Options S}
    {screen : host.Screen} {opened : S} {s : Session host}
    (hopen : Session.open host uri options screen opened = .ok s)
    (hvideo : ∀ p c, host.openVideo p = .ok c → host.video.Forgetful c)
    (haudio : ∀ p c, host.openAudio p = .ok c → host.audio.Forgetful c)
    (actions : List (S × Session.Action)) (now : S) :
    let t := (Traced.start s).run actions
    t.session = s.run actions ∧
    (∀ f, t.session.accepted now = some f → ∃ v, t.session.videoStream = some v ∧
      Barrier host.video host.openVideo VideoFrame.Shows host.Refuses t.seeks t.video
        v.params v.packets f) ∧
    ∀ count, ∀ f ∈ t.session.converted count now, ∃ a, t.session.audioStream = some a ∧
      Barrier host.audio host.openAudio AudioFrame.Shows False t.seeks t.audio
        a.params a.packets f := by
  intro t
  have hkept : t.Kept :=
    (Traced.Kept.start (Session.justOpened_open hopen)).run hvideo haudio actions
  obtain ⟨hforced, hpictures, hsound⟩ := hkept
  refine ⟨Traced.session_run _ actions, ?_, ?_⟩
  · intro f hf
    obtain ⟨v, hv, hserial, v', c, hv', hc, hgenuine⟩ := Session.accepted_spec
      (P := fun f => ∃ v c, t.session.flows.video = some v ∧ host.openVideo v.params = .ok c ∧
        Genuine host.video c VideoFrame.Shows t.video.put v.packets.serial f)
      hforced (fun v hv => by
        obtain ⟨c, hc, hgenuine⟩ := (hpictures v hv).genuine
        exact hgenuine.ring.mono fun f hf => ⟨v, c, hv, hc, hf⟩) hf
    obtain rfl : v = v' := Option.some.inj (hv.symm.trans hv')
    obtain ⟨p, hp, rfl⟩ := Option.map_eq_some_iff.1 hv
    refine ⟨p.stream, ?_, (hpictures p.flow hv).barrier hc hserial hgenuine⟩
    rw [Session.videoStream, hp]
    rfl
  · intro count f hf
    obtain ⟨a, ha, hserial, a', c, ha', hc, hgenuine⟩ := Session.converted_spec
      (P := fun f => ∃ a c, t.session.flows.audio = some a ∧ host.openAudio a.params = .ok c ∧
        Genuine host.audio c AudioFrame.Shows t.audio.put a.packets.serial f)
      (fun a ha => by
        obtain ⟨c, hc, hgenuine⟩ := (hsound a ha).genuine
        exact hgenuine.ring.mono fun f hf => ⟨a, c, ha, hc, hf⟩) f hf
    obtain rfl : a = a' := Option.some.inj (ha.symm.trans ha')
    obtain ⟨p, hp, rfl⟩ := Option.map_eq_some_iff.1 ha
    refine ⟨p.stream, ?_, (hsound p.flow ha).barrier hc hserial hgenuine⟩
    rw [Session.audioStream, hp]
    rfl

/-- The barrier around a seek whose marker the queue of pictures refuses. -/
theorem seek_barrier_refused :
    (∀ c, RefusedBuffer.host.video.Forgetful c) ∧ (∀ c, RefusedBuffer.host.audio.Forgetful c) ∧
    ∃ s, Session.open RefusedBuffer.host "" {} (0 : Nat) 0 = .ok s ∧
      let t := (Traced.start s).run RefusedBuffer.actions
      ∃ f v, t.session.accepted (9 / 200) = some f ∧ t.session.videoStream = some v ∧
        Barrier RefusedBuffer.host.video RefusedBuffer.host.openVideo VideoFrame.Shows
          RefusedBuffer.host.Refuses t.seeks t.video v.params v.packets f := by
  have hopen : ∃ s, Session.open RefusedBuffer.host "" {} (0 : Nat) 0 = .ok s ∧
      (((Traced.start s).run RefusedBuffer.actions).session.accepted (9 / 200)).isSome = true :=
    ⟨_, rfl, by decide +kernel⟩
  obtain ⟨s, hs, haccepts⟩ := hopen
  obtain ⟨f, hf⟩ := Option.isSome_iff_exists.1 haccepts
  obtain ⟨hvideo, haudio⟩ := Host.forgetful_scripted RefusedBuffer.script { refused := some 1 }
  obtain ⟨-, hpictures, -⟩ := seek_barrier hs (fun _ c _ => hvideo c) (fun _ c _ => haudio c)
    RefusedBuffer.actions (9 / 200)
  obtain ⟨v, hv, hbarrier⟩ := hpictures f hf
  exact ⟨hvideo, haudio, s, hs, f, v, hf, hv, hbarrier⟩

/-- A picture is accepted after a seek that has succeeded, though the reader has put nothing into
the queue of pictures since then. -/
theorem stale_picture_after_seek :
    ∃ s, Session.open RefusedBuffer.host "" {} (0 : Nat) 0 = .ok s ∧
      let t := (Traced.start s).run RefusedBuffer.actions
      t.seeks = 1 ∧ (t.session.accepted (9 / 200)).map (·.pos) = some (some 1000) ∧
        ∀ p ∈ t.video.packets, p.1 = 0 := by
  refine ⟨_, rfl, ?_⟩
  decide +kernel

end Playback
