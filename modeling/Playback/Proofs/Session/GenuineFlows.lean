import Playback.Proofs.Decoding.Provenance
import Playback.Proofs.Session.LoopMoves

/-!
# Frames of the current epoch are genuine

A frame may wait in a ring, or with a decode loop that has no room for it, while the reader begins
a new epoch. What can be said of it is that it is `Genuine`: if it is of the current epoch, then it
shows a unit that the codec made from the packets of this epoch. A flow is genuine if all its frames
are, and its codec is supplied accordingly (`Flow.Genuine`). Every move of its decode loop, every
turn of the reader and every move of the consumer keeps it so.
-/

namespace Playback

variable {S M σ F α : Type} [Timed S α]

/-- A frame that, if it is of the current epoch `serial`, shows a unit made from the packets of
this epoch. -/
def Genuine (codec : Codec S M σ F) (c : σ) (shows : α → F → Prop) (packets : List Packet)
    (serial : Nat) (x : α) : Prop :=
  ∃ u, shows x u ∧ Vouched codec c packets serial (Timed.timing x).serial u

/-- A flow of which all frames are genuine, with a codec that was opened in the state `c`. -/
structure Flow.Genuine (codec : Codec S M σ F) (c : σ) (shows : α → F → Prop)
    (packets : List Packet) (f : Flow S σ F α) : Prop where
  supply : Supply codec c packets f.decoder f.packets
  held : ∀ x, f.worker = .holding x → Playback.Genuine codec c shows packets f.packets.serial x
  ring : f.frames.Carries (Playback.Genuine codec c shows packets f.packets.serial)

variable {codec : Codec S M σ F} {c : σ} {shows : α → F → Prop} {packets packets' : List Packet}
  {serial serial' : Nat} {x : α} {f f' : Flow S σ F α}

theorem Genuine.mono (h : Genuine codec c shows packets serial x)
    (hpackets : packets <+: packets') : Genuine codec c shows packets' serial x := by
  obtain ⟨u, hu, hvouched⟩ := h
  exact ⟨u, hu, hvouched.mono hpackets⟩

theorem Genuine.supersede (h : Genuine codec c shows packets serial x) (hlt : serial < serial') :
    Genuine codec c shows packets' serial' x := by
  obtain ⟨u, hu, hvouched⟩ := h
  exact ⟨u, hu, hvouched.supersede hlt⟩

namespace Flow.Genuine

theorem opened {opens : StreamParams → Except CodecFailure σ} (codec : Codec S M σ F)
    (shows : α → F → Prop) (h : f.Opened opens) :
    ∃ c, opens f.params = .ok c ∧ f.Genuine codec c shows [] := by
  obtain @⟨p, c, hopen, kind, fallback, ringSize, keepLast⟩ := h
  exact ⟨c, hopen, Supply.fresh codec kind c p.timeBase fallback, nofun,
    FrameRing.carries_new ringSize keepLast _⟩

/-! ### The consumer -/

theorem consume (h : f.Genuine codec c shows packets) {g : FrameRing α → FrameRing α}
    (hg : FrameRing.Consumes g) : (f.onFrames g).Genuine codec c shows packets :=
  ⟨h.supply, h.held, hg _ _ h.ring⟩

theorem abort (h : f.Genuine codec c shows packets) :
    Flow.Genuine codec c shows packets
      { f with packets := f.packets.abort, frames := f.frames.stop } :=
  ⟨h.supply.abort, h.held, h.ring.stop⟩

/-! ### The reader -/

theorem putAll (h : f.Genuine codec c shows packets) (hrun : f.packets.aborted = false)
    {entries : List Entry} (hentries : Unmarked entries) :
    (f.fed false entries).Genuine codec c shows (packets ++ packetsOf entries) := by
  have hserial : (f.packets.putAll entries).serial = f.packets.serial :=
    PacketQueue.serial_putAll f.packets hentries
  refine ⟨h.supply.putAll hrun hentries, fun x hx => ?_, ?_⟩
  · have hgenuine := (h.held x hx).mono (List.prefix_append packets (packetsOf entries))
    rw [← hserial] at hgenuine
    exact hgenuine
  · refine h.ring.mono fun x hx => ?_
    have hgenuine := hx.mono (List.prefix_append packets (packetsOf entries))
    rw [← hserial] at hgenuine
    exact hgenuine

theorem restart (h : f.Genuine codec c shows packets) (hrun : f.packets.aborted = false) :
    (f.fed true []).Genuine codec c shows [] := by
  have hlt : f.packets.serial < f.packets.restart.serial := by
    rw [PacketQueue.restart_of_running hrun]
    exact Nat.lt_succ_self _
  exact ⟨h.supply.restart hrun, fun x hx => (h.held x hx).supersede hlt,
    h.ring.mono fun x hx => hx.supersede hlt⟩

/-- An aborted queue takes nothing any more, though it may be cleared. -/
theorem fed_of_aborted (h : f.Genuine codec c shows packets) (haborted : f.packets.aborted = true)
    (restarts : Bool) (entries : List Entry) :
    (f.fed restarts entries).Genuine codec c shows packets := by
  rw [Flow.fed, PacketQueue.fed_of_aborted haborted]
  cases restarts with
  | false => exact h
  | true => exact ⟨h.supply.clear_of_aborted haborted, h.held, h.ring⟩

/-! ### The decode loop -/

variable [Scalar S] [CodecUnit F] {make : DecodedFrame S F → α}

/-- What a decode loop makes of a unit shows that unit, and has its epoch. -/
def Faithful (make : DecodedFrame S F → α) (shows : α → F → Prop) : Prop :=
  ∀ d : DecodedFrame S F, d.pos = CodecUnit.pos d.content →
    shows (make d) d.content ∧ (Timed.timing (make d)).serial = d.serial

theorem decoded (h : f.Genuine codec c shows packets) (hforget : codec.Forgetful c) {now : S}
    {m : M} {r : Decoder.Run S M σ F} (hr : f.decoder.next codec now f.packets m = r) :
    (f.decoded r).Genuine codec c shows packets ∧ r.queue.aborted = f.packets.aborted := by
  obtain ⟨front, htakes⟩ := Decoder.takes_next codec now f.decoder f.packets m
  obtain ⟨hsupply, -⟩ := h.supply.next hforget now m
  rw [hr] at htakes hsupply
  refine ⟨⟨hsupply, fun x hx => ?_, ?_⟩, htakes.aborted⟩
  · have hheld := h.held x hx
    rw [← htakes.serial] at hheld
    exact hheld
  · have hring := h.ring
    rw [← htakes.serial] at hring
    exact hring

/-- A frame that the decoder gives out is genuine, and so is the decoder with that frame. -/
theorem given (h : f.Genuine codec c shows packets) (hforget : codec.Forgetful c)
    (hmake : Faithful make shows) {now : S} {m : M} {r : Decoder.Run S M σ F}
    {d : DecodedFrame S F} (hr : f.decoder.next codec now f.packets m = r)
    (hresult : r.result = .frame d) :
    Supply codec c packets r.before r.queue ∧
      Playback.Genuine codec c shows packets r.queue.serial (make d) := by
  obtain ⟨-, hgiven⟩ := h.supply.next hforget now m
  rw [hr] at hgiven
  obtain ⟨hbefore, hserial, hpos, hmade⟩ := hgiven d hresult
  obtain ⟨hshows, htiming⟩ := hmake d hpos
  refine ⟨hbefore, d.content, hshows, ?_, fun _ => hmade⟩
  rw [htiming, hserial]

theorem moves (h : f.Genuine codec c shows packets) (hforget : codec.Forgetful c)
    (hmake : Faithful make shows) {refuses : Prop}
    (hmove : Flow.Moves codec make refuses (some f) (some f')) :
    f'.Genuine codec c shows packets ∧ f'.params = f.params ∧
      (f'.packets.aborted = f.packets.aborted ∨ f'.packets.aborted = true ∧ refuses) := by
  cases hmove with
  | waits => exact ⟨h, rfl, .inl rfl⟩
  | ends => exact ⟨⟨h.supply, nofun, h.ring⟩, rfl, .inl rfl⟩
  | publishes hworker hpush =>
    exact ⟨⟨h.supply, nofun, h.ring.push (h.held _ hworker) hpush⟩, rfl, .inl rfl⟩
  | decodes hr _ _ =>
    obtain ⟨hdecoded, haborted⟩ := h.decoded hforget hr
    exact ⟨hdecoded, rfl, .inl haborted⟩
  | endsAfter hr _ =>
    obtain ⟨hdecoded, haborted⟩ := h.decoded hforget hr
    exact ⟨⟨hdecoded.supply, nofun, hdecoded.ring⟩, rfl, .inl haborted⟩
  | takes hr hresult =>
    obtain ⟨hdecoded, haborted⟩ := h.decoded hforget hr
    obtain ⟨-, hgenuine⟩ := h.given hforget hmake hr hresult
    refine ⟨⟨hdecoded.supply, fun x hx => ?_, hdecoded.ring⟩, rfl, .inl haborted⟩
    rw [← Worker.holding.inj hx]
    exact hgenuine
  | refused hr _ hrefuses =>
    obtain ⟨hdecoded, -⟩ := h.decoded hforget hr
    exact ⟨⟨hdecoded.supply.abort, nofun, hdecoded.ring.stop⟩, rfl, .inr ⟨rfl, hrefuses⟩⟩
  | leaves hr hresult _ =>
    obtain ⟨hdecoded, haborted⟩ := h.decoded hforget hr
    obtain ⟨hbefore, -⟩ := h.given hforget hmake hr hresult
    exact ⟨⟨hbefore, hdecoded.held, hdecoded.ring⟩, rfl, .inl haborted⟩

end Flow.Genuine

end Playback
