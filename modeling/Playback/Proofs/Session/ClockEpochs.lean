import Playback.Proofs.Session.PausedSession
import Playback.Proofs.Session.SeekBarrier

/-!
# The epochs of the stream clocks

The clock of a stream speaks for the epoch of its packet queue. Whenever it reads a value, it was
set by a frame of this epoch and has only been paused and resumed since then: by a picture that was
accepted or passed over, or by a block of sound that the device has converted
(`stream_clocks_epoch`). The frame was presented after the last seek that succeeded, unless the
presentation has refused a buffer for a picture: the queue of that picture's stream takes no marker
any more, and the clock of the stream speaks on (`stale_clock_after_seek`).

A session is followed together with the frames that were presented since its streams were opened
(`Presented`).
-/

namespace Playback

open FrameRing

section

variable {S : Type} [Scalar S]

/-! ## One clock -/

/-- The clock was set to `pts` in the epoch `serial`, and has only been paused and resumed since
then. -/
inductive Clock.SetTo (pts : S) (serial : Nat) : Clock S → Prop
  | set (k : Clock S) (time : S) : SetTo pts serial (k.setAt pts serial time)
  | pause {k : Clock S} (h : SetTo pts serial k) (paused : Bool) (time : S) :
      SetTo pts serial (k.setPaused paused time)

/-- The clock is of no later epoch than `epoch`. If it is of this one, it was set to a time that is
known for it, or it is silent. -/
structure Clock.Speaks (known : S → Prop) (epoch : Nat) (k : Clock S) : Prop where
  le : k.serial ≤ epoch
  anchored : k.serial = epoch → k.base = none ∨ ∃ pts, known pts ∧ k.SetTo pts epoch

namespace Clock

variable {known known' : S → Prop} {epoch epoch' : Nat} {k k' : Clock S}

theorem serial_setPaused (k : Clock S) (paused : Bool) (time : S) :
    (k.setPaused paused time).serial = k.serial := by
  have hanchor : (k.anchor time).serial = k.serial := by
    unfold anchor
    split <;> rfl
  unfold setPaused
  split_ifs
  · rfl
  · exact hanchor
  · rfl

theorem base_setPaused (h : k.base = none) (paused : Bool) (time : S) :
    (k.setPaused paused time).base = none := by
  have hanchor : k.anchor time = k := by
    unfold anchor valueAt
    rw [h]
    rfl
  unfold setPaused
  split_ifs
  · exact h
  · rw [hanchor]
    exact h
  · exact h

namespace Speaks

theorem new (known : S → Prop) (epoch : Nat) (now : S) : (Clock.new now).Speaks known epoch :=
  ⟨Nat.zero_le _, fun _ => .inl rfl⟩

theorem mono (h : k.Speaks known epoch) (hknown : ∀ pts, known pts → known' pts) :
    k.Speaks known' epoch := by
  refine ⟨h.le, fun hserial => ?_⟩
  rcases h.anchored hserial with hnone | ⟨pts, hpts, hset⟩
  · exact .inl hnone
  · exact .inr ⟨pts, hknown pts hpts, hset⟩

/-- A later epoch has begun. -/
theorem supersede (h : k.Speaks known epoch) (hlt : epoch < epoch') : k.Speaks known' epoch' :=
  ⟨h.le.trans hlt.le, fun hserial => absurd hserial (h.le.trans_lt hlt).ne⟩

theorem set {pts : S} {serial : Nat} (hle : serial ≤ epoch) (hpts : serial = epoch → known pts)
    (k : Clock S) (time : S) : (k.setAt pts serial time).Speaks known epoch := by
  refine ⟨hle, fun (hserial : serial = epoch) => .inr ⟨pts, hpts hserial, ?_⟩⟩
  rw [← hserial]
  exact .set k time

theorem pause (h : k.Speaks known epoch) (paused : Bool) (time : S) :
    (k.setPaused paused time).Speaks known epoch := by
  refine ⟨k.serial_setPaused paused time ▸ h.le, fun hserial => ?_⟩
  rw [k.serial_setPaused] at hserial
  rcases h.anchored hserial with hnone | ⟨pts, hpts, hset⟩
  · exact .inl (base_setPaused hnone paused time)
  · exact .inr ⟨pts, hpts, .pause hset paused time⟩

theorem driven {sets : S → Nat → Prop} (h : k.Speaks known epoch) (hdriven : k.Driven sets k')
    (hsets : ∀ pts serial, sets pts serial → serial = epoch ∧ known pts) :
    k'.Speaks known epoch := by
  induction hdriven with
  | refl => exact h
  | set _ hset time =>
    obtain ⟨hserial, hpts⟩ := hsets _ _ hset
    exact .set hserial.le (fun _ => hpts) _ time
  | pause _ paused time ih => exact ih.pause paused time

theorem of_read (h : k.Speaks known epoch) {now value : S}
    (hread : k.read (some epoch) now = some value) : ∃ pts, known pts ∧ k.SetTo pts epoch := by
  unfold read at hread
  split at hread
  · rename_i hcurrent
    rcases h.anchored (of_decide_eq_true hcurrent) with hnone | hset
    · rw [valueAt, hnone] at hread
      cases hread
    · exact hset
  · cases hread

end Speaks

end Clock

end

/-! ## The device's side -/

section

variable {S : Type}

/-- What the device's side remembers is of no later epoch than `epoch`. If it is of this one, it is
an end of a block that is known for it. -/
structure AudioOutput.Speaks (known : S → Prop) (epoch : Nat) (out : AudioOutput S) : Prop where
  le : out.clockSerial ≤ epoch
  ended : out.clockSerial = epoch → ∀ stop, out.clock = some stop → known stop

namespace AudioOutput.Speaks

variable {known known' : S → Prop} {epoch epoch' : Nat} {out out' : AudioOutput S}

theorem new [Scalar S] (known : S → Prop) (epoch : Nat) (spec : OutputSpec) :
    (AudioOutput.new spec).Speaks known epoch :=
  ⟨Nat.zero_le _, fun _ => nofun⟩

theorem mono (h : out.Speaks known epoch) (hknown : ∀ stop, known stop → known' stop) :
    out.Speaks known' epoch :=
  ⟨h.le, fun hserial stop hstop => hknown stop (h.ended hserial stop hstop)⟩

theorem supersede (h : out.Speaks known epoch) (hlt : epoch < epoch') : out.Speaks known' epoch' :=
  ⟨h.le.trans hlt.le, fun hserial => absurd hserial (h.le.trans_lt hlt).ne⟩

theorem plays [Scalar S] {fs : List (AudioFrame S)} (h : out.Speaks known epoch)
    (hplays : out.Plays fs out')
    (hfs : ∀ f ∈ fs, f.serial = epoch ∧ ∀ stop, f.stop? = some stop → known stop) :
    out'.Speaks known epoch := by
  obtain ⟨-, hclock, hserial⟩ := hplays
  cases hlast : fs.getLast? with
  | none =>
    rw [hlast] at hclock hserial
    exact ⟨hserial.le.trans h.le, fun heq stop hstop =>
      h.ended (hserial.symm.trans heq) stop (hclock.symm.trans hstop)⟩
  | some f =>
    rw [hlast] at hclock hserial
    obtain ⟨hcurrent, hknown⟩ := hfs f (List.mem_of_getLast? hlast)
    exact ⟨(hserial.trans hcurrent).le, fun _ stop hstop => hknown stop (hclock.symm.trans hstop)⟩

end AudioOutput.Speaks

end

/-! ## Frames that were presented -/

/-- What happens to a queue while the number of seeks that have succeeded goes from `seeks` to
another one. -/
inductive PacketQueue.Steps (refuses : Prop) (q q' : PacketQueue) (seeks : Nat) : Nat → Prop
  | same (hserial : q'.serial = q.serial) (haborted : q.aborted = true → q'.aborted = true) :
      Steps refuses q q' seeks seeks
  | begins (hlt : q.serial < q'.serial) : Steps refuses q q' seeks (seeks + 1)
  /-- The queue takes no marker. -/
  | refused (hserial : q'.serial = q.serial) (haborted : q'.aborted = true) (hrefuses : refuses) :
      Steps refuses q q' seeks (seeks + 1)

theorem PacketQueue.steps_fed (q : PacketQueue) {refuses : Prop} (seeks : Nat)
    {entries : List Entry} (hentries : Unmarked entries) :
    q.Steps refuses (q.fed false entries) seeks seeks :=
  .same (q.serial_putAll hentries) (q.aborted_fed false entries).trans

theorem PacketQueue.steps_sought (q : PacketQueue) {refuses : Prop} (seeks : Nat)
    {entries : List Entry} (hentries : Unmarked entries) (hrefuses : q.aborted = true → refuses) :
    q.Steps refuses (q.fed true entries) seeks (seeks + 1) := by
  cases haborted : q.aborted with
  | true =>
    exact .refused (PacketQueue.new_of_aborted haborted true entries).1
      ((q.aborted_fed true entries).trans haborted) (hrefuses haborted)
  | false =>
    refine .begins ?_
    rw [(PacketQueue.new_of_restarted haborted hentries).1]
    exact Nat.lt_succ_self _

section

variable {S α : Type} [Timed S α]

/-- A frame with the time `t` was presented whose epoch is that of the queue `q`. It was presented
after the last of `seeks` seeks, unless a buffer was refused for a picture of the stream. The number
with each frame tells how many seeks had succeeded when it was presented. -/
def Presents (time : α → Option S) (refuses : Prop) (seeks : Nat) (shown : List (Nat × α))
    (q : PacketQueue) (t : S) : Prop :=
  ∃ x ∈ shown, (Timed.timing x.2).serial = q.serial ∧ time x.2 = some t ∧
    (x.1 = seeks ∨ q.aborted = true ∧ refuses)

variable {time : α → Option S} {refuses : Prop} {seeks seeks' : Nat} {shown : List (Nat × α)}
  {q q' : PacketQueue} {t : S}

theorem Presents.append (h : Presents time refuses seeks shown q t) (shown' : List (Nat × α)) :
    Presents time refuses seeks (shown ++ shown') q t := by
  obtain ⟨x, hx, hpresented⟩ := h
  exact ⟨x, List.mem_append_left _ hx, hpresented⟩

theorem Presents.last {frames : List α} {f : α} (hf : f ∈ frames)
    (hserial : (Timed.timing f).serial = q.serial) (htime : time f = some t) :
    Presents time refuses seeks (shown ++ frames.map fun f => (seeks, f)) q t :=
  ⟨(seeks, f), List.mem_append_right _ (List.mem_map_of_mem hf), hserial, htime, .inl rfl⟩

/-- A new epoch has begun, or what was presented still counts. -/
theorem PacketQueue.Steps.presents (h : q.Steps refuses q' seeks seeks') (time : α → Option S)
    (shown : List (Nat × α)) : q.serial < q'.serial ∨ q'.serial = q.serial ∧
      ∀ t, Presents time refuses seeks shown q t → Presents time refuses seeks' shown q' t := by
  cases h with
  | same hserial haborted =>
    refine .inr ⟨hserial, ?_⟩
    rintro t ⟨x, hx, hcurrent, htime, hseeks⟩
    exact ⟨x, hx, hcurrent.trans hserial.symm, htime, hseeks.imp id (.imp haborted id)⟩
  | begins hlt => exact .inl hlt
  | refused hserial haborted hrefuses =>
    refine .inr ⟨hserial, ?_⟩
    rintro t ⟨x, hx, hcurrent, htime, -⟩
    exact ⟨x, hx, hcurrent.trans hserial.symm, htime, .inr ⟨haborted, hrefuses⟩⟩

end

/-! ## The clock of a stream -/

section

variable {S : Type} [Scalar S] {refuses : Prop} {aborted aborted' : Bool} {seeks seeks' : Nat}
  {q q' : PacketQueue} {k k' : Clock S}

/-- The clock of a stream of pictures with the queue `q`. `aborted` tells whether the session is to
end. -/
structure PictureClock (refuses : Prop) (aborted : Bool) (seeks : Nat)
    (pictures : List (Nat × VideoFrame S)) (q : PacketQueue) (k : Clock S) : Prop where
  stopped : q.aborted = true → aborted = true ∨ refuses
  speaks : k.Speaks (Presents (·.pts) refuses seeks pictures q) q.serial

namespace PictureClock

variable {pictures : List (Nat × VideoFrame S)}

theorem opened (refuses : Prop) (aborted : Bool) (seeks : Nat) (now : S) :
    PictureClock refuses aborted seeks [] PacketQueue.new.start (.new now) :=
  ⟨nofun, .new _ _ now⟩

theorem step (h : PictureClock refuses aborted seeks pictures q k)
    (hstep : q.Steps refuses q' seeks seeks') (hstopped : q'.aborted = true → aborted' = true ∨
      refuses) : PictureClock refuses aborted' seeks' pictures q' k := by
  refine ⟨hstopped, ?_⟩
  rcases hstep.presents (fun f : VideoFrame S => f.pts) pictures with hlt | ⟨hserial, hknown⟩
  · exact h.speaks.supersede hlt
  · rw [hserial]
    exact h.speaks.mono hknown

theorem pause (h : PictureClock refuses aborted seeks pictures q k) (paused : Bool) (time : S) :
    PictureClock refuses aborted seeks pictures q (k.setPaused paused time) :=
  ⟨h.stopped, h.speaks.pause paused time⟩

end PictureClock

/-- The times that a device with the format `spec` hears, if `known` tells when the blocks end. -/
def Heard (spec : OutputSpec) (known : S → Prop) (pts : S) : Prop :=
  ∃ (stop : S) (out : AudioOutput S), known stop ∧ out.spec = spec ∧ pts = stop - out.latency

/-- The clock of a stream of sound with the queue `q`, and the device's side. -/
structure SoundClock (aborted : Bool) (seeks : Nat) (sound : List (Nat × AudioFrame S))
    (q : PacketQueue) (out : AudioOutput S) (k : Clock S) : Prop where
  stopped : q.aborted = true → aborted = true
  ends : out.Speaks (Presents AudioFrame.stop? False seeks sound q) q.serial
  speaks : k.Speaks (Heard out.spec (Presents AudioFrame.stop? False seeks sound q)) q.serial

namespace SoundClock

variable {sound : List (Nat × AudioFrame S)} {out out' : AudioOutput S}

theorem opened (aborted : Bool) (seeks : Nat) (spec : OutputSpec) (now : S) :
    SoundClock aborted seeks [] PacketQueue.new.start (.new spec) (.new now) :=
  ⟨nofun, .new _ _ spec, .new _ _ now⟩

theorem step (h : SoundClock aborted seeks sound q out k)
    (hstep : q.Steps False q' seeks seeks') (hstopped : q'.aborted = true → aborted' = true) :
    SoundClock aborted' seeks' sound q' out k := by
  rcases hstep.presents AudioFrame.stop? sound with hlt | ⟨hserial, hknown⟩
  · exact ⟨hstopped, h.ends.supersede hlt, h.speaks.supersede hlt⟩
  · refine ⟨hstopped, ?_, ?_⟩
    all_goals rw [hserial]
    · exact h.ends.mono hknown
    · refine h.speaks.mono ?_
      rintro pts ⟨stop, out', hstop, hspec, hpts⟩
      exact ⟨stop, out', hknown stop hstop, hspec, hpts⟩

theorem pause (h : SoundClock aborted seeks sound q out k) (paused : Bool) (time : S) :
    SoundClock aborted seeks sound q out (k.setPaused paused time) :=
  ⟨h.stopped, h.ends, h.speaks.pause paused time⟩

/-- The device has played on, and has converted the blocks `fs`. -/
theorem plays (h : SoundClock aborted seeks sound q out k) {fs : List (AudioFrame S)}
    (hplays : out.Plays fs out') (hfs : ∀ f ∈ fs, f.serial = q.serial) :
    SoundClock aborted seeks (sound ++ fs.map fun f => (seeks, f)) q out' k := by
  refine ⟨h.stopped, ?_, ?_⟩
  · refine (h.ends.mono fun stop hstop => hstop.append _).plays hplays fun f hf => ?_
    exact ⟨hfs f hf, fun stop hstop => .last hf (hfs f hf) hstop⟩
  · rw [hplays.spec]
    refine h.speaks.mono ?_
    rintro pts ⟨stop, out', hstop, hspec, hpts⟩
    exact ⟨stop, out', hstop.append _, hspec, hpts⟩

/-- The clock is set to what is heard. -/
theorem hear (h : SoundClock aborted seeks sound q out k) (now : S) :
    SoundClock aborted seeks sound q out
      (out.clock.elim k fun stop => k.setAt (stop - out.latency) out.clockSerial now) := by
  cases hclock : out.clock with
  | none => exact h
  | some stop =>
    refine ⟨h.stopped, h.ends, .set h.ends.le (fun hserial => ?_) k now⟩
    exact ⟨stop, out, h.ends.ended hserial stop hclock, rfl, rfl⟩

end SoundClock

end

/-! ## The clocks of a session -/

/-- The clocks of the open streams speak for what was presented. The number with each frame tells
how many seeks had succeeded before it. -/
structure Flows.Voiced {S : Type} [Scalar S] {host : Host S} (fs : Flows host) (c : Clocks S)
    (seeks : Nat) (pictures : List (Nat × VideoFrame S)) (sound : List (Nat × AudioFrame S)) :
    Prop where
  video : ∀ f k, fs.video = some f → c.video = some k →
    PictureClock host.Refuses fs.aborted seeks pictures f.packets k
  audio : ∀ f k, fs.audio = some f → c.audio = some k →
    ∃ out, c.output = some out ∧ SoundClock fs.aborted seeks sound f.packets out k

/-- The pictures that are not thrown away. -/
def timely {S : Type} (taken : List (VideoFrame S × Fate)) : List (VideoFrame S) :=
  (taken.filter (·.2 ≠ .stale)).map (·.1)

theorem mem_timely {S : Type} {taken : List (VideoFrame S × Fate)} {x : VideoFrame S × Fate}
    (hx : x ∈ taken) (hfate : x.2 ≠ .stale) : x.1 ∈ timely taken :=
  List.mem_map_of_mem (List.mem_filter.2 ⟨hx, decide_eq_true hfate⟩)

theorem Passed.serial_eq {S : Type} {serial : Nat} {r : FrameRing (VideoFrame S)}
    {taken : List (VideoFrame S × Fate)} (h : Passed serial r taken) :
    ∀ x ∈ taken, x.2 ≠ .stale → x.1.serial = serial := by
  induction h with
  | nothing => exact nofun
  | stale _ _ _ ih => exact List.forall_mem_cons.2 ⟨fun hnot => absurd rfl hnot, ih⟩
  | late _ hserial _ _ ih => exact List.forall_mem_cons.2 ⟨fun _ => hserial, ih⟩
  | shows _ hserial => exact List.forall_mem_cons.2 ⟨fun _ => hserial, nofun⟩

namespace Flows.Voiced

variable {S : Type} [Scalar S] {host : Host S} {fs fs' : Flows host} {c c' : Clocks S}
  {seeks : Nat} {pictures : List (Nat × VideoFrame S)} {sound : List (Nat × AudioFrame S)} {now : S}

theorem opened (hvideo : ∀ f, fs.video = some f → f.Opened host.openVideo)
    (haudio : ∀ f, fs.audio = some f → f.Opened host.openAudio) (hc : c.Opened) :
    fs.Voiced c 0 [] [] := by
  refine ⟨fun f k hf hk => ?_, fun f k hf hk => ?_⟩
  · obtain @⟨p, codec, -, kind, fallback, ringSize, keepLast⟩ := hvideo f hf
    obtain ⟨time, rfl⟩ := hc.video k hk
    exact .opened _ _ _ time
  · obtain @⟨p, codec, -, kind, fallback, ringSize, keepLast⟩ := haudio f hf
    obtain ⟨⟨time, rfl⟩, spec, hout⟩ := hc.audio k hk
    exact ⟨_, hout, .opened _ _ spec time⟩

/-! ### Pauses and seeks -/

theorem switched (h : fs.Voiced c seeks pictures sound) (now : S) :
    fs.Voiced (c.switched now) seeks pictures sound := by
  refine ⟨fun f k' hf hk' => ?_, fun f k' hf hk' => ?_⟩
  all_goals obtain ⟨k, hk, rfl⟩ := Option.map_eq_some_iff.1 hk'
  · exact (h.video f k hf hk).pause _ now
  · obtain ⟨out, hout, hsound⟩ := h.audio f k hf hk
    exact ⟨out, hout, hsound.pause _ now⟩

theorem turned (h : fs.Voiced c seeks pictures sound) {sought : Bool}
    (hturned : c.Turned now sought c') : fs.Voiced c' seeks pictures sound := by
  cases hturned with
  | stays => exact h
  | sought external =>
    have hset : fs.Voiced { c with external := external } seeks pictures sound :=
      ⟨h.video, h.audio⟩
    unfold Clocks.sought
    dsimp only
    split
    · exact hset.switched now
    · exact hset

theorem fed (h : fs.Voiced c seeks pictures sound) {sought : Bool}
    (hrun : sought = true → fs.aborted = false) (hfed : Fed sought fs fs') :
    fs'.Voiced c (seeks + sought.toNat) pictures sound := by
  obtain ⟨video, audio, hvideo, haudio, rfl⟩ := hfed
  refine ⟨fun f' k hf' hk => ?_, fun f' k hf' hk => ?_⟩
  all_goals obtain ⟨f, hf, rfl⟩ := Option.map_eq_some_iff.1 hf'
  · have hclock := h.video f k hf hk
    have hstopped : (f.fed sought video).packets.aborted = true →
        fs.aborted = true ∨ host.Refuses :=
      fun haborted => hclock.stopped ((f.aborted_fed sought video).symm.trans haborted)
    cases sought with
    | false => exact hclock.step (f.packets.steps_fed seeks hvideo) hstopped
    | true =>
      refine hclock.step (f.packets.steps_sought seeks hvideo fun haborted => ?_) hstopped
      exact (hclock.stopped haborted).resolve_left (by simp [hrun rfl])
  · obtain ⟨out, hout, hclock⟩ := h.audio f k hf hk
    have hstopped : (f.fed sought audio).packets.aborted = true → fs.aborted = true :=
      fun haborted => hclock.stopped ((f.aborted_fed sought audio).symm.trans haborted)
    refine ⟨out, hout, ?_⟩
    cases sought with
    | false => exact hclock.step (f.packets.steps_fed seeks haudio) hstopped
    | true =>
      -- a session that is to end performs no seek
      refine hclock.step (f.packets.steps_sought seeks haudio fun haborted => ?_) hstopped
      exact absurd (hclock.stopped haborted) (by simp [hrun rfl])

/-! ### The decode loops -/

theorem videoMoves (h : fs.Voiced c seeks pictures sound)
    {v : Option (Flow S host.VideoCodec DecodedPicture (VideoFrame S))}
    (hmoves : Flow.Moves host.video Session.pictureFrame host.Refuses fs.video v) :
    ({ fs with video := v } : Flows host).Voiced c seeks pictures sound := by
  refine ⟨?_, h.audio⟩
  rintro f' k rfl hk
  obtain ⟨f, hf, hmove⟩ := hmoves.source
  have hclock := h.video f k hf hk
  obtain ⟨hserial, haborted⟩ := hmove.queue
  refine hclock.step (.same hserial fun hold => ?_) fun hnew => ?_
  · exact haborted.elim (·.trans hold) (·.1)
  · exact haborted.elim (fun hsame => hclock.stopped (hsame.symm.trans hnew)) fun h => .inr h.2

theorem audioMoves (h : fs.Voiced c seeks pictures sound)
    {a : Option (Flow S host.AudioCodec DecodedAudio (AudioFrame S))}
    (hmoves : Flow.Moves host.audio AudioFrame.ofDecoded False fs.audio a) :
    ({ fs with audio := a } : Flows host).Voiced c seeks pictures sound := by
  refine ⟨h.video, ?_⟩
  rintro f' k rfl hk
  obtain ⟨f, hf, hmove⟩ := hmoves.source
  obtain ⟨out, hout, hclock⟩ := h.audio f k hf hk
  obtain ⟨hserial, haborted⟩ := hmove.queue
  refine ⟨out, hout, hclock.step (.same hserial fun hold => ?_) fun hnew => ?_⟩
  · exact haborted.elim (·.trans hold) (·.1)
  · exact haborted.elim (fun hsame => hclock.stopped (hsame.symm.trans hnew)) fun h => h.2.elim

theorem leaveVideo (h : fs.Voiced c seeks pictures sound) :
    fs.Voiced { c with video := none } seeks pictures sound :=
  ⟨fun _ _ _ => nofun, h.audio⟩

theorem leaveAudio (h : fs.Voiced c seeks pictures sound) :
    fs.Voiced { c with audio := none } seeks pictures sound :=
  ⟨h.video, fun _ _ _ => nofun⟩

theorem abort (h : fs.Voiced c seeks pictures sound)
    {v : Option (Flow S host.VideoCodec DecodedPicture (VideoFrame S))}
    {a : Option (Flow S host.AudioCodec DecodedAudio (AudioFrame S))}
    (hv : ∀ f', v = some f' → ∃ f, fs.video = some f ∧ f'.packets = f.packets.abort)
    (ha : ∀ f', a = some f' → ∃ f, fs.audio = some f ∧ f'.packets = f.packets.abort) :
    ({ fs with video := v, audio := a, aborted := true } : Flows host).Voiced c seeks pictures
      sound := by
  refine ⟨fun f' k hf' hk => ?_, fun f' k hf' hk => ?_⟩
  · obtain ⟨f, hf, hpackets⟩ := hv f' hf'
    rw [hpackets]
    exact (h.video f k hf hk).step (.same rfl fun _ => rfl) fun _ => .inl rfl
  · obtain ⟨f, hf, hpackets⟩ := ha f' hf'
    obtain ⟨out, hout, hclock⟩ := h.audio f k hf hk
    rw [hpackets]
    exact ⟨out, hout, hclock.step (.same rfl fun _ => rfl) fun _ => rfl⟩

/-! ### Display and device -/

theorem refreshed (h : fs.Voiced c seeks pictures sound) {taken : List (VideoFrame S × Fate)}
    (hpassed : ∀ f, fs.video = some f → Passed f.packets.serial f.frames taken)
    (hrefreshed : c.Refreshed now (TimedBy taken) c')
    (g : FrameRing (VideoFrame S) → FrameRing (VideoFrame S)) :
    (fs.onPictures g).Voiced c' seeks
      (pictures ++ (timely taken).map fun f => (seeks, f)) sound := by
  refine ⟨fun f' k' hf' hk' => ?_, fun f k' hf hk' => ?_⟩
  · obtain ⟨f, hf, rfl⟩ := Option.map_eq_some_iff.1 hf'
    obtain ⟨k, hk, hdriven⟩ := hrefreshed.video k' hk'
    obtain ⟨hstopped, hspeaks⟩ := h.video f k hf hk
    refine ⟨hstopped, (hspeaks.mono fun pts hpts => hpts.append _).driven hdriven ?_⟩
    rintro pts serial ⟨x, hx, hfate, hpts, hserial⟩
    have hcurrent := (hpassed f hf).serial_eq x hx hfate
    exact ⟨hserial.symm.trans hcurrent, .last (mem_timely hx hfate) hcurrent hpts⟩
  · obtain ⟨k, hk, hdriven⟩ := hrefreshed.audio k' hk'
    obtain ⟨out, hout, hstopped, hends, hspeaks⟩ := h.audio f k hf hk
    refine ⟨out, hrefreshed.output.trans hout, hstopped, hends, ?_⟩
    exact hspeaks.driven hdriven fun _ _ hnever => hnever.elim

theorem filled (h : fs.Voiced c seeks pictures sound) {blocks : List (AudioFrame S)}
    (hblocks : ∀ x ∈ blocks, ∀ f, fs.audio = some f → x.serial = f.packets.serial)
    (hfilled : c.Filled now blocks c') (g : FrameRing (AudioFrame S) → FrameRing (AudioFrame S)) :
    (fs.onSound g).Voiced c' seeks pictures (sound ++ blocks.map fun f => (seeks, f)) := by
  have hplayed (f : Flow S host.AudioCodec DecodedAudio (AudioFrame S)) (k : Clock S)
      (hf : fs.audio = some f) (hk : c.audio = some k) {out out' : AudioOutput S}
      (hout : c.output = some out) (hplays : out.Plays blocks out') :
      SoundClock fs.aborted seeks (sound ++ blocks.map fun f => (seeks, f)) f.packets out' k := by
    obtain ⟨out₀, hout₀, hclock⟩ := h.audio f k hf hk
    obtain rfl : out₀ = out := Option.some.inj (hout₀.symm.trans hout)
    exact hclock.plays hplays fun x hx => hblocks x hx f hf
  cases hfilled with
  | closed hnone =>
    refine ⟨h.video, fun f' k hf' hk => ?_⟩
    obtain ⟨f, hf, rfl⟩ := Option.map_eq_some_iff.1 hf'
    obtain ⟨out, hout, -⟩ := h.audio f k hf hk
    cases hnone.symm.trans hout
  | @paused out out' hout hplays =>
    refine ⟨h.video, fun f' k hf' hk => ?_⟩
    obtain ⟨f, hf, rfl⟩ := Option.map_eq_some_iff.1 hf'
    exact ⟨out', rfl, hplayed f k hf hk hout hplays⟩
  | @heard out out' hout hplays =>
    refine ⟨h.video, fun f' k' hf' hk' => ?_⟩
    obtain ⟨f, hf, rfl⟩ := Option.map_eq_some_iff.1 hf'
    obtain ⟨k, hk, rfl⟩ := Option.map_eq_some_iff.1 hk'
    exact ⟨out', rfl, (hplayed f k hf hk hout hplays).hear now⟩

end Flows.Voiced

/-- A fill converts blocks of the current epoch only. -/
theorem Session.serial_of_converted {S : Type} [Scalar S] {host : Host S} {s : Session host}
    (hsound : s.SoundInOrder) {count : Nat} {now : S} : ∀ x ∈ s.converted count now, ∀ f,
    s.flows.audio = some f → x.serial = f.packets.serial := by
  intro x hx f hf
  obtain ⟨f', hf', hserial, -⟩ := converted_spec (P := fun _ => True)
    (fun f hf => (hsound f hf).imp fun _ hl => ⟨hl, fun _ _ => trivial⟩) x hx
  obtain rfl : f' = f := Option.some.inj (hf'.symm.trans hf)
  exact hserial

/-! ## Sessions with what they have presented -/

/-- A session with what it has presented. -/
structure Presented {S : Type} [Scalar S] (host : Host S) where
  session : Session host
  /-- Number of seeks that have succeeded. -/
  seeks : Nat
  /-- The pictures that were accepted or passed over since the video stream was opened, each with
  the number of seeks before it. -/
  pictures : List (Nat × VideoFrame S)
  /-- The blocks of sound that were converted since the audio stream was opened, each with the
  number of seeks before it. -/
  sound : List (Nat × AudioFrame S)

namespace Presented

variable {S : Type} [Scalar S] {host : Host S}

/-- A session that was just opened. -/
def start (s : Session host) : Presented host :=
  ⟨s, 0, [], []⟩

/-- The effect of an action at the moment `now`. -/
def perform (t : Presented host) (now : S) (action : Session.Action) : Presented host :=
  let s := t.session.perform now action
  match action with
  | .readerTurn =>
    { t with session := s, seeks := t.seeks + (t.session.seekSucceeds now).toNat }
  | .refresh =>
    { t with
      session := s
      pictures := t.pictures ++ (timely (t.session.passed now)).map fun f => (t.seeks, f) }
  | .fill count _ =>
    { t with
      session := s
      sound := t.sound ++ (t.session.converted count now).map fun f => (t.seeks, f) }
  | .cycleStream .video =>
    { t with session := s, pictures := if t.session.switches .video then [] else t.pictures }
  | .cycleStream .audio =>
    { t with session := s, sound := if t.session.switches .audio then [] else t.sound }
  | _ => { t with session := s }

/-- The effect of a run. -/
def run (t : Presented host) (actions : List (S × Session.Action)) : Presented host :=
  actions.foldl (fun t a => t.perform a.1 a.2) t

theorem session_perform (t : Presented host) (now : S) (action : Session.Action) :
    (t.perform now action).session = t.session.perform now action := by
  unfold perform
  split <;> rfl

theorem session_run (t : Presented host) (actions : List (S × Session.Action)) :
    (t.run actions).session = t.session.run actions :=
  (List.foldl_hom session fun t a => (t.session_perform a.1 a.2).symm).symm

/-- The clocks of the session speak for what was presented. -/
def Kept (t : Presented host) : Prop :=
  t.session.flows.Voiced t.session.clocks t.seeks t.pictures t.sound

namespace Kept

variable {t : Presented host}

theorem of_eq {s : Session host} (h : t.Kept) (hflows : s.flows = t.session.flows)
    (hclocks : s.clocks = t.session.clocks) : Kept { t with session := s } := by
  unfold Kept
  rw [hflows, hclocks]
  exact h

theorem start {s : Session host} {uri : String} {options : Options S} {screen : host.Screen}
    {now : S} (hopen : Session.open host uri options screen now = .ok s) :
    (Presented.start s).Kept :=
  .opened (Session.justOpened_open hopen).video (Session.justOpened_open hopen).audio
    (Session.opened_open hopen)

theorem readerTurn (h : t.Kept) (now : S) : (t.perform now .readerTurn).Kept :=
  (h.turned (t.session.clocks_readerTurn now)).fed Session.running_of_seekSucceeds
    (t.session.fed_readerTurn now)

theorem videoStep (h : t.Kept) (now : S) : (t.perform now .videoStep).Kept := by
  obtain ⟨v, hflows, hmoves⟩ := t.session.moves_videoStep now
  have hmoved := h.videoMoves hmoves
  rw [← hflows] at hmoved
  rcases t.session.clocks_videoStep now with hclocks | hclocks
  · rw [← hclocks] at hmoved
    exact hmoved
  · have hleft := hmoved.leaveVideo
    rw [← hclocks] at hleft
    exact hleft

theorem audioTurn (h : t.Kept) (take : Bool) (now : S) :
    Kept { t with session := (t.session.audioTurn take now).2 } := by
  obtain ⟨a, hflows, hmoves⟩ := t.session.moves_audioTurn take now
  have hmoved := h.audioMoves hmoves
  rw [← hflows] at hmoved
  rcases t.session.clocks_audioTurn take now with hclocks | hclocks
  · rw [← hclocks] at hmoved
    exact hmoved
  · have hleft := hmoved.leaveAudio
    rw [← hclocks] at hleft
    exact hleft

theorem refresh (h : t.Kept) (hforced : t.session.refreshForced = false) (now : S) :
    (t.perform now .refresh).Kept := by
  have hshown := h.refreshed (Session.loops_looked hforced now).passed
    (t.session.refreshed_refresh now) advance^[(t.session.passed now).length]
  rw [← Session.flows_refresh_eq hforced now] at hshown
  exact hshown

theorem fill (h : t.Kept) (hsound : t.session.SoundInOrder) (count volume : Nat) (now : S) :
    (t.perform now (.fill count volume)).Kept := by
  obtain ⟨g, -, hflows⟩ := t.session.flows_fill count volume now
  have hplayed := h.filled (Session.serial_of_converted hsound)
    (t.session.filled_fill count volume now) g
  rw [← hflows] at hplayed
  exact hplayed

theorem togglePause (h : t.Kept) (now : S) :
    Kept { t with session := t.session.togglePause now } := by
  have hflows : (t.session.togglePause now).flows = t.session.flows := Session.flows_togglePause
  unfold Kept
  rw [hflows, t.session.clocks_togglePause]
  exact h.switched now

theorem step (h : t.Kept) (now : S) : Kept { t with session := t.session.step now } := by
  have hflows : (t.session.step now).flows = t.session.flows := Session.flows_step
  unfold Kept
  rw [hflows, t.session.clocks_step]
  split
  · exact h.switched now
  · exact h

theorem cycleVideo (h : t.Kept) (now : S) : (t.perform now (.cycleStream .video)).Kept := by
  unfold Presented.perform
  dsimp only
  cases hswitch : t.session.switches .video with
  | false =>
    have hstays := Session.cycleStream_of_stays hswitch now
    exact h.of_eq (congrArg Session.flows hstays) (congrArg Session.clocks hstays)
  | true =>
    obtain ⟨v, hopened, hflows⟩ := Session.flows_cycleVideo hswitch now
    obtain ⟨video, hnew, hclocks⟩ := Session.clocks_cycleVideo hswitch now
    have hfresh : Flows.Voiced { t.session.flows with video := v }
        { t.session.clocks with video := video } t.seeks [] t.sound := by
      refine ⟨fun f k hf hk => ?_, h.audio⟩
      obtain @⟨p, codec, -, kind, fallback, ringSize, keepLast⟩ := hopened f hf
      rw [hnew k hk]
      exact .opened _ _ _ now
    rw [← hflows, ← hclocks] at hfresh
    exact hfresh

theorem cycleAudio (h : t.Kept) (now : S) : (t.perform now (.cycleStream .audio)).Kept := by
  unfold Presented.perform
  dsimp only
  cases hswitch : t.session.switches .audio with
  | false =>
    have hstays := Session.cycleStream_of_stays hswitch now
    exact h.of_eq (congrArg Session.flows hstays) (congrArg Session.clocks hstays)
  | true =>
    obtain ⟨a, hopened, hflows⟩ := Session.flows_cycleAudio hswitch now
    obtain ⟨audio, output, hnew, hclocks⟩ := Session.clocks_cycleAudio hswitch now
    have hfresh : Flows.Voiced { t.session.flows with audio := a }
        { t.session.clocks with audio := audio, output := output } t.seeks t.pictures [] := by
      refine ⟨h.video, fun f k hf hk => ?_⟩
      obtain @⟨p, codec, -, kind, fallback, ringSize, keepLast⟩ := hopened f hf
      obtain ⟨hclock, spec, hout⟩ := hnew k hk
      rw [hclock]
      exact ⟨_, hout, .opened _ _ spec now⟩
    rw [← hflows, ← hclocks] at hfresh
    exact hfresh

theorem abort (h : t.Kept) : Kept { t with session := t.session.abort } := by
  unfold Kept
  rw [t.session.flows_abort, t.session.clocks_abort]
  refine Flows.Voiced.abort h (fun f' hf' => ?_) fun f' hf' => ?_
  all_goals
    obtain ⟨f, hf, rfl⟩ := Option.map_eq_some_iff.1 hf'
    exact ⟨f, hf, rfl⟩

theorem close : Kept { t with session := t.session.close } := by
  unfold Kept
  rw [t.session.flows_close]
  exact ⟨fun _ _ => nofun, fun _ _ => nofun⟩

theorem perform (h : t.Kept) (horder : t.session.InOrder) (now : S) (action : Session.Action) :
    (t.perform now action).Kept := by
  cases action with
  | readerTurn => exact h.readerTurn now
  | videoStep => exact h.videoStep now
  | audioStep => exact h.audioTurn true now
  | audioDecode => exact h.audioTurn false now
  | refresh => exact h.refresh horder.forced now
  | fill count volume => exact h.fill horder.sound count volume now
  | togglePause => exact h.togglePause now
  | step => exact h.step now
  | cycleStream kind =>
    cases kind with
    | video => exact h.cycleVideo now
    | audio => exact h.cycleAudio now
  | abort => exact h.abort
  | close => exact close
  | start => exact h.of_eq Session.flows_start Session.clocks_start
  | takePicture => exact h.of_eq Session.flows_takePicture Session.clocks_takePicture
  | seek _ | seekChapter _ | nextChunk | previousChunk =>
    exact h.of_eq (Session.flows_request rfl) (Session.clocks_request rfl)

theorem run (h : t.Kept) (horder : t.session.InOrder) (actions : List (S × Session.Action)) :
    (t.run actions).Kept := by
  induction actions generalizing t with
  | nil => exact h
  | cons a actions ih =>
    have hnext := horder.perform a.1 a.2
    rw [← t.session_perform] at hnext
    exact ih (h.perform horder a.1 a.2) hnext

end Kept

end Presented

/-! ## Two seeks -/

namespace PictureAndSound

/-- A seek to the start succeeds, and the device plays the rest of its block. -/
def sought : List (Rat × Session.Action) :=
  playing ++ [(1 / 5, .seek 0), (1 / 5, .readerTurn), (1 / 5, .fill 2 100)]

/-- The packets are read again, and a picture and a block of sound of the new epoch are
presented. -/
def resumed : List (Rat × Session.Action) :=
  sought ++ List.replicate 3 (1 / 5, .readerTurn) ++ List.replicate 5 (1 / 5, .videoStep) ++
    List.replicate 5 (1 / 5, .audioStep) ++ [(3 / 10, .refresh), (3 / 10, .fill 4 100)]

end PictureAndSound

namespace RefusedBuffer

/-- The first picture is shown, the second one is refused, and then a seek succeeds. -/
def shown : List (Rat × Session.Action) :=
  [(0, .start), (0, .readerTurn), (0, .readerTurn), (0, .videoStep), (0, .videoStep),
    (0, .videoStep), (9 / 200, .refresh), (9 / 200, .seek 400), (9 / 200, .readerTurn)]

end RefusedBuffer

/-! ## Every run -/

/-- The clock of an open stream is never of a later epoch than its queue, whatever the session did
since it was opened. Whenever it reads a value, it was set by a frame of this very stream that is of
the current epoch, and has only been paused and resumed since then. For pictures, this is the time
of one that was accepted or passed over; for sound, it is the end of a block that was converted,
less what the device had not played yet. The frame was presented after the last seek that succeeded.
For pictures it may be an earlier one if the queue was shut down because the host refused a
buffer. -/
theorem stream_clocks_epoch {S : Type} [Scalar S] {host : Host S} {uri : String}
    {options : Options S} {screen : host.Screen} {opened : S} {s : Session host}
    (hopen : Session.open host uri options screen opened = .ok s)
    (actions : List (S × Session.Action)) (now : S) :
    let t := (Presented.start s).run actions
    t.session = s.run actions ∧
    (∀ v, t.session.videoStream = some v → v.clock.serial ≤ v.packets.serial ∧
      ∀ value, v.clockValue now = some value →
        ∃ x ∈ t.pictures, x.2.serial = v.packets.serial ∧
          (∃ pts, x.2.pts = some pts ∧ v.clock.SetTo pts v.packets.serial) ∧
          (x.1 = t.seeks ∨ v.packets.aborted = true ∧ host.Refuses)) ∧
    ∀ a, t.session.audioStream = some a → a.clock.serial ≤ a.packets.serial ∧
      ∀ value, a.clockValue now = some value →
        ∃ x ∈ t.sound, x.2.serial = a.packets.serial ∧ x.1 = t.seeks ∧
          ∃ (stop : S) (out : AudioOutput S), x.2.stop? = some stop ∧
            t.session.output.map (·.spec) = some out.spec ∧
            a.clock.SetTo (stop - out.latency) a.packets.serial := by
  intro t
  have hkept : t.Kept := (Presented.Kept.start hopen).run (.start hopen) actions
  refine ⟨Presented.session_run _ actions, ?_, ?_⟩
  · intro v hv
    obtain ⟨p, hp, rfl⟩ := Option.map_eq_some_iff.1 hv
    have hclock := hkept.video p.flow p.stream.clock (by rw [Session.flows, hp]; rfl)
      (by rw [Session.clocks, hv]; rfl)
    refine ⟨hclock.speaks.le, fun value hvalue => ?_⟩
    obtain ⟨pts, ⟨x, hx, hserial, hpts, hseeks⟩, hset⟩ := hclock.speaks.of_read hvalue
    exact ⟨x, hx, hserial, ⟨pts, hpts, hset⟩, hseeks⟩
  · intro a ha
    obtain ⟨p, hp, rfl⟩ := Option.map_eq_some_iff.1 ha
    obtain ⟨out, hout, hclock⟩ := hkept.audio p.flow p.stream.clock
      (by rw [Session.flows, hp]; rfl) (by rw [Session.clocks, ha]; rfl)
    refine ⟨hclock.speaks.le, fun value hvalue => ?_⟩
    obtain ⟨pts, ⟨stop, out', ⟨x, hx, hserial, hstop, hseeks⟩, hspec, rfl⟩, hset⟩ :=
      hclock.speaks.of_read hvalue
    have hout' : t.session.output = some out := hout
    refine ⟨x, hx, hserial, hseeks.resolve_right fun h => h.2, stop, out', hstop, ?_, hset⟩
    rw [hout', hspec]
    rfl

/-- Both clocks are silent after the seek, also while the device plays the rest of its block, and
both speak again for what is presented then. -/
theorem stream_clocks_epoch_resumed :
    ∃ s, Session.open PictureAndSound.host "" {} (0 : Nat) 0 = .ok s ∧
      let t := (Presented.start s).run PictureAndSound.resumed
      (s.run PictureAndSound.sought).videoClock 2 = none ∧
        (s.run PictureAndSound.sought).audioClock 2 = none ∧ t.seeks = 1 ∧
        (∃ v, t.session.videoStream = some v ∧
          ∃ x ∈ t.pictures, x.1 = 1 ∧ ∃ pts, x.2.pts = some pts ∧
            v.clock.SetTo pts v.packets.serial) ∧
        ∃ a, t.session.audioStream = some a ∧ ∃ x ∈ t.sound, x.1 = 1 ∧
          x.2.serial = a.packets.serial := by
  have hopen : ∃ s, Session.open PictureAndSound.host "" {} (0 : Nat) 0 = .ok s ∧
      let t := (Presented.start s).run PictureAndSound.resumed
      (s.run PictureAndSound.sought).videoClock 2 = none ∧
        (s.run PictureAndSound.sought).audioClock 2 = none ∧ t.seeks = 1 ∧
        (t.session.videoClock 2).isSome = true ∧ (t.session.audioClock 2).isSome = true ∧
        t.session.videoStream.all (!·.packets.aborted) = true :=
    ⟨_, rfl, by decide +kernel⟩
  obtain ⟨s, hs, hsilent, hsilent', hseeks, hvideo, haudio, hrun⟩ := hopen
  obtain ⟨-, hpictures, hsound⟩ := stream_clocks_epoch hs PictureAndSound.resumed 2
  obtain ⟨value, hvalue⟩ := Option.isSome_iff_exists.1 hvideo
  obtain ⟨v, hv, hread⟩ := Option.bind_eq_some_iff.1 hvalue
  obtain ⟨value', hvalue'⟩ := Option.isSome_iff_exists.1 haudio
  obtain ⟨a, ha, hread'⟩ := Option.bind_eq_some_iff.1 hvalue'
  obtain ⟨x, hx, -, hset, hlast⟩ := (hpictures v hv).2 value hread
  obtain ⟨y, hy, hserial, hlast', -⟩ := (hsound a ha).2 value' hread'
  refine ⟨s, hs, hsilent, hsilent', hseeks, ⟨v, hv, x, hx, ?_, hset⟩, a, ha, y, hy,
    hlast'.trans hseeks, hserial⟩
  rw [hv] at hrun
  exact (hlast.resolve_right fun h => by simp [h.1] at hrun).trans hseeks

/-- The clock of the pictures still speaks for a picture from before the seek. -/
theorem stale_clock_after_seek :
    ∃ s, Session.open RefusedBuffer.host "" {} (0 : Nat) 0 = .ok s ∧
      let t := (Presented.start s).run RefusedBuffer.shown
      t.seeks = 1 ∧ (∀ x ∈ t.pictures, x.1 = 0) ∧ t.session.videoClock (9 / 200) = some 0 := by
  refine ⟨_, rfl, ?_⟩
  decide +kernel

end Playback
