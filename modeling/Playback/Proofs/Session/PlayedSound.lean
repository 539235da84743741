import Playback.Proofs.Pcm.Volume
import Playback.Proofs.Session.PausedSession
import Playback.Proofs.Session.SoundLoop

/-!
# What a fill plays

A fill plays what is left of the block that is being played, then the frames of the current epoch
that wait in the ring, in their order, and then silence (`Session.Accounts`). Every frame that it
takes is played, as silence if it cannot be converted, and counted once; frames of other epochs are
dropped on the way, and nothing else leaves the ring (`fill_plays_the_ring`).

A fill notes in `AudioOutput.overflowed` that 64 bits do not hold what a frame was played with. This
is so exactly if they do not for one of the frames that it takes (`Accounts.overflow`), and then the
callback fails.
-/

namespace Playback

/-! ## Taking a frame from a ring -/

namespace FrameRing

variable {α : Type} {r r' : FrameRing α} {l : FrameLog α} {x : α} {n : Nat} {p : α → Bool}

/-- The first frame that satisfies `p` is taken from a ring, and those before it are dropped. Of a
ring that is stopped nothing is taken or dropped. -/
structure Takes (p : α → Bool) (r : FrameRing α) (taken : Option α) (r' : FrameRing α) : Prop where
  holds : ∃ l, r'.Holds l
  stopped : r'.stopped = r.stopped
  satisfies : ∀ x, taken = some x → p x = true
  exhausts : taken = none → r.stopped = true ∨ r'.waiting = []
  still : r.stopped = true → r'.waiting = r.waiting
  drops : ∃ stale, (∀ x ∈ stale, p x = false) ∧ r.waiting = stale ++ taken.toList ++ r'.waiting

/-- Nothing is taken. -/
theorem takes_none (h : r.Holds l) (hnone : r.stopped = true ∨ r.waiting = []) :
    Takes p r none r where
  holds := ⟨l, h⟩
  stopped := rfl
  satisfies := nofun
  exhausts _ := hnone
  still _ := rfl
  drops := ⟨[], nofun, rfl⟩

theorem takes_takeFirst (h : r.Holds l) (p : α → Bool) (hn : r.remaining ≤ n) :
    Takes p r (r.takeFirst p n).1 (r.takeFirst p n).2 := by
  induction n generalizing r l with
  | zero =>
    refine takes_none h (.inr (List.length_eq_zero_iff.1 ?_))
    rw [h.length_waiting]
    exact Nat.le_zero.1 hn
  | succ n ih =>
    unfold takeFirst
    cases havailable : r.available? with
    | none =>
      refine takes_none h ?_
      rw [h.available?_eq] at havailable
      split at havailable
      · exact .inl (h.stopped_eq.trans ‹_›)
      · refine .inr ?_
        rw [h.waiting_eq]
        exact List.drop_eq_nil_of_le (List.getElem?_eq_none_iff.1 havailable)
    | some x =>
      have hrun : r.stopped = false := by
        unfold available? at havailable
        split at havailable
        · cases havailable
        · exact Bool.eq_false_iff.2 ‹_›
      have hnext : r.next? = some x := by
        rw [available?, hrun] at havailable
        exact havailable
      obtain ⟨hadvance, hwaiting⟩ := h.next hnext
      have hstopped : r.advance.stopped = r.stopped := (advances_iterate 1).stopped r
      dsimp only
      split
      · rename_i hp
        refine ⟨⟨_, hadvance⟩, hstopped, fun y hy => Option.some.inj hy ▸ hp,
          fun hnone => absurd hnone (Option.some_ne_none x), fun hstop => ?_, [],
          List.forall_mem_nil _, hwaiting⟩
        cases hrun.symm.trans hstop
      · rename_i hp
        have hremaining := r.remaining_advance
        obtain ⟨hholds, hstopped', hsat, hexhausts, -, stale, hstale, hdrops⟩ :=
          ih hadvance (by omega)
        refine ⟨hholds, hstopped'.trans hstopped, hsat, ?_, fun hstop => ?_,
          x :: stale, List.forall_mem_cons.2 ⟨Bool.eq_false_iff.2 hp, hstale⟩, ?_⟩
        · rwa [hstopped] at hexhausts
        · cases hrun.symm.trans hstop
        · rw [hwaiting, hdrops]
          rfl

end FrameRing

/-! ## Taking a frame of sound -/

namespace Session

variable {S : Type} [Scalar S] {host : Host S} {s s' s'' : Session host}
  {out out' : AudioOutput S} {now : S}

/-- The frames of sound that wait in the ring, the next one first. -/
def queuedSound (s : Session host) : List (AudioFrame S) :=
  (s.audioStream.map (·.frames.waiting)).getD []

/-- The frame is of the current epoch of the open audio stream. -/
def isCurrent (s : Session host) (f : AudioFrame S) : Bool :=
  s.audioStream.any fun a => f.serial = a.packets.serial

/-- The ring gives no sound. -/
def Mute (s : Session host) : Prop :=
  s.paused = true ∨
    ∀ a, s.audioStream = some a → a.frames.stopped = true ∨ a.frames.waiting = []

/-- The next frame of the current epoch is taken from the ring of sound, and those of other epochs
before it are dropped. Nothing else that matters to the sound has changed. -/
structure TakesSound (s : Session host) (taken : Option (AudioFrame S)) (s' : Session host) :
    Prop where
  order : s'.SoundInOrder
  current_eq : s'.isCurrent = s.isCurrent
  wanted_eq : s'.wantedFrames = s.wantedFrames
  computes_eq : s'.BlockComputes = s.BlockComputes
  metrics_eq : s'.metrics = s.metrics
  current : ∀ f, taken = some f → s.isCurrent f = true
  exhausts : taken = none → s'.Mute
  still : s.Mute → s'.Mute ∧ s'.queuedSound = s.queuedSound
  drops : ∃ stale, (∀ f ∈ stale, s.isCurrent f = false) ∧
    s.queuedSound = stale ++ taken.toList ++ s'.queuedSound

theorem takesSound_none (h : s.SoundInOrder) (hmute : s.Mute) : s.TakesSound none s where
  order := h
  current_eq := rfl
  wanted_eq := rfl
  computes_eq := rfl
  metrics_eq := rfl
  current := nofun
  exhausts _ := hmute
  still hmute := ⟨hmute, rfl⟩
  drops := ⟨[], nofun, rfl⟩

/-- Of the ring of sound something was taken. -/
def setSound (s : Session host) (frames : FrameRing (AudioFrame S)) : Session host :=
  s.onAudio fun a => { a with frames := frames }

theorem audioStream_setSound {a : Stream S (AudioFrame S)} (haudio : s.audioStream = some a)
    (frames : FrameRing (AudioFrame S)) :
    (s.setSound frames).audioStream = some { a with frames := frames } := by
  obtain ⟨p, hp, rfl⟩ := Option.map_eq_some_iff.1 haudio
  unfold setSound onAudio audioStream
  rw [hp]
  rfl

/-- What is taken from the ring changes no clock. -/
theorem lead_setSound (s : Session host) (frames : FrameRing (AudioFrame S)) :
    (s.setSound frames).master = s.master ∧
      (∀ now, (s.setSound frames).audioClock now = s.audioClock now) ∧
      ∀ now, (s.setSound frames).masterClock now = s.masterClock now := by
  have hmaster : (s.setSound frames).master = s.master := by
    unfold master setSound onAudio
    cases s.audio <;> rfl
  have haudio (now : S) : (s.setSound frames).audioClock now = s.audioClock now := by
    unfold audioClock
    cases haudio : s.audioStream with
    | none =>
      have hnone : (s.setSound frames).audioStream = none := by
        unfold audioStream setSound onAudio at *
        rw [Option.map_eq_none_iff.1 haudio]
        rfl
      rw [hnone]
    | some a =>
      rw [audioStream_setSound haudio]
      rfl
  refine ⟨hmaster, haudio, fun now => ?_⟩
  unfold masterClock
  rw [hmaster, haudio]
  rfl

theorem wantedFrames_setSound (s : Session host) (frames : FrameRing (AudioFrame S)) :
    (s.setSound frames).wantedFrames = s.wantedFrames := by
  obtain ⟨hmaster, haudio, hclock⟩ := s.lead_setSound frames
  funext out block now
  unfold wantedFrames
  rw [hmaster, haudio, hclock]

theorem blockComputes_setSound (s : Session host) (frames : FrameRing (AudioFrame S)) :
    (s.setSound frames).BlockComputes = s.BlockComputes := by
  obtain ⟨hmaster, haudio, hclock⟩ := s.lead_setSound frames
  funext out block now
  unfold BlockComputes
  rw [hmaster, haudio, hclock, wantedFrames_setSound]

theorem holds_of_soundInOrder {a : Stream S (AudioFrame S)} (h : s.SoundInOrder)
    (haudio : s.audioStream = some a) : ∃ l, a.frames.Holds l := by
  obtain ⟨p, hp, rfl⟩ := Option.map_eq_some_iff.1 haudio
  refine h p.flow ?_
  unfold flows
  rw [hp]
  rfl

theorem soundInOrder_of_holds (h : ∀ a, s.audioStream = some a → ∃ l, a.frames.Holds l) :
    s.SoundInOrder := by
  intro f hf
  obtain ⟨p, hp, rfl⟩ := Option.map_eq_some_iff.1 hf
  refine h p.stream ?_
  unfold audioStream
  rw [hp]
  rfl

theorem takesSound_takeSound (h : s.SoundInOrder) :
    s.TakesSound s.takeSound.1 s.takeSound.2 := by
  unfold takeSound
  cases haudio : s.audioStream with
  | none => exact takesSound_none h (.inr fun a ha => nomatch haudio.symm.trans ha)
  | some a =>
    dsimp only
    split
    · exact takesSound_none h (.inl ‹_›)
    · rename_i hrun
      obtain ⟨l, hl⟩ := holds_of_soundInOrder h haudio
      have htakes := FrameRing.takes_takeFirst hl (fun frame => frame.serial = a.packets.serial)
        (Nat.le_refl _)
      generalize a.frames.takeFirst _ _ = result at htakes ⊢
      obtain ⟨taken, frames⟩ := result
      obtain ⟨hholds, hstopped, hsat, hexhausts, hstill, hdrops⟩ := htakes
      dsimp only at hholds hstopped hsat hexhausts hstill hdrops ⊢
      have haudio' := audioStream_setSound haudio frames
      have hqueued : s.queuedSound = a.frames.waiting := by rw [queuedSound, haudio]; rfl
      have hqueued' : (s.setSound frames).queuedSound = frames.waiting := by
        rw [queuedSound, haudio']; rfl
      have hcurrent (f : AudioFrame S) : s.isCurrent f = decide (f.serial = a.packets.serial) := by
        rw [isCurrent, haudio]; rfl
      have hcurrent' : (s.setSound frames).isCurrent = s.isCurrent := by
        funext f
        rw [hcurrent, isCurrent, haudio']; rfl
      have hmute (hnone : frames.stopped = true ∨ frames.waiting = []) :
          (s.setSound frames).Mute :=
        .inr fun a' ha' => Option.some.inj (haudio'.symm.trans ha') ▸ hnone
      simp only [← hcurrent] at hsat hdrops
      refine ⟨soundInOrder_of_holds fun a' ha' => ?_, hcurrent', s.wantedFrames_setSound frames,
        s.blockComputes_setSound frames, rfl, hsat, fun hnone => ?_, fun hmuted => ?_, ?_⟩
      · exact Option.some.inj (haudio'.symm.trans ha') ▸ hholds
      · refine hmute ?_
        rw [hstopped]
        exact hexhausts hnone
      · have hsilent : a.frames.stopped = true ∨ a.frames.waiting = [] :=
          hmuted.elim (fun hpaused => absurd hpaused hrun) fun hring => hring a haudio
        have hsame : frames.waiting = a.frames.waiting := by
          rcases hsilent with hstop | hempty
          · exact hstill hstop
          · obtain ⟨stale, -, hsplit⟩ := hdrops
            rw [hempty] at hsplit ⊢
            exact (List.append_eq_nil_iff.1 hsplit.symm).2
        refine ⟨hmute ?_, hqueued'.trans (hsame.trans hqueued.symm)⟩
        rw [hstopped, hsame]
        exact hsilent
      · obtain ⟨stale, hstale, hsplit⟩ := hdrops
        exact ⟨stale, hstale, hqueued.trans (hsplit.trans (by rw [hqueued'.symm]; rfl))⟩

end Session

/-! ## Turning frames into bytes -/

/-- Blocks of bytes, one after the other. -/
def joined (blocks : List Bytes) : Bytes :=
  blocks.foldr (· ++ ·) #[]

/-- So many frames were played, of which some could not be converted, and blocks of silence. -/
def Metrics.recordSound (m : Metrics) (frames refused silences : Nat) : Metrics :=
  { m with
    audioFrames := m.audioFrames + frames
    conversionErrors := m.conversionErrors + refused
    silences := m.silences + silences }

theorem Metrics.recordSound_add (m : Metrics) (frames frames' refused refused' silences : Nat) :
    (m.recordSound frames refused 0).recordSound frames' refused' silences =
      m.recordSound (frames' + frames) (refused' + refused) silences := by
  simp [recordSound]
  omega

namespace AudioOutput

variable {S : Type} {out out' : AudioOutput S}

/-- What a block is played as, stretched to so many frames. A block that cannot be converted is
played as silence. -/
def soundOf (out : AudioOutput S) (block : SampleBlock) (wanted : Nat) : Bytes :=
  match out.converter.convert block wanted with
  | .ok (data, _) => data
  | .error _ => out.silence (Session.substituteLength out block)

/-- The number of frames that cannot be converted. -/
def refusals (out : AudioOutput S) (fs : List (AudioFrame S)) : Nat :=
  fs.countP fun f => (out.converter.refusal f.samples).isSome

theorem refusals_cons (out : AudioOutput S) (f : AudioFrame S) (fs : List (AudioFrame S)) :
    out.refusals (f :: fs) = out.refusals fs + out.refusals [f] := by
  simp [refusals, List.countP_cons]

/-- Both convert to the same format. -/
structure SameFormat (out out' : AudioOutput S) : Prop where
  spec : out'.spec = out.spec
  target : out'.converter.target = out.converter.target

theorem SameFormat.silence (h : out.SameFormat out') (length : Nat) :
    out'.silence length = out.silence length := by
  unfold AudioOutput.silence
  rw [h.spec]

theorem SameFormat.refusal (h : out.SameFormat out') (block : SampleBlock) :
    out'.converter.refusal block = out.converter.refusal block := by
  unfold Converter.refusal
  rw [h.target]

theorem SameFormat.refusals (h : out.SameFormat out') (fs : List (AudioFrame S)) :
    out'.refusals fs = out.refusals fs := by
  unfold AudioOutput.refusals
  simp only [h.refusal]

theorem SameFormat.soundOf (h : out.SameFormat out') (block : SampleBlock) (wanted : Nat) :
    out'.soundOf block wanted = out.soundOf block wanted := by
  have hrender : out'.converter.render block wanted = out.converter.render block wanted := by
    unfold Converter.render Converter.passes Converter.outputCount
    rw [h.target]
  unfold AudioOutput.soundOf Converter.convert Session.substituteLength
  rw [h.refusal, hrender, h.spec]
  cases out.converter.refusal block with
  | none => rfl
  | some e => exact h.silence _

theorem SameFormat.computes_iff (h : out.SameFormat out') (block : SampleBlock) (wanted : Nat) :
    (out'.converter.Computes block wanted ↔ out.converter.Computes block wanted) ∧
      (Session.SubstituteComputes out' block ↔ Session.SubstituteComputes out block) := by
  unfold Converter.Computes Converter.resamples Converter.passes Converter.outputCount
    Session.SubstituteComputes Session.substituteLength
  rw [h.refusal, h.target, h.spec]
  exact ⟨Iff.rfl, Iff.rfl⟩

end AudioOutput

namespace Session

variable {S : Type} [Scalar S] {host : Host S} {s s' s'' : Session host}
  {out out' : AudioOutput S} {now : S} {fs : List (AudioFrame S)}

/-- How many frames the blocks are stretched to that are played one after the other. -/
def stretches (s : Session host) (now : S) : AudioOutput S → List (AudioFrame S) → List Nat
  | _, [] => []
  | out, f :: fs =>
    (s.wantedFrames out f.samples now).1 ::
      s.stretches now (s.wantedFrames out f.samples now).2 fs

/-- What frames are played as, one after the other. -/
def soundsOf (s : Session host) (now : S) (out : AudioOutput S) (fs : List (AudioFrame S)) :
    List Bytes :=
  List.zipWith (fun f wanted => out.soundOf f.samples wanted) fs (s.stretches now out fs)

theorem wantedFrames_congr (h : out'.corrector = out.corrector) (s : Session host)
    (block : SampleBlock) (now : S) :
    (s.wantedFrames out' block now).1 = (s.wantedFrames out block now).1 ∧
      (s.wantedFrames out' block now).2.corrector =
        (s.wantedFrames out block now).2.corrector := by
  unfold wantedFrames
  split
  · exact ⟨rfl, h⟩
  · rw [h]
    exact ⟨rfl, rfl⟩

theorem stretches_congr (h : out'.corrector = out.corrector)
    (hwanted : s'.wantedFrames = s.wantedFrames) (now : S) (fs : List (AudioFrame S)) :
    s'.stretches now out' fs = s.stretches now out fs := by
  induction fs generalizing out out' with
  | nil => rfl
  | cons f fs ih =>
    unfold stretches
    rw [hwanted]
    obtain ⟨hfirst, hcorrector⟩ := s.wantedFrames_congr h f.samples now
    rw [hfirst, ih hcorrector]

theorem soundsOf_congr (h : out.SameFormat out') (hcorrector : out'.corrector = out.corrector)
    (hwanted : s'.wantedFrames = s.wantedFrames) (now : S) (fs : List (AudioFrame S)) :
    s'.soundsOf now out' fs = s.soundsOf now out fs := by
  unfold soundsOf
  rw [stretches_congr hcorrector hwanted]
  simp only [h.soundOf]

/-- 64 bits hold what frames are played with, one after the other. -/
def SoundsCompute (s : Session host) (now : S) : AudioOutput S → List (AudioFrame S) → Prop
  | _, [] => True
  | out, f :: fs =>
    s.BlockComputes out f.samples now ∧
      s.SoundsCompute now (s.wantedFrames out f.samples now).2 fs

theorem sameFormat_wantedFrames (s : Session host) (out : AudioOutput S) (block : SampleBlock)
    (now : S) : out.SameFormat (s.wantedFrames out block now).2 := by
  unfold wantedFrames
  split
  · exact ⟨rfl, rfl⟩
  · exact ⟨rfl, rfl⟩

theorem blockComputes_congr (h : out.SameFormat out') (hcorrector : out'.corrector = out.corrector)
    (s : Session host) (block : SampleBlock) (now : S) :
    s.BlockComputes out' block now ↔ s.BlockComputes out block now := by
  obtain ⟨hwanted, -⟩ := s.wantedFrames_congr hcorrector block now
  obtain ⟨hconversion, hsubstitute⟩ := h.computes_iff block (s.wantedFrames out block now).1
  unfold BlockComputes
  rw [hcorrector, hwanted, hconversion, hsubstitute, h.refusal]

theorem soundsCompute_congr (h : out.SameFormat out') (hcorrector : out'.corrector = out.corrector)
    (hwanted : s'.wantedFrames = s.wantedFrames) (hcomputes : s'.BlockComputes = s.BlockComputes)
    (now : S) (fs : List (AudioFrame S)) :
    s'.SoundsCompute now out' fs ↔ s.SoundsCompute now out fs := by
  induction fs generalizing out out' with
  | nil => exact Iff.rfl
  | cons f fs ih =>
    have hformat := s.sameFormat_wantedFrames out f.samples now
    have hformat' := s.sameFormat_wantedFrames out' f.samples now
    unfold SoundsCompute
    rw [hwanted, hcomputes, s.blockComputes_congr h hcorrector f.samples now,
      ih ⟨hformat'.spec.trans (h.spec.trans hformat.spec.symm),
          hformat'.target.trans (h.target.trans hformat.target.symm)⟩
        (s.wantedFrames_congr hcorrector f.samples now).2]

/-- What is done with a frame that was taken. -/
theorem convertFrame_spec (s : Session host) (out : AudioOutput S) (f : AudioFrame S) (now : S) :
    out.SameFormat (s.convertFrame out f now).1 ∧
    (s.convertFrame out f now).1.corrector = (s.wantedFrames out f.samples now).2.corrector ∧
    (s.BlockComputes out f.samples now → (s.convertFrame out f now).1.rest =
      out.soundOf f.samples (s.wantedFrames out f.samples now).1) ∧
    ∃ m, (s.convertFrame out f now).2 = { s with metrics := m } ∧
      (s.BlockComputes out f.samples now → m = s.metrics.recordSound 1 (out.refusals [f]) 0) := by
  have hwanted : ∃ c, (s.wantedFrames out f.samples now).2 = { out with corrector := c } := by
    unfold wantedFrames
    split
    · exact ⟨out.corrector, rfl⟩
    · exact ⟨_, rfl⟩
  unfold convertFrame AudioOutput.soundOf Converter.convert
  dsimp only
  generalize s.wantedFrames out f.samples now = wanted at hwanted ⊢
  obtain ⟨count, out'⟩ := wanted
  obtain ⟨c, rfl⟩ := hwanted
  dsimp only
  by_cases hcomputes : s.BlockComputes out f.samples now
  · rw [if_pos (decide_eq_true hcomputes)]
    cases hrefusal : out.converter.refusal f.samples with
    | none =>
      refine ⟨⟨rfl, rfl⟩, rfl, fun _ => AudioOutput.rest_of_fresh rfl, _, rfl, fun _ => ?_⟩
      simp [AudioOutput.refusals, hrefusal, Metrics.recordSound, Metrics.recordAudioFrame]
    | some e =>
      refine ⟨⟨rfl, rfl⟩, rfl, fun _ => AudioOutput.rest_of_fresh rfl, _, rfl, fun _ => ?_⟩
      simp [AudioOutput.refusals, hrefusal, Metrics.recordSound, Metrics.recordAudioFrame,
        Metrics.recordConversionError]
  · rw [if_neg (by simpa using hcomputes)]
    exact ⟨⟨rfl, rfl⟩, rfl, fun h => absurd h hcomputes, _, rfl, fun h => absurd h hcomputes⟩

theorem overflowed_convertFrame (s : Session host) (out : AudioOutput S) (f : AudioFrame S)
    (now : S) :
    (s.convertFrame out f now).1.overflowed = true ↔
      out.overflowed = true ∨ ¬s.BlockComputes out f.samples now := by
  have hwanted : (s.wantedFrames out f.samples now).2.overflowed = out.overflowed := by
    unfold wantedFrames
    split <;> rfl
  unfold convertFrame
  dsimp only
  by_cases hcomputes : s.BlockComputes out f.samples now
  · rw [if_pos (decide_eq_true hcomputes)]
    split <;> simp [AudioOutput.load, hwanted, hcomputes]
  · rw [if_neg (by simpa using hcomputes)]
    simp [AudioOutput.load, hcomputes]

/-! ## The account of a fill -/

/-- The device's side has played `bytes`. Meanwhile `removed` was removed from the ring, and the
frames of the current epoch among these were played, and then blocks of silence. What was played
counts only if 64 bits are enough for it. -/
structure Accounts (now : S) (s : Session host) (out : AudioOutput S) (bytes : Bytes)
    (out' : AudioOutput S) (s' : Session host) (removed : List (AudioFrame S))
    (silences : Nat) : Prop where
  ring : s.queuedSound = removed ++ s'.queuedSound
  sound : s.SoundsCompute now out (removed.filter s.isCurrent) →
    bytes ++ out'.rest = out.rest ++
      joined (s.soundsOf now out (removed.filter s.isCurrent) ++
        List.replicate silences (out.silence AudioOutput.silenceBytes))
  metrics : s.SoundsCompute now out (removed.filter s.isCurrent) →
    s'.metrics = s.metrics.recordSound (removed.filter s.isCurrent).length
      (out.refusals (removed.filter s.isCurrent)) silences
  silent : 0 < silences → s'.Mute
  still : s.Mute → removed = [] ∧ s'.Mute
  overflow : out'.overflowed = true ↔
    out.overflowed = true ∨ ¬s.SoundsCompute now out (removed.filter s.isCurrent)

theorem accounts_nothing (s : Session host) (out : AudioOutput S) (now : S) :
    Accounts now s out #[] out s [] 0 where
  ring := rfl
  sound _ := by simp [soundsOf, joined]
  metrics _ := by simp [Metrics.recordSound, AudioOutput.refusals]
  silent := nofun
  still hmute := ⟨rfl, hmute⟩
  overflow := by simp [SoundsCompute]

theorem Accounts.play {removed : List (AudioFrame S)} {silences : Nat} {bytes : Bytes}
    (h : Accounts now s (out.play 1).2 bytes out' s' removed silences) :
    Accounts now s out ((out.play 1).1 ++ bytes) out' s' removed silences := by
  have hformat : out.SameFormat (out.play 1).2 := ⟨rfl, rfl⟩
  have hcompute : s.SoundsCompute now (out.play 1).2 (removed.filter s.isCurrent) ↔
      s.SoundsCompute now out (removed.filter s.isCurrent) :=
    soundsCompute_congr hformat rfl rfl rfl now _
  refine ⟨h.ring, fun hs => ?_, fun hs => ?_, h.silent, h.still, ?_⟩
  · rw [Array.append_assoc, h.sound (hcompute.2 hs), soundsOf_congr hformat rfl rfl,
      hformat.silence, ← Array.append_assoc, AudioOutput.play_append_rest]
  · rw [h.metrics (hcompute.2 hs), hformat.refusals]
  · rw [h.overflow, hcompute]
    rfl

theorem soundsOf_cons {out₁ : AudioOutput S} {f : AudioFrame S} (hformat : out.SameFormat out₁)
    (hcorrector : out₁.corrector = (s.wantedFrames out f.samples now).2.corrector)
    (hwanted : s'.wantedFrames = s.wantedFrames) (fs : List (AudioFrame S)) :
    s.soundsOf now out (f :: fs) =
      out.soundOf f.samples (s.wantedFrames out f.samples now).1 :: s'.soundsOf now out₁ fs := by
  unfold soundsOf
  rw [stretches_congr hcorrector hwanted]
  simp only [stretches, List.zipWith_cons_cons, hformat.soundOf]

/-- The next block is a frame from the ring. -/
theorem Accounts.load_frame {f : AudioFrame S} {taken : Session host}
    {removed : List (AudioFrame S)} {silences : Nat} {bytes : Bytes} (hused : out.unread = 0)
    (htakes : s.TakesSound (some f) taken)
    (h : Accounts now (taken.convertFrame out f now).2 (taken.convertFrame out f now).1 bytes out'
      s' removed silences) :
    ∃ stale, Accounts now s out bytes out' s' (stale ++ f :: removed) silences := by
  obtain ⟨hformat, hcorrector, hrest, m, hsession, hm⟩ := taken.convertFrame_spec out f now
  obtain ⟨stale, hstale, hdrops⟩ := htakes.drops
  have hqueued : (taken.convertFrame out f now).2.queuedSound = taken.queuedSound := by
    rw [hsession]
    rfl
  have hcurrent : (taken.convertFrame out f now).2.isCurrent = s.isCurrent := by
    rw [hsession]
    exact htakes.current_eq
  have hwanted : (taken.convertFrame out f now).2.wantedFrames = s.wantedFrames := by
    rw [hsession]
    exact htakes.wanted_eq
  have hcounted : s.BlockComputes out f.samples now →
      (taken.convertFrame out f now).2.metrics =
        s.metrics.recordSound 1 (out.refusals [f]) 0 := by
    rw [← htakes.computes_eq, hsession, ← htakes.metrics_eq]
    exact hm
  have hcomputes : (taken.convertFrame out f now).2.BlockComputes = s.BlockComputes := by
    rw [hsession]
    exact htakes.computes_eq
  have hoverflowed := taken.overflowed_convertFrame out f now
  rw [htakes.computes_eq] at hoverflowed hrest
  rw [htakes.wanted_eq] at hcorrector hrest
  generalize taken.convertFrame out f now = loaded at *
  obtain ⟨hring, hsound, hmetrics, hsilent, -, hoverflow⟩ := h
  rw [hcurrent] at hsound hmetrics hoverflow
  have hnone : stale.filter s.isCurrent = [] :=
    List.filter_eq_nil_iff.2 fun x hx => by simp [hstale x hx]
  have hfilter : (stale ++ f :: removed).filter s.isCurrent = f :: removed.filter s.isCurrent := by
    rw [List.filter_append, hnone, List.nil_append,
      List.filter_cons_of_pos (htakes.current f rfl)]
  have hrests : loaded.2.SoundsCompute now loaded.1 (removed.filter s.isCurrent) ↔
      s.SoundsCompute now (s.wantedFrames out f.samples now).2 (removed.filter s.isCurrent) := by
    have hformat' := s.sameFormat_wantedFrames out f.samples now
    exact soundsCompute_congr ⟨hformat.spec.trans hformat'.spec.symm,
      hformat.target.trans hformat'.target.symm⟩ hcorrector hwanted hcomputes now _
  refine ⟨stale, ?_, fun hs => ?_, fun hs => ?_, hsilent, fun hmute => ?_, ?_⟩
  · rw [hdrops, ← hqueued, hring]
    simp
  · rw [hfilter] at hs ⊢
    rw [hsound (hrests.2 hs.2), out.rest_of_used hused, hrest hs.1, hformat.silence,
      soundsOf_cons hformat hcorrector hwanted, Array.empty_append]
    rfl
  · rw [hfilter] at hs ⊢
    rw [hmetrics (hrests.2 hs.2), hcounted hs.1, hformat.refusals, Metrics.recordSound_add,
      List.length_cons, out.refusals_cons f (removed.filter s.isCurrent)]
  · -- a mute ring gives no frame
    obtain ⟨-, hsame⟩ := htakes.still hmute
    have hlength := congrArg List.length hdrops
    rw [hsame, List.length_append, List.length_append, Option.toList_some,
      List.length_singleton] at hlength
    omega
  · rw [hfilter, hoverflow, hoverflowed, hrests, or_assoc]
    simp only [SoundsCompute, not_and_or]

/-- The ring gives no sound, and the next block is silence. -/
theorem Accounts.load_silence {taken : Session host} {removed : List (AudioFrame S)}
    {silences : Nat} {bytes : Bytes} (hused : out.unread = 0) (htakes : s.TakesSound none taken)
    (h : Accounts now { taken with metrics := taken.metrics.recordSilence }
      (out.load (out.silence AudioOutput.silenceBytes)) bytes out' s' removed silences) :
    ∃ stale, Accounts now s out bytes out' s' stale (silences + 1) := by
  obtain ⟨stale, hstale, hdrops⟩ := htakes.drops
  obtain ⟨hring, hsound, hmetrics, hsilent, hstill, hoverflow⟩ := h
  obtain ⟨rfl, hmute⟩ := hstill (htakes.exhausts rfl)
  have hnone : stale.filter s.isCurrent = [] :=
    List.filter_eq_nil_iff.2 fun x hx => by simp [hstale x hx]
  refine ⟨stale, ?_, fun _ => ?_, fun _ => ?_, fun _ => hmute, fun hmute' => ⟨?_, hmute⟩, ?_⟩
  · rw [hdrops, Option.toList_none, List.append_nil]
    exact congrArg _ hring
  · rw [hnone, hsound trivial, out.rest_of_used hused, AudioOutput.rest_load, Array.empty_append]
    rfl
  · have hcounted : taken.metrics.recordSilence = s.metrics.recordSound 0 0 1 := by
      rw [htakes.metrics_eq]
      rfl
    rw [hnone, hmetrics trivial]
    dsimp only
    rw [hcounted]
    simp [Metrics.recordSound, AudioOutput.refusals]
    omega
  · obtain ⟨-, hsame⟩ := htakes.still hmute'
    rw [hsame, Option.toList_none, List.append_nil] at hdrops
    exact List.append_left_eq_self.1 hdrops.symm
  · rw [hnone, hoverflow]
    exact Iff.rfl

theorem soundInOrder_convertFrame (h : s.SoundInOrder) (out : AudioOutput S) (f : AudioFrame S)
    (now : S) : (s.convertFrame out f now).2.SoundInOrder :=
  h.of_flows (flows_convertFrame out f) rfl

/-- Every byte that is played is accounted for. -/
theorem Emits.accounts {bytes : Bytes} (h : Emits now s out bytes out' s')
    (horder : s.SoundInOrder) :
    ∃ removed silences, Accounts now s out bytes out' s' removed silences := by
  induction h with
  | nothing => exact ⟨[], 0, accounts_nothing _ _ _⟩
  | play _ _ ih =>
    obtain ⟨removed, silences, hrest⟩ := ih horder
    exact ⟨removed, silences, hrest.play⟩
  | @load s s' out out' bytes hused _ _ ih =>
    have htakes := takesSound_takeSound horder
    unfold loadBlock at ih
    generalize s.takeSound = result at ih htakes
    obtain ⟨taken, t⟩ := result
    cases taken with
    | some f =>
      obtain ⟨removed, silences, hrest⟩ := ih (soundInOrder_convertFrame htakes.order out f now)
      obtain ⟨stale, haccounts⟩ := hrest.load_frame hused htakes
      exact ⟨_, silences, haccounts⟩
    | none =>
      obtain ⟨removed, silences, hrest⟩ := ih htakes.order
      obtain ⟨stale, haccounts⟩ := hrest.load_silence hused htakes
      exact ⟨stale, silences + 1, haccounts⟩

theorem Emits.sameFormat {bytes : Bytes} (h : Emits now s out bytes out' s') :
    out.SameFormat out' := by
  induction h with
  | nothing => exact ⟨rfl, rfl⟩
  | play _ _ ih => exact ⟨ih.spec, ih.target⟩
  | @load s s' out out' bytes hused _ _ ih =>
    have hload : out.SameFormat (s.loadBlock out now).1 := by
      unfold loadBlock
      split
      · exact (convertFrame_spec ..).1
      · exact ⟨rfl, rfl⟩
    exact ⟨ih.spec.trans hload.spec, ih.target.trans hload.target⟩

/-- The clocks tell nothing about the ring. -/
theorem sound_withClocks (s : Session host) (audio external : Clock S) :
    (s.withClocks audio external).queuedSound = s.queuedSound ∧
      (s.Mute → (s.withClocks audio external).Mute) := by
  unfold queuedSound Mute withClocks onAudio audioStream
  cases s.audio with
  | none => exact ⟨rfl, id⟩
  | some p => exact ⟨rfl, fun hmute => hmute.imp id fun hring a ha =>
      Option.some.inj ha ▸ hring p.stream rfl⟩

end Session

/-! ## Every fill -/

theorem Session.fill?_eq_some {S : Type} [Scalar S] {host : Host S} {s : Session host}
    {count volume : Nat} {now : S} {r : Bytes × Session host}
    (h : s.fill? count volume now = some r) : s.fill count volume now = r := by
  unfold fill? at h
  dsimp only at h
  split at h
  · exact Option.some.inj h
  · cases h

theorem Session.fill?_eq_none_iff {S : Type} [Scalar S] {host : Host S} {s : Session host}
    {count volume : Nat} {now : S} {out' : AudioOutput S}
    (hout : (s.fill count volume now).2.output = some out') :
    s.fill? count volume now = none ↔
      out'.overflowed = true ∨ ¬(s.fill count volume now).2.HearComputes out' := by
  unfold fill?
  dsimp only
  rw [hout, Option.all_some]
  by_cases hoverflowed : out'.overflowed = true <;> simp [hoverflowed]

theorem Session.Emits.overflowed {S : Type} [Scalar S] {host : Host S} {s s' : Session host}
    {out out' : AudioOutput S} {now : S} {bytes : Bytes} (h : Emits now s out bytes out' s')
    (hfailed : out.overflowed = true) : out'.overflowed = true := by
  induction h with
  | nothing => exact hfailed
  | play _ _ ih => exact ih hfailed
  | @load s s' out out' bytes _ _ _ ih =>
    refine ih ?_
    unfold loadBlock
    split
    · rename_i f t _
      exact (t.overflowed_convertFrame out f now).2 (.inl hfailed)
    · exact hfailed

/-- A fill fails if 64 bits do not hold what its first frame is played with. -/
theorem Session.fill?_eq_none_of_first {S : Type} [Scalar S] {host : Host S} {s : Session host}
    {out : AudioOutput S} {f : AudioFrame S} {count volume : Nat} {now : S}
    (hout : s.output = some out) (hused : out.unread = 0) (hcount : 0 < count)
    (hfirst : s.takeSound.1 = some f) (hfails : ¬s.takeSound.2.BlockComputes out f.samples now) :
    s.fill? count volume now = none := by
  obtain ⟨raw, out', played, hsize, hemits, -, audio, external, hsession⟩ :=
    emits_fill hout count volume now
  refine (fill?_eq_none_iff (by rw [hsession]; rfl)).2 (.inl ?_)
  cases hemits with
  | nothing => exact absurd hsize (Nat.ne_of_lt hcount)
  | play hunread => omega
  | load _ _ hrest =>
    refine hrest.overflowed ?_
    unfold loadBlock
    generalize s.takeSound = result at hfirst hfails ⊢
    obtain ⟨_ | f', t⟩ := result
    · cases hfirst
    · obtain rfl : f' = f := Option.some.inj hfirst
      exact (t.overflowed_convertFrame out f' now).2 (.inr hfails)

/-- The audio device's callback. Whatever the ring of sound holds, it ends, and it fills the buffer.
Where there is no device the buffer is silent. Otherwise the bytes before the volume is applied, and
after them what is left of the last block, are those that were left before, then the frames of the
current epoch that were taken from the ring, each converted or, if it cannot be, replaced by
silence, and then blocks of silence. The frames were removed from the front of the ring, and only
such of other epochs with them; frames, refusals and blocks of silence are each counted once. There
is silence only if the ring gives no sound any more.

The callback fails exactly if 64 bits do not hold what one of these frames is played with, or the
number of bytes that are still to be heard where the audio clock is set from it. All that is said of
the bytes and of the counts is said of a callback that does not fail.

The ring is in order in every session that was opened. -/
theorem fill_plays_the_ring {S : Type} [Scalar S] {host : Host S} {s : Session host}
    (hring : s.SoundInOrder) (count volume : Nat) (now : S) :
    let data := (s.fill count volume now).1
    let s' := (s.fill count volume now).2
    data.size = count ∧
    (∀ r, s.fill? count volume now = some r → r = (data, s')) ∧
    (s.output = none → data = Array.replicate count 0 ∧ s' = s ∧
      s.fill? count volume now = some (data, s')) ∧
    ∀ out, s.output = some out → ∃ raw out' played removed silences,
      raw.size = count ∧ Session.Emits now s out raw out' played ∧
      data = Pcm.applyVolume out.spec.format volume raw ∧ s'.output = some out' ∧
      s.queuedSound = removed ++ s'.queuedSound ∧
      let taken := removed.filter s.isCurrent
      (out.overflowed = false → (s.fill? count volume now = none ↔
        ¬(s.SoundsCompute now out taken ∧ s'.HearComputes out'))) ∧
      (s.SoundsCompute now out taken →
        raw ++ out'.rest = out.rest ++ joined (s.soundsOf now out taken ++
          List.replicate silences (out.silence AudioOutput.silenceBytes)) ∧
        s'.metrics = s.metrics.recordSound taken.length (out.refusals taken) silences) ∧
      (0 < silences → s'.Mute) ∧ (s.Mute → removed = []) := by
  intro data s'
  have hsame (r : Bytes × Session host) (hr : s.fill? count volume now = some r) :
      r = (data, s') := (Session.fill?_eq_some hr).symm
  cases hout : s.output with
  | none =>
    have hfill : s.fill count volume now = (Array.replicate count 0, s) := by
      unfold Session.fill
      rw [hout]
    have hdata : data = Array.replicate count 0 := congrArg Prod.fst hfill
    have hleft : s' = s := congrArg Prod.snd hfill
    refine ⟨?_, hsame, fun _ => ⟨hdata, hleft, ?_⟩, nofun⟩
    · rw [hdata, Array.size_replicate]
    · have hall : s'.output.all (fun out => !out.overflowed && s'.HearComputes out) = true := by
        rw [hleft, hout]
        rfl
      exact if_pos hall
  | some out =>
    obtain ⟨raw, out', played, hsize, hemits, hdata, audio, external, hsession⟩ :=
      Session.emits_fill hout count volume now
    obtain ⟨removed, silences, haccounts⟩ := hemits.accounts hring
    obtain ⟨hqueued, hmute⟩ :=
      ({ played with output := some out' } : Session host).sound_withClocks audio external
    replace hdata : data = _ := hdata
    replace hsession : s' = _ := hsession
    rw [← hsession] at hqueued hmute
    have hout' : s'.output = some out' := by
      rw [hsession]
      rfl
    refine ⟨?_, hsame, nofun, fun o ho => ?_⟩
    · rw [hdata, Pcm.size_applyVolume, hsize]
    · obtain rfl : out = o := Option.some.inj ho
      refine ⟨raw, out', played, removed, silences, hsize, hemits, ?_, hout', ?_, fun hclear => ?_,
        fun hs => ⟨haccounts.sound hs, ?_⟩, fun hsilences => hmute (haccounts.silent hsilences),
        fun hs => (haccounts.still hs).1⟩
      · rw [hdata, hemits.sameFormat.spec]
      · rw [hqueued]
        exact haccounts.ring
      · have hnoted : out'.overflowed = true ↔
            ¬s.SoundsCompute now out (removed.filter s.isCurrent) := by
          rw [haccounts.overflow, hclear]
          simp
        rw [Session.fill?_eq_none_iff hout', hnoted, not_and_or]
      · rw [hsession]
        exact haccounts.metrics hs

namespace OddBlocks

/-- A packet with a block that is said to have so many frames. It has two. -/
def row (n count : Nat) : ScriptRow :=
  { PictureAndSound.sound n with
    blocks :=
      [{samples :=
          { rate := 8, channels := 1, layout := 4, format := .s16, count := count
            data := #[1, 2, 3, 4] }
        pts := some n
        pos := none }] }

/-- A block in order, an empty one, and one that is too short. -/
def host : Host Rat :=
  Host.scripted (PictureAndSound.script #[.row (row 0 2), .row (row 1 0), .row (row 2 3)]) {}

/-- The first block is decoded, a seek leads back to the start, and all blocks are decoded. -/
def sought : List (Rat × Session.Action) :=
  [(0, .start), (0, .readerTurn), (0, .audioStep), (0, .audioStep), (0, .seek 0)] ++
    List.replicate 4 (0, .readerTurn) ++ List.replicate 6 (0, .audioStep)

end OddBlocks

/-- A frame of the epoch before a seek waits in front of three others, of which one is empty and one
is too short. -/
theorem fill_plays_the_ring_sought :
    ∃ s, Session.open OddBlocks.host "" { disableVideo := true } (0 : Nat) 0 = .ok s ∧
      let p := s.run OddBlocks.sought
      let p' := (p.fill 11 50 1).2
      p.SoundInOrder ∧ p.queuedSound.map (·.serial) = [1, 2, 2, 2] ∧
        p.fill? 11 50 1 = some (p.fill 11 50 1) ∧ (p.fill 11 50 1).1.size = 11 ∧
        (∃ removed silences out, p.output = some out ∧ out.overflowed = false ∧
          p.queuedSound = removed ++ p'.queuedSound ∧
          p.SoundsCompute 1 out (removed.filter p.isCurrent) ∧
          p'.metrics = p.metrics.recordSound (removed.filter p.isCurrent).length
            (AudioOutput.refusals out (removed.filter p.isCurrent)) silences) ∧
        p'.queuedSound = [] ∧ p'.metrics.audioFrames = 3 ∧ p'.metrics.conversionErrors = 1 ∧
        p'.metrics.silences = 1 := by
  have hopen : ∃ s, Session.open OddBlocks.host "" { disableVideo := true } (0 : Nat) 0 = .ok s ∧
      let p := s.run OddBlocks.sought
      let p' := (p.fill 11 50 1).2
      p.output.any (!·.overflowed) = true ∧ p.queuedSound.map (·.serial) = [1, 2, 2, 2] ∧
        (p.fill? 11 50 1).isSome = true ∧ p'.queuedSound.isEmpty = true ∧
        p'.metrics.audioFrames = 3 ∧ p'.metrics.conversionErrors = 1 ∧ p'.metrics.silences = 1 :=
    ⟨_, rfl, by decide +kernel⟩
  obtain ⟨s, hs, hout, hserials, hfills, hempty, hframes, herrors, hsilences⟩ := hopen
  have hring : (s.run OddBlocks.sought).SoundInOrder :=
    ((Session.InOrder.start hs).run OddBlocks.sought).sound
  obtain ⟨out, hout, hclear⟩ := (Option.any_eq_true ..).1 hout
  rw [Bool.not_eq_true'] at hclear
  obtain ⟨r, hr⟩ := Option.isSome_iff_exists.1 hfills
  obtain ⟨hsize, hsame, -, hplays⟩ := fill_plays_the_ring hring 11 50 1
  obtain ⟨raw, out', played, removed, silences, -, -, -, -, hremoved, hfails, hsound, -⟩ :=
    hplays out hout
  have hcomputes := mt (hfails hclear).2 (by rw [hr]; exact Option.some_ne_none r)
  obtain ⟨hcomputes, -⟩ := not_not.1 hcomputes
  exact ⟨s, hs, hring, hserials, by rw [hr, hsame r hr], hsize,
    ⟨removed, silences, out, hout, hclear, hremoved, hcomputes, (hsound hcomputes).2⟩,
    List.isEmpty_iff.1 hempty, hframes, herrors, hsilences⟩

namespace OddBlocks

/-- A block that is said to have so many frames that 64 bits do not hold the number of their bytes
is decoded. -/
def oversized : List (Rat × Session.Action) :=
  [(0, .start), (0, .readerTurn), (0, .audioStep), (0, .audioStep)]

end OddBlocks

open OddBlocks in
/-- A block that is too short waits in the ring, but the callback that takes it fails. -/
theorem fill_overflows :
    ∃ s, Session.open (Host.scripted (PictureAndSound.script #[.row (row 0 (2 ^ 63))]) {}) ""
        { disableVideo := true } (0 : Nat) 0 = .ok s ∧
      let p := s.run oversized
      p.SoundInOrder ∧ p.paused = false ∧
        p.queuedSound.map (fun f => (f.samples.count, f.samples.data.size)) = [(2 ^ 63, 4)] ∧
        p.fill? 8 100 1 = none := by
  have hopen : ∃ s, Session.open
        (Host.scripted (PictureAndSound.script #[.row (row 0 (2 ^ 63))]) {}) ""
        { disableVideo := true } (0 : Nat) 0 = .ok s ∧
      let p := s.run oversized
      p.paused = false ∧
        p.queuedSound.map (fun f => (f.samples.count, f.samples.data.size)) = [(2 ^ 63, 4)] ∧
        p.output.any (fun out => out.unread = 0 &&
          p.takeSound.1.any fun f => !decide (p.takeSound.2.BlockComputes out f.samples 1)) =
            true :=
    ⟨_, rfl, by decide +kernel⟩
  obtain ⟨s, hs, hpaused, hqueued, hfirst⟩ := hopen
  have hring : (s.run oversized).SoundInOrder := ((Session.InOrder.start hs).run oversized).sound
  obtain ⟨out, hout, hfirst⟩ := (Option.any_eq_true ..).1 hfirst
  obtain ⟨hunread, hfirst⟩ := Bool.and_eq_true_iff.1 hfirst
  obtain ⟨f, hf, hfails⟩ := (Option.any_eq_true ..).1 hfirst
  refine ⟨s, hs, hring, hpaused, hqueued, ?_⟩
  refine Session.fill?_eq_none_of_first hout (of_decide_eq_true hunread) (by decide) hf ?_
  simpa using hfails

end Playback
