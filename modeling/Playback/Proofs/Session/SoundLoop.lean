import Playback.Proofs.Session.Consumption

/-!
# The loop of a fill

The device's side plays the bytes of a block one after the other and starts the next block when it
is used up. `Session.Emits` tells which bytes are played this way, whatever their number. The
loop of a fill does just this, block by block, and ends because the buffer is full (`emits_fill`).

Bytes may be played in two goes (`Emits.append`), and all that happens is settled by their number
(`Emits.unique`).
-/

namespace Playback

/-! ## The block that is being played -/

namespace AudioOutput

variable {S : Type} {out : AudioOutput S} {m n : Nat}

/-- The bytes of the block that are still to be played. -/
def rest (out : AudioOutput S) : Bytes :=
  out.block.extract out.index out.block.size

theorem size_rest (out : AudioOutput S) : out.rest.size = out.unread := by
  simp [rest, unread]

theorem rest_of_used (h : out.unread = 0) : out.rest = #[] := by
  rw [← Array.size_eq_zero_iff, size_rest, h]

theorem rest_of_fresh (h : out.index = 0) : out.rest = out.block := by
  simp [rest, h]

theorem rest_load (out : AudioOutput S) (block : Bytes) : (out.load block).rest = block :=
  rest_of_fresh rfl

theorem play_of_le (h : n ≤ out.unread) :
    out.play n =
      (out.block.extract out.index (out.index + n), { out with index := out.index + n }) := by
  rw [play, Nat.min_eq_left h]

theorem play_min (out : AudioOutput S) (n : Nat) : out.play (min n out.unread) = out.play n := by
  unfold play
  rw [Nat.min_assoc, Nat.min_self]

theorem size_play (out : AudioOutput S) (n : Nat) : (out.play n).1.size = min n out.unread := by
  unfold play unread
  simp
  omega

theorem size_play_one (hunread : 0 < out.unread) : (out.play 1).1.size = 1 := by
  rw [size_play]
  omega

theorem unread_play (out : AudioOutput S) (n : Nat) :
    (out.play n).2.unread = out.unread - min n out.unread := by
  unfold play unread
  dsimp only
  omega

theorem play_append_rest (out : AudioOutput S) (n : Nat) :
    (out.play n).1 ++ (out.play n).2.rest = out.rest := by
  rw [← play_min, play_of_le (Nat.min_le_right ..)]
  unfold rest unread
  dsimp only
  rw [Array.extract_append_extract, Nat.min_eq_left (Nat.le_add_right ..)]
  rcases Nat.le_or_le out.index out.block.size with hle | hge
  · rw [Nat.max_eq_right (by omega)]
  · rw [Array.extract_eq_empty_of_le (by omega), Array.extract_eq_empty_of_le (by omega)]

/-- Bytes of a block may be played in two goes. -/
theorem play_add (h : m + n ≤ out.unread) :
    out.play (m + n) =
      ((out.play m).1 ++ ((out.play m).2.play n).1, ((out.play m).2.play n).2) := by
  have hm : m ≤ out.unread := by omega
  have hn : n ≤ (out.play m).2.unread := by
    rw [unread_play]
    omega
  rw [play_of_le hn, play_of_le h, play_of_le hm]
  dsimp only
  rw [Array.extract_append_extract]
  congr 2 <;> omega

/-- A block of silence is not empty. -/
theorem size_silence_pos (out : AudioOutput S) (length : Nat) :
    0 < (out.silence length).size := by
  unfold silence
  rw [Array.size_replicate]
  exact Nat.mul_pos (by omega) (by omega)

end AudioOutput

theorem FrameRing.remaining_takeFirst {α : Type} (p : α → Bool) (n : Nat) (r : FrameRing α) :
    (r.takeFirst p n).2.remaining + (r.takeFirst p n).1.toList.length ≤ r.remaining := by
  induction n generalizing r with
  | zero => exact Nat.le_refl _
  | succ n ih =>
    unfold takeFirst
    cases havailable : r.available? with
    | none => exact Nat.le_refl _
    | some x =>
      have hsome : 0 < r.remaining := by
        unfold available? next? at havailable
        unfold remaining
        split_ifs at havailable
        omega
      have hadvance := r.remaining_advance
      dsimp only
      split
      · show r.advance.remaining + 1 ≤ r.remaining
        omega
      · have := ih r.advance
        omega

namespace Session

variable {S : Type} [Scalar S] {host : Host S} {s s' s'' : Session host}
  {out out' out'' : AudioOutput S} {now : S} {bytes a b : Bytes} {n : Nat}

/-- The device's side plays some bytes. -/
inductive Emits (now : S) :
    Session host → AudioOutput S → Bytes → AudioOutput S → Session host → Prop
  | nothing {s : Session host} {out : AudioOutput S} : Emits now s out #[] out s
  /-- The block is used up, and the next one is started. -/
  | load {s s' : Session host} {out out' : AudioOutput S} {bytes : Bytes} (hused : out.unread = 0)
      (hmore : 0 < bytes.size)
      (rest : Emits now (s.loadBlock out now).2 (s.loadBlock out now).1 bytes out' s') :
      Emits now s out bytes out' s'
  /-- The next byte of the block is played. -/
  | play {s s' : Session host} {out out' : AudioOutput S} {bytes : Bytes} (hunread : 0 < out.unread)
      (rest : Emits now s (out.play 1).2 bytes out' s') :
      Emits now s out ((out.play 1).1 ++ bytes) out' s'

namespace Emits

theorem append (h : Emits now s out a out' s') (h' : Emits now s' out' b out'' s'') :
    Emits now s out (a ++ b) out'' s'' := by
  induction h with
  | nothing =>
    rw [Array.empty_append]
    exact h'
  | load hused hmore _ ih =>
    refine .load hused ?_ (ih h')
    rw [Array.size_append]
    omega
  | play hunread _ ih =>
    rw [Array.append_assoc]
    exact .play hunread (ih h')

/-- What is played is settled by the number of bytes. -/
theorem unique (h : Emits now s out a out' s') (h' : Emits now s out b out'' s'')
    (hsize : a.size = b.size) : a = b ∧ out' = out'' ∧ s' = s'' := by
  induction h generalizing b with
  | nothing =>
    cases h' with
    | nothing => exact ⟨rfl, rfl, rfl⟩
    | load _ hmore => exact absurd hsize.symm (Nat.ne_of_gt hmore)
    | play hunread _ =>
      rw [Array.size_append, AudioOutput.size_play_one hunread, Array.size_empty] at hsize
      omega
  | load hused hmore _ ih =>
    cases h' with
    | nothing => exact absurd hsize (Nat.ne_of_gt hmore)
    | load _ _ rest => exact ih rest hsize
    | play hunread _ => omega
  | play hunread _ ih =>
    rw [Array.size_append, AudioOutput.size_play_one hunread] at hsize
    cases h' with
    | nothing =>
      rw [Array.size_empty] at hsize
      omega
    | load hused _ _ => omega
    | play _ rest =>
      rw [Array.size_append, AudioOutput.size_play_one hunread] at hsize
      obtain ⟨rfl, rfl, rfl⟩ := ih rest (by omega)
      exact ⟨rfl, rfl, rfl⟩

/-- Several bytes of the block are played at once. -/
theorem plays (hn : n ≤ out.unread) (rest : Emits now s (out.play n).2 bytes out' s') :
    Emits now s out ((out.play n).1 ++ bytes) out' s' := by
  induction n generalizing bytes with
  | zero =>
    rw [AudioOutput.play_of_le hn] at rest ⊢
    rw [Nat.add_zero, Array.extract_eq_empty_of_le (Nat.min_le_left ..), Array.empty_append]
    exact rest
  | succ n ih =>
    rw [AudioOutput.play_add hn] at rest ⊢
    rw [Array.append_assoc]
    refine ih (by omega) (.play ?_ rest)
    rw [AudioOutput.unread_play]
    omega

/-- So many bytes are played at most, and at least one if there is any. -/
theorem playsUpTo (rest : Emits now s (out.play n).2 bytes out' s') :
    Emits now s out ((out.play n).1 ++ bytes) out' s' := by
  rw [← AudioOutput.play_min] at rest ⊢
  exact plays (Nat.min_le_right ..) rest

end Emits

/-! ## The loop -/

/-- The number of frames of sound that wait in the ring. -/
def soundCount (s : Session host) : Nat :=
  (s.audioStream.map (·.frames.remaining)).getD 0

theorem soundCount_eq (s : Session host) :
    s.soundCount = (s.flows.audio.map (·.frames.remaining)).getD 0 := by
  unfold soundCount audioStream flows
  cases s.audio <;> rfl

theorem soundCount_takeSound (s : Session host) :
    s.takeSound.2.soundCount + s.takeSound.1.toList.length ≤ s.soundCount := by
  unfold takeSound soundCount audioStream
  cases haudio : s.audio with
  | none => simp [haudio]
  | some p =>
    simp only [Option.map_some]
    split
    · simp [haudio]
    · have htake := p.stream.frames.remaining_takeFirst
        (fun frame => frame.serial = p.stream.packets.serial) p.stream.frames.remaining
      simpa [onAudio, haudio] using htake

/-- A block that is started has bytes, or it was taken from the ring. -/
theorem loadBlock_progress (s : Session host) (out : AudioOutput S) (now : S) :
    (s.loadBlock out now).2.soundCount ≤ s.soundCount ∧
      (0 < (s.loadBlock out now).1.unread ∨ (s.loadBlock out now).2.soundCount < s.soundCount) := by
  have hcount : (s.loadBlock out now).2.soundCount = s.takeSound.2.soundCount := by
    rw [soundCount_eq, soundCount_eq, flows_loadBlock]
  have htaken := s.soundCount_takeSound
  rw [hcount]
  refine ⟨by omega, ?_⟩
  cases hframe : s.takeSound.1 with
  | some frame =>
    rw [hframe, Option.toList_some, List.length_singleton] at htaken
    exact .inr (by omega)
  | none =>
    have hload : (s.loadBlock out now).1 = out.load (out.silence AudioOutput.silenceBytes) := by
      unfold loadBlock
      split
      · rename_i heq
        rw [heq] at hframe
        cases hframe
      · rfl
    rw [hload, ← AudioOutput.size_rest, AudioOutput.rest_load]
    exact .inl (out.size_silence_pos _)

/-- With as many rounds as bytes are missing and frames wait, the loop fills the buffer. -/
theorem emits_playUntil (count : Nat) (now : S) (n : Nat) (s : Session host) (out : AudioOutput S)
    (data : Bytes) (hsize : data.size ≤ count) (hn : count - data.size + s.soundCount ≤ n) :
    ∃ bytes, data.size + bytes.size = count ∧
      (playUntil count now n s out data).1 = data ++ bytes ∧
      Emits now s out bytes (playUntil count now n s out data).2.1
        (playUntil count now n s out data).2.2 := by
  induction n generalizing s out data with
  | zero => exact ⟨#[], by simp; omega, by simp [playUntil], .nothing⟩
  | succ n ih =>
    unfold playUntil
    by_cases hfull : count ≤ data.size
    · rw [if_pos hfull]
      exact ⟨#[], by simp; omega, by simp, .nothing⟩
    rw [if_neg hfull]
    -- a round plays a byte, or it has taken an empty block from the ring
    have hround (s' : Session host) (out' : AudioOutput S) (hle : s'.soundCount ≤ s.soundCount)
        (hprogress : 0 < out'.unread ∨ s'.soundCount < s.soundCount) :
        ∃ bytes, data.size + bytes.size = count ∧
          (playUntil count now n s' (out'.play (count - data.size)).2
            (data ++ (out'.play (count - data.size)).1)).1 = data ++ bytes ∧
          Emits now s' out' bytes
            (playUntil count now n s' (out'.play (count - data.size)).2
              (data ++ (out'.play (count - data.size)).1)).2.1
            (playUntil count now n s' (out'.play (count - data.size)).2
              (data ++ (out'.play (count - data.size)).1)).2.2 := by
      have hpart := out'.size_play (count - data.size)
      obtain ⟨bytes, hbytes, hdata, hemits⟩ := ih s' (out'.play (count - data.size)).2
        (data ++ (out'.play (count - data.size)).1) (by rw [Array.size_append]; omega)
        (by rw [Array.size_append]; omega)
      rw [Array.size_append] at hbytes
      refine ⟨_, ?_, hdata.trans (Array.append_assoc ..), hemits.playsUpTo⟩
      rw [Array.size_append]
      omega
    by_cases hunread : out.unread = 0
    · simp only [if_pos hunread]
      obtain ⟨hle, hprogress⟩ := s.loadBlock_progress out now
      obtain ⟨bytes, hbytes, hdata, hemits⟩ := hround _ _ hle hprogress
      exact ⟨bytes, hbytes, hdata, .load hunread (by omega) hemits⟩
    · simp only [if_neg hunread]
      exact hround s out (Nat.le_refl _) (.inl (by omega))

/-! ## A fill -/

/-- The session with other clocks for sound. -/
def withClocks (s : Session host) (audio external : Clock S) : Session host :=
  { s.onAudio fun a => { a with clock := audio } with externalClock := external }

theorem withClocks_self (s : Session host) : ∃ audio external, s = s.withClocks audio external := by
  cases haudio : s.audio with
  | none =>
    have hsame (f) : s.audio.map f = s.audio := by rw [haudio]; rfl
    refine ⟨s.externalClock, s.externalClock, ?_⟩
    unfold withClocks onAudio
    rw [hsame]
  | some p =>
    refine ⟨p.stream.clock, s.externalClock, ?_⟩
    have hsame : (s.audio.map fun q =>
        { q with stream := { q.stream with clock := p.stream.clock } }) = s.audio := by
      rw [haudio]; rfl
    unfold withClocks onAudio
    rw [hsame]

/-- What is heard only tells what time it is. -/
theorem exists_hear (s : Session host) (out : AudioOutput S) (now : S) :
    ∃ audio external, s.hear out now = s.withClocks audio external := by
  unfold hear audioStream
  cases haudio : s.audio with
  | none => exact s.withClocks_self
  | some p =>
    cases out.clock with
    | none => exact s.withClocks_self
    | some stop =>
      dsimp only [Option.map_some]
      unfold withClocks onAudio
      rw [haudio]
      exact ⟨_, _, rfl⟩

/-- The loop of a fill ends because the buffer is full. -/
theorem emits_fill (hout : s.output = some out) (count volume : Nat) (now : S) :
    ∃ bytes out' s', bytes.size = count ∧ Emits now s out bytes out' s' ∧
      (s.fill count volume now).1 = Pcm.applyVolume out'.spec.format volume bytes ∧
      ∃ audio external, (s.fill count volume now).2 =
        ({ s' with output := some out' } : Session host).withClocks audio external := by
  obtain ⟨bytes, hsize, hdata, hemits⟩ := emits_playUntil count now (count + s.soundCount) s out #[]
    (Nat.zero_le _) (by simp)
  unfold fill
  rw [hout]
  change _ = #[] ++ bytes at hdata
  unfold soundCount at hdata hemits
  dsimp only
  generalize playUntil (S := S) _ _ _ _ _ _ = played at hdata hemits ⊢
  obtain ⟨data, out', s'⟩ := played
  rw [Array.empty_append] at hdata
  refine ⟨bytes, out', s', by simpa using hsize, hemits, congrArg _ hdata, ?_⟩
  dsimp only
  split
  · exact withClocks_self _
  · exact exists_hear _ out' now

end Session

end Playback
