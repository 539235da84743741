import Playback.Proofs.Session.RefreshLoop

/-!
# What is shown and what is heard

A refresh accepts at most one picture (`Session.accepted`), and a fill converts some blocks of
sound (`Session.converted`). Both take frames from the rings and leave everything else that flows
as it is. A picture that is accepted is the one that the ring has just moved to, and it was checked
against the epoch of the queue on the way (`accepted_spec`); so is every block that is converted
(`converted_spec`).
-/

namespace Playback

open FrameRing

namespace Flows

variable {S : Type} {host : Host S} (fs : Flows host)

theorem onSound_id : fs.onSound id = fs := by
  obtain ⟨v, _ | a, forced, aborted⟩ := fs <;> rfl

theorem onSound_comp (g g' : FrameRing (AudioFrame S) → FrameRing (AudioFrame S)) :
    (fs.onSound g').onSound g = fs.onSound (g ∘ g') := by
  obtain ⟨v, _ | a, forced, aborted⟩ := fs <;> rfl

end Flows

namespace Session

variable {S : Type} [Scalar S] {host : Host S} {s : Session host} {now : S}

/-! ## A refresh -/

/-- The picture that the ring has moved to during this refresh. -/
def movedTo (s : Session host) : Option (VideoFrame S) :=
  s.videoStream.bind fun v => if s.refreshForced && v.frames.shown then v.frames.last? else none

/-- The picture that a refresh accepts for display. -/
def accepted (s : Session host) (now : S) : Option (VideoFrame S) :=
  (s.looked now).2.movedTo

/-- The pictures that a refresh takes from the ring, in order, with their fates. -/
def passed (s : Session host) (now : S) : List (VideoFrame S × Fate) :=
  let s := s.adjusted now
  passes (s.pictures + 1) s s.options.refreshRate now

theorem looked_eq (s : Session host) (now : S) :
    s.looked now =
      advanceVideo ((s.adjusted now).pictures + 1) (s.adjusted now)
        (s.adjusted now).options.refreshRate now :=
  rfl

theorem adjusted_spec (s : Session host) (now : S) :
    (s.adjusted now).flows = s.flows ∧ (s.adjusted now).displayState = s.displayState := by
  unfold adjusted
  split
  · unfold adjustExternalSpeed
    dsimp only
    split <;> exact ⟨rfl, rfl⟩
  · exact ⟨rfl, rfl⟩

theorem loops_looked (hforced : s.refreshForced = false) (now : S) :
    Loops s (s.looked now).2 (s.passed now) := by
  obtain ⟨hflows, hdisplay⟩ := s.adjusted_spec now
  have hnot : (s.adjusted now).refreshForced = false := (congrArg Flows.forced hflows).trans hforced
  obtain ⟨hflows', hdisplay', hpassed⟩ :=
    loops_advanceVideo ((s.adjusted now).pictures + 1) (s.adjusted now)
      (s.adjusted now).options.refreshRate now hnot
  rw [hflows] at hflows' hpassed
  rw [hdisplay] at hdisplay'
  exact ⟨hflows', hdisplay', hpassed⟩

theorem flows_acceptPicture (now : S) : (s.acceptPicture now).flows = s.flows := by
  unfold acceptPicture
  split
  · rfl
  · split <;> rfl

theorem movedTo_eq (s : Session host) :
    s.movedTo = s.flows.video.bind fun v =>
      if s.flows.forced && v.frames.shown then v.frames.last? else none := by
  unfold movedTo videoStream flows
  cases s.video <;> rfl

/-- A picture that is accepted is of the current epoch, and has what all pictures of the ring have
in common. -/
theorem accepted_spec {f : VideoFrame S} {P : VideoFrame S → Prop}
    (hforced : s.refreshForced = false)
    (hring : ∀ v, s.flows.video = some v → v.frames.Carries P) (hf : s.accepted now = some f) :
    ∃ v, s.flows.video = some v ∧ f.serial = v.packets.serial ∧ P f := by
  obtain ⟨hflows, -, hpassed⟩ := loops_looked hforced now
  rw [accepted, movedTo_eq, hflows] at hf
  cases hv : s.flows.video with
  | none => simp [Flows.onPictures, hv] at hf
  | some v =>
    simp only [Flows.onPictures, hv, Option.map_some, Option.bind_some, Flow.onFrames] at hf
    split at hf
    · rename_i hboth
      obtain ⟨hany, hshown⟩ := Bool.and_eq_true_iff.1 hboth
      obtain ⟨passed, f', htaken, -, hserial, hnext⟩ := (hpassed v hv).of_shown hany
      have hlast : advance^[(s.passed now).length] v.frames =
          (advance^[passed.length] v.frames).advance := by
        rw [htaken, List.length_append, List.length_singleton, Function.iterate_succ_apply']
      rw [hlast] at hf hshown
      have hcarries := (advances_iterate passed.length).consumes _ _ (hring v hv)
      obtain rfl : f' = f := Option.some.inj ((hcarries.last?_advance hnext hshown).symm.trans hf)
      exact ⟨v, rfl, hserial, hcarries.of_next? hnext⟩
    · cases hf

/-- The picture that the ring has moved to is accepted in this refresh. -/
def accepts (s : Session host) : Bool :=
  s.refreshForced && s.videoStream.any (·.frames.shown)

theorem displayState_acceptPicture (s : Session host) (now : S) :
    (s.acceptPicture now).displayState =
      { s.displayState with
        pending := s.displayState.pending || s.accepts
        displayed := s.displayState.displayed + s.accepts.toNat } := by
  unfold acceptPicture accepts
  cases s.videoStream with
  | none => simp
  | some v =>
    rw [Option.any_some]
    dsimp only
    cases hboth : s.refreshForced && v.frames.shown with
    | true =>
      rw [if_pos rfl, Bool.or_true]
      split <;> rfl
    | false => simp

theorem flows_refresh_eq (hforced : s.refreshForced = false) (now : S) :
    (s.refresh now).2.flows = s.flows.onPictures advance^[(s.passed now).length] := by
  have haccept : (s.refresh now).2.flows = { (s.looked now).2.flows with forced := false } := by
    have hflows := flows_acceptPicture (s := (s.looked now).2) now
    rw [refresh_eq, ← hflows]
    rfl
  have hnot (g) : s.flows.onPictures g = { s.flows.onPictures g with forced := false } := by
    rw [← hforced]
    rfl
  rw [haccept, (loops_looked hforced now).flows]
  exact (hnot _).symm

theorem flows_refresh (hforced : s.refreshForced = false) (now : S) :
    ∃ g, Advances g ∧ (s.refresh now).2.flows = s.flows.onPictures g :=
  ⟨_, advances_iterate _, flows_refresh_eq hforced now⟩

theorem displayState_refresh (hforced : s.refreshForced = false) (now : S) :
    (s.refresh now).2.displayState =
      { s.displayState with
        pending := s.displayState.pending || (s.looked now).2.accepts
        lateDrops := s.displayState.lateDrops + (s.passed now).countP (·.2 = .late)
        displayed := s.displayState.displayed + (s.looked now).2.accepts.toNat } := by
  have hforget : (s.refresh now).2.displayState =
      ((s.looked now).2.acceptPicture now).displayState := rfl
  rw [hforget, displayState_acceptPicture, (loops_looked hforced now).display]

/-! ## A fill -/

/-- The blocks of sound that are converted until a buffer has `count` bytes. -/
def convertedUntil (count : Nat) (now : S) :
    Nat → Session host → AudioOutput S → Bytes → List (AudioFrame S)
  | 0, _, _, _ => []
  | n + 1, s, out, data =>
    if count ≤ data.size then []
    else
      let taken := if out.unread = 0 then s.takeSound.1.toList else []
      let (out, s) := if out.unread = 0 then s.loadBlock out now else (out, s)
      let (part, out) := out.play (count - data.size)
      taken ++ convertedUntil count now n s out (data ++ part)

/-- The blocks of sound that a fill converts, in order. -/
def converted (s : Session host) (count : Nat) (now : S) : List (AudioFrame S) :=
  match s.output with
  | none => []
  | some out =>
    convertedUntil count now (count + (s.audioStream.map (·.frames.remaining)).getD 0) s out #[]

theorem flows_convertFrame (out : AudioOutput S) (frame : AudioFrame S) :
    (s.convertFrame out frame now).2.flows = s.flows := by
  unfold convertFrame
  dsimp only
  split
  · split <;> rfl
  · rfl

theorem flows_takeSound (s : Session host) :
    ∃ g, Advances g ∧ s.takeSound.2.flows = s.flows.onSound g := by
  unfold takeSound audioStream
  cases ha : s.audio with
  | none => exact ⟨id, advances_id, (Flows.onSound_id _).symm⟩
  | some p =>
    simp only [Option.map_some]
    split
    · exact ⟨id, advances_id, (Flows.onSound_id _).symm⟩
    · refine ⟨_, advances_takeFirst (fun f => f.serial = p.stream.packets.serial)
        p.stream.frames.remaining, ?_⟩
      unfold flows onAudio Flows.onSound
      rw [ha]
      rfl

/-- A frame of sound that is taken is of the current epoch, and has what all frames of the ring
have in common. -/
theorem takeSound_spec {f : AudioFrame S} {P : AudioFrame S → Prop}
    (hring : ∀ a, s.flows.audio = some a → a.frames.Carries P) (hf : s.takeSound.1 = some f) :
    ∃ a, s.flows.audio = some a ∧ f.serial = a.packets.serial ∧ P f := by
  unfold takeSound audioStream at hf
  cases ha : s.audio with
  | none =>
    rw [ha] at hf
    cases hf
  | some p =>
    have hflow : s.flows.audio = some p.flow := by
      rw [flows, ha]
      rfl
    rw [ha] at hf
    simp only [Option.map_some] at hf
    split at hf
    · cases hf
    · obtain ⟨-, htaken⟩ := (hring p.flow hflow).takeFirst
        (fun f => f.serial = p.stream.packets.serial) p.stream.frames.remaining
      obtain ⟨hP, hserial⟩ := htaken f hf
      exact ⟨p.flow, hflow, of_decide_eq_true hserial, hP⟩

theorem flows_loadBlock (s : Session host) (out : AudioOutput S) (now : S) :
    (s.loadBlock out now).2.flows = s.takeSound.2.flows := by
  unfold loadBlock
  split
  · rename_i heq
    rw [flows_convertFrame, heq]
  · rename_i heq
    rw [heq]
    rfl

theorem flows_playUntil (count : Nat) (now : S) (n : Nat) (s : Session host) (out : AudioOutput S)
    (data : Bytes) :
    ∃ g, Advances g ∧ (playUntil count now n s out data).2.2.flows = s.flows.onSound g := by
  induction n generalizing s out data with
  | zero => exact ⟨id, advances_id, (Flows.onSound_id _).symm⟩
  | succ n ih =>
    unfold playUntil
    split
    · exact ⟨id, advances_id, (Flows.onSound_id _).symm⟩
    by_cases hunread : out.unread = 0
    · simp only [if_pos hunread]
      obtain ⟨g, hg, hflows⟩ := ih (s.loadBlock out now).2
        ((s.loadBlock out now).1.play (count - data.size)).2
        (data ++ ((s.loadBlock out now).1.play (count - data.size)).1)
      obtain ⟨g', hg', htaken⟩ := s.flows_takeSound
      refine ⟨g ∘ g', hg.comp hg', hflows.trans ?_⟩
      rw [flows_loadBlock, htaken, Flows.onSound_comp]
    · simp only [if_neg hunread]
      exact ih s (out.play (count - data.size)).2 (data ++ (out.play (count - data.size)).1)

theorem convertedUntil_spec {P : AudioFrame S → Prop} (count : Nat) (now : S) (n : Nat)
    (s : Session host) (out : AudioOutput S) (data : Bytes)
    (hring : ∀ a, s.flows.audio = some a → a.frames.Carries P) :
    ∀ f ∈ convertedUntil count now n s out data,
      ∃ a, s.flows.audio = some a ∧ f.serial = a.packets.serial ∧ P f := by
  induction n generalizing s out data with
  | zero => exact nofun
  | succ n ih =>
    unfold convertedUntil
    split
    · exact nofun
    by_cases hunread : out.unread = 0
    · simp only [if_pos hunread]
      obtain ⟨g, hg, htaken⟩ := s.flows_takeSound
      have hflows : (s.loadBlock out now).2.flows = s.flows.onSound g :=
        (s.flows_loadBlock out now).trans htaken
      intro f hf
      rcases List.mem_append.1 hf with hf | hf
      · exact takeSound_spec hring (Option.mem_toList.1 hf)
      · obtain ⟨a, ha, hserial, hP⟩ := ih (s.loadBlock out now).2 _ _ (fun a ha => by
          rw [hflows] at ha
          obtain ⟨a', ha', rfl⟩ := Option.map_eq_some_iff.1 ha
          exact hg.consumes _ _ (hring a' ha')) f hf
        rw [hflows] at ha
        obtain ⟨a', ha', rfl⟩ := Option.map_eq_some_iff.1 ha
        exact ⟨a', ha', hserial, hP⟩
    · simp only [if_neg hunread, List.nil_append]
      exact ih s _ _ hring

theorem flows_hear (s : Session host) (out : AudioOutput S) (now : S) :
    (s.hear out now).flows = s.flows := by
  have hclock (stop : S) : (s.onAudio fun a =>
      { a with clock := a.clock.setAt stop out.clockSerial now }).flows = s.flows :=
    flows_onAudio fun a => ⟨rfl, rfl, rfl⟩
  unfold hear
  split
  · dsimp only
    split
    · exact hclock _
    · exact hclock _
  · rfl

/-- A fill takes frames of sound, and nothing else. -/
theorem flows_fill (s : Session host) (count volume : Nat) (now : S) :
    ∃ g, Advances g ∧ (s.fill count volume now).2.flows = s.flows.onSound g := by
  unfold fill
  split
  · exact ⟨id, advances_id, (Flows.onSound_id _).symm⟩
  · rename_i out _
    obtain ⟨g, hg, hflows⟩ := flows_playUntil count now
      (count + (s.audioStream.map (·.frames.remaining)).getD 0) s out #[]
    refine ⟨g, hg, ?_⟩
    dsimp only
    split
    · exact hflows
    · exact (flows_hear _ _ now).trans hflows

/-- A block that is converted is of the current epoch, and has what all frames of the ring have in
common. -/
theorem converted_spec {P : AudioFrame S → Prop} {count : Nat}
    (hring : ∀ a, s.flows.audio = some a → a.frames.Carries P) :
    ∀ f ∈ s.converted count now,
      ∃ a, s.flows.audio = some a ∧ f.serial = a.packets.serial ∧ P f := by
  unfold converted
  split
  · exact nofun
  · exact convertedUntil_spec count now _ s _ _ hring

theorem audioFrames_loadBlock (s : Session host) (out : AudioOutput S) (now : S) :
    (s.loadBlock out now).2.metrics.audioFrames =
      s.metrics.audioFrames + s.takeSound.1.toList.length := by
  have htaken : s.takeSound.2.metrics = s.metrics := by
    unfold takeSound
    split
    · rfl
    · split <;> rfl
  unfold loadBlock
  split
  · rename_i frame s' heq
    rw [heq] at htaken ⊢
    have hconvert : (s'.convertFrame out frame now).2.metrics.audioFrames =
        s'.metrics.audioFrames + 1 := by
      unfold convertFrame
      dsimp only
      split
      · split <;> rfl
      · rfl
    rw [hconvert, htaken]
    rfl
  · rename_i s' heq
    rw [heq] at htaken ⊢
    rw [← htaken]
    rfl

theorem audioFrames_playUntil (count : Nat) (now : S) (n : Nat) (s : Session host)
    (out : AudioOutput S) (data : Bytes) :
    (playUntil count now n s out data).2.2.metrics.audioFrames =
      s.metrics.audioFrames + (convertedUntil count now n s out data).length := by
  induction n generalizing s out data with
  | zero => rfl
  | succ n ih =>
    unfold playUntil convertedUntil
    split
    · rfl
    by_cases hunread : out.unread = 0
    · simp only [if_pos hunread]
      rw [ih, audioFrames_loadBlock, List.length_append, Nat.add_assoc]
    · simp only [if_neg hunread, List.nil_append]
      exact ih s _ _

/-- The blocks that are converted are those that are counted. -/
theorem audioFrames_fill (s : Session host) (count volume : Nat) (now : S) :
    (s.fill count volume now).2.metrics.audioFrames =
      s.metrics.audioFrames + (s.converted count now).length := by
  have hhear (s : Session host) (out : AudioOutput S) : (s.hear out now).metrics = s.metrics := by
    unfold hear
    split
    · dsimp only
      split <;> rfl
    · rfl
  unfold fill converted
  cases s.output with
  | none => rfl
  | some out =>
    have hplay := audioFrames_playUntil count now
      (count + (s.audioStream.map (·.frames.remaining)).getD 0) s out #[]
    dsimp only
    split
    · exact hplay
    · rw [hhear]
      exact hplay

end Session

end Playback
