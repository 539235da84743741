import Playback.Proofs.Session.PictureLooks

/-!
# What display, sound and requests leave alone

A request for a seek is only noted (`request_eq`). Much of a session is not concerned by what a
refresh or a fill does either, however many pictures and blocks of sound it takes. To see that
something is not, it is enough to go through the few changes that a refresh is made of
(`KeptByRefresh`), or a fill (`KeptByFill`).
-/

namespace Playback

namespace Session

variable {S : Type} [Scalar S] {host : Host S} {s : Session host} {now : S}

/-! ## A request for a seek -/

/-- The user has asked for something that may make the reader seek. -/
def Action.isRequest : Action → Bool
  | .seek _ | .seekChapter _ | .nextChunk | .previousChunk => true
  | _ => false

/-- A request for a seek is noted, and nothing else is done. -/
theorem request_eq {action : Action} (h : action.isRequest = true) (s : Session host) (now : S) :
    ∃ pending target, s.perform now action =
      { s with seekPending := pending, lastSeekTarget := target } := by
  have hnoted (target relative : Int) (byBytes : Bool) : ∃ pending last,
      s.requestSeek target relative byBytes =
        { s with seekPending := pending, lastSeekTarget := last } := by
    unfold requestSeek
    split
    · exact ⟨s.seekPending, s.lastSeekTarget, rfl⟩
    · exact ⟨_, _, rfl⟩
  have hseek (millis : Int) : ∃ pending target, s.seek millis now =
      { s with seekPending := pending, lastSeekTarget := target } := by
    unfold seek seekBySeconds
    split <;> exact hnoted ..
  have hchapter (steps : Int) : ∃ pending target, s.seekChapter steps now =
      { s with seekPending := pending, lastSeekTarget := target } := by
    unfold seekChapter
    split
    · exact hnoted ..
    · exact ⟨s.seekPending, s.lastSeekTarget, rfl⟩
  cases action with
  | seek millis => exact hseek millis
  | seekChapter steps => exact hchapter steps
  | nextChunk =>
    simp only [perform, nextChunk]
    split
    · exact hchapter 1
    · exact hseek jumpMillis
  | previousChunk =>
    simp only [perform, previousChunk]
    split
    · exact hchapter (-1)
    · exact hseek (-jumpMillis)
  | _ => cases h

/-! ## A refresh -/

/-- A relation of a session to a later one that each change respects which a refresh may make. -/
structure KeptByRefresh (now : S) (P : Session host → Session host → Prop) : Prop where
  trans : ∀ {s s' s''}, P s s' → P s' s'' → P s s''
  /-- What the display alone uses. -/
  display : ∀ s timer metrics external forced pending, P s
    { s with
      frameTimer := timer
      metrics := metrics
      externalClock := external
      refreshForced := forced
      displayPending := pending }
  clock : ∀ s (k : Stream S (VideoFrame S) → Clock S),
    P s (s.onVideo fun v => { v with clock := k v })
  ring : ∀ s, P s s.advanceRing
  pause : ∀ s, P s (s.switchPause now)

namespace KeptByRefresh

variable {P : Session host → Session host → Prop}

theorem refl (h : KeptByRefresh now P) (s : Session host) : P s s :=
  h.display s s.frameTimer s.metrics s.externalClock s.refreshForced s.displayPending

theorem timer (h : KeptByRefresh now P) (s : Session host) (timer : S) :
    P s { s with frameTimer := timer } :=
  h.display s timer s.metrics s.externalClock s.refreshForced s.displayPending

theorem forced (h : KeptByRefresh now P) (s : Session host) (forced : Bool) :
    P s { s with refreshForced := forced } :=
  h.display s s.frameTimer s.metrics s.externalClock forced s.displayPending

theorem showTime (h : KeptByRefresh now P) (s : Session host) (current : FrameTiming S) :
    P s (s.showTime current now) := by
  unfold Session.showTime
  split
  · exact h.refl s
  · rename_i pts _
    have hclock := h.clock s fun v => v.clock.setAt pts current.serial now
    dsimp only
    split
    · exact hclock
    · exact h.trans hclock (h.display _ _ _ _ _ _)

theorem due (h : KeptByRefresh now P) {v : Stream S (VideoFrame S)} {current : VideoFrame S}
    {shown : Session host} (hdue : s.Due v now current shown) : P s shown := by
  obtain ⟨last, -, -, rfl⟩ := hdue.timed
  exact h.trans (h.timer s _) (h.showTime _ _)

theorem passNext (h : KeptByRefresh now P) (s : Session host) : P s s.passNext :=
  h.trans (h.display s s.frameTimer _ s.externalClock s.refreshForced s.displayPending) (h.ring _)

theorem showNext (h : KeptByRefresh now P) (s : Session host) : P s (s.showNext now) := by
  have hforced : P s { s.advanceRing with refreshForced := true } :=
    h.trans (h.ring s) (h.forced _ true)
  unfold Session.showNext
  dsimp only
  split
  · exact h.trans hforced (h.pause _)
  · exact hforced

theorem advanceVideo (h : KeptByRefresh now P) (n : Nat) (s : Session host) (remaining : S) :
    P s (advanceVideo n s remaining now).2 := by
  induction n generalizing s remaining with
  | zero => exact h.refl s
  | succ n ih =>
    unfold Session.advanceVideo
    split
    · exact h.refl s
    · rename_i v _
      split
      · exact h.refl s
      have hcase := s.lookCase_refreshRound v remaining now
      generalize s.refreshRound v remaining now = round at hcase ⊢
      cases hcase with
      | nothing => exact h.refl s
      | stale => exact h.trans (h.ring s) (ih _ _)
      | paused | waits => exact h.timer s _
      | late hdue => exact h.trans (h.trans (h.due hdue) (h.passNext _)) (ih _ _)
      | shows hdue => exact h.trans (h.due hdue) (h.showNext _)

theorem adjusted (h : KeptByRefresh now P) (s : Session host) : P s (s.adjusted now) := by
  unfold Session.adjusted
  split
  · unfold adjustExternalSpeed
    dsimp only
    split
    · exact h.refl s
    · exact h.display s s.frameTimer s.metrics _ s.refreshForced s.displayPending
  · exact h.refl s

theorem looked (h : KeptByRefresh now P) (s : Session host) : P s (s.looked now).2 :=
  h.trans (h.adjusted s) (h.advanceVideo _ _ _)

theorem acceptPicture (h : KeptByRefresh now P) (s : Session host) : P s (s.acceptPicture now) := by
  unfold Session.acceptPicture
  split
  · exact h.refl s
  · split
    · exact h.display s s.frameTimer _ s.externalClock s.refreshForced _
    · exact h.refl s

theorem refresh (h : KeptByRefresh now P) (s : Session host) : P s (s.refresh now).2 := by
  rw [refresh_eq]
  exact h.trans (h.trans (h.looked s) (h.acceptPicture _)) (h.forced _ false)

end KeptByRefresh

/-! ## A fill -/

/-- A relation of a session to a later one that each change respects which a fill may make. -/
structure KeptByFill (now : S) (P : Session host → Session host → Prop) : Prop where
  trans : ∀ {s s' s''}, P s s' → P s' s'' → P s s''
  /-- What the device's side alone uses. -/
  device : ∀ s output external, P s { s with output := output, externalClock := external }
  /-- The counts of sound. -/
  counts : ∀ s frames silences errors, P s
    { s with
      metrics :=
        { s.metrics with
          audioFrames := frames
          silences := silences
          conversionErrors := errors } }
  clock : ∀ s (k : Stream S (AudioFrame S) → Clock S),
    P s (s.onAudio fun a => { a with clock := k a })
  ring : ∀ s p n, P s (s.onAudio fun a => { a with frames := (a.frames.takeFirst p n).2 })

namespace KeptByFill

variable {P : Session host → Session host → Prop}

theorem refl (h : KeptByFill now P) (s : Session host) : P s s :=
  h.device s s.output s.externalClock

theorem takeSound (h : KeptByFill now P) (s : Session host) : P s s.takeSound.2 := by
  unfold Session.takeSound
  cases ha : s.audioStream with
  | none => exact h.refl s
  | some a =>
    dsimp only
    split
    · exact h.refl s
    · have hring := h.ring s (fun frame => frame.serial = a.packets.serial) a.frames.remaining
      obtain ⟨p, hp, rfl⟩ := Option.map_eq_some_iff.1 ha
      unfold onAudio at hring ⊢
      rw [hp] at hring ⊢
      exact hring

theorem convertFrame (h : KeptByFill now P) (s : Session host) (out : AudioOutput S)
    (frame : AudioFrame S) : P s (s.convertFrame out frame now).2 := by
  unfold Session.convertFrame
  dsimp only
  split
  · split
    · exact h.counts s _ _ _
    · exact h.counts s _ _ _
  · exact h.counts s _ _ _

theorem loadBlock (h : KeptByFill now P) (s : Session host) (out : AudioOutput S) :
    P s (s.loadBlock out now).2 := by
  have htaken := h.takeSound s
  unfold Session.loadBlock
  split
  · rename_i heq
    rw [heq] at htaken
    exact h.trans htaken (h.convertFrame _ _ _)
  · rename_i heq
    rw [heq] at htaken
    exact h.trans htaken (h.counts _ _ _ _)

theorem playUntil (h : KeptByFill now P) (count n : Nat) (s : Session host) (out : AudioOutput S)
    (data : Bytes) : P s (playUntil count now n s out data).2.2 := by
  induction n generalizing s out data with
  | zero => exact h.refl s
  | succ n ih =>
    unfold Session.playUntil
    split
    · exact h.refl s
    by_cases hunread : out.unread = 0
    · simp only [if_pos hunread]
      exact h.trans (h.loadBlock s out) (ih _ _ _)
    · simp only [if_neg hunread]
      exact ih _ _ _

theorem hear (h : KeptByFill now P) (s : Session host) (out : AudioOutput S) :
    P s (s.hear out now) := by
  unfold Session.hear
  split
  · rename_i stop _ _
    have hset := h.clock s fun a => a.clock.setAt (stop - out.latency) out.clockSerial now
    dsimp only
    split
    · exact h.trans hset (h.device _ _ _)
    · exact hset
  · exact h.refl s

theorem fill (h : KeptByFill now P) (s : Session host) (count volume : Nat) :
    P s (s.fill count volume now).2 := by
  unfold Session.fill
  split
  · exact h.refl s
  · have hset (s : Session host) (out : AudioOutput S) : P s { s with output := some out } :=
      h.device s (some out) s.externalClock
    dsimp only
    split
    · exact h.trans (h.playUntil _ _ _ _ _) (hset _ _)
    · exact h.trans (h.trans (h.playUntil _ _ _ _ _) (hset _ _)) (h.hear _ _)

end KeptByFill

end Session

end Playback
