import Playback.Proofs.Session.PlayedSound

/-!
# Fills of any size

While the sound leads, it is not stretched, so what is played does not depend on any clock
(`Emits.onDevice`). Then it does not matter either in which portions the device asks for it: two
fills give the same bytes as one of both sizes, and leave the same behind, except for the clocks
(`split_fill`). Only the first portion has to be whole samples, so that the volume applies to the
same samples.
-/

namespace Playback

namespace Session

variable {S : Type} [Scalar S] {host : Host S} {s s' : Session host} {out out' : AudioOutput S}
  {now : S} {bytes : Bytes}

/-- The session with another device's side and other clocks for sound. -/
def onDevice (s : Session host) (output : Option (AudioOutput S)) (audio external : Clock S) :
    Session host :=
  ({ s with output := output } : Session host).withClocks audio external

theorem master_onDevice (s : Session host) (output : Option (AudioOutput S))
    (audio external : Clock S) : (s.onDevice output audio external).master = s.master := by
  unfold onDevice withClocks onAudio master
  cases s.audio <;> rfl

theorem takeSound_onDevice (s : Session host) (output : Option (AudioOutput S))
    (audio external : Clock S) :
    (s.onDevice output audio external).takeSound =
      (s.takeSound.1, s.takeSound.2.onDevice output audio external) := by
  have hpaused : (s.onDevice output audio external).paused = s.paused := rfl
  unfold takeSound
  rw [hpaused]
  unfold onDevice withClocks onAudio audioStream
  cases haudio : s.audio with
  | none => simp [haudio]
  | some p => by_cases hstill : s.paused = true <;> simp [haudio, hstill]

theorem master_takeSound (s : Session host) : s.takeSound.2.master = s.master := by
  unfold takeSound
  split
  · rfl
  · split
    · rfl
    · unfold onAudio master
      cases s.audio <;> rfl

theorem master_loadBlock (s : Session host) (out : AudioOutput S) (now : S) :
    (s.loadBlock out now).2.master = s.master := by
  have htaken := s.master_takeSound
  unfold loadBlock
  split
  · rename_i f t heq
    rw [heq] at htaken
    obtain ⟨-, -, -, m, hsession, -⟩ := t.convertFrame_spec out f now
    rw [hsession, ← htaken]
    rfl
  · rename_i t heq
    rw [heq] at htaken
    exact htaken

/-- While the sound leads, no block is stretched. -/
theorem convertFrame_onDevice (hmaster : s.master = .audio) (out : AudioOutput S)
    (f : AudioFrame S) (now now' : S) (output : Option (AudioOutput S)) (audio external : Clock S) :
    (s.onDevice output audio external).convertFrame out f now' =
      ((s.convertFrame out f now).1,
        (s.convertFrame out f now).2.onDevice output audio external) := by
  have hwanted : s.wantedFrames out f.samples now = (f.samples.count, out) := if_pos hmaster
  have hwanted' : (s.onDevice output audio external).wantedFrames out f.samples now' =
      (f.samples.count, out) :=
    if_pos ((s.master_onDevice output audio external).trans hmaster)
  have hcomputes : (s.onDevice output audio external).BlockComputes out f.samples now' ↔
      s.BlockComputes out f.samples now := by
    unfold BlockComputes
    rw [hwanted, hwanted', s.master_onDevice output audio external, hmaster]
    simp
  unfold convertFrame
  by_cases hfits : s.BlockComputes out f.samples now
  · have hfits' := hcomputes.2 hfits
    simp only [hfits, hfits', hwanted, hwanted', decide_true, if_true]
    cases out.converter.convert f.samples f.samples.count <;> rfl
  · have hfits' := mt hcomputes.1 hfits
    simp only [hfits, hfits', hwanted, hwanted', decide_false]
    rfl

theorem loadBlock_onDevice (hmaster : s.master = .audio) (out : AudioOutput S) (now now' : S)
    (output : Option (AudioOutput S)) (audio external : Clock S) :
    (s.onDevice output audio external).loadBlock out now' =
      ((s.loadBlock out now).1, (s.loadBlock out now).2.onDevice output audio external) := by
  have htaken := s.master_takeSound
  unfold loadBlock
  rw [takeSound_onDevice]
  generalize s.takeSound = result at htaken ⊢
  obtain ⟨_ | f, t⟩ := result
  · rfl
  · exact convertFrame_onDevice (htaken.trans hmaster) out f now now' output audio external

/-- While the sound leads, clocks do not matter to what is played. -/
theorem Emits.onDevice (h : Emits now s out bytes out' s') (hmaster : s.master = .audio) (now' : S)
    (output : Option (AudioOutput S)) (audio external : Clock S) :
    Emits now' (s.onDevice output audio external) out bytes out'
      (s'.onDevice output audio external) := by
  induction h with
  | nothing => exact .nothing
  | play hunread _ ih => exact .play hunread (ih hmaster)
  | @load s s' out out' bytes hused hmore _ ih =>
    have hload := loadBlock_onDevice hmaster out now now' output audio external
    refine .load hused hmore ?_
    rw [hload]
    exact ih ((s.master_loadBlock out now).trans hmaster)

theorem Emits.master (h : Emits now s out bytes out' s') : s'.master = s.master := by
  induction h with
  | nothing => rfl
  | play _ _ ih => exact ih
  | load _ _ _ ih => exact ih.trans (master_loadBlock ..)

end Session

end Playback
