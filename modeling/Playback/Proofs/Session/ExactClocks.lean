import Playback.Proofs.Scalar.Rounding
import Playback.Proofs.Session.ExternalClock
import Playback.Proofs.Timing.ClockAnchors
import Playback.Proofs.Timing.ExternalSpeed

/-!
# Clocks in exact arithmetic

In exact arithmetic a clock that runs shows its base and as much of the time since then as its speed
tells, as its drift is that of its base (`Anchored.valueAt_eq`). No clock ever goes back by itself:
the clocks of streams keep the speed with which they were made, and the external clock never runs at
less than nine tenths of that speed (`paced_perform`). So once the external clock was set, it never
shows less, as long as it follows no other clock and time does not go back (`Clock.Past`).
-/

namespace Playback

open FrameRing

namespace Clock

variable {k k' : Clock Rat} {now : Rat}

theorem Anchored.valueAt_eq (h : k.Anchored) (now : Rat) :
    k.valueAt now =
      k.base.map fun base => if k.paused then base else base + (now - k.lastUpdated) * k.speed := by
  unfold valueAt
  cases hbase : k.base with
  | none => rfl
  | some base =>
    rw [h base hbase, Option.map_some, Option.map_some]
    split
    · rfl
    · show (some (base - k.lastUpdated + now - (now - k.lastUpdated) * (1.0 - k.speed)) :
        Option Rat) = _
      congr 1
      norm_num
      ring

theorem anchor_eq (k : Clock Rat) (now : Rat) :
    k.anchor now =
      match k.valueAt now with
      | some value => { k with base := some value, drift := value - now, lastUpdated := now }
      | none => k := by
  unfold anchor
  cases k.valueAt now <;> rfl

theorem speed_anchor (k : Clock Rat) (now : Rat) : (k.anchor now).speed = k.speed := by
  rw [anchor_eq]
  split <;> rfl

theorem speed_setPaused (k : Clock Rat) (paused : Bool) (now : Rat) :
    (k.setPaused paused now).speed = k.speed := by
  unfold setPaused
  split_ifs
  · rfl
  · exact k.speed_anchor now
  · rfl

theorem Driven.speed {sets : Rat → Nat → Prop} (h : k.Driven sets k') : k'.speed = k.speed := by
  induction h with
  | refl => rfl
  | set _ _ _ ih => exact ih
  | @pause k' _ paused time ih => exact (k'.speed_setPaused paused time).trans ih

/-! ## Speeds -/

/-- The clock runs at nine tenths of the normal speed at least. -/
def Paced (k : Clock Rat) : Prop :=
  9 / 10 ≤ k.speed

theorem Driven.paced {sets : Rat → Nat → Prop} (h : k.Driven sets k') (hk : k.speed = 1) :
    k'.Paced := by
  show (9 / 10 : Rat) ≤ k'.speed
  rw [h.speed, hk]
  norm_num

theorem externalSpeed_ge {speed : Rat} (h : 9 / 10 ≤ speed) (queued : Nat) :
    9 / 10 ≤ externalSpeed speed queued := by
  have hlowest : (0.9 : Rat) = 9 / 10 := by norm_num
  rw [← hlowest] at h ⊢
  exact le_externalSpeed h queued

/-- A clock that follows another one runs at most a tenth slower. -/
theorem paced_syncTo {lead : Clock Rat} (h : k.Paced) (hlead : lead.speed = 1) (epoch : Option Nat)
    (target : Option Rat) (threshold now : Rat) :
    (k.syncTo epoch lead target threshold now).Paced := by
  have hsnap : (9 / 10 : Rat) ≤ lead.speed := by
    rw [hlead]
    norm_num
  unfold syncTo
  cases target with
  | none => exact h
  | some target =>
    dsimp only
    split
    · exact hsnap
    · split
      · rename_i value _ _
        have hcorrection : (-1.0 : Rat) ≤
            Scalar.clamp (-(value - target) / threshold) (-1.0) 1.0 := by
          rw [Exact.clamp_eq (by norm_num)]
          exact le_max_left _ _
        show (9 / 10 : Rat) ≤
          lead.speed + Scalar.clamp (-(value - target) / threshold) (-1.0) 1.0 * 0.1
        rw [hlead]
        norm_num at hcorrection ⊢
        linarith
      · exact hsnap

theorem Follows.paced {leads : Clock Rat → Prop} (h : k.Follows leads now k') (hk : k.Paced)
    (hleads : ∀ lead, leads lead → lead.speed = 1) : k'.Paced := by
  induction h with
  | refl => exact hk
  | @pause k' _ paused ih =>
    show (9 / 10 : Rat) ≤ (k'.setPaused paused now).speed
    rw [speed_setPaused]
    exact ih
  | adjust _ queued ih => exact externalSpeed_ge ih queued
  | sync _ hlead target ih => exact paced_syncTo ih (hleads _ hlead) none target _ now

/-! ## The past of a clock -/

/-- The clock was set to `target` at the moment `since` or later, or to a greater value, and it does
not lose it. -/
structure Past (target since : Rat) (k : Clock Rat) : Prop where
  anchored : k.Anchored
  paced : k.Paced
  updated : k.lastUpdated ≤ since
  base : ∃ base, k.base = some base ∧ target ≤ base

namespace Past

variable {target since : Rat}

theorem later (h : k.Past target since) (hle : since ≤ now) : k.Past target now :=
  ⟨h.anchored, h.paced, h.updated.trans hle, h.base⟩

/-- The clock never shows less than it was set to. -/
theorem value (h : k.Past target now) :
    ∃ value, k.valueAt now = some value ∧ target ≤ value := by
  obtain ⟨hanchored, hpaced, hupdated, base, hbase, hle⟩ := h
  refine ⟨_, (hanchored.valueAt_eq now).trans (congrArg (Option.map _) hbase), ?_⟩
  dsimp only
  split
  · exact hle
  · have hpassed : 0 ≤ (now - k.lastUpdated) * k.speed :=
      mul_nonneg (by linarith) (le_trans (by norm_num) hpaced)
    linarith

theorem anchor (h : k.Past target now) : (k.anchor now).Past target now := by
  have hanchored := h.anchored.anchor now
  obtain ⟨value, hvalue, hle⟩ := h.value
  rw [anchor_eq, hvalue] at hanchored ⊢
  exact ⟨hanchored, h.paced, le_refl now, value, rfl, hle⟩

theorem setSpeed (h : k.Past target now) {speed : Rat} (hspeed : 9 / 10 ≤ speed) :
    (k.setSpeed speed now).Past target now :=
  ⟨h.anchor.anchored, hspeed, h.anchor.updated, h.anchor.base⟩

theorem setPaused (h : k.Past target now) (paused : Bool) :
    (k.setPaused paused now).Past target now := by
  have hanchored := h.anchored.setPaused paused now
  unfold Clock.setPaused at hanchored ⊢
  split_ifs at hanchored ⊢
  · exact h
  · exact ⟨hanchored, h.anchor.paced, le_refl now, h.anchor.base⟩
  · exact ⟨hanchored, h.paced, le_refl now, h.base⟩

/-- The clock keeps its value while it follows no other one. -/
theorem follows {leads : Clock Rat → Prop} (h : k.Past target now)
    (hfollows : k.Follows leads now k') (hleads : ∀ lead, ¬ leads lead) : k'.Past target now := by
  induction hfollows with
  | refl => exact h
  | pause _ paused ih => exact ih.setPaused paused
  | adjust _ queued ih => exact ih.setSpeed (externalSpeed_ge ih.paced queued)
  | sync _ hlead => exact absurd hlead (hleads _)

end Past

end Clock

/-! ## The clocks of a session -/

/-- The clocks of the streams run at normal speed, and the external clock is not much slower. -/
structure Clocks.Paced (c : Clocks Rat) : Prop where
  external : c.external.Paced
  video : ∀ k, c.video = some k → k.speed = 1
  audio : ∀ k, c.audio = some k → k.speed = 1

theorem SeekRequest.paced_reached (r : SeekRequest) {k : Clock Rat} (h : k.Paced) (now : Rat) :
    (r.reached k now).Paced := by
  unfold reached
  split <;> exact h

namespace Clocks.Paced

variable {c c' : Clocks Rat} {now : Rat}

theorem switched (h : c.Paced) (now : Rat) : (c.switched now).Paced := by
  refine ⟨?_, fun k' hk' => ?_, fun k' hk' => ?_⟩
  · show (9 / 10 : Rat) ≤ (c.external.setPaused (!c.paused) now).speed
    rw [Clock.speed_setPaused]
    exact h.external
  all_goals obtain ⟨k, hk, rfl⟩ := Option.map_eq_some_iff.1 hk'
  · exact (k.speed_setPaused _ now).trans (h.video k hk)
  · exact (k.speed_setPaused _ now).trans (h.audio k hk)

theorem sought (h : c.Paced) {external : Clock Rat} (hexternal : external.Paced) (now : Rat) :
    (c.sought external now).Paced := by
  have hset : Clocks.Paced { c with external := external } := ⟨hexternal, h.video, h.audio⟩
  unfold Clocks.sought
  dsimp only
  split
  · exact hset.switched now
  · exact hset

theorem refreshed (h : c.Paced) {sets : Rat → Nat → Prop} (hrefreshed : c.Refreshed now sets c')
    (hfollows : c.external.Follows (c.Leads sets) now c'.external) : c'.Paced := by
  refine ⟨hfollows.paced h.external ?_, fun k' hk' => ?_, fun k' hk' => ?_⟩
  · rintro lead ⟨-, k, hk, hdriven⟩
    exact hdriven.speed.trans (h.video k hk)
  · obtain ⟨k, hk, hdriven⟩ := hrefreshed.video k' hk'
    exact hdriven.speed.trans (h.video k hk)
  · obtain ⟨k, hk, hdriven⟩ := hrefreshed.audio k' hk'
    exact hdriven.speed.trans (h.audio k hk)

theorem filled (h : c.Paced) {fs : List (AudioFrame Rat)} (hfilled : c.Filled now fs c')
    (hexternal : c'.external.Paced) : c'.Paced := by
  cases hfilled with
  | closed => exact h
  | paused => exact ⟨h.external, h.video, h.audio⟩
  | @heard out out' _ _ _ external =>
    refine ⟨hexternal, h.video, fun k' hk' => ?_⟩
    obtain ⟨k, hk, rfl⟩ := Option.map_eq_some_iff.1 hk'
    have hspeed : k.speed = 1 := h.audio k hk
    cases out'.clock with
    | none => exact hspeed
    | some stop => exact hspeed

theorem handled (h : c.Paced) (hhandled : c.Handled now c') : c'.Paced := by
  have hone : (1.0 : Rat) = 1 := by norm_num
  cases hhandled with
  | stays => exact h
  | switched => exact h.switched now
  | video video hnew => exact ⟨h.external, fun k hk => hnew k hk ▸ hone, h.audio⟩
  | audio audio output hnew => exact ⟨h.external, h.video, fun k hk => hnew k hk ▸ hone⟩
  | closed output => exact ⟨h.external, nofun, nofun⟩

end Clocks.Paced

namespace Session

variable {host : Host Rat} {s : Session host} {now : Rat}

theorem paced_open {uri : String} {options : Options Rat} {screen : host.Screen}
    (hopen : Session.open host uri options screen now = .ok s) : s.clocks.Paced := by
  have hone : (1.0 : Rat) = 1 := by norm_num
  have hopened := opened_open hopen
  refine ⟨?_, fun k hk => ?_, fun k hk => ?_⟩
  · show (9 / 10 : Rat) ≤ s.externalClock.speed
    rw [external_open hopen]
    show (9 / 10 : Rat) ≤ 1.0
    norm_num
  · obtain ⟨time, rfl⟩ := hopened.video k hk
    exact hone
  · obtain ⟨⟨time, rfl⟩, -⟩ := hopened.audio k hk
    exact hone

theorem paced_readerTurn (h : s.clocks.Paced) (now : Rat) : (s.readerTurn now).clocks.Paced := by
  have hturned := s.clocks_readerTurn now
  cases hseek : s.seekSucceeds now with
  | false =>
    rw [hseek] at hturned
    generalize (s.readerTurn now).clocks = c at hturned ⊢
    cases hturned
    exact h
  | true =>
    obtain ⟨r, hpending⟩ := pending_of_seekSucceeds hseek
    rw [clocks_of_seek hpending hseek]
    exact h.sought (r.paced_reached h.external now) now

theorem paced_fill (h : s.clocks.Paced) (count volume : Nat) (now : Rat) :
    (s.fill count volume now).2.clocks.Paced := by
  refine h.filled (s.filled_fill count volume now) ?_
  show (s.fill count volume now).2.externalClock.Paced
  rcases s.external_fill count volume now with
    hsame | ⟨f, k, out, out', stop, -, hk, -, -, -, hheard⟩
  · rw [hsame]
    exact h.external
  · rw [hheard]
    unfold heardBy
    have hlead : (k.setAt (stop - out'.latency) out'.clockSerial now).speed = 1 := h.audio k hk
    exact Clock.paced_syncTo h.external hlead none _ _ now

/-- No clock gets out of pace, whatever the session does. -/
theorem paced_perform (h : s.clocks.Paced) (now : Rat) (action : Action) :
    (s.perform now action).clocks.Paced := by
  have hother (hreader : action ≠ .readerTurn) (hpresents : action.presents = false) :
      (s.perform now action).clocks.Paced :=
    h.handled (handled_perform hreader hpresents now)
  cases action with
  | readerTurn => exact paced_readerTurn h now
  | refresh => exact h.refreshed (s.refreshed_refresh now) (s.follows_refresh now)
  | fill count volume => exact paced_fill h count volume now
  | _ => exact hother nofun rfl

/-- After a seek by time the external clock shows where it led to, and goes on from there. -/
theorem past_of_seek (h : s.clocks.Paced) {r : SeekRequest} (hpending : s.seekPending = some r)
    (htime : r.byBytes = false) (hseek : s.seekSucceeds now = true) :
    (s.readerTurn now).externalClock.Past (r.target / 1000000) now := by
  have hreached : (r.reached s.externalClock now).Past (r.target / 1000000) now := by
    unfold SeekRequest.reached
    rw [if_neg (by simp [htime])]
    refine ⟨s.externalClock.anchored_setAt _ 0 now, h.external, le_refl now, _, rfl, ?_⟩
    show (r.target / 1000000 : Rat) ≤ r.target / 1000000.0
    norm_num
  exact hreached.follows (follows_of_seek hpending hseek) fun _ hnever => hnever

end Session

end Playback
