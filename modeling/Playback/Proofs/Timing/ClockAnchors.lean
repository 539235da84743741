import Playback.Timing.Clock

/-!
# The drift of a clock

A clock stores how far its base is ahead of the moment of its base. The base, the moment and the
drift are stored one by one, and each operation that moves one of them has to see to the others.
They agree after every operation (`Clock.Anchored`), whether the clock is silent, runs or is paused,
so a clock that runs shows its base at the moment of its base.
-/

namespace Playback

namespace Clock

variable {S : Type} [Scalar S] {k : Clock S}

/-- The drift is that of the base at the moment of the base. -/
def Anchored (k : Clock S) : Prop :=
  ∀ base, k.base = some base → k.drift = base - k.lastUpdated

theorem anchored_new (now : S) : (Clock.new now).Anchored :=
  nofun

theorem anchored_setAt (k : Clock S) (pts : S) (serial : Nat) (time : S) :
    (k.setAt pts serial time).Anchored := by
  intro base hbase
  unfold setAt at hbase ⊢
  dsimp only at hbase ⊢
  split at hbase
  · rw [Option.some.inj hbase]
  · cases hbase

theorem anchored_clearAt (k : Clock S) (serial : Nat) (time : S) :
    (k.clearAt serial time).Anchored :=
  nofun

theorem valueAt_eq_none_iff (k : Clock S) (now : S) : k.valueAt now = none ↔ k.base = none :=
  Option.map_eq_none_iff

namespace Anchored

theorem anchor (h : k.Anchored) (now : S) : (k.anchor now).Anchored := by
  unfold Clock.anchor
  split
  · exact k.anchored_setAt _ _ now
  · exact h

theorem setSpeed (h : k.Anchored) (speed now : S) : (k.setSpeed speed now).Anchored :=
  h.anchor now

theorem restart (k : Clock S) (now : S) : (k.restart now).Anchored := by
  intro base hbase
  replace hbase : k.base = some base := hbase
  show (k.base.map (· - now)).getD k.drift = base - now
  rw [hbase]
  rfl

theorem setPaused (h : k.Anchored) (paused : Bool) (now : S) :
    (k.setPaused paused now).Anchored := by
  unfold Clock.setPaused
  split
  · exact h
  · split
    · -- the moment moves with the base, or there is no base
      unfold Clock.anchor
      cases hvalue : k.valueAt now with
      | some value => exact k.anchored_setAt value k.serial now
      | none =>
        intro base hbase
        replace hbase : k.base = some base := hbase
        rw [(k.valueAt_eq_none_iff now).1 hvalue] at hbase
        cases hbase
    · exact restart k now

theorem syncTo (h : k.Anchored) (epoch : Option Nat) (other : Clock S) (target : Option S)
    (threshold now : S) : (k.syncTo epoch other target threshold now).Anchored := by
  unfold Clock.syncTo
  cases target with
  | none => exact h
  | some target =>
    dsimp only
    split
    · exact k.anchored_setAt target other.serial now
    · rename_i value _
      split
      · exact k.anchored_setAt value k.serial now
      · exact k.anchored_setAt target other.serial now

end Anchored

end Clock

end Playback
