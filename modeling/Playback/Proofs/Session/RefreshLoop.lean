import Playback.Proofs.Session.DisplayState

/-!
# The loop of a refresh

A refresh looks at the ring of pictures until nothing more is to be done. Each look but the last one
takes a picture: a stale one is thrown away, a late one is passed over if another one follows. The
last look may show one (`Looks`). `Session.passes` collects the pictures that are taken, each with
its fate.

What the loop does to the session is told by these pictures alone (`loops_advanceVideo`). It ends by
itself, after no more looks than there are pictures, and one (`looksEnd_advanceVideo`).
-/

namespace Playback

open FrameRing

/-- What becomes of a picture that the display takes from the ring. -/
inductive Fate where
  /-- It is not of the current epoch, and it is thrown away. -/
  | stale
  /-- It is late, and it is passed over. -/
  | late
  /-- It is the one to display. -/
  | shown
  deriving DecidableEq

namespace Flows

variable {S : Type} {host : Host S} (fs : Flows host)

theorem onPictures_id : fs.onPictures id = fs := by
  obtain ⟨_ | v, a, forced, aborted⟩ := fs <;> rfl

theorem onPictures_comp (g g' : FrameRing (VideoFrame S) → FrameRing (VideoFrame S)) :
    (fs.onPictures g').onPictures g = fs.onPictures (g ∘ g') := by
  obtain ⟨_ | v, a, forced, aborted⟩ := fs <;> rfl

end Flows

namespace Session

variable {S : Type} [Scalar S] {host : Host S} {s : Session host} {now : S}

/-! ## One look -/

theorem flows_advanceRing : s.advanceRing.flows = s.flows.onPictures advance := by
  unfold advanceRing onVideo flows
  cases s.video <;> rfl

theorem flows_showTime (current : FrameTiming S) : (s.showTime current now).flows = s.flows := by
  have hclock (pts : S) : (s.onVideo fun v =>
      { v with clock := v.clock.setAt pts current.serial now }).flows = s.flows :=
    flows_onVideo fun v => ⟨rfl, rfl, rfl⟩
  unfold showTime
  cases current.pts with
  | none => rfl
  | some pts =>
    dsimp only
    split
    · exact hclock pts
    · exact hclock pts

theorem displayState_showTime (current : FrameTiming S) :
    (s.showTime current now).displayState = s.displayState := by
  unfold showTime
  split
  · rfl
  · dsimp only
    split <;> rfl

theorem kept_of_due {v : Stream S (VideoFrame S)} {current : VideoFrame S} {shown : Session host}
    (hdue : s.Due v now current shown) :
    shown.flows = s.flows ∧ shown.displayState = s.displayState := by
  obtain ⟨last, -, -, rfl⟩ := hdue.timed
  exact ⟨flows_showTime _, displayState_showTime _⟩

theorem flows_showNext :
    (s.showNext now).flows = { s.flows.onPictures advance with forced := true } := by
  have hforced : ({ s.advanceRing with refreshForced := true } : Session host).flows =
      { s.flows.onPictures advance with forced := true } := by
    rw [← flows_advanceRing]
    rfl
  unfold showNext
  dsimp only
  split
  · exact flows_switchPause.trans hforced
  · exact hforced

theorem forced_showNext : (s.showNext now).refreshForced = true :=
  congrArg Flows.forced flows_showNext

theorem displayState_showNext : (s.showNext now).displayState = s.displayState := by
  unfold showNext
  dsimp only
  split <;> rfl

/-- What a look at the ring comes to. The first picture not shown yet stays, or it is taken and
meets its fate. -/
inductive Looks (s : Session host) (v : Stream S (VideoFrame S)) :
    Option (VideoFrame S × Fate) → RefreshRound (S × Session host) → Prop
  | stays {r : S × Session host} (hflows : r.2.flows = s.flows)
      (hdisplay : r.2.displayState = s.displayState) : Looks s v none (.done r)
  | stale {r : S × Session host} {f : VideoFrame S} (hnext : v.frames.next? = some f)
      (hserial : f.serial ≠ v.packets.serial) (hflows : r.2.flows = s.flows.onPictures advance)
      (hdisplay : r.2.displayState = s.displayState) : Looks s v (some (f, .stale)) (.again r)
  | late {r : S × Session host} {f f' : VideoFrame S} (hnext : v.frames.next? = some f)
      (hserial : f.serial = v.packets.serial) (hsecond : v.frames.second? = some f')
      (hflows : r.2.flows = s.flows.onPictures advance)
      (hdisplay : r.2.displayState =
        { s.displayState with lateDrops := s.displayState.lateDrops + 1 }) :
      Looks s v (some (f, .late)) (.again r)
  | shows {r : S × Session host} {f : VideoFrame S} (hnext : v.frames.next? = some f)
      (hserial : f.serial = v.packets.serial)
      (hflows : r.2.flows = { s.flows.onPictures advance with forced := true })
      (hdisplay : r.2.displayState = s.displayState) : Looks s v (some (f, .shown)) (.done r)

theorem second?_of_passesOver {v : Stream S (VideoFrame S)} {current : FrameTiming S}
    (h : s.passesOver v current now = true) : ∃ f, v.frames.second? = some f := by
  unfold passesOver at h
  cases hsecond : v.frames.second? with
  | none => simp [hsecond] at h
  | some f => exact ⟨f, rfl⟩

theorem looks_refreshRound (s : Session host) (v : Stream S (VideoFrame S)) (remaining now : S) :
    ∃ taken, Looks s v taken (s.refreshRound v remaining now) := by
  have hcase := s.lookCase_refreshRound v remaining now
  generalize s.refreshRound v remaining now = round at hcase ⊢
  cases hcase with
  | nothing | paused | waits => exact ⟨none, .stays rfl rfl⟩
  | stale hnext hserial => exact ⟨_, .stale hnext hserial flows_advanceRing rfl⟩
  | late hdue hlate =>
    obtain ⟨hflows, hdisplay⟩ := kept_of_due hdue
    obtain ⟨f', hsecond⟩ := second?_of_passesOver hlate
    refine ⟨_, .late hdue.next hdue.serial hsecond (flows_advanceRing.trans ?_) ?_⟩
    · exact congrArg (Flows.onPictures · advance) hflows
    · rw [← hdisplay]
      rfl
  | shows hdue =>
    obtain ⟨hflows, hdisplay⟩ := kept_of_due hdue
    exact ⟨_, .shows hdue.next hdue.serial (hflows ▸ flows_showNext)
      (displayState_showNext.trans hdisplay)⟩

/-- What a look at the ring comes to, whether or not the ring is looked at again. -/
def RefreshRound.outcome {α : Type} : RefreshRound α → α
  | .done r | .again r => r

/-- The picture that a look has taken, with its fate. -/
def RefreshRound.taken? (v : Stream S (VideoFrame S)) :
    RefreshRound (S × Session host) → Option (VideoFrame S × Fate)
  | .again _ => v.frames.next?.map fun f =>
      (f, if f.serial = v.packets.serial then .late else .stale)
  | .done r => if r.2.refreshForced then v.frames.next?.map fun f => (f, .shown) else none

section

variable {v : Stream S (VideoFrame S)} {f : VideoFrame S} {r : S × Session host}

theorem taken?_stale (hnext : v.frames.next? = some f) (hserial : f.serial ≠ v.packets.serial) :
    (RefreshRound.again r).taken? v = some (f, .stale) := by
  rw [RefreshRound.taken?, hnext, Option.map_some, if_neg hserial]

theorem taken?_late (hnext : v.frames.next? = some f) (hserial : f.serial = v.packets.serial) :
    (RefreshRound.again r).taken? v = some (f, .late) := by
  rw [RefreshRound.taken?, hnext, Option.map_some, if_pos hserial]

theorem taken?_shown (hnext : v.frames.next? = some f) (hforced : r.2.refreshForced = true) :
    (RefreshRound.done r).taken? v = some (f, .shown) := by
  rw [RefreshRound.taken?, if_pos hforced, hnext, Option.map_some]

end

theorem Looks.eq_taken? {v : Stream S (VideoFrame S)} {taken : Option (VideoFrame S × Fate)}
    {round : RefreshRound (S × Session host)} (h : Looks s v taken round)
    (hforced : s.refreshForced = false) : taken = round.taken? v := by
  cases h with
  | @stays r hflows =>
    have hsame : r.2.refreshForced = false := (congrArg Flows.forced hflows).trans hforced
    simp [RefreshRound.taken?, hsame]
  | stale hnext hserial => exact (taken?_stale hnext hserial).symm
  | late hnext hserial => exact (taken?_late hnext hserial).symm
  | shows hnext _ hflows => exact (taken?_shown hnext (congrArg Flows.forced hflows)).symm

/-! ## The whole loop -/

/-- The pictures that the looks take from the ring, in order, with their fates. -/
def passes : Nat → Session host → S → S → List (VideoFrame S × Fate)
  | 0, _, _, _ => []
  | n + 1, s, remaining, now =>
    match s.videoStream with
    | none => []
    | some v =>
      if v.frames.remaining = 0 then []
      else
        let round := s.refreshRound v remaining now
        (round.taken? v).toList ++
          match round with
          | .done _ => []
          | .again (remaining, s) => passes n s remaining now

end Session

/-- Pictures are taken from the front of a ring in the epoch `serial`. A picture that is passed over
has another one behind it, and one that is shown is the last that is taken. -/
inductive Passed {S : Type} (serial : Nat) :
    FrameRing (VideoFrame S) → List (VideoFrame S × Fate) → Prop
  | nothing {r : FrameRing (VideoFrame S)} : Passed serial r []
  | stale {r : FrameRing (VideoFrame S)} {f : VideoFrame S} {rest : List (VideoFrame S × Fate)}
      (hnext : r.next? = some f) (hserial : f.serial ≠ serial)
      (hrest : Passed serial r.advance rest) : Passed serial r ((f, .stale) :: rest)
  | late {r : FrameRing (VideoFrame S)} {f f' : VideoFrame S} {rest : List (VideoFrame S × Fate)}
      (hnext : r.next? = some f) (hserial : f.serial = serial) (hsecond : r.second? = some f')
      (hrest : Passed serial r.advance rest) : Passed serial r ((f, .late) :: rest)
  | shows {r : FrameRing (VideoFrame S)} {f : VideoFrame S} (hnext : r.next? = some f)
      (hserial : f.serial = serial) : Passed serial r [(f, .shown)]

namespace Passed

variable {S : Type} {serial : Nat} {r : FrameRing (VideoFrame S)} {l : FrameLog (VideoFrame S)}
  {taken : List (VideoFrame S × Fate)}

/-- The pictures that are taken are those that have waited first. -/
theorem holds (h : Passed serial r taken) (hl : r.Holds l) :
    (advance^[taken.length] r).Holds { l with taken := l.taken + taken.length } ∧
      r.waiting = taken.map (·.1) ++ (advance^[taken.length] r).waiting := by
  induction h generalizing l with
  | nothing => exact ⟨hl, rfl⟩
  | stale hnext _ _ ih | late hnext _ _ _ ih =>
    obtain ⟨hadvance, hwaiting⟩ := hl.next hnext
    obtain ⟨hrest, hfront⟩ := ih hadvance
    rw [Nat.add_right_comm] at hrest
    exact ⟨hrest, hwaiting.trans (congrArg _ hfront)⟩
  | shows hnext => exact hl.next hnext

/-- At most one picture is shown, and it comes last. -/
theorem countP_shown (h : Passed serial r taken) : taken.countP (·.2 = .shown) ≤ 1 := by
  induction h with
  | nothing => exact Nat.zero_le 1
  | stale _ _ _ ih | late _ _ _ _ ih => simpa using ih
  | shows => simp

theorem of_shown (h : Passed serial r taken) (hshown : taken.any (·.2 = .shown) = true) :
    ∃ passed f, taken = passed ++ [(f, .shown)] ∧ (∀ x ∈ passed, x.2 ≠ .shown) ∧
      f.serial = serial ∧ (advance^[passed.length] r).next? = some f := by
  induction h with
  | nothing => cases hshown
  | @stale r f _ _ _ _ ih | @late r f _ _ _ _ _ _ ih =>
    simp only [List.any_cons, reduceCtorEq, decide_false, Bool.false_or] at hshown
    obtain ⟨passed, f', rfl, hpassed, hserial, hnext⟩ := ih hshown
    exact ⟨(f, _) :: passed, f', rfl, List.forall_mem_cons.2 ⟨nofun, hpassed⟩, hserial, hnext⟩
  | @shows r f hnext hserial => exact ⟨[], f, rfl, nofun, hserial, hnext⟩

/-- A picture that is passed over is of the current epoch, and another picture waits behind it. -/
theorem of_late (h : Passed serial r taken) (hl : r.Holds l) {i : Nat} {f : VideoFrame S}
    (hf : taken[i]? = some (f, .late)) :
    f.serial = serial ∧ r.waiting[i]? = some f ∧ ∃ f', r.waiting[i + 1]? = some f' := by
  induction h generalizing l i with
  | nothing => cases hf
  | @stale r f' rest hnext _ _ ih =>
    obtain ⟨hadvance, hwaiting⟩ := hl.next hnext
    rw [hwaiting]
    cases i with
    | zero => cases hf
    | succ i => exact ih hadvance hf
  | @late r f' f'' rest hnext hserial hsecond _ ih =>
    obtain ⟨hadvance, hwaiting⟩ := hl.next hnext
    cases i with
    | zero =>
      obtain rfl : f' = f := congrArg Prod.fst (Option.some.inj hf)
      refine ⟨hserial, by rw [hwaiting]; rfl, f'', ?_⟩
      rw [hl.waiting_eq, List.getElem?_drop, ← hsecond, hl.second?_eq]
      rfl
    | succ i =>
      rw [hwaiting]
      exact ih hadvance hf
  | shows =>
    cases i with
    | zero => cases hf
    | succ i => cases hf

/-- In a ring whose pictures are in the order of their epochs, the picture behind one that is passed
over is of the current epoch too. -/
theorem followed (h : Passed serial r taken) (hl : r.Holds l)
    (hordered : r.waiting.Pairwise (·.serial ≤ ·.serial)) (hle : ∀ f ∈ r.waiting, f.serial ≤ serial)
    {i : Nat} {f : VideoFrame S} (hf : taken[i]? = some (f, .late)) :
    ∃ f', r.waiting[i + 1]? = some f' ∧ f'.serial = serial := by
  obtain ⟨hserial, hi, f', hnext⟩ := h.of_late hl hf
  obtain ⟨hlt, hi⟩ := List.getElem?_eq_some_iff.1 hi
  obtain ⟨hlt', hnext'⟩ := List.getElem?_eq_some_iff.1 hnext
  have hbehind := List.pairwise_iff_getElem.1 hordered i (i + 1) hlt hlt' (Nat.lt_succ_self i)
  rw [hi, hnext', hserial] at hbehind
  exact ⟨f', hnext, Nat.le_antisymm (hle f' (List.mem_of_getElem? hnext)) hbehind⟩

end Passed

namespace Session

variable {S : Type} [Scalar S] {host : Host S} {s s' : Session host} {now : S}

/-- What the loop of a refresh does to a session when it takes the pictures `taken`. -/
structure Loops (s s' : Session host) (taken : List (VideoFrame S × Fate)) : Prop where
  flows : s'.flows =
    { s.flows.onPictures advance^[taken.length] with forced := taken.any (·.2 = .shown) }
  display : s'.displayState =
    { s.displayState with
      lateDrops := s.displayState.lateDrops + taken.countP (·.2 = .late) }
  passed : ∀ f, s.flows.video = some f → Passed f.packets.serial f.frames taken

theorem Loops.nothing (hforced : s.refreshForced = false) (hflows : s'.flows = s.flows)
    (hdisplay : s'.displayState = s.displayState) : Loops s s' [] where
  flows := by
    have hnot : s.flows.forced = false := hforced
    rw [List.length_nil, Function.iterate_zero, Flows.onPictures_id, List.any_nil, ← hnot]
    exact hflows
  display := hdisplay
  passed _ _ := .nothing

/-- The first look has taken a picture that is not shown, and the loop has gone on. -/
theorem Loops.cons {s'' : Session host} {x : VideoFrame S × Fate}
    {rest : List (VideoFrame S × Fate)} (h : Loops s'' s' rest)
    (hflows : s''.flows = s.flows.onPictures advance) (hnot : x.2 ≠ .shown)
    (hdisplay : s''.displayState =
      { s.displayState with
        lateDrops := s.displayState.lateDrops + if x.2 = .late then 1 else 0 })
    (hpassed : ∀ f, s.flows.video = some f → Passed f.packets.serial f.frames.advance rest →
      Passed f.packets.serial f.frames (x :: rest)) :
    Loops s s' (x :: rest) where
  flows := by
    rw [h.flows, hflows, Flows.onPictures_comp, List.length_cons, Function.iterate_succ]
    simp [hnot]
  display := by
    rw [h.display, hdisplay, List.countP_cons]
    simp only [decide_eq_true_eq]
    congr 1
    omega
  passed f hf := by
    refine hpassed f hf ?_
    have hadvanced : s''.flows.video = some (f.onFrames advance) := by
      rw [hflows, Flows.onPictures, hf]
      rfl
    exact h.passed _ hadvanced

theorem loops_advanceVideo (n : Nat) (s : Session host) (remaining now : S)
    (hforced : s.refreshForced = false) :
    Loops s (advanceVideo n s remaining now).2 (passes n s remaining now) := by
  induction n generalizing s remaining with
  | zero => exact .nothing hforced rfl rfl
  | succ n ih =>
    unfold advanceVideo passes
    cases hv : s.videoStream with
    | none => exact .nothing hforced rfl rfl
    | some v =>
      dsimp only
      split
      · exact .nothing hforced rfl rfl
      have hvideo : ∀ f, s.flows.video = some f → f.frames = v.frames ∧ f.packets = v.packets := by
        obtain ⟨p, hp, rfl⟩ := Option.map_eq_some_iff.1 hv
        intro f hf
        rw [flows, hp] at hf
        rw [← Option.some.inj hf]
        exact ⟨rfl, rfl⟩
      obtain ⟨taken, hlooks⟩ := s.looks_refreshRound v remaining now
      rw [← hlooks.eq_taken? hforced]
      generalize s.refreshRound v remaining now = round at hlooks ⊢
      have hstill {s'' : Session host} (hflows : s''.flows = s.flows.onPictures advance) :
          s''.refreshForced = false := (congrArg Flows.forced hflows).trans hforced
      cases hlooks with
      | stays hflows hdisplay => exact .nothing hforced hflows hdisplay
      | @stale r f hnext hserial hflows hdisplay =>
        have hnot : Fate.stale ≠ .shown := by decide
        refine (ih r.2 r.1 (hstill hflows)).cons hflows hnot hdisplay fun p hp hrest => ?_
        obtain ⟨hframes, hpackets⟩ := hvideo p hp
        exact .stale (hframes ▸ hnext) (hpackets ▸ hserial) hrest
      | @late r f f' hnext hserial hsecond hflows hdisplay =>
        have hnot : Fate.late ≠ .shown := by decide
        refine (ih r.2 r.1 (hstill hflows)).cons hflows hnot hdisplay fun p hp hrest => ?_
        obtain ⟨hframes, hpackets⟩ := hvideo p hp
        exact .late (hframes ▸ hnext) (hpackets ▸ hserial) (hframes ▸ hsecond) hrest
      | shows hnext hserial hflows hdisplay =>
        refine ⟨hflows, hdisplay, fun p hp => ?_⟩
        obtain ⟨hframes, hpackets⟩ := hvideo p hp
        exact .shows (hframes ▸ hnext) (hpackets ▸ hserial)

/-! ## The loop ends -/

/-- The looks at the ring, with nothing to limit their number, end after `n` of them. -/
inductive LooksEnd (now : S) : Nat → Session host → S → S × Session host → Prop
  | closed {s : Session host} {remaining : S} (hv : s.videoStream = none) :
      LooksEnd now 1 s remaining (remaining, s)
  | empty {s : Session host} {remaining : S} {v : Stream S (VideoFrame S)}
      (hv : s.videoStream = some v) (hnone : v.frames.remaining = 0) :
      LooksEnd now 1 s remaining (remaining, s)
  | done {s : Session host} {remaining : S} {v : Stream S (VideoFrame S)} {r : S × Session host}
      (hv : s.videoStream = some v) (hsome : v.frames.remaining ≠ 0)
      (hround : s.refreshRound v remaining now = .done r) : LooksEnd now 1 s remaining r
  | again {n : Nat} {s : Session host} {remaining : S} {v : Stream S (VideoFrame S)}
      {r r' : S × Session host} (hv : s.videoStream = some v) (hsome : v.frames.remaining ≠ 0)
      (hround : s.refreshRound v remaining now = .again r) (hrest : LooksEnd now n r.2 r.1 r') :
      LooksEnd now (n + 1) s remaining r'

end Session

theorem FrameRing.remaining_advance {α : Type} (r : FrameRing α) :
    r.advance.remaining = r.remaining - 1 := by
  unfold advance remaining shownCount
  split_ifs <;> simp_all

namespace Session

variable {S : Type} [Scalar S] {host : Host S} {s s' : Session host} {now : S}

/-- Number of pictures not yet shown in the ring of the open video stream. -/
def pictures (s : Session host) : Nat :=
  (s.videoStream.map (·.frames.remaining)).getD 0

theorem pictures_eq (s : Session host) :
    s.pictures = (s.flows.video.map (·.frames.remaining)).getD 0 := by
  unfold pictures videoStream flows
  cases s.video <;> rfl

theorem pictures_of_advance (h : s'.flows = s.flows.onPictures advance) :
    s'.pictures = s.pictures - 1 := by
  rw [pictures_eq, pictures_eq, h, Flows.onPictures]
  cases s.flows.video with
  | none => rfl
  | some f => exact f.frames.remaining_advance

/-- With more looks than there are pictures the loop ends by itself: it would have ended the same
without a limit. -/
theorem looksEnd_advanceVideo (n : Nat) (s : Session host) (remaining now : S)
    (hn : s.pictures < n) :
    ∃ k ≤ s.pictures + 1, LooksEnd now k s remaining (advanceVideo n s remaining now) := by
  induction n generalizing s remaining with
  | zero => exact absurd hn (Nat.not_lt_zero _)
  | succ n ih =>
    unfold advanceVideo
    cases hv : s.videoStream with
    | none => exact ⟨1, by omega, .closed hv⟩
    | some v =>
      dsimp only
      split
      · rename_i hnone
        exact ⟨1, by omega, .empty hv hnone⟩
      rename_i hsome
      have hpictures : s.pictures = v.frames.remaining := by rw [pictures, hv]; rfl
      cases hround : s.refreshRound v remaining now with
      | done r => exact ⟨1, by omega, .done hv hsome hround⟩
      | again r =>
        have hfewer : r.2.pictures = s.pictures - 1 := by
          obtain ⟨taken, hlooks⟩ := s.looks_refreshRound v remaining now
          rw [hround] at hlooks
          cases hlooks with
          | stale _ _ hflows => exact pictures_of_advance hflows
          | late _ _ _ hflows => exact pictures_of_advance hflows
        obtain ⟨k, hk, hrest⟩ := ih r.2 r.1 (by omega)
        exact ⟨k + 1, by omega, .again hv hsome hround hrest⟩

end Session

end Playback
