import Playback.Proofs.Session.ExactClocks
import Playback.Proofs.Session.QueuedBytes
import Playback.Proofs.Session.SeekRanges
import Playback.Proofs.Session.SilentStreams

/-!
# Seeks to the next chapter

The next chapter is the first one that has not started at the position of the leading clock
(`chapterRequest_next`), and the start of the source counts as the position while that clock is
silent.

After a seek the clocks of the streams are silent until a frame sets one of them. So the seek to the
next chapter leads on from the target of the last seek if the external clock leads, and if the clock
of a stream leads it leads to the first chapter after the start, wherever the last seek went
(`next_chapter`, `next_chapter_goes_back`).

What is said of clocks and requests (`SinceSeek`) holds in any arithmetic whose order is transitive.
That the external clock stays past the target (`PastSeek`), and that seeks which follow each other
therefore go on and on (`served_increase`), takes exact arithmetic.
-/

namespace Playback

/-- The request for a seek to the start of a chapter. -/
def Chapter.request {S : Type} [Scalar S] (c : Chapter S) : SeekRequest :=
  ⟨Scalar.toInt64 (c.start * 1000000.0), 0, false⟩

/-- The chapter starts at a whole microsecond that fits into 64 bits. -/
def Chapter.StartsAt (c : Chapter Rat) (micros : Int) : Prop :=
  FitsInt64 micros ∧ c.start = micros / 1000000

theorem Chapter.StartsAt.target {c : Chapter Rat} {micros : Int} (h : c.StartsAt micros) :
    c.request.target = micros := by
  obtain ⟨⟨hlower, hupper⟩, hstart⟩ := h
  have hwhole : c.start * 1000000.0 = (micros : Rat) := by
    rw [hstart]
    norm_num
  show Scalar.toInt64 (c.start * 1000000.0) = micros
  rw [hwhole, Exact.toInt64_intCast]
  omega

section

variable {S : Type} [Scalar S] {chapters started ahead : List (Chapter S)} {position : S}

/-- Sorted chapters are those that have started at a position and those that have not. -/
theorem Chapter.exists_split [IsTrans S (· ≤ ·)]
    (hsorted : chapters.Pairwise fun a b => a.start ≤ b.start) (position : S) :
    ∃ started ahead, chapters = started ++ ahead ∧ (∀ c ∈ started, c.start ≤ position) ∧
      ∀ c ∈ ahead, ¬ c.start ≤ position := by
  induction chapters with
  | nil => exact ⟨[], [], rfl, nofun, nofun⟩
  | cons c chapters ih =>
    obtain ⟨hfirst, hrest⟩ := List.pairwise_cons.1 hsorted
    by_cases hstarted : c.start ≤ position
    · obtain ⟨started, ahead, rfl, hall, hafter⟩ := ih hrest
      exact ⟨c :: started, ahead, rfl, List.forall_mem_cons.2 ⟨hstarted, hall⟩, hafter⟩
    · exact ⟨[], c :: chapters, rfl, nofun, List.forall_mem_cons.2
        ⟨hstarted, fun d hd hlater => hstarted (IsTrans.trans _ _ _ (hfirst d hd) hlater)⟩⟩

theorem Chapter.find?_of_split (hstarted : ∀ c ∈ started, c.start ≤ position)
    (hahead : ∀ c ∈ ahead, ¬ c.start ≤ position) :
    (started ++ ahead).find? (fun c => ¬ c.start ≤ position) = ahead.head? := by
  have hnone : started.find? (fun c => ¬ c.start ≤ position) = none :=
    List.find?_eq_none.2 fun c hc => by simpa using hstarted c hc
  rw [List.find?_append, hnone, Option.none_or]
  cases ahead with
  | nil => rfl
  | cons c rest => exact List.find?_cons_of_pos (decide_eq_true (hahead c List.mem_cons_self))

end

/-- The first of the chapters that have not started is past a point if all of them are. -/
theorem Chapter.lt_find?_iff {chapters : List (Chapter Rat)}
    (hsorted : chapters.Pairwise fun a b => a.start ≤ b.start) (position point : Rat) :
    (∀ c, chapters.find? (fun c => ¬ c.start ≤ position) = some c → point < c.start) ↔
      ∀ c ∈ chapters, position < c.start → point < c.start := by
  obtain ⟨started, ahead, rfl, hstarted, hahead⟩ := Chapter.exists_split hsorted position
  rw [Chapter.find?_of_split hstarted hahead]
  constructor
  · intro hnext c hc hlater
    rcases List.mem_append.1 hc with hbefore | hafter
    · exact absurd hlater (not_lt.2 (hstarted c hbefore))
    · cases ahead with
      | nil => cases hafter
      | cons first rest =>
        have hfirst : point < first.start := hnext first rfl
        obtain ⟨-, hordered, -⟩ := List.pairwise_append.1 hsorted
        rcases List.mem_cons.1 hafter with rfl | hrest
        · exact hfirst
        · exact hfirst.trans_le ((List.pairwise_cons.1 hordered).1 c hrest)
  · intro hall c hc
    have hmem : c ∈ ahead := List.mem_of_head? hc
    exact hall c (List.mem_append_right started hmem) (not_le.1 (hahead c hmem))

namespace Session

section

variable {S : Type} [Scalar S] {host : Host S} {s : Session host} {now : S}

/-! ## The next chapter -/

/-- What is known of the source stays the same. -/
theorem sameSettings_run (h : s.InOrder) (actions : List (S × Action)) :
    s.SameSettings (s.run actions) := by
  induction actions generalizing s with
  | nil => exact ⟨rfl, rfl⟩
  | cons a actions ih =>
    obtain ⟨hoptions, hsource⟩ := ih (h.perform a.1 a.2)
    obtain ⟨hoptions', hsource'⟩ := sameSettings_perform h.forced a.1 a.2
    exact ⟨hoptions.trans hoptions', hsource.trans hsource'⟩

/-- The position from which chapters are counted. -/
def chapterPosition (s : Session host) (now : S) : S :=
  (s.masterClock now).getD 0.0

/-- The first chapter that has not started yet. -/
def nextChapter (s : Session host) (now : S) : Option (Chapter S) :=
  s.source.chapters.find? fun c => ¬ c.start ≤ s.chapterPosition now

theorem currentChapter_of_split {started ahead : List (Chapter S)}
    (hchapters : s.source.chapters = started ++ ahead)
    (hstarted : ∀ c ∈ started, c.start ≤ s.chapterPosition now)
    (hahead : ∀ c ∈ ahead, ¬ c.start ≤ s.chapterPosition now) :
    s.currentChapter now = started.length - 1 := by
  have hnone : ahead.reverse.findIdx? (fun c => c.start ≤ s.chapterPosition now) = none :=
    List.findIdx?_eq_none_iff.2 fun c hc => decide_eq_false (hahead c (List.mem_reverse.1 hc))
  unfold currentChapter
  unfold chapterPosition at hstarted hnone
  dsimp only
  rw [hchapters, List.reverse_append, List.findIdx?_append, hnone, Option.none_or]
  cases hreverse : started.reverse with
  | nil =>
    rw [List.reverse_eq_nil_iff] at hreverse
    subst hreverse
    rfl
  | cons c rest =>
    have hlast : c.start ≤ (s.masterClock now).getD 0.0 :=
      hstarted c (List.mem_reverse.1 (hreverse ▸ List.mem_cons_self))
    rw [List.findIdx?_cons, decide_eq_true hlast]
    show ((started ++ ahead).length : Int) - 1 - (0 + ahead.reverse.length : Nat) =
      started.length - 1
    rw [List.length_append, List.length_reverse]
    omega

theorem chapterRequest_next [IsTrans S (· ≤ ·)]
    (hsorted : s.source.chapters.Pairwise fun a b => a.start ≤ b.start) (now : S) :
    s.chapterRequest 1 now = (s.nextChapter now).map Chapter.request := by
  obtain ⟨started, ahead, hchapters, hstarted, hahead⟩ :=
    Chapter.exists_split hsorted (s.chapterPosition now)
  have hindex : (max (s.currentChapter now + 1) 0).toNat = started.length := by
    rw [currentChapter_of_split hchapters hstarted hahead]
    omega
  unfold chapterRequest nextChapter
  rw [hindex, hchapters, Chapter.find?_of_split hstarted hahead,
    List.getElem?_append_right (le_refl _), Nat.sub_self, ← List.head?_eq_getElem?]
  rfl

/-! ## Since a seek -/

/-- What is known of every session about its requests and about what it has presented. -/
structure WellTimed (s : Session host) : Prop where
  order : s.InOrder
  reader : s.Unreported
  presented : ∃ t : Presented host, t.session = s ∧ t.Kept ∧ t.Before (t.seeks + 1)

namespace WellTimed

theorem start {uri : String} {options : Options S} {screen : host.Screen}
    (hopen : Session.open host uri options screen now = .ok s) : s.WellTimed :=
  ⟨.start hopen, .start hopen, .start s, rfl, .start hopen, .start s 1⟩

theorem perform (h : s.WellTimed) (now : S) (action : Action) :
    (s.perform now action).WellTimed := by
  obtain ⟨horder, hreader, t, rfl, hkept, hbefore⟩ := h
  refine ⟨horder.perform now action, hreader.perform now action, t.perform now action,
    t.session_perform now action, hkept.perform horder now action, ?_⟩
  exact (hbefore.perform (fun _ => Nat.lt_succ_self _) now).mono
    (Nat.succ_le_succ (t.seeks_le_perform now action))

theorem run (h : s.WellTimed) (actions : List (S × Action)) : (s.run actions).WellTimed :=
  of_run h (fun _ now action h => h.perform now action) actions

end WellTimed

/-- No frame has set the clock of a stream since the last seek, and the external clock has gone on
from where the seek left it. -/
structure SinceSeek (reached : Clock S) (s : Session host) : Prop where
  timed : s.WellTimed
  silenced : s.Silenced
  external : reached.RunsFree s.externalClock

/-- The reader performs a seek. -/
theorem WellTimed.sinceSeek (h : s.WellTimed) {r : SeekRequest} (hpending : s.seekPending = some r)
    (hseek : s.seekSucceeds now = true) :
    (s.readerTurn now).SinceSeek (r.reached s.externalClock now) := by
  obtain ⟨t, rfl, hkept, hbefore⟩ := h.presented
  exact ⟨h.perform now .readerTurn, .of_seek hkept hbefore hseek,
    .single ⟨now, follows_of_seek hpending hseek⟩⟩

namespace SinceSeek

variable {reached : Clock S}

theorem perform (h : s.SinceSeek reached) {action : Action} (hidle : s.idles now action = true) :
    (s.perform now action).SinceSeek reached where
  timed := h.timed.perform now action
  silenced := h.silenced.perform h.timed.order hidle
  external := h.external.tail ⟨now, follows_idle h.silenced hidle⟩

theorem run (h : s.SinceSeek reached) {actions : List (S × Action)}
    (hidle : s.idle actions = true) : (s.run actions).SinceSeek reached := by
  induction actions generalizing s with
  | nil => exact h
  | cons a actions ih =>
    rw [idle, Bool.and_eq_true] at hidle
    exact ih (h.perform hidle.1) hidle.2

/-- If the clock of a stream leads, the position is the start of the source. -/
theorem position_eq (h : s.SinceSeek reached) (hmaster : s.master ≠ .external) (now : S) :
    s.chapterPosition now = 0.0 ∨
      s.master = .video ∧ host.Refuses ∧
        ∃ v, s.videoStream = some v ∧ v.packets.aborted = true := by
  unfold chapterPosition masterClock
  cases hleads : s.master with
  | external => exact absurd hleads hmaster
  | audio =>
    left
    dsimp only
    rw [h.silenced.audioClock]
    rfl
  | video =>
    dsimp only
    rcases h.silenced.videoClock now with hsilent | hrefused
    · left
      rw [hsilent]
      rfl
    · exact .inr ⟨rfl, hrefused⟩

end SinceSeek

theorem position_of_external (hmaster : s.master = .external) (now : S) :
    s.chapterPosition now = (s.externalClock.valueAt now).getD 0.0 := by
  unfold chapterPosition masterClock
  rw [hmaster]
  rfl

end

/-! ## Exact arithmetic -/

section

variable {host : Host Rat} {s : Session host} {reached : Clock Rat} {now since target : Rat}

/-- The last seek went to `target`, and time has not gone back since; the moment `since` is not
before it. -/
structure PastSeek (reached : Clock Rat) (target since : Rat) (s : Session host) : Prop
    extends s.SinceSeek reached where
  paced : s.clocks.Paced
  past : s.externalClock.Past target since

/-- The reader performs a seek by time. -/
theorem WellTimed.pastSeek (h : s.WellTimed) (hpaced : s.clocks.Paced) {r : SeekRequest}
    (hpending : s.seekPending = some r) (htime : r.byBytes = false)
    (hseek : s.seekSucceeds now = true) :
    (s.readerTurn now).PastSeek (r.reached s.externalClock now) (r.target / 1000000) now :=
  ⟨h.sinceSeek hpending hseek, paced_perform hpaced now .readerTurn,
    past_of_seek hpaced hpending htime hseek⟩

namespace PastSeek

theorem perform (h : s.PastSeek reached target since) (hle : since ≤ now) {action : Action}
    (hidle : s.idles now action = true) : (s.perform now action).PastSeek reached target now where
  toSinceSeek := h.toSinceSeek.perform hidle
  paced := paced_perform h.paced now action
  past := (h.past.later hle).follows (follows_idle h.silenced hidle) fun _ hnever => hnever

theorem run (h : s.PastSeek reached target since) {actions : List (Rat × Action)} {later : Rat}
    (hidle : s.idle actions = true)
    (htimes : (since :: actions.map (·.1) ++ [later]).Pairwise (· ≤ ·)) :
    (s.run actions).PastSeek reached target later := by
  induction actions generalizing s since with
  | nil =>
    have hle : since ≤ later := (List.pairwise_cons.1 htimes).1 later List.mem_cons_self
    exact ⟨h.toSinceSeek, h.paced, h.past.later hle⟩
  | cons a actions ih =>
    rw [idle, Bool.and_eq_true] at hidle
    obtain ⟨hle, hrest⟩ := List.pairwise_cons.1 htimes
    exact ih (h.perform (hle a.1 List.mem_cons_self) hidle.1) hidle.2 hrest

/-- The external clock has not gone back behind the target. -/
theorem le_position (h : s.PastSeek reached target since) (hle : since ≤ now)
    (hmaster : s.master = .external) : target ≤ s.chapterPosition now := by
  obtain ⟨value, hvalue, hreached⟩ := (h.past.later hle).value
  rw [position_of_external hmaster, hvalue]
  exact hreached

/-- The next chapter starts after the target if the external clock leads. -/
theorem lt_start (h : s.PastSeek reached target since) (hle : since ≤ now)
    (hmaster : s.master = .external) {c : Chapter Rat} (hnext : s.nextChapter now = some c) :
    target < c.start := by
  have hlater := List.find?_some (show s.source.chapters.find? _ = some c from hnext)
  exact (h.le_position hle hmaster).trans_lt (not_le.1 (of_decide_eq_true hlater))

end PastSeek

end

/-! ## Seeks that follow each other -/

/-- The requests that the reader serves in a run. -/
def served {S : Type} [Scalar S] {host : Host S} (s : Session host) :
    List (S × Action) → List SeekRequest
  | [] => []
  | (now, action) :: rest =>
    (if action = .readerTurn ∧ s.seekSucceeds now = true then s.seekPending.toList else []) ++
      (s.perform now action).served rest

/-- In this run nothing is asked for but the next chapter, while the external clock leads, and no
frame sets the clock of a stream. -/
def tours {S : Type} [Scalar S] {host : Host S} (s : Session host) : List (S × Action) → Bool
  | [] => true
  | (now, action) :: rest =>
    (action = .readerTurn || s.idles now action) &&
      (s.requested now action = none ||
        (s.master = .external && s.requested now action = s.chapterRequest 1 now)) &&
      (s.perform now action).tours rest

end Session

theorem Chapter.StartsAt.lt {c : Chapter Rat} {micros target : Int} (h : c.StartsAt micros)
    (hlt : (target : Rat) / 1000000 < c.start) : target < c.request.target := by
  rw [h.target]
  rw [h.2] at hlt
  have hscaled : (target : Rat) < micros := by linarith
  exact_mod_cast hscaled

namespace Session

/-- A seek that the reader performs is not pending any more. -/
theorem pending_of_seek {S : Type} [Scalar S] {host : Host S} {s : Session host} {now : S}
    (h : s.Unreported) (hseek : s.seekSucceeds now = true) :
    (s.readerTurn now).seekPending = none := by
  cases calling_readerTurn h now with
  | rests _ hsought => exact absurd (hseek.symm.trans hsought) Bool.noConfusion
  | works _ _ hdealings | ends _ _ _ hdealings => exact congrArg Dealings.pending hdealings

/-- Each seek of a tour leads on from the one before it. -/
theorem served_increase {host : Host Rat} {s : Session host} {reached : Clock Rat} {since : Rat}
    {micros : Int} (h : s.PastSeek reached (micros / 1000000) since)
    (hsorted : s.source.chapters.Pairwise fun a b => a.start ≤ b.start)
    (hwhole : ∀ c ∈ s.source.chapters, ∃ micros, c.StartsAt micros)
    (hpending : ∀ r, s.seekPending = some r → r.byBytes = false ∧ micros < r.target)
    {actions : List (Rat × Action)} (htour : s.tours actions = true)
    (htimes : (since :: actions.map (·.1)).Pairwise (· ≤ ·)) :
    (micros :: (s.served actions).map (·.target)).Pairwise (· < ·) := by
  induction actions generalizing s reached since micros with
  | nil => exact List.pairwise_singleton _ _
  | cons a actions ih =>
    obtain ⟨now, action⟩ := a
    simp only [tours, Bool.and_eq_true, Bool.or_eq_true, decide_eq_true_eq] at htour
    obtain ⟨⟨hidle, hasks⟩, hrest⟩ := htour
    obtain ⟨hlater, htimes⟩ := List.pairwise_cons.1 htimes
    have hle : since ≤ now := hlater now List.mem_cons_self
    have hsource : (s.perform now action).source = s.source :=
      (sameSettings_perform h.timed.order.forced now action).2
    rw [← hsource] at hsorted hwhole
    by_cases hserves : action = .readerTurn ∧ s.seekSucceeds now = true
    · obtain ⟨rfl, hseek⟩ := hserves
      obtain ⟨r, hr⟩ := pending_of_seekSucceeds hseek
      obtain ⟨htime, hlt⟩ := hpending r hr
      have hnone := pending_of_seek h.timed.reader hseek
      have hafter := ih (h.timed.pastSeek h.paced hr htime hseek) hsorted hwhole
        (fun r' hr' => by cases hnone.symm.trans hr') hrest htimes
      have hserved : s.served ((now, .readerTurn) :: actions) =
          r :: (s.perform now .readerTurn).served actions := by
        simp [served, hseek, hr]
      rw [hserved, List.map_cons]
      refine List.pairwise_cons.2 ⟨List.forall_mem_cons.2 ⟨hlt, fun x hx => ?_⟩, hafter⟩
      exact hlt.trans ((List.pairwise_cons.1 hafter).1 x hx)
    · have hhere : s.idles now action = true := by
        rcases hidle with hreader | hidle
        · subst hreader
          simpa [idles] using hserves
        · exact hidle
      have hserved : s.served ((now, action) :: actions) =
          (s.perform now action).served actions := by
        rw [served, if_neg hserves, List.nil_append]
      rw [hserved]
      refine ih (h.perform hle hhere) hsorted hwhole (fun r hr => ?_) hrest htimes
      rcases pending_perform h.timed.reader now action hr with hold | hnew
      · exact hpending r hold
      · rcases hasks with hnone | ⟨hmaster, hnext⟩
        · cases hnone.symm.trans hnew
        · rw [hsource] at hsorted hwhole
          rw [hnext, chapterRequest_next hsorted] at hnew
          obtain ⟨c, hc, rfl⟩ := Option.map_eq_some_iff.1 hnew
          obtain ⟨n, hn⟩ := hwhole c (List.mem_of_find?_eq_some hc)
          exact ⟨rfl, hn.lt (h.lt_start hle hmaster hc)⟩

end Session

namespace Chapters

/-- Four chapters of ten seconds. -/
def chapters : List (Chapter Rat) :=
  [⟨0, 10, "a"⟩, ⟨10, 20, "b"⟩, ⟨20, 30, "c"⟩, ⟨30, 40, "d"⟩]

open PictureAndSound PictureScript in
/-- A packet with a picture and one with a block of sound. -/
def host : Host Rat :=
  let s := script #[.row (row 0), .row (sound 1)]
  Host.scripted { s with info := { s.info with chapters := chapters } } {}

theorem startsAt : ∀ c ∈ chapters, ∃ micros, c.StartsAt micros := by
  refine List.forall_mem_cons.2 ⟨⟨0, ?_⟩, List.forall_mem_cons.2 ⟨⟨10000000, ?_⟩,
    List.forall_mem_cons.2 ⟨⟨20000000, ?_⟩, List.forall_mem_cons.2 ⟨⟨30000000, ?_⟩, nofun⟩⟩⟩⟩
  all_goals exact ⟨by decide, by norm_num⟩

/-- A seek by five seconds is asked for at the start of the source. -/
def asked : List (Rat × Session.Action) :=
  [(0, .start), (0, .seek 5000)]

/-- Nothing of the new epoch was read yet when the display and the device go on. -/
def waiting : List (Rat × Session.Action) :=
  [(1 / 10, .refresh), (1 / 5, .fill 2 100)]

/-- Two chapters are asked for, one after the other. -/
def touring : List (Rat × Session.Action) :=
  waiting ++ [(1 / 4, .seekChapter 1), (1 / 4, .readerTurn), (1 / 4, .refresh),
    (1 / 2, .seekChapter 1), (1 / 2, .readerTurn)]

end Chapters

/-- The session has done whatever it did since it was opened on a source with sorted chapters, and
the next turn of the reader performs the seek `r`. -/
structure Session.SeeksNext {S : Type} [Scalar S] {host : Host S} (s : Session host) (now : S)
    (r : SeekRequest) : Prop where
  reached : ∃ uri options screen opened s₀ actions,
    Session.open host uri options screen opened = .ok s₀ ∧ s = s₀.run actions
  sorted : s.source.chapters.Pairwise fun a b => a.start ≤ b.start
  pending : s.seekPending = some r
  succeeds : s.seekSucceeds now = true

namespace Session.SeeksNext

section

variable {S : Type} [Scalar S] {host : Host S} {s : Session host} {now : S} {r : SeekRequest}

theorem wellTimed (h : s.SeeksNext now r) : s.WellTimed := by
  obtain ⟨_, _, _, _, s₀, actions, hopen, rfl⟩ := h.reached
  exact (WellTimed.start hopen).run actions

theorem sinceSeek (h : s.SeeksNext now r) :
    (s.readerTurn now).SinceSeek (r.reached s.externalClock now) :=
  h.wellTimed.sinceSeek h.pending h.succeeds

/-- A session that goes on after the seek still plays the same source. -/
theorem source_eq (h : s.SeeksNext now r) (actions : List (S × Action)) :
    ((s.readerTurn now).run actions).source = s.source :=
  (sameSettings_run h.sinceSeek.timed.order actions).2.trans
    (sameSettings_perform h.wellTimed.order.forced now .readerTurn).2

end

theorem pastSeek {host : Host Rat} {s : Session host} {now : Rat} {r : SeekRequest}
    (h : s.SeeksNext now r) (htime : r.byBytes = false) :
    (s.readerTurn now).PastSeek (r.reached s.externalClock now) (r.target / 1000000) now := by
  have hpaced : s.clocks.Paced := by
    obtain ⟨_, _, _, _, s₀, actions, hopen, rfl⟩ := h.reached
    exact of_run (motive := fun s => s.clocks.Paced) (paced_open hopen)
      (fun _ now action h => paced_perform h now action) actions
  exact h.wellTimed.pastSeek hpaced h.pending htime h.succeeds

end Session.SeeksNext

/-- The seek to the next chapter, where no frame has set the clock of a stream since the reader has
performed a seek by time. The next chapter is the first one that has not started at the position of
the leading clock. If the external clock leads, it has gone on from the target of the last seek and
has followed no other clock. If the clock of a stream leads, the position is the start of the
source, unless this clock speaks on because the host has refused a buffer.

In exact arithmetic the next chapter starts after the target of the last seek if and only if all
chapters do that start after the position. While the external clock leads, this is so, since that
clock is never behind the target. If all chapters start at whole microseconds, seeks to the next
chapter that are served one after the other then have greater and greater targets. -/
theorem next_chapter {r : SeekRequest} (htime : r.byBytes = false) :
    (∀ {S : Type} [Scalar S] [IsTrans S (· ≤ ·)] {host : Host S} {s : Session host} {now : S},
      s.SeeksNext now r →
      let p := s.readerTurn now
      let reached := s.externalClock.setAt (Scalar.ofInt r.target / 1000000.0) 0 now
      ∀ actions later, p.idle actions = true →
        let u := p.run actions
        let position := u.chapterPosition later
        let next := s.source.chapters.find? fun c => ¬ c.start ≤ position
        (u.seekChapter 1 later).seekPending = u.seekPending.or (next.map Chapter.request) ∧
        (u.master = .external → reached.RunsFree u.externalClock ∧
          position = (u.externalClock.valueAt later).getD 0.0) ∧
        (u.master ≠ .external → position = 0.0 ∨
          u.master = .video ∧ host.Refuses ∧
            ∃ v, u.videoStream = some v ∧ v.packets.aborted = true)) ∧
    ∀ {host : Host Rat} {s : Session host} {now : Rat}, s.SeeksNext now r →
      let p := s.readerTurn now
      (∀ actions later, p.idle actions = true →
        (now :: actions.map (·.1) ++ [later]).Pairwise (· ≤ ·) →
        let u := p.run actions
        let position := u.chapterPosition later
        let next := s.source.chapters.find? fun c => ¬ c.start ≤ position
        let target := (r.target : Rat) / 1000000
        ((∀ c, next = some c → target < c.start) ↔
          ∀ c ∈ s.source.chapters, position < c.start → target < c.start) ∧
        (u.master = .external → target ≤ position ∧ ∀ c, next = some c → target < c.start)) ∧
      ((∀ c ∈ s.source.chapters, ∃ micros, c.StartsAt micros) →
        ∀ actions, p.tours actions = true → (now :: actions.map (·.1)).Pairwise (· ≤ ·) →
          (r.target :: (p.served actions).map (·.target)).Pairwise (· < ·)) := by
  constructor
  · intro S _ _ host s now h p reached actions later hidle u position next
    have hsource : u.source = s.source := h.source_eq actions
    have hreached : r.reached s.externalClock now = reached := by
      rw [SeekRequest.reached, htime]
      rfl
    have hu : u.SinceSeek reached := hreached ▸ h.sinceSeek.run hidle
    refine ⟨?_, fun hmaster => ⟨hu.external, Session.position_of_external hmaster later⟩,
      fun hmaster => hu.position_eq hmaster later⟩
    have hnext : u.chapterRequest 1 later = next.map Chapter.request := by
      have hfirst := u.chapterRequest_next (by rw [hsource]; exact h.sorted) later
      rw [Session.nextChapter, hsource] at hfirst
      exact hfirst
    rw [← hnext]
    exact congrArg Dealings.pending (u.dealings_seekChapter 1 later)
  · intro host s now h p
    have hpast : p.PastSeek _ (r.target / 1000000) now := h.pastSeek htime
    refine ⟨fun actions later hidle htimes => ?_, fun hwhole actions htour htimes => ?_⟩
    · intro u position next target
      have hu : u.PastSeek _ target later := hpast.run hidle htimes
      have hiff := Chapter.lt_find?_iff h.sorted position target
      refine ⟨hiff, fun hmaster => ?_⟩
      have hle : target ≤ position := hu.le_position (le_refl later) hmaster
      exact ⟨hle, hiff.2 fun c _ hlater => hle.trans_lt hlater⟩
    · have hnone : p.seekPending = none := Session.pending_of_seek h.wellTimed.reader h.succeeds
      have hsource : p.source = s.source := h.source_eq []
      refine Session.served_increase hpast (by rw [hsource]; exact h.sorted)
        (by rw [hsource]; exact hwhole) (fun r' hr' => ?_) htour htimes
      cases hnone.symm.trans hr'

/-- After a seek to five seconds the next chapter is the one that starts at ten seconds, and after
that one the one that starts at twenty. -/
theorem next_chapter_touring :
    ∃ s, Session.open Chapters.host "" { syncMaster := .external } (0 : Nat) 0 = .ok s ∧
      let p := (s.run Chapters.asked).readerTurn 0
      let u := p.run Chapters.waiting
      u.master = .external ∧ 5 ≤ u.chapterPosition (1 / 4) ∧
        (u.seekChapter 1 (1 / 4)).seekPending = some ⟨10000000, 0, false⟩ ∧
        (p.served Chapters.touring).map (·.target) = [10000000, 20000000] ∧
        (5000000 :: (p.served Chapters.touring).map (·.target)).Pairwise (· < ·) := by
  have hopen : ∃ s, Session.open Chapters.host "" { syncMaster := .external } (0 : Nat) 0 = .ok s ∧
      let a := s.run Chapters.asked
      let p := a.readerTurn 0
      let u := p.run Chapters.waiting
      a.source.chapters = Chapters.chapters ∧
        a.seekPending = some ⟨5000000, 5000000, false⟩ ∧ a.seekSucceeds 0 = true ∧
        p.idle Chapters.waiting = true ∧ u.master = .external ∧ u.seekPending = none ∧
        (Chapters.chapters.find? fun c => ¬ c.start ≤ u.chapterPosition (1 / 4)).map
          Chapter.request = some ⟨10000000, 0, false⟩ ∧
        (p.served Chapters.touring).map (·.target) = [10000000, 20000000] ∧
        p.tours Chapters.touring = true :=
    ⟨_, rfl, rfl, by decide +kernel⟩
  obtain ⟨s, hs, hchapters, hpending, hseek, hidle, hmaster, hfree, hnext, hserved, htour⟩ := hopen
  have hsought : (s.run Chapters.asked).SeeksNext 0 ⟨5000000, 5000000, false⟩ := by
    refine ⟨⟨_, _, _, _, s, Chapters.asked, hs, rfl⟩, ?_, hpending, hseek⟩
    rw [hchapters]
    decide +kernel
  obtain ⟨hevery, hexact⟩ := next_chapter (r := ⟨5000000, 5000000, false⟩) rfl
  obtain ⟨hrequest, -, -⟩ := hevery hsought Chapters.waiting (1 / 4) hidle
  obtain ⟨hpress, hincrease⟩ := hexact hsought
  refine ⟨s, hs, hmaster, ?_, ?_, hserved, ?_⟩
  · have hreached := ((hpress Chapters.waiting (1 / 4) hidle (by decide +kernel)).2 hmaster).1
    norm_num at hreached
    exact hreached
  · rw [hrequest, hfree, hchapters, hnext]
    rfl
  · exact hincrease (hchapters ▸ Chapters.startsAt) Chapters.touring htour (by decide +kernel)

/-- A seek to 25 seconds, while the clock of the sound leads: the next chapter is the one that
starts at ten seconds, although the last one starts at thirty. -/
theorem next_chapter_goes_back :
    ∃ s, Session.open Chapters.host "" {} (0 : Nat) 0 = .ok s ∧
      let a := s.run [(0, .start), (0, .seek 25000)]
      let p := a.readerTurn 0
      s.source.chapters = Chapters.chapters ∧
        a.seekPending = some ⟨25000000, 25000000, false⟩ ∧ a.seekSucceeds 0 = true ∧
        p.master = .audio ∧
        (p.seekChapter 1 (1 / 4)).seekPending = some ⟨10000000, 0, false⟩ ∧
        ∃ c ∈ Chapters.chapters, 25 < c.start :=
  ⟨_, rfl, rfl, by decide +kernel⟩

end Playback
