import Playback.Proofs.Session.EndOfSource
import Playback.Proofs.Session.PictureBook

/-!
# Every picture is accounted for

As long as a video stream is open and its decode loop has not ended, no picture that the decoder
gives out is lost, and none is counted twice (`pictures_accounted`). It was dropped before the ring,
or it was taken from the ring and shown, passed over or thrown away, or it waits in the ring. At
most one is still in the hands of the decode loop.

In the same states a refresh ends after as many looks as there are pictures in the ring, and one. It
accepts at most one picture, and it passes over none without another one of the current epoch behind
it.
-/

namespace Playback

open FrameRing

/-! ## Fates -/

theorem length_eq_fates {α : Type} (taken : List (α × Fate)) :
    taken.length = taken.countP (·.2 = .shown) + taken.countP (·.2 = .late) +
      taken.countP (·.2 = .stale) := by
  induction taken with
  | nil => rfl
  | cons x taken ih =>
    obtain ⟨f, _ | _ | _⟩ := x <;> simp only [List.length_cons, List.countP_cons, ih] <;> simp <;>
      omega

theorem Passed.of_stale {S : Type} {serial : Nat} {r : FrameRing (VideoFrame S)}
    {taken : List (VideoFrame S × Fate)} (h : Passed serial r taken) {f : VideoFrame S}
    (hf : (f, .stale) ∈ taken) : f.serial ≠ serial := by
  induction h with
  | nothing => cases hf
  | @stale r f' _ _ hserial _ ih =>
    rcases List.mem_cons.1 hf with heq | hf
    · obtain rfl : f = f' := congrArg Prod.fst heq
      exact hserial
    · exact ih hf
  | late _ _ _ _ ih =>
    rcases List.mem_cons.1 hf with heq | hf
    · cases heq
    · exact ih hf
  | shows => cases List.mem_singleton.1 hf

theorem Returned.length_entering {S : Type} (returned : List (Returned S)) :
    returned.length = returned.countP (·.dropped) + (entering returned).length := by
  have hsplit := List.length_eq_countP_add_countP (fun d : Returned S => d.dropped) (l := returned)
  rw [entering, List.length_map, ← List.countP_eq_length_filter]
  simpa using hsplit

/-! ## What the accounts say -/

/-- The pictures that the decoder of the video stream `p` has given out are all accounted for. -/
structure PictureBook.Accounts {S : Type} [Scalar S] {host : Host S} (b : PictureBook host)
    (p : Pipeline S host.VideoCodec DecodedPicture (VideoFrame S)) : Prop where
  /-- Those that were not dropped were taken by the display, wait in the ring, or are held by the
  decode loop, in this order. -/
  entered : Returned.entering b.returned =
    b.taken.map (·.1) ++ p.stream.frames.waiting ++ p.worker.held
  waiting : p.stream.frames.waiting.length = p.stream.frames.remaining
  held : p.worker.held.length ≤ 1
  early : b.session.metrics.earlyDrops = b.base.earlyDrops + b.drops
  displayed : b.session.metrics.displayed = b.base.displayed + b.fates .shown
  late : b.session.metrics.lateDrops = b.base.lateDrops + b.fates .late
  total : b.returned.length = b.drops + b.fates .shown + b.fates .late + b.fates .stale +
    p.stream.frames.remaining + p.worker.held.length

/-- What a refresh at the moment `now` does to the video stream `v`. -/
structure Session.Refreshes {S : Type} [Scalar S] {host : Host S} (s : Session host)
    (v : Stream S (VideoFrame S)) (now : S) : Prop where
  /-- The loop ends by itself. -/
  ends : ∃ n ≤ v.frames.remaining + 1,
    LooksEnd now n (s.adjusted now) (s.adjusted now).options.refreshRate (s.looked now)
  /-- The pictures that are taken have waited first, and the others go on waiting. -/
  takes : ∃ v', (s.refresh now).2.videoStream = some v' ∧
    v.frames.waiting = (s.passed now).map (·.1) ++ v'.frames.waiting
  /-- No more than one picture is shown, and it is the one that is accepted. -/
  once : (s.passed now).countP (·.2 = .shown) ≤ 1
  accepts : ∀ f, s.accepted now = some f ↔ (f, .shown) ∈ s.passed now
  /-- Only pictures of other epochs are thrown away. -/
  stale : ∀ f, (f, .stale) ∈ s.passed now → f.serial ≠ v.packets.serial
  /-- Behind a picture that is passed over, another one of the current epoch waits in the ring. -/
  followed : ∀ i f, (s.passed now)[i]? = some (f, .late) →
    ∃ f', v.frames.waiting[i + 1]? = some f' ∧ f'.serial = v.packets.serial

namespace PictureBook.Kept

variable {S : Type} [Scalar S] {host : Host S} {b : PictureBook host}
  {p : Pipeline S host.VideoCodec DecodedPicture (VideoFrame S)}

theorem accounts (h : b.Kept) (hp : b.session.video = some p) (hruns : p.worker ≠ .ended) :
    b.Accounts p := by
  have hflow : b.session.flows.video = some p.flow := congrArg (Option.map Pipeline.flow) hp
  obtain ⟨l, hholds, -, hcount, htaken, hentered, -, -⟩ := h.books p.flow hflow
  have hsplit : Returned.entering b.returned =
      b.taken.map (·.1) ++ p.stream.frames.waiting ++ p.worker.held := by
    have hwaiting : p.stream.frames.waiting = l.published.drop l.taken := hholds.waiting_eq
    rw [hentered hruns, htaken, hwaiting, List.take_append_drop]
    rfl
  have hwaiting : p.stream.frames.waiting.length = p.stream.frames.remaining :=
    hholds.length_waiting
  have hheld : p.worker.held.length ≤ 1 := by
    cases p.worker <;> simp [Worker.held]
  refine ⟨hsplit, hwaiting, hheld, h.early, h.displayed, h.late, ?_⟩
  have htotal := Returned.length_entering b.returned
  have hfates := length_eq_fates b.taken
  rw [hsplit, List.length_append, List.length_append, List.length_map, hwaiting] at htotal
  unfold drops fates
  omega

theorem refreshes (h : b.Kept) (hp : b.session.video = some p) (now : S) :
    b.session.Refreshes p.stream now := by
  have hforced : b.session.refreshForced = false := h.forced
  have hflow : b.session.flows.video = some p.flow := congrArg (Option.map Pipeline.flow) hp
  obtain ⟨l, hbooks⟩ := h.books p.flow hflow
  have hpassed : Passed p.stream.packets.serial p.stream.frames (b.session.passed now) :=
    (Session.loops_looked hforced now).passed p.flow hflow
  have hholds : p.stream.frames.Holds l := hbooks.holds
  obtain ⟨-, hfront⟩ := hpassed.holds hholds
  have hordered : p.stream.frames.waiting.Pairwise (·.serial ≤ ·.serial) := by
    rw [hholds.waiting_eq]
    exact (List.pairwise_append.1 hbooks.ordered).1.sublist (List.drop_sublist _ _)
  have hle : ∀ f ∈ p.stream.frames.waiting, f.serial ≤ p.stream.packets.serial := by
    rw [hholds.waiting_eq]
    exact fun f hf => hbooks.current f (List.mem_append_left _ (List.mem_of_mem_drop hf))
  refine ⟨?_, ?_, hpassed.countP_shown,
    Session.accepted_iff hforced (fun f hf => ⟨_, _, h.books f hf⟩) now,
    fun f hf => hpassed.of_stale hf, fun i f hf => hpassed.followed hholds hordered hle hf⟩
  · have hpictures : (b.session.adjusted now).pictures = p.stream.frames.remaining := by
      rw [Session.pictures_eq, (b.session.adjusted_spec now).1, hflow]
      rfl
    have hends := Session.looksEnd_advanceVideo ((b.session.adjusted now).pictures + 1)
      (b.session.adjusted now) (b.session.adjusted now).options.refreshRate now
      (Nat.lt_succ_self _)
    rw [← Session.looked_eq, hpictures] at hends
    exact hends
  · have hafter := congrArg Flows.video (Session.flows_refresh_eq hforced now)
    rw [Flows.onPictures, hflow] at hafter
    obtain ⟨p', hp', hflow'⟩ := Option.map_eq_some_iff.1 hafter
    have hframes : p'.stream.frames = advance^[(b.session.passed now).length] p.stream.frames :=
      congrArg Flow.frames hflow'
    refine ⟨p'.stream, by rw [Session.videoStream, hp']; rfl, ?_⟩
    rw [hframes]
    exact hfront

end PictureBook.Kept

/-! ## A source of eight pictures -/

namespace EightPictures

open PictureScript in
/-- Eight packets with one picture each. -/
def host : Host Rat :=
  Host.scripted (script 1 ((Array.range 8).map fun n => .row (row n)) none) {}

/-- The first picture is shown. The next one is dropped before the ring, and of the two that then
wait the first one is late. After a seek the ring holds two stale pictures, and then two new ones
are decoded. -/
def actions : List (Rat × Session.Action) :=
  [(0, .start)] ++ List.replicate 6 (0, .readerTurn) ++ List.replicate 2 (0, .videoStep) ++
    [(1 / 20, .refresh), (1 / 2, .videoStep)] ++ List.replicate 4 (1 / 20, .videoStep) ++
    [(1 / 5, .refresh)] ++ List.replicate 4 (1 / 5, .videoStep) ++
    [(1 / 5, .seek 0), (1 / 5, .readerTurn), (1 / 5, .readerTurn), (1 / 5, .refresh)] ++
    List.replicate 3 (1 / 5, .videoStep)

end EightPictures

/-! ## Every run -/

/-- As long as the decode loop of an open video stream has not ended, all pictures that its decoder
has given out since the stream was opened are accounted for. Every refresh of an open video stream
ends, accepts at most one picture, and passes over none that is the last of the current epoch in the
ring. -/
theorem pictures_accounted {S : Type} [Scalar S] {host : Host S} {uri : String}
    {options : Options S} {screen : host.Screen} {opened : S} {s : Session host}
    (hopen : Session.open host uri options screen opened = .ok s)
    (actions : List (S × Session.Action)) :
    let b := (PictureBook.start s).run actions
    b.session = s.run actions ∧
      ∀ p, b.session.video = some p →
        (p.worker ≠ .ended → b.Accounts p) ∧ ∀ now, b.session.Refreshes p.stream now := by
  intro b
  refine ⟨PictureBook.session_run _ actions, fun p hp => ?_⟩
  have hkept : b.Kept := (PictureBook.Kept.start hopen).run actions
  exact ⟨hkept.accounts hp, hkept.refreshes hp⟩

/-- Of the eight pictures two were shown, one was passed over and two were thrown away; one was
dropped, one waits and one is held. -/
theorem pictures_accounted_eight :
    ∃ s, Session.open EightPictures.host "" {} (0 : Nat) 0 = .ok s ∧
      let b := (PictureBook.start s).run EightPictures.actions
      b.returned.length = 8 ∧ b.drops = 1 ∧ b.fates .shown = 2 ∧ b.fates .late = 1 ∧
        b.fates .stale = 2 ∧
        ∃ p, b.session.video = some p ∧ b.Accounts p ∧ b.session.Refreshes p.stream (1 / 4) := by
  have hopen : ∃ s, Session.open EightPictures.host "" {} (0 : Nat) 0 = .ok s ∧
      let b := (PictureBook.start s).run EightPictures.actions
      (b.returned.length = 8 ∧ b.drops = 1 ∧ b.fates .shown = 2 ∧ b.fates .late = 1 ∧
        b.fates .stale = 2) ∧ b.session.video.any (fun p => p.worker matches .holding _) = true :=
    ⟨_, rfl, by decide +kernel⟩
  obtain ⟨s, hs, ⟨hreturned, hdrops, hshown, hlate, hstale⟩, hholds⟩ := hopen
  obtain ⟨p, hp, hworker⟩ := (Option.any_eq_true _ _).1 hholds
  obtain ⟨-, hevery⟩ := pictures_accounted hs EightPictures.actions
  obtain ⟨haccounts, hrefreshes⟩ := hevery p hp
  refine ⟨s, hs, hreturned, hdrops, hshown, hlate, hstale, p, hp, haccounts fun hended => ?_,
    hrefreshes (1 / 4)⟩
  rw [hended] at hworker
  cases hworker

end Playback
