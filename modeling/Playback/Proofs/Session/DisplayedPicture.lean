import Playback.Proofs.Session.EndOfSource
import Playback.Proofs.Session.PictureBook

/-!
# The picture that is fetched for display

A picture that a refresh accepts is marked as pending, and the next fetch gives out the picture that
the ring keeps as shown. As long as no refresh comes in between, that is the accepted one. But the
mark stays when a later refresh throws pictures away or passes over them, and the ring then keeps
the last of these (`picture_to_display`, `stale_picture_displayed`).
-/

namespace Playback

/-- The last picture that was shown, and those that were taken after it. -/
theorem exists_last_shown {α : Type} {taken : List (α × Fate)} (h : ∃ x ∈ taken, x.2 = .shown) :
    ∃ earlier g since, taken = earlier ++ (g, .shown) :: since ∧ ∀ x ∈ since, x.2 ≠ .shown := by
  induction taken with
  | nil => simp at h
  | cons x taken ih =>
    by_cases hrest : ∃ x ∈ taken, x.2 = .shown
    · obtain ⟨earlier, g, since, rfl, hsince⟩ := ih hrest
      exact ⟨x :: earlier, g, since, rfl, hsince⟩
    · obtain ⟨y, hy, hshown⟩ := h
      rcases List.mem_cons.1 hy with rfl | hy
      · exact ⟨[], y.1, taken, by rw [← hshown]; rfl, fun x hx hx' => hrest ⟨x, hx, hx'⟩⟩
      · exact absurd ⟨y, hy, hshown⟩ hrest

/-- What the display has taken last is what a ring keeps. -/
theorem Flow.Books.last? {S σ : Type} {f : Flow S σ DecodedPicture (VideoFrame S)}
    {returned : List (Returned S)} {taken : List (VideoFrame S × Fate)}
    {l : FrameLog (VideoFrame S)} (h : f.Books returned taken l) (htaken : taken ≠ []) :
    f.frames.last? = taken.getLast?.map (·.1) := by
  have hpos : 0 < l.taken := h.count ▸ List.length_pos_iff.2 htaken
  rw [(h.holds.shown_of_taken h.keeps hpos).2, ← List.getLast?_map, h.taken,
    List.getLast?_eq_getElem?, List.length_take_of_le h.holds.taken_le, List.getElem?_take_of_lt]
  omega

namespace PictureBook.Kept

variable {S : Type} [Scalar S] {host : Host S} {b : PictureBook host}

/-- A picture is fetched if one is pending and the stream is open, and it is the one that the
display has taken last. -/
theorem takePicture_eq (h : b.Kept) :
    b.session.takePicture.1 =
      if b.session.displayPending && b.session.video.isSome then b.taken.getLast?.map (·.1)
      else none := by
  unfold Session.takePicture Session.videoStream
  cases hpending : b.session.displayPending with
  | false => rfl
  | true =>
    cases hp : b.session.video with
    | none => rfl
    | some p =>
      have hflow : b.session.flows.video = some p.flow := congrArg (Option.map Pipeline.flow) hp
      obtain ⟨l, hbooks⟩ := h.books p.flow hflow
      obtain ⟨x, hx, -⟩ := h.pending hpending p.flow hflow
      exact hbooks.last? (List.ne_nil_of_mem hx)

end PictureBook.Kept

/-! ## Two pictures and a seek -/

namespace SoughtAway

open PictureScript in
/-- Two packets with one picture each. -/
def host : Host Rat :=
  Host.scripted (script 1 #[.row (row 0), .row (row 1)] none) {}

/-- Both pictures come into the ring, and the first one is accepted. -/
def accepted : List (Rat × Session.Action) :=
  [(0, .start), (0, .readerTurn), (0, .readerTurn)] ++ List.replicate 4 (0, .videoStep) ++
    [(1 / 20, .refresh)]

/-- Before it is fetched, a seek succeeds, and the next refresh throws the second picture away. -/
def sought : List (Rat × Session.Action) :=
  accepted ++ [(1 / 20, .seek 400), (1 / 20, .readerTurn), (1 / 20, .refresh)]

end SoughtAway

/-! ## Every run -/

section

variable {S : Type} [Scalar S] {host : Host S} {uri : String} {options : Options S}
  {screen : host.Screen} {opened : S} {s : Session host}

/-- A picture is fetched for display whenever one is pending and the stream is open. It is the one
that was accepted last, if no picture was thrown away or passed over since then, and otherwise it is
the last one of these. -/
theorem picture_to_display (hopen : Session.open host uri options screen opened = .ok s)
    (actions : List (S × Session.Action)) :
    let b := (PictureBook.start s).run actions
    b.session = s.run actions ∧
    (∀ now f, b.session.accepted now = some f ↔ (f, .shown) ∈ b.session.passed now) ∧
    b.session.takePicture.1.isSome = (b.session.displayPending && b.session.video.isSome) ∧
    ∀ f, b.session.takePicture.1 = some f →
      ∃ earlier g since, b.taken = earlier ++ (g, .shown) :: since ∧
        (∀ x ∈ since, x.2 ≠ .shown) ∧
        (since = [] ∧ f = g ∨ ∃ fate, since.getLast? = some (f, fate)) := by
  intro b
  have hkept : b.Kept := (PictureBook.Kept.start hopen).run actions
  have hlast (hboth : (b.session.displayPending && b.session.video.isSome) = true) :
      ∃ earlier g since, b.taken = earlier ++ (g, .shown) :: since ∧
        ∀ x ∈ since, x.2 ≠ .shown := by
    obtain ⟨hpending, hopen⟩ := Bool.and_eq_true_iff.1 hboth
    obtain ⟨p, hp⟩ := Option.isSome_iff_exists.1 hopen
    exact exists_last_shown
      (hkept.pending hpending p.flow (congrArg (Option.map Pipeline.flow) hp))
  refine ⟨PictureBook.session_run _ actions,
    Session.accepted_iff hkept.forced fun f hf => ⟨_, _, hkept.books f hf⟩, ?_, fun f hf => ?_⟩
  · rw [hkept.takePicture_eq]
    split
    · rename_i hboth
      obtain ⟨earlier, g, since, htaken, -⟩ := hlast hboth
      rw [hboth, htaken, List.getLast?_append_cons]
      simp
    · rename_i hnot
      exact (Bool.eq_false_iff.2 hnot).symm
  · rw [hkept.takePicture_eq] at hf
    split at hf
    · rename_i hboth
      obtain ⟨earlier, g, since, htaken, hsince⟩ := hlast hboth
      refine ⟨earlier, g, since, htaken, hsince, ?_⟩
      obtain ⟨x, hx, rfl⟩ := Option.map_eq_some_iff.1 hf
      rw [htaken, List.getLast?_append_cons] at hx
      cases since with
      | nil =>
        obtain rfl := Option.some.inj hx
        exact .inl ⟨rfl, rfl⟩
      | cons y since =>
        rw [List.getLast?_cons_cons] at hx
        exact .inr ⟨x.2, hx⟩
    · cases hf

/-- The first picture is fetched when it was accepted. -/
theorem picture_to_display_first :
    ∃ s, Session.open SoughtAway.host "" {} (0 : Nat) 0 = .ok s ∧
      let b := (PictureBook.start s).run SoughtAway.accepted
      ∃ f, b.session.takePicture.1 = some f ∧ f.pos = some 1000 ∧
        ∃ earlier, b.taken = earlier ++ [(f, .shown)] := by
  have hopen : ∃ s, Session.open SoughtAway.host "" {} (0 : Nat) 0 = .ok s ∧
      let b := (PictureBook.start s).run SoughtAway.accepted
      b.session.takePicture.1.map (·.pos) = some (some 1000) ∧
        b.taken.all (·.2 = .shown) = true :=
    ⟨_, rfl, by decide +kernel⟩
  obtain ⟨s, hs, hpos, hall⟩ := hopen
  obtain ⟨f, hf, hpos⟩ := Option.map_eq_some_iff.1 hpos
  obtain ⟨-, -, -, hfetch⟩ := picture_to_display hs SoughtAway.accepted
  obtain ⟨earlier, g, since, htaken, hsince, hcases⟩ := hfetch f hf
  have hnone : since = [] := by
    refine List.eq_nil_iff_forall_not_mem.2 fun x hx => hsince x hx ?_
    have hmem := List.mem_append_right earlier (List.mem_cons_of_mem (g, Fate.shown) hx)
    exact of_decide_eq_true (List.all_eq_true.1 hall x (htaken ▸ hmem))
  subst hnone
  rcases hcases with ⟨-, rfl⟩ | ⟨fate, hlast⟩
  · exact ⟨s, hs, f, hf, hpos, earlier, htaken⟩
  · cases hlast

/-- The first picture was accepted and the second one thrown away, and the second one is fetched. -/
theorem stale_picture_displayed :
    ∃ s, Session.open SoughtAway.host "" {} (0 : Nat) 0 = .ok s ∧
      let b := (PictureBook.start s).run SoughtAway.sought
      b.taken.map (fun x => (x.1.pos, x.2)) = [(some 1000, .shown), (some 1001, .stale)] ∧
        b.session.takePicture.1.map (·.pos) = some (some 1001) := by
  refine ⟨_, rfl, ?_⟩
  decide +kernel

end

end Playback
