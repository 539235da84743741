import Mathlib.Algebra.Order.Field.Rat
import Playback.Proofs.Synthetic.Supply

/-!
# Packets come in the order of their starts

A source that does not stall merges its two streams: of the next packets of both it gives the one
that starts first, and the one of the video stream if they start together. In exact arithmetic no
packet starts before the one ahead of it in its stream, so what was given never comes behind what is
to come (`Merged`). This holds from any position on, even if the streams were left at different
times, and whatever the rates and the packet lengths are.
-/

namespace Playback

namespace Synthetic

namespace Generator

/-! ## One read -/

section Turns

variable {S : Type} [Scalar S]

theorem ready_of_lt (c : Config S) (stall : Option (Stall S)) {n : Nat} {kind : MediaKind}
    (hn : n < (new c stall).packetCount kind) :
    (new c stall).ready n kind =
      some ((new c stall).startOf (kind, n), (new c stall).index kind) := by
  rcases ready_cases c stall n kind with ⟨-, hready⟩ | ⟨hover, -⟩
  · exact hready
  · exact absurd hn (Nat.not_lt.2 hover)

/-- Without a stall, video has its turn unless its next packet starts later. -/
theorem next_video_read (c : Config S) (now : S) (p : Progress S)
    (hleft : ∀ kind, p.next kind < (new c none).packetCount kind) :
    ((new c none).read now p).2.next .video =
      p.next .video + if (new c none).startOf (.video, p.next .video) ≤
        (new c none).startOf (.audio, p.next .audio) then 1 else 0 := by
  have hvideo := ready_of_lt c none (hleft .video)
  have haudio := ready_of_lt c none (hleft .audio)
  have hheld : (new c none).heldBack now p = (false, p) := rfl
  simp only [Progress.next] at hvideo haudio
  show ((new c none).read now p).2.nextVideo = p.nextVideo +
    if (new c none).startOf (.video, p.nextVideo) ≤ (new c none).startOf (.audio, p.nextAudio)
      then 1 else 0
  simp only [read, turn, hvideo, haudio, hheld]
  split_ifs <;> rfl

end Turns

theorem startOf_mono (g : Generator Rat) (kind : MediaKind) {m n : Nat} (h : m ≤ n) :
    g.startOf (kind, m) ≤ g.startOf (kind, n) := by
  have hcast : (m : Rat) ≤ n := by exact_mod_cast h
  cases kind with
  | video =>
    cases hvideo : g.config.video with
    | none => simp [startOf, hvideo]
    | some v =>
      simp only [startOf, hvideo, Option.map_some, Option.getD_some]
      exact div_le_div_of_nonneg_right hcast (Nat.cast_nonneg _)
  | audio =>
    cases haudio : g.config.audio with
    | none => simp [startOf, haudio]
    | some a =>
      simp only [startOf, haudio, Option.map_some, Option.getD_some]
      exact div_le_div_of_nonneg_right
        (mul_le_mul_of_nonneg_right hcast (Nat.cast_nonneg _)) (Nat.cast_nonneg _)

/-- The packet `x` may come before `y`: it starts earlier, or at the same time, unless it is one of
sound and `y` one of video. -/
def Precedes (g : Generator Rat) (x y : MediaKind × Nat) : Prop :=
  g.startOf x < g.startOf y ∨ g.startOf x = g.startOf y ∧ (x.1 = .video ∨ y.1 = .audio)

theorem Precedes.later {g : Generator Rat} {x : MediaKind × Nat} {kind : MediaKind} {m n : Nat}
    (h : g.Precedes x (kind, m)) (hle : m ≤ n) : g.Precedes x (kind, n) := by
  have hmono := g.startOf_mono kind hle
  rcases h with hlt | ⟨heq, hfirst⟩
  · exact .inl (hlt.trans_le hmono)
  · rw [← heq] at hmono
    exact hmono.lt_or_eq.imp id fun h => ⟨h, hfirst⟩

/-- A read gives a packet that precedes the next one of either stream. -/
theorem Gives.precedes {c : Config Rat} {now : Rat} {q : Progress Rat} {kind : MediaKind}
    (h : (new c none).Gives now q kind) {k : MediaKind}
    (hk : q.next k < (new c none).packetCount k) :
    (new c none).Precedes (kind, q.next kind) (k, q.next k) := by
  have hleft := h.isLeft
  -- With both streams left, whether video has moved on tells which of them had its turn.
  have hvideo := h.next .video
  cases kind with
  | video =>
    cases k with
    | video => exact .inr ⟨rfl, .inl rfl⟩
    | audio =>
      rw [next_video_read c now q (by rintro (_ | _) <;> assumption)] at hvideo
      split at hvideo
      · next hle => exact hle.lt_or_eq.imp id fun h => ⟨h, .inl rfl⟩
      · simp at hvideo
  | audio =>
    cases k with
    | video =>
      rw [next_video_read c now q (by rintro (_ | _) <;> assumption)] at hvideo
      split at hvideo
      · simp at hvideo
      · next hlt => exact .inl (not_le.1 hlt)
    | audio => exact .inr ⟨rfl, .inr rfl⟩

end Generator

/-! ## Runs -/

/-- What was given comes in the order of the starts, and ahead of what is to come. -/
structure Merged (g : Generator Rat) (q : Progress Rat) (order : List (MediaKind × Nat)) :
    Prop where
  inOrder : order.Pairwise g.Precedes
  ahead : ∀ x ∈ order, ∀ kind, q.next kind < g.packetCount kind →
    g.Precedes x (kind, q.next kind)

namespace Merged

variable {g : Generator Rat} {q : Progress Rat} {order : List (MediaKind × Nat)}

theorem of_next {q' : Progress Rat} (h : Merged g q order)
    (hnext : ∀ kind, q'.next kind = q.next kind) : Merged g q' order where
  inOrder := h.inOrder
  ahead x hx kind := by
    rw [hnext]
    exact h.ahead x hx kind

theorem gives {c : Config Rat} {now : Rat} {kind : MediaKind} (h : Merged (.new c none) q order)
    (hgives : (Generator.new c none).Gives now q kind) :
    Merged (.new c none) ((Generator.new c none).read now q).2
      (order ++ [(kind, q.next kind)]) where
  inOrder := by
    refine List.pairwise_append.2 ⟨h.inOrder, List.pairwise_singleton _ _, ?_⟩
    intro x hx y hy
    obtain rfl := List.mem_singleton.1 hy
    exact h.ahead x hx kind hgives.isLeft
  ahead := by
    intro x hx k hk
    have hle : q.next k ≤ ((Generator.new c none).read now q).2.next k := by
      rw [hgives.next]
      exact Nat.le_add_right _ _
    have hk' : q.next k < (Generator.new c none).packetCount k := hle.trans_lt hk
    rcases List.mem_append.1 hx with hgiven | hnew
    · exact (h.ahead x hgiven k hk').later hle
    · obtain rfl := List.mem_singleton.1 hnew
      exact (hgives.precedes hk').later hle

end Merged

theorem merged_run (c : Config Rat) (p : Progress Rat) (codec : GrayCodec Rat)
    (events : List (SourceEvent Rat)) :
    let r := (SourceRun.start p codec).run (.new c none) events
    ∃ order ends,
      Supplied (.new c none) p order ends r ∧ Merged (.new c none) r.progress order := by
  intro r
  induction events using List.reverseRecOn with
  | nil => exact ⟨[], 0, .start _ p codec, .nil, by simp⟩
  | append_singleton events e ih =>
    obtain ⟨order, ends, hsupplied, hmerged⟩ := ih
    unfold r
    rw [SourceRun.run_concat]
    rcases SourceRun.perform_cases c none _ e with
      ⟨now, kind, rfl, hgives⟩ | ⟨now, rfl, hexhausted, hend, -⟩ | ⟨-, hnext, houtcomes⟩
    · exact ⟨_, _, hsupplied.gives_packet hgives, hmerged.gives hgives⟩
    · exact ⟨_, _, hsupplied.tells_end hexhausted hend, hmerged.of_next fun _ => by
        simp only [SourceRun.perform, Generator.container, hend]⟩
    · exact ⟨_, _, hsupplied.of_eq hnext houtcomes, hmerged.of_next hnext⟩

/-- Wherever the reading of a source without a stall starts, the packets come in the order of their
starts up to the end, video first where two start together. -/
theorem packets_in_time_order (c : Config Rat) (p : Progress Rat) (codec : GrayCodec Rat)
    (events : List (SourceEvent Rat)) :
    ∃ order,
      ReadsAll (.new c none) p order ((SourceRun.start p codec).run (.new c none) events).outcomes ∧
      order.Pairwise (Generator.new c none).Precedes := by
  obtain ⟨order, ends, hsupplied, hmerged⟩ := merged_run c p codec events
  exact ⟨order, hsupplied.readsAll, hmerged.inOrder⟩

/-- Two pictures and four packets of sound in a second, read from the second picture and from the
beginning of the sound: the sound catches up, and the picture comes ahead of the packet that starts
with it. -/
example :
    let c : Config Rat :=
      { duration := 1
        video := some { fps := 2 }
        audio := some { rate := 4, samplesPerPacket := 1 }
        packetSize := 1 }
    let codec : GrayCodec Rat := ⟨64, 36, none, []⟩
    let r := (SourceRun.start ⟨1, 0, false, none⟩ codec).run (.new c none)
      (List.replicate 6 (.read 0))
    r.outcomes = packetReads (.new c none) 1
      [(.audio, 0), (.audio, 1), (.video, 1), (.audio, 2), (.audio, 3)] ++ [.ok .endOfFile] := by
  decide +kernel

end Synthetic

end Playback
