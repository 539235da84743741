import Mathlib.Data.List.Rotate
import Playback.Media.Stream

/-!
# The order of streams

The usable streams of a kind follow each other in the order of the table and around its end. From
each of them on, they are a rotation of the list of all usable ones, and the stream that follows is
the second one there (`after_eq_head?`). So the streams take turns (`after_turn`).
-/

namespace Playback

namespace StreamParams

variable {streams others others' : List StreamParams} {kind : MediaKind} {p : StreamParams}
  {i j : Nat}

/-- The usable streams of a kind, in the order of the table. -/
def usable (streams : List StreamParams) (kind : MediaKind) : List StreamParams :=
  streams.filter (isUsable kind)

theorem mem_usable : p ∈ usable streams kind ↔ p ∈ streams ∧ p.isUsable kind = true :=
  List.mem_filter

theorem kind_of_isUsable (h : p.isUsable kind = true) : p.kind = kind := by
  simp only [isUsable, Bool.and_eq_true, decide_eq_true_eq] at h
  exact h.1

theorem usable_of_pick {wanted : Option Nat} (h : pick streams kind wanted = some p) :
    p ∈ usable streams kind := by
  unfold pick at h
  rcases Option.or_eq_some_iff.1 h with hwanted | ⟨-, hfirst⟩
  · obtain ⟨index, -, hfound⟩ := Option.bind_eq_some_iff.1 hwanted
    exact List.mem_of_find?_eq_some hfound
  · exact List.mem_of_mem_head? hfirst

theorem usable_of_after {index : Nat} (h : after streams kind index = some p) :
    p ∈ usable streams kind := by
  unfold after at h
  split at h
  · cases h
  · refine mem_usable.2 ⟨?_, List.find?_some h⟩
    rcases List.mem_append.1 (List.mem_of_find?_eq_some h) with hmem | hmem
    · exact List.mem_of_mem_drop hmem
    · exact List.mem_of_mem_take hmem

/-! ## Rotations -/

/-- Streams with different numbers are different. -/
theorem nodup_usable (hdistinct : (streams.map (·.index)).Nodup) (kind : MediaKind) :
    (usable streams kind).Nodup :=
  (List.Nodup.of_map _ hdistinct).filter _

/-- Two rotations that begin with the same stream are the same. -/
theorem rotate_unique {l : List StreamParams} (hnodup : l.Nodup) (h : l.rotate i = p :: others)
    (h' : l.rotate j = p :: others') : others = others' := by
  have hlength : 0 < l.length := by
    rw [← List.length_rotate l i, h]
    exact Nat.succ_pos _
  have hhead {n : Nat} {rest : List StreamParams} (hn : l.rotate n = p :: rest) :
      l.get ⟨n % l.length, Nat.mod_lt _ hlength⟩ = p := by
    have hfirst := List.head?_rotate (Nat.mod_lt n hlength)
    rw [List.rotate_mod, hn, List.head?_cons] at hfirst
    exact (List.getElem?_eq_some_iff.1 hfirst.symm).2
  have hsame : i % l.length = j % l.length :=
    (hnodup.getElem_inj_iff).1 ((hhead h).trans (hhead h').symm)
  rw [← List.rotate_mod, hsame, List.rotate_mod, h'] at h
  exact (List.cons.inj h).2.symm

/-! ## The stream that follows -/

theorem after_eq_find? {front back : List StreamParams}
    (hdistinct : ((front ++ p :: back).map (·.index)).Nodup) :
    after (front ++ p :: back) kind p.index = (back ++ front).find? (isUsable kind) := by
  have hbefore : front.findIdx? (·.index = p.index) = none := by
    refine List.findIdx?_eq_none_iff.2 fun q hq => decide_eq_false fun hsame => ?_
    rw [List.map_append, List.map_cons] at hdistinct
    have hdisjoint := (List.nodup_append.1 hdistinct).2.2
    exact hdisjoint _ (List.mem_map_of_mem hq) _ List.mem_cons_self hsame
  have hplace : (front ++ p :: back).findIdx? (·.index = p.index) = some front.length := by
    rw [List.findIdx?_append, hbefore, List.findIdx?_cons]
    simp
  unfold after
  rw [hplace]
  dsimp only
  have hdrop : (front ++ p :: back).drop (front.length + 1) = back := by simp
  have htake : (front ++ p :: back).take front.length = front := by simp
  rw [hdrop, htake]

/-- The stream that follows is the second one of the rotation. There is none if the only usable
stream is the first one. -/
theorem after_eq_head? (hdistinct : (streams.map (·.index)).Nodup)
    (h : (usable streams kind).rotate i = p :: others) :
    after streams kind p.index = others.head? := by
  have hp : p ∈ usable streams kind := by
    rw [← List.mem_rotate (n := i), h]
    exact List.mem_cons_self
  obtain ⟨hmem, husable⟩ := mem_usable.1 hp
  obtain ⟨front, back, rfl⟩ := List.append_of_mem hmem
  have hsplit : usable (front ++ p :: back) kind = usable front kind ++ p :: usable back kind := by
    unfold usable
    rw [List.filter_append, List.filter_cons_of_pos husable]
  have hrotate : (usable (front ++ p :: back) kind).rotate (usable front kind).length =
      p :: (usable back kind ++ usable front kind) := by
    rw [hsplit, List.rotate_append_length_eq]
    rfl
  rw [after_eq_find? hdistinct, rotate_unique (nodup_usable hdistinct kind) h hrotate,
    ← List.head?_filter, List.filter_append]
  rfl

/-! ## Turns -/

/-- The usable stream at a place of the table, counted on around the end of the table. -/
def turn (streams : List StreamParams) (kind : MediaKind) (place : Nat) : Option StreamParams :=
  (usable streams kind)[place % (usable streams kind).length]?

theorem turn_eq_head? (streams : List StreamParams) (kind : MediaKind) (i : Nat) :
    turn streams kind i = ((usable streams kind).rotate i).head? := by
  rcases Nat.eq_zero_or_pos (usable streams kind).length with hnone | hsome
  · simp [turn, List.length_eq_zero_iff.1 hnone]
  · rw [← List.rotate_mod, List.head?_rotate (Nat.mod_lt i hsome)]
    rfl

theorem exists_turn (h : p ∈ usable streams kind) : ∃ i, turn streams kind i = some p := by
  obtain ⟨i, hi, hp⟩ := List.getElem_of_mem h
  exact ⟨i, by rw [turn, Nat.mod_eq_of_lt hi, List.getElem?_eq_getElem hi, hp]⟩

/-- The stream that follows has the next turn. -/
theorem after_turn (hdistinct : (streams.map (·.index)).Nodup)
    (h : turn streams kind i = some p) :
    after streams kind p.index =
      if (usable streams kind).length = 1 then none else turn streams kind (i + 1) := by
  rw [turn_eq_head?] at h
  obtain ⟨others, hrotate⟩ := List.head?_eq_some_iff.1 h
  have hlength : (usable streams kind).length = others.length + 1 := by
    rw [← List.length_rotate _ i, hrotate, List.length_cons]
  rw [after_eq_head? hdistinct hrotate, turn_eq_head?, ← List.rotate_rotate, hrotate, hlength]
  cases others with
  | nil => rfl
  | cons q rest =>
    rw [if_neg (by simp), List.rotate_cons_succ, List.rotate_zero]
    rfl

theorem exists_turn_at (h : p ∈ usable streams kind) (i : Nat) :
    ∃ q ∈ usable streams kind, turn streams kind i = some q := by
  have hi := Nat.mod_lt i (List.length_pos_of_mem h)
  exact ⟨_, List.getElem_mem hi, List.getElem?_eq_getElem hi⟩

/-- A single usable stream has every turn. -/
theorem turn_of_single (h : (usable streams kind).length = 1) (i j : Nat) :
    turn streams kind i = turn streams kind j := by
  rw [turn, turn, h, Nat.mod_one, Nat.mod_one]

end StreamParams

end Playback
