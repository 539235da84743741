import Playback.Proofs.Decoding.Steps
import Playback.Scalar.Exact
import Playback.Source.Scripted

/-!
# The calls that a codec receives

Between work for one epoch and work for another, a codec is told to forget what it holds. This is
so however the calls of a decoder are mixed with what happens to its queue, as long as a queue that
drops its entries opens a new epoch at once: the marker of the current epoch is then either still
in the queue, or was fed to the codec before anything else of the epoch (`Fit`), or the queue is
aborted and gives out nothing.
-/

namespace Playback

namespace CodecCall

/-- The codec is given something to decode, or asked for what it holds. -/
def Works : CodecCall → Prop
  | decode _ _ => True
  | drain _ => True
  | flush _ => False

/-- In a list of calls, oldest first, work for different epochs has a flush in between, no work
comes before the first flush, and the epochs of the work never go down. -/
structure Disciplined (calls : List CodecCall) : Prop where
  flush_between : ∀ (i j : Nat) (a b : CodecCall), i < j →
    calls[i]? = some a → calls[j]? = some b → a.Works → b.Works →
    a.serial ≠ b.serial → ∃ k s : Nat, i < k ∧ k < j ∧ calls[k]? = some (flush s)
  flush_first : ∀ (j : Nat) (b : CodecCall), calls[j]? = some b → b.Works →
    ∃ k s : Nat, k < j ∧ calls[k]? = some (flush s)
  serial_mono : ∀ (i j : Nat) (a b : CodecCall), i < j →
    calls[i]? = some a → calls[j]? = some b → a.Works → b.Works →
    a.serial ≤ b.serial

/-- The codec was flushed, and since then it worked for the epoch `serial` only. -/
def Ready (calls : List CodecCall) (serial : Nat) : Prop :=
  ∃ before s after, calls = before ++ flush s :: after ∧ ∀ c ∈ after, c.Works → c.serial = serial

variable {calls : List CodecCall} {c : CodecCall}

theorem disciplined_nil : Disciplined [] where
  flush_between i j a b _ h := by simp at h
  flush_first j b h := by simp at h
  serial_mono i j a b _ h := by simp at h

theorem ready_concat_flush (calls : List CodecCall) (s serial : Nat) :
    Ready (calls ++ [flush s]) serial :=
  ⟨calls, s, [], rfl, nofun⟩

theorem Ready.concat {serial : Nat} (h : Ready calls serial) (hc : c.serial = serial) :
    Ready (calls ++ [c]) serial := by
  obtain ⟨before, s, after, rfl, hafter⟩ := h
  refine ⟨before, s, after ++ [c], by simp, fun x hx hwork => ?_⟩
  rcases List.mem_append.1 hx with hx | hx
  · exact hafter x hx hwork
  · rw [List.mem_singleton.1 hx, hc]

/-- Seen from the end, a codec that is ready was flushed after all work for other epochs. -/
theorem Ready.flush_after {serial : Nat} (h : Ready calls serial) :
    ∃ k s : Nat, k < calls.length ∧ calls[k]? = some (flush s) ∧
      ∀ (i : Nat) (a : CodecCall), k ≤ i → calls[i]? = some a → a.Works → a.serial = serial := by
  obtain ⟨before, s, after, rfl, hafter⟩ := h
  refine ⟨before.length, s, by simp, by simp, fun i a hi ha hwork => ?_⟩
  rw [List.getElem?_append_right hi] at ha
  rcases Nat.eq_zero_or_pos (i - before.length) with hzero | hpos
  · rw [hzero, List.getElem?_cons_zero, Option.some.injEq] at ha
    exact absurd hwork (ha ▸ id)
  · obtain ⟨n, hn⟩ := Nat.exists_eq_succ_of_ne_zero hpos.ne'
    rw [hn, List.getElem?_cons_succ] at ha
    exact hafter a (List.mem_of_getElem? ha) hwork

/-- One more call keeps the discipline if it is a flush, or if the codec is ready for it. -/
theorem Disciplined.concat (h : Disciplined calls)
    (hready : c.Works → Ready calls c.serial)
    (hle : c.Works → ∀ a ∈ calls, a.Works → a.serial ≤ c.serial) :
    Disciplined (calls ++ [c]) := by
  -- only the last call is new, and all that is said of it follows from `Ready.flush_after`
  have hold : ∀ {i : Nat} {x}, calls[i]? = some x → (calls ++ [c])[i]? = some x := fun hx =>
    (List.getElem?_append_left (List.getElem?_eq_some_iff.1 hx).1).trans hx
  have hcases : ∀ {j : Nat} {x}, (calls ++ [c])[j]? = some x →
      calls[j]? = some x ∨ (j = calls.length ∧ x = c) := by
    intro j x hx
    rcases Nat.lt_trichotomy j calls.length with hj | hj | hj
    · exact .inl ((List.getElem?_append_left hj).symm.trans hx)
    · rw [hj, List.getElem?_concat_length, Option.some.injEq] at hx
      exact .inr ⟨hj, hx.symm⟩
    · rw [List.getElem?_eq_none (by simp; omega)] at hx
      cases hx
  refine ⟨fun i j a b hij ha hb hwa hwb hne => ?_, fun j b hb hwb => ?_,
    fun i j a b hij ha hb hwa hwb => ?_⟩
  · rcases hcases hb with hb | ⟨rfl, rfl⟩
    · have hi : i < calls.length := hij.trans (List.getElem?_eq_some_iff.1 hb).1
      rw [List.getElem?_append_left hi] at ha
      obtain ⟨k, s, hik, hkj, hk⟩ := h.flush_between i j a b hij ha hb hwa hwb hne
      exact ⟨k, s, hik, hkj, hold hk⟩
    · rw [List.getElem?_append_left hij] at ha
      obtain ⟨k, s, hlt, hk, hafter⟩ := (hready hwb).flush_after
      refine ⟨k, s, ?_, hlt, hold hk⟩
      by_contra hle
      exact hne (hafter i a (Nat.le_of_not_lt hle) ha hwa)
  · rcases hcases hb with hb | ⟨rfl, rfl⟩
    · obtain ⟨k, s, hkj, hk⟩ := h.flush_first j b hb hwb
      exact ⟨k, s, hkj, hold hk⟩
    · obtain ⟨k, s, hlt, hk, -⟩ := (hready hwb).flush_after
      exact ⟨k, s, hlt, hold hk⟩
  · rcases hcases hb with hb | ⟨rfl, rfl⟩
    · have hi : i < calls.length := hij.trans (List.getElem?_eq_some_iff.1 hb).1
      rw [List.getElem?_append_left hi] at ha
      exact h.serial_mono i j a b hij ha hb hwa hwb
    · rw [List.getElem?_append_left hij] at ha
      exact hle hwb a (List.mem_of_getElem? ha) hwa

end CodecCall

theorem Entry.works_call {e : Entry} {serial : Nat} (h : (e.call serial).Works) : e ≠ .flush := by
  rintro rfl
  exact h

/-! ## The marker before the work -/

open CodecCall PacketQueue

/-- A codec that received `calls` fits to a decoder in the epoch `serial` and its queue. -/
structure Fit (calls : List CodecCall) (serial : Nat) (q : PacketQueue) : Prop where
  disciplined : Disciplined calls
  ordered : q.Ordered serial
  works_le : ∀ c ∈ calls, c.Works → c.serial ≤ serial
  /-- The queue gives out nothing, or the marker of its epoch first, or the codec is ready. -/
  opened : q.aborted = true ∨ (∃ rest, q.Opens rest) ∨
    (q.Current q.entries ∧ Ready calls q.serial)

namespace Fit

variable {calls : List CodecCall} {serial : Nat} {q q' : PacketQueue} {e : QueuedEntry}

/-- An entry that is taken is the marker, or left over, or the codec is ready for it. -/
theorem opened_take (h : Fit calls serial q) (htake : q.take = .ready (e, q')) :
    (e = ⟨.flush, q.serial⟩ ∧ q'.Current q'.entries) ∨
      (e.serial < q.serial ∧ ∃ rest, q'.Opens rest) ∨
      (e.entry ≠ .flush ∧ e.serial = q.serial ∧ q'.Current q'.entries ∧ Ready calls q.serial) := by
  rcases h.opened with habort | ⟨rest, hopens⟩ | ⟨hcurrent, hready⟩
  · rw [(take_eq_ready htake).1] at habort
    cases habort
  · rcases hopens.take htake with ⟨he, hrest, hcurrent⟩ | ⟨hlt, hopens'⟩
    · exact .inl ⟨he, hrest ▸ hcurrent⟩
    · exact .inr (.inl ⟨hlt, rest, hopens'⟩)
  · obtain ⟨⟨hentry, hserial⟩, hcurrent'⟩ := hcurrent.take htake
    exact .inr (.inr ⟨hentry, hserial, hcurrent', hready⟩)

theorem skip (h : Fit calls serial q) (htake : q.take = .ready (e, q'))
    (hne : e.serial ≠ q'.serial) : Fit calls e.serial q' := by
  have hserial := (take_eq_ready htake).2.2.1
  obtain ⟨hordered, hle, -⟩ := h.ordered.take htake
  refine ⟨h.disciplined, hordered, fun c hc hwork => (h.works_le c hc hwork).trans hle, ?_⟩
  rcases h.opened_take htake with ⟨rfl, -⟩ | ⟨-, hopens⟩ | ⟨-, heq, -⟩
  · exact absurd hserial.symm hne
  · exact .inr (.inl hopens)
  · exact absurd (heq.trans hserial.symm) hne

/-- Feeding an entry of the current epoch keeps the discipline. -/
theorem feed (h : Fit calls serial q) (htake : q.take = .ready (e, q'))
    (heq : e.serial = q'.serial) : Fit (calls ++ [e.entry.call e.serial]) e.serial q' := by
  have hserial := (take_eq_ready htake).2.2.1
  obtain ⟨hordered, hle, -⟩ := h.ordered.take htake
  have hworks : ∀ c ∈ calls, c.Works → c.serial ≤ e.serial := fun c hc hwork =>
    (h.works_le c hc hwork).trans hle
  have hcases := h.opened_take htake
  refine ⟨h.disciplined.concat (fun hwork => ?_) (fun _ => by simpa using hworks), hordered,
    fun c hc hwork => ?_, .inr (.inr ?_)⟩
  · rcases hcases with ⟨rfl, -⟩ | ⟨hlt, -⟩ | ⟨-, hcur, -, hready⟩
    · exact absurd rfl (Entry.works_call hwork)
    · omega
    · rw [Entry.serial_call, hcur]
      exact hready
  · rcases List.mem_append.1 hc with hc | hc
    · exact hworks c hc hwork
    · rw [List.mem_singleton.1 hc, Entry.serial_call]
  · rcases hcases with ⟨rfl, hcurrent⟩ | ⟨hlt, -⟩ | ⟨-, hcur, hcurrent, hready⟩
    · exact ⟨hcurrent, ready_concat_flush _ _ _⟩
    · omega
    · exact ⟨hcurrent, hserial ▸ hready.concat (by rw [Entry.serial_call, hcur])⟩

/-! ### The operations on the queue -/

theorem start (h : Fit calls serial q) : Fit calls serial q.start := by
  have hordered : ({ q with aborted := false } : PacketQueue).Ordered serial :=
    ⟨h.ordered.1, h.ordered.2, h.ordered.3, h.ordered.4⟩
  exact ⟨h.disciplined, hordered.append .flush, h.works_le,
    .inr (.inl ⟨[], opens_append_flush hordered⟩)⟩

theorem put (h : Fit calls serial q) (e : Entry) : Fit calls serial (q.put e) := by
  refine ⟨h.disciplined, h.ordered.put e, h.works_le, ?_⟩
  cases habort : q.aborted with
  | true => exact .inl ((put_of_aborted habort e).symm ▸ habort)
  | false =>
    rw [put_of_running habort]
    by_cases he : e = .flush
    · exact .inr (.inl ⟨[], he ▸ opens_append_flush h.ordered⟩)
    · rcases h.opened with habs | ⟨rest, hopens⟩ | ⟨hcurrent, hready⟩
      · rw [habort] at habs
        cases habs
      · exact .inr (.inl ⟨_, hopens.append he⟩)
      · have hserial : (q.append e).serial = q.serial := if_neg he
        refine .inr (.inr ⟨?_, hserial.symm ▸ hready⟩)
        rw [entries_append, hserial]
        exact hcurrent.append he

theorem abort (h : Fit calls serial q) : Fit calls serial q.abort :=
  ⟨h.disciplined, ⟨h.ordered.1, h.ordered.2, h.ordered.3, h.ordered.4⟩, h.works_le, .inl rfl⟩

/-- A queue that drops its entries and opens a new epoch at once. -/
theorem restart (h : Fit calls serial q) : Fit calls serial q.restart := by
  have hordered : q.restart.Ordered serial := h.ordered.clear.put .flush
  refine ⟨h.disciplined, hordered, h.works_le, ?_⟩
  cases habort : q.aborted with
  | true =>
    rw [restart_of_aborted habort]
    exact .inl habort
  | false =>
    rw [restart_of_running habort]
    exact .inr (.inl ⟨[], opens_append_flush h.ordered.clear⟩)

theorem perform (h : Fit calls serial q) {op : QueueOp} (hop : op ≠ .clear) :
    Fit calls serial (q.perform op) := by
  cases op with
  | start => exact h.start
  | put packet => exact h.put _
  | marker => exact h.put _
  | endOfStream => exact h.put _
  | clear => exact absurd rfl hop
  | abort => exact h.abort

/-! ### Runs -/

variable {S M σ F : Type} [Scalar S] [CodecUnit F] {codec : Codec S M σ F} {now : S}

/-- A call for the next frame keeps the discipline; `earlier` are the calls before it. -/
theorem ran {b : DecoderBench S M σ F} {r : Decoder.Run S M σ F}
    (hran : Decoder.Ran codec now b r) (earlier : List CodecCall)
    (h : Fit (earlier ++ b.calls.reverse) b.decoder.serial b.queue) :
    Fit (earlier ++ r.calls) r.decoder.serial r.queue := by
  induction hran with
  | emits hemit =>
    rw [Decoder.serial_emit? hemit]
    exact h
  | aborts _ hd | waits _ hd =>
    subst hd
    exact h
  | skips _ htake hserial _ ih => exact ih (h.skip htake hserial)
  | flushes _ htake hserial hentry _ ih =>
    refine ih ?_
    have hfed := h.feed htake hserial
    rw [hentry] at hfed
    rw [List.reverse_cons, ← List.append_assoc]
    exact hfed
  | fails _ htake hserial _ _ hd =>
    subst hd
    rw [List.reverse_cons, ← List.append_assoc]
    exact h.feed htake hserial
  | feeds _ htake hserial _ _ _ ih =>
    refine ih ?_
    rw [List.reverse_cons, ← List.append_assoc]
    exact h.feed htake hserial

end Fit

namespace DecoderBench

variable {S M σ F : Type}

/-- A decoder and a queue that was just started, with a codec in any state. -/
def fresh (kind : MediaKind) (c : σ) (timeBase : Ratio) (fallback : S) (m : M) :
    DecoderBench S M σ F :=
  ⟨Decoder.new kind c timeBase fallback, PacketQueue.new.start, m, []⟩

theorem fit_fresh (kind : MediaKind) (c : σ) (timeBase : Ratio) (fallback : S) (m : M) :
    let b : DecoderBench S M σ F := fresh kind c timeBase fallback m
    Fit b.calls.reverse b.decoder.serial b.queue :=
  Fit.start ⟨disciplined_nil, ordered_new, nofun, .inl rfl⟩

variable [Scalar S] [CodecUnit F] {codec : Codec S M σ F} {b : DecoderBench S M σ F}

/-- Each time that the queue drops its entries, a flush marker follows directly. -/
def Restarting : List (BenchOp S M) → Prop
  | [] => True
  | .queue .clear :: .queue .marker :: rest => Restarting rest
  | .queue .clear :: _ => False
  | _ :: rest => Restarting rest

theorem fit_next (h : Fit b.calls.reverse b.decoder.serial b.queue) (now : S) :
    let b' := b.perform codec (.next now)
    Fit b'.calls.reverse b'.decoder.serial b'.queue := by
  have hran := Decoder.ran_next codec now b.decoder b.queue b.medium
  have hfit := Fit.ran hran b.calls.reverse (by simpa using h)
  simpa [perform, nextCall_fst] using hfit

theorem fit_run {ops : List (BenchOp S M)} (hops : Restarting ops)
    (h : Fit b.calls.reverse b.decoder.serial b.queue) :
    Fit (b.run codec ops).calls.reverse (b.run codec ops).decoder.serial
      (b.run codec ops).queue := by
  -- the recursion of `Restarting` takes a clear together with the marker after it: between the two
  -- the codec may be ready for entries that the queue has just dropped
  fun_induction Restarting ops generalizing b with
  | case1 => exact h
  | case2 rest ih => exact ih hops h.restart
  | case3 => exact hops.elim
  | case4 op rest hop hop' ih =>
    refine ih hops ?_
    cases op with
    | queue op => exact h.perform (by rintro rfl; exact hop' rfl)
    | medium m => exact h
    | next now => exact fit_next h now

/-- The calls that a codec receives in any run are disciplined, if its queue opens a new epoch
whenever it drops its entries. -/
theorem calls_disciplined (codec : Codec S M σ F) (kind : MediaKind) (c : σ) (timeBase : Ratio)
    (fallback : S) (m : M) {ops : List (BenchOp S M)} (hops : Restarting ops) :
    Disciplined ((fresh kind c timeBase fallback m).run codec ops).calls.reverse :=
  (fit_run hops (fit_fresh kind c timeBase fallback m)).disciplined

/-- Two packets around a seek whose marker the decoder sees only later: the calls, and their
discipline. -/
theorem calls_disciplined_seek :
    let codec : Codec Rat Unit (List DecodedPicture) DecodedPicture :=
      Script.codec #[] ScriptRow.pictures none
    let ops : List (BenchOp Rat Unit) :=
      [.next 0, .queue (.put default), .next 0, .queue (.put default), .queue .clear,
        .queue .marker, .queue (.put default), .queue .endOfStream, .next 0]
    let calls := ((fresh .video [] ⟨1, 25⟩ 0 ()).run codec ops).calls.reverse
    Restarting ops ∧ Disciplined calls ∧
      calls = [.flush 1, .decode 1 default, .flush 2, .decode 2 default, .drain 2] :=
  ⟨trivial, calls_disciplined _ _ _ _ _ _ trivial, by decide⟩

end DecoderBench

end Playback
