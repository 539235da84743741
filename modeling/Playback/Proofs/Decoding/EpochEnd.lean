import Playback.Proofs.Buffer.QueueLedger
import Playback.Proofs.Decoding.Steps

/-!
# The end of an epoch

The reader ends an epoch with an end-of-stream entry, and the decoder that takes it drains its
codec, gives out the rest and reports that the epoch is finished. `Follows` says where a decoder
stands with respect to the entries that were accepted in the current epoch: it has not yet come to
the marker of the epoch, or it has taken the first of these entries and the queue holds the rest.

A decoder remembers the epoch that it has finished until it takes a marker. So a finished epoch
means that an end was taken in it, and what is still queued was put behind that end
(`Follows.behind_end`). There is nothing left to be given out if that is nothing but further ends,
of which the codec makes nothing (`Quiet`).
-/

namespace Playback

/-! ## What stands behind the end -/

/-- The entries behind the first end of the stream. -/
def afterEnd : List Entry → List Entry
  | [] => []
  | .endOfStream :: rest => rest
  | .data _ :: rest | .flush :: rest => afterEnd rest

theorem afterEnd_append {entries : List Entry} (h : Entry.endOfStream ∈ entries)
    (entries' : List Entry) : afterEnd (entries ++ entries') = afterEnd entries ++ entries' := by
  induction entries with
  | nil => cases h
  | cons e entries ih =>
    cases e with
    | endOfStream => rfl
    | data | flush => exact ih (by simpa using h)

theorem afterEnd_of_not_mem {entries : List Entry} (h : Entry.endOfStream ∉ entries)
    (entries' : List Entry) : afterEnd (entries ++ entries') = afterEnd entries' := by
  induction entries with
  | nil => rfl
  | cons e entries ih =>
    cases e with
    | endOfStream => simp at h
    | data | flush => exact ih (by simpa using h)

theorem mem_of_mem_afterEnd {entries : List Entry} {e : Entry} (he : e ∈ afterEnd entries) :
    e ∈ entries := by
  induction entries with
  | nil => cases he
  | cons first entries ih =>
    cases first with
    | endOfStream => exact List.mem_cons_of_mem _ he
    | data | flush => exact List.mem_cons_of_mem _ (ih he)

theorem mem_afterEnd_append {entries : List Entry} {e : Entry} (he : e ∈ afterEnd entries)
    (entries' : List Entry) : e ∈ afterEnd (entries ++ entries') := by
  by_cases h : Entry.endOfStream ∈ entries
  · rw [afterEnd_append h]
    exact List.mem_append_left _ he
  · have hnone := afterEnd_of_not_mem h []
    rw [List.append_nil] at hnone
    rw [hnone] at he
    cases he

namespace Codec

variable {S M σ F : Type}

/-- The state is one that a drain has left behind. -/
def Drained (codec : Codec S M σ F) (s : σ) : Prop :=
  ∃ now m s' units m', codec.drain now m s' = (.ok units, s, m')

/-- A codec that was just drained gives nothing when it is drained again. -/
def DrainsOnce (codec : Codec S M σ F) : Prop :=
  ∀ s, codec.Drained s → ∀ now m units s' m',
    codec.drain now m s = (.ok units, s', m') → units = []

/-- Nothing but further ends stands behind the first end, and the codec makes nothing of these. -/
def Quiet (codec : Codec S M σ F) (entries : List Entry) : Prop :=
  ∀ e ∈ afterEnd entries, e = .endOfStream ∧ codec.DrainsOnce

variable {codec : Codec S M σ F}

theorem Quiet.of_append {entries entries' : List Entry}
    (h : codec.Quiet (entries ++ entries')) : codec.Quiet entries :=
  fun e he => h e (mem_afterEnd_append he entries')

theorem quiet_of_afterEnd {entries : List Entry} (h : afterEnd entries = []) :
    codec.Quiet entries := by
  intro e he
  rw [h] at he
  cases he

end Codec

variable {S M σ F : Type}

/-- A decoder has taken the entries `taken` of its epoch. -/
structure Decoder.HasTaken (codec : Codec S M σ F) (taken : List Entry) (d : Decoder S σ F) :
    Prop where
  unended : .endOfStream ∉ taken → d.drained = false ∧ d.finished ≠ some d.serial
  ended : taken.getLast? = some .endOfStream → d.drained = true ∨ d.finished = some d.serial
  settled : .endOfStream ∈ taken → codec.Quiet taken → codec.Drained d.codec
  done : codec.Quiet taken → d.finished = some d.serial → d.pending = []

/-- A decoder takes the entries of a queue, in whose current epoch the entries `log` were accepted.
An aborted queue may have been cleared since then. -/
structure Follows (codec : Codec S M σ F) (log : List Entry) (d : Decoder S σ F)
    (q : PacketQueue) : Prop where
  ordered : q.Ordered d.serial
  accounted : q.Accounted
  finished : ∀ serial, d.finished = some serial → serial ≤ d.serial
  source :
    (d.serial < q.serial ∧
      (q.aborted = true ∨ ∃ rest, q.Opens rest ∧ rest.map (·.entry) = log)) ∨
    (d.serial = q.serial ∧ q.Current q.entries ∧ ∃ taken dropped,
      log = taken ++ (q.entries.map (·.entry) ++ dropped) ∧
        (q.aborted = false → dropped = []) ∧ d.HasTaken codec taken)

namespace Follows

open Decoder

variable {codec : Codec S M σ F} {log : List Entry} {d : Decoder S σ F} {q : PacketQueue}

/-! ## What follows at any moment -/

/-- The decoder that has finished the current epoch has taken an end of it. -/
theorem of_finished (h : Follows codec log d q) (hfinished : d.finished = some q.serial) :
    ∃ taken dropped, log = taken ++ (q.entries.map (·.entry) ++ dropped) ∧
      .endOfStream ∈ taken ∧ d.serial = q.serial ∧ d.HasTaken codec taken := by
  have hle := h.finished _ hfinished
  rcases h.source with ⟨hlt, -⟩ | ⟨hserial, -, taken, dropped, hlog, -, htaken⟩
  · omega
  · refine ⟨taken, dropped, hlog, ?_, hserial, htaken⟩
    by_contra hnone
    exact (htaken.unended hnone).2 (hserial ▸ hfinished)

/-- What is queued in a finished epoch was put behind the end. -/
theorem behind_end (h : Follows codec log d q) (hfinished : d.finished = some q.serial) :
    ∀ e ∈ q.entries, e.entry ∈ afterEnd log := by
  obtain ⟨taken, dropped, rfl, hend, -, -⟩ := h.of_finished hfinished
  intro e he
  have hentry : e.entry ∈ q.entries.map (·.entry) := List.mem_map_of_mem he
  rw [afterEnd_append hend]
  exact List.mem_append_right _ (List.mem_append_left _ hentry)

theorem not_pending (h : Follows codec log d q) (hquiet : codec.Quiet log)
    (hfinished : d.finished = some q.serial) : d.pending = [] := by
  obtain ⟨taken, dropped, rfl, -, hserial, htaken⟩ := h.of_finished hfinished
  exact htaken.done hquiet.of_append (hserial ▸ hfinished)

theorem unfinished (h : Follows codec [] d q) : d.finished ≠ some q.serial := by
  intro hfinished
  obtain ⟨taken, dropped, hlog, hend, -, -⟩ := h.of_finished hfinished
  obtain ⟨rfl, -⟩ := List.append_eq_nil_iff.1 hlog.symm
  cases hend

/-- An end that was accepted last is the last entry of the queue, or the decoder has come to it. -/
theorem last_end (h : Follows codec log d q) (hrun : q.aborted = false)
    (hlast : log.getLast? = some .endOfStream) :
    q.entries.getLast? = some ⟨.endOfStream, q.serial⟩ ∨
      q.entries = [] ∧ d.serial = q.serial ∧ (d.drained = true ∨ d.finished = some q.serial) := by
  have hqueued {entries : List QueuedEntry} (hcurrent : q.Current entries)
      (hend : (entries.map (·.entry)).getLast? = some .endOfStream) :
      entries.getLast? = some ⟨.endOfStream, q.serial⟩ := by
    rw [List.getLast?_map] at hend
    obtain ⟨e, he, hentry⟩ := Option.map_eq_some_iff.1 hend
    have hserial := (hcurrent e (List.mem_of_getLast? he)).2
    rw [he, ← hentry, ← hserial]
  rcases h.source with ⟨-, haborted | ⟨rest, ⟨hcurrent, old, hentries, -⟩, rfl⟩⟩ |
    ⟨hserial, hcurrent, taken, dropped, rfl, hdropped, htaken⟩
  · rw [hrun] at haborted
    cases haborted
  · refine .inl ?_
    have hrest := hqueued hcurrent hlast
    rw [hentries, List.getLast?_append, List.getLast?_cons, hrest]
    rfl
  · rw [hdropped hrun, List.append_nil] at hlast
    cases hentries : q.entries with
    | nil =>
      rw [hentries, List.map_nil, List.append_nil] at hlast
      rw [← hserial]
      exact .inr ⟨rfl, rfl, htaken.ended hlast⟩
    | cons e rest =>
      refine .inl ?_
      rw [← hentries]
      refine hqueued hcurrent ?_
      rw [hentries, List.map_cons, List.getLast?_append_cons] at hlast
      rw [hentries, List.map_cons, hlast]

/-! ## The queue -/

/-- A stream that was just opened. -/
theorem fresh (codec : Codec S M σ F) (kind : MediaKind) (c : σ) (timeBase : Ratio) (fallback : S) :
    Follows codec [] (.new kind c timeBase fallback) PacketQueue.new.start where
  ordered := PacketQueue.ordered_new.perform .start
  accounted := .start ⟨rfl, rfl⟩
  finished := nofun
  source := by
    have hopens := PacketQueue.opens_append_flush (q := { PacketQueue.new with aborted := false })
      (d := 0) ⟨.nil, by simp [PacketQueue.new], by simp [PacketQueue.new], Nat.le_refl 0⟩
    exact .inl ⟨Nat.zero_lt_one, .inr ⟨[], hopens, rfl⟩⟩

theorem append (h : Follows codec log d q) (hrun : q.aborted = false) {e : Entry}
    (he : e ≠ .flush) : Follows codec (log ++ [e]) d (q.append e) := by
  have hserial : (q.append e).serial = q.serial := if_neg he
  refine ⟨h.ordered.append e, h.accounted.append e, h.finished, ?_⟩
  rcases h.source with ⟨hlt, haborted | ⟨rest, hopens, rfl⟩⟩ |
    ⟨hlevel, hcurrent, taken, dropped, rfl, hdropped, htaken⟩
  · rw [hrun] at haborted
    cases haborted
  · refine .inl ⟨by rwa [hserial], .inr ⟨rest ++ [⟨e, q.serial⟩], hopens.append he, ?_⟩⟩
    rw [List.map_append]
    rfl
  · have hentries : (q.append e).entries = q.entries ++ [⟨e, q.serial⟩] := by
      rw [PacketQueue.entries_append, hserial]
    refine .inr ⟨by rwa [hserial], ?_, taken, [], ?_, fun _ => rfl, htaken⟩
    · rw [hentries]
      exact hcurrent.append he
    · rw [hdropped hrun, hentries]
      simp

theorem putAll (h : Follows codec log d q) (hrun : q.aborted = false) {entries : List Entry}
    (hentries : ∀ e ∈ entries, e ≠ .flush) :
    Follows codec (log ++ entries) d (q.putAll entries) := by
  induction entries generalizing log q with
  | nil =>
    rw [List.append_nil]
    exact h
  | cons e entries ih =>
    have hput : q.put e = q.append e := PacketQueue.put_of_running hrun e
    have happend := h.append hrun (hentries e List.mem_cons_self)
    rw [← hput] at happend
    have hrest := ih happend ((PacketQueue.aborted_put q e).trans hrun) fun x hx =>
      hentries x (List.mem_cons_of_mem e hx)
    rw [List.append_assoc] at hrest
    exact hrest

/-- A new epoch begins, in which nothing was accepted yet. -/
theorem restart (h : Follows codec log d q) (hrun : q.aborted = false) :
    Follows codec [] d q.restart := by
  rw [PacketQueue.restart_of_running hrun]
  have hopens := PacketQueue.opens_append_flush h.ordered.clear
  exact ⟨h.ordered.clear.append .flush, .append (.clear q) .flush, h.finished,
    .inl ⟨Nat.lt_succ_of_le h.ordered.behind, .inr ⟨[], hopens, rfl⟩⟩⟩

theorem abort (h : Follows codec log d q) : Follows codec log d q.abort := by
  obtain ⟨hordered, haccounted, hfinished, hsource⟩ := h
  refine ⟨⟨hordered.1, hordered.2, hordered.3, hordered.4⟩, haccounted.abort, hfinished, ?_⟩
  rcases hsource with ⟨hlt, -⟩ | ⟨hlevel, hcurrent, taken, dropped, hlog, -, htaken⟩
  · exact .inl ⟨hlt, .inl rfl⟩
  · exact .inr ⟨hlevel, hcurrent, taken, dropped, hlog, nofun, htaken⟩

theorem clear_of_aborted (h : Follows codec log d q) (haborted : q.aborted = true) :
    Follows codec log d q.clear := by
  refine ⟨h.ordered.clear, .clear q, h.finished, ?_⟩
  rcases h.source with ⟨hlt, -⟩ | ⟨hlevel, -, taken, dropped, hlog, -, htaken⟩
  · exact .inl ⟨hlt, .inl haborted⟩
  · have hcurrent : q.clear.Current q.clear.entries := by
      simp [PacketQueue.Current, PacketQueue.clear]
    refine .inr ⟨hlevel, hcurrent, taken, q.entries.map (·.entry) ++ dropped, ?_, fun hrun => ?_,
      htaken⟩
    · rw [hlog]
      rfl
    · have hstill : q.clear.aborted = true := haborted
      rw [hrun] at hstill
      cases hstill

/-! ## The decoder -/

variable {e : QueuedEntry} {q' : PacketQueue} {now : S}

theorem wake (h : Follows codec log d q) : Follows codec log d.wake q := by
  unfold Decoder.wake
  split
  · refine ⟨h.ordered, h.accounted, h.finished, ?_⟩
    rcases h.source with hbehind | ⟨hlevel, hcurrent, taken, rest, hlog, hrest, htaken⟩
    · exact .inl hbehind
    · exact .inr ⟨hlevel, hcurrent, taken, rest, hlog, hrest,
        ⟨htaken.unended, htaken.ended, htaken.settled, htaken.done⟩⟩
  · exact h

/-- An entry of an earlier epoch is passed over. -/
theorem skip (h : Follows codec log d q) (htake : q.take = .ready (e, q'))
    (hserial : e.serial ≠ q'.serial) : Follows codec log (d.taking e.serial) q' := by
  obtain ⟨hrun, -, hsame, -⟩ := PacketQueue.take_eq_ready htake
  obtain ⟨hordered, hge, -⟩ := h.ordered.take htake
  have hfinished (serial : Nat) (hs : d.finished = some serial) : serial ≤ e.serial :=
    (h.finished serial hs).trans hge
  refine ⟨hordered, (h.accounted.take htake).1, hfinished, ?_⟩
  rcases h.source with ⟨-, haborted | ⟨rest, hopens, hrest⟩⟩ | ⟨-, hcurrent, -⟩
  · rw [hrun] at haborted
    cases haborted
  · rcases hopens.take htake with ⟨rfl, -⟩ | ⟨hold, hopens'⟩
    · exact absurd hsame.symm hserial
    · refine .inl ⟨?_, .inr ⟨rest, hopens', hrest⟩⟩
      rw [hsame]
      exact hold
  · exact absurd ((hcurrent.take htake).1.2.trans hsame.symm) hserial

/-- The marker of the current epoch is taken. -/
theorem flush (h : Follows codec log d q) (htake : q.take = .ready (e, q'))
    (hserial : e.serial = q'.serial) (hentry : e.entry = .flush) :
    Follows codec log
      { (d.taking e.serial).resetEpoch with
        codec := codec.flush d.codec, phase := .decoding, finished := none } q' := by
  obtain ⟨hrun, -, hsame, -⟩ := PacketQueue.take_eq_ready htake
  obtain ⟨hordered, -, -⟩ := h.ordered.take htake
  refine ⟨hordered, (h.accounted.take htake).1, nofun, ?_⟩
  rcases h.source with ⟨-, haborted | ⟨rest, hopens, rfl⟩⟩ | ⟨-, hcurrent, -⟩
  · rw [hrun] at haborted
    cases haborted
  · rcases hopens.take htake with ⟨-, hentries, hcurrent⟩ | ⟨hold, -⟩
    · refine .inr ⟨hserial, by rwa [hentries], [], [], ?_, fun _ => rfl, ?_⟩
      · rw [hentries, List.nil_append, List.append_nil]
      · exact ⟨fun _ => ⟨rfl, nofun⟩, nofun, nofun, nofun⟩
    · omega
  · exact absurd hentry (hcurrent.take htake).1.1

/-- An entry of the current epoch is fed to the codec. -/
theorem feed (h : Follows codec log d q) (htake : q.take = .ready (e, q'))
    (hserial : e.serial = q'.serial) (hentry : e.entry ≠ .flush) {m m' : M} {units : List F} {s : σ}
    (hanswer : codec.answer now m d.codec e.entry = (.ok units, s, m')) :
    Follows codec log
      { d.taking e.serial with
        codec := s, pending := units, drained := e.entry = .endOfStream } q' := by
  obtain ⟨hrun, hfront, hsame, hstill⟩ := PacketQueue.take_eq_ready htake
  obtain ⟨hordered, hge, -⟩ := h.ordered.take htake
  have hfinished (serial : Nat) (hs : d.finished = some serial) : serial ≤ e.serial :=
    (h.finished serial hs).trans hge
  refine ⟨hordered, (h.accounted.take htake).1, hfinished, ?_⟩
  rcases h.source with ⟨hlt, haborted | ⟨rest, hopens, -⟩⟩ |
    ⟨hlevel, hcurrent, taken, dropped, hlog, hdropped, htaken⟩
  · rw [hrun] at haborted
    cases haborted
  · rcases hopens.take htake with ⟨rfl, -⟩ | ⟨hold, -⟩
    · exact absurd rfl hentry
    · omega
  obtain ⟨⟨-, hlevel'⟩, hcurrent'⟩ := hcurrent.take htake
  have hepoch : e.serial = d.serial := hlevel'.trans hlevel.symm
  refine .inr ⟨hserial, hcurrent', taken ++ [e.entry], dropped, ?_, hstill ▸ hdropped, ?_⟩
  · rw [hlog, hfront, List.map_cons, List.append_assoc]
    rfl
  -- behind an end there is nothing but another end, for which the codec has nothing left
  have hagain (hend : .endOfStream ∈ taken) (hquiet : codec.Quiet (taken ++ [e.entry])) :
      e.entry = .endOfStream ∧ units = [] := by
    have hbehind : e.entry ∈ afterEnd (taken ++ [e.entry]) := by
      rw [afterEnd_append hend]
      exact List.mem_append_right _ (List.mem_singleton_self _)
    obtain ⟨hentry', honce⟩ := hquiet _ hbehind
    rw [hentry'] at hanswer
    exact ⟨hentry', honce _ (htaken.settled hend hquiet.of_append) _ _ _ _ _ hanswer⟩
  constructor
  · intro hunended
    rw [List.mem_append, List.mem_singleton, not_or] at hunended
    refine ⟨decide_eq_false (Ne.symm hunended.2), ?_⟩
    show d.finished ≠ some e.serial
    rw [hepoch]
    exact (htaken.unended hunended.1).2
  · intro hlast
    rw [List.getLast?_concat] at hlast
    exact .inl (decide_eq_true (Option.some.inj hlast))
  · intro hend hquiet
    have hentry' : e.entry = .endOfStream := by
      rcases List.mem_append.1 hend with hbefore | hnow
      · exact (hagain hbefore hquiet).1
      · exact (List.mem_singleton.1 hnow).symm
    rw [hentry'] at hanswer
    exact ⟨now, m, d.codec, units, m', hanswer⟩
  · intro hquiet (hdone : d.finished = some e.serial)
    rw [hepoch] at hdone
    have hend : .endOfStream ∈ taken := by
      by_contra hunended
      exact (htaken.unended hunended).2 hdone
    exact (hagain hend hquiet).2

variable [Scalar S] [CodecUnit F] {b : DecoderBench S M σ F} {r : Run S M σ F}

/-- Only pending units of another epoch are dropped. -/
theorem dropped (h : Follows codec log d q) (hemit : d.emit? q.serial = none) :
    Follows codec log { d with pending := [], drained := false } q := by
  by_cases hserial : q.serial = d.serial
  · have hsame := emit?_eq_none hemit
    rw [dropStale, if_pos hserial] at hsame
    rw [← hsame]
    exact h
  · refine ⟨h.ordered, h.accounted, h.finished, ?_⟩
    rcases h.source with hbehind | ⟨hlevel, -⟩
    · exact .inl hbehind
    · exact absurd hlevel.symm hserial

/-- A unit or the end of the epoch is given out. -/
theorem emit (h : Follows codec log d q) {result : Decoded S F} {d' : Decoder S σ F}
    (hemit : d.emit? q.serial = some (result, d')) : Follows codec log d' q := by
  obtain ⟨hserial, ⟨f, rest, t, hpending, -, -, -, rfl⟩ | ⟨hnone, hdrained, -, rfl⟩⟩ :=
    emit?_eq_some hemit
  all_goals
    obtain ⟨hordered, haccounted, hfinished, hsource⟩ := h
    rcases hsource with ⟨hlt, -⟩ | ⟨hlevel, hcurrent, taken, dropped, hlog, hdropped, htaken⟩
    · omega
  · refine ⟨hordered, haccounted, hfinished,
      .inr ⟨hlevel, hcurrent, taken, dropped, hlog, hdropped, ?_⟩⟩
    refine ⟨htaken.unended, htaken.ended, htaken.settled, fun hquiet hdone => ?_⟩
    rw [htaken.done hquiet hdone] at hpending
    cases hpending
  · refine ⟨hordered, haccounted, fun serial hs => (Option.some.inj hs).ge,
      .inr ⟨hlevel, hcurrent, taken, dropped, hlog, hdropped, ?_⟩⟩
    refine ⟨fun hunended => ?_, fun _ => .inr rfl, htaken.settled, fun _ _ => hnone⟩
    have hnot := (htaken.unended hunended).1
    rw [hdrained] at hnot
    cases hnot

/-- A call that does not fail leaves the decoder as far as it has come, also if the frame that it
gives out is left with the decoder. -/
theorem ran (hran : Ran codec now b r) (h : Follows codec log b.decoder b.queue)
    (hok : ∀ cause, r.result ≠ .failed cause) :
    Follows codec log r.before r.queue ∧ Follows codec log r.decoder r.queue := by
  induction hran with
  | emits hemit => exact ⟨h, h.emit hemit⟩
  | aborts hemit hd =>
    subst hd
    have hdropped := h.dropped hemit
    refine ⟨hdropped, hdropped.ordered, hdropped.accounted, hdropped.finished, ?_⟩
    rcases hdropped.source with hbehind | ⟨hlevel, hcurrent, taken, rest, hlog, hrest, htaken⟩
    · exact .inl hbehind
    · exact .inr ⟨hlevel, hcurrent, taken, rest, hlog, hrest,
        ⟨htaken.unended, htaken.ended, htaken.settled, htaken.done⟩⟩
  | waits hemit hd =>
    subst hd
    exact ⟨h.dropped hemit, h.dropped hemit⟩
  | skips hemit htake hserial _ ih => exact ih (h.skip htake hserial) hok
  | flushes hemit htake hserial hentry _ ih => exact ih (h.flush htake hserial hentry) hok
  | fails => exact absurd rfl (hok _)
  | feeds hemit htake hserial hentry hanswer _ ih =>
    exact ih (h.feed htake hserial hentry hanswer) hok

theorem next (h : Follows codec log d q) (now : S) (m : M)
    (hok : ∀ cause, (d.next codec now q m).result ≠ .failed cause) :
    let r := d.next codec now q m
    Follows codec log r.before r.queue ∧ Follows codec log r.decoder r.queue :=
  ran (ran_next codec now d q m) h.wake hok

end Follows

open Decoder in
/-- A frame that is given out was pending, in the current epoch. -/
theorem Decoder.Ran.pending [Scalar S] [CodecUnit F] {codec : Codec S M σ F} {now : S}
    {b : DecoderBench S M σ F} {r : Run S M σ F} (hran : Ran codec now b r)
    {f : DecodedFrame S F} (hresult : r.result = .frame f) :
    r.before.pending ≠ [] ∧ r.decoder.finished = r.before.finished := by
  induction hran with
  | @emits b result d hemit =>
    obtain rfl : result = .frame f := hresult
    obtain ⟨-, ⟨f, rest, t, hpending, -, -, -, rfl⟩ | ⟨-, -, hnot, -⟩⟩ := emit?_eq_some hemit
    · exact ⟨by simp [hpending], rfl⟩
    · cases hnot
  | aborts | waits | fails => cases hresult
  | skips _ _ _ _ ih | flushes _ _ _ _ _ ih | feeds _ _ _ _ _ _ ih => exact ih hresult

end Playback
