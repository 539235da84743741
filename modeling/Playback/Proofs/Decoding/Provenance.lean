import Playback.Proofs.Decoding.Steps

/-!
# Where the units of a codec come from

A codec that was flushed and then fed some entries (`Fed`) gives units that depend on these entries
only, if it is `Forgetful`. Such a unit is `Made` from the packets of an epoch if the entries that
it depends on carry no others.

Between the reader that fills a packet queue and the decoder that empties it, `Supply` says what
holds at every moment, with the packets that were put since the marker of the epoch: the queue
still holds that marker and these packets behind it, or the codec was fed the first of them and
the queue holds the rest. So the units of the current epoch that a decoder gives out were all made
from these packets (`Supply.ran`).
-/

namespace Playback

/-- The packet that an entry carries. -/
def Entry.packet? : Entry → Option Packet
  | .data packet => some packet
  | _ => none

/-- The packets that entries carry. -/
def packetsOf (entries : List Entry) : List Packet :=
  entries.filterMap Entry.packet?

theorem packetsOf_append (entries entries' : List Entry) :
    packetsOf (entries ++ entries') = packetsOf entries ++ packetsOf entries' :=
  List.filterMap_append

/-! ## Codecs that forget -/

namespace Codec

variable {S M σ F : Type}

/-- The states that a codec can get into after it was opened in the state `c`. -/
inductive Reached (codec : Codec S M σ F) (c : σ) : σ → Prop
  | opened : Reached codec c c
  | flushed {s : σ} (h : Reached codec c s) : Reached codec c (codec.flush s)
  | answered {s : σ} (h : Reached codec c s) (now : S) (m : M) (e : Entry) :
      Reached codec c (codec.answer now m s e).2.1

/-- The codec was flushed at some time, and fed the entries since then. -/
inductive Fed (codec : Codec S M σ F) (c : σ) : σ → List Entry → Prop
  | flushed {s : σ} (h : Reached codec c s) : Fed codec c (codec.flush s) []
  | answered {s : σ} {es : List Entry} (h : Fed codec c s es) (now : S) (m : M) {e : Entry}
      (he : e ≠ .flush) : Fed codec c (codec.answer now m s e).2.1 (es ++ [e])

/-- What the codec gives depends on nothing but what it was fed since it was flushed. -/
def Forgetful (codec : Codec S M σ F) (c : σ) : Prop :=
  ∀ (es : List Entry) (e : Entry), e ≠ .flush →
    ∀ s s' : σ, codec.Fed c s es → codec.Fed c s' es → ∀ (now now' : S) (m m' : M),
      (codec.answer now m s e).1 = (codec.answer now' m' s' e).1

/-- A unit that the codec gives for the last of some entries that carry the first of the packets,
whenever it is fed these entries after a flush. -/
def Made (codec : Codec S M σ F) (c : σ) (packets : List Packet) (u : F) : Prop :=
  ∃ (es : List Entry) (e : Entry), e ≠ .flush ∧ packetsOf (es ++ [e]) <+: packets ∧
    (∃ s, codec.Fed c s es) ∧
    ∀ s, codec.Fed c s es → ∀ (now : S) (m : M),
      ∃ us, (codec.answer now m s e).1 = .ok us ∧ u ∈ us

variable {codec : Codec S M σ F} {c s : σ} {packets packets' : List Packet} {u : F}

theorem Made.mono (h : codec.Made c packets u) (hpackets : packets <+: packets') :
    codec.Made c packets' u := by
  obtain ⟨es, e, he, hprefix, hfed, hmade⟩ := h
  exact ⟨es, e, he, hprefix.trans hpackets, hfed, hmade⟩

theorem Forgetful.made (hforget : codec.Forgetful c) {es : List Entry} {e : Entry} {now : S}
    {m : M} {us : List F} (hfed : codec.Fed c s es) (he : e ≠ .flush)
    (hpackets : packetsOf (es ++ [e]) <+: packets) (hanswer : (codec.answer now m s e).1 = .ok us)
    (hu : u ∈ us) : codec.Made c packets u := by
  refine ⟨es, e, he, hpackets, ⟨s, hfed⟩, fun s' hfed' now' m' => ⟨us, ?_, hu⟩⟩
  rw [hforget es e he s' s hfed' hfed now' now m' m, hanswer]

/-- A codec that is always the same after a flush, and looks at nothing but its own state. -/
theorem forgetful_of_flush (hflush : ∀ s s', codec.flush s = codec.flush s')
    (hanswer : ∀ (e : Entry) (s : σ) (now now' : S) (m m' : M),
      (codec.answer now m s e).1 = (codec.answer now' m' s e).1 ∧
        (codec.answer now m s e).2.1 = (codec.answer now' m' s e).2.1) (c : σ) :
    codec.Forgetful c := by
  -- two states that were fed the same since a flush are the same
  have hsame : ∀ (es : List Entry) (s s' : σ), codec.Fed c s es → codec.Fed c s' es → s = s' := by
    intro es s s' hs
    induction hs generalizing s' with
    | @flushed s hreached =>
      intro hs'
      generalize hes : ([] : List Entry) = es at hs'
      cases hs' with
      | flushed hreached' => exact hflush s _
      | answered => simp at hes
    | @answered s es hs now m e he ih =>
      intro hs'
      generalize hes : es ++ [e] = es' at hs'
      cases hs' with
      | flushed hreached' => simp at hes
      | @answered s' es' hs' now' m' e' he' =>
        obtain ⟨rfl, hlast⟩ := List.append_inj' hes rfl
        obtain rfl : e = e' := List.head_eq_of_cons_eq hlast
        rw [ih s' hs']
        exact (hanswer e s' now now' m m').2
  intro es e he s s' hs hs' now now' m m'
  rw [hsame es s s' hs hs']
  exact (hanswer e s' now now' m m').1

end Codec

/-! ## Units with the epoch that they are stamped with -/

/-- A unit that is stamped with the epoch `s`, while the packets are those of the epoch `serial`. -/
structure Vouched {S M σ F : Type} (codec : Codec S M σ F) (c : σ) (packets : List Packet)
    (serial s : Nat) (u : F) : Prop where
  le : s ≤ serial
  made : s = serial → codec.Made c packets u

namespace Vouched

variable {S M σ F : Type} {codec : Codec S M σ F} {c : σ} {packets packets' : List Packet}
  {serial serial' s : Nat} {u : F}

theorem mono (h : Vouched codec c packets serial s u) (hpackets : packets <+: packets') :
    Vouched codec c packets' serial s u :=
  ⟨h.le, fun hs => (h.made hs).mono hpackets⟩

/-- In a later epoch nothing is said of a unit any more. -/
theorem supersede (h : Vouched codec c packets serial s u) (hlt : serial < serial') :
    Vouched codec c packets' serial' s u := by
  have hle := h.le
  exact ⟨by omega, fun hs => by omega⟩

end Vouched

/-! ## From the queue into the codec -/

open PacketQueue

/-- The packets that were put since the marker of the epoch are in the queue or in the codec, and
what the decoder has ready of the epoch was made from them. -/
structure Supply {S M σ F : Type} (codec : Codec S M σ F) (c : σ) (packets : List Packet)
    (d : Decoder S σ F) (q : PacketQueue) : Prop where
  ordered : q.Ordered d.serial
  reached : codec.Reached c d.codec
  source : q.aborted = true ∨
    (∃ rest, q.Opens rest ∧ packetsOf (rest.map (·.entry)) = packets) ∨
    (q.Current q.entries ∧ ∃ es, codec.Fed c d.codec es ∧
      packetsOf (es ++ q.entries.map (·.entry)) = packets)
  pending : ∀ u ∈ d.pending, Vouched codec c packets q.serial d.serial u

namespace Supply

variable {S M σ F : Type} {codec : Codec S M σ F} {c s : σ} {packets : List Packet}
  {d d' : Decoder S σ F} {q q' : PacketQueue} {e : QueuedEntry}

/-! ### The reader puts entries -/

theorem fresh (codec : Codec S M σ F) (kind : MediaKind) (c : σ) (timeBase : Ratio)
    (fallback : S) :
    Supply codec c [] (Decoder.new kind c timeBase fallback) PacketQueue.new.start where
  ordered := ordered_new.perform .start
  reached := .opened
  source := .inr (.inl ⟨[], opens_append_flush (d := 0) ⟨.nil, nofun, nofun, Nat.le_refl 0⟩, rfl⟩)
  pending := nofun

theorem put (h : Supply codec c packets d q) (hrun : q.aborted = false) {e : Entry}
    (he : e ≠ .flush) : Supply codec c (packets ++ packetsOf [e]) d (q.put e) := by
  have hput : q.put e = q.append e := put_of_running hrun e
  have hserial : (q.append e).serial = q.serial := if_neg he
  refine ⟨h.ordered.put e, h.reached, ?_, fun u hu => ?_⟩
  · rw [hput]
    rcases h.source with hab | ⟨rest, hopens, hrest⟩ | ⟨hcurrent, es, hfed, hes⟩
    · rw [hrun] at hab
      cases hab
    · refine .inr (.inl ⟨_, hopens.append he, ?_⟩)
      rw [List.map_append, packetsOf_append, hrest]
      rfl
    · have hentries : (q.append e).entries = q.entries ++ [⟨e, q.serial⟩] := by
        rw [entries_append, hserial]
      refine .inr (.inr ⟨hentries ▸ hcurrent.append he, es, hfed, ?_⟩)
      rw [hentries, List.map_append, ← List.append_assoc, packetsOf_append, hes]
      rfl
  · rw [hput, hserial]
    exact (h.pending u hu).mono (List.prefix_append _ _)

theorem putAll (h : Supply codec c packets d q) (hrun : q.aborted = false) {entries : List Entry}
    (hentries : ∀ e ∈ entries, e ≠ .flush) :
    Supply codec c (packets ++ packetsOf entries) d (q.putAll entries) := by
  induction entries generalizing q packets with
  | nil => exact (List.append_nil packets).symm ▸ h
  | cons e entries ih =>
    have hrest : ∀ e ∈ entries, e ≠ .flush := fun x hx => hentries x (List.mem_cons_of_mem e hx)
    have hput := h.put hrun (hentries e List.mem_cons_self)
    have hall := ih hput ((aborted_put q e).trans hrun) hrest
    rwa [List.append_assoc, ← packetsOf_append] at hall

/-- With its marker an epoch begins that has no packets yet. -/
theorem restart (h : Supply codec c packets d q) (hrun : q.aborted = false) :
    Supply codec c [] d q.restart := by
  have hrestart : q.restart = q.clear.append .flush := restart_of_running hrun
  refine ⟨h.ordered.clear.put .flush, h.reached, ?_, fun u hu => ?_⟩
  · rw [hrestart]
    exact .inr (.inl ⟨[], opens_append_flush h.ordered.clear, rfl⟩)
  · rw [hrestart]
    exact (h.pending u hu).supersede (Nat.lt_succ_self q.serial)

theorem clear_of_aborted (h : Supply codec c packets d q) (haborted : q.aborted = true) :
    Supply codec c packets d q.clear :=
  ⟨h.ordered.clear, h.reached, .inl haborted, h.pending⟩

theorem abort (h : Supply codec c packets d q) : Supply codec c packets d q.abort :=
  ⟨h.ordered.perform .abort, h.reached, .inl rfl, h.pending⟩

/-! ### The decoder takes an entry -/

theorem skip (h : Supply codec c packets d q) (htake : q.take = .ready (e, q'))
    (hne : e.serial ≠ q'.serial) (hserial : d'.serial = e.serial) (hcodec : d'.codec = d.codec)
    (hpending : d'.pending = []) : Supply codec c packets d' q' := by
  obtain ⟨haborted, -, hq, haborted'⟩ := take_eq_ready htake
  obtain ⟨hordered, -, -⟩ := h.ordered.take htake
  refine ⟨hserial ▸ hordered, hcodec ▸ h.reached, ?_, by rw [hpending]; exact nofun⟩
  rcases h.source with hab | ⟨rest, hopens, hrest⟩ | ⟨hcurrent, -⟩
  · rw [haborted] at hab
    cases hab
  · rcases hopens.take htake with ⟨rfl, -⟩ | ⟨-, hopens'⟩
    · exact absurd hq.symm hne
    · exact .inr (.inl ⟨rest, hopens', hrest⟩)
  · obtain ⟨⟨-, heq⟩, -⟩ := hcurrent.take htake
    exact absurd (heq.trans hq.symm) hne

/-- After its marker was taken, an epoch starts with a codec that was just flushed. -/
theorem flush (h : Supply codec c packets d q) (htake : q.take = .ready (e, q'))
    (heq : e.serial = q'.serial) (hentry : e.entry = .flush) (hserial : d'.serial = e.serial)
    (hcodec : d'.codec = codec.flush d.codec) (hpending : d'.pending = []) :
    Supply codec c packets d' q' := by
  obtain ⟨haborted, -, hq, -⟩ := take_eq_ready htake
  obtain ⟨hordered, -, -⟩ := h.ordered.take htake
  refine ⟨hserial ▸ hordered, hcodec ▸ h.reached.flushed, ?_, by rw [hpending]; exact nofun⟩
  rcases h.source with hab | ⟨rest, hopens, hrest⟩ | ⟨hcurrent, -⟩
  · rw [haborted] at hab
    cases hab
  · rcases hopens.take htake with ⟨-, hentries, hcurrent⟩ | ⟨hlt, -⟩
    · subst hentries
      exact .inr (.inr ⟨hcurrent, [], hcodec ▸ .flushed h.reached, hrest⟩)
    · omega
  · obtain ⟨⟨hne, -⟩, -⟩ := hcurrent.take htake
    exact absurd hentry hne

/-- What the codec gives for an entry was made from the packets of the epoch up to this entry. -/
theorem feed (h : Supply codec c packets d q) (hforget : codec.Forgetful c)
    (htake : q.take = .ready (e, q')) (heq : e.serial = q'.serial) (hentry : e.entry ≠ .flush)
    {now : S} {m m' : M} {reply : Except CodecFailure (List F)}
    (hanswer : codec.answer now m d.codec e.entry = (reply, s, m')) (hserial : d'.serial = e.serial)
    (hcodec : d'.codec = s) (hpending : ∀ u ∈ d'.pending, ∃ us, reply = .ok us ∧ u ∈ us) :
    Supply codec c packets d' q' := by
  obtain ⟨haborted, hentries, hq, -⟩ := take_eq_ready htake
  obtain ⟨hordered, -, -⟩ := h.ordered.take htake
  have hreply : (codec.answer now m d.codec e.entry).1 = reply := by rw [hanswer]
  have hstate : d'.codec = (codec.answer now m d.codec e.entry).2.1 := by rw [hanswer, hcodec]
  obtain ⟨hcurrent, es, hfed, hes⟩ : q.Current q.entries ∧ ∃ es, codec.Fed c d.codec es ∧
      packetsOf (es ++ q.entries.map (·.entry)) = packets := by
    rcases h.source with hab | ⟨rest, hopens, -⟩ | hcurrent
    · rw [haborted] at hab
      cases hab
    · rcases hopens.take htake with ⟨rfl, -⟩ | ⟨hlt, -⟩
      · exact absurd rfl hentry
      · omega
    · exact hcurrent
  have hsplit : packetsOf ((es ++ [e.entry]) ++ q'.entries.map (·.entry)) = packets := by
    rw [← hes, hentries, List.map_cons, List.append_assoc, List.singleton_append]
  refine ⟨hserial ▸ hordered, hstate ▸ h.reached.answered now m e.entry, .inr (.inr ?_), ?_⟩
  · obtain ⟨-, hcurrent'⟩ := hcurrent.take htake
    exact ⟨hcurrent', es ++ [e.entry], hstate ▸ hfed.answered now m hentry, hsplit⟩
  · intro u hu
    obtain ⟨us, hok, hmem⟩ := hpending u hu
    have hprefix : packetsOf (es ++ [e.entry]) <+: packets := by
      rw [← hsplit, packetsOf_append (es ++ [e.entry])]
      exact List.prefix_append _ _
    exact ⟨by omega, fun _ => hforget.made hfed hentry hprefix (hreply.trans hok) hmem⟩

/-! ### A call for the next frame -/

theorem of_fields (h : Supply codec c packets d q) (hserial : d'.serial = d.serial)
    (hcodec : d'.codec = d.codec) (hpending : ∀ u ∈ d'.pending, u ∈ d.pending) :
    Supply codec c packets d' q :=
  ⟨hserial ▸ h.ordered, hcodec ▸ h.reached, hcodec ▸ h.source,
    fun u hu => hserial ▸ h.pending u (hpending u hu)⟩

variable [Scalar S] [CodecUnit F] {now : S}

/-- What a call gives out is of the current epoch and was made from its packets. -/
theorem ran {b : DecoderBench S M σ F} {r : Decoder.Run S M σ F} (hforget : codec.Forgetful c)
    (hran : Decoder.Ran codec now b r) (h : Supply codec c packets b.decoder b.queue) :
    Supply codec c packets r.decoder r.queue ∧
      ∀ f, r.result = .frame f →
        Supply codec c packets r.before r.queue ∧ f.serial = r.queue.serial ∧
          f.pos = CodecUnit.pos f.content ∧ codec.Made c packets f.content := by
  induction hran with
  | emits hemit =>
    obtain ⟨hserial, ⟨f, rest, t, hpending, rfl, hf, hpos, rfl⟩ | ⟨-, -, rfl, rfl⟩⟩ :=
      Decoder.emit?_eq_some hemit
    · have hmem : f.content ∈ f.content :: rest := List.mem_cons_self
      refine ⟨h.of_fields rfl rfl fun u hu => ?_, fun f' hf' => ?_⟩
      · rw [hpending]
        exact List.mem_cons_of_mem _ hu
      · obtain rfl : f = f' := Decoded.frame.inj hf'
        exact ⟨h, hf.trans hserial.symm, hpos, (h.pending _ (hpending ▸ hmem)).made hserial.symm⟩
    · exact ⟨h.of_fields rfl rfl fun u hu => hu, nofun⟩
  | aborts _ hd | waits _ hd =>
    subst hd
    exact ⟨h.of_fields rfl rfl nofun, nofun⟩
  | skips _ htake hserial _ ih => exact ih (h.skip htake hserial rfl rfl rfl)
  | flushes _ htake hserial hentry _ ih => exact ih (h.flush htake hserial hentry rfl rfl rfl)
  | fails _ htake hserial hentry hanswer hd =>
    subst hd
    exact ⟨h.feed hforget htake hserial hentry hanswer rfl rfl nofun, nofun⟩
  | feeds _ htake hserial hentry hanswer _ ih =>
    exact ih (h.feed hforget htake hserial hentry hanswer rfl rfl fun u hu => ⟨_, rfl, hu⟩)

theorem next (h : Supply codec c packets d q) (hforget : codec.Forgetful c) (now : S) (m : M) :
    let r := d.next codec now q m
    Supply codec c packets r.decoder r.queue ∧
      ∀ f, r.result = .frame f →
        Supply codec c packets r.before r.queue ∧ f.serial = r.queue.serial ∧
          f.pos = CodecUnit.pos f.content ∧ codec.Made c packets f.content := by
  have hwake : Supply codec c packets d.wake q := by
    unfold Decoder.wake
    split_ifs
    · exact h.of_fields rfl rfl fun u hu => hu
    · exact h
  exact hwake.ran hforget (Decoder.ran_next codec now d q m)

end Supply

end Playback
