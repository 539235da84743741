import Playback.Proofs.Decoding.Steps

/-!
# Everything that a codec gives is given out

A decoder may be asked for frames in any order with operations on its queue. This file follows the
entries that it takes, the answers of its codec and what it gives out, and compares them epoch by
epoch:

* the calls of the codec are those of the entries that were taken in their own epoch, in order,
* what was given out in an epoch is a prefix of what the codec gave for it (`due`), where the end
  of the epoch counts as given with the answer to the end-of-stream entry,
* in the current epoch the difference is what the decoder still has in `stock` (`Balance`), and
  that is nothing when a call waits or reports the end of the epoch.
-/

namespace Playback

/-- What a decoder gives out: the units of its codec and the ends of epochs. -/
inductive Given (F : Type) where
  | unit (u : F)
  | finish

/-- A call that a codec received, with its answer. -/
abbrev Answered (F : Type) :=
  CodecCall × Except CodecFailure (List F)

/-- The entry that a call was made for. -/
def CodecCall.entry : CodecCall → Entry
  | decode _ packet => .data packet
  | drain _ => .endOfStream
  | flush _ => .flush

@[simp] theorem Entry.entry_call (serial : Nat) (e : Entry) : (e.call serial).entry = e := by
  cases e <;> rfl

namespace Codec

variable {S M σ F : Type}

/-- The answers of a codec to a series of calls, and what becomes of it. -/
def replay (c : Codec S M σ F) (now : S) : List CodecCall → σ → M → List (Answered F) × σ × M
  | [], s, m => ([], s, m)
  | call :: calls, s, m =>
    let (reply, s, m) := c.answer now m s call.entry
    let (answers, s, m) := c.replay now calls s m
    ((call, reply) :: answers, s, m)

theorem replay_calls (c : Codec S M σ F) (now : S) (calls : List CodecCall) (s : σ) (m : M) :
    (c.replay now calls s m).1.map (·.1) = calls := by
  induction calls generalizing s m with
  | nil => rfl
  | cons call calls ih =>
    simp only [Codec.replay, List.map_cons]
    rw [ih]

end Codec

/-! ## What is due -/

section due

variable {F : Type} {s : Nat} {serial : Nat}

/-- What a codec gives with one answer. -/
def Answered.emissions : Answered F → List (Given F)
  | (.decode _ _, .ok units) => units.map .unit
  | (.drain _, .ok units) => units.map .unit ++ [.finish]
  | _ => []

/-- All that a codec gave for the epoch `s`, in order. -/
def due (s : Nat) (answers : List (Answered F)) : List (Given F) :=
  (answers.filter (·.1.serial = s)).flatMap Answered.emissions

/-- All that was given out in the epoch `s`, in order. -/
def givenIn (s : Nat) (given : List (Nat × Given F)) : List (Given F) :=
  (given.filter (·.1 = s)).map (·.2)

theorem due_concat (s : Nat) (answers : List (Answered F)) (a : Answered F) :
    due s (answers ++ [a]) = due s answers ++ if a.1.serial = s then a.emissions else [] := by
  unfold due
  by_cases h : a.1.serial = s <;> simp [h]

theorem givenIn_concat (s : Nat) (given : List (Nat × Given F)) (serial : Nat) (g : Given F) :
    givenIn s (given ++ [(serial, g)]) = givenIn s given ++ if serial = s then [g] else [] := by
  unfold givenIn
  by_cases h : serial = s <;> simp [h]

theorem due_eq_nil {answers : List (Answered F)} (h : ∀ a ∈ answers, a.1.serial < s) :
    due s answers = [] := by
  have hfilter : answers.filter (·.1.serial = s) = [] := by
    rw [List.filter_eq_nil_iff]
    intro a ha
    have hlt := h a ha
    simp only [decide_eq_true_eq]
    omega
  rw [due, hfilter, List.flatMap_nil]

theorem emissions_error (call : CodecCall) (cause : CodecFailure) :
    Answered.emissions (F := F) (call, .error cause) = [] := by
  cases call <;> rfl

theorem emissions_ok {e : Entry} (he : e ≠ .flush) (serial : Nat) (units : List F) :
    Answered.emissions (e.call serial, .ok units) =
      units.map .unit ++ if e = .endOfStream then [.finish] else [] := by
  cases e with
  | flush => exact absurd rfl he
  | endOfStream => rfl
  | data packet => simp [Entry.call, Answered.emissions]

end due

namespace Decoder

variable {S M σ F : Type} {d d' : Decoder S σ F}

/-- What a decoder still has of the epoch `epoch`. -/
def stock (d : Decoder S σ F) (epoch : Nat) : List (Given F) :=
  if epoch = d.serial then d.pending.map .unit ++ if d.drained then [.finish] else [] else []

/-- What a call for the next frame gave out, with its epoch. -/
def Run.given (r : Run S M σ F) : Option (Nat × Given F) :=
  match r.result with
  | .frame f => some (f.serial, .unit f.content)
  | .finished => some (r.decoder.serial, .finish)
  | _ => none

theorem stock_of_eq {epoch : Nat} (h : epoch = d.serial) :
    d.stock epoch = d.pending.map .unit ++ if d.drained then [.finish] else [] :=
  if_pos h

theorem stock_of_ne {epoch : Nat} (h : epoch ≠ d.serial) : d.stock epoch = [] :=
  if_neg h

theorem stock_eq_nil (hpending : d.pending = []) (hdrained : d.drained = false) (epoch : Nat) :
    d.stock epoch = [] := by
  unfold stock
  rw [hpending, hdrained]
  simp

theorem stock_wake (epoch : Nat) : d.wake.stock epoch = d.stock epoch := by
  unfold wake
  split <;> rfl

theorem codec_wake : d.wake.codec = d.codec := by
  unfold wake
  split <;> rfl

theorem stock_taking (serial epoch : Nat) : (d.taking serial).stock epoch = [] :=
  stock_eq_nil rfl rfl epoch

variable [Scalar S] [CodecUnit F] {codec : Codec S M σ F} {now : S} {b : DecoderBench S M σ F}
  {r : Run S M σ F}

theorem stock_of_emit?_eq_none {epoch : Nat} (h : d.emit? epoch = none) : d.stock epoch = [] := by
  by_cases hserial : epoch = d.serial
  swap
  · exact stock_of_ne hserial
  have hd : d = { d with pending := [], drained := false } := by
    rw [← emit?_eq_none h, dropStale, if_pos hserial]
  rw [hd]
  exact stock_eq_nil rfl rfl epoch

/-- What is given out was first in stock. -/
theorem stock_of_emit?_eq_some {epoch : Nat} {result : Decoded S F}
    (h : d.emit? epoch = some (result, d')) (before : Decoder S σ F) (q : PacketQueue) (m : M)
    (calls : List CodecCall) :
    ∃ g, Run.given ⟨result, d', before, q, m, calls⟩ = some (epoch, g) ∧
      d.stock epoch = g :: d'.stock epoch := by
  obtain ⟨rfl, ⟨f, rest, t, hpending, rfl, hf, -, rfl⟩ | ⟨hpending, hdrained, rfl, rfl⟩⟩ :=
    emit?_eq_some h
  · refine ⟨.unit f.content, by simp only [Run.given, hf], ?_⟩
    simp [stock, hpending]
  · refine ⟨.finish, rfl, ?_⟩
    simp [stock, hpending, hdrained]

/-- What is in stock is given out before anything else happens. -/
theorem Ran.of_stock {g : Given F} {rest : List (Given F)} (hran : Ran codec now b r)
    (hstock : b.decoder.stock b.queue.serial = g :: rest) :
    r.given = some (b.queue.serial, g) ∧ r.calls = b.calls.reverse ∧ r.queue = b.queue := by
  have hsome : b.decoder.emit? b.queue.serial ≠ none := fun hnone => by
    rw [stock_of_emit?_eq_none hnone] at hstock
    cases hstock
  cases hran with
  | @emits _ result d hemit =>
    obtain ⟨g', hgiven, hfirst⟩ :=
      stock_of_emit?_eq_some hemit b.decoder b.queue b.medium b.calls.reverse
    rw [hstock] at hfirst
    obtain ⟨rfl, -⟩ := List.cons.inj hfirst
    exact ⟨hgiven, rfl, rfl⟩
  | aborts hnone | waits hnone | skips hnone | flushes hnone | fails hnone | feeds hnone =>
    exact absurd hnone hsome

/-- With nothing left to give out, a call has waited for the queue or seen the end of the epoch. -/
theorem Ran.outcome (hran : Ran codec now b r) :
    (r.result = .wait → r.queue.entries = [] ∧ r.queue.aborted = false ∧
      r.decoder.stock r.queue.serial = []) ∧
    (r.result = .finished → r.decoder.finished = some r.queue.serial ∧
      r.decoder.stock r.queue.serial = []) := by
  induction hran with
  | emits hemit =>
    obtain ⟨hserial, ⟨f, rest, t, -, rfl, -⟩ | ⟨hpending, -, rfl, rfl⟩⟩ := emit?_eq_some hemit
    · exact ⟨nofun, nofun⟩
    · refine ⟨nofun, fun _ => ⟨congrArg some hserial.symm, ?_⟩⟩
      apply stock_eq_nil
      · exact hpending
      · rfl
  | aborts | fails => exact ⟨nofun, nofun⟩
  | waits _ hd haborted hentries =>
    subst hd
    exact ⟨fun _ => ⟨hentries, haborted, stock_eq_nil rfl rfl _⟩, nofun⟩
  | skips _ _ _ _ ih | flushes _ _ _ _ _ ih | feeds _ _ _ _ _ _ ih => exact ih

end Decoder

/-! ## The balance of an epoch -/

/-- What was given out of the answers so far, by a decoder `d` with the queue `q`. -/
structure Balance {S σ F : Type} (d : Decoder S σ F) (q : PacketQueue)
    (answers : List (Answered F)) (given : List (Nat × Given F)) : Prop where
  ordered : q.Ordered d.serial
  answered_le : ∀ a ∈ answers, a.1.serial ≤ d.serial
  given_prefix : ∀ s, givenIn s given <+: due s answers
  /-- In the current epoch the rest is in stock. -/
  balanced : givenIn q.serial given ++ d.stock q.serial = due q.serial answers

namespace Balance

variable {S M σ F : Type} {d d' : Decoder S σ F} {q q' : PacketQueue} {e : QueuedEntry}
  {answers : List (Answered F)} {given : List (Nat × Given F)}

/-- A new epoch begins with nothing due. -/
theorem of_queue (h : Balance d q answers given) (hordered : q'.Ordered d.serial)
    (hle : q.serial ≤ q'.serial) : Balance d q' answers given := by
  refine ⟨hordered, h.answered_le, h.given_prefix, ?_⟩
  rcases Nat.eq_or_lt_of_le hle with heq | hlt
  · rw [← heq]
    exact h.balanced
  · have hd : d.serial < q'.serial := Nat.lt_of_le_of_lt h.ordered.behind hlt
    have hdue : due q'.serial answers = [] :=
      due_eq_nil fun a ha => Nat.lt_of_le_of_lt (h.answered_le a ha) hd
    have hgiven : givenIn q'.serial given = [] :=
      List.prefix_nil.1 (hdue ▸ h.given_prefix q'.serial)
    rw [hdue, hgiven, Decoder.stock_of_ne (by omega), List.nil_append]

theorem of_stock (h : Balance d q answers given) (hserial : d'.serial = d.serial)
    (hstock : d'.stock q.serial = d.stock q.serial) : Balance d' q answers given :=
  ⟨hserial ▸ h.ordered, fun a ha => hserial ▸ h.answered_le a ha, h.given_prefix,
    hstock ▸ h.balanced⟩

/-- The first thing in stock is given out. -/
theorem give (h : Balance d q answers given) {g : Given F} (hserial : d'.serial = d.serial)
    (hstock : d.stock q.serial = g :: d'.stock q.serial) :
    Balance d' q answers (given ++ [(q.serial, g)]) := by
  have hbalanced : (givenIn q.serial given ++ [g]) ++ d'.stock q.serial = due q.serial answers := by
    rw [← h.balanced, hstock, List.append_assoc, List.singleton_append]
  refine ⟨hserial ▸ h.ordered, fun a ha => hserial ▸ h.answered_le a ha, fun s => ?_, ?_⟩
  · rw [givenIn_concat]
    split_ifs with hs
    · rw [← hs, ← hbalanced]
      exact List.prefix_append _ _
    · rw [List.append_nil]
      exact h.given_prefix s
  · rw [givenIn_concat, if_pos rfl]
    exact hbalanced

/-- An entry is taken when nothing is left in stock. -/
theorem skip (h : Balance d q answers given) (hstock : d.stock q.serial = [])
    (htake : q.take = .ready (e, q')) (hd : d'.serial = e.serial)
    (hstock' : d'.stock q'.serial = []) : Balance d' q' answers given := by
  obtain ⟨hordered, hle, -⟩ := h.ordered.take htake
  refine ⟨hd ▸ hordered, fun a ha => ?_, h.given_prefix, ?_⟩
  · rw [hd]
    exact (h.answered_le a ha).trans hle
  · have hbalanced := h.balanced
    rw [hstock, List.append_nil] at hbalanced
    rw [hstock', List.append_nil, (PacketQueue.take_eq_ready htake).2.2.1]
    exact hbalanced

/-- What the codec answers goes into the stock. -/
theorem feed (h : Balance d q answers given) (hstock : d.stock q.serial = [])
    (htake : q.take = .ready (e, q')) (hd : d'.serial = e.serial)
    (hserial : e.serial = q'.serial) {a : Answered F} (ha : a.1.serial = e.serial)
    (hstock' : d'.stock q'.serial = a.emissions) : Balance d' q' (answers ++ [a]) given := by
  obtain ⟨hordered, hle, -⟩ := h.ordered.take htake
  have hq := (PacketQueue.take_eq_ready htake).2.2.1
  refine ⟨hd ▸ hordered, fun x hx => ?_, fun s => ?_, ?_⟩
  · rw [hd]
    rcases List.mem_append.1 hx with hx | hx
    · exact (h.answered_le x hx).trans hle
    · rw [List.mem_singleton.1 hx, ha]
  · rw [due_concat]
    exact (h.given_prefix s).trans (List.prefix_append _ _)
  · have hbalanced := h.balanced
    rw [hstock, List.append_nil] at hbalanced
    rw [due_concat, if_pos (ha.trans hserial), hstock', hq, hbalanced]

variable [Scalar S] [CodecUnit F] {codec : Codec S M σ F} {now : S}

/-- A call for the next frame keeps the balance, with the answers to the calls that it made. -/
theorem ran {b : DecoderBench S M σ F} {r : Decoder.Run S M σ F}
    (hran : Decoder.Ran codec now b r) (h : Balance b.decoder b.queue answers given) :
    ∃ calls new, r.calls = b.calls.reverse ++ calls ∧
      codec.replay now calls b.decoder.codec b.medium = (new, r.decoder.codec, r.medium) ∧
      Balance r.decoder r.queue (answers ++ new) (given ++ r.given.toList) := by
  -- each entry that is fed adds an answer while the stock is empty; only the last rule gives out
  induction hran generalizing answers with
  | @emits b result d hemit =>
    obtain ⟨g, hgiven, hstock⟩ :=
      Decoder.stock_of_emit?_eq_some hemit b.decoder b.queue b.medium b.calls.reverse
    refine ⟨[], [], (List.append_nil _).symm, ?_, ?_⟩
    · rw [Codec.replay, Decoder.codec_emit? hemit]
    · rw [hgiven, List.append_nil]
      exact h.give (Decoder.serial_emit? hemit) hstock
  | aborts hemit hd | waits hemit hd =>
    subst hd
    refine ⟨[], [], (List.append_nil _).symm, rfl, ?_⟩
    simp only [Decoder.Run.given, Option.toList_none, List.append_nil]
    refine h.of_stock rfl ?_
    rw [Decoder.stock_of_emit?_eq_none hemit]
    exact Decoder.stock_eq_nil rfl rfl _
  | @skips b e q r hemit htake hserial hrest ih =>
    have hstock := Decoder.stock_of_emit?_eq_none hemit
    exact ih (h.skip hstock htake rfl (Decoder.stock_taking _ _))
  | @flushes b e q r hemit htake hserial hentry hrest ih =>
    have hstock := Decoder.stock_of_emit?_eq_none hemit
    obtain ⟨calls, new, hcalls, hreplay, hbalance⟩ :=
      ih (h.feed (a := (.flush e.serial, .ok [])) hstock htake rfl hserial rfl
        (Decoder.stock_eq_nil rfl rfl _))
    refine ⟨.flush e.serial :: calls, (.flush e.serial, .ok []) :: new, ?_, ?_, ?_⟩
    · rw [hcalls, List.reverse_cons, List.append_assoc, List.singleton_append]
    · simp only [Codec.replay, CodecCall.entry, Codec.answer]
      rw [hreplay]
    · rwa [List.append_assoc, List.singleton_append] at hbalance
  | @fails b e q cause s m d hemit htake hserial hentry hanswer hd =>
    have hstock := Decoder.stock_of_emit?_eq_none hemit
    subst hd
    refine ⟨[e.entry.call e.serial], [(e.entry.call e.serial, .error cause)],
      List.reverse_cons, ?_, ?_⟩
    · simp only [Codec.replay, Entry.entry_call]
      rw [hanswer]
    · simp only [Decoder.Run.given, Option.toList_none, List.append_nil]
      refine h.feed hstock htake rfl hserial (Entry.serial_call _ _) ?_
      rw [emissions_error]
      exact Decoder.stock_eq_nil rfl rfl _
  | @feeds b e q units s m r hemit htake hserial hentry hanswer hrest ih =>
    have hstock := Decoder.stock_of_emit?_eq_none hemit
    let fed : Decoder S σ F :=
      { b.decoder.taking e.serial with
        codec := s, pending := units, drained := e.entry = .endOfStream }
    have hstock' : fed.stock q.serial =
        Answered.emissions (e.entry.call e.serial, Except.ok units) := by
      rw [Decoder.stock_of_eq hserial.symm, emissions_ok hentry]
      simp only [fed, decide_eq_true_eq]
    obtain ⟨calls, new, hcalls, hreplay, hbalance⟩ :=
      ih (h.feed hstock htake rfl hserial (Entry.serial_call _ _) hstock')
    refine ⟨e.entry.call e.serial :: calls, (e.entry.call e.serial, .ok units) :: new, ?_, ?_, ?_⟩
    · rw [hcalls, List.reverse_cons, List.append_assoc, List.singleton_append]
    · simp only [Codec.replay, Entry.entry_call]
      rw [hanswer, hreplay]
    · rwa [List.append_assoc, List.singleton_append] at hbalance

end Balance

/-! ## Runs -/

/-- A bench with its history. -/
structure DecoderHistory (S M σ F : Type) where
  bench : DecoderBench S M σ F
  /-- The entries that were taken, each with the epoch of the queue at that time. -/
  taken : List (QueuedEntry × Nat)
  /-- The calls that the codec received, with its answers. -/
  answers : List (Answered F)
  /-- What was given out, each with its epoch. -/
  given : List (Nat × Given F)

namespace DecoderHistory

variable {S M σ F : Type}

/-- A new decoder with a new queue, and a codec in any state. -/
def new (kind : MediaKind) (c : σ) (timeBase : Ratio) (fallback : S) (m : M) :
    DecoderHistory S M σ F :=
  ⟨⟨Decoder.new kind c timeBase fallback, PacketQueue.new, m, []⟩, [], [], []⟩

/-- Nothing of what the codec gave was lost, doubled or moved. -/
structure Complete (h : DecoderHistory S M σ F) : Prop where
  /-- Each entry that was taken in its own epoch caused one call, the other ones caused none. -/
  calls : h.bench.calls.reverse = h.taken.filterMap fun (e, epoch) => e.call? epoch
  answered : h.answers.map (·.1) = h.bench.calls.reverse
  given_prefix : ∀ s, givenIn s h.given <+: due s h.answers

/-- A complete history of which the epochs balance. -/
structure Kept (h : DecoderHistory S M σ F) : Prop extends h.Complete where
  balance : Balance h.bench.decoder h.bench.queue h.answers h.given

theorem kept_new (kind : MediaKind) (c : σ) (timeBase : Ratio) (fallback : S) (m : M) :
    (new kind c timeBase fallback m : DecoderHistory S M σ F).Kept where
  calls := rfl
  answered := rfl
  given_prefix _ := List.prefix_rfl
  balance := ⟨PacketQueue.ordered_new, nofun, fun _ => List.prefix_rfl, rfl⟩

variable [Scalar S] [CodecUnit F] {codec : Codec S M σ F} {h : DecoderHistory S M σ F}

/-- What a call for the next frame comes to. -/
def next (codec : Codec S M σ F) (now : S) (h : DecoderHistory S M σ F) :
    Decoder.Run S M σ F :=
  h.bench.decoder.next codec now h.bench.queue h.bench.medium

/-- The entries that a call for the next frame takes: those that are missing from the queue
afterwards. -/
def front (codec : Codec S M σ F) (now : S) (h : DecoderHistory S M σ F) : List QueuedEntry :=
  h.bench.queue.entries.take (h.bench.queue.length - (h.next codec now).queue.length)

/-- The effect of an operation. -/
def perform (codec : Codec S M σ F) (h : DecoderHistory S M σ F) (op : BenchOp S M) :
    DecoderHistory S M σ F :=
  match op with
  | .queue _ | .medium _ => { h with bench := h.bench.perform codec op }
  | .next now =>
    let r := h.next codec now
    { bench := h.bench.perform codec op
      taken := h.taken ++ (h.front codec now).map (·, h.bench.queue.serial)
      answers := h.answers ++
        (codec.replay now r.calls h.bench.decoder.codec h.bench.medium).1
      given := h.given ++ r.given.toList }

/-- The effect of a run. -/
def run (codec : Codec S M σ F) (h : DecoderHistory S M σ F) (ops : List (BenchOp S M)) :
    DecoderHistory S M σ F :=
  ops.foldl (perform codec) h

/-- What is said of a call for the next frame, with `h` before and `after` afterwards. -/
structure NextComplete (codec : Codec S M σ F) (now : S) (h after : DecoderHistory S M σ F)
    (r : Decoder.Run S M σ F) : Prop where
  takes : h.bench.queue.entries = h.front codec now ++ r.queue.entries
  serial : r.queue.serial = h.bench.queue.serial
  /-- The answers are those of the codec in the states that it went through. -/
  replayed : (codec.replay now r.calls h.bench.decoder.codec h.bench.medium).2 =
    (r.decoder.codec, r.medium)
  /-- A call that waits has given out all of the epoch so far. -/
  waits : r.result = .wait → r.queue.entries = [] ∧ r.queue.aborted = false ∧
    givenIn r.queue.serial after.given = due r.queue.serial after.answers
  /-- So has a call that reports the end of the epoch. -/
  finishes : r.result = .finished → r.decoder.finished = some r.queue.serial ∧
    givenIn r.queue.serial after.given = due r.queue.serial after.answers
  /-- What is still due in the current epoch is given out before anything is taken. -/
  owes : ∀ g rest, due h.bench.queue.serial h.answers =
      givenIn h.bench.queue.serial h.given ++ g :: rest →
    r.given = some (h.bench.queue.serial, g) ∧ r.calls = [] ∧ r.queue = h.bench.queue

/-- The entries that are missing from the queue are those that were taken. -/
theorem takes_front (codec : Codec S M σ F) (now : S) (h : DecoderHistory S M σ F) :
    Decoder.Takes h.bench.queue [] (h.front codec now) (h.next codec now) := by
  obtain ⟨front, hfront⟩ :=
    Decoder.takes_next codec now h.bench.decoder h.bench.queue h.bench.medium
  have hlength : h.bench.queue.length = front.length + (h.next codec now).queue.length := by
    rw [PacketQueue.length, hfront.entries, List.length_append]
    rfl
  have heq : h.front codec now = front := by
    rw [DecoderHistory.front, hlength, Nat.add_sub_cancel, hfront.entries]
    exact List.take_left
  rw [heq]
  exact hfront

theorem ran_balance (hkept : h.Kept) (codec : Codec S M σ F) (now : S) :
    let r := h.next codec now
    let replayed := codec.replay now r.calls h.bench.decoder.codec h.bench.medium
    replayed.2 = (r.decoder.codec, r.medium) ∧
      Balance r.decoder r.queue (h.answers ++ replayed.1) (h.given ++ r.given.toList) := by
  have hbalance : Balance h.bench.decoder.wake h.bench.queue h.answers h.given :=
    hkept.balance.of_stock (Decoder.serial_wake _) (Decoder.stock_wake _)
  obtain ⟨calls, new, hcalls, hreplay, hran⟩ :=
    hbalance.ran (Decoder.ran_next codec now h.bench.decoder h.bench.queue h.bench.medium)
  rw [List.reverse_nil, List.nil_append] at hcalls
  subst hcalls
  rw [Decoder.codec_wake] at hreplay
  dsimp only [next]
  rw [hreplay]
  exact ⟨rfl, hran⟩

theorem Kept.next (hkept : h.Kept) (now : S) : (h.perform codec (.next now)).Kept := by
  have htakes := takes_front codec now h
  obtain ⟨-, hbalance⟩ := ran_balance hkept codec now
  have hcalls : (h.perform codec (.next now)).bench.calls.reverse =
      h.bench.calls.reverse ++ (h.next codec now).calls := by
    rw [perform, DecoderBench.perform, DecoderBench.nextCall_fst, List.reverse_append,
      List.reverse_reverse]
    rfl
  refine ⟨⟨?_, ?_, hbalance.given_prefix⟩, ?_⟩
  · rw [hcalls, htakes.calls, hkept.calls]
    rw [perform, List.filterMap_append, List.filterMap_map]
    rfl
  · rw [hcalls, perform, List.map_append, hkept.answered, Codec.replay_calls]
  · simp only [perform, DecoderBench.perform, DecoderBench.nextCall_fst]
    exact hbalance

theorem Kept.perform (hkept : h.Kept) (op : BenchOp S M) : (h.perform codec op).Kept := by
  cases op with
  | queue op =>
    refine ⟨⟨hkept.calls, hkept.answered, hkept.given_prefix⟩, ?_⟩
    exact hkept.balance.of_queue (hkept.balance.ordered.perform op)
      (PacketQueue.serial_le_perform _ op)
  | medium m => exact ⟨⟨hkept.calls, hkept.answered, hkept.given_prefix⟩, hkept.balance⟩
  | next now => exact hkept.next now

theorem Kept.run (hkept : h.Kept) (ops : List (BenchOp S M)) : (h.run codec ops).Kept := by
  induction ops generalizing h with
  | nil => exact hkept
  | cons op ops ih => exact ih (hkept.perform op)

theorem Kept.nextComplete (hkept : h.Kept) (now : S) :
    h.NextComplete codec now (h.perform codec (.next now)) (h.next codec now) := by
  have hran := Decoder.ran_next codec now h.bench.decoder h.bench.queue h.bench.medium
  have htakes := takes_front codec now h
  obtain ⟨hreplay, hbalance⟩ := ran_balance hkept codec now
  have hall (hstock : (h.next codec now).decoder.stock (h.next codec now).queue.serial = []) :
      givenIn (h.next codec now).queue.serial (h.perform codec (.next now)).given =
        due (h.next codec now).queue.serial (h.perform codec (.next now)).answers := by
    have hbalanced := hbalance.balanced
    rwa [hstock, List.append_nil] at hbalanced
  obtain ⟨hwait, hfinished⟩ := hran.outcome
  refine ⟨htakes.entries, htakes.serial, hreplay, fun hresult => ?_, fun hresult => ?_,
    fun g rest hdue => ?_⟩
  · obtain ⟨hentries, haborted, hstock⟩ := hwait hresult
    exact ⟨hentries, haborted, hall hstock⟩
  · obtain ⟨hserial, hstock⟩ := hfinished hresult
    exact ⟨hserial, hall hstock⟩
  · have hstock : h.bench.decoder.stock h.bench.queue.serial = g :: rest := by
      rw [← hkept.balance.balanced] at hdue
      exact List.append_cancel_left hdue
    exact hran.of_stock (by rw [Decoder.stock_wake, hstock])

/-- In any run of a decoder and its queue, each entry that is taken in its own epoch is fed once
and in order, other ones are not fed, and what the codec gives for an epoch is given out in order,
with nothing missing as soon as a call waits or reports the end of the epoch. -/
theorem frames_complete (codec : Codec S M σ F) (kind : MediaKind) (c : σ) (timeBase : Ratio)
    (fallback : S) (m : M) (ops : List (BenchOp S M)) :
    let h := (new kind c timeBase fallback m).run codec ops
    h.Complete ∧
      ∀ now, h.NextComplete codec now (h.perform codec (.next now)) (h.next codec now) := by
  have hkept : ((new kind c timeBase fallback m).run codec ops).Kept := (kept_new ..).run ops
  exact ⟨hkept.toComplete, fun now => hkept.nextComplete now⟩

end DecoderHistory

end Playback
