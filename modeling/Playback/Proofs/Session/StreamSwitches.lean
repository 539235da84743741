import Playback.Proofs.Media.StreamOrder
import Playback.Proofs.Session.QueuedBytes
import Playback.Proofs.Session.RingOrder
import Playback.Proofs.Session.StreamHistory

/-!
# Switching through the streams of a kind

Only a switch opens a stream of a running session, and it opens the usable one that follows the
open one in the table. So as long as no stream is lost, the streams of a kind that are opened in a
run are the usable ones in their order, around the end of the table
(`cycling_visits_usable_streams`).
-/

namespace Playback

/-- Codec and output format of a stream are found, whatever the state of the presentation. -/
def Host.Opens {S : Type} (host : Host S) (p : StreamParams) : Prop :=
  match p.kind with
  | .video => ∃ codec, host.openVideo p = .ok codec
  | .audio => (∃ codec, host.openAudio p = .ok codec) ∧
      ∀ screen, (host.negotiate p.channels p.rate p.layout screen).1.isSome = true

/-! ## The parameters of a slot -/

namespace Pipeline

variable {S σ F α : Type} {v v' left : Option (Pipeline S σ F α)}

theorem params_of_rel (h : Option.Rel Later v v') :
    v'.map (·.stream.params) = v.map (·.stream.params) := by
  cases h with
  | none => rfl
  | some h => exact congrArg some h.stream.params

/-- The parameters stay in the slot, or they leave with the stream. -/
theorem StaysOrLeaves.params (h : StaysOrLeaves v left v') :
    left = none ∧ v'.map (·.stream.params) = v.map (·.stream.params) ∨
      left.map (·.stream.params) = v.map (·.stream.params) ∧ v' = none := by
  rcases h with ⟨hnone, hrel⟩ | ⟨⟨p, p', rfl, rfl, hlater⟩, hgone⟩
  · exact .inl ⟨hnone, params_of_rel hrel⟩
  · exact .inr ⟨congrArg some hlater.stream.params, hgone⟩

end Pipeline

namespace Session

variable {S : Type} [Scalar S] {host : Host S} {s s' : Session host} {now : S}
  {kind : MediaKind} {p : StreamParams} {action : Action}

/-- The parameters of the open stream of a kind. -/
def openParams (s : Session host) (kind : MediaKind) : Option StreamParams :=
  (s.slot kind).map (·.stream.params)

/-- The stream of the other kind is left alone, and so is the output of sound if it is the other
kind's. -/
def LeavesOther (kind : MediaKind) (s s' : Session host) : Prop :=
  match kind with
  | .video => s'.audio = s.audio ∧ s'.output = s.output
  | .audio => s'.video = s.video

theorem LeavesOther.refl (s : Session host) (kind : MediaKind) : LeavesOther kind s s := by
  cases kind with
  | video => exact ⟨rfl, rfl⟩
  | audio => exact rfl

theorem LeavesOther.trans {s'' : Session host} (h : LeavesOther kind s s')
    (h' : LeavesOther kind s' s'') : LeavesOther kind s s'' := by
  cases kind with
  | video => exact ⟨h'.1.trans h.1, h'.2.trans h.2⟩
  | audio => exact Eq.trans h' h

theorem LeavesOther.openParams {other : MediaKind} (h : LeavesOther kind s s')
    (hother : other ≠ kind) : s'.openParams other = s.openParams other := by
  unfold Session.openParams
  cases kind with
  | video => rw [others_of_audio h.1 other hother]
  | audio => rw [others_of_video h other hother]

/-! ## Opening and closing -/

theorem openParams_closeStream (s : Session host) (kind : MediaKind) :
    (s.closeStream kind).openParams kind = none :=
  congrArg (Option.map _) (s.slot_closeStream kind).1

theorem leavesOther_closeStream (s : Session host) (kind : MediaKind) :
    LeavesOther kind s (s.closeStream kind) := by
  obtain ⟨-, hother⟩ := s.slot_closeStream kind
  cases kind with
  | video => exact ⟨hother .audio nofun, by unfold closeStream closing; dsimp only; split <;> rfl⟩
  | audio => exact hother .video nofun

theorem source_openStream (s : Session host) (p : StreamParams) (now : S) :
    (s.openStream p now).2.source = s.source := by
  unfold openStream openVideo openAudio
  cases p.kind with
  | video => cases host.openVideo p <;> rfl
  | audio =>
    dsimp only
    split
    · rfl
    · cases host.openAudio p <;> rfl

theorem leavesOther_openStream (s : Session host) (p : StreamParams) (now : S) :
    LeavesOther p.kind s (s.openStream p now).2 := by
  unfold openStream openVideo openAudio LeavesOther
  cases p.kind with
  | video => cases host.openVideo p <;> exact ⟨rfl, rfl⟩
  | audio =>
    dsimp only
    split
    · rfl
    · cases host.openAudio p <;> rfl

/-- A stream that cannot be opened leaves the slot as it is. -/
theorem openParams_openStream (s : Session host) (p : StreamParams) (now : S) :
    (s.openStream p now).2.openParams p.kind = s.openParams p.kind ∨
      (s.openStream p now).2.openParams p.kind = some p := by
  unfold openStream openVideo openAudio openParams
  cases p.kind with
  | video =>
    cases host.openVideo p with
    | error e => exact .inl rfl
    | ok codec => exact .inr rfl
  | audio =>
    dsimp only
    split
    · exact .inl rfl
    · cases host.openAudio p with
      | error e => exact .inl rfl
      | ok codec => exact .inr rfl

theorem openStream_of_opens (s : Session host) (h : host.Opens p) (now : S) :
    (s.openStream p now).1 = .ok () ∧
      (s.openStream p now).2.openParams p.kind = some p := by
  unfold Host.Opens at h
  unfold openStream openVideo openAudio openParams
  cases hkind : p.kind with
  | video =>
    rw [hkind] at h
    obtain ⟨codec, hcodec⟩ := h
    dsimp only
    rw [hcodec]
    exact ⟨rfl, rfl⟩
  | audio =>
    rw [hkind] at h
    obtain ⟨⟨codec, hcodec⟩, hspec⟩ := h
    dsimp only
    rw [hcodec]
    obtain ⟨spec, hspec⟩ := Option.isSome_iff_exists.1 (hspec s.screen)
    split
    · rename_i hnone
      cases hspec.symm.trans hnone
    · exact ⟨rfl, rfl⟩

/-! ## Switches -/

theorem nextParams_of_open (h : s.openParams kind = some p) :
    s.nextParams kind = StreamParams.after s.source.streams kind p.index := by
  obtain ⟨q, hq, rfl⟩ := Option.map_eq_some_iff.1 h
  rw [nextParams, openIndex_eq, hq]
  rfl

theorem usable_of_nextParams (h : s.nextParams kind = some p) :
    p ∈ StreamParams.usable s.source.streams kind := by
  obtain ⟨index, -, hafter⟩ := Option.bind_eq_some_iff.1 h
  exact StreamParams.usable_of_after hafter

theorem cycleStream_of_none (h : s.nextParams kind = none) (now : S) :
    s.cycleStream kind now = (.ok (), s) := by
  rw [cycleStream, h]

theorem cycleStream_of_some (h : s.nextParams kind = some p) (now : S) :
    s.cycleStream kind now = (s.closeStream kind).openStream p now := by
  rw [cycleStream, h]

/-- The stream that is switched from leaves. -/
theorem departedParams_cycle (s : Session host) (kind : MediaKind) (now : S) :
    (s.departed now (.cycleStream kind) kind).map (·.stream.params) =
      if s.switches kind then s.openParams kind else none := by
  rw [departed_cycleStream]
  cases s.switches kind with
  | false => rfl
  | true => exact Option.map_map ..

/-- A switch keeps to its kind. -/
theorem leavesOther_cycle (s : Session host) (kind : MediaKind) (now : S) :
    LeavesOther kind s (s.cycleStream kind now).2 := by
  cases hnext : s.nextParams kind with
  | none =>
    rw [cycleStream_of_none hnext]
    exact .refl s kind
  | some p =>
    have hkind : p.kind = kind := StreamParams.kind_of_isUsable
      (StreamParams.mem_usable.1 (usable_of_nextParams hnext)).2
    rw [cycleStream_of_some hnext]
    exact (s.leavesOther_closeStream kind).trans
      (hkind ▸ (s.closeStream kind).leavesOther_openStream p now)

/-- After a switch no stream of the kind is open, or the one that follows. -/
theorem openParams_cycle (hnext : s.nextParams kind = some p) (now : S) :
    (s.cycleStream kind now).2.openParams kind = none ∨
      (s.cycleStream kind now).2.openParams kind = some p := by
  have hkind : p.kind = kind := StreamParams.kind_of_isUsable
    (StreamParams.mem_usable.1 (usable_of_nextParams hnext)).2
  rw [cycleStream_of_some hnext]
  rcases (s.closeStream kind).openParams_openStream p now with hsame | hnew
  · rw [hkind, openParams_closeStream] at hsame
    exact .inl hsame
  · exact .inr (hkind ▸ hnew)

/-! ## The open streams are usable ones -/

/-- The source has these streams, and the open ones are usable ones of them. -/
structure PlaysFrom (streams : List StreamParams) (s : Session host) : Prop where
  order : s.InOrder
  source : s.source.streams = streams
  usable : ∀ kind p, s.openParams kind = some p → p ∈ StreamParams.usable streams kind

namespace PlaysFrom

variable {streams : List StreamParams}

theorem start {uri : String} {options : Options S} {screen : host.Screen}
    (hopen : Session.open host uri options screen now = .ok s) :
    s.PlaysFrom s.source.streams := by
  refine ⟨.start hopen, rfl, ?_⟩
  refine of_picked (motive := fun s => ∀ kind p, s.openParams kind = some p →
    p ∈ StreamParams.usable s.source.streams kind) hopen (fun source medium _ => ?_)
    fun s kind wanted p hpick h => ?_
  · intro kind p hp
    unfold seekStart at hp
    cases kind <;> split at hp <;> cases hp
  · have husable := StreamParams.usable_of_pick hpick
    have hkind : p.kind = kind :=
      StreamParams.kind_of_isUsable (StreamParams.mem_usable.1 husable).2
    intro other q hq
    rw [source_openStream]
    by_cases hother : other = p.kind
    · subst hother
      rcases s.openParams_openStream p now with hsame | hnew
      · exact h _ q (hsame ▸ hq)
      · rw [hkind, ← Option.some.inj (hnew.symm.trans hq)]
        exact husable
    · exact h other q ((s.leavesOther_openStream p now).openParams hother ▸ hq)

theorem perform (h : s.PlaysFrom streams) (now : S) (action : Action) :
    (s.perform now action).PlaysFrom streams := by
  have hsource := (sameSettings_perform h.order.forced now action).2
  refine ⟨h.order.perform now action, (congrArg _ hsource).trans h.source, fun kind p hp => ?_⟩
  by_cases haction : action = .cycleStream kind
  · subst haction
    cases hnext : s.nextParams kind with
    | none =>
      refine h.usable kind p ?_
      rw [← hp, Session.perform, cycleStream_of_none hnext]
    | some q =>
      rcases openParams_cycle hnext now with hnone | hnew
      · cases hnone.symm.trans hp
      · rw [← Option.some.inj (hnew.symm.trans hp), ← h.source]
        exact usable_of_nextParams hnext
  · rcases (staysOrLeaves_perform haction s now).params with ⟨-, hsame⟩ | ⟨-, hnone⟩
    · exact h.usable kind p (hsame.symm.trans hp)
    · rw [openParams, hnone] at hp
      cases hp

theorem run (h : s.PlaysFrom streams) (actions : List (S × Action)) :
    (s.run actions).PlaysFrom streams :=
  of_run h (fun _ now action h => h.perform now action) actions

end PlaysFrom

/-! ## Switches in a row -/

/-- The number of switches of a kind in a run. -/
def switchCount (kind : MediaKind) (actions : List (S × Action)) : Nat :=
  (actions.map (·.2)).count (.cycleStream kind)

/-- No stream of a kind is lost in a run: after each action that is not a switch, one is open. -/
def losesNone (kind : MediaKind) (s : Session host) : List (S × Action) → Bool
  | [] => true
  | a :: actions =>
    let s := s.perform a.1 a.2
    (a.2 = .cycleStream kind || (s.openParams kind).isSome) && s.losesNone kind actions

theorem cycleStream_of_opens (h : s.nextParams kind = some p) (hhost : host.Opens p) (now : S) :
    (s.cycleStream kind now).1 = .ok () ∧ (s.cycleStream kind now).2.openParams kind = some p := by
  have hkind : p.kind = kind := StreamParams.kind_of_isUsable
    (StreamParams.mem_usable.1 (usable_of_nextParams h)).2
  rw [cycleStream_of_some h]
  exact hkind ▸ (s.closeStream kind).openStream_of_opens hhost now

/-- Where the host opens every usable stream, a switch succeeds. It does nothing if there is only
one. -/
theorem PlaysFrom.cycle {streams : List StreamParams} (h : s.PlaysFrom streams)
    (hdistinct : (streams.map (·.index)).Nodup)
    (hhost : ∀ q ∈ StreamParams.usable streams kind, host.Opens q)
    (hcurrent : s.openParams kind = some p) (now : S) :
    (s.cycleStream kind now).1 = .ok () ∧
      ((StreamParams.usable streams kind).length = 1 → (s.cycleStream kind now).2 = s) := by
  obtain ⟨i, hi⟩ := StreamParams.exists_turn (h.usable kind p hcurrent)
  have hnext := nextParams_of_open hcurrent
  rw [h.source, StreamParams.after_turn hdistinct hi] at hnext
  split at hnext
  · rw [cycleStream_of_none hnext]
    exact ⟨rfl, fun _ => rfl⟩
  · rename_i hmany
    obtain ⟨q, hq, hturn⟩ := StreamParams.exists_turn_at (h.usable kind p hcurrent) (i + 1)
    rw [hturn] at hnext
    exact ⟨(cycleStream_of_opens hnext (hhost q hq) now).1, fun hsingle => absurd hsingle hmany⟩

end Session

namespace StreamHistory

open StreamParams Session

variable {S : Type} [Scalar S] {host : Host S} {h : StreamHistory host}
  {streams : List StreamParams} {kind : MediaKind} {p : StreamParams} {i : Nat}

/-- The parameters of all streams of a kind that were ever open, in the order in which they were
opened. -/
def opened (h : StreamHistory host) (kind : MediaKind) : List StreamParams :=
  (h.streams kind).map (·.stream.params)

theorem opened_perform (h : StreamHistory host) (now : S) (action : Action) (kind : MediaKind) :
    (h.perform now action).opened kind =
      (h.past kind).map (·.stream.params) ++
        ((h.session.departed now action kind).map (·.stream.params)).toList ++
        ((h.session.perform now action).openParams kind).toList := by
  simp [opened, streams, perform, openParams, Option.toList_map]

theorem opened_eq (h : StreamHistory host) (kind : MediaKind) :
    h.opened kind =
      (h.past kind).map (·.stream.params) ++ (h.session.openParams kind).toList := by
  simp [opened, streams, openParams, Option.toList_map]

/-- An action that is not a switch opens nothing. -/
theorem opened_of_ne {action : Action} (haction : action ≠ .cycleStream kind)
    (h : StreamHistory host) (now : S) : (h.perform now action).opened kind = h.opened kind := by
  rw [opened_perform, opened_eq]
  rcases (staysOrLeaves_perform haction h.session now).params with
    ⟨hleaving, hafter⟩ | ⟨hleaving, hafter⟩
  · rw [hleaving, openParams, hafter]
    simp [openParams]
  · rw [hleaving, openParams, hafter]
    simp [openParams]

/-- A switch with nothing to switch to opens and closes nothing. -/
theorem opened_of_none (hnext : h.session.nextParams kind = none) (now : S) :
    (h.perform now (.cycleStream kind)).opened kind = h.opened kind := by
  have hswitch : h.session.switches kind = false := by
    rw [switches, hnext]
    rfl
  rw [opened_perform, departedParams_cycle, hswitch, Session.perform, cycleStream_of_none hnext,
    opened_eq]
  simp

theorem opened_of_some (hnext : h.session.nextParams kind = some p) (hhost : host.Opens p)
    (now : S) : (h.perform now (.cycleStream kind)).opened kind = h.opened kind ++ [p] := by
  have hswitch : h.session.switches kind = true := by
    rw [switches, hnext]
    rfl
  rw [opened_perform, departedParams_cycle, hswitch, Session.perform,
    (cycleStream_of_opens hnext hhost now).2, opened_eq]
  rfl

/-- The streams that so many switches open, where the open stream has turn number `i`. -/
def switchedTo (streams : List StreamParams) (kind : MediaKind) (i switches : Nat) :
    List StreamParams :=
  if (usable streams kind).length = 1 then []
  else (List.range switches).filterMap fun j => turn streams kind (i + 1 + j)

theorem switchedTo_succ {q : StreamParams} (hmany : (usable streams kind).length ≠ 1)
    (hq : turn streams kind (i + 1) = some q) (n : Nat) :
    switchedTo streams kind i (n + 1) = q :: switchedTo streams kind (i + 1) n := by
  unfold switchedTo
  have hfirst : turn streams kind (i + 1 + 0) = some q := hq
  rw [if_neg hmany, if_neg hmany, List.range_succ_eq_map, List.filterMap_cons,
    List.filterMap_map, hfirst]
  refine congrArg (q :: ·) (List.filterMap_congr fun j _ => ?_)
  exact congrArg (turn streams kind) (by omega)

/-- As many turns as there are usable streams are one rotation of all of them. -/
theorem filterMap_turn (streams : List StreamParams) (kind : MediaKind) (i : Nat) :
    (List.range (usable streams kind).length).filterMap (fun j => turn streams kind (i + j)) =
      (usable streams kind).rotate i := by
  have hturn : ∀ j ∈ List.range (usable streams kind).length,
      turn streams kind (i + j) = ((usable streams kind).rotate i)[j]? := by
    intro j hj
    rw [List.getElem?_rotate (List.mem_range.1 hj), Nat.add_comm j]
    rfl
  rw [List.filterMap_congr hturn, ← List.length_rotate _ i, FrameRing.filterMap_range_getElem?]

/-- Switches in a row follow the turns of the usable streams. -/
theorem opened_run (hplays : h.session.PlaysFrom streams)
    (hdistinct : (streams.map (·.index)).Nodup)
    (hhost : ∀ q ∈ usable streams kind, host.Opens q)
    (hcurrent : h.session.openParams kind = some p) (hturn : turn streams kind i = some p)
    {actions : List (S × Action)} (hkeeps : h.session.losesNone kind actions = true) :
    (h.run actions).session.openParams kind = turn streams kind (i + switchCount kind actions) ∧
      (h.run actions).opened kind =
        h.opened kind ++ switchedTo streams kind i (switchCount kind actions) := by
  induction actions generalizing h p i with
  | nil =>
    refine ⟨hcurrent.trans hturn.symm, ?_⟩
    simp [switchCount, switchedTo, run]
  | cons a rest ih =>
    obtain ⟨now, action⟩ := a
    obtain ⟨hopen, hrest⟩ := Bool.and_eq_true_iff.1 hkeeps
    have hplays' := hplays.perform now action
    by_cases haction : action = .cycleStream kind
    · subst haction
      have hcount : switchCount kind ((now, .cycleStream kind) :: rest) =
          switchCount kind rest + 1 := List.count_cons_self
      have hnext := nextParams_of_open hcurrent
      rw [hplays.source, after_turn hdistinct hturn] at hnext
      by_cases hsingle : (usable streams kind).length = 1
      · rw [if_pos hsingle] at hnext
        have hcurrent' : (h.perform now (.cycleStream kind)).session.openParams kind = some p := by
          rw [← hcurrent]
          exact congrArg (openParams · kind) (congrArg Prod.snd (cycleStream_of_none hnext now))
        obtain ⟨hafter, hopened⟩ := ih hplays' hcurrent' hturn hrest
        rw [opened_of_none hnext] at hopened
        refine ⟨hafter.trans (turn_of_single hsingle ..), hopened.trans ?_⟩
        unfold switchedTo
        rw [if_pos hsingle, if_pos hsingle]
      · rw [if_neg hsingle] at hnext
        obtain ⟨q, hq, hturn'⟩ := exists_turn_at (hplays.usable kind p hcurrent) (i + 1)
        rw [hturn'] at hnext
        have hcurrent' : (h.perform now (.cycleStream kind)).session.openParams kind = some q :=
          (cycleStream_of_opens hnext (hhost q hq) now).2
        obtain ⟨hafter, hopened⟩ := ih hplays' hcurrent' hturn' hrest
        rw [opened_of_some hnext (hhost q hq)] at hopened
        rw [hcount]
        refine ⟨hafter.trans (congrArg _ (by omega)), hopened.trans ?_⟩
        rw [switchedTo_succ hsingle hturn', List.append_assoc]
        rfl
    · have hcount : switchCount kind ((now, action) :: rest) = switchCount kind rest :=
        List.count_cons_of_ne haction
      have hcurrent' : (h.perform now action).session.openParams kind = some p := by
        rcases (staysOrLeaves_perform haction h.session now).params with ⟨-, hsame⟩ | ⟨-, hnone⟩
        · exact hsame.trans hcurrent
        · simp [haction, openParams, hnone] at hopen
      obtain ⟨hafter, hopened⟩ := ih hplays' hcurrent' hturn hrest
      rw [opened_of_ne haction] at hopened
      rw [hcount]
      exact ⟨hafter, hopened⟩

theorem mem_opened_perform {action : Action} {now : S} {q : StreamParams}
    (hq : q ∈ (h.perform now action).opened kind) :
    q ∈ h.opened kind ∨ (h.session.perform now action).openParams kind = some q := by
  have hleaving : (h.session.departed now action kind).map (·.stream.params) = none ∨
      (h.session.departed now action kind).map (·.stream.params) = h.session.openParams kind := by
    by_cases haction : action = .cycleStream kind
    · rw [haction, departedParams_cycle]
      cases h.session.switches kind <;> simp
    · rcases (staysOrLeaves_perform haction h.session now).params with ⟨hnone, -⟩ | ⟨hsame, -⟩
      · exact .inl (congrArg (Option.map _) hnone)
      · exact .inr hsame
  rw [opened_perform] at hq
  rcases List.mem_append.1 hq with hpast | hnew
  · refine .inl ?_
    rw [opened_eq]
    rcases hleaving with hnone | hsame
    · rw [hnone] at hpast
      exact List.mem_append_left _ (by simpa using hpast)
    · rw [hsame] at hpast
      exact hpast
  · exact .inr (Option.mem_toList.1 hnew)

/-- All streams that were ever open are usable ones of the source. -/
theorem usable_of_opened (hplays : h.session.PlaysFrom streams)
    (husable : ∀ q ∈ h.opened kind, q ∈ usable streams kind) (actions : List (S × Action)) :
    ∀ q ∈ (h.run actions).opened kind, q ∈ usable streams kind := by
  induction actions generalizing h with
  | nil => exact husable
  | cons a rest ih =>
    have hplays' := hplays.perform a.1 a.2
    refine ih (h := h.perform a.1 a.2) hplays' fun q hq => ?_
    rcases mem_opened_perform hq with hold | hnew
    · exact husable q hold
    · exact hplays'.usable kind q hnew

end StreamHistory

namespace SparseTable

/-- Streams whose numbers follow no order. The sound of one of them is of no known format. -/
def streams : List StreamParams :=
  [.audio 9 ⟨1, 100⟩ 8000 1, .video 7 ⟨1, 25⟩ 8 4 ⟨25, 1⟩, .audio 3 ⟨1, 100⟩ 0 1,
    .audio 2 ⟨1, 100⟩ 8000 2, .video 4 ⟨1, 25⟩ 8 4 ⟨25, 1⟩, .audio 5 ⟨1, 100⟩ 4000 1]

def host : Host Rat :=
  let s := PictureScript.script 0 #[] none
  Host.scripted { s with info := { s.info with streams := streams } } {}

/-- Three switches, and other things between them. -/
def round : List (Rat × Session.Action) :=
  [(0, .start), (0, .cycleStream .audio), (1, .readerTurn), (1, .cycleStream .audio),
    (2, .fill 4 100), (2, .cycleStream .video), (3, .cycleStream .audio)]

end SparseTable

/-! ## Every run -/

/-- Switching through the streams of a kind. The streams of the source have different numbers, and
codec and output format of every usable stream of the kind are found. Then the open stream of the
kind is one of the usable ones, and these take turns. Whatever else happens, as long as no stream of
the kind is lost, switches open the next ones in the order of the table and around its end; as many
switches as there are usable streams open each of them once, and the last one is that of the start.
If there is only one, a switch does nothing at all.

A switch leaves the other kind alone, and no stream that is not usable is ever open. -/
theorem cycling_visits_usable_streams {S : Type} [Scalar S] {host : Host S} {uri : String}
    {options : Options S} {screen : host.Screen} {opened : S} {s : Session host}
    (hopen : Session.open host uri options screen opened = .ok s)
    (hdistinct : (s.source.streams.map (·.index)).Nodup)
    (before : List (S × Session.Action)) {kind : MediaKind} {p : StreamParams}
    (hcurrent : (s.run before).openParams kind = some p)
    (hhost : ∀ q ∈ StreamParams.usable s.source.streams kind, host.Opens q) :
    let h := (StreamHistory.start s).run before
    let usable := StreamParams.usable s.source.streams kind
    let turn := StreamParams.turn s.source.streams kind
    usable.Nodup ∧ ∃ i, turn i = some p ∧
      ∀ actions, (s.run before).losesNone kind actions = true →
        let h' := h.run actions
        let n := Session.switchCount kind actions
        h'.session = (s.run before).run actions ∧
        h'.session.openParams kind = turn (i + n) ∧
        h'.opened kind = h.opened kind ++
          (if usable.length = 1 then [] else (List.range n).filterMap fun j => turn (i + 1 + j)) ∧
        (n = usable.length → h'.session.openParams kind = some p ∧
          (usable.length ≠ 1 → h'.opened kind = h.opened kind ++ usable.rotate (i + 1))) ∧
        (∀ q ∈ h'.opened kind, q ∈ usable) ∧
        ∀ now,
          let r := h'.session.cycleStream kind now
          r.1 = .ok () ∧ Session.LeavesOther kind h'.session r.2 ∧
            (usable.length = 1 → r.2 = h'.session) := by
  intro h usable turn
  have hsession : h.session = s.run before := StreamHistory.session_run _ before
  have hplays : h.session.PlaysFrom s.source.streams :=
    hsession ▸ (Session.PlaysFrom.start hopen).run before
  have husable : ∀ q ∈ h.opened kind, q ∈ usable := by
    refine StreamHistory.usable_of_opened (.start hopen) (fun q hq => ?_) before
    refine (Session.PlaysFrom.start hopen).usable kind q ?_
    rw [StreamHistory.opened_eq] at hq
    exact Option.mem_toList.1 hq
  rw [← hsession] at hcurrent ⊢
  obtain ⟨i, hi⟩ := StreamParams.exists_turn (hplays.usable kind p hcurrent)
  refine ⟨StreamParams.nodup_usable hdistinct kind, i, hi, fun actions hkeeps => ?_⟩
  intro h' n
  obtain ⟨hafter, hopened⟩ := StreamHistory.opened_run hplays hdistinct hhost hcurrent hi hkeeps
  have hreached : h'.session = h.session.run actions := StreamHistory.session_run _ actions
  have hplays' : h'.session.PlaysFrom s.source.streams := hreached ▸ hplays.run actions
  refine ⟨hreached, hafter, hopened, fun hround => ⟨?_, fun hmany => ?_⟩,
    StreamHistory.usable_of_opened hplays husable actions, fun now => ?_⟩
  · have hback : turn (i + n) = turn i := by
      show usable[(i + n) % usable.length]? = usable[i % usable.length]?
      rw [hround, Nat.add_mod_right]
    exact hafter.trans (hback.trans hi)
  · rw [hopened, StreamHistory.switchedTo, if_neg hmany, ← StreamHistory.filterMap_turn]
    exact congrArg (fun count => h.opened kind ++ (List.range count).filterMap _) hround
  · obtain ⟨q, -, hq⟩ := StreamParams.exists_turn_at (hplays.usable kind p hcurrent) (i + n)
    obtain ⟨hok, hsingle⟩ := hplays'.cycle hdistinct hhost (hafter.trans hq) now
    exact ⟨hok, h'.session.leavesOther_cycle kind now, hsingle⟩

/-- The streams of sound numbered 9, 2 and 5 are usable. From the second one of them on, three
switches lead around the end of the table and back. -/
theorem cycling_visits_usable_streams_sparse :
    ∃ s, Session.open SparseTable.host "" { wantedAudio := some 2 } (0 : Nat) 0 = .ok s ∧
      let usable := StreamParams.usable s.source.streams .audio
      let h := (StreamHistory.start s).run SparseTable.round
      usable.map (·.index) = [9, 2, 5] ∧ (s.openParams .audio).map (·.index) = some 2 ∧
        s.losesNone .audio SparseTable.round = true ∧
        h.session.openParams .audio = s.openParams .audio ∧
        (∃ i, h.opened .audio = (s.openParams .audio).toList ++ usable.rotate i) ∧
        (h.opened .audio).map (·.index) = [2, 5, 9, 2] ∧
        (h.opened .video).map (·.index) = [7, 4] := by
  have hopen : ∃ s, Session.open SparseTable.host "" { wantedAudio := some 2 } (0 : Nat) 0 = .ok s ∧
      let h := (StreamHistory.start s).run SparseTable.round
      s.source.streams = SparseTable.streams ∧
        (s.run []).openParams .audio = some (.audio 2 ⟨1, 100⟩ 8000 2) ∧
        s.losesNone .audio SparseTable.round = true ∧
        (h.opened .audio).map (·.index) = [2, 5, 9, 2] ∧
        (h.opened .video).map (·.index) = [7, 4] :=
    ⟨_, rfl, by decide +kernel⟩
  obtain ⟨s, hs, hstreams, hcurrent, hkeeps, haudio, hvideo⟩ := hopen
  have hhost : ∀ q ∈ StreamParams.usable s.source.streams .audio, SparseTable.host.Opens q := by
    intro q hq
    have hkind : q.kind = .audio :=
      StreamParams.kind_of_isUsable (StreamParams.mem_usable.1 hq).2
    unfold Host.Opens
    rw [hkind]
    exact ⟨⟨[], rfl⟩, fun screen => rfl⟩
  obtain ⟨-, i, -, hrun⟩ := cycling_visits_usable_streams hs (by rw [hstreams]; decide) []
    hcurrent hhost
  obtain ⟨-, -, -, hround, -⟩ := hrun SparseTable.round hkeeps
  have husable : StreamParams.usable s.source.streams .audio =
      [.audio 9 ⟨1, 100⟩ 8000 1, .audio 2 ⟨1, 100⟩ 8000 2, .audio 5 ⟨1, 100⟩ 4000 1] := by
    rw [hstreams]
    decide
  obtain ⟨hback, hopened⟩ := hround (by rw [husable]; rfl)
  have hfirst : (StreamHistory.start s).opened .audio = (s.openParams .audio).toList :=
    StreamHistory.opened_eq ..
  replace hopened := (hopened (by rw [husable]; decide)).trans (congrArg (· ++ _) hfirst)
  exact ⟨s, hs, by rw [husable]; rfl, congrArg (Option.map (·.index)) hcurrent, hkeeps,
    hback.trans hcurrent.symm, ⟨i + 1, hopened⟩, haudio, hvideo⟩

end Playback
