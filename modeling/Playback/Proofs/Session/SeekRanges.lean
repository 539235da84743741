import Playback.Proofs.Scalar.Rounding
import Playback.Proofs.Session.EndOfSource
import Playback.Proofs.Session.ReaderCalls

/-!
# Ranges of seeks

A seek tells the container a target and how far off it may land on the side that the seek came from,
less two units. So the range has its target inside unless the seek was by a single unit, and its
ends fit into 64 bits if the target and the place from which the seek started do (`sound_iff`).

The requests are those of the user: whatever a session does, each range that its container is told
was asked for, but for the seek to the start with which it opens (`told_run`). A seek to a chapter
is always sound.
-/

namespace Playback

/-- The range that a call tells the container. -/
def HostCall.range? {S : Type} : HostCall S → Option SeekRange
  | .seek range => some range
  | _ => none

/-! ## One request -/

/-- The target is within the range. -/
def SeekRange.Contains (range : SeekRange) : Prop :=
  range.lo ≤ range.target ∧ range.target ≤ range.hi

namespace SeekRequest

/-- All results on the way from a request to its range fit into 64 bits. -/
def Computes (r : SeekRequest) : Prop :=
  FitsInt64 r.target ∧
    (0 < r.relative → FitsInt64 (r.target - r.relative) ∧ FitsInt64 (r.target - r.relative + 2)) ∧
    (r.relative < 0 → FitsInt64 (r.target - r.relative) ∧ FitsInt64 (r.target - r.relative - 2))

variable {r : SeekRequest}

theorem contains_iff (htarget : FitsInt64 r.target) :
    r.range.Contains ↔ r.relative ≠ 1 ∧ r.relative ≠ -1 := by
  obtain ⟨hlower, hupper⟩ := htarget
  unfold SeekRange.Contains range
  dsimp only
  split <;> split <;> omega

theorem computes_iff (hone : r.relative ≠ 1) (hminus : r.relative ≠ -1) :
    r.Computes ↔ FitsInt64 r.target ∧ FitsInt64 (r.target - r.relative) := by
  unfold Computes FitsInt64
  constructor
  · rintro ⟨htarget, hafter, hbefore⟩
    refine ⟨htarget, ?_⟩
    rcases lt_trichotomy r.relative 0 with hneg | hzero | hpos
    · exact (hbefore hneg).1
    · rw [hzero, Int.sub_zero]
      exact htarget
    · exact (hafter hpos).1
  · rintro ⟨htarget, horigin⟩
    exact ⟨htarget, fun hpos => ⟨horigin, by omega⟩, fun hneg => ⟨horigin, by omega⟩⟩

/-- When a request makes a range around its target without leaving 64 bits: it is not by a single
unit, and both its target and the place that it starts from fit. -/
theorem sound_iff (r : SeekRequest) :
    r.Computes ∧ r.range.Contains ↔
      r.relative ≠ 1 ∧ r.relative ≠ -1 ∧ FitsInt64 r.target ∧
        FitsInt64 (r.target - r.relative) := by
  constructor
  · rintro ⟨hcomputes, hcontains⟩
    obtain ⟨hone, hminus⟩ := (contains_iff hcomputes.1).1 hcontains
    exact ⟨hone, hminus, (computes_iff hone hminus).1 hcomputes⟩
  · rintro ⟨hone, hminus, htarget, horigin⟩
    exact ⟨(computes_iff hone hminus).2 ⟨htarget, horigin⟩,
      (contains_iff htarget).2 ⟨hone, hminus⟩⟩

end SeekRequest

namespace Session

variable {S : Type} [Scalar S] {host : Host S} {s : Session host} {now : S}

/-! ## Requests of the user -/

/-- A seek to a chapter comes from neither side. -/
theorem chapterRequest_sound [Scalar.Saturates S] {steps : Int} {r : SeekRequest}
    (h : s.chapterRequest steps now = some r) : r.Computes ∧ r.range.Contains := by
  obtain ⟨chapter, -, rfl⟩ := Option.map_eq_some_iff.1 h
  refine (SeekRequest.sound_iff _).2 ⟨Int.zero_ne_one, nofun, ?_, ?_⟩
  · exact Scalar.Saturates.fits_toInt64 _
  · dsimp only
    rw [Int.sub_zero]
    exact Scalar.Saturates.fits_toInt64 _

/-- The target of a seek by time is cut to 64 bits; one by bytes starts from the byte position. -/
theorem secondsRequest_target [Scalar.Saturates S] (s : Session host) (delta now : S) :
    let r := s.secondsRequest delta now
    FitsInt64 r.relative ∧ (r.byBytes = false → FitsInt64 r.target) ∧
      (r.byBytes = true → r.target - r.relative = s.bytePosition) := by
  unfold secondsRequest
  split
  · refine ⟨Scalar.Saturates.fits_toInt64 _, nofun, fun _ => ?_⟩
    dsimp only
    omega
  · exact ⟨Scalar.Saturates.fits_toInt64 _, fun _ => Scalar.Saturates.fits_toInt64 _, nofun⟩

/-! ## Every run -/

/-- The ranges that the container was told, the latest first. -/
def ranges (s : Session host) : List SeekRange :=
  s.log.filterMap HostCall.range?

theorem mem_ranges {range : SeekRange} : range ∈ s.ranges ↔ HostCall.seek range ∈ s.calls := by
  unfold ranges calls
  rw [List.mem_filterMap, List.mem_filter]
  constructor
  · rintro ⟨call, hcall, hrange⟩
    cases call with
    | seek range' =>
      obtain rfl : range' = range := Option.some.inj hrange
      exact ⟨hcall, rfl⟩
    | _ => cases hrange
  · rintro ⟨hcall, -⟩
    exact ⟨_, hcall, rfl⟩

/-- Somewhere in a run the user has asked for a seek. -/
def AskedIn (s : Session host) (actions : List (S × Action)) (r : SeekRequest) : Prop :=
  ∃ before now action, before ++ [(now, action)] <+: actions ∧
    (s.run before).requested now action = some r

theorem AskedIn.here {action : Action} {r : SeekRequest}
    (h : s.requested now action = some r) (rest : List (S × Action)) :
    s.AskedIn ((now, action) :: rest) r :=
  ⟨[], now, action, List.prefix_append _ _, h⟩

theorem AskedIn.later {action : Action} {rest : List (S × Action)} {r : SeekRequest}
    (h : (s.perform now action).AskedIn rest r) : s.AskedIn ((now, action) :: rest) r := by
  obtain ⟨before, now', action', hprefix, hasked⟩ := h
  exact ⟨(now, action) :: before, now', action', List.cons_prefix_cons.2 ⟨rfl, hprefix⟩, hasked⟩

/-- A request that is pending after an action was pending before it, or is asked for by it. -/
theorem pending_perform (hsent : s.Unreported) (now : S) (action : Action) {r : SeekRequest}
    (h : (s.perform now action).seekPending = some r) :
    s.seekPending = some r ∨ s.requested now action = some r := by
  by_cases haction : action = .readerTurn
  · subst haction
    left
    cases calling_readerTurn hsent now with
    | rests hdealings => exact (congrArg Dealings.pending hdealings).symm.trans h
    | works _ _ hdealings | ends _ _ _ hdealings =>
      cases (congrArg Dealings.pending hdealings).symm.trans h
  · rw [seekPending_perform haction] at h
    rcases Option.or_eq_some_iff.1 h with hpending | ⟨-, hasked⟩
    · exact .inl hpending
    · exact .inr hasked

/-- A seek that is called for after an action was called for before it, or it was pending. -/
theorem sought_perform (hsent : s.Unreported) (now : S) (action : Action) {range : SeekRange}
    (h : HostCall.seek range ∈ (s.perform now action).calls) :
    HostCall.seek range ∈ s.calls ∨ ∃ r, s.seekPending = some r ∧ range = r.range := by
  by_cases haction : action = .readerTurn
  · subst haction
    have hworked {made : List (HostCall S)} (hnot : HostCall.seek range ∉ made)
        (hcalls : (s.readerTurn now).calls = made ++ s.pendingSeek ++ s.calls) :
        HostCall.seek range ∈ s.calls ∨ ∃ r, s.seekPending = some r ∧ range = r.range := by
      have hmem : HostCall.seek range ∈ made ++ s.pendingSeek ++ s.calls := hcalls ▸ h
      rw [List.append_assoc] at hmem
      rcases List.mem_append.1 hmem with hmade | hmem
      · exact absurd hmade hnot
      rcases List.mem_append.1 hmem with hsought | hbefore
      · obtain ⟨r, hr, hrange⟩ := List.mem_map.1 hsought
        exact .inr ⟨r, Option.mem_toList.1 hr, (HostCall.seek.inj hrange).symm⟩
      · exact .inl hbefore
    cases calling_readerTurn hsent now with
    | rests hdealings =>
      have hcalls : (s.readerTurn now).calls = s.calls := congrArg Dealings.calls hdealings
      exact .inl (hcalls ▸ h)
    | works hmade _ hdealings =>
      refine hworked ?_ (congrArg Dealings.calls hdealings)
      rcases hmade with rfl | rfl <;> simp
    | ends hmade _ _ hdealings =>
      refine hworked ?_ (congrArg Dealings.calls hdealings)
      rcases hmade with rfl | rfl <;> simp
  · rw [calls_perform haction] at h
    exact .inl h

/-- Every seek of a run was asked for in it, or it was pending or called for when the run began. -/
theorem told_run (hsent : s.Unreported) (actions : List (S × Action)) :
    (∀ r, (s.run actions).seekPending = some r →
      s.seekPending = some r ∨ s.AskedIn actions r) ∧
    ∀ range, HostCall.seek range ∈ (s.run actions).calls →
      HostCall.seek range ∈ s.calls ∨
        ∃ r, (s.seekPending = some r ∨ s.AskedIn actions r) ∧ range = r.range := by
  induction actions generalizing s with
  | nil => exact ⟨fun r hr => .inl hr, fun range hrange => .inl hrange⟩
  | cons a actions ih =>
    obtain ⟨now, action⟩ := a
    obtain ⟨hpending, htold⟩ := ih (hsent.perform now action)
    have hfrom {r : SeekRequest} (h : (s.perform now action).seekPending = some r ∨
        (s.perform now action).AskedIn actions r) :
        s.seekPending = some r ∨ s.AskedIn ((now, action) :: actions) r := by
      rcases h with h | h
      · exact (pending_perform hsent now action h).imp_right fun hasked => .here hasked actions
      · exact .inr h.later
    refine ⟨fun r hr => hfrom (hpending r hr), fun range hrange => ?_⟩
    rcases htold range hrange with hcalled | ⟨r, hr, hrange⟩
    · rcases sought_perform hsent now action hcalled with hcalled | ⟨r, hr, hrange⟩
      · exact .inl hcalled
      · exact .inr ⟨r, .inl hr, hrange⟩
    · exact .inr ⟨r, hfrom hr, hrange⟩

end Session

namespace ByteSource

open PictureScript in
/-- A source of one byte per second. -/
def host : Host Rat :=
  let s := script 1 #[.row (row 0)] none
  Host.scripted { s with info := { s.info with bitRate := some 8 } } {}

/-- Seeks are by bytes. -/
def options : Options Rat :=
  { seekByBytes := some true }

/-- A packet is read, and the reader seeks by so many milliseconds. -/
def actions (millis : Int) : List (Rat × Session.Action) :=
  [(0, .start), (0, .readerTurn), (0, .seek millis), (0, .readerTurn)]

end ByteSource

/-- Each range that the container is told in a run was asked for, but for the one with which the
session has opened. A seek to a chapter always makes a range around its target, and nothing on the
way leaves 64 bits. For any other seek this is so if and only if it is not by a single unit and both
its target and the place that it starts from fit into 64 bits. The target of a seek by time always
fits; a seek by bytes starts from the byte position. -/
theorem seek_ranges {S : Type} [Scalar S] [Scalar.Saturates S] {host : Host S} {uri : String}
    {options : Options S} {screen : host.Screen} {opened : S} {s : Session host}
    (hopen : Session.open host uri options screen opened = .ok s)
    (actions : List (S × Session.Action)) :
    let t := s.run actions
    (∀ range ∈ t.ranges,
      (∃ start source medium, options.startTime = some start ∧
        host.openSource uri = .ok (source, medium) ∧ range = Session.startRange start source) ∨
      ∃ r, s.AskedIn actions r ∧ range = r.range) ∧
    (∀ steps now r, t.chapterRequest steps now = some r → r.Computes ∧ r.range.Contains) ∧
    ∀ millis now,
      let r := t.secondsRequest (Scalar.ofInt millis / 1000.0) now
      (r.Computes ∧ r.range.Contains ↔
        r.relative ≠ 1 ∧ r.relative ≠ -1 ∧ FitsInt64 r.target ∧
          FitsInt64 (r.target - r.relative)) ∧
      (r.byBytes = false → FitsInt64 r.target) ∧
      (r.byBytes = true → r.target - r.relative = t.bytePosition) := by
  intro t
  refine ⟨fun range hrange => ?_, fun steps now r => Session.chapterRequest_sound,
    fun millis now => ⟨SeekRequest.sound_iff _, (t.secondsRequest_target _ now).2⟩⟩
  obtain ⟨source, medium, hsource, hdealings⟩ := Session.dealings_open hopen
  have hnone : s.seekPending = none := congrArg Dealings.pending hdealings
  have hstart : s.calls = Session.startCalls options source := congrArg Dealings.calls hdealings
  obtain ⟨-, htold⟩ := Session.told_run (.start hopen) actions
  rcases htold range (Session.mem_ranges.1 hrange) with hcalled | ⟨r, hr, hsame⟩
  · left
    rw [hstart] at hcalled
    obtain ⟨start, hstarts, hsame⟩ := List.mem_map.1 hcalled
    exact ⟨start, source, medium, Option.mem_toList.1 hstarts, hsource,
      (HostCall.seek.inj hsame).symm⟩
  · rcases hr with hpending | hasked
    · cases hnone.symm.trans hpending
    · exact .inr ⟨r, hasked, hsame⟩

/-- A seek by two bytes from the packet that was read. -/
theorem seek_ranges_bytes :
    ∃ s, Session.open ByteSource.host "" ByteSource.options (0 : Nat) 0 = .ok s ∧
      let t := s.run (ByteSource.actions 2000)
      t.ranges = [⟨1002, 1002, int64Max, true⟩] ∧
      (∃ r, s.AskedIn (ByteSource.actions 2000) r ∧ ⟨1002, 1002, int64Max, true⟩ = r.range) ∧
      let r := t.secondsRequest (Scalar.ofInt 2000 / 1000.0) 0
      r = ⟨1002, 2, true⟩ ∧ r.Computes ∧ r.range.Contains := by
  have hopen : ∃ s, Session.open ByteSource.host "" ByteSource.options (0 : Nat) 0 = .ok s ∧
      let t := s.run (ByteSource.actions 2000)
      t.ranges = [⟨1002, 1002, int64Max, true⟩] ∧
        t.secondsRequest (Scalar.ofInt 2000 / 1000.0) 0 = ⟨1002, 2, true⟩ :=
    ⟨_, rfl, by decide +kernel⟩
  obtain ⟨s, hs, hranges, hrequest⟩ := hopen
  obtain ⟨htold, -, hsound⟩ := seek_ranges hs (ByteSource.actions 2000)
  refine ⟨s, hs, hranges, ?_, hrequest, (hsound 2000 0).1.2 ?_⟩
  · have hmem := List.mem_singleton_self (⟨1002, 1002, int64Max, true⟩ : SeekRange)
    rw [← hranges] at hmem
    rcases htold ⟨1002, 1002, int64Max, true⟩ hmem with ⟨start, -, -, hstart, -⟩ | hasked
    · cases hstart
    · exact hasked
  · rw [hrequest]
    decide

/-- A seek by one byte: the range that the container is told begins behind the target. -/
theorem target_before_range :
    ∃ s, Session.open ByteSource.host "" ByteSource.options (0 : Nat) 0 = .ok s ∧
      ∃ range ∈ (s.run (ByteSource.actions 1000)).ranges,
        range.target = 1001 ∧ range.lo = 1002 ∧ ¬ range.Contains := by
  have hopen : ∃ s, Session.open ByteSource.host "" ByteSource.options (0 : Nat) 0 = .ok s ∧
      (s.run (ByteSource.actions 1000)).ranges = [⟨1001, 1002, int64Max, true⟩] :=
    ⟨_, rfl, by decide +kernel⟩
  obtain ⟨s, hs, hranges⟩ := hopen
  refine ⟨s, hs, ⟨1001, 1002, int64Max, true⟩, ?_, rfl, rfl, ?_⟩
  · rw [hranges]
    exact List.mem_singleton_self _
  · rintro ⟨hlower, -⟩
    exact absurd hlower (by decide)

end Playback
