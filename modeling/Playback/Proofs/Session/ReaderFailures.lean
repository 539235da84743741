import Playback.Proofs.Session.EndOfSource
import Playback.Proofs.Session.ReaderCalls

/-!
# Failures of the reader

A container that fails to move leaves the session as it was, and playback ends. However a turn of
the reader ends playback, it says so once, with the cause, and from then on nothing is read and
nothing is sought: a turn calls nothing after its report, and a reader that has left its loop calls
nothing at all (`ended_run`).
-/

namespace Playback

namespace Session

variable {S : Type} [Scalar S] {host : Host S} {s : Session host} {now : S}

/-! ## A reader that has left its loop -/

theorem ended_perform (hended : s.reader = .ended) (now : S) (action : Action) :
    (s.perform now action).reader = .ended ∧ (s.perform now action).calls = s.calls := by
  by_cases h : action = .readerTurn
  · subst h
    have hsame := readerTurn_of_ended hended now
    exact ⟨(congrArg Session.reader hsame).trans hended, congrArg calls hsame⟩
  · exact ⟨(reader_perform h now).2 hended, calls_perform h now⟩

/-- After the reader has left its loop nothing is read, sought or reported. -/
theorem ended_run (hended : s.reader = .ended) (actions : List (S × Action)) :
    (s.run actions).calls = s.calls := by
  induction actions generalizing s with
  | nil => rfl
  | cons a actions ih =>
    obtain ⟨hended', hcalls⟩ := ended_perform hended a.1 a.2
    exact (ih hended').trans hcalls

/-! ## The first report -/

/-- After `before` the turn of the reader at `now` ends playback on the way to `t`. That is reported
once, and it is the last call of all. -/
structure EndsOnce (s t : Session host) (before : List (S × Action)) (now : S)
    (status : QuitStatus) : Prop where
  cause : (s.run before).EndsWith now status
  once : t.quits = [status]
  last : t.calls.head? = some (.quit status)
  silent : t.calls = ((s.run before).readerTurn now).calls

theorem pendingSeek_quit? (s : Session host) : s.pendingSeek.filterMap HostCall.quit? = [] := by
  unfold pendingSeek
  cases s.seekPending <;> rfl

/-- A turn that does not end playback reports nothing. -/
theorem Calling.quits {s' : Session host} (h : Calling now s s') :
    s'.quits = s.quits ∨
      ∃ status, s.EndsWith now status ∧ s'.reader = .ended ∧ s'.quits = status :: s.quits ∧
        s'.calls.head? = some (.quit status) := by
  have hmade {made : List (HostCall S)} (h : made = [] ∨ made = [.read]) :
      made.filterMap HostCall.quit? = [] := by
    rcases h with rfl | rfl <;> rfl
  simp only [quits_eq]
  cases h with
  | rests hdealings =>
    have hcalls : s'.calls = s.calls := congrArg Dealings.calls hdealings
    exact .inl (congrArg _ hcalls)
  | @works made hread _ hdealings =>
    have hcalls := congrArg Dealings.calls hdealings
    left
    calc s'.calls.filterMap HostCall.quit?
        = (made ++ s.pendingSeek ++ s.calls).filterMap HostCall.quit? := congrArg _ hcalls
      _ = s.calls.filterMap HostCall.quit? := by
        rw [List.filterMap_append, List.filterMap_append, hmade hread, pendingSeek_quit?]
        rfl
  | @ends made status hread _ hends hdealings hreader =>
    have hcalls := congrArg Dealings.calls hdealings
    refine .inr ⟨_, hends, hreader, ?_, congrArg List.head? hcalls⟩
    calc s'.calls.filterMap HostCall.quit?
        = (.quit status :: made ++ s.pendingSeek ++ s.calls : List (HostCall S)).filterMap
            HostCall.quit? := congrArg _ hcalls
      _ = status :: s.calls.filterMap HostCall.quit? := by
        rw [List.filterMap_append, List.filterMap_append, List.filterMap_cons, hmade hread,
          pendingSeek_quit?]
        rfl

theorem endsOnce_run (hsent : s.Unreported) (hquits : s.quits = []) (actions : List (S × Action)) :
    (s.run actions).quits = [] ∨
      ∃ before now status after, actions = before ++ (now, .readerTurn) :: after ∧
        s.EndsOnce (s.run actions) before now status := by
  induction actions generalizing s with
  | nil => exact .inl hquits
  | cons a actions ih =>
    have hgoes (hquits' : (s.perform a.1 a.2).quits = []) :
        (s.run (a :: actions)).quits = [] ∨
          ∃ before now status after, a :: actions = before ++ (now, .readerTurn) :: after ∧
            s.EndsOnce (s.run (a :: actions)) before now status := by
      rcases ih (hsent.perform a.1 a.2) hquits' with hnone | ⟨before, now, status, after, rfl, h⟩
      · exact .inl hnone
      · exact .inr ⟨a :: before, now, status, after, rfl, h.cause, h.once, h.last, h.silent⟩
    obtain ⟨now, action⟩ := a
    by_cases haction : action = .readerTurn
    · subst haction
      rcases (calling_readerTurn hsent now).quits with
        hsame | ⟨status, hends, hreader, hquits', hlast⟩
      · exact hgoes (hsame.trans hquits)
      · have hrest := ended_run hreader actions
        refine .inr ⟨[], now, status, actions, rfl, hends, ?_, ?_, hrest⟩
        · calc ((s.readerTurn now).run actions).quits
              = (s.readerTurn now).quits := by rw [quits_eq, quits_eq, hrest]
            _ = [status] := by rw [hquits', hquits]
        · exact (congrArg List.head? hrest).trans hlast
    · refine hgoes ?_
      rw [quits_eq, calls_perform haction, ← quits_eq]
      exact hquits

end Session

/-! ## Sources that cannot be moved -/

namespace FixedSource

open PictureScript in
/-- A source of two packets whose first seek fails. -/
def host : Host Rat :=
  Host.scripted { script 1 #[.row (row 0), .row (row 1)] none with seekFailsAt := some 0 } {}

/-- A packet is read, and then a seek is asked for. -/
def asked : List (Rat × Session.Action) :=
  [(0, .start), (0, .readerTurn), (0, .videoStep), (0, .seek 400)]

/-- The reader goes on, and another seek is asked for. -/
def actions : List (Rat × Session.Action) :=
  asked ++ [(0, .readerTurn), (0, .readerTurn), (0, .seek 800), (0, .readerTurn)]

theorem seek_host (range : SeekRange) {m : Script.Progress} (h : m.seeks = 0) :
    host.container.seek range m =
      (.error (.cannotSeek "not seekable"), ({ m with seeks := 1 } : Script.Progress)) := by
  obtain ⟨position, seeks⟩ := m
  subst h
  rfl

end FixedSource

/-- A seek that fails leaves no trace but the call, and it ends playback: the request is served, and
the reader leaves its loop with the failure of the container. In every run playback ends at most
once, for the cause that is reported then, and nothing is read or sought after the report. -/
theorem failed_seek_ends_playback {S : Type} [Scalar S] {host : Host S} :
    (∀ (s : Session host) (r : SeekRequest) (e : SourceFailure) (m : host.Medium) (now : S),
      host.container.seek r.range s.medium = (.error e, m) →
      s.performSeek r now = (.error e, { s with medium := m, log := .seek r.range :: s.log })) ∧
    (∀ (s : Session host) (lastPaused : Bool) (r : SeekRequest) (e : SourceFailure)
        (m : host.Medium) (now : S),
      s.reader = .running lastPaused → s.aborted = false → s.seekPending = some r →
      host.container.seek r.range (s.forwardPause lastPaused).medium = (.error e, m) →
      s.readerTurn now =
        ({ (s.forwardPause lastPaused).record (.seek r.range) with
          medium := m, seekPending := none } : Session host).failReader e) ∧
    ∀ (uri : String) (options : Options S) (screen : host.Screen) (opened : S) (s : Session host),
      Session.open host uri options screen opened = .ok s →
      ∀ actions : List (S × Session.Action),
        (s.run actions).quits = [] ∨
          ∃ before now status after, actions = before ++ (now, .readerTurn) :: after ∧
            s.EndsOnce (s.run actions) before now status := by
  refine ⟨fun s r e m now hseek => Session.performSeek_of_error hseek now, ?_, ?_⟩
  · intro s lastPaused r e m now hreader hrun hpending hseek
    have htop := Session.readerTop_of_error hreader hrun hpending hseek now
    unfold Session.readerTurn
    rw [htop]
  · intro uri options screen opened s hopen actions
    obtain ⟨source, medium, -, hdealings⟩ := Session.dealings_open hopen
    have hcalls : s.calls = Session.startCalls options source :=
      congrArg Dealings.calls hdealings
    have hquits : s.quits = [] := by
      rw [Session.quits_eq, hcalls]
      unfold Session.startCalls
      cases options.startTime <;> rfl
    exact Session.endsOnce_run (.start hopen) hquits actions

/-- The reader of a source that cannot be moved, around the seek that fails. -/
theorem failed_seek_ends_playback_first :
    ∃ s, Session.open FixedSource.host "" {} (0 : Nat) 0 = .ok s ∧
      let asked := s.run FixedSource.asked
      ∃ r m, asked.seekPending = some r ∧
        asked.performSeek r 0 = (.error (.cannotSeek "not seekable"),
          { asked with medium := m, log := .seek r.range :: asked.log }) ∧
        asked.readerTurn 0 = ({ (asked.forwardPause false).record (.seek r.range) with
          medium := m, seekPending := none } : Session _).failReader (.cannotSeek "not seekable") ∧
        (s.run FixedSource.actions).quits = [.failed (-22) "seek failed: not seekable"] ∧
        ∃ before now status after, FixedSource.actions = before ++ (now, .readerTurn) :: after ∧
          s.EndsOnce (s.run FixedSource.actions) before now status := by
  have hopen : ∃ s, Session.open FixedSource.host "" {} (0 : Nat) 0 = .ok s ∧
      (s.run FixedSource.asked).reader = .running false ∧
        (s.run FixedSource.asked).aborted = false ∧ (s.run FixedSource.asked).paused = false ∧
        (s.run FixedSource.asked).seekPending = some ⟨400000, 400000, false⟩ ∧
        Script.Progress.seeks (s.run FixedSource.asked).medium = 0 ∧
        (s.run FixedSource.actions).quits = [.failed (-22) "seek failed: not seekable"] :=
    ⟨_, rfl, by decide +kernel⟩
  obtain ⟨s, hs, hreader, hrun, hpaused, hpending, hseeks, hquits⟩ := hopen
  have hseek := FixedSource.seek_host (SeekRequest.range ⟨400000, 400000, false⟩) hseeks
  have hsame : (s.run FixedSource.asked).forwardPause false = s.run FixedSource.asked :=
    if_pos hpaused
  obtain ⟨hleaves, hends, honce⟩ := @failed_seek_ends_playback Rat _ FixedSource.host
  refine ⟨s, hs, _, _, hpending, hleaves _ _ _ _ 0 hseek, ?_, ?_⟩
  · exact hends _ false _ _ _ 0 hreader hrun hpending (hsame.symm ▸ hseek)
  · rcases honce "" {} (0 : Nat) 0 s hs FixedSource.actions with hnone | hends
    · cases hnone.symm.trans hquits
    · exact ⟨hquits, hends⟩

end Playback
