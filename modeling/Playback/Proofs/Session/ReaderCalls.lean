import Playback.Proofs.Session.Dealings

/-!
# What the reader calls

One turn of the reader makes at most one seek and one read, and if it reports the end this is the
last that it does (`calling_readerTurn`). `Session.EndsWith` tells why a turn ends playback, and
`Session.Calling` what a turn calls on the way. A reader that has left its loop never comes back
(`reader_perform`).
-/

namespace Playback

namespace Session

variable {S : Type} [Scalar S] {host : Host S} {s s' : Session host} {now : S}

/-! ## A turn -/

/-- The seek that is pending. -/
def pendingSeek (s : Session host) : List (HostCall S) :=
  s.seekPending.toList.map fun r => .seek r.range

/-- What is asked for after a turn of the reader that performs the seek that is pending and then
makes the calls `made`. -/
def worked (s : Session host) (now : S) (made : List (HostCall S)) : Dealings S :=
  ⟨s.stepping || (s.paused && s.seekSucceeds now), none, made ++ s.pendingSeek ++ s.calls⟩

/-- Why a turn of the reader ends playback. -/
inductive EndsWith (s : Session host) (now : S) : QuitStatus → Prop
  /-- The seek that was pending fails. -/
  | seek {lastPaused : Bool} {r : SeekRequest} {e : SourceFailure} {m : host.Medium}
      (hreader : s.reader = .running lastPaused) (hrun : s.aborted = false)
      (hpending : s.seekPending = some r)
      (hseek : host.container.seek r.range (s.forwardPause lastPaused).medium = (.error e, m)) :
      EndsWith s now (.ofFailure e)
  /-- The next packet cannot be read. -/
  | read {top : Session host} {e : SourceFailure} {m : host.Medium}
      (htop : s.readerTop now = (.ready, top))
      (hread : host.container.read now top.medium = (.error e, m)) (he : e ≠ .endOfFile) :
      EndsWith s now (.ofFailure e)
  /-- All was played, and the session is to end then. -/
  | played {top : Session host} (htop : s.readerTop now = (.ended, top))
      (hplayed : top.allPlayed = true) (hexit : top.options.autoExit = true) :
      EndsWith s now .endOfStream

/-- What a turn of the reader calls. A turn that ends playback calls nothing more. -/
inductive Calling (now : S) (s s' : Session host) : Prop
  /-- The reader does not run, or it leaves its loop without a word. -/
  | rests (hdealings : s'.dealings = s.dealings) (hsought : s.seekSucceeds now = false)
      (hsent : s'.quitSent = s.quitSent) (hreader : s.reader = .ended → s'.reader = .ended)
  | works {made : List (HostCall S)} (hmade : made = [] ∨ made = [.read])
      (hrun : s.reader ≠ .ended) (hdealings : s'.dealings = s.worked now made)
      (hsent : s'.quitSent = s.quitSent)
  | ends {made : List (HostCall S)} {status : QuitStatus} (hmade : made = [] ∨ made = [.read])
      (hrun : s.reader ≠ .ended) (hends : s.EndsWith now status)
      (hdealings : s'.dealings = s.worked now (.quit status :: made))
      (hreader : s'.reader = .ended)

theorem dealings_quit {d : Dealings S} (hdealings : s.dealings = d) (hsent : s.quitSent = false)
    (status : QuitStatus) :
    (s.quit status).dealings = { d with calls := .quit status :: d.calls } := by
  subst hdealings
  unfold quit
  rw [if_neg (Bool.eq_false_iff.1 hsent)]
  rfl

theorem dealings_forwardPause (lastPaused : Bool) :
    (s.forwardPause lastPaused).dealings = s.dealings := by
  unfold forwardPause
  split <;> rfl

theorem dealings_queueAttachment : s.queueAttachment.dealings = s.dealings := by
  unfold queueAttachment
  split
  · rfl
  · dsimp only
    split
    · split
      · split <;> rfl
      · rfl
    · rfl

theorem dealings_enterEpoch (s : Session host) (r : SeekRequest) (now : S) :
    (s.enterEpoch r now).dealings = { s.dealings with stepping := s.stepping || s.paused } := by
  unfold enterEpoch
  dsimp only
  split
  · rename_i hpaused
    have hpaused' : s.paused = true := hpaused
    rw [dealings_step, hpaused', Bool.or_true]
    rfl
  · rename_i hrun
    have hrun' : s.paused = false := Bool.eq_false_iff.2 hrun
    rw [hrun', Bool.or_false]
    rfl

/-- A container that fails to move leaves everything else of a session as it was. -/
theorem performSeek_of_error {r : SeekRequest} {e : SourceFailure} {m : host.Medium}
    (h : host.container.seek r.range s.medium = (.error e, m)) (now : S) :
    s.performSeek r now = (.error e, { s.record (.seek r.range) with medium := m }) := by
  unfold performSeek
  dsimp only [record]
  rw [h]

theorem performSeek_of_isOk {r : SeekRequest} (h : (s.performSeek r now).1.isOk = true) :
    ∃ m, s.performSeek r now = (.ok (),
      ({ s.record (.seek r.range) with medium := m } : Session host).enterEpoch r now) := by
  unfold performSeek at h ⊢
  dsimp only at h ⊢
  split at h
  · cases h
  · exact ⟨_, rfl⟩

theorem dealings_performSeek (s : Session host) (r : SeekRequest) (now : S) :
    (s.performSeek r now).2.dealings =
      ⟨s.stepping || (s.paused && (s.performSeek r now).1.isOk), s.seekPending,
        .seek r.range :: s.calls⟩ := by
  unfold performSeek
  dsimp only
  rcases host.container.seek r.range (s.record (.seek r.range)).medium with ⟨_ | _, m⟩
  · simp only [Except.isOk, Except.toBool, Bool.and_false, Bool.or_false]
    rfl
  · dsimp only
    rw [dealings_enterEpoch]
    simp only [Except.isOk, Except.toBool, Bool.and_true]
    rfl

/-- What is left of the top of the loop either calls nothing, or it ends playback. -/
theorem dealings_gate {d : Dealings S} (hdealings : s.dealings = d) (hsent : s.quitSent = false)
    (paused : Bool) :
    let s' := (s.gate paused).2
    ((s.gate paused).1 ≠ .ended ∧ s'.dealings = d ∧ s'.quitSent = false) ∨
      ((s.gate paused).1 = .ended ∧ s'.reader = .ended ∧ s'.allPlayed = true ∧
        s'.options.autoExit = true ∧
        s'.dealings = { d with calls := .quit .endOfStream :: d.calls }) := by
  have hsent' : s.queueAttachment.quitSent = false := s.silent_queueAttachment.2.trans hsent
  have hattach := dealings_queueAttachment.trans hdealings
  unfold gate
  dsimp only
  split
  · exact .inl ⟨nofun, hattach, hsent'⟩
  · split
    · rename_i hexit
      simp only [Bool.and_eq_true] at hexit
      obtain ⟨⟨hplayed, -⟩, hexit⟩ := hexit
      have hquit : s.queueAttachment.quit .endOfStream =
          { s.queueAttachment.record (.quit .endOfStream) with quitSent := true } :=
        if_neg (Bool.eq_false_iff.1 hsent')
      refine .inr ⟨rfl, rfl, ?_, ?_, dealings_quit hattach hsent' .endOfStream⟩
      · rw [hquit]
        exact hplayed
      · rw [hquit]
        exact hexit
    · exact .inl ⟨nofun, hattach, hsent'⟩

/-- A container that cannot move ends playback, and the request is served. -/
theorem readerTop_of_error {lastPaused : Bool} {r : SeekRequest} {e : SourceFailure}
    {m : host.Medium} (hreader : s.reader = .running lastPaused) (hrun : s.aborted = false)
    (hpending : s.seekPending = some r)
    (hseek : host.container.seek r.range (s.forwardPause lastPaused).medium = (.error e, m))
    (now : S) :
    s.readerTop now = (.ended, ({ (s.forwardPause lastPaused).record (.seek r.range) with
      medium := m, seekPending := none } : Session host).failReader e) := by
  have hpending' : (s.forwardPause lastPaused).seekPending = some r :=
    (congrArg Dealings.pending (dealings_forwardPause lastPaused)).trans hpending
  unfold readerTop
  simp only [hreader, hrun, Bool.false_eq_true, if_false, hpending', performSeek_of_error hseek now]

theorem readerTop_of_ok {lastPaused : Bool} {r : SeekRequest} {s' : Session host}
    (hreader : s.reader = .running lastPaused) (hrun : s.aborted = false)
    (hpending : s.seekPending = some r)
    (hseek : (s.forwardPause lastPaused).performSeek r now = (.ok (), s')) :
    s.readerTop now = { s' with seekPending := none }.gate s.paused := by
  have hpending' : (s.forwardPause lastPaused).seekPending = some r :=
    (congrArg Dealings.pending (dealings_forwardPause lastPaused)).trans hpending
  unfold readerTop
  simp only [hreader, hrun, Bool.false_eq_true, if_false, hpending', hseek]

/-- The top of the loop goes on to read, or the turn is over. -/
def GoesOn (s : Session host) (now : S) : Prop :=
  ((s.readerTop now).1 ≠ .ready → Calling now s (s.readerTop now).2) ∧
    ((s.readerTop now).1 = .ready →
      (s.readerTop now).2.dealings = s.worked now [] ∧ (s.readerTop now).2.quitSent = false)

theorem GoesOn.rests {s' : Session host} (htop : s.readerTop now = (.ended, s'))
    (hdealings : s'.dealings = s.dealings) (hsought : s.seekSucceeds now = false)
    (hsent : s'.quitSent = s.quitSent) (hreader : s.reader = .ended → s'.reader = .ended) :
    s.GoesOn now := by
  unfold GoesOn
  rw [htop]
  exact ⟨fun _ => .rests hdealings hsought hsent hreader, nofun⟩

/-- The top of the loop has come to its last part. -/
theorem GoesOn.gate {g : Session host} (hrun : s.reader ≠ .ended) (hsent : s.quitSent = false)
    (htop : s.readerTop now = g.gate s.paused) (hdealings : g.dealings = s.worked now [])
    (hsent' : g.quitSent = false) : s.GoesOn now := by
  unfold GoesOn
  rcases dealings_gate hdealings hsent' s.paused with
    ⟨hgoes, hgate, hsent'⟩ | ⟨hends, hreader, hplayed, hexit, hgate⟩
  · rw [← htop] at hgoes hgate hsent'
    exact ⟨fun _ => .works (.inl rfl) hrun hgate (hsent'.trans hsent.symm),
      fun _ => ⟨hgate, hsent'⟩⟩
  · rw [← htop] at hends hreader hplayed hexit hgate
    refine ⟨fun _ => .ends (.inl rfl) hrun (.played (Prod.ext hends rfl) hplayed hexit) hgate
      hreader, fun hready => ?_⟩
    cases hends.symm.trans hready

theorem GoesOn.seek {lastPaused : Bool} {r : SeekRequest} (hsent : s.quitSent = false)
    (hreader : s.reader = .running lastPaused) (hrun : s.aborted = false)
    (hpending : s.seekPending = some r) (now : S) : s.GoesOn now := by
  have hended : s.reader ≠ .ended := by simp [hreader]
  have hpause := dealings_forwardPause (s := s) lastPaused
  have hstepping : (s.forwardPause lastPaused).stepping = s.stepping :=
    congrArg Dealings.stepping hpause
  have hcalls : (s.forwardPause lastPaused).calls = s.calls := congrArg Dealings.calls hpause
  have hpaused : (s.forwardPause lastPaused).paused = s.paused := by
    unfold forwardPause
    split <;> rfl
  have hsent' : ((s.forwardPause lastPaused).performSeek r now).2.quitSent = false :=
    ((s.forwardPause lastPaused).silent_performSeek r now).2.trans
      ((s.silent_forwardPause lastPaused).2.trans hsent)
  have hsought : s.seekSucceeds now = ((s.forwardPause lastPaused).performSeek r now).1.isOk := by
    simp [seekSucceeds, hreader, hpending, hrun]
  have hworked (made : List (HostCall S)) : s.worked now made =
      ⟨s.stepping || (s.paused && s.seekSucceeds now), none, made ++ .seek r.range :: s.calls⟩ := by
    simp [worked, pendingSeek, hpending]
  have hserved {s' : Session host} {d : Dealings S} (hdealings : s'.dealings = d) :
      ({ s' with seekPending := none } : Session host).dealings = { d with pending := none } := by
    subst hdealings
    rfl
  have hperform := (s.forwardPause lastPaused).dealings_performSeek r now
  rw [hpaused, hstepping, hcalls, ← hsought] at hperform
  rcases hmoved : host.container.seek r.range (s.forwardPause lastPaused).medium with ⟨e | u, m⟩
  · have hfails := performSeek_of_error hmoved now
    have htop := readerTop_of_error hreader hrun hpending hmoved now
    rw [hfails] at hsent' hperform
    unfold GoesOn
    rw [htop]
    refine ⟨fun _ => .ends (.inl rfl) hended (.seek hreader hrun hpending hmoved) ?_ rfl, nofun⟩
    rw [hworked]
    exact dealings_quit (hserved hperform) hsent' (.ofFailure e)
  · have hok : (s.forwardPause lastPaused).performSeek r now =
        (.ok (), ((s.forwardPause lastPaused).performSeek r now).2) := by
      unfold performSeek
      dsimp only [record]
      rw [hmoved]
    refine .gate hended hsent (readerTop_of_ok hreader hrun hpending hok) ?_ hsent'
    rw [hworked]
    exact hserved hperform

theorem goesOn_readerTop (hsent : s.reader ≠ .ended → s.quitSent = false) (now : S) :
    s.GoesOn now := by
  cases hreader : s.reader with
  | waiting | ended =>
    exact .rests (by simp [readerTop, hreader]) rfl (by simp [seekSucceeds, hreader]) rfl id
  | running lastPaused =>
    have hended : s.reader ≠ .ended := by simp [hreader]
    cases hrun : s.aborted with
    | true =>
      have htop : s.readerTop now = (.ended, { s with reader := .ended }) := by
        simp [readerTop, hreader, hrun]
      refine .rests htop rfl ?_ rfl fun _ => rfl
      cases hpending : s.seekPending <;> simp [seekSucceeds, hreader, hrun, hpending]
    | false =>
      cases hpending : s.seekPending with
      | some r => exact .seek (hsent hended) hreader hrun hpending now
      | none =>
        have hpause := dealings_forwardPause (s := s) lastPaused
        have hpending' : (s.forwardPause lastPaused).seekPending = none :=
          (congrArg Dealings.pending hpause).trans hpending
        refine .gate hended (hsent hended) (g := s.forwardPause lastPaused) ?_ ?_ ?_
        · simp [readerTop, hreader, hrun, hpending']
        · have hserved : s.dealings = ⟨s.stepping, none, s.calls⟩ := by rw [← hpending]; rfl
          rw [hpause, hserved]
          simp [worked, pendingSeek, seekSucceeds, hreader, hpending]
        · exact (s.silent_forwardPause lastPaused).2.trans (hsent hended)

theorem dealings_reachEnd : s.reachEnd.dealings = s.dealings := by
  unfold reachEnd
  split <;> rfl

theorem dealings_route (p : Packet) : (s.route p).dealings = s.dealings := by
  unfold route
  dsimp only
  split
  · rfl
  · split <;> rfl

/-- A read that does not fail is all that is called; one that fails ends playback. -/
theorem dealings_readPacket {d : Dealings S} (hdealings : s.dealings = d)
    (hsent : s.quitSent = false) (now : S) :
    ((s.readPacket now).dealings = { d with calls := .read :: d.calls } ∧
        (s.readPacket now).quitSent = false) ∨
      ∃ e m, host.container.read now s.medium = (.error e, m) ∧ e ≠ .endOfFile ∧
        (s.readPacket now).reader = .ended ∧
        (s.readPacket now).dealings =
          { d with calls := .quit (.ofFailure e) :: .read :: d.calls } := by
  have hends (s : Session host) : s.reachEnd.quitSent = s.quitSent := by
    unfold reachEnd
    split <;> rfl
  have hroutes (s : Session host) (p : Packet) : (s.route p).quitSent = s.quitSent := by
    unfold route
    dsimp only
    split
    · rfl
    · split <;> rfl
  subst hdealings
  unfold readPacket
  rcases hread : host.container.read now s.medium with ⟨e | p | _, m⟩
  · cases e with
    | endOfFile => exact .inl ⟨dealings_reachEnd, (hends _).trans hsent⟩
    | cannotOpen | cannotRead | cannotSeek | noStreams =>
      exact .inr ⟨_, m, rfl, nofun, rfl,
        dealings_quit (s := { s.record .read with medium := m }) rfl hsent _⟩
  · exact .inl ⟨dealings_route p, (hroutes _ p).trans hsent⟩
  · exact .inl ⟨dealings_reachEnd, (hends _).trans hsent⟩

/-- What a turn of the reader calls. -/
theorem calling_readerTurn (hsent : s.reader ≠ .ended → s.quitSent = false) (now : S) :
    Calling now s (s.readerTurn now) := by
  obtain ⟨hover, hgoes⟩ := goesOn_readerTop hsent now
  unfold readerTurn
  rcases htop : s.readerTop now with ⟨_ | _ | _, top⟩
  all_goals rw [htop] at hover hgoes
  · exact hover nofun
  · exact hover nofun
  · have hrun : s.reader ≠ .ended := by
      intro hended
      simp [readerTop, hended] at htop
    obtain ⟨hdealings, hsent'⟩ := hgoes rfl
    rcases dealings_readPacket hdealings hsent' now with
      ⟨hread, hsent''⟩ | ⟨e, m, hread, he, hreader, hquit⟩
    · exact .works (.inr rfl) hrun hread (hsent''.trans (hsent hrun).symm)
    · exact .ends (.inr rfl) hrun (.read htop hread he) hquit hreader

/-! ## A reader that has left its loop -/

theorem readerTurn_of_ended (hended : s.reader = .ended) (now : S) : s.readerTurn now = s := by
  unfold readerTurn readerTop
  rw [hended]

/-- Nobody but the reader reports anything, and nobody calls it back. -/
theorem reader_perform {action : Action} (h : action ≠ .readerTurn) (now : S) :
    (s.perform now action).quitSent = s.quitSent ∧
      (s.reader = .ended → (s.perform now action).reader = .ended) := by
  have hsame {s' : Session host}
      (h : ∃ due, s'.readerState = { s.readerState with attachmentDue := due }) :
      s'.quitSent = s.quitSent ∧ (s.reader = .ended → s'.reader = .ended) := by
    obtain ⟨due, hstate⟩ := h
    exact ⟨congrArg ReaderState.quitSent hstate, (congrArg ReaderState.reader hstate).trans⟩
  have hdownstream (h : action.isDownstream = true) (hstart : action ≠ .start) :=
    readerState_perform (s := s) h hstart now
  cases action with
  | readerTurn => exact absurd rfl h
  | abort => exact hsame ⟨_, rfl⟩
  | close =>
    have hstate : s.close.readerState = { s.readerState with reader := .ended } := by
      unfold close
      rw [readerState_closeStream, readerState_closeStream]
      rfl
    exact ⟨congrArg ReaderState.quitSent hstate, fun _ => congrArg ReaderState.reader hstate⟩
  | start =>
    have hstart : s.start.quitSent = s.quitSent ∧
        (s.reader = .ended → s.start.reader = .ended) := by
      unfold start
      cases hreader : s.reader with
      | waiting => exact ⟨rfl, nofun⟩
      | running _ | ended => exact ⟨rfl, hreader.trans⟩
    exact hstart
  | cycleStream kind =>
    cases hswitch : s.switches kind with
    | false =>
      have hstays := cycleStream_of_stays hswitch now
      exact hsame ⟨_, congrArg readerState hstays⟩
    | true =>
      cases kind with
      | video => exact hsame (readerState_cycleVideo hswitch now)
      | audio => exact hsame ⟨_, readerState_cycleAudio hswitch now⟩
  | videoStep | audioStep | audioDecode | refresh | takePicture | fill _ _ | togglePause | step
  | seek _ | seekChapter _ | nextChunk | previousChunk =>
    exact hsame ⟨_, hdownstream rfl nofun⟩

/-- The end of playback was not reported as long as the reader is in its loop. -/
def Unreported (s : Session host) : Prop :=
  s.reader ≠ .ended → s.quitSent = false

theorem Unreported.perform (h : s.Unreported) (now : S) (action : Action) :
    (s.perform now action).Unreported := by
  by_cases haction : action = .readerTurn
  · subst haction
    exact unreported_readerTurn h
  · obtain ⟨hsent, hended⟩ := reader_perform haction now
    exact fun hrun => hsent.trans (h fun hreader => hrun (hended hreader))

theorem Unreported.run (h : s.Unreported) (actions : List (S × Action)) :
    (s.run actions).Unreported :=
  of_run h (fun _ now action h => h.perform now action) actions

theorem Unreported.start {uri : String} {options : Options S} {screen : host.Screen}
    (hopen : Session.open host uri options screen now = .ok s) : s.Unreported := by
  obtain ⟨due, hstate⟩ := readerState_open hopen
  exact fun _ => congrArg ReaderState.quitSent hstate

end Session

end Playback
