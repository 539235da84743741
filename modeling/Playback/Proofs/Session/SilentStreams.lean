import Playback.Proofs.Session.ExternalClock

/-!
# Streams that are silent after a seek

After a seek the clocks of the streams are silent until a frame sets one of them (`Silenced`): a
picture with a time that is accepted or passed over, or a block of sound whose end is known and that
a fill converts last. Meanwhile the external clock follows none of them (`follows_idle`).

The video clock may speak on for a picture from before the seek if the host has refused a buffer.
-/

namespace Playback

/-! ## Frames that set no clock -/

theorem Presents.retain {S α : Type} [Timed S α] {time : α → Option S} {refuses : Prop}
    {seeks : Nat} {shown shown' : List (Nat × α)} {q : PacketQueue} {t : S}
    (h : Presents time refuses seeks shown q t)
    (htimed : ∀ x ∈ shown, (time x.2).isSome = true → x ∈ shown') :
    Presents time refuses seeks shown' q t := by
  obtain ⟨x, hx, hserial, htime, hseeks⟩ := h
  exact ⟨x, htimed x hx (htime ▸ rfl), hserial, htime, hseeks⟩

section

variable {S : Type} [Scalar S]

/-- What a fill does to the clocks depends on nothing but the last block. -/
theorem Clocks.Filled.of_last {now : S} {fs fs' : List (AudioFrame S)} {c c' : Clocks S}
    (h : c.Filled now fs c') (hlast : fs'.getLast? = fs.getLast?) : c.Filled now fs' c' := by
  have hplays {out out' : AudioOutput S} (hout : out.Plays fs out') : out.Plays fs' out' := by
    obtain ⟨hspec, hclock, hserial⟩ := hout
    rw [← hlast] at hclock hserial
    exact ⟨hspec, hclock, hserial⟩
  cases h with
  | closed hnone => exact .closed hnone
  | paused hout hplayed hpaused => exact .paused hout (hplays hplayed) hpaused
  | heard hout hplayed hrun external => exact .heard hout (hplays hplayed) hrun external

/-- Of what was presented, only frames that can set a clock matter. -/
theorem Flows.Voiced.retain {host : Host S} {fs : Flows host} {c : Clocks S} {seeks : Nat}
    {pictures pictures' : List (Nat × VideoFrame S)} {sound sound' : List (Nat × AudioFrame S)}
    (h : fs.Voiced c seeks pictures sound)
    (hpictures : ∀ x ∈ pictures, x.2.pts.isSome = true → x ∈ pictures')
    (hsound : ∀ x ∈ sound, x.2.stop?.isSome = true → x ∈ sound') :
    fs.Voiced c seeks pictures' sound' := by
  refine ⟨fun f k hf hk => ?_, fun f k hf hk => ?_⟩
  · obtain ⟨hstopped, hspeaks⟩ := h.video f k hf hk
    exact ⟨hstopped, hspeaks.mono fun _ hpts => hpts.retain hpictures⟩
  · obtain ⟨out, hout, hstopped, hends, hspeaks⟩ := h.audio f k hf hk
    refine ⟨out, hout, hstopped, hends.mono fun _ hstop => hstop.retain hsound, hspeaks.mono ?_⟩
    rintro pts ⟨stop, out', hstop, hspec, hpts⟩
    exact ⟨stop, out', hstop.retain hsound, hspec, hpts⟩

end

namespace Presented

variable {S : Type} [Scalar S] {host : Host S} {t : Presented host} {n m : Nat} {now : S}

/-- All that was presented was presented before `n` seeks had succeeded. -/
structure Before (t : Presented host) (n : Nat) : Prop where
  pictures : ∀ x ∈ t.pictures, x.1 < n
  sound : ∀ x ∈ t.sound, x.1 < n

theorem seeks_le_perform (t : Presented host) (now : S) (action : Session.Action) :
    t.seeks ≤ (t.perform now action).seeks := by
  unfold perform
  split
  · exact Nat.le_add_right _ _
  all_goals exact le_refl _

namespace Before

theorem start (s : Session host) (n : Nat) : (Presented.start s).Before n :=
  ⟨nofun, nofun⟩

theorem mono (h : t.Before n) (hle : n ≤ m) : t.Before m :=
  ⟨fun x hx => (h.pictures x hx).trans_le hle, fun x hx => (h.sound x hx).trans_le hle⟩

theorem perform (h : t.Before n) {action : Session.Action}
    (hseeks : action.presents = true → t.seeks < n) (now : S) :
    (t.perform now action).Before n := by
  cases action with
  | refresh =>
    refine ⟨fun x hx => ?_, h.sound⟩
    rcases List.mem_append.1 hx with hbefore | hnow
    · exact h.pictures x hbefore
    · obtain ⟨f, -, rfl⟩ := List.mem_map.1 hnow
      exact hseeks rfl
  | fill count volume =>
    refine ⟨h.pictures, fun x hx => ?_⟩
    rcases List.mem_append.1 hx with hbefore | hnow
    · exact h.sound x hbefore
    · obtain ⟨f, -, rfl⟩ := List.mem_map.1 hnow
      exact hseeks rfl
  | cycleStream kind =>
    cases kind with
    | video =>
      refine ⟨?_, h.sound⟩
      show ∀ x ∈ if t.session.switches .video then [] else t.pictures, x.1 < n
      split
      · exact nofun
      · exact h.pictures
    | audio =>
      refine ⟨h.pictures, ?_⟩
      show ∀ x ∈ if t.session.switches .audio then [] else t.sound, x.1 < n
      split
      · exact nofun
      · exact h.sound
  | _ => exact ⟨h.pictures, h.sound⟩

end Before

end Presented

namespace Session

variable {S : Type} [Scalar S] {host : Host S} {s : Session host} {now : S}

/-! ## Silence -/

/-- Whatever was presented and could set the clock of an open stream was presented before the last
seek. -/
def Silenced (s : Session host) : Prop :=
  ∃ t : Presented host, t.session = s ∧ t.Kept ∧ t.Before t.seeks

namespace Silenced

/-- The clock of the sound says nothing. -/
theorem audioClock (h : s.Silenced) (now : S) : s.audioClock now = none := by
  obtain ⟨t, rfl, hvoiced, hbefore⟩ := h
  unfold Session.audioClock audioStream
  cases haudio : t.session.audio with
  | none => rfl
  | some p =>
    obtain ⟨out, -, hclock⟩ := hvoiced.audio p.flow p.stream.clock (by rw [flows, haudio]; rfl)
      (by rw [clocks, audioStream, haudio]; rfl)
    show p.stream.clock.read (some p.stream.packets.serial) now = none
    by_contra hspeaks
    obtain ⟨value, hvalue⟩ := Option.ne_none_iff_exists'.1 hspeaks
    obtain ⟨-, ⟨stop, -, ⟨x, hx, -, -, hseeks⟩, -⟩, -⟩ := hclock.speaks.of_read hvalue
    rcases hseeks with hlast | ⟨-, hnever⟩
    · exact absurd hlast (hbefore.sound x hx).ne
    · exact hnever

/-- The clock of the pictures says nothing, unless the host has refused a buffer. -/
theorem videoClock (h : s.Silenced) (now : S) :
    s.videoClock now = none ∨
      host.Refuses ∧ ∃ v, s.videoStream = some v ∧ v.packets.aborted = true := by
  obtain ⟨t, rfl, hvoiced, hbefore⟩ := h
  unfold Session.videoClock videoStream
  cases hvideo : t.session.video with
  | none => exact .inl rfl
  | some p =>
    have hclock := hvoiced.video p.flow p.stream.clock (by rw [flows, hvideo]; rfl)
      (by rw [clocks, videoStream, hvideo]; rfl)
    by_cases hsilent : p.stream.clockValue now = none
    · exact .inl hsilent
    · right
      obtain ⟨value, hvalue⟩ := Option.ne_none_iff_exists'.1 hsilent
      obtain ⟨-, ⟨x, hx, -, -, hseeks⟩, -⟩ := hclock.speaks.of_read hvalue
      rcases hseeks with hlast | ⟨haborted, hrefuses⟩
      · exact absurd hlast (hbefore.pictures x hx).ne
      · exact ⟨hrefuses, p.stream, rfl, haborted⟩

/-- What the device's side remembers is of an earlier epoch. -/
theorem output (h : s.Silenced) {f : Flow S host.AudioCodec DecodedAudio (AudioFrame S)}
    {k : Clock S} {out : AudioOutput S} {stop : S} (hf : s.flows.audio = some f)
    (hk : s.clocks.audio = some k) (hout : s.output = some out) (hstop : out.clock = some stop) :
    out.clockSerial ≠ f.packets.serial := by
  obtain ⟨t, rfl, hvoiced, hbefore⟩ := h
  obtain ⟨out', hout', hclock⟩ := hvoiced.audio f k hf hk
  obtain rfl : out' = out := Option.some.inj (hout'.symm.trans hout)
  intro hserial
  obtain ⟨x, hx, -, -, hlast | ⟨-, hnever⟩⟩ := hclock.ends.ended hserial stop hstop
  · exact absurd hlast (hbefore.sound x hx).ne
  · exact hnever

end Silenced

/-! ## Idle runs -/

/-- The action performs no seek, and no frame sets the clock of a stream by it. -/
def idles (s : Session host) (now : S) : Action → Bool
  | .readerTurn => !s.seekSucceeds now
  | .refresh => (timely (s.passed now)).all (·.pts.isNone)
  | .fill count _ => ((s.converted count now).getLast?.bind AudioFrame.stop?).isNone
  | _ => true

/-- In this run no seek is performed and no frame sets the clock of a stream. -/
def idle (s : Session host) : List (S × Action) → Bool
  | [] => true
  | (now, action) :: rest => s.idles now action && (s.perform now action).idle rest

theorem untimed_of_idles (hidle : s.idles now .refresh = true) :
    ∀ pts serial, ¬ TimedBy (s.passed now) pts serial := by
  rintro pts serial ⟨x, hx, hfate, hpts, -⟩
  have hnone := List.all_eq_true.1 hidle x.1 (mem_timely hx hfate)
  rw [hpts] at hnone
  cases hnone

theorem unended_of_idles {count volume : Nat} (hidle : s.idles now (.fill count volume) = true)
    {x : AudioFrame S} (hx : (s.converted count now).getLast? = some x) : x.stop? = none := by
  have hnone := Option.isNone_iff_eq_none.1 hidle
  rw [hx] at hnone
  exact hnone

namespace Silenced

/-- A seek that the reader performs silences the streams. -/
theorem of_seek {t : Presented host} (hkept : t.Kept) (hbefore : t.Before (t.seeks + 1))
    (hseek : t.session.seekSucceeds now = true) : (t.session.readerTurn now).Silenced := by
  refine ⟨t.perform now .readerTurn, rfl, hkept.readerTurn now, ?_⟩
  have hseeks : (t.perform now .readerTurn).seeks = t.seeks + 1 := by
    show t.seeks + (t.session.seekSucceeds now).toNat = t.seeks + 1
    rw [hseek]
    rfl
  rw [hseeks]
  exact hbefore.perform (fun hnever => Bool.noConfusion hnever) now

theorem refresh (h : s.Silenced) (horder : s.InOrder) (hidle : s.idles now .refresh = true) :
    (s.refresh now).2.Silenced := by
  obtain ⟨t, rfl, hkept, hbefore⟩ := h
  have hvoiced : (t.session.refresh now).2.flows.Voiced (t.session.refresh now).2.clocks t.seeks
      t.pictures t.sound := by
    refine (hkept.refresh horder.forced now).retain (fun x hx htimed => ?_) fun _ hx _ => hx
    rcases List.mem_append.1 hx with hold | hnew
    · exact hold
    · obtain ⟨f, hf, rfl⟩ := List.mem_map.1 hnew
      have hnone : f.pts = none := Option.isNone_iff_eq_none.1 (List.all_eq_true.1 hidle f hf)
      simp [hnone] at htimed
  exact ⟨{ t with session := (t.session.refresh now).2 }, rfl, hvoiced, hbefore.pictures,
    hbefore.sound⟩

theorem fill (h : s.Silenced) (horder : s.InOrder) {count volume : Nat}
    (hidle : s.idles now (.fill count volume) = true) : (s.fill count volume now).2.Silenced := by
  obtain ⟨t, rfl, hkept, hbefore⟩ := h
  obtain ⟨g, -, hflows⟩ := t.session.flows_fill count volume now
  -- of the blocks that the fill converts, only the last one tells what the device hears
  have hlast : (t.session.converted count now).getLast?.toList.getLast? =
      (t.session.converted count now).getLast? := by
    cases (t.session.converted count now).getLast? <;> rfl
  have hcurrent : ∀ x ∈ (t.session.converted count now).getLast?.toList,
      ∀ f, t.session.flows.audio = some f → x.serial = f.packets.serial := fun x hx =>
    serial_of_converted horder.sound x (List.mem_of_getLast? (Option.mem_toList.1 hx))
  have hfilled := hkept.filled hcurrent
    ((t.session.filled_fill count volume now).of_last hlast) g
  rw [← hflows] at hfilled
  have hvoiced : (t.session.fill count volume now).2.flows.Voiced
      (t.session.fill count volume now).2.clocks t.seeks t.pictures t.sound := by
    refine hfilled.retain (fun _ hx _ => hx) fun x hx htimed => ?_
    rcases List.mem_append.1 hx with hold | hnew
    · exact hold
    · obtain ⟨f, hf, rfl⟩ := List.mem_map.1 hnew
      have hnone : f.stop? = none := unended_of_idles hidle (Option.mem_toList.1 hf)
      simp [hnone] at htimed
  exact ⟨{ t with session := (t.session.fill count volume now).2 }, rfl, hvoiced,
    hbefore.pictures, hbefore.sound⟩

/-- The streams stay silent while no frame sets a clock. -/
theorem perform (h : s.Silenced) (horder : s.InOrder) {action : Action}
    (hidle : s.idles now action = true) : (s.perform now action).Silenced := by
  have hother (hnot : action.presents = false) : (s.perform now action).Silenced := by
    obtain ⟨t, rfl, hkept, hbefore⟩ := h
    refine ⟨t.perform now action, t.session_perform now action, hkept.perform horder now action, ?_⟩
    exact (hbefore.perform (by simp [hnot]) now).mono (t.seeks_le_perform now action)
  cases action with
  | refresh => exact h.refresh horder hidle
  | fill count volume => exact h.fill horder hidle
  | _ => exact hother rfl

end Silenced

/-! ## The external clock -/

/-- What the device hears does not lead the external clock if it is of another epoch. -/
theorem heardBy_of_ne {external k : Clock S} {epoch : Nat} {out : AudioOutput S}
    (h : out.clockSerial ≠ epoch) (stop now : S) :
    heardBy external k epoch out stop now = external := by
  have hsilent : (k.setAt (stop - out.latency) out.clockSerial now).read (some epoch) now = none :=
    if_neg (by simp [Clock.isCurrent, Clock.setAt, h])
  unfold heardBy
  dsimp only
  rw [hsilent]
  rfl

theorem external_fill_of_idles (h : s.Silenced) {count volume : Nat}
    (hidle : s.idles now (.fill count volume) = true) :
    (s.fill count volume now).2.externalClock = s.externalClock := by
  rcases s.external_fill count volume now with
    hsame | ⟨f, k, out, out', stop, hf, hk, hout, hplays, hstop, hheard⟩
  · exact hsame
  · obtain ⟨-, hclock, hserial⟩ := hplays
    cases hlast : (s.converted count now).getLast? with
    | some x =>
      rw [hlast, Option.elim_some, unended_of_idles hidle hlast, hstop] at hclock
      cases hclock
    | none =>
      rw [hlast] at hclock hserial
      have hother : out'.clockSerial ≠ f.packets.serial :=
        hserial.trans_ne (h.output hf hk hout (hclock.symm.trans hstop))
      rw [hheard, heardBy_of_ne hother]

/-- While no frame sets the clock of a stream, the external clock follows none of them. -/
theorem follows_idle (h : s.Silenced) {action : Action} (hidle : s.idles now action = true) :
    s.externalClock.Follows (fun _ => False) now (s.perform now action).externalClock := by
  have hother (hreader : action ≠ .readerTurn) (hpresents : action.presents = false) :
      s.externalClock.Follows (fun _ => False) now (s.perform now action).externalClock := by
    have hhandled := s.handled_perform hreader hpresents now
    show s.externalClock.Follows _ now (s.perform now action).clocks.external
    generalize (s.perform now action).clocks = c at hhandled ⊢
    cases hhandled with
    | switched => exact .pause .refl _
    | stays | video _ _ | audio _ _ _ | closed _ => exact .refl
  cases action with
  | readerTurn =>
    have hseek : s.seekSucceeds now = false := by simpa [idles] using hidle
    have hturned := s.clocks_readerTurn now
    rw [hseek] at hturned
    show s.externalClock.Follows _ now (s.readerTurn now).clocks.external
    generalize (s.readerTurn now).clocks = c at hturned ⊢
    cases hturned
    exact .refl
  | refresh =>
    refine (s.follows_refresh now).mono fun lead hlead => ?_
    obtain ⟨⟨pts, serial, htimed⟩, -⟩ := hlead
    exact untimed_of_idles hidle pts serial htimed
  | fill count volume => exact .of_eq (external_fill_of_idles h hidle)
  | _ => exact hother nofun rfl

end Session

end Playback
