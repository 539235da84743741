import Mathlib.Logic.Relation
import Playback.Proofs.Session.ClockEpochs
import Playback.Proofs.Session.ReaderCalls

/-!
# The external clock

The clock that is bound to no stream is set by a seek alone (`clocks_of_seek`), and goes on from
there (`follows_of_seek`). Else it is paused and resumed with all clocks, its speed is adjusted to
the queues of a live source, and it follows the clock of a stream whenever that one is set: by the
pictures that a refresh takes (`follows_refresh`), and by what the device hears (`external_fill`).
While it follows none, it runs free (`Clock.RunsFree`).
-/

namespace Playback

open FrameRing

section

variable {S : Type} [Scalar S]

/-- A clock at a later moment. Meanwhile it was paused and resumed, its speed was adjusted, and it
has followed the clocks `leads`. -/
inductive Clock.Follows (leads : Clock S → Prop) (now : S) (k : Clock S) : Clock S → Prop
  | refl : Follows leads now k k
  | pause {k' : Clock S} (h : Follows leads now k k') (paused : Bool) :
      Follows leads now k (k'.setPaused paused now)
  | adjust {k' : Clock S} (h : Follows leads now k k') (queued : Nat) :
      Follows leads now k (k'.setSpeed (externalSpeed k'.speed queued) now)
  | sync {k' lead : Clock S} (h : Follows leads now k k') (hlead : leads lead)
      (target : Option S) : Follows leads now k (k'.syncTo none lead target noSyncThreshold now)

namespace Clock.Follows

variable {leads leads' : Clock S → Prop} {now : S} {k k' k'' : Clock S}

theorem of_eq (h : k' = k) : k.Follows leads now k' :=
  h.symm ▸ refl

theorem mono (h : k.Follows leads now k') (hleads : ∀ lead, leads lead → leads' lead) :
    k.Follows leads' now k' := by
  induction h with
  | refl => exact .refl
  | pause _ paused ih => exact .pause ih paused
  | adjust _ queued ih => exact .adjust ih queued
  | sync _ hlead target ih => exact .sync ih (hleads _ hlead) target

theorem trans (h : k.Follows leads now k') (h' : k'.Follows leads now k'') :
    k.Follows leads now k'' := by
  induction h' with
  | refl => exact h
  | pause _ paused ih => exact .pause ih paused
  | adjust _ queued ih => exact .adjust ih queued
  | sync _ hlead target ih => exact .sync ih hlead target

end Clock.Follows

/-- A clock at a later moment that has followed no other one since then. -/
def Clock.RunsFree : Clock S → Clock S → Prop :=
  Relation.ReflTransGen fun k k' => ∃ now, k.Follows (fun _ => False) now k'

/-- The clocks that lead the external one while the video clock is set in the ways `sets`. -/
def Clocks.Leads (c : Clocks S) (sets : S → Nat → Prop) (lead : Clock S) : Prop :=
  (∃ pts serial, sets pts serial) ∧ ∃ k, c.video = some k ∧ k.Driven sets lead

theorem Clocks.Leads.mono {c : Clocks S} {sets sets' : S → Nat → Prop} {lead : Clock S}
    (h : c.Leads sets lead) (hsets : ∀ pts serial, sets pts serial → sets' pts serial) :
    c.Leads sets' lead := by
  obtain ⟨⟨pts, serial, hset⟩, k, hk, hdriven⟩ := h
  exact ⟨⟨pts, serial, hsets pts serial hset⟩, k, hk, hdriven.mono hsets⟩

/-- What leads after a refresh has led before, by more pictures. -/
theorem Clocks.Leads.of_refreshed {c c' : Clocks S} {sets sets' all : S → Nat → Prop} {now : S}
    {lead : Clock S} (hlead : c'.Leads sets' lead) (h : c.Refreshed now sets c')
    (hsets : ∀ pts serial, sets pts serial → all pts serial)
    (hsets' : ∀ pts serial, sets' pts serial → all pts serial) : c.Leads all lead := by
  obtain ⟨⟨pts, serial, hset⟩, k', hk', hdriven⟩ := hlead
  obtain ⟨k, hk, hbefore⟩ := h.video k' hk'
  exact ⟨⟨pts, serial, hsets' pts serial hset⟩, k, hk,
    (hbefore.mono hsets).trans (hdriven.mono hsets')⟩

end

namespace Session

variable {S : Type} [Scalar S] {host : Host S} {s s' : Session host} {now : S}

theorem external_openStream (s : Session host) (p : StreamParams) (now : S) :
    (s.openStream p now).2.externalClock = s.externalClock := by
  unfold openStream
  cases p.kind with
  | video =>
    rcases s.clocks_openVideo p now with hsame | hnew
    · exact congrArg Clocks.external hsame
    · exact congrArg Clocks.external hnew
  | audio =>
    rcases s.clocks_openAudio p now with hsame | ⟨spec, hnew⟩
    · exact congrArg Clocks.external hsame
    · exact congrArg Clocks.external hnew

theorem external_open {uri : String} {options : Options S} {screen : host.Screen}
    (hopen : Session.open host uri options screen now = .ok s) : s.externalClock = .new now := by
  refine of_open hopen (fun source medium _ => ?_) fun s p h =>
    (s.external_openStream p now).trans h
  unfold seekStart
  split <;> rfl

/-! ## Seeks -/

theorem pending_of_seekSucceeds (h : s.seekSucceeds now = true) :
    ∃ r, s.seekPending = some r := by
  unfold seekSucceeds at h
  split at h
  · rename_i r _ hpending
    exact ⟨r, hpending⟩
  · cases h

/-- A turn of the reader that performs a seek sets the external clock to where the seek leads. -/
theorem clocks_of_seek {r : SeekRequest} (hpending : s.seekPending = some r)
    (hseek : s.seekSucceeds now = true) :
    (s.readerTurn now).clocks = s.clocks.sought (r.reached s.externalClock now) now := by
  unfold seekSucceeds at hseek
  rw [hpending] at hseek
  cases hreader : s.reader with
  | waiting | ended => simp [hreader] at hseek
  | running lastPaused =>
    simp only [hreader, Bool.and_eq_true, Bool.not_eq_true'] at hseek
    obtain ⟨hrun, hok⟩ := hseek
    obtain ⟨m, hmoved⟩ := performSeek_of_isOk hok
    have hpause : (s.forwardPause lastPaused).clocks = s.clocks := clocks_forwardPause lastPaused
    have hexternal : (s.forwardPause lastPaused).externalClock = s.externalClock :=
      congrArg Clocks.external hpause
    have hepoch := clocks_enterEpoch
      { (s.forwardPause lastPaused).record (.seek r.range) with medium := m } r now
    have htop : (s.readerTop now).2.clocks =
        s.clocks.sought (r.reached s.externalClock now) now := by
      rw [readerTop_of_ok hreader hrun hpending hmoved, clocks_gate, ← hpause, ← hexternal]
      exact hepoch
    unfold readerTurn
    split
    · rename_i s' heq
      rw [heq] at htop
      exact clocks_readPacket.trans htop
    · rename_i s' _ heq
      rw [heq] at htop
      exact htop

/-- After the seek the clock goes on, if it was paused. -/
theorem follows_of_seek {r : SeekRequest} (hpending : s.seekPending = some r)
    (hseek : s.seekSucceeds now = true) {leads : Clock S → Prop} :
    (r.reached s.externalClock now).Follows leads now (s.readerTurn now).externalClock := by
  have hset : (s.readerTurn now).externalClock =
      (s.clocks.sought (r.reached s.externalClock now) now).external :=
    congrArg Clocks.external (clocks_of_seek hpending hseek)
  rw [hset]
  unfold Clocks.sought
  dsimp only
  split
  · exact .pause .refl _
  · exact .refl

/-! ## A refresh -/

/-- A picture that is due makes the external clock follow the video clock that it sets. -/
theorem follows_showTime (s : Session host) (current : FrameTiming S) (now : S)
    {sets : S → Nat → Prop} (hsets : ∀ pts, current.pts = some pts → sets pts current.serial) :
    s.externalClock.Follows (s.clocks.Leads sets) now (s.showTime current now).externalClock := by
  unfold showTime
  cases hpts : current.pts with
  | none => exact .refl
  | some pts =>
    dsimp only
    split
    · exact .refl
    · rename_i v hv
      refine .sync .refl ⟨⟨pts, current.serial, hsets pts hpts⟩, ?_⟩ _
      unfold onVideo videoStream at hv
      dsimp only at hv
      cases hvideo : s.video with
      | none =>
        rw [hvideo] at hv
        cases hv
      | some p =>
        rw [hvideo] at hv
        obtain rfl := Option.some.inj hv
        refine ⟨p.stream.clock, ?_, .set .refl (hsets pts hpts) now⟩
        rw [clocks, videoStream, hvideo]
        rfl

theorem follows_of_due {v : Stream S (VideoFrame S)} {current : VideoFrame S}
    {shown : Session host} (hdue : s.Due v now current shown) (fate : Fate)
    (hfate : fate ≠ .stale) :
    s.externalClock.Follows (s.clocks.Leads (TimedBy [(current, fate)])) now
      shown.externalClock := by
  obtain ⟨last, -, -, rfl⟩ := hdue.timed
  generalize timerAfter (S := S) _ _ _ = timer
  exact ({ s with frameTimer := timer } : Session host).follows_showTime current.toFrameTiming now
    fun pts hpts => ⟨_, List.mem_singleton_self _, hfate, hpts, rfl⟩

theorem follows_refreshRound (s : Session host) (v : Stream S (VideoFrame S))
    (remaining now : S) :
    s.externalClock.Follows
      (s.clocks.Leads (TimedBy ((s.refreshRound v remaining now).taken? v).toList)) now
      (s.refreshRound v remaining now).outcome.2.externalClock := by
  have hcase := s.lookCase_refreshRound v remaining now
  generalize s.refreshRound v remaining now = round at hcase ⊢
  cases hcase with
  | nothing | stale | paused | waits => exact .refl
  | late hdue =>
    rw [taken?_late hdue.next hdue.serial]
    exact follows_of_due hdue .late nofun
  | @shows current shown hdue =>
    have hfollows := follows_of_due hdue .shown nofun
    have hexternal : (shown.showNext now).externalClock =
        if shown.stepping && !shown.paused then shown.externalClock.setPaused (!shown.paused) now
        else shown.externalClock :=
      (congrArg Clocks.external clocks_showNext).trans (apply_ite Clocks.external _ _ _)
    rw [taken?_shown hdue.next forced_showNext, RefreshRound.outcome, hexternal]
    split
    · exact .pause hfollows _
    · exact hfollows

theorem follows_advanceVideo (n : Nat) (s : Session host) (remaining now : S) :
    s.externalClock.Follows (s.clocks.Leads (TimedBy (passes n s remaining now))) now
      (advanceVideo n s remaining now).2.externalClock := by
  induction n generalizing s remaining with
  | zero => exact .refl
  | succ n ih =>
    unfold advanceVideo passes
    cases s.videoStream with
    | none => exact .refl
    | some v =>
      dsimp only
      split
      · exact .refl
      have hround := s.follows_refreshRound v remaining now
      have hclocks := s.refreshed_refreshRound v remaining now
      generalize s.refreshRound v remaining now = round at hround hclocks ⊢
      cases round with
      | done r =>
        rw [List.append_nil]
        exact hround
      | again r =>
        refine (hround.mono fun lead hlead => ?_).trans ((ih r.2 r.1).mono fun lead hlead => ?_)
        · exact hlead.mono fun _ _ => .append_left
        · exact hlead.of_refreshed hclocks (fun _ _ => .append_left) fun _ _ => .append_right

theorem follows_adjusted (s : Session host) (now : S) (leads : Clock S → Prop) :
    s.externalClock.Follows leads now (s.adjusted now).externalClock := by
  unfold adjusted
  split
  · unfold adjustExternalSpeed
    dsimp only
    split
    · exact .refl
    · exact .adjust .refl _
  · exact .refl

/-- In a refresh the external clock follows the video clock when that one is set by a picture. -/
theorem follows_refresh (s : Session host) (now : S) :
    s.externalClock.Follows (s.clocks.Leads (TimedBy (s.passed now))) now
      (s.refresh now).2.externalClock := by
  have hlast : (s.refresh now).2.externalClock = (s.looked now).2.externalClock :=
    congrArg Clocks.external (clocks_acceptPicture (s := (s.looked now).2) now)
  have hloop : (s.adjusted now).externalClock.Follows
      ((s.adjusted now).clocks.Leads (TimedBy (s.passed now))) now
      (s.looked now).2.externalClock := follows_advanceVideo _ _ _ _
  have hvideo : (s.adjusted now).clocks.video = s.clocks.video := by
    rcases s.clocks_adjusted now with ⟨-, hsame⟩ | ⟨-, external, hclocks⟩
    · rw [hsame]
    · rw [hclocks]
  rw [hlast]
  refine (s.follows_adjusted now _).trans (hloop.mono fun lead hlead => ?_)
  unfold Clocks.Leads at hlead ⊢
  rw [← hvideo]
  exact hlead

/-! ## A fill -/

/-- The external clock after the audio clock `k`, read in the epoch `epoch`, was set to what the
device hears. -/
def heardBy (external k : Clock S) (epoch : Nat) (out : AudioOutput S) (stop now : S) : Clock S :=
  let lead := k.setAt (stop - out.latency) out.clockSerial now
  external.syncTo none lead (lead.read (some epoch) now) noSyncThreshold now

theorem external_hear (s : Session host) (out : AudioOutput S) (now : S) :
    (s.hear out now).externalClock = s.externalClock ∨
      ∃ a stop, s.audioStream = some a ∧ out.clock = some stop ∧
        (s.hear out now).externalClock =
          heardBy s.externalClock a.clock a.packets.serial out stop now := by
  unfold hear
  cases ha : s.audioStream with
  | none => exact .inl rfl
  | some a =>
    cases hstop : out.clock with
    | none => exact .inl rfl
    | some stop =>
      refine .inr ⟨a, stop, rfl, rfl, ?_⟩
      obtain ⟨p, hp, rfl⟩ := Option.map_eq_some_iff.1 ha
      have hset : (s.onAudio fun a =>
          { a with clock := a.clock.setAt (stop - out.latency) out.clockSerial now }).audioStream =
          some { p.stream with
            clock := p.stream.clock.setAt (stop - out.latency) out.clockSerial now } := by
        unfold audioStream onAudio
        rw [hp]
        rfl
      dsimp only
      rw [hset]
      rfl

/-- In a fill the external clock follows the audio clock if that one is set. -/
theorem external_fill (s : Session host) (count volume : Nat) (now : S) :
    (s.fill count volume now).2.externalClock = s.externalClock ∨
      ∃ f k out out' stop, s.flows.audio = some f ∧ s.clocks.audio = some k ∧
        s.output = some out ∧ out.Plays (s.converted count now) out' ∧ out'.clock = some stop ∧
        (s.fill count volume now).2.externalClock =
          heardBy s.externalClock k f.packets.serial out' stop now := by
  unfold fill converted
  cases hout : s.output with
  | none => exact .inl rfl
  | some out =>
    obtain ⟨hclocks, hplays⟩ := clocks_playUntil count now
      (count + (s.audioStream.map (·.frames.remaining)).getD 0) s out #[]
    obtain ⟨g, -, hflows⟩ := flows_playUntil count now
      (count + (s.audioStream.map (·.frames.remaining)).getD 0) s out #[]
    dsimp only
    generalize playUntil (S := S) _ _ _ _ _ _ = played at hclocks hplays hflows ⊢
    obtain ⟨data, out', s'⟩ := played
    dsimp only at hclocks hplays hflows ⊢
    have hexternal : s'.externalClock = s.externalClock := congrArg Clocks.external hclocks
    split
    · exact .inl hexternal
    · rcases ({ s' with output := some out' } : Session host).external_hear out' now with
        hsame | ⟨a, stop, ha, hstop, hheard⟩
      · exact .inl (hsame.trans hexternal)
      · right
        obtain ⟨p, hp, rfl⟩ := Option.map_eq_some_iff.1 ha
        have hp' : s'.audio = some p := hp
        have hflow : (s.flows.onSound g).audio = some p.flow := by
          rw [← hflows, flows, hp']
          rfl
        obtain ⟨f, hf, hadvanced⟩ := Option.map_eq_some_iff.1 hflow
        have hk : s.clocks.audio = some p.stream.clock := by
          rw [← hclocks, clocks, audioStream, hp']
          rfl
        have hserial : f.packets.serial = p.stream.packets.serial :=
          congrArg (·.packets.serial) hadvanced
        refine ⟨f, p.stream.clock, out, out', stop, hf, hk, rfl, hplays, hstop, ?_⟩
        rw [hserial, ← hexternal]
        exact hheard

end Session

end Playback
