import Playback.Proofs.Session.PictureAccounts
import Playback.Proofs.Session.RingOrder
import Playback.Proofs.Session.StandingClocks

/-!
# A paused session

While a session is paused and no user asks for anything, its reader and its decode loops go on until
the queues and the rings are full, the display is refreshed, and the audio device plays what is left
of its block. None of this is seen or heard: no picture of the current epoch and no block of sound
leaves its ring, nothing is counted, and all clocks stand still (`pause_quiescent`).

The pictures that are thrown away all the same are those of earlier epochs (`refresh_of_paused`).
-/

namespace Playback

open FrameRing

namespace Flow.Books

variable {S σ : Type} {f : Flow S σ DecodedPicture (VideoFrame S)} {returned : List (Returned S)}
  {taken t : List (VideoFrame S × Fate)} {l : FrameLog (VideoFrame S)}

/-- If the picture that was taken last is not of the current epoch, all that were taken are of
earlier ones. -/
theorem past {z : VideoFrame S × Fate} (h : f.Books returned (taken ++ [z]) l)
    (hz : z.1.serial ≠ f.packets.serial) :
    ∀ x ∈ l.published.take l.taken, x.serial < f.packets.serial := by
  have hlast : z.1.serial < f.packets.serial := by
    have hmem : z.1 ∈ l.published.take l.taken := by
      rw [← h.taken]
      simp
    exact lt_of_le_of_ne (h.current z.1 (List.mem_append_left _ (List.mem_of_mem_take hmem))) hz
  have hordered := (List.pairwise_append.1 h.ordered).1.sublist (List.take_sublist l.taken _)
  rw [← h.taken, List.map_append] at hordered ⊢
  intro x hx
  rcases List.mem_append.1 hx with hx | hx
  · exact ((List.pairwise_append.1 hordered).2.2 x hx z.1 (by simp)).trans_lt hlast
  · rw [List.mem_singleton.1 hx]
    exact hlast

/-- The pictures of the current epoch stay in the ring when only stale ones are thrown away. -/
theorem ofEpoch_stale (h : f.Books returned taken l) (ht : Passed f.packets.serial f.frames t)
    (hstale : ∀ x ∈ t, x.2 = .stale) :
    (advance^[t.length] f.frames).ofEpoch f.packets.serial =
      f.frames.ofEpoch f.packets.serial := by
  have hafter := h.onFrames ht
  obtain rfl | ⟨t', z, rfl⟩ := t.eq_nil_or_concat'
  · rfl
  rw [← List.append_assoc] at hafter
  have hz : z.1.serial ≠ f.packets.serial := by
    refine ht.of_stale ?_
    rw [← hstale z (by simp)]
    simp
  have hpast := hafter.past hz
  refine h.holds.ofEpoch_taken hafter.holds ?_ fun x hx => (hpast x hx).ne
  rw [List.length_append, List.length_singleton]
  omega

end Flow.Books

/-! ## Refreshing and filling in a pause -/

namespace Session

variable {S : Type} [Scalar S] {host : Host S} {s s' : Session host} {now : S}

/-- A look at the ring in a pause takes a stale picture, or it takes none. Then the frame timer may
start anew. -/
theorem refreshRound_of_paused (hpaused : s.paused = true) (v : Stream S (VideoFrame S))
    (remaining now : S) :
    (∃ f, v.frames.next? = some f ∧ f.serial ≠ v.packets.serial ∧
      s.refreshRound v remaining now = .again (remaining, s.advanceRing)) ∨
    ∃ timer, (timer = s.frameTimer ∨ timer = now) ∧
      s.refreshRound v remaining now = .done (remaining, { s with frameTimer := timer }) := by
  have hcase := s.lookCase_refreshRound v remaining now
  generalize s.refreshRound v remaining now = round at hcase ⊢
  cases hcase with
  | nothing => exact .inr ⟨s.frameTimer, .inl rfl, rfl⟩
  | stale hnext hserial => exact .inl ⟨_, hnext, hserial, rfl⟩
  | paused _ htimer => exact .inr ⟨_, htimer, rfl⟩
  | waits _ _ hrun => cases hpaused.symm.trans hrun
  | late hdue | shows hdue => cases hpaused.symm.trans hdue.running

/-- The display takes so many pictures from the ring. -/
def passBy (s : Session host) (n : Nat) : Session host :=
  s.onVideo fun v => { v with frames := advance^[n] v.frames }

theorem passBy_zero (s : Session host) : s.passBy 0 = s := by
  obtain ⟨_, _, _, _, video, _⟩ := s
  cases video <;> rfl

theorem passBy_advanceRing (s : Session host) (n : Nat) :
    s.advanceRing.passBy n = s.passBy (n + 1) := by
  unfold passBy advanceRing onVideo
  cases s.video <;> rfl

theorem advanceVideo_of_paused (n : Nat) (s : Session host) (remaining now : S)
    (hpaused : s.paused = true) (hforced : s.refreshForced = false) :
    (∀ x ∈ passes n s remaining now, x.2 = .stale) ∧
    ∃ timer, (timer = s.frameTimer ∨ timer = now) ∧ (advanceVideo n s remaining now).2 =
      { s.passBy (passes n s remaining now).length with frameTimer := timer } := by
  induction n generalizing s remaining with
  | zero => exact ⟨List.forall_mem_nil _, s.frameTimer, .inl rfl, s.passBy_zero.symm⟩
  | succ n ih =>
    unfold advanceVideo passes
    cases s.videoStream with
    | none => exact ⟨List.forall_mem_nil _, s.frameTimer, .inl rfl, s.passBy_zero.symm⟩
    | some v =>
      dsimp only
      split
      · exact ⟨List.forall_mem_nil _, s.frameTimer, .inl rfl, s.passBy_zero.symm⟩
      rcases refreshRound_of_paused hpaused v remaining now with
        ⟨f, hnext, hserial, hround⟩ | ⟨timer, htimer, hround⟩
      · obtain ⟨hstale, timer, htimer, hlast⟩ := ih s.advanceRing remaining hpaused hforced
        rw [hround, taken?_stale hnext hserial]
        refine ⟨List.forall_mem_cons.2 ⟨rfl, hstale⟩, timer, htimer, ?_⟩
        rw [hlast, passBy_advanceRing]
        rfl
      · have htaken : (RefreshRound.done (remaining, { s with frameTimer := timer })).taken? v =
            none := by
          rw [RefreshRound.taken?, if_neg (by simp [hforced])]
        rw [hround, htaken]
        refine ⟨List.forall_mem_nil _, timer, htimer, ?_⟩
        exact congrArg (fun s : Session host => { s with frameTimer := timer }) s.passBy_zero.symm

/-- A refresh in a pause throws stale pictures away, and does nothing else that lasts but to start
the frame timer anew. -/
theorem refresh_of_paused (hpaused : s.paused = true) (hforced : s.refreshForced = false)
    (now : S) :
    (∀ x ∈ s.passed now, x.2 = .stale) ∧
    ∃ timer, (timer = s.frameTimer ∨ timer = now) ∧ (s.refresh now).2 =
      { s.passBy (s.passed now).length with frameTimer := timer } := by
  have hadjusted : s.adjusted now = s := by
    unfold adjusted
    rw [hpaused]
    rfl
  obtain ⟨hstale, timer, htimer, hlooked⟩ :=
    s.advanceVideo_of_paused (s.pictures + 1) s.options.refreshRate now hpaused hforced
  have hpassed : s.passed now = passes (s.pictures + 1) s s.options.refreshRate now := by
    unfold passed
    rw [hadjusted]
  have hlooked' : (s.looked now).2 =
      { s.passBy (s.passed now).length with frameTimer := timer } := by
    rw [looked_eq, hadjusted, hpassed]
    exact hlooked
  have hnot : (s.looked now).2.refreshForced = false := by
    rw [hlooked']
    exact hforced
  have haccept : (s.looked now).2.acceptPicture now = (s.looked now).2 := by
    unfold acceptPicture
    split
    · rfl
    · rw [if_neg (by simp [hnot])]
  refine ⟨hpassed ▸ hstale, timer, htimer, ?_⟩
  rw [refresh_eq, haccept, hlooked', ← hforced]
  rfl

theorem takeSound_of_paused (hpaused : s.paused = true) : s.takeSound = (none, s) := by
  unfold takeSound
  split
  · rfl
  · rw [if_pos hpaused]

theorem playUntil_of_paused (count : Nat) (now : S) (n : Nat) (s : Session host)
    (out : AudioOutput S) (data : Bytes) (hpaused : s.paused = true) :
    convertedUntil count now n s out data = [] ∧
    ∃ metrics, (playUntil count now n s out data).2.2 = { s with metrics := metrics } := by
  induction n generalizing s out data with
  | zero => exact ⟨rfl, s.metrics, rfl⟩
  | succ n ih =>
    unfold playUntil convertedUntil
    split
    · exact ⟨rfl, s.metrics, rfl⟩
    by_cases hunread : out.unread = 0
    · have hload : s.loadBlock out now = (out.load (out.silence AudioOutput.silenceBytes),
          { s with metrics := s.metrics.recordSilence }) := by
        rw [loadBlock, takeSound_of_paused hpaused]
      simp only [if_pos hunread, hload, takeSound_of_paused hpaused]
      obtain ⟨hnone, metrics, hrest⟩ :=
        ih { s with metrics := s.metrics.recordSilence } _ _ hpaused
      exact ⟨hnone, metrics, hrest⟩
    · simp only [if_neg hunread, List.nil_append]
      exact ih s _ _ hpaused

/-- A fill in a pause converts nothing and leaves the ring as it is. -/
theorem fill_of_paused (hpaused : s.paused = true) (count volume : Nat) (now : S) :
    s.converted count now = [] ∧
    ∃ output metrics, (s.fill count volume now).2 =
      { s with output := output, metrics := metrics } := by
  unfold fill converted
  cases s.output with
  | none => exact ⟨rfl, s.output, s.metrics, rfl⟩
  | some out =>
    obtain ⟨hnone, metrics, hplayed⟩ := playUntil_of_paused count now
      (count + (s.audioStream.map (·.frames.remaining)).getD 0) s out #[] hpaused
    refine ⟨hnone, ?_⟩
    dsimp only
    rw [hplayed, if_pos hpaused]
    exact ⟨_, metrics, rfl⟩

/-! ## Blocks of sound that were counted -/

theorem audioFrames_quit (status : QuitStatus) :
    (s.quit status).metrics.audioFrames = s.metrics.audioFrames := by
  unfold quit
  split <;> rfl

theorem audioFrames_gate (paused : Bool) :
    (s.gate paused).2.metrics.audioFrames = s.metrics.audioFrames := by
  have hattach : s.queueAttachment.metrics = s.metrics := by
    unfold queueAttachment
    split
    · rfl
    · dsimp only
      split
      · split
        · split <;> rfl
        · rfl
      · rfl
  unfold gate
  dsimp only
  split_ifs
  · exact congrArg Metrics.audioFrames hattach
  · exact (audioFrames_quit _).trans (congrArg Metrics.audioFrames hattach)
  · exact congrArg Metrics.audioFrames hattach

theorem audioFrames_performSeek (r : SeekRequest) :
    (s.performSeek r now).2.metrics.audioFrames = s.metrics.audioFrames := by
  unfold performSeek
  dsimp only
  split
  · rfl
  · unfold enterEpoch step
    dsimp only
    split_ifs <;> rfl

theorem audioFrames_readerTop :
    (s.readerTop now).2.metrics.audioFrames = s.metrics.audioFrames := by
  unfold readerTop
  cases s.reader with
  | waiting => rfl
  | ended => rfl
  | running lastPaused =>
    have hpause : (s.forwardPause lastPaused).metrics = s.metrics := by
      unfold forwardPause
      split <;> rfl
    dsimp only
    split
    · rfl
    · split
      · exact (audioFrames_gate _).trans (congrArg Metrics.audioFrames hpause)
      · rename_i r _
        have hseek : ((s.forwardPause lastPaused).performSeek r now).2.metrics.audioFrames =
            s.metrics.audioFrames :=
          (audioFrames_performSeek r).trans (congrArg Metrics.audioFrames hpause)
        split
        · rename_i heq
          rw [heq] at hseek
          exact (audioFrames_quit _).trans hseek
        · rename_i heq
          rw [heq] at hseek
          exact (audioFrames_gate _).trans hseek

theorem audioFrames_readPacket :
    (s.readPacket now).metrics.audioFrames = s.metrics.audioFrames := by
  have hend (s : Session host) : s.reachEnd.metrics = s.metrics := by
    unfold reachEnd
    split <;> rfl
  unfold readPacket
  rcases host.container.read now s.medium with ⟨e | p | _, m⟩
  · cases e with
    | endOfFile => exact congrArg Metrics.audioFrames (hend _)
    | cannotOpen | cannotRead | cannotSeek | noStreams => exact audioFrames_quit _
  · dsimp only
    unfold route
    dsimp only
    split_ifs <;> rfl
  · exact congrArg Metrics.audioFrames (hend _)

theorem audioFrames_readerTurn :
    (s.readerTurn now).metrics.audioFrames = s.metrics.audioFrames := by
  have htop : (s.readerTop now).2.metrics.audioFrames = s.metrics.audioFrames :=
    audioFrames_readerTop
  unfold readerTurn
  split
  · rename_i heq
    rw [heq] at htop
    exact audioFrames_readPacket.trans htop
  · rename_i heq
    rw [heq] at htop
    exact htop

theorem audioFrames_videoStep :
    (s.videoStep now).2.metrics.audioFrames = s.metrics.audioFrames := by
  unfold videoStep
  split
  · rfl
  · split
    · rfl
    · rfl
    · dsimp only
      split
      · rfl
      · rfl
      · rfl
      · rfl
      · unfold receivePicture
        split
        · rfl
        · dsimp only
          split <;> rfl

theorem metrics_audioTurn (take : Bool) : (s.audioTurn take now).2.metrics = s.metrics := by
  unfold audioTurn
  split
  · rfl
  · split
    · rfl
    · rfl
    · dsimp only
      split
      · rfl
      · rfl
      · rfl
      · rfl
      · split <;> rfl

end Session

/-! ## The streams in a pause -/

section

variable {S M σ F α : Type} [Timed S α]

/-- A stream at a later moment of a pause. It is in the same epoch, and frames of this epoch have
only come in. -/
structure Flow.Rests (f f' : Flow S σ F α) : Prop where
  serial : f'.packets.serial = f.packets.serial
  frames : f.frames.ofEpoch f.packets.serial <+: f'.frames.ofEpoch f.packets.serial

namespace Flow.Rests

variable {f f' f'' : Flow S σ F α}

theorem refl (f : Flow S σ F α) : f.Rests f :=
  ⟨rfl, List.prefix_refl _⟩

theorem trans (h : f.Rests f') (h' : f'.Rests f'') : f.Rests f'' := by
  have hframes := h'.frames
  rw [h.serial] at hframes
  exact ⟨h'.serial.trans h.serial, h.frames.trans hframes⟩

theorem fed (f : Flow S σ F α) {entries : List Entry} (hentries : Unmarked entries) :
    f.Rests (f.fed false entries) :=
  ⟨f.packets.serial_putAll hentries, List.prefix_refl _⟩

/-- The decode loop publishes frames behind the others. -/
theorem moves [Scalar S] [CodecUnit F] {codec : Codec S M σ F} {make : DecodedFrame S F → α}
    {refuses : Prop} (hring : ∃ l, f.frames.Holds l)
    (hmove : Moves codec make refuses (some f) (some f')) : f.Rests f' := by
  refine ⟨hmove.queue.1, ?_⟩
  cases hmove with
  | waits | ends | decodes | endsAfter | takes | leaves | refused => exact List.prefix_refl _
  | publishes _ hpush =>
    obtain ⟨l, hl⟩ := hring
    unfold ofEpoch
    rw [hl.contents_push hpush, List.filter_append]
    exact List.prefix_append _ _

end Flow.Rests

end

/-! ## The whole session -/

/-- The stream that is open at a later moment of a pause was open before. -/
def Flow.StaysIn {S σ F α : Type} [Timed S α] (v v' : Option (Flow S σ F α)) : Prop :=
  ∀ f', v' = some f' → ∃ f, v = some f ∧ f.Rests f'

theorem Flow.StaysIn.of_eq {S σ F α : Type} [Timed S α] {v v' : Option (Flow S σ F α)}
    (h : v' = v) : StaysIn v v' :=
  fun f hf => ⟨f, h ▸ hf, .refl f⟩

theorem Flow.StaysIn.trans {S σ F α : Type} [Timed S α] {v v' v'' : Option (Flow S σ F α)}
    (h : StaysIn v v') (h' : StaysIn v' v'') : StaysIn v v'' := by
  intro f'' hf''
  obtain ⟨f', hf', hlast⟩ := h' f'' hf''
  obtain ⟨f, hf, hfirst⟩ := h f' hf'
  exact ⟨f, hf, hfirst.trans hlast⟩

namespace Session

variable {S : Type} [Scalar S] {host : Host S} {s s' s'' : Session host} {now : S}

/-- A session at a later moment of a pause. -/
structure LaterPaused (s s' : Session host) : Prop where
  clocks : s.clocks.Frozen s'.clocks
  display : ∃ pending early,
    s'.displayState = { s.displayState with pending := pending, earlyDrops := early }
  audioFrames : s'.metrics.audioFrames = s.metrics.audioFrames
  video : Flow.StaysIn s.flows.video s'.flows.video
  audio : Flow.StaysIn s.flows.audio s'.flows.audio

theorem LaterPaused.refl (s : Session host) : s.LaterPaused s :=
  ⟨.refl _, ⟨_, _, rfl⟩, rfl, .of_eq rfl, .of_eq rfl⟩

theorem LaterPaused.trans (h : s.LaterPaused s') (h' : s'.LaterPaused s'') : s.LaterPaused s'' := by
  obtain ⟨pending, early, hdisplay⟩ := h.display
  obtain ⟨pending', early', hdisplay'⟩ := h'.display
  refine ⟨h.clocks.trans h'.clocks, ⟨pending', early', ?_⟩, h'.audioFrames.trans h.audioFrames,
    h.video.trans h'.video, h.audio.trans h'.audio⟩
  rw [hdisplay', hdisplay]

theorem LaterPaused.of_flows (hclocks : s.clocks.Frozen s'.clocks) (hflows : s'.flows = s.flows)
    (hdisplay : ∃ pending early,
      s'.displayState = { s.displayState with pending := pending, earlyDrops := early })
    (haudio : s'.metrics.audioFrames = s.metrics.audioFrames) : s.LaterPaused s' :=
  ⟨hclocks, hdisplay, haudio, .of_eq (by rw [hflows]), .of_eq (by rw [hflows])⟩

theorem laterPaused_readerTurn (hseek : s.seekSucceeds now = false)
    (hclocks : s.clocks.Frozen (s.readerTurn now).clocks) : s.LaterPaused (s.readerTurn now) := by
  have hfed := s.fed_readerTurn now
  rw [hseek] at hfed
  obtain ⟨video, audio, hvideo, haudio, hflows⟩ := hfed
  refine ⟨hclocks, ⟨_, _, displayState_readerTurn⟩, audioFrames_readerTurn, ?_, ?_⟩
  all_goals
    intro f' hf'
    rw [hflows] at hf'
    obtain ⟨f, hf, rfl⟩ := Option.map_eq_some_iff.1 hf'
  · exact ⟨f, hf, .fed f hvideo⟩
  · exact ⟨f, hf, .fed f haudio⟩

theorem laterPaused_videoStep (h : s.InOrder)
    (hclocks : s.clocks.Frozen (s.videoStep now).2.clocks) : s.LaterPaused (s.videoStep now).2 := by
  obtain ⟨v, hflows, hmoves⟩ := s.moves_videoStep now
  obtain ⟨-, -, hdisplay, -⟩ := s.works_videoStep now
  refine ⟨hclocks, ⟨_, _, hdisplay⟩, audioFrames_videoStep, ?_, ?_⟩
  all_goals rw [hflows]
  · rintro f' rfl
    obtain ⟨f, hf, hmove⟩ := hmoves.source
    obtain ⟨returned, taken, l, hl⟩ := h.books f hf
    exact ⟨f, hf, .moves ⟨l, hl.holds⟩ hmove⟩
  · exact .of_eq rfl

theorem laterPaused_audioTurn (h : s.InOrder) (take : Bool)
    (hclocks : s.clocks.Frozen (s.audioTurn take now).2.clocks) :
    s.LaterPaused (s.audioTurn take now).2 := by
  obtain ⟨a, hflows, hmoves⟩ := s.moves_audioTurn take now
  refine ⟨hclocks, ⟨_, _, displayState_audioTurn take⟩,
    congrArg Metrics.audioFrames (metrics_audioTurn take), ?_, ?_⟩
  all_goals rw [hflows]
  · exact .of_eq rfl
  · rintro f' rfl
    obtain ⟨f, hf, hmove⟩ := hmoves.source
    exact ⟨f, hf, .moves (h.sound f hf) hmove⟩

theorem laterPaused_refresh (h : s.InOrder) (hpaused : s.paused = true)
    (hclocks : s.clocks.Frozen (s.refresh now).2.clocks) : s.LaterPaused (s.refresh now).2 := by
  obtain ⟨hstale, timer, -, hrefresh⟩ := refresh_of_paused hpaused h.forced now
  have hflows := flows_refresh_eq h.forced now
  refine ⟨hclocks, ?_, ?_, ?_, ?_⟩
  · rw [hrefresh]
    exact ⟨_, _, rfl⟩
  · rw [hrefresh]
    rfl
  · intro f' hf'
    rw [hflows] at hf'
    obtain ⟨f, hf, rfl⟩ := Option.map_eq_some_iff.1 hf'
    obtain ⟨returned, taken, l, hl⟩ := h.books f hf
    have hkept := hl.ofEpoch_stale ((loops_looked h.forced now).passed f hf) hstale
    exact ⟨f, hf, rfl, hkept ▸ List.prefix_refl _⟩
  · rw [hflows]
    exact .of_eq rfl

theorem laterPaused_fill (hpaused : s.paused = true) (count volume : Nat)
    (hclocks : s.clocks.Frozen (s.fill count volume now).2.clocks) :
    s.LaterPaused (s.fill count volume now).2 := by
  obtain ⟨hnone, output, metrics, hfill⟩ := fill_of_paused hpaused count volume now
  have hflows := congrArg Session.flows hfill
  have hcount := s.audioFrames_fill count volume now
  rw [hnone] at hcount
  exact .of_flows hclocks hflows ⟨_, _, displayState_fill count volume⟩ hcount

/-- Whatever the workers, the display and the device do in a pause, it is still the same pause. -/
theorem laterPaused_perform (h : s.InOrder) (hpaused : s.paused = true) {action : Action}
    (hquiet : action.isQuiet = true)
    (hseek : action = .readerTurn → s.seekSucceeds now = false) :
    s.LaterPaused (s.perform now action) := by
  have hclocks := frozen_perform hpaused hquiet hseek
  cases action with
  | start =>
    have hmetrics : s.start.metrics = s.metrics := by
      unfold start
      split <;> rfl
    exact .of_flows hclocks flows_start ⟨_, _, displayState_start⟩
      (congrArg Metrics.audioFrames hmetrics)
  | takePicture =>
    have hmetrics : s.takePicture.2.metrics = s.metrics := by
      unfold takePicture
      split <;> rfl
    exact .of_flows hclocks flows_takePicture ⟨_, _, displayState_takePicture⟩
      (congrArg Metrics.audioFrames hmetrics)
  | readerTurn => exact laterPaused_readerTurn (hseek rfl) hclocks
  | videoStep => exact laterPaused_videoStep h hclocks
  | audioStep => exact laterPaused_audioTurn h true hclocks
  | audioDecode => exact laterPaused_audioTurn h false hclocks
  | refresh => exact laterPaused_refresh h hpaused hclocks
  | fill count volume => exact laterPaused_fill hpaused count volume hclocks
  | _ => cases hquiet

theorem laterPaused_run (h : s.InOrder) (hpaused : s.paused = true) (actions : List (S × Action))
    (hquiet : s.quiet actions = true) : s.LaterPaused (s.run actions) := by
  induction actions generalizing s with
  | nil => exact .refl _
  | cons a actions ih =>
    obtain ⟨now, action⟩ := a
    unfold quiet at hquiet
    obtain ⟨hfirst, hrest⟩ := Bool.and_eq_true_iff.1 hquiet
    obtain ⟨haction, hseek⟩ := Bool.and_eq_true_iff.1 hfirst
    have hstep : s.LaterPaused (s.perform now action) := by
      refine laterPaused_perform h hpaused haction fun hturn => ?_
      simpa [hturn] using hseek
    exact hstep.trans (ih (h.perform now action) (hstep.clocks.paused.trans hpaused) hrest)

end Session

/-! ## What a pause keeps -/

section

variable {S : Type} [Scalar S] {σ F α : Type} [Timed S α]

/-- An open stream at a later moment of a pause: it is in the same epoch, the frames of this epoch
are where they were, with others behind them, and its clock reads the same at all times. -/
structure Stream.Idles (v w : Stream S α) : Prop where
  serial : w.packets.serial = v.packets.serial
  frames : v.frames.ofEpoch v.packets.serial <+: w.frames.ofEpoch w.packets.serial
  clock : ∀ now now', w.clockValue now' = v.clockValue now

theorem Flow.StaysIn.idles {p q : Option (Pipeline S σ F α)}
    (h : StaysIn (p.map Pipeline.flow) (q.map Pipeline.flow))
    (hclock : ∀ k, (q.map (·.stream)).map (·.clock) = some k →
      (p.map (·.stream)).map (·.clock) = some k)
    (hstands : ∀ k, (p.map (·.stream)).map (·.clock) = some k → k.Stands)
    {w : Stream S α} (hw : q.map (·.stream) = some w) :
    ∃ v, p.map (·.stream) = some v ∧ v.Idles w := by
  obtain ⟨y, rfl, rfl⟩ := Option.map_eq_some_iff.1 hw
  obtain ⟨f, hf, hserial, hframes⟩ := h y.flow rfl
  obtain ⟨x, rfl, rfl⟩ := Option.map_eq_some_iff.1 hf
  have hsame : x.stream.clock = y.stream.clock := Option.some.inj (hclock _ rfl)
  refine ⟨x.stream, rfl, hserial, ?_, fun now now' => ?_⟩
  · have hserial' : y.stream.packets.serial = x.stream.packets.serial := hserial
    rw [hserial']
    exact hframes
  · have hserial' : y.stream.packets.serial = x.stream.packets.serial := hserial
    unfold Stream.clockValue
    rw [hserial', ← hsame]
    exact (hstands _ rfl).read_eq _ now now'

end

namespace Session

variable {S : Type} [Scalar S] {host : Host S} {s p q : Session host} {now : S}

/-- What a session `q`, at a later moment of the pause that `p` is in, has in common with `p`. -/
structure Undisturbed (p q : Session host) : Prop where
  paused : q.paused = true
  /-- The display accepts no picture and passes over none; it may throw stale ones away. -/
  pictures : ∀ now, q.accepted now = none ∧ ∀ x ∈ q.passed now, x.2 = .stale
  /-- The device takes no block of sound. -/
  sound : ∀ count volume now, q.converted count now = [] ∧
    (q.fill count volume now).2.audioStream = q.audioStream
  displayed : q.metrics.displayed = p.metrics.displayed
  lateDrops : q.metrics.lateDrops = p.metrics.lateDrops
  audioFrames : q.metrics.audioFrames = p.metrics.audioFrames
  video : ∀ w, q.videoStream = some w → ∃ v, p.videoStream = some v ∧ v.Idles w
  audio : ∀ w, q.audioStream = some w → ∃ v, p.audioStream = some v ∧ v.Idles w
  external : ∀ now now', q.externalClock.read none now' = p.externalClock.read none now
  /-- The leading clock, if no stream has left meanwhile. -/
  master : q.videoStream.isSome = p.videoStream.isSome →
    q.audioStream.isSome = p.audioStream.isSome →
    ∀ now now', q.masterClock now' = p.masterClock now

theorem clockValue_of_idles {α : Type} [Timed S α] {v w : Option (Stream S α)}
    (hsame : w.isSome = v.isSome) (hidles : ∀ y, w = some y → ∃ x, v = some x ∧ x.Idles y)
    (now now' : S) : w.bind (·.clockValue now') = v.bind (·.clockValue now) := by
  cases w with
  | none =>
    cases v with
    | none => rfl
    | some x => cases hsame
  | some y =>
    obtain ⟨x, rfl, hxy⟩ := hidles y rfl
    exact hxy.clock now now'

theorem LaterPaused.undisturbed (h : p.LaterPaused q) (horder : q.InOrder)
    (hpaused : p.paused = true) (hstill : p.clocks.Still) : p.Undisturbed q := by
  have hpaused' : q.paused = true := h.clocks.paused.trans hpaused
  obtain ⟨pending, early, hdisplay⟩ := h.display
  have hvideo := fun w => h.video.idles h.clocks.video hstill.video (w := w)
  have haudio := fun w => h.audio.idles h.clocks.audio hstill.audio (w := w)
  have hexternal (now now' : S) :
      q.externalClock.read none now' = p.externalClock.read none now := by
    have hsame : q.externalClock = p.externalClock := h.clocks.external
    have hstands : p.externalClock.Stands := .inl hstill.external
    rw [hsame]
    exact hstands.read_eq none now now'
  refine ⟨hpaused', fun now => ?_, fun count volume now => ?_,
    congrArg DisplayState.displayed hdisplay, congrArg DisplayState.lateDrops hdisplay,
    h.audioFrames, hvideo, haudio, hexternal, fun hvideo' haudio' now now' => ?_⟩
  · obtain ⟨hstale, -⟩ := refresh_of_paused hpaused' horder.forced now
    refine ⟨Option.eq_none_iff_forall_ne_some.2 fun f hf => ?_, hstale⟩
    have hshown := (accepted_iff horder.forced horder.books now f).1 hf
    cases hstale _ hshown
  · obtain ⟨hnone, output, metrics, hfill⟩ := fill_of_paused hpaused' count volume now
    have hring := congrArg audioStream hfill
    exact ⟨hnone, hring⟩
  · have hoptions : q.options = p.options := congrArg DisplayState.options hdisplay
    have hmaster : q.master = p.master := by
      unfold videoStream at hvideo'
      unfold audioStream at haudio'
      rw [Option.isSome_map, Option.isSome_map] at hvideo' haudio'
      unfold master
      rw [hoptions, hvideo', haudio']
    unfold masterClock
    rw [hmaster]
    cases p.master with
    | video => exact clockValue_of_idles hvideo' hvideo now now'
    | audio => exact clockValue_of_idles haudio' haudio now now'
    | external => exact hexternal now now'

end Session

/-! ## A source with pictures and sound -/

namespace PictureAndSound

/-- A packet with a block of sound that lasts a quarter of a second. -/
def sound (n : Nat) : ScriptRow where
  packet :=
    { (default : Packet) with
      stream := 1
      data := ScriptRow.numberBytes n
      pos := some (1000 + n) }
  pictures := []
  blocks :=
    [{samples :=
        { rate := 8, channels := 1, layout := 4, format := .s16, count := 2, data := #[1, 2, 3, 4] }
      pts := some n
      pos := some (1000 + n) }]
  hold := false
  fail := none

/-- A stream of pictures and a stream of sound; the first seek leads to the first line. -/
def script (lines : Array ScriptLine) : Script Rat where
  info :=
    { streams := [.video 0 ⟨1, 25⟩ 8 4 ⟨25, 1⟩, .audio 1 ⟨1, 8⟩ 8 1]
      chapters := []
      bitRate := none
      startTime := none
      duration := none
      realtime := false
      jumping := false }
  lines := lines
  attached := none
  seekTo := [0]
  seekFailsAt := none
  videoOpenFails := none
  audioOpenFails := none
  videoDrainFails := none
  audioDrainFails := none

open PictureScript in
/-- Two packets of each stream. -/
def host : Host Rat :=
  Host.scripted (script #[.row (row 0), .row (sound 1), .row (row 2), .row (sound 3)]) {}

/-- All packets are read, a picture is shown, and the first half of a block of sound is played. -/
def playing : List (Rat × Session.Action) :=
  (0, .start) :: List.replicate 4 (0, .readerTurn) ++ List.replicate 4 (0, .videoStep) ++
    [(0, .audioStep), (0, .audioStep), (1 / 10, .refresh), (1 / 10, .fill 2 100)]

/-- Then the session is paused. -/
def pausing : List (Rat × Session.Action) :=
  playing ++ [(1 / 5, .togglePause)]

/-- The end of the source is read, another block of sound comes into the ring, the display is
refreshed, and the device plays the rest of the first block. -/
def waiting : List (Rat × Session.Action) :=
  [(1, .readerTurn), (1, .audioStep), (1, .audioStep), (1, .refresh), (1, .fill 4 100)]

end PictureAndSound

/-! ## Every run -/

/-- Let a session be paused, whatever it has done since it was opened. Then nothing that its reader,
its decode loops, the display and the audio device do disturbs it, in any order and at any moments,
as long as no user asks for anything and the reader performs no seek. -/
theorem pause_quiescent {S : Type} [Scalar S] {host : Host S} {uri : String} {options : Options S}
    {screen : host.Screen} {opened : S} {s : Session host}
    (hopen : Session.open host uri options screen opened = .ok s)
    (before : List (S × Session.Action)) (hpaused : (s.run before).paused = true)
    (actions : List (S × Session.Action)) (hquiet : (s.run before).quiet actions = true) :
    (s.run before).Undisturbed ((s.run before).run actions) := by
  have horder : (s.run before).InOrder := (Session.InOrder.start hopen).run before
  have hstill : (s.run before).clocks.Still :=
    Session.settled_run (.of_running (Session.opened_open hopen).paused) before hpaused
  have hlater := Session.laterPaused_run horder hpaused actions hquiet
  exact hlater.undisturbed (horder.run actions) hpaused hstill

/-- A pause in which a block of sound comes into the ring. -/
theorem pause_quiescent_waiting :
    ∃ s, Session.open PictureAndSound.host "" {} (0 : Nat) 0 = .ok s ∧
      let p := s.run PictureAndSound.pausing
      p.paused = true ∧ p.quiet PictureAndSound.waiting = true ∧
        (p.masterClock 1).isSome = true ∧
        p.audioStream.map (·.frames.remaining) = some 0 ∧
        (p.run PictureAndSound.waiting).audioStream.map (·.frames.remaining) = some 1 ∧
        p.Undisturbed (p.run PictureAndSound.waiting) := by
  have hopen : ∃ s, Session.open PictureAndSound.host "" {} (0 : Nat) 0 = .ok s ∧
      let p := s.run PictureAndSound.pausing
      p.paused = true ∧ p.quiet PictureAndSound.waiting = true ∧
        (p.masterClock 1).isSome = true ∧
        p.audioStream.map (·.frames.remaining) = some 0 ∧
        (p.run PictureAndSound.waiting).audioStream.map (·.frames.remaining) = some 1 :=
    ⟨_, rfl, by decide +kernel⟩
  obtain ⟨s, hs, hpaused, hquiet, hclock, hempty, hone⟩ := hopen
  exact ⟨s, hs, hpaused, hquiet, hclock, hempty, hone,
    pause_quiescent hs PictureAndSound.pausing hpaused PictureAndSound.waiting hquiet⟩

end Playback
