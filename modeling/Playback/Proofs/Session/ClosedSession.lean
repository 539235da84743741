import Playback.Proofs.Session.ClockMoves
import Playback.Proofs.Session.PausedSession
import Playback.Proofs.Session.PlayedSound
import Playback.Proofs.Session.QueuedBytes
import Playback.Proofs.Session.StreamHistory

/-!
# After a session is closed

A closed session has no stream, and nothing that happens to it gives it one (`Closed.perform`): it
shows no picture, and a refresh and another close do nothing at all.

It plays nothing either if there is no output of sound left. An output belongs to the open audio
stream and goes with it when the stream is closed, but not when its codec fails
(`OutputMatches.perform`). A session that lost its sound like that still has the output after it is
closed, and plays what is left of the last block and silence (`Closed.fill_of_output`).
-/

namespace Playback

open FrameRing

/-! ## The output of sound and its stream -/

section

variable {S : Type} [Scalar S] {c c' : Clocks S} {now : S}

theorem Clocks.Turned.output {seeks : Bool} (h : c.Turned now seeks c') : c'.output = c.output := by
  cases h with
  | stays => rfl
  | sought external =>
    unfold Clocks.sought
    dsimp only
    split <;> rfl

theorem Clocks.Filled.isSome_output {fs : List (AudioFrame S)} (h : c.Filled now fs c') :
    c'.output.isSome = c.output.isSome := by
  cases h with
  | closed hnone => rfl
  | paused hout => rw [hout]; rfl
  | heard hout => rw [hout]; rfl

end

namespace Session

variable {S : Type} [Scalar S] {host : Host S} {s s' : Session host} {now : S} {lost : Bool}

/-- The codec of the audio stream fails in this step, and the stream leaves. -/
def losesSound (s : Session host) (now : S) : Action → Bool
  | .audioStep => s.audio.isSome && (s.audioStep now).2.audio.isNone
  | .audioDecode => s.audio.isSome && (s.audioDecode now).2.audio.isNone
  | _ => false

/-- An audio stream was lost to its codec in the run. -/
def soundLost (s : Session host) : List (S × Action) → Bool
  | [] => false
  | a :: rest => s.losesSound a.1 a.2 || (s.perform a.1 a.2).soundLost rest

/-- There is an output of sound as long as an audio stream is open, and for good once one was
lost. -/
structure OutputMatches (s : Session host) (lost : Bool) : Prop where
  output : s.output.isSome = (s.audio.isSome || lost)
  closed : lost = true → s.audio = none

theorem OutputMatches.of_eq (h : s.OutputMatches lost)
    (haudio : s'.audio.isSome = s.audio.isSome)
    (houtput : s'.output.isSome = s.output.isSome) : s'.OutputMatches lost := by
  refine ⟨by rw [houtput, haudio, h.output], fun hlost => ?_⟩
  rw [← Option.isNone_iff_eq_none, ← Option.not_isSome, haudio, h.closed hlost]
  rfl

theorem isSome_clocks (s : Session host) : s.clocks.audio.isSome = s.audio.isSome := by
  unfold clocks audioStream
  cases s.audio <;> rfl

/-- Another stream may set its clock or its output; what matters is whether they are there. -/
theorem OutputMatches.of_clocks (h : s.OutputMatches lost)
    (haudio : s'.clocks.audio.isSome = s.clocks.audio.isSome)
    (houtput : s'.clocks.output.isSome = s.clocks.output.isSome) : s'.OutputMatches lost :=
  h.of_eq (by rw [← isSome_clocks, haudio, isSome_clocks]) houtput

/-- There are an audio stream and its output, or neither. -/
theorem outputMatches_of_fresh (h : s.output.isSome = s.audio.isSome) : s.OutputMatches false :=
  ⟨by rw [h, Bool.or_false], nofun⟩

theorem output_closeAudio (s : Session host) :
    (s.closeStream .audio).output = if s.audio.isSome then none else s.output := by
  unfold closeStream closing
  cases s.audio <;> rfl

theorem output_closeVideo (s : Session host) : (s.closeStream .video).output = s.output := by
  unfold closeStream closing
  dsimp only
  split <;> rfl

theorem OutputMatches.closeAudio (h : s.OutputMatches lost) :
    (s.closeStream .audio).OutputMatches lost := by
  have haudio : (s.closeStream .audio).audio = none := (s.slot_closeStream .audio).1
  refine ⟨?_, fun _ => haudio⟩
  rw [output_closeAudio, haudio]
  cases hopen : s.audio with
  | none =>
    have hout := h.output
    rw [hopen] at hout
    exact hout
  | some p =>
    cases lost with
    | true => cases hopen.symm.trans (h.closed rfl)
    | false => rfl

theorem OutputMatches.openStream (h : s.OutputMatches false) (p : StreamParams) (now : S) :
    (s.openStream p now).2.OutputMatches false := by
  unfold Session.openStream
  cases p.kind with
  | video =>
    rcases s.clocks_openVideo p now with hclocks | hclocks
    · exact h.of_clocks (by rw [hclocks]) (by rw [hclocks])
    · exact h.of_clocks (by rw [hclocks]) (by rw [hclocks])
  | audio =>
    rcases s.clocks_openAudio p now with hclocks | ⟨spec, hclocks⟩
    · exact h.of_clocks (by rw [hclocks]) (by rw [hclocks])
    · refine outputMatches_of_fresh ?_
      rw [← isSome_clocks, hclocks]
      exact congrArg (fun c => c.output.isSome) hclocks

theorem outputMatches_open {uri : String} {options : Options S} {screen : host.Screen}
    (hopen : Session.open host uri options screen now = .ok s) : s.OutputMatches false := by
  refine of_open hopen (fun source medium _ => ?_) fun s p h => h.openStream p now
  unfold seekStart
  split <;> exact outputMatches_of_fresh rfl

/-! ### What an action does to them -/

theorem OutputMatches.audioTurn (h : s.OutputMatches lost) (take : Bool) (now : S) :
    (s.audioTurn take now).2.OutputMatches
      (lost || s.audio.isSome && (s.audioTurn take now).2.audio.isNone) := by
  rcases s.clocks_audioTurn take now with hclocks | hclocks
  · have hsame : (s.audioTurn take now).2.audio.isSome = s.audio.isSome := by
      rw [← isSome_clocks, hclocks, isSome_clocks]
    have hstays : (s.audio.isSome && (s.audioTurn take now).2.audio.isNone) = false := by
      rw [← Option.not_isSome, hsame, Bool.and_not_self]
    rw [hstays, Bool.or_false]
    exact h.of_clocks (by rw [hclocks]) (by rw [hclocks])
  · have hgone : (s.audioTurn take now).2.audio = none := by
      rw [← Option.isNone_iff_eq_none, ← Option.not_isSome, ← isSome_clocks, hclocks]
      rfl
    have houtput : (s.audioTurn take now).2.output = s.output := congrArg Clocks.output hclocks
    refine ⟨?_, fun _ => hgone⟩
    rw [houtput, h.output, hgone]
    simp [Bool.or_comm]

theorem OutputMatches.cycleStream (h : s.OutputMatches lost) (kind : MediaKind) (now : S) :
    (s.cycleStream kind now).2.OutputMatches lost := by
  cases hswitch : s.switches kind with
  | false =>
    rw [cycleStream_of_stays hswitch now]
    exact h
  | true =>
    cases kind with
    | video =>
      obtain ⟨video, -, hclocks⟩ := clocks_cycleVideo hswitch now
      exact h.of_clocks (by rw [hclocks]) (by rw [hclocks])
    | audio =>
      -- the session can switch only from a stream that it has
      have hrunning : lost = false := by
        rw [Bool.eq_false_iff]
        intro hlost
        simp [switches, nextParams, openIndex, audioStream, h.closed hlost] at hswitch
      subst hrunning
      obtain ⟨p, -, hcycle⟩ := cycleStream_of_switches hswitch now
      rw [hcycle]
      exact h.closeAudio.openStream p now

/-- The output is there as before if no stream leaves and none is opened. -/
theorem output_of_keepsStreams {action : Action} (h : action.keepsStreams = true)
    (s : Session host) (now : S) :
    (s.perform now action).output.isSome = s.output.isSome := by
  have hsame {s' : Session host} (hclocks : s'.clocks = s.clocks) :
      s'.output.isSome = s.output.isSome := congrArg (·.output.isSome) hclocks
  cases action with
  | videoStep | audioStep | audioDecode | cycleStream | close => cases h
  | start => exact hsame clocks_start
  | readerTurn => exact congrArg Option.isSome (s.clocks_readerTurn now).output
  | refresh => exact congrArg Option.isSome (s.refreshed_refresh now).output
  | takePicture => exact hsame clocks_takePicture
  | fill count volume => exact (s.filled_fill count volume now).isSome_output
  | togglePause => exact congrArg (·.output.isSome) (s.clocks_togglePause now)
  | step =>
    have hclocks := congrArg (·.output.isSome) (s.clocks_step now)
    unfold Session.perform
    split at hclocks <;> exact hclocks
  | seek _ | seekChapter _ | nextChunk | previousChunk => exact hsame (clocks_request rfl)
  | abort => exact hsame s.clocks_abort

theorem OutputMatches.close (h : s.OutputMatches lost) : s.close.OutputMatches lost := by
  have hended : s.shutDown.OutputMatches lost :=
    h.of_clocks (congrArg (·.audio.isSome) s.clocks_abort)
      (congrArg (·.output.isSome) s.clocks_abort)
  have hsilent := hended.closeAudio
  exact hsilent.of_eq (congrArg Option.isSome ((slot_closeStream _ .video).2 .audio nofun))
    (congrArg Option.isSome (output_closeVideo _))

theorem Keeps.isSome_audio (h : s.Keeps s') : s'.audio.isSome = s.audio.isSome := by
  have haudio := h.audio
  generalize s.audio = v, s'.audio = v' at haudio
  cases haudio <;> rfl

/-- The step lemma. -/
theorem OutputMatches.perform (h : s.OutputMatches lost) (now : S) (action : Action) :
    (s.perform now action).OutputMatches (lost || s.losesSound now action) := by
  have hother (hloses : s.losesSound now action = false)
      (hmatches : (s.perform now action).OutputMatches lost) :
      (s.perform now action).OutputMatches (lost || s.losesSound now action) := by
    rwa [hloses, Bool.or_false]
  cases hkeeps : action.keepsStreams with
  | true =>
    refine hother ?_ (h.of_eq (keeps_perform hkeeps s now).isSome_audio
      (output_of_keepsStreams hkeeps s now))
    cases action <;> first | rfl | cases hkeeps
  | false =>
    cases action with
    | audioStep => exact h.audioTurn true now
    | audioDecode => exact h.audioTurn false now
    | videoStep =>
      refine hother rfl ?_
      rcases s.clocks_videoStep now with hclocks | hclocks
      · exact h.of_clocks (congrArg (·.audio.isSome) hclocks) (congrArg (·.output.isSome) hclocks)
      · exact h.of_clocks (congrArg (·.audio.isSome) hclocks) (congrArg (·.output.isSome) hclocks)
    | cycleStream kind => exact hother rfl (h.cycleStream kind now)
    | close => exact hother rfl h.close
    | _ => cases hkeeps

/-- The run lemma. -/
theorem OutputMatches.run (h : s.OutputMatches lost) (actions : List (S × Action)) :
    (s.run actions).OutputMatches (lost || s.soundLost actions) := by
  induction actions generalizing s lost with
  | nil =>
    rw [soundLost, Bool.or_false]
    exact h
  | cons a rest ih =>
    rw [soundLost, ← Bool.or_assoc]
    exact ih (h.perform a.1 a.2)

end Session

/-! ## Closed sessions -/

/-- Where there is no stream, nothing flows. -/
theorem Flows.Downstream.of_closed {S : Type} [Scalar S] {host : Host S} {fs fs' : Flows host}
    (h : fs.Downstream fs') (hvideo : fs.video = none) (haudio : fs.audio = none) : fs' = fs := by
  obtain ⟨video, audio, forced, aborted⟩ := fs
  obtain rfl : video = none := hvideo
  obtain rfl : audio = none := haudio
  cases h with
  | nothing hflows => exact hflows
  | video hmoves hflows =>
    cases hmoves
    exact hflows
  | audio hmoves hflows =>
    cases hmoves
    exact hflows
  | shows _ hflows => exact hflows
  | plays _ hflows => exact hflows

namespace AudioOutput

variable {S : Type} {out out' : AudioOutput S} {count n : Nat} {bytes : Bytes}

/-- The next bytes for the device if no block follows: what is left of this one, and silence. -/
def runsOut (out : AudioOutput S) (count : Nat) : Bytes :=
  (out.rest ++ Array.replicate count 0).extract 0 count

theorem joined_silences (out : AudioOutput S) (length n : Nat) :
    ∃ size, joined (List.replicate n (out.silence length)) = Array.replicate size 0 := by
  induction n with
  | zero => exact ⟨0, rfl⟩
  | succ n ih =>
    obtain ⟨size, hsize⟩ := ih
    have hfirst : out.silence length = Array.replicate (out.silence length).size 0 := by
      simp [silence]
    refine ⟨(out.silence length).size + size, ?_⟩
    rw [List.replicate_succ]
    show out.silence length ++ joined (List.replicate n (out.silence length)) = _
    rw [hsize, ← Array.replicate_append_replicate, ← hfirst]

/-- As many zeros as are needed make no difference. -/
theorem extract_append_zeros (a : Bytes) (h : count ≤ a.size + n) :
    (a ++ Array.replicate n 0).extract 0 count =
      (a ++ Array.replicate count (0 : UInt8)).extract 0 count := by
  have hsizes : ((a ++ Array.replicate n 0).extract 0 count).size =
      ((a ++ Array.replicate count (0 : UInt8)).extract 0 count).size := by
    simp
    omega
  refine Array.ext hsizes fun i hi hi' => ?_
  simp only [Array.getElem_extract, Array.getElem_append, Array.getElem_replicate]

theorem runsOut_of_silences (hsize : bytes.size = count)
    (h : bytes ++ out'.rest = out.rest ++
      joined (List.replicate n (out.silence silenceBytes))) : bytes = out.runsOut count := by
  obtain ⟨size, hzeros⟩ := out.joined_silences silenceBytes n
  rw [hzeros] at h
  have hle : count ≤ out.rest.size + size := by
    have := congrArg Array.size h
    simp only [Array.size_append, Array.size_replicate] at this
    omega
  calc bytes
      = (bytes ++ out'.rest).extract 0 count := by
        rw [← hsize, Array.extract_append_left, Array.extract_size]
    _ = (out.rest ++ Array.replicate size 0).extract 0 count := by rw [h]
    _ = out.runsOut count := extract_append_zeros out.rest hle

end AudioOutput

namespace Session

variable {S : Type} [Scalar S] {host : Host S} {s s' : Session host} {now : S}

/-- The session was told to end, it has no stream, and its reader has left its loop. -/
structure Closed (s : Session host) : Prop where
  flows : s.flows = ⟨none, none, false, true⟩
  reader : s.reader = .ended

theorem closed_close (hforced : s.refreshForced = false) : s.close.Closed := by
  refine ⟨?_, ?_⟩
  · rw [s.flows_close]
    show (⟨none, none, s.refreshForced, true⟩ : Flows host) = _
    rw [hforced]
  · have hvideo := readerState_closeStream
      (s.shutDown.closeStream .audio) .video
    have haudio := readerState_closeStream s.shutDown .audio
    exact congrArg ReaderState.reader (hvideo.trans haudio)

namespace Closed

theorem video (h : s.Closed) : s.video = none :=
  Option.map_eq_none_iff.1 (congrArg Flows.video h.flows)

theorem audio (h : s.Closed) : s.audio = none :=
  Option.map_eq_none_iff.1 (congrArg Flows.audio h.flows)

theorem forced (h : s.Closed) : s.refreshForced = false :=
  congrArg Flows.forced h.flows

theorem aborted (h : s.Closed) : s.aborted = true :=
  congrArg Flows.aborted h.flows

theorem videoStream (h : s.Closed) : s.videoStream = none :=
  congrArg (Option.map _) h.video

theorem audioStream (h : s.Closed) : s.audioStream = none :=
  congrArg (Option.map _) h.audio

theorem of_flows (h : s.Closed) (hflows : s'.flows = s.flows) (hreader : s'.reader = s.reader) :
    s'.Closed :=
  ⟨hflows.trans h.flows, hreader.trans h.reader⟩

theorem switches (h : s.Closed) (kind : MediaKind) : s.switches kind = false := by
  cases kind with
  | video => simp [Session.switches, nextParams, openIndex, h.videoStream]
  | audio => simp [Session.switches, nextParams, openIndex, h.audioStream]

theorem readerTurn_eq (h : s.Closed) (now : S) : s.readerTurn now = s := by
  unfold readerTurn readerTop
  rw [h.reader]

theorem start_eq (h : s.Closed) : s.start = s := by
  unfold start
  rw [h.reader]

/-- The step lemma: nothing opens a closed session. -/
theorem perform (h : s.Closed) (now : S) (action : Action) : (s.perform now action).Closed := by
  have hsame {s' : Session host} (hs : s' = s) : s'.Closed := hs ▸ h
  by_cases hdown : action.isDownstream = true
  · have hflows := (downstream_perform h.forced now hdown).of_closed
      (congrArg Flows.video h.flows) (congrArg Flows.audio h.flows)
    by_cases hstart : action = .start
    · subst hstart
      exact hsame h.start_eq
    · exact h.of_flows hflows (congrArg ReaderState.reader (readerState_perform hdown hstart now))
  cases action with
  | readerTurn => exact hsame (h.readerTurn_eq now)
  | cycleStream kind => exact hsame (cycleStream_of_stays (h.switches kind) now)
  | abort =>
    refine ⟨?_, h.reader⟩
    have hflows := s.flows_abort
    rw [h.flows] at hflows
    exact hflows
  | close => exact closed_close h.forced
  | _ => exact absurd rfl hdown

theorem run (h : s.Closed) (actions : List (S × Action)) : (s.run actions).Closed :=
  of_run h (fun _ now action h => h.perform now action) actions

theorem soundLost_eq (h : s.Closed) (actions : List (S × Action)) :
    s.soundLost actions = false := by
  induction actions generalizing s with
  | nil => rfl
  | cons a rest ih =>
    have hkeeps : s.losesSound a.1 a.2 = false := by
      unfold losesSound
      rw [h.audio]
      split <;> rfl
    rw [soundLost, hkeeps, ih (h.perform a.1 a.2), Bool.or_false]

/-! ### What a closed session shows -/

theorem close_eq (h : s.Closed) : s.close = s := by
  have hvideo := h.video
  have haudio := h.audio
  have hreader := h.reader
  have haborted := h.aborted
  obtain ⟨⟩ := s
  subst hvideo haudio hreader haborted
  rfl

theorem takePicture_eq (h : s.Closed) :
    s.takePicture = (none, { s with displayPending := false }) := by
  unfold takePicture
  split_ifs with hpending
  · rw [h.videoStream]
    rfl
  · have hidle : s.displayPending = false := Bool.eq_false_iff.2 hpending
    rw [← hidle]

/-- A refresh does nothing and is due again after the usual time. -/
theorem refresh_eq (h : s.Closed) (now : S) : s.refresh now = (s.options.refreshRate, s) := by
  have hadjusted : s.adjusted now = s := by
    unfold adjusted adjustExternalSpeed
    rw [h.videoStream, h.audioStream]
    split <;> rfl
  have hlooked : s.looked now = (s.options.refreshRate, s) := by
    rw [looked_eq, hadjusted]
    unfold advanceVideo
    rw [h.videoStream]
  have haccept : s.acceptPicture now = s := by
    unfold acceptPicture
    rw [h.videoStream]
  have hidle : ({ s with refreshForced := false } : Session host) = s := by
    rw [← h.forced]
  rw [Session.refresh_eq, hlooked, haccept, hidle]

/-! ### What a closed session plays -/

theorem fill_of_silent (hout : s.output = none) (count volume : Nat) (now : S) :
    s.fill count volume now = (Array.replicate count 0, s) := by
  unfold fill
  rw [hout]

theorem fill_of_output (h : s.Closed) {out : AudioOutput S} (hout : s.output = some out)
    (count volume : Nat) (now : S) :
    (s.fill count volume now).1 = Pcm.applyVolume out.spec.format volume (out.runsOut count) ∧
      ((s.fill count volume now).2.metrics.silences = s.metrics.silences ↔ count ≤ out.unread) := by
  obtain ⟨bytes, out', s', hsize, hemits, hdata, audio, external, hsession⟩ :=
    emits_fill hout count volume now
  have horder : s.SoundInOrder := fun f hf => by
    rw [h.flows] at hf
    cases hf
  have hmute : s.Mute := .inr fun a ha => by
    rw [h.audioStream] at ha
    cases ha
  obtain ⟨removed, silences, haccounts⟩ := hemits.accounts horder
  obtain ⟨rfl, -⟩ := haccounts.still hmute
  have hsound : bytes ++ out'.rest = out.rest ++
      joined (List.replicate silences (out.silence AudioOutput.silenceBytes)) :=
    haccounts.sound trivial
  have hmetrics : s'.metrics = s.metrics.recordSound 0 0 silences := haccounts.metrics trivial
  have hcount : (s.fill count volume now).2.metrics.silences = s.metrics.silences + silences := by
    rw [hsession]
    exact congrArg Metrics.silences hmetrics
  refine ⟨?_, ?_⟩
  · rw [hdata, hemits.sameFormat.spec]
    exact congrArg _ (AudioOutput.runsOut_of_silences hsize hsound)
  · rw [hcount, Nat.add_eq_left]
    constructor
    · rintro rfl
      have hsizes := congrArg Array.size hsound
      simp only [List.replicate_zero, joined, List.foldr_nil, Array.append_empty,
        Array.size_append, AudioOutput.size_rest] at hsizes
      omega
    · intro hle
      have hplays : Emits now s out ((out.play count).1 ++ #[]) (out.play count).2 s :=
        .plays hle .nothing
      obtain ⟨-, -, rfl⟩ := hemits.unique hplays (by
        rw [hsize, Array.append_empty, AudioOutput.size_play, Nat.min_eq_left hle])
      have hnone := congrArg Metrics.silences hmetrics
      exact Nat.add_eq_left.1 hnone.symm

end Closed

/-- The options stay as they are. -/
theorem InOrder.options_run (h : s.InOrder) (actions : List (S × Action)) :
    (s.run actions).options = s.options := by
  have hboth : (s.run actions).InOrder ∧ (s.run actions).options = s.options :=
    of_run (motive := fun t => t.InOrder ∧ t.options = s.options) ⟨h, rfl⟩
      (fun t now action ht => ⟨ht.1.perform now action,
        (sameSettings_perform ht.1.forced now action).1.trans ht.2⟩) actions
  exact hboth.2

end Session

/-! ## A source whose sound breaks off -/

namespace BrokenSound

open PictureAndSound in
/-- The second packet of sound is broken. -/
def host : Host Rat :=
  Host.scripted (script #[.row (sound 0), .row { sound 1 with fail := some "broken" }]) {}

/-- The first half of a block of sound is played. -/
def playing : List (Rat × Session.Action) :=
  [(0, .start), (0, .readerTurn), (0, .readerTurn), (0, .audioStep), (0, .audioStep),
    (0, .fill 2 100)]

/-- Then the codec fails. -/
def failed : List (Rat × Session.Action) :=
  playing ++ [(0, .audioStep)]

end BrokenSound

/-! ## Every run -/

/-- Whatever has happened to a session before it was closed, and whatever happens to it afterwards,
another close and a refresh do nothing, a refresh is due again after the usual time, and there is no
picture. If no audio stream was lost to its codec before, the device gets zeros, and no silence is
counted. If one was, the device gets what is left of the last block and silence behind it, at its
volume, and the silence is counted. -/
theorem closed_session {S : Type} [Scalar S] {host : Host S} {uri : String} {options : Options S}
    {screen : host.Screen} {opened : S} {s : Session host}
    (hopen : Session.open host uri options screen opened = .ok s)
    (before after : List (S × Session.Action)) :
    let p := (s.run before).close.run after
    p.close = p ∧
      (∀ now, p.refresh now = (options.refreshRate, p) ∧ p.takePicture.1 = none) ∧
      (s.soundLost before = false → ∀ count volume now,
        p.fill count volume now = (Array.replicate count 0, p)) ∧
      (s.soundLost before = true → ∃ out, p.output = some out ∧ ∀ count volume now,
        (p.fill count volume now).1 =
            Pcm.applyVolume out.spec.format volume (out.runsOut count) ∧
          ((p.fill count volume now).2.metrics.silences = p.metrics.silences ↔
            count ≤ out.unread)) := by
  intro p
  have horder : (s.run before).InOrder := (Session.InOrder.start hopen).run before
  have hclosed : p.Closed := (Session.closed_close horder.forced).run after
  have hoptions : p.options = options := by
    obtain ⟨source, hdisplay⟩ := Session.displayState_open hopen
    have hstart : s.options = options := congrArg DisplayState.options hdisplay
    have hclose : (s.run before).close.options = (s.run before).options :=
      (Session.sameSettings_perform horder.forced opened .close).1
    have hafter : p.options = (s.run before).close.options :=
      (horder.perform opened .close).options_run after
    rw [hafter, hclose, (Session.InOrder.start hopen).options_run, hstart]
  have houtput : p.output.isSome = s.soundLost before := by
    have hmatches := ((Session.outputMatches_open hopen).run before).close.run after
    have hnothing : (s.run before).close.soundLost after = false :=
      (Session.closed_close horder.forced).soundLost_eq after
    rw [hnothing, Bool.or_false, Bool.false_or] at hmatches
    have hout := hmatches.output
    rw [hclosed.audio] at hout
    exact hout
  refine ⟨hclosed.close_eq, fun now => ⟨?_, ?_⟩, fun hkept count volume now => ?_, fun hlost => ?_⟩
  · rw [hclosed.refresh_eq, hoptions]
  · rw [hclosed.takePicture_eq]
  · rw [hkept] at houtput
    exact Session.Closed.fill_of_silent
      (Option.isNone_iff_eq_none.1 (by rw [← Option.not_isSome, houtput]; rfl)) count volume now
  · rw [hlost] at houtput
    obtain ⟨out, hout⟩ := Option.isSome_iff_exists.1 houtput
    exact ⟨out, hout, hclosed.fill_of_output hout⟩

/-- The session is closed while half of a block of sound is still to be played. -/
theorem closed_session_playing :
    ∃ s, Session.open BrokenSound.host "" {} (0 : Nat) 0 = .ok s ∧
      s.soundLost BrokenSound.playing = false ∧
      (s.run BrokenSound.playing).output.map (·.unread) = some 2 ∧
      let p := (s.run BrokenSound.playing).close
      p.close = p ∧ p.fill 4 100 1 = (Array.replicate 4 0, p) := by
  have hopen : ∃ s, Session.open BrokenSound.host "" {} (0 : Nat) 0 = .ok s ∧
      s.soundLost BrokenSound.playing = false ∧
      (s.run BrokenSound.playing).output.map (·.unread) = some 2 :=
    ⟨_, rfl, by decide +kernel⟩
  obtain ⟨s, hs, hkept, hunread⟩ := hopen
  obtain ⟨hclose, -, hsilent, -⟩ := closed_session hs BrokenSound.playing []
  exact ⟨s, hs, hkept, hunread, hclose, hsilent hkept 4 100 1⟩

/-- The codec fails before the session is closed. Then the other half is played, and silence is
counted. -/
theorem heard_after_close :
    ∃ s, Session.open BrokenSound.host "" {} (0 : Nat) 0 = .ok s ∧
      let p := (s.run BrokenSound.failed).close
      (p.fill 4 100 1).1 = #[3, 4, 0, 0] ∧ p.metrics.silences = 0 ∧
        (p.fill 4 100 1).2.metrics.silences = 1 := by
  refine ⟨_, rfl, ?_⟩
  decide +kernel

end Playback
