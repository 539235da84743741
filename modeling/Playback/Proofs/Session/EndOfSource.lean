import Playback.Proofs.Session.EpochRecords
import Playback.Scalar.Exact
import Playback.Session.Simulation

/-!
# The end of the source reaches every stream

Once the reader has read the end of the source, every open stream whose queue works was told so in
its current epoch: the end of the stream was accepted behind all packets, and it is the last entry
of the queue or the decoder has come to it (`end_of_source_told`).

The one exception is a stream that was opened after that, by a switch from another stream. The
reader takes the end of the source for old news then, so as long as nothing else is read, nothing is
put into the queue of this stream, and its decoder never finishes (`switched_after_end`). A seek,
which begins a new epoch as well, makes the reader forget that it has read the end.
-/

namespace Playback

/-- The end of the stream was accepted behind everything else in the current epoch, and the decoder
will come to it or has come to it. -/
structure EndTold {S σ F : Type} (r : EpochRecord) (q : PacketQueue) (d : Decoder S σ F) :
    Prop where
  accepted : r.entries.getLast? = some .endOfStream
  reaches : q.entries.getLast? = some ⟨.endOfStream, q.serial⟩ ∨
    q.entries = [] ∧ d.serial = q.serial ∧ (d.drained = true ∨ d.finished = some q.serial)

/-- The stream was opened after the end of the source was read. Nothing was accepted since then, and
the decoder has not finished. -/
structure OpenedLate {S σ F : Type} (r : EpochRecord) (q : PacketQueue) (d : Decoder S σ F) :
    Prop where
  late : r.late = true
  nothing : r.entries = []
  unfinished : d.finished ≠ some q.serial

theorem Recording.told_or_late {S M σ F α : Type} {codec : Codec S M σ F} {cover : Bool}
    {r : EpochRecord} {f : Flow S σ F α} (h : Recording codec true cover r f)
    (hrun : f.packets.aborted = false) :
    EndTold r f.packets f.decoder ∨ OpenedLate r f.packets f.decoder := by
  rcases h.told hrun rfl with hlast | ⟨hlate, hnothing⟩
  · exact .inl ⟨hlast, h.follows.last_end hrun hlast⟩
  · have hfollows := h.follows
    rw [hnothing] at hfollows
    exact .inr ⟨hlate, hnothing, hfollows.unfinished⟩

/-! ## Sources of pictures -/

namespace PictureScript

/-- A packet with one picture. -/
def row (n : Nat) : ScriptRow where
  packet := { (default : Packet) with data := ScriptRow.numberBytes n, pos := some (1000 + n) }
  pictures := [{ (default : DecodedPicture) with pts := some n, pos := some (1000 + n) }]
  blocks := []
  hold := false
  fail := none

/-- A source with so many streams of pictures; the packets are all of the first one. -/
def script (streams : Nat) (lines : Array ScriptLine) (drainFails : Option String) :
    Script Rat where
  info :=
    { streams := (List.range streams).map fun i => .video i ⟨1, 25⟩ 8 4 ⟨25, 1⟩
      chapters := []
      bitRate := none
      startTime := none
      duration := none
      realtime := false
      jumping := false }
  lines := lines
  attached := none
  seekTo := []
  seekFailsAt := none
  videoOpenFails := none
  audioOpenFails := none
  videoDrainFails := drainFails
  audioDrainFails := none

end PictureScript

namespace TwoAngles

open PictureScript in
/-- Two streams, and one packet. -/
def host : Host Rat :=
  Host.scripted (script 2 #[.row (row 0)] none) {}

/-- The packet and the end of the source are read. -/
def readToEnd : List (Rat × Session.Action) :=
  [(0, .start), (0, .readerTurn), (0, .videoStep), (0, .videoStep), (0, .readerTurn)]

/-- Then the other stream is opened, and reader and decode loop go on. -/
def switched : List (Rat × Session.Action) :=
  readToEnd ++ [(0, .cycleStream .video), (0, .readerTurn), (0, .videoStep), (0, .readerTurn),
    (0, .videoStep)]

end TwoAngles

/-! ## Every run -/

/-- When the end of the source was read, every open stream whose queue works was told in its current
epoch, unless it was opened too late. -/
theorem end_of_source_told {S : Type} [Scalar S] {host : Host S} {uri : String}
    {options : Options S} {screen : host.Screen} {opened : S} {s : Session host}
    (hopen : Session.open host uri options screen opened = .ok s)
    (actions : List (S × Session.Action)) :
    let t := (Recorded.start s).run actions
    t.session = s.run actions ∧
    (t.session.atEnd = true →
      (∀ p, t.session.video = some p → p.stream.packets.aborted = false →
        EndTold t.video p.stream.packets p.decoder ∨
          OpenedLate t.video p.stream.packets p.decoder) ∧
      ∀ p, t.session.audio = some p → p.stream.packets.aborted = false →
        EndTold t.audio p.stream.packets p.decoder ∨
          OpenedLate t.audio p.stream.packets p.decoder) := by
  intro t
  refine ⟨Recorded.session_run _ actions, fun hend => ?_⟩
  obtain ⟨-, hvideo, haudio, -, -⟩ := (Recorded.Kept.start hopen).run actions
  have hread : t.session.readerState.atEnd = true := hend
  rw [hread] at hvideo haudio
  constructor
  · intro p hp hrun
    have hflow : t.session.flows.video = some p.flow := congrArg (Option.map Pipeline.flow) hp
    exact (hvideo p.flow hflow).told_or_late hrun
  · intro p hp hrun
    have hflow : t.session.flows.audio = some p.flow := congrArg (Option.map Pipeline.flow) hp
    exact (haudio p.flow hflow).told_or_late hrun

/-- The first stream is told. -/
theorem end_of_source_told_first :
    ∃ s, Session.open TwoAngles.host "" {} (0 : Nat) 0 = .ok s ∧
      let t := (Recorded.start s).run TwoAngles.readToEnd
      t.session.atEnd = true ∧ ∃ p, t.session.video = some p ∧
        p.stream.packets.aborted = false ∧ EndTold t.video p.stream.packets p.decoder := by
  have hopen : ∃ s, Session.open TwoAngles.host "" {} (0 : Nat) 0 = .ok s ∧
      let t := (Recorded.start s).run TwoAngles.readToEnd
      t.session.atEnd = true ∧ t.video.late = false ∧
        t.session.videoStream.map (·.packets.aborted) = some false :=
    ⟨_, rfl, by decide +kernel⟩
  obtain ⟨s, hs, hend, hlate, haborted⟩ := hopen
  obtain ⟨v, hv, hrun⟩ := Option.map_eq_some_iff.1 haborted
  obtain ⟨p, hp, rfl⟩ := Option.map_eq_some_iff.1 hv
  obtain ⟨-, htold⟩ := end_of_source_told hs TwoAngles.readToEnd
  obtain ⟨hvideo, -⟩ := htold hend
  rcases hvideo p hp hrun with htold | hopened
  · exact ⟨s, hs, hend, p, hp, hrun, htold⟩
  · have hnot := hopened.late
    rw [hlate] at hnot
    cases hnot

/-- The stream that is switched to after the end was read is open and works, but the end never gets
into its queue. -/
theorem switched_after_end :
    ∃ s, Session.open TwoAngles.host "" {} (0 : Nat) 0 = .ok s ∧
      let t := (Recorded.start s).run TwoAngles.switched
      t.session.atEnd = true ∧ t.video.entries = [] ∧
        t.session.videoStream.map (fun v => (v.params.index, v.packets.aborted, v.failed)) =
          some (1, false, false) ∧
        t.session.videoStream.map (·.packets.entries) = some [] := by
  refine ⟨_, rfl, ?_⟩
  decide +kernel

end Playback
