import Playback.Proofs.Session.EndOfSource
import Playback.Proofs.Session.StreamSwitches

/-!
# Streams of a single picture

A stream may consist of a single picture, such as a cover. Packets that are read are kept from the
queue of such a stream, and the reader queues the picture instead, once in each epoch and with the
end right behind it (`cover_queued_once`). Whether it is due is one flag for the whole session:
opening a stream of pictures and a seek set it, and the next turn of the reader that comes to this
place clears it. So in every run the picture is either due, and the queue has accepted nothing in
its epoch, or it was accepted (`Covered`).

A turn that ends the reader's loop because of an abort or a failed seek does not come to this place,
and the picture stays due for good (`cover_missed`).
-/

namespace Playback

/-- The container has the picture of every stream of pictures that consists of a single one. -/
def Host.SuppliesPictures {S : Type} (host : Host S) (streams : List StreamParams) : Prop :=
  ∀ p ∈ StreamParams.usable streams .video, p.attachedPicture = true →
    ∀ m, (host.container.attachedPicture p.index m).isSome = true

/-- What the queue of a stream with a single picture accepts in an epoch: nothing, or the picture
that the container has for the stream and the end right behind it, and then nothing but the end
again. -/
inductive CoverEntries {S : Type} (host : Host S) (index : Nat) : List Entry → Prop
  | nothing : CoverEntries host index []
  | picture {p : Packet} {m : host.Medium}
      (hp : host.container.attachedPicture index m = some p) (ends : Nat) :
      CoverEntries host index
        (.data p :: .endOfStream :: List.replicate ends .endOfStream)

/-- Whatever comes behind the picture is the end. -/
theorem CoverEntries.append {S : Type} {host : Host S} {index : Nat} {entries more : List Entry}
    (h : CoverEntries host index entries) (hsome : entries ≠ [])
    (hmore : ∀ e ∈ more, e = .endOfStream) : CoverEntries host index (entries ++ more) := by
  have hends : more = List.replicate more.length .endOfStream := List.eq_replicate_of_mem hmore
  cases h with
  | nothing => exact absurd rfl hsome
  | picture hp ends =>
    rw [hends, List.cons_append, List.cons_append, List.replicate_append_replicate]
    exact .picture hp _

theorem CoverEntries.exists_data {S : Type} {host : Host S} {index : Nat} {entries : List Entry}
    (h : CoverEntries host index entries) (hsome : entries ≠ []) : ∃ p, .data p ∈ entries := by
  cases h with
  | nothing => exact absurd rfl hsome
  | picture => exact ⟨_, List.mem_cons_self⟩

/-- A stream with a single picture goes by the record of its queue: nothing but the picture was
accepted, and it was accepted unless it is still due. -/
structure Covered {S σ F α : Type} (host : Host S) (due : Bool) (r : EpochRecord)
    (f : Flow S σ F α) : Prop where
  entries : CoverEntries host f.params.index r.entries
  accepted : due = false → f.packets.aborted = false → r.entries ≠ []

namespace Covered

variable {S σ F α : Type} {host : Host S} {due sought : Bool} {r : EpochRecord}
  {f f' : Flow S σ F α} {p : Packet} {m : host.Medium} {video : List Entry}

/-- The stream was just opened. -/
theorem opened (host : Host S) (late : Bool) (f : Flow S σ F α) :
    Covered host true (.opened late) f :=
  ⟨.nothing, nofun⟩

/-- The record stays, and the stream is the same. -/
theorem same (h : Covered host due r f) (hparams : f'.params = f.params)
    (haborted : f'.packets.aborted = false → f.packets.aborted = false) : Covered host due r f' :=
  ⟨hparams ▸ h.entries, fun hdue hrun => h.accepted hdue (haborted hrun)⟩

/-- A turn of the reader queues the picture if it is due, and perhaps that the stream has ended. -/
theorem fed (h : Covered host due r f)
    (hdue : due = true → f.packets.aborted = false → r.entries = [])
    (hp : host.container.attachedPicture f.params.index m = some p)
    (hvideo : ∀ e ∈ video, e = .endOfStream) :
    let entries := (if due || sought then [.data p, .endOfStream] else []) ++ video
    Covered host false (r.after f.packets (f.fed sought entries).packets)
      (f.fed sought entries) := by
  intro entries
  have hpackets : (f.fed sought entries).packets = f.packets.fed sought entries := rfl
  have hpicture : CoverEntries host f.params.index ([.data p, .endOfStream] ++ video) :=
    (CoverEntries.picture hp 0).append (List.cons_ne_nil _ _) hvideo
  have hunmarked : Unmarked entries := by
    refine .append (fun e he => ?_) fun e he => ?_
    · have hcases : e = .data p ∨ e = .endOfStream := by
        split at he
        · simpa using he
        · cases he
      rcases hcases with rfl | rfl <;> nofun
    · rw [hvideo e he]
      nofun
  rw [hpackets]
  cases hrun : f.packets.aborted with
  | true =>
    have haborted : (f.fed sought entries).packets.aborted = true :=
      (f.aborted_fed _ _).trans hrun
    rw [r.after_of_aborted hrun]
    exact ⟨h.entries, fun _ hnot => nomatch haborted.symm.trans hnot⟩
  | false =>
    cases sought with
    | true =>
      have hentries : entries = [.data p, .endOfStream] ++ video := by
        simp [entries]
      rw [r.after_of_restarted hrun hunmarked]
      exact ⟨hentries ▸ hpicture, fun _ _ => by simp [hentries]⟩
    | false =>
      rw [r.after_of_running hrun hunmarked]
      cases due with
      | true =>
        have hentries : r.entries ++ entries = [.data p, .endOfStream] ++ video := by
          rw [hdue rfl hrun]
          rfl
        exact ⟨hentries ▸ hpicture, fun _ _ => by simp [hentries]⟩
      | false =>
        have hsome := h.accepted rfl hrun
        exact ⟨h.entries.append hsome hvideo,
          fun _ _ hnil => hsome (List.append_eq_nil_iff.1 hnil).1⟩

end Covered

namespace Session

variable {S : Type} [Scalar S] {host : Host S} {s : Session host} {now : S}

/-! ## When the picture is due -/

/-- The picture of the open stream is queued if it is due. -/
theorem attachment_of_supplied
    {f : Flow S host.VideoCodec DecodedPicture (VideoFrame S)} (hf : s.flows.video = some f)
    (hcover : f.params.attachedPicture = true)
    (hsupplied : ∀ m, (host.container.attachedPicture f.params.index m).isSome = true) :
    ∃ p m, host.container.attachedPicture f.params.index m = some p ∧
      s.attachment = if s.attachmentDue then [.data p, .endOfStream] else [] := by
  obtain ⟨pipeline, hpipeline, rfl⟩ := Option.map_eq_some_iff.1 hf
  obtain ⟨p, hp⟩ := Option.isSome_iff_exists.1 (hsupplied s.medium)
  have hstream : s.videoStream = some pipeline.stream := by rw [videoStream, hpipeline]; rfl
  refine ⟨p, s.medium, hp, ?_⟩
  unfold attachment
  rw [hstream]
  dsimp only [Pipeline.flow] at hcover hp ⊢
  rw [hcover, Bool.and_true, hp]

/-- Opening a stream of pictures makes a picture due. -/
theorem due_openStream (h : s.video.isSome = true → s.attachmentDue = true) (p : StreamParams)
    (now : S) :
    (s.openStream p now).2.video.isSome = true → (s.openStream p now).2.attachmentDue = true := by
  unfold openStream openVideo openAudio
  cases p.kind with
  | video =>
    cases host.openVideo p with
    | error e => exact h
    | ok codec => exact fun _ => rfl
  | audio =>
    dsimp only
    split
    · exact h
    · cases host.openAudio p <;> exact h

theorem due_open {uri : String} {options : Options S} {screen : host.Screen}
    (hopen : Session.open host uri options screen now = .ok s) :
    s.video.isSome = true → s.attachmentDue = true := by
  refine of_open (motive := fun s => s.video.isSome = true → s.attachmentDue = true) hopen
    (fun source medium _ hnone => ?_) fun s p h => s.due_openStream h p now
  unfold seekStart at hnone
  split at hnone <;> cases hnone

theorem due_cycleVideo (h : s.switches .video = true) (now : S) :
    (s.cycleStream .video now).2.video.isSome = true →
      (s.cycleStream .video now).2.attachmentDue = true := by
  obtain ⟨p, -, hcycle⟩ := cycleStream_of_switches h now
  rw [hcycle]
  refine due_openStream (fun hnot => ?_) p now
  have hclosed : (s.closeStream .video).video = none := (s.slot_closeStream .video).1
  rw [hclosed] at hnot
  cases hnot

end Session

/-! ## Every run -/

/-- Behind the queues the streams stay what they are, unless one is lost. -/
theorem Flows.Recorded.source_of_downstream {S : Type} [Scalar S] {host : Host S}
    {fs fs' : Flows host} {rs : ReaderState} {video audio : EpochRecord}
    (h : fs.Recorded rs video audio) (hdown : fs.Downstream fs')
    {f' : Flow S host.VideoCodec DecodedPicture (VideoFrame S)} (hf : fs'.video = some f') :
    ∃ f, fs.video = some f ∧ f'.params = f.params ∧
      (f'.packets.aborted = false → f.packets.aborted = false) := by
  cases hdown with
  | nothing hflows =>
    subst hflows
    exact ⟨f', hf, rfl, id⟩
  | video hmoves hflows =>
    subst hflows
    obtain rfl := hf
    obtain ⟨f, hold, hmove⟩ := hmoves.source
    obtain ⟨-, hparams, haborted⟩ := (h.video f hold).moves hmove
    exact ⟨f, hold, hparams, haborted⟩
  | audio hmoves hflows =>
    subst hflows
    exact ⟨f', hf, rfl, id⟩
  | shows hg hflows =>
    subst hflows
    obtain ⟨f, hold, rfl⟩ := Option.map_eq_some_iff.1 hf
    exact ⟨f, hold, rfl, id⟩
  | plays hg hflows =>
    subst hflows
    exact ⟨f', hf, rfl, id⟩

namespace Recorded

variable {S : Type} [Scalar S] {host : Host S} {streams : List StreamParams} {t : Recorded host}

/-- The open stream of pictures goes by its record if it consists of a single one. -/
structure CoverKept (streams : List StreamParams) (t : Recorded host) : Prop where
  kept : t.Kept
  plays : t.session.PlaysFrom streams
  covered : ∀ f, t.session.flows.video = some f → f.params.attachedPicture = true →
    Covered host t.session.attachmentDue t.video f

namespace CoverKept

theorem usable (h : t.CoverKept streams)
    {f : Flow S host.VideoCodec DecodedPicture (VideoFrame S)}
    (hf : t.session.flows.video = some f) :
    f.params ∈ StreamParams.usable streams .video := by
  obtain ⟨p, hp, rfl⟩ := Option.map_eq_some_iff.1 hf
  have hopen : t.session.openParams .video = some p.stream.params := by
    have hslot : t.session.slot .video = some p := hp
    rw [Session.openParams, hslot]
    rfl
  exact h.plays.usable .video _ hopen

/-- A turn of the reader. -/
theorem covered_readerTurn (h : t.CoverKept streams) (hsupplies : host.SuppliesPictures streams)
    (now : S) {f' : Flow S host.VideoCodec DecodedPicture (VideoFrame S)}
    (hf : (t.session.readerTurn now).flows.video = some f')
    (hcover : f'.params.attachedPicture = true) :
    Covered host (t.session.readerTurn now).attachmentDue (t.perform now .readerTurn).video f' := by
  rcases t.session.readerTurn_cases now with ⟨-, -, hflows, -, hdue⟩ |
    ⟨top, video, audio, htop, htopdue, hreads, hflows, hdue⟩
  · have hfed := hflows.trans (Flows.fed_nil t.session.flows).symm
    obtain ⟨f, hold, rfl, hrecord⟩ := EpochRecord.afterTurn_fed (congrArg Flows.video hfed) hf
    have hsame : (t.perform now .readerTurn).video = t.video :=
      (hrecord t.video).trans (t.video.after_self f.packets)
    rw [hsame, hdue]
    exact (h.covered f hold hcover).same rfl (f.aborted_fed false []).symm.trans
  · obtain ⟨f, hopen, rfl, hrecord⟩ := EpochRecord.afterTurn_fed (congrArg Flows.video hflows) hf
    have hold : t.session.flows.video = some f := hopen
    have hsame : (t.perform now .readerTurn).video =
        t.video.after f.packets (f.fed _ (top.attachment ++ video)).packets := hrecord t.video
    have hvideo : ∀ e ∈ video, e = .endOfStream := by
      have hcovers : t.session.flows.cover = true := by
        rw [Flows.cover, hold]
        exact hcover
      rw [hcovers] at hreads
      exact hreads.ends_of_cover
    have hnew : top.flows.video = some (f.fed (t.session.seekSucceeds now) []) := by
      rw [htop, Flows.fed, hold]
      rfl
    obtain ⟨p, m, hp, hattached⟩ :=
      Session.attachment_of_supplied hnew hcover (hsupplies f.params (h.usable hold) hcover)
    rw [hsame, hdue, hattached, htopdue]
    exact (h.covered f hold hcover).fed (fun hwas hrun => h.kept.due hwas f hold hrun) hp hvideo

theorem start {s : Session host} {uri : String} {options : Options S} {screen : host.Screen}
    {now : S} (hopen : Session.open host uri options screen now = .ok s) :
    (Recorded.start s).CoverKept s.source.streams := by
  refine ⟨.start hopen, .start hopen, fun f hf _ => ?_⟩
  obtain ⟨p, hp, rfl⟩ := Option.map_eq_some_iff.1 hf
  have hvideo : s.video.isSome = true := Option.isSome_iff_exists.2 ⟨p, hp⟩
  have hdue : s.attachmentDue = true := Session.due_open hopen hvideo
  have hcovered := Covered.opened host false p.flow
  rw [← hdue] at hcovered
  exact hcovered

/-- A switch to another stream makes the picture due, and one of sound changes nothing. -/
theorem covered_cycleStream (h : t.CoverKept streams) {kind : MediaKind}
    (hswitch : t.session.switches kind = true) (now : S)
    {f' : Flow S host.VideoCodec DecodedPicture (VideoFrame S)}
    (hf : (t.session.cycleStream kind now).2.flows.video = some f')
    (hcover : f'.params.attachedPicture = true) :
    Covered host (t.session.cycleStream kind now).2.attachmentDue
      (t.perform now (.cycleStream kind)).video f' := by
  cases kind with
  | video =>
    obtain ⟨p, hp, rfl⟩ := Option.map_eq_some_iff.1 hf
    have hdue := Session.due_cycleVideo hswitch now (Option.isSome_iff_exists.2 ⟨p, hp⟩)
    have hopened : (t.perform now (.cycleStream .video)).video = .opened t.session.atEnd :=
      if_pos hswitch
    rw [hdue, hopened]
    exact .opened host _ _
  | audio =>
    obtain ⟨a, -, hflows⟩ := Session.flows_cycleAudio hswitch now
    have hreader := Session.readerState_cycleAudio hswitch now
    have hdue : (t.session.cycleStream .audio now).2.attachmentDue = t.session.attachmentDue :=
      congrArg ReaderState.attachmentDue hreader
    have hold : t.session.flows.video = some f' := (congrArg Flows.video hflows).symm.trans hf
    rw [hdue]
    exact h.covered f' hold hcover

theorem covered_perform (h : t.CoverKept streams) (hsupplies : host.SuppliesPictures streams)
    (now : S) (action : Session.Action)
    {f' : Flow S host.VideoCodec DecodedPicture (VideoFrame S)}
    (hf : (t.session.perform now action).flows.video = some f')
    (hcover : f'.params.attachedPicture = true) :
    Covered host (t.perform now action).session.attachmentDue (t.perform now action).video f' := by
  -- nothing is accepted, and whether the picture is due stays as it is
  have hbehind (hdown : action.isDownstream = true) (hstart : action ≠ .start) :
      Covered host (t.session.perform now action).attachmentDue t.video f' := by
    have hreader := Session.readerState_perform (s := t.session) hdown hstart now
    have hdue : (t.session.perform now action).attachmentDue = t.session.attachmentDue :=
      congrArg ReaderState.attachmentDue hreader
    have hmoves := Session.downstream_perform h.kept.forced now hdown
    obtain ⟨f, hold, hparams, haborted⟩ := h.kept.source_of_downstream hmoves hf
    rw [hdue]
    exact (h.covered f hold (hparams ▸ hcover)).same hparams haborted
  cases action with
  | readerTurn => exact h.covered_readerTurn hsupplies now hf hcover
  | start =>
    have hflows : t.session.start.flows = t.session.flows := Session.flows_start
    have hdue : t.session.start.attachmentDue = t.session.attachmentDue := by
      unfold Session.start
      split <;> rfl
    have hold : t.session.flows.video = some f' := (congrArg Flows.video hflows).symm.trans hf
    exact hdue ▸ h.covered f' hold hcover
  | cycleStream kind =>
    cases hswitch : t.session.switches kind with
    | false =>
      rw [Recorded.perform_of_stays hswitch]
      have hstays : t.session.perform now (.cycleStream kind) = t.session := by
        rw [Session.perform, Session.cycleStream_of_stays hswitch]
      rw [hstays] at hf
      exact h.covered f' hf hcover
    | true =>
      rw [session_perform]
      exact h.covered_cycleStream hswitch now hf hcover
  | abort =>
    have haborted : t.session.abort.flows.video = some f' := hf
    rw [Session.flows_abort] at haborted
    obtain ⟨f, hold, rfl⟩ := Option.map_eq_some_iff.1 haborted
    refine (h.covered f hold hcover).same rfl fun hrun => ?_
    cases hrun
  | close =>
    have hclosed : t.session.close.flows.video = some f' := hf
    rw [Session.flows_close] at hclosed
    cases hclosed
  | _ => exact hbehind rfl (by simp)

theorem perform (h : t.CoverKept streams) (hsupplies : host.SuppliesPictures streams) (now : S)
    (action : Session.Action) : (t.perform now action).CoverKept streams := by
  refine ⟨h.kept.perform now action, ?_, fun f hf hcover => ?_⟩
  · rw [session_perform]
    exact h.plays.perform now action
  · rw [session_perform] at hf
    exact h.covered_perform hsupplies now action hf hcover

theorem run (h : t.CoverKept streams) (hsupplies : host.SuppliesPictures streams)
    (actions : List (S × Session.Action)) : (t.run actions).CoverKept streams := by
  induction actions generalizing t with
  | nil => exact h
  | cons a actions ih => exact ih (h.perform hsupplies a.1 a.2)

theorem covered_stream (h : t.CoverKept streams) {v : Stream S (VideoFrame S)}
    (hv : t.session.videoStream = some v) (hcover : v.params.attachedPicture = true) :
    CoverEntries host v.params.index t.video.entries ∧
      (t.session.attachmentDue = false → v.packets.aborted = false → t.video.entries ≠ []) := by
  obtain ⟨p, hp, rfl⟩ := Option.map_eq_some_iff.1 hv
  have hflow : t.session.flows.video = some p.flow := congrArg (Option.map Pipeline.flow) hp
  exact ⟨(h.covered _ hflow hcover).entries, (h.covered _ hflow hcover).accepted⟩

end CoverKept

end Recorded

/-- A turn that gets past the top of the loop leaves no picture due. -/
theorem Session.due_readerTurn {S : Type} [Scalar S] {host : Host S} {s : Session host} {now : S}
    (h : s.passesTop now = true) : (s.readerTurn now).attachmentDue = false := by
  rcases s.readerTurn_cases now with ⟨hnot, -⟩ | ⟨-, -, -, -, -, -, -, hdue⟩
  · cases hnot.symm.trans h
  · exact hdue

/-- Where the container has the pictures of its streams, the queue of a stream with a single picture
accepts in each epoch at most one packet, which is this picture, with the end right behind it. After
every turn of the reader that was not ended by an abort or a failed seek before it came to that, a
queue that works has accepted it. -/
theorem cover_queued_once {S : Type} [Scalar S] {host : Host S} {uri : String}
    {options : Options S} {screen : host.Screen} {opened : S} {s : Session host}
    (hopen : Session.open host uri options screen opened = .ok s)
    (hsupplies : host.SuppliesPictures s.source.streams)
    (actions : List (S × Session.Action)) :
    let t := (Recorded.start s).run actions
    t.session = s.run actions ∧
    (∀ v, t.session.videoStream = some v → v.params.attachedPicture = true →
      CoverEntries host v.params.index t.video.entries) ∧
    ∀ now, t.session.passesTop now = true →
      let t' := t.perform now .readerTurn
      ∀ v, t'.session.videoStream = some v → v.params.attachedPicture = true →
        v.packets.aborted = false → ∃ p, .data p ∈ t'.video.entries := by
  intro t
  have hkept : t.CoverKept s.source.streams :=
    (Recorded.CoverKept.start hopen).run hsupplies actions
  refine ⟨Recorded.session_run _ actions,
    fun v hv hcover => (hkept.covered_stream hv hcover).1, fun now hpasses => ?_⟩
  intro t' v hv hcover hrun
  obtain ⟨hentries, haccepted⟩ :=
    (hkept.perform hsupplies now .readerTurn).covered_stream hv hcover
  exact hentries.exists_data (haccepted (Session.due_readerTurn hpasses) hrun)

namespace CoverScript

open PictureScript in
/-- A source with a stream of pictures and a cover; one of its seeks may fail. -/
def host (seekFailsAt : Option Nat) : Host Rat :=
  let script := PictureScript.script 2 #[.row (row 0)] none
  let cover := { row 1 with packet := { (row 1).packet with stream := 1 } }
  Host.scripted
    { script with
      info :=
        { script.info with
          streams := script.info.streams.map fun p => { p with attachedPicture := p.index = 1 } }
      attached := some cover
      seekFailsAt := seekFailsAt } {}

theorem suppliesPictures {seekFailsAt : Option Nat} {s : Session (host seekFailsAt)}
    (hopen : Session.open (host seekFailsAt) "" {} (0 : Nat) 0 = .ok s) :
    (host seekFailsAt).SuppliesPictures s.source.streams := by
  cases hopen
  intro p hp hcover m
  have hlist : p ∈ [StreamParams.video 0 ⟨1, 25⟩ 8 4 ⟨25, 1⟩,
      { StreamParams.video 1 ⟨1, 25⟩ 8 4 ⟨25, 1⟩ with attachedPicture := true }] :=
    (StreamParams.mem_usable.1 hp).1
  simp only [List.mem_cons, List.not_mem_nil, or_false] at hlist
  rcases hlist with rfl | rfl
  · cases hcover
  · rfl

/-- The cover is switched to, and a seek is asked for. -/
def asked : List (Rat × Session.Action) :=
  [(0, .start), (0, .cycleStream .video), (0, .seek 400)]

/-- The cover is switched to when playback was aborted already. -/
def aborted : List (Rat × Session.Action) :=
  [(0, .start), (0, .abort), (0, .cycleStream .video)]

/-- The first turn of the reader after some actions leaves an open cover without its picture,
although the epoch is the same and the queue works. -/
def Missed (seekFailsAt : Option Nat) (actions : List (Rat × Session.Action)) : Prop :=
  ∃ s, Session.open (host seekFailsAt) "" {} (0 : Nat) 0 = .ok s ∧
    (host seekFailsAt).SuppliesPictures s.source.streams ∧
    let t := (Recorded.start s).run actions
    let t' := t.perform 0 .readerTurn
    t.session.reader = .running false ∧
      t.session.videoStream.map (·.packets.serial) = some 1 ∧
      t'.session.videoStream.map
        (fun v => (v.params.attachedPicture, v.packets.aborted, v.packets.serial)) =
          some (true, false, 1) ∧
      t'.video.entries = []

end CoverScript

/-- After a seek the cover is queued again. -/
theorem cover_queued_once_sought :
    ∃ s, Session.open (CoverScript.host none) "" {} (0 : Nat) 0 = .ok s ∧
      (CoverScript.host none).SuppliesPictures s.source.streams ∧
      let t := (Recorded.start s).run CoverScript.asked
      let t' := t.perform 0 .readerTurn
      t.session.passesTop 0 = true ∧ ∃ v, t'.session.videoStream = some v ∧
        v.params.attachedPicture = true ∧ v.packets.aborted = false ∧ v.packets.serial = 2 ∧
        CoverEntries (CoverScript.host none) v.params.index t'.video.entries ∧
        ∃ p, .data p ∈ t'.video.entries := by
  have hopen : ∃ s, Session.open (CoverScript.host none) "" {} (0 : Nat) 0 = .ok s ∧
      let t := (Recorded.start s).run CoverScript.asked
      t.session.passesTop 0 = true ∧
        (t.perform 0 .readerTurn).session.videoStream.map
          (fun v => (v.params.attachedPicture, v.packets.aborted, v.packets.serial)) =
            some (true, false, 2) := ⟨_, rfl, by decide +kernel⟩
  obtain ⟨s, hs, hpasses, hstream⟩ := hopen
  have hsupplies := CoverScript.suppliesPictures hs
  obtain ⟨v, hv, hfields⟩ := Option.map_eq_some_iff.1 hstream
  simp only [Prod.mk.injEq] at hfields
  obtain ⟨hcover, hrun, hserial⟩ := hfields
  obtain ⟨-, -, hdata⟩ := cover_queued_once hs hsupplies CoverScript.asked
  obtain ⟨-, hentries, -⟩ :=
    cover_queued_once hs hsupplies (CoverScript.asked ++ [(0, .readerTurn)])
  exact ⟨s, hs, hsupplies, hpasses, v, hv, hcover, hrun, hserial, hentries v hv hcover,
    hdata 0 hpasses v hv hcover hrun⟩

/-- A turn whose seek fails ends the loop, and so does one after an abort. Neither comes to the
picture. -/
theorem cover_missed :
    CoverScript.Missed (some 0) CoverScript.asked ∧
      CoverScript.Missed none CoverScript.aborted := by
  refine ⟨⟨_, rfl, CoverScript.suppliesPictures rfl, ?_⟩,
    ⟨_, rfl, CoverScript.suppliesPictures rfl, ?_⟩⟩
  · decide +kernel
  · decide +kernel

end Playback
