import Playback.Proofs.Session.Consumption
import Playback.Proofs.Session.PictureFlow
import Playback.Proofs.Session.ReaderTurns

/-!
# Books on the pictures of a stream

A session is followed together with a book on its open video stream (`PictureBook`): the pictures
that the decoder has given out, and those that the display has taken from the ring, each with its
fate. The book begins anew with every video stream that is opened.

Throughout every run (`PictureBook.Kept.run`) the flow of pictures goes by the book, and the counts
of the session are those of the book.
-/

namespace Playback

open FrameRing

/-! ## Streams that were just opened -/

namespace Session

variable {S : Type} [Scalar S] {host : Host S} {s : Session host} {now : S}

/-- The ring of pictures is new, if there is one, and the decode loop begins. -/
def FreshPictures (s : Session host) : Prop :=
  ∀ f, s.flows.video = some f →
    f.frames = FrameRing.new pictureRingSize true ∧ f.worker = .running

theorem FreshPictures.openStream (h : s.FreshPictures) (p : StreamParams) (now : S) :
    (s.openStream p now).2.FreshPictures := by
  unfold Session.openStream
  split
  · unfold openVideo
    split
    · exact h
    · intro f hf
      obtain rfl := Option.some.inj hf
      exact ⟨rfl, rfl⟩
  · unfold openAudio
    dsimp only
    split
    · exact h
    · split <;> exact h

theorem freshPictures_open {uri : String} {options : Options S} {screen : host.Screen}
    (hopen : Session.open host uri options screen now = .ok s) : s.FreshPictures := by
  have hclosed (s : Session host) (hvideo : s.video = none) : s.FreshPictures := by
    intro f hf
    rw [flows, hvideo] at hf
    cases hf
  refine of_open hopen (fun source medium _ => ?_) fun s p h => h.openStream p now
  unfold seekStart
  split <;> exact hclosed _ rfl

theorem freshPictures_cycleVideo (h : s.switches .video = true) (now : S) :
    (s.cycleStream .video now).2.FreshPictures := by
  obtain ⟨p, -, hcycle⟩ := cycleStream_of_switches h now
  have hclosed : (s.closeStream .video).FreshPictures := by
    intro f hf
    rw [flows_closeStream] at hf
    cases hf
  rw [hcycle]
  exact hclosed.openStream p now

/-! ## A refresh and the ring -/

theorem accepts_eq (s : Session host) :
    s.accepts = (s.flows.forced && s.flows.video.any (·.frames.shown)) := by
  unfold accepts videoStream flows
  cases s.video <;> rfl

theorem passed_of_closed (h : s.flows.video = none) (now : S) : s.passed now = [] := by
  have hclosed : (s.adjusted now).videoStream = none := by
    have hflows : (s.adjusted now).flows.video = none := by rw [(s.adjusted_spec now).1, h]
    unfold videoStream
    rw [Option.map_eq_none_iff.1 hflows]
    rfl
  unfold passed passes
  dsimp only
  rw [hclosed]

/-- The looks have shown no picture, or the last picture that they have taken is on screen. -/
theorem looked_cases (hforced : s.refreshForced = false)
    (hbooks : ∀ f, s.flows.video = some f → ∃ returned taken l, f.Books returned taken l)
    (now : S) :
    (s.looked now).2.flows.forced = false ∧ (∀ x ∈ s.passed now, x.2 ≠ .shown) ∨
    ∃ v f passed, (s.looked now).2.flows.forced = true ∧
      (s.looked now).2.flows.video = some v ∧ v.frames.shown = true ∧
      v.frames.last? = some f ∧ s.passed now = passed ++ [(f, .shown)] ∧
      ∀ x ∈ passed, x.2 ≠ .shown := by
  obtain ⟨hflows, -, hpassed⟩ := loops_looked hforced now
  cases hany : (s.passed now).any (·.2 = .shown) with
  | false =>
    refine .inl ⟨(congrArg Flows.forced hflows).trans hany, fun x hx hshown => ?_⟩
    exact List.any_eq_false.1 hany x hx (decide_eq_true hshown)
  | true =>
    cases hv : s.flows.video with
    | none => simp [passed_of_closed hv] at hany
    | some v =>
      obtain ⟨returned, taken, l, hbooks⟩ := hbooks v hv
      obtain ⟨passed, f, htaken, hnot, -, hnext⟩ := (hpassed v hv).of_shown hany
      have hlength : (s.passed now).length = passed.length + 1 := by
        rw [htaken, List.length_append, List.length_singleton]
      have hring : advance^[(s.passed now).length] v.frames =
          (advance^[passed.length] v.frames).advance := by
        rw [hlength, Function.iterate_succ_apply']
      have hshown : (advance^[(s.passed now).length] v.frames).shown = true :=
        ((hbooks.onFrames (hpassed v hv)).holds.shown_of_taken hbooks.keeps
          (Nat.add_pos_right _ (by omega))).1
      have hcarries : (advance^[passed.length] v.frames).Carries fun _ => True :=
        (advances_iterate passed.length).consumes _ _ ⟨l, hbooks.holds, fun _ _ => trivial⟩
      have hlast : (advance^[(s.passed now).length] v.frames).last? = some f := by
        rw [hring] at hshown ⊢
        exact hcarries.last?_advance hnext hshown
      refine .inr ⟨v.onFrames _, f, passed, (congrArg Flows.forced hflows).trans hany,
        (congrArg Flows.video hflows).trans ?_, hshown, hlast, htaken, hnot⟩
      rw [Flows.onPictures, hv, Option.map_some]

/-- A refresh accepts a picture if and only if its looks have shown one, and then it is counted. -/
theorem accepts_looked (hforced : s.refreshForced = false)
    (hbooks : ∀ f, s.flows.video = some f → ∃ returned taken l, f.Books returned taken l)
    (now : S) :
    (s.looked now).2.accepts = (s.passed now).any (·.2 = .shown) ∧
      (s.looked now).2.accepts.toNat = (s.passed now).countP (·.2 = .shown) := by
  rw [accepts_eq]
  rcases looked_cases hforced hbooks now with
    ⟨hnot, hnone⟩ | ⟨v, f, passed, hforced', hv, hshown, -, htaken, hnone⟩
  · have hcount : (s.passed now).countP (·.2 = .shown) = 0 := by
      refine List.countP_eq_zero.2 fun x hx => ?_
      simpa using hnone x hx
    have hany : (s.passed now).any (·.2 = .shown) = false := by
      refine List.any_eq_false.2 fun x hx => ?_
      simpa using hnone x hx
    rw [hnot, hcount, hany]
    exact ⟨rfl, rfl⟩
  · have hcount : passed.countP (·.2 = .shown) = 0 := by
      refine List.countP_eq_zero.2 fun x hx => ?_
      simpa using hnone x hx
    rw [hforced', hv, Option.any_some, hshown, htaken, List.countP_append, hcount]
    simp

theorem accepted_iff (hforced : s.refreshForced = false)
    (hbooks : ∀ f, s.flows.video = some f → ∃ returned taken l, f.Books returned taken l)
    (now : S) (f : VideoFrame S) : s.accepted now = some f ↔ (f, .shown) ∈ s.passed now := by
  rw [accepted, movedTo_eq]
  rcases looked_cases hforced hbooks now with
    ⟨hnot, hnone⟩ | ⟨v, f', passed, hforced', hv, hshown, hlast, htaken, hnone⟩
  · rw [hnot]
    refine iff_of_false (by simp) fun hf => hnone _ hf rfl
  · rw [hforced', hv, Option.bind_some, hshown, hlast, htaken]
    constructor
    · intro hf
      obtain rfl := Option.some.inj hf
      exact List.mem_append_right _ (List.mem_singleton_self _)
    · intro hf
      rcases List.mem_append.1 hf with hf | hf
      · exact absurd rfl (hnone _ hf)
      · obtain rfl : f = f' := congrArg Prod.fst (List.mem_singleton.1 hf)
        rfl

end Session

/-! ## Sessions with their books -/

/-- A session with the book on its open video stream. -/
structure PictureBook {S : Type} [Scalar S] (host : Host S) where
  session : Session host
  /-- The pictures that the decoder has given out since the stream was opened. -/
  returned : List (Returned S)
  /-- The pictures that the display has taken from the ring since then, with their fates. -/
  taken : List (VideoFrame S × Fate)
  /-- What the display had counted when the stream was opened. -/
  base : DisplayState S

namespace PictureBook

variable {S : Type} [Scalar S] {host : Host S}

/-- A session whose video stream was just opened. -/
def start (s : Session host) : PictureBook host :=
  ⟨s, [], [], s.displayState⟩

/-- The effect of an action at the moment `now`. -/
def perform (b : PictureBook host) (now : S) (action : Session.Action) : PictureBook host :=
  let s := b.session.perform now action
  match action with
  | .videoStep =>
    { b with session := s, returned := b.returned ++ (b.session.returns now).toList }
  | .refresh => { b with session := s, taken := b.taken ++ b.session.passed now }
  | .cycleStream .video =>
    if b.session.switches .video then start s else { b with session := s }
  | _ => { b with session := s }

/-- The effect of a run. -/
def run (b : PictureBook host) (actions : List (S × Session.Action)) : PictureBook host :=
  actions.foldl (fun b a => b.perform a.1 a.2) b

theorem session_perform (b : PictureBook host) (now : S) (action : Session.Action) :
    (b.perform now action).session = b.session.perform now action := by
  unfold perform
  split
  · rfl
  · rfl
  · dsimp only
    split <;> rfl
  · rfl

theorem session_run (b : PictureBook host) (actions : List (S × Session.Action)) :
    (b.run actions).session = b.session.run actions :=
  (List.foldl_hom session fun b a => (b.session_perform a.1 a.2).symm).symm

/-- How many of the pictures have met a fate. -/
def fates (b : PictureBook host) (fate : Fate) : Nat :=
  b.taken.countP (·.2 = fate)

/-- How many of the pictures were dropped before the ring. -/
def drops (b : PictureBook host) : Nat :=
  b.returned.countP (·.dropped)

end PictureBook

/-- The flows and the counts of a session go by the book on its video stream. -/
structure Flows.Booked {S : Type} [Scalar S] {host : Host S} (fs : Flows host)
    (display : DisplayState S) (returned : List (Returned S)) (taken : List (VideoFrame S × Fate))
    (base : DisplayState S) : Prop where
  forced : fs.forced = false
  books : ∀ f, fs.video = some f → ∃ l, f.Books returned taken l
  early : display.earlyDrops = base.earlyDrops + returned.countP (·.dropped)
  late : display.lateDrops = base.lateDrops + taken.countP (·.2 = .late)
  displayed : display.displayed = base.displayed + taken.countP (·.2 = .shown)
  pending : display.pending = true → ∀ f, fs.video = some f → ∃ x ∈ taken, x.2 = .shown

namespace PictureBook

variable {S : Type} [Scalar S] {host : Host S} {b : PictureBook host}

/-- The book is right. -/
def Kept (b : PictureBook host) : Prop :=
  b.session.flows.Booked b.session.displayState b.returned b.taken b.base

namespace Kept

/-- Neither the flow of pictures nor the display takes part. -/
theorem of_sound {s : Session host} (h : b.Kept)
    {a : Option (Flow S host.AudioCodec DecodedAudio (AudioFrame S))}
    (hflows : s.flows = { b.session.flows with audio := a })
    (hdisplay : s.displayState = b.session.displayState) : Kept { b with session := s } := by
  rw [Kept, hflows, hdisplay]
  exact ⟨h.forced, h.books, h.early, h.late, h.displayed, h.pending⟩

theorem of_flows {s : Session host} (h : b.Kept) (hflows : s.flows = b.session.flows)
    (hdisplay : s.displayState = b.session.displayState) : Kept { b with session := s } :=
  h.of_sound hflows hdisplay

/-- There is a video stream no more. -/
theorem of_closed {s : Session host} (h : b.Kept) (hforced : s.flows.forced = false)
    (hvideo : s.flows.video = none) {pending : Bool}
    (hdisplay : s.displayState = { b.session.displayState with pending := pending }) :
    Kept { b with session := s } := by
  have hnone : ∀ f, s.flows.video ≠ some f := by simp [hvideo]
  refine ⟨hforced, fun f hf => absurd hf (hnone f), ?_, ?_, ?_,
    fun _ f hf => absurd hf (hnone f)⟩
  all_goals rw [hdisplay]
  · exact h.early
  · exact h.late
  · exact h.displayed

theorem fresh {s : Session host} (hforced : s.flows.forced = false) (hfresh : s.FreshPictures)
    (hpending : s.displayState.pending = false) : (PictureBook.start s).Kept := by
  refine ⟨hforced, fun f hf => ?_, rfl, rfl, rfl, fun hnot => ?_⟩
  · obtain ⟨hframes, hworker⟩ := hfresh f hf
    exact ⟨_, .fresh hframes hworker⟩
  · exact absurd (hpending.symm.trans hnot) Bool.false_ne_true

theorem start {s : Session host} {uri : String} {options : Options S} {screen : host.Screen}
    {now : S} (hopen : Session.open host uri options screen now = .ok s) :
    (PictureBook.start s).Kept := by
  obtain ⟨source, hdisplay⟩ := Session.displayState_open hopen
  refine fresh (Session.justOpened_open hopen).forced (Session.freshPictures_open hopen) ?_
  rw [hdisplay]

/-- The reader changes nothing but the packet queues. -/
theorem readerTurn (h : b.Kept) (now : S) : (b.perform now .readerTurn).Kept := by
  obtain ⟨video, audio, -, -, hflows⟩ := b.session.fed_readerTurn now
  have hdisplay : (b.session.readerTurn now).displayState = b.session.displayState :=
    Session.displayState_readerTurn
  refine ⟨(congrArg Flows.forced hflows).trans h.forced, fun f' hf' => ?_,
    hdisplay ▸ h.early, hdisplay ▸ h.late, hdisplay ▸ h.displayed, fun hpending f' hf' => ?_⟩
  all_goals
    have hfed := (congrArg Flows.video hflows).symm.trans hf'
    obtain ⟨f, hf, rfl⟩ := Option.map_eq_some_iff.1 hfed
  · obtain ⟨l, hbooks⟩ := h.books f hf
    exact ⟨l, hbooks.of_serial_le rfl rfl (f.packets.serial_le_fed _ _)⟩
  · exact h.pending (hdisplay ▸ hpending) f hf

theorem videoStep (h : b.Kept) (now : S) : (b.perform now .videoStep).Kept := by
  obtain ⟨v, hflows, hdisplay, hclosed, hworks⟩ := b.session.works_videoStep now
  -- a stream that is open after the step was open before
  have hopen : ∀ f', (b.session.videoStep now).2.flows.video = some f' →
      ∃ f, b.session.flows.video = some f ∧ f.Works (b.session.returns now) (some f') := by
    rw [hflows]
    rintro f' rfl
    cases hold : b.session.flows.video with
    | none => cases hclosed hold
    | some f => exact ⟨f, rfl, hworks f hold⟩
  refine ⟨(congrArg Flows.forced hflows).trans h.forced, fun f' hf' => ?_, ?_,
    (congrArg DisplayState.lateDrops hdisplay).trans h.late,
    (congrArg DisplayState.displayed hdisplay).trans h.displayed, fun hpending f' hf' => ?_⟩
  · obtain ⟨f, hf, hworks⟩ := hopen f' hf'
    obtain ⟨l, hbooks⟩ := h.books f hf
    exact hbooks.works hworks
  · calc (b.session.videoStep now).2.displayState.earlyDrops
        = b.session.displayState.earlyDrops +
            (b.session.returns now).toList.countP (·.dropped) :=
          congrArg DisplayState.earlyDrops hdisplay
      _ = b.base.earlyDrops +
            (b.returned ++ (b.session.returns now).toList).countP (·.dropped) := by
          rw [h.early, List.countP_append, Nat.add_assoc]
  · obtain ⟨f, hf, -⟩ := hopen f' hf'
    exact h.pending ((congrArg DisplayState.pending hdisplay).symm.trans hpending) f hf

theorem refresh (h : b.Kept) (now : S) : (b.perform now .refresh).Kept := by
  have hforced : b.session.refreshForced = false := h.forced
  have hflows := Session.flows_refresh_eq hforced now
  have hdisplay := Session.displayState_refresh hforced now
  obtain ⟨-, -, hpassed⟩ := Session.loops_looked hforced now
  obtain ⟨haccepts, hcount⟩ := Session.accepts_looked hforced
    (fun f hf => ⟨_, _, h.books f hf⟩) now
  refine ⟨(congrArg Flows.forced hflows).trans h.forced, fun f' hf' => ?_,
    (congrArg DisplayState.earlyDrops hdisplay).trans h.early, ?_, ?_, fun hpending f' hf' => ?_⟩
  · have hadvanced := (congrArg Flows.video hflows).symm.trans hf'
    obtain ⟨f, hf, rfl⟩ := Option.map_eq_some_iff.1 hadvanced
    obtain ⟨l, hbooks⟩ := h.books f hf
    exact ⟨_, hbooks.onFrames (hpassed f hf)⟩
  · calc (b.session.refresh now).2.displayState.lateDrops
        = b.session.displayState.lateDrops + (b.session.passed now).countP (·.2 = .late) :=
          congrArg DisplayState.lateDrops hdisplay
      _ = b.base.lateDrops + (b.taken ++ b.session.passed now).countP (·.2 = .late) := by
          rw [h.late, List.countP_append, Nat.add_assoc]
  · calc (b.session.refresh now).2.displayState.displayed
        = b.session.displayState.displayed + (b.session.looked now).2.accepts.toNat :=
          congrArg DisplayState.displayed hdisplay
      _ = b.base.displayed + (b.taken ++ b.session.passed now).countP (·.2 = .shown) := by
          rw [h.displayed, hcount, List.countP_append, Nat.add_assoc]
  · have hadvanced := (congrArg Flows.video hflows).symm.trans hf'
    obtain ⟨f, hf, rfl⟩ := Option.map_eq_some_iff.1 hadvanced
    have hboth := (congrArg DisplayState.pending hdisplay).symm.trans hpending
    rcases Bool.or_eq_true_iff.1 hboth with hold | hnew
    · obtain ⟨x, hx, hshown⟩ := h.pending hold f hf
      exact ⟨x, List.mem_append_left _ hx, hshown⟩
    · rw [haccepts] at hnew
      obtain ⟨x, hx, hshown⟩ := List.any_eq_true.1 hnew
      exact ⟨x, List.mem_append_right _ hx, of_decide_eq_true hshown⟩

theorem takePicture (h : b.Kept) : Kept { b with session := b.session.takePicture.2 } := by
  have hdisplay := Session.displayState_takePicture (s := b.session)
  have hflows := Session.flows_takePicture (s := b.session)
  refine ⟨(congrArg Flows.forced hflows).trans h.forced, ?_,
    (congrArg DisplayState.earlyDrops hdisplay).trans h.early,
    (congrArg DisplayState.lateDrops hdisplay).trans h.late,
    (congrArg DisplayState.displayed hdisplay).trans h.displayed, fun hpending => ?_⟩
  · rw [hflows]
    exact h.books
  · have hfalse := (congrArg DisplayState.pending hdisplay).symm.trans hpending
    cases hfalse

theorem abort (h : b.Kept) : Kept { b with session := b.session.abort } := by
  have hflows := b.session.flows_abort
  refine ⟨(congrArg Flows.forced hflows).trans h.forced, fun f' hf' => ?_, h.early, h.late,
    h.displayed, fun hpending f' hf' => ?_⟩
  all_goals
    have hstopped := (congrArg Flows.video hflows).symm.trans hf'
    obtain ⟨f, hf, rfl⟩ := Option.map_eq_some_iff.1 hstopped
  · obtain ⟨l, hbooks⟩ := h.books f hf
    exact ⟨_, hbooks.abort⟩
  · exact h.pending hpending f hf

theorem close (h : b.Kept) : Kept { b with session := b.session.close } := by
  have hflows := b.session.flows_close
  obtain ⟨pending, hdisplay⟩ := b.session.displayState_close
  exact h.of_closed ((congrArg Flows.forced hflows).trans h.forced)
    (congrArg Flows.video hflows) hdisplay

theorem cycleVideo (h : b.Kept) (now : S) : (b.perform now (.cycleStream .video)).Kept := by
  unfold PictureBook.perform
  dsimp only
  cases hswitch : b.session.switches .video with
  | false =>
    have hstays : b.session.perform now (.cycleStream .video) = b.session :=
      Session.cycleStream_of_stays hswitch now
    rw [hstays]
    exact h
  | true =>
    obtain ⟨v, -, hflows⟩ := Session.flows_cycleVideo hswitch now
    have hdisplay := Session.displayState_cycleVideo hswitch now
    exact fresh ((congrArg Flows.forced hflows).trans h.forced)
      (Session.freshPictures_cycleVideo hswitch now) (congrArg DisplayState.pending hdisplay)

theorem cycleAudio (h : b.Kept) (now : S) : (b.perform now (.cycleStream .audio)).Kept := by
  have hdisplay := b.session.displayState_cycleAudio now
  cases hswitch : b.session.switches .audio with
  | false =>
    have hstays := Session.cycleStream_of_stays hswitch now
    exact h.of_flows (congrArg Session.flows hstays) hdisplay
  | true =>
    obtain ⟨a, -, hflows⟩ := Session.flows_cycleAudio hswitch now
    exact h.of_sound hflows hdisplay

theorem perform (h : b.Kept) (now : S) (action : Session.Action) : (b.perform now action).Kept := by
  cases action with
  | readerTurn => exact h.readerTurn now
  | videoStep => exact h.videoStep now
  | refresh => exact h.refresh now
  | takePicture => exact h.takePicture
  | abort => exact h.abort
  | close => exact h.close
  | cycleStream kind =>
    cases kind with
    | video => exact h.cycleVideo now
    | audio => exact h.cycleAudio now
  | audioStep =>
    obtain ⟨a, hflows, -⟩ := b.session.moves_audioTurn true now
    exact h.of_sound hflows (Session.displayState_audioTurn true)
  | audioDecode =>
    obtain ⟨a, hflows, -⟩ := b.session.moves_audioTurn false now
    exact h.of_sound hflows (Session.displayState_audioTurn false)
  | fill count volume =>
    obtain ⟨g, -, hflows⟩ := b.session.flows_fill count volume now
    exact h.of_sound hflows (Session.displayState_fill count volume)
  | start => exact h.of_flows Session.flows_start Session.displayState_start
  | togglePause => exact h.of_flows Session.flows_togglePause rfl
  | step => exact h.of_flows Session.flows_step Session.displayState_step
  | seek _ | seekChapter _ | nextChunk | previousChunk =>
    exact h.of_flows (Session.flows_request rfl) (Session.displayState_request rfl)

theorem run (h : b.Kept) (actions : List (S × Session.Action)) : (b.run actions).Kept := by
  induction actions generalizing b with
  | nil => exact h
  | cons a actions ih => exact ih (h.perform a.1 a.2)

end Kept

end PictureBook

end Playback
