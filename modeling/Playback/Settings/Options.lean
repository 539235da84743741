import Playback.Scalar
import Playback.Settings.Value

/-!
# Options of a session

`Options` is what a host may set before it opens a source, and `Options.read` reads it from a
configuration. Every field has a default, so a configuration names only what it changes.
-/

namespace Playback

/-- The clock that the other clocks follow. -/
inductive SyncMaster where
  | audio
  | video
  /-- A clock of its own, bound to no stream. -/
  | external
  deriving DecidableEq, Inhabited

namespace SyncMaster

/-- The master's name in configurations. -/
def name : SyncMaster → String
  | audio => "audio"
  | video => "video"
  | external => "external"

/-- The masters by name. -/
def choices : List (String × SyncMaster) :=
  [audio, video, external].map fun m => (m.name, m)

end SyncMaster

/-- When late pictures may be dropped. -/
inductive DropPolicy where
  /-- When the picture's clock is not the master. -/
  | auto
  | on
  | off
  deriving DecidableEq, Inhabited

namespace DropPolicy

/-- The policy's name in configurations. -/
def name : DropPolicy → String
  | auto => "auto"
  | on => "on"
  | off => "off"

/-- The policies by name. -/
def choices : List (String × DropPolicy) :=
  [auto, on, off].map fun p => (p.name, p)

/-- Whether pictures may be dropped while `master` leads. -/
def allows (policy : DropPolicy) (master : SyncMaster) : Bool :=
  match policy with
  | on => true
  | auto => master != .video
  | off => false

end DropPolicy

/-- Options of one session. -/
structure Options (S : Type) [Scalar S] where
  syncMaster : SyncMaster := .audio
  dropPolicy : DropPolicy := .auto
  /-- Read without regard to how much is queued; if not set, for live sources only. -/
  infiniteBuffer : Option Bool := none
  /-- End the session once every stream has been played out. -/
  autoExit : Bool := false
  /-- Seek by byte positions; if not set, for sources whose timestamps may jump. -/
  seekByBytes : Option Bool := none
  disableAudio : Bool := false
  disableVideo : Bool := false
  /-- Number of the preferred video stream. -/
  wantedVideo : Option Nat := none
  /-- Number of the preferred audio stream. -/
  wantedAudio : Option Nat := none
  /-- Payload bytes in all packet queues above which reading stops. -/
  maxQueueSize : Nat := 15 * 1024 * 1024
  /-- Entries that a queue must hold more of to count as full. -/
  minFrames : Nat := 25
  /-- Seconds to the next refresh if nothing is due. -/
  refreshRate : S := 0.01
  /-- Where to start, in seconds. -/
  startTime : Option S := none

namespace Options

/-- Names of the options, in order. -/
def fields : List String :=
  ["sync_master", "frame_drop", "infinite_buffer", "auto_exit", "seek_by_bytes", "disable_audio",
    "disable_video", "wanted_video_stream", "wanted_audio_stream", "max_queue_size", "min_frames",
    "refresh_rate", "start_time"]

/-- Reads options from a configuration. -/
def read (s : Setting) : Option (Options Float) := do
  let d : Options Float := {}
  let entries ← s.record fields
  return {
    syncMaster := ← Setting.field entries "sync_master" d.syncMaster
      (Setting.readChoice SyncMaster.choices)
    dropPolicy := ← Setting.field entries "frame_drop" d.dropPolicy
      (Setting.readChoice DropPolicy.choices)
    infiniteBuffer := ← Setting.field entries "infinite_buffer" d.infiniteBuffer
      (Setting.readOptional Setting.readBool)
    autoExit := ← Setting.field entries "auto_exit" d.autoExit Setting.readBool
    seekByBytes := ← Setting.field entries "seek_by_bytes" d.seekByBytes
      (Setting.readOptional Setting.readBool)
    disableAudio := ← Setting.field entries "disable_audio" d.disableAudio Setting.readBool
    disableVideo := ← Setting.field entries "disable_video" d.disableVideo Setting.readBool
    wantedVideo := ← Setting.field entries "wanted_video_stream" d.wantedVideo
      (Setting.readOptional (Setting.readNatural nat64Max))
    wantedAudio := ← Setting.field entries "wanted_audio_stream" d.wantedAudio
      (Setting.readOptional (Setting.readNatural nat64Max))
    maxQueueSize := ← Setting.field entries "max_queue_size" d.maxQueueSize
      (Setting.readNatural nat64Max)
    minFrames := ← Setting.field entries "min_frames" d.minFrames (Setting.readNatural nat64Max)
    refreshRate := ← Setting.field entries "refresh_rate" d.refreshRate Setting.readFloat
    startTime := ← Setting.field entries "start_time" d.startTime
      (Setting.readOptional Setting.readFloat) }

/-- Holds of options that are as they are by default. -/
def isDefault (o : Options Float) : Bool :=
  let d : Options Float := {}
  o.syncMaster == d.syncMaster && o.dropPolicy == d.dropPolicy &&
    o.infiniteBuffer == d.infiniteBuffer && o.autoExit == d.autoExit &&
    o.seekByBytes == d.seekByBytes && o.disableAudio == d.disableAudio &&
    o.disableVideo == d.disableVideo && o.wantedVideo == d.wantedVideo &&
    o.wantedAudio == d.wantedAudio && o.maxQueueSize == d.maxQueueSize &&
    o.minFrames == d.minFrames && o.refreshRate == d.refreshRate && o.startTime == d.startTime

end Options

end Playback
