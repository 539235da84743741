import Playback.Media.Stream

/-!
# Failures

What can go wrong during playback, by where it starts: a queue that was aborted, a codec that
rejects data, a source that cannot be read, samples that cannot be converted. `PlaybackFailure`
is their union, as a session reports it. Each type has a `name` for its causes and its `message`;
a `SourceFailure` also has the `code` that is reported when playback ends because of it.
-/

namespace Playback

/-- A codec rejected its input. -/
inductive CodecFailure where
  /-- The codec could not be set up for a stream. -/
  | cannotOpen (reason : String)
  /-- The codec could not decode a packet. -/
  | cannotDecode (reason : String)
  deriving DecidableEq

/-- The cause of a codec's failure in one word. -/
def CodecFailure.name : CodecFailure → String
  | cannotOpen _ => "codec_open"
  | cannotDecode _ => "codec_decode"

/-- The text of a codec's failure. -/
def CodecFailure.message : CodecFailure → String
  | cannotOpen reason => "codec open failed: " ++ reason
  | cannotDecode reason => "decode failed: " ++ reason

/-- A source could not be opened, read or moved. -/
inductive SourceFailure where
  | cannotOpen (uri reason : String)
  | cannotRead (reason : String)
  | cannotSeek (reason : String)
  /-- No stream of the source could be opened. -/
  | noStreams
  /-- The end of the source, reported as a failure. -/
  | endOfFile
  deriving DecidableEq

namespace SourceFailure

/-- The cause of a source's failure in one word. -/
def name : SourceFailure → String
  | cannotOpen _ _ => "source_open"
  | cannotRead _ => "source_read"
  | cannotSeek _ => "source_seek"
  | noStreams => "no_streams"
  | endOfFile => "end_of_file"

/-- The text of a source's failure. -/
def message : SourceFailure → String
  | cannotOpen uri reason => "failed to open source " ++ uri ++ ": " ++ reason
  | cannotRead reason => "read failed: " ++ reason
  | cannotSeek reason => "seek failed: " ++ reason
  | noStreams => "no playable stream in source"
  | endOfFile => "end of file"

/-- The number reported when playback ends because of the failure. -/
def code : SourceFailure → Int
  | cannotOpen _ _ => -2
  | cannotRead _ => -5
  | cannotSeek _ => -22
  | noStreams => -1
  | endOfFile => -541478725

end SourceFailure

/-- Samples could not be converted. -/
inductive ConversionFailure where
  /-- One of the formats cannot be converted. -/
  | unsupported (source target : String)
  /-- A block holds less than it says. -/
  | malformed (reason : String)
  deriving DecidableEq

/-- The cause of a conversion's failure in one word. -/
def ConversionFailure.name : ConversionFailure → String
  | unsupported _ _ => "unsupported"
  | malformed _ => "malformed_input"

/-- The text of a conversion's failure. -/
def ConversionFailure.message : ConversionFailure → String
  | unsupported source target => "unsupported conversion from " ++ source ++ " to " ++ target
  | malformed reason => "malformed input: " ++ reason

/-- Any failure of a playback session. -/
inductive PlaybackFailure where
  /-- A queue was aborted: playback is being shut down. -/
  | aborted
  /-- The decoder of one stream failed. -/
  | decoding (kind : MediaKind) (cause : CodecFailure)
  | source (cause : SourceFailure)
  | conversion (cause : ConversionFailure)
  /-- The presentation layer took no picture buffer. -/
  | noPictureBuffer
  deriving DecidableEq

namespace PlaybackFailure

/-- The cause of a session's failure in one word. -/
def name : PlaybackFailure → String
  | aborted => "queue_aborted"
  | decoding _ _ => "decode"
  | source cause => cause.name
  | conversion cause => cause.name
  | noPictureBuffer => "allocation_timeout"

/-- The text of a session's failure. -/
def message : PlaybackFailure → String
  | aborted => "queue aborted"
  | decoding kind cause => kind.name ++ " decode error: " ++ cause.message
  | source cause => cause.message
  | conversion cause => cause.message
  | noPictureBuffer => "presentation handler did not allocate a video buffer"

/-- Holds of the failures that only say that playback is being shut down. -/
def isShutdown : PlaybackFailure → Bool
  | aborted | noPictureBuffer => true
  | _ => false

end PlaybackFailure

/-- Why playback ended. -/
inductive QuitStatus where
  /-- Everything was played and the session was to end then. -/
  | endOfStream
  /-- The source failed. -/
  | failed (code : Int) (message : String)
  deriving DecidableEq

/-- The status of a session that ends because its source failed. -/
def QuitStatus.ofFailure (e : SourceFailure) : QuitStatus :=
  failed e.code e.message

end Playback
