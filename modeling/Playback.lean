import Playback.Buffer.FrameRing
import Playback.Buffer.PacketQueue
import Playback.Buffer.Reply
import Playback.Decoding.Codec
import Playback.Decoding.Decoder
import Playback.Decoding.Stream
import Playback.Failure
import Playback.Media.Frame
import Playback.Media.Ratio
import Playback.Media.Samples
import Playback.Media.Stream
import Playback.Pcm.Conversion
import Playback.Pcm.Interpolation
import Playback.Pcm.Sample
import Playback.Pcm.Volume
import Playback.Proofs.Buffer.QueueEpochs
import Playback.Proofs.Buffer.QueueLedger
import Playback.Proofs.Buffer.RingContents
import Playback.Proofs.Buffer.RingFifo
import Playback.Proofs.Buffer.Wakeups
import Playback.Proofs.Decoding.Completeness
import Playback.Proofs.Decoding.Discipline
import Playback.Proofs.Decoding.EpochEnd
import Playback.Proofs.Decoding.Provenance
import Playback.Proofs.Decoding.Steps
import Playback.Proofs.Decoding.Timestamps
import Playback.Proofs.Media.StreamOrder
import Playback.Proofs.Pcm.Conversion
import Playback.Proofs.Pcm.Interpolation
import Playback.Proofs.Pcm.Volume
import Playback.Proofs.Report.Drifts
import Playback.Proofs.Scalar.Order
import Playback.Proofs.Scalar.Rounding
import Playback.Proofs.Session.AutoExit
import Playback.Proofs.Session.ChapterSeeks
import Playback.Proofs.Session.ClockEpochs
import Playback.Proofs.Session.ClockMoves
import Playback.Proofs.Session.ClockState
import Playback.Proofs.Session.ClosedSession
import Playback.Proofs.Session.Consumption
import Playback.Proofs.Session.CoverArt
import Playback.Proofs.Session.Dealings
import Playback.Proofs.Session.DisplayState
import Playback.Proofs.Session.DisplayedPicture
import Playback.Proofs.Session.Downstream
import Playback.Proofs.Session.EarlyDrops
import Playback.Proofs.Session.EndOfSource
import Playback.Proofs.Session.EpochRecords
import Playback.Proofs.Session.ExactClocks
import Playback.Proofs.Session.ExternalClock
import Playback.Proofs.Session.FrameTimer
import Playback.Proofs.Session.GenuineFlows
import Playback.Proofs.Session.OpenStreams
import Playback.Proofs.Session.PausedSession
import Playback.Proofs.Session.PictureAccounts
import Playback.Proofs.Session.PictureBook
import Playback.Proofs.Session.PictureFlow
import Playback.Proofs.Session.PlayedSound
import Playback.Proofs.Session.QueuedBytes
import Playback.Proofs.Session.ReaderCalls
import Playback.Proofs.Session.ReaderFailures
import Playback.Proofs.Session.ReaderTurns
import Playback.Proofs.Session.RefreshLoop
import Playback.Proofs.Session.RingOrder
import Playback.Proofs.Session.RingProgress
import Playback.Proofs.Session.SeekBarrier
import Playback.Proofs.Session.SeekRanges
import Playback.Proofs.Session.Shutdown
import Playback.Proofs.Session.SilentStreams
import Playback.Proofs.Session.SingleStep
import Playback.Proofs.Session.SoundLoop
import Playback.Proofs.Session.SplitFills
import Playback.Proofs.Session.StandingClocks
import Playback.Proofs.Session.StreamHistory
import Playback.Proofs.Session.StreamSwitches
import Playback.Proofs.Synthetic.Interleaving
import Playback.Proofs.Synthetic.Seeking
import Playback.Proofs.Synthetic.Supply
import Playback.Proofs.Timing.ClockAnchors
import Playback.Proofs.Timing.ClockContinuity
import Playback.Proofs.Timing.DriftCorrector
import Playback.Proofs.Timing.ExternalSpeed
import Playback.Proofs.Timing.TargetDelay
import Playback.Report.Fixed
import Playback.Report.Metrics
import Playback.Report.Statistics
import Playback.Scalar
import Playback.Scalar.Exact
import Playback.Session.Basic
import Playback.Session.Callback
import Playback.Session.DecodeLoop
import Playback.Session.Host
import Playback.Session.Opening
import Playback.Session.Output
import Playback.Session.Overview
import Playback.Session.Presentation
import Playback.Session.Reading
import Playback.Session.Refresh
import Playback.Session.Run
import Playback.Session.Simulation
import Playback.Session.Transport
import Playback.Session.Workers
import Playback.Settings.Json
import Playback.Settings.Options
import Playback.Settings.Value
import Playback.Source.Container
import Playback.Source.Scripted
import Playback.Synthetic.Codec
import Playback.Synthetic.Config
import Playback.Synthetic.Container
import Playback.Synthetic.Layout
import Playback.Timing.Clock
import Playback.Timing.DriftCorrector
import Playback.Timing.ExternalSpeed
import Playback.Timing.FrameDuration
import Playback.Timing.ManualTime
import Playback.Timing.TargetDelay
