import QcapDemos.Lib.Run
import QcapDemos.Lib.Ring
import QcapDemos.Lib.Ledger
import QcapDemos.Lib.Seqlock
import QcapDemos.Lib.AnnexB
import QcapDemos.Lib.Lifecycle
import QcapDemos.Lib.Mutex
import QcapDemos.Lib.Cut
import QcapDemos.Lib.AvcRecord
import QcapDemos.Lib.FirstBest
import QcapDemos.Lib.Champion
import QcapDemos.Lib.CString
import QcapDemos.Lib.Ticks
import QcapDemos.Lib.Serial
import QcapDemos.Lib.Steps
import QcapDemos.Lib.Raster
import QcapDemos.Lib.Holdings
import QcapDemos.Lib.Proc
import QcapDemos.Pcm.WriteQueue
import QcapDemos.Pcm.Playback
import QcapDemos.Pcm.Discipline
import QcapDemos.Resync.Policy
import QcapDemos.Resync.RateLimit
import QcapDemos.Resync.Evidence
import QcapDemos.Drm.Mode
import QcapDemos.Drm.Kernel
import QcapDemos.Drm.Letterbox
import QcapDemos.Drm.Selection
import QcapDemos.Drm.Startup
import QcapDemos.Alsa.Control
import QcapDemos.Rx.Context
import QcapDemos.Rx.Modeset
import QcapDemos.Rx.Atomic
import QcapDemos.Rx.Resync
import QcapDemos.Rx.Avh
import QcapDemos.Rx.Dau
import QcapDemos.Rx.Loop
import QcapDemos.Rx.Ownership
import QcapDemos.Rx.Quiet
import QcapDemos.Rx.Moves
import QcapDemos.Rx.Mirror
import QcapDemos.Rx.Lock
import QcapDemos.Rx.Reply
import QcapDemos.Rx.Acquire
import QcapDemos.Rx.Timing
import QcapDemos.Rx.Choice
import QcapDemos.Rx.Uevent
import QcapDemos.Rx.Edid
import QcapDemos.Probe.Decode
import QcapDemos.Probe.Capture
import QcapDemos.Probe.Requested
import QcapDemos.Probe.Session
import QcapDemos.Probe.Reference
import QcapDemos.Fixture.AnnexB
import QcapDemos.Fixture.Avcc
import QcapDemos.Fixture.Load
import QcapDemos.Fixture.Decode
import QcapDemos.Fixture.VdecBench
import QcapDemos.Rx.Keyframe
import QcapDemos.Tx.OnDmx
import QcapDemos.Tx.Start
import QcapDemos.Tx.QcapServer
import QcapDemos.Tx.DanteServer
import QcapDemos.Tx.Teardown
import QcapDemos.Tx.Publish
import QcapDemos.Tx.AudioFrame
import QcapDemos.Tx.Venc
import QcapDemos.Tx.NalScan
import QcapDemos.Decoder.State
import QcapDemos.Decoder.Machine
import QcapDemos.Decoder.Locks
import QcapDemos.Decoder.Phases
import QcapDemos.Decoder.Gate
import QcapDemos.Decoder.Deadlock
import QcapDemos.Decoder.Freeze
import QcapDemos.Decoder.Stats
import QcapDemos.Decoder.Display
import QcapDemos.Decoder.Rtsp
import QcapDemos.Zz.TickCtrl
import QcapDemos.Zz.Number
import QcapDemos.Zz.Qdmabuf
import QcapDemos.Zz.WaitFinish
import QcapDemos.Tools.Udptest
import QcapDemos.Tools.ZdevTicks
import QcapDemos.Rate.Driver
import QcapDemos.Rate.Modeset
import QcapDemos.Rate.Reading
import QcapDemos.Rate.Plan
import QcapDemos.Rate.Rollback
import QcapDemos.Fixture.Bench
import QcapDemos.Rx.Join
import QcapDemos.Rx.MediaClients
import QcapDemos.Diag.Drm
import QcapDemos.Diag.Prepare
import QcapDemos.Diag.LocalModeset
import QcapDemos.Pcm.Trace
import QcapDemos.Fixture.Encode
import QcapDemos.Fixture.RoundTrip
import QcapDemos.Rx.Screen
import QcapDemos.Rx.CommandLine
