import MwStreamer.Platform.QueueRuns
import MwStreamer.Syncer.ForwardJumps
import MwStreamer.Encoder.CodecPath
import MwStreamer.Recorder.Accounting
import MwStreamer.Remuxer.CommonShift
import MwStreamer.Scheduler.Signals
import MwStreamer.Scheduler.Drain
import MwStreamer.Remuxer.ExactlyOnce
import MwStreamer.Remuxer.Registrations
import MwStreamer.Input.AvInput
import MwStreamer.Scheduler.RealtimeTiming
import MwStreamer.Remuxer.ConfigurationRecord
import MwStreamer.Remuxer.NalFiltering
import MwStreamer.FrameConvter.Lending
import MwStreamer.Pipeline.OfflineRuns
import MwStreamer.Filter.AvMediaFilter
import MwStreamer.Filter.FilterSession
import MwStreamer.Library.Blocks
import MwStreamer.Filter.BlockPartition
import MwStreamer.Filter.FixedBlocks
import MwStreamer.Decoder.RunLaw
import MwStreamer.Pipeline.ForwardingRuns
import MwStreamer.Pipeline.RemuxWorker
import MwStreamer.Pipeline.Stops
import MwStreamer.Input.ProxySteps
import MwStreamer.Input.ProxyStages
import MwStreamer.Input.ProxyThreads
import MwStreamer.Input.ProxyReads
import MwStreamer.Input.ProxyEnds
import MwStreamer.Input.ProxyDelivery
import MwStreamer.Input.ProxyLaw
import MwStreamer.Input.ProxyLoss
import MwStreamer.Input.ProxyStop
import MwStreamer.Input.ProxyRelease
