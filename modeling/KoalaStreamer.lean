import KoalaStreamer.BandwidthFactor
import KoalaStreamer.CleanIf
import KoalaStreamer.CleaningRoom
import KoalaStreamer.DestroyQueues
import KoalaStreamer.EncodedPackets
import KoalaStreamer.EncoderObjects
import KoalaStreamer.EncoderStage
import KoalaStreamer.FiFoRefinement
import KoalaStreamer.FrameOwnership
import KoalaStreamer.FramePopulation
import KoalaStreamer.InputStatistics
import KoalaStreamer.ListenerEvents
import KoalaStreamer.MediaMuxer
import KoalaStreamer.MuxMerge
import KoalaStreamer.MuxRefinement
import KoalaStreamer.MuxSkew
import KoalaStreamer.MuxThreadStart
import KoalaStreamer.MuxTimeline
import KoalaStreamer.MuxerOpen
import KoalaStreamer.MuxerRerun
import KoalaStreamer.MuxerSession
import KoalaStreamer.OptionHeap
import KoalaStreamer.OptionUpdate
import KoalaStreamer.PcmBlocks
import KoalaStreamer.PipelineBlocking
import KoalaStreamer.PipelineOrder
import KoalaStreamer.ReadRouting
import KoalaStreamer.RecycledFrames
import KoalaStreamer.ResetStatistics
import KoalaStreamer.ShutdownProgress
import KoalaStreamer.ShutdownReturns
import KoalaStreamer.BitRatesApart
import KoalaStreamer.StreamerProgress
import KoalaStreamer.StreamerRelease
import KoalaStreamer.TimedWait
import KoalaStreamer.VideoEgress
import KoalaStreamer.WorkerThread
