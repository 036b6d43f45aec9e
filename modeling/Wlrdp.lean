import Wlrdp.AudioNegotiation
import Wlrdp.CapsNegotiation
import Wlrdp.CaptureBuffers
import Wlrdp.CaptureChains
import Wlrdp.ChannelLifecycle
import Wlrdp.ChannelOpening
import Wlrdp.ClipboardConvergence
import Wlrdp.ClipboardDeadlock
import Wlrdp.ClipboardFreshness
import Wlrdp.ClipboardMemory
import Wlrdp.ClipboardTransfers
import Wlrdp.CodecAgreement
import Wlrdp.CodecSwitches
import Wlrdp.CompositorExits
import Wlrdp.DaemonChildren
import Wlrdp.DescriptorCensus
import Wlrdp.DisplayFiles
import Wlrdp.DisplayHandshake
import Wlrdp.DisplayNames
import Wlrdp.EchoSuppression
import Wlrdp.EncoderLifecycle
import Wlrdp.EndpointHandover
import Wlrdp.FallbackCompleteness
import Wlrdp.FrameGeometry
import Wlrdp.FramePacing
import Wlrdp.GfxReadiness
import Wlrdp.InputIsolation
import Wlrdp.IpcDecoding
import Wlrdp.IpcRoundTrip
import Wlrdp.KeyIndependence
import Wlrdp.KillTargets
import Wlrdp.LaunchSoundness
import Wlrdp.LogonRouting
import Wlrdp.OfferRecords
import Wlrdp.OrderlyShutdown
import Wlrdp.PixelSizes
import Wlrdp.ProcessTrees
import Wlrdp.RegistryInvariants
import Wlrdp.ResizeOrder
import Wlrdp.ResizeSanitising
import Wlrdp.Scrolling
import Wlrdp.SessionDirectories
import Wlrdp.SessionIsolation
import Wlrdp.SharedMemoryNames
import Wlrdp.SizeCoherence
import Wlrdp.SplitTransfers
import Wlrdp.StatusReports
import Wlrdp.StopRequests
import Wlrdp.StreamContinuity
import Wlrdp.SurfaceLifecycle
import Wlrdp.TreeInvariants
import Wlrdp.TreeShutdown
