import Trout.Runs
import Trout.GridRounding
import Trout.BoundedFifo
import Trout.VbufferModel
import Trout.VbufferRefinement
import Trout.VbufferQueue
import Trout.MixerModel
import Trout.Saturation
import Trout.MixerMix
import Trout.MixerOrder
import Trout.MixerConservation
import Trout.AudioConfig
import Trout.StreamBuffer
import Trout.OutputStream
import Trout.OutputThreads
import Trout.OutputSections
import Trout.OutputRequests
import Trout.OutputWaiting
import Trout.OutputCopies
import Trout.RateClock
import Trout.OutputPosition
import Trout.OutputProgress
import Trout.OutputBacklog
import Trout.InputStream
import Trout.InputThreads
import Trout.InputSections
import Trout.InputProvenance
import Trout.PlaybackModel
import Trout.PlaybackForwarding
import Trout.PlaybackLossless
import Trout.SharedPcmModel
import Trout.SharedPcmCounting
import Trout.SharedPcmHandles
import Trout.SharedPcmMixing
import Trout.HalModel
import Trout.HalReferences
import Trout.HalPipelines
import Trout.DhcpMessage
import Trout.DhcpOptions
import Trout.DhcpClient
import Trout.DhcpSteps
import Trout.DhcpLink
import Trout.DhcpLease
import Trout.DhcpReplies
import Trout.DhcpRequests
import Trout.DhcpTimers
import Trout.DhcpGrammar
import Trout.DhcpAck
import Trout.DhcpSocket
import Trout.DhcpChecksum
import Trout.DhcpDatagram
import Trout.DhcpBackoff
import Trout.CapturePosition
import Trout.CaptureAssertion
import Trout.PatchHandles
import Trout.DeviceModel
import Trout.FailedOpens
import Trout.BusAddresses
import Trout.ConfigRefinement
import Trout.PeriodCapacity
import Trout.DhcpBounds
import Trout.DhcpAtomic
import Trout.VbufferSegments
import Trout.InputFilling
import Trout.MixerDrain
import Trout.ToneFrequencies
import Trout.CString
import Trout.IntegerParameters
import Trout.ZoneRouting
import Trout.SetParameters
import Trout.DhcpBoundWait
import Trout.DhcpUdpCheck
import Trout.NetlinkAttributes
import Trout.DhcpSubnet
import Trout.PrefixCode
import Trout.GnssReplay
import Trout.LockOrder
import Trout.HalLocks
import Trout.DataRaces
import Trout.DhcpUnread
import Trout.DhcpExchange
import Trout.DhcpPacing
import Trout.DeviceLifetime
import Trout.DhcpNetwork
import Trout.DhcpMain
import Trout.StreamSettings
import Trout.NetlinkAnswers
import Trout.DhcpTransactions
import Trout.DhcpRestart
import Trout.ToneContinuity
import Trout.DhcpNeighbours
import Trout.StreamRouting
import Trout.HfpControl
import Trout.DhcpDuplicates
