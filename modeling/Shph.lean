import Shph.ConfigFile
import Shph.ControlPlaneApply
import Shph.ControlPlaneCidr
import Shph.DataMuleCapacity
import Shph.EdgeRelaySafety
import Shph.EnvelopeCodec
import Shph.HandshakeAuthentication
import Shph.IdentityPublish
import Shph.Ja4Exact
import Shph.MorphologyBatchFit
import Shph.NegotiatedQuicDelivery
import Shph.NegotiatedTcpDelivery
import Shph.OfflineMeshDelivery
import Shph.OnionOpen
import Shph.OnionPacket
import Shph.OnionRelay
import Shph.PeerPinsSafety
import Shph.PhantomOneArrivals
import Shph.QuicFrame
import Shph.RatchetAuditRefusal
import Shph.ShamirSecrecy
import Shph.ShamirWords
import Shph.Shroud3Shaping
import Shph.Shroud3Workload
import Shph.SnapDelivery
import Shph.SnapEscaping
import Shph.SnapFixedPoint
import Shph.SnapRounds
import Shph.SnapRunners
import Shph.SnapShroud
import Shph.Socks5Meeting
import Shph.StandardsTunBridge
import Shph.StandardsTunShroud3
import Shph.StdinLines
import Shph.TcpListenerDelivery
import Shph.UnderlayGrammar
