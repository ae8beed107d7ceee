import WebrtcBridge.Lib.Runs
import WebrtcBridge.Lib.Pool
import WebrtcBridge.Lib.Reactor
import WebrtcBridge.Lib.LockOrder
import WebrtcBridge.Lib.Leb128
import WebrtcBridge.Lib.Reassembly
import WebrtcBridge.Lib.Text
import WebrtcBridge.Lib.Pattern
import WebrtcBridge.Lib.Words
import WebrtcBridge.Lib.IpAddr
import WebrtcBridge.Lib.Json
import WebrtcBridge.Lib.ByteInput
import WebrtcBridge.Lib.AnnexB
import WebrtcBridge.Lib.InputStream
import WebrtcBridge.Lib.ExactReader
import WebrtcBridge.Lib.Outcomes
import WebrtcBridge.Lib.Hex
import WebrtcBridge.Lib.Window
import WebrtcBridge.Lib.BigEndian
import WebrtcBridge.Lib.Serial
import WebrtcBridge.Ffi.Boundary
import WebrtcBridge.Ffi.SendOrder
import WebrtcBridge.Ffi.DataChannelPoller
import WebrtcBridge.Ffi.TrackPoller
import WebrtcBridge.Ffi.ChannelIdentity
import WebrtcBridge.Ffi.RegistryLock
import WebrtcBridge.Ffi.LocalTracks
import WebrtcBridge.Ffi.RtcpQueue
import WebrtcBridge.Ffi.PeerConfig
import WebrtcBridge.Java.Ownership
import WebrtcBridge.Java.Registration
import WebrtcBridge.Java.NativeLoad
import WebrtcBridge.Av1.Leb128
import WebrtcBridge.Av1.Obu
import WebrtcBridge.Av1.Aggregation
import WebrtcBridge.Av1.Packetizer
import WebrtcBridge.Av1.Payloader
import WebrtcBridge.Av1.Depacketizer
import WebrtcBridge.Av1.Turns
import WebrtcBridge.Av1.RoundTrip
import WebrtcBridge.Av1.RustDepacketizer
import WebrtcBridge.Av1.Port
import WebrtcBridge.Media.Ivf
import WebrtcBridge.Media.Ogg
import WebrtcBridge.Media.H26x
import WebrtcBridge.Media.AnyStream
import WebrtcBridge.Media.Splitting
import WebrtcBridge.Media.Wav
import WebrtcBridge.Media.Mp3
import WebrtcBridge.Media.Framing
import WebrtcBridge.Media.H26xProgress
import WebrtcBridge.Media.Checked
import WebrtcBridge.Media.Robust
import WebrtcBridge.Ice.Candidate
import WebrtcBridge.Ice.CandidateText
import WebrtcBridge.Stats.Report
import WebrtcBridge.Stats.Parser
import WebrtcBridge.Stats.Numbers
import WebrtcBridge.Stats.Objects
import WebrtcBridge.Stats.Pieces
import WebrtcBridge.Stats.Fields
import WebrtcBridge.Stats.Inbound
import WebrtcBridge.Stats.Entries
import WebrtcBridge.Stats.FreeString
import WebrtcBridge.Stats.RoundTrip
import WebrtcBridge.Server.Forwarder
import WebrtcBridge.Server.Session
import WebrtcBridge.Server.Invariants
import WebrtcBridge.Server.Lifecycle
import WebrtcBridge.Server.Candidates
import WebrtcBridge.Server.Reset
import WebrtcBridge.Server.Responses
import WebrtcBridge.Server.Echo
import WebrtcBridge.Server.SdpCodecs
import WebrtcBridge.Rtp.Header
import WebrtcBridge.Rtp.Extensions
import WebrtcBridge.Rtp.Packet
import WebrtcBridge.Srtp.ReplayDetector
import WebrtcBridge.Srtp.Context
import WebrtcBridge.Srtp.Path
import WebrtcBridge.Dtls.Record
import WebrtcBridge.Dtls.FragmentBuffer
import WebrtcBridge.Dtls.Conn
import WebrtcBridge.Sctp.Chunk
import WebrtcBridge.Sctp.ReassemblyQueue
import WebrtcBridge.Sctp.PayloadQueue
import WebrtcBridge.Sctp.Inbound
