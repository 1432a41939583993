import Sponge.Lib.Run
import Sponge.Lib.Reach
import Sponge.Lib.Refine
import Sponge.Lib.Gap
import Sponge.Lib.Laid
import Sponge.Lib.Table
import Sponge.Lib.BigEndian
import Sponge.Lib.OnesComplement
import Sponge.TCPState
import Sponge.Proof.Unwrap
import Sponge.Proof.ByteStreamRun
import Sponge.Proof.Reassembler
import Sponge.Proof.ReassemblerRun
import Sponge.Proof.ReassemblerOrder
import Sponge.Proof.ReassemblerMemory
import Sponge.Proof.ReassemblerEnd
import Sponge.Proof.Receiver
import Sponge.Proof.ReceiverWindow
import Sponge.Proof.ReceiverAck
import Sponge.Proof.ReceiverStream
import Sponge.Proof.Sender
import Sponge.Proof.SenderData
import Sponge.Proof.SenderAck
import Sponge.Proof.SenderRun
import Sponge.Proof.FlowControl
import Sponge.Proof.WindowFill
import Sponge.Proof.Connection
import Sponge.Proof.Emission
import Sponge.Proof.Replies
import Sponge.Proof.Handshake
import Sponge.Proof.FinLast
import Sponge.Proof.RightEdge
import Sponge.Proof.Stall
import Sponge.Proof.Retransmission
import Sponge.Proof.Close
import Sponge.Proof.OfficialStates
import Sponge.Network
import Sponge.Proof.StreamIntegrity
import Sponge.Proof.EndOfStream
import Sponge.Proof.Acknowledged
import Sponge.Proof.PlainSegments
import Sponge.Proof.Progress
import Sponge.Proof.Recovery
import Sponge.Proof.LinkCodec
import Sponge.Proof.IPv4Codec
import Sponge.Proof.TCPCodec
import Sponge.Proof.Encapsulation
import Sponge.Proof.OneConnection
import Sponge.Proof.Interface
import Sponge.Proof.DatagramOrder
import Sponge.Proof.ArpFreshness
import Sponge.Proof.ArpRate
import Sponge.Proof.Router
import Sponge.Proof.RouterSafety
import Sponge.Proof.LongestMatch
import Sponge.Proof.Carriage
import Sponge.Proof.EventLoop
import Sponge.Proof.StreamCopy
import Sponge.TCPSpongeSocket
import Sponge.FdAdapter
import Sponge.TunTapAdapter
import Sponge.Apps.Lab7
import Sponge.Proof.SocketRules
import Sponge.Proof.UdpAdapter
import Sponge.Proof.EthernetAdapter
import Sponge.Proof.NetworkThread
import Sponge.Proof.SocketRefinement
import Sponge.Proof.SocketPair
import Sponge.Proof.UdpSockets
import Sponge.Proof.IPv4Sockets
import Sponge.Proof.Lab7
import Sponge.Internet
import Sponge.Proof.Forwarding
