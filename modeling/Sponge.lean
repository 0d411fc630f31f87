import Sponge.Lib.Execution
import Sponge.Lib.Interval
import Sponge.Lib.Loop
import Sponge.Lib.Slice
import Sponge.Lib.BigEndian
import Sponge.Lib.OnesComplement
import Sponge.WrappingIntegers
import Sponge.ByteStream
import Sponge.TCPSegment
import Sponge.StreamReassembler
import Sponge.TCPReceiver
import Sponge.TCPSender
import Sponge.TCPConnection
import Sponge.InternetChecksum
import Sponge.Parser
import Sponge.SegmentCodec
import Sponge.IPv4Datagram
import Sponge.TCPOverIP
import Sponge.EventLoop
import Sponge.FileDescriptor
import Sponge.TCPSpongeSocket
import Sponge.Adapters
import Sponge.Endpoint
import Sponge.StreamCopy
import Sponge.Application
import Sponge.UdpTcpdump
import Sponge.Stream.Fifo
import Sponge.Reassembler.Spans
import Sponge.Reassembler.Storage
import Sponge.Reassembler.Assembly
import Sponge.Reassembler.Refinement
import Sponge.Reassembler.Capacity
import Sponge.Reassembler.Counting
import Sponge.Reassembler.Bytes
import Sponge.Reassembler.Conflicts
import Sponge.Receiver.Delivery
import Sponge.Receiver.Window
import Sponge.Receiver.Progress
import Sponge.Sender.Segmentation
import Sponge.Sender.Filling
import Sponge.Sender.Invariant
import Sponge.Sender.Retransmission
import Sponge.Sender.FlowControl
import Sponge.Sender.Progress
import Sponge.Sender.Pacing
import Sponge.Connection.Steps
import Sponge.Connection.Progress
import Sponge.Connection.Silence
import Sponge.Connection.Advertising
import Sponge.Connection.Acknowledging
import Sponge.Connection.Opening
import Sponge.Connection.Timing
import Sponge.Connection.Answering
import Sponge.Connection.Closing
import Sponge.Connection.Streams
import Sponge.Connection.States
import Sponge.Connection.Recovery
import Sponge.Network.Link
import Sponge.Network.System
import Sponge.Network.Supply
import Sponge.Network.Recovery
import Sponge.Socket.Writing
import Sponge.Codec.Reading
import Sponge.Codec.Segment
import Sponge.Codec.Datagram
import Sponge.Codec.Encapsulation
import Sponge.Codec.Checksum
import Sponge.Codec.Locking
import Sponge.Codec.Carriage
import Sponge.Socket.Passes
import Sponge.Socket.Relaying
import Sponge.Socket.Failing
import Sponge.Socket.Looping
import Sponge.Socket.Copying
import Sponge.Network.Endpoints
import Sponge.Network.Finishing
import Sponge.Network.Applications
import Sponge.Descriptor.Gathering
import Sponge.Dissector.Bounds
import Sponge.Application
