import Shine.Core.Common
import Shine.Core.Buffer
import Shine.Lib.Resumable
import Shine.Core.Pump
import Shine.Proto.Resp2Parser
import Shine.Proto.Resp2Writer
import Shine.Proto.ShineFrame
import Shine.Proto.FrameLoop
import Shine.Proto.RoundTrip
import Shine.Lib.Chan
import Shine.Transport.Address
import Shine.Transport.Session
import Shine.Lib.Lts
import Shine.Transport.Link
import Shine.Transport.Table
import Shine.Transport.Server
import Shine.Transport.Authentication
import Shine.Transport.Closing
import Shine.Lib.CreditFlow
import Shine.Transport.Pair
import Shine.Transport.Objects
import Shine.Transport.Streams
import Shine.Transport.Refinement
import Shine.Transport.Dispatch
import Shine.Transport.SessionInv
import Shine.Transport.PairInv
import Shine.Transport.Guarantees
import Shine.Transport.Bytes
import Shine.Lib.Coroutine
import Shine.Transport.Endpoint
import Shine.Transport.Pipe
import Shine.Transport.PipeFlow
import Shine.Transport.Tunnel
import Shine.Outbound.Datagrams
import Shine.Outbound.Dial
import Shine.Outbound.Handle
import Shine.Inbound.Served
import Shine.Inbound.Release
import Shine.Lib.Duplex
import Shine.Transport.TcpStream
import Shine.Transport.HostPort
import Shine.Inbound.Socks5Udp
import Shine.Inbound.HttpConnect
import Shine.Inbound.Socks5
import Shine.Transport.Race
import Shine.Transport.Handshake
import Shine.Transport.HandshakeInv
import Shine.Transport.Agreement
import Shine.Inbound.Undisturbed
import Shine.Inbound.UdpRelay
import Shine.Transport.Duo
import Shine.Transport.Leaves
import Shine.Transport.DuoNode
import Shine.Transport.Teardown
import Shine.Transport.SlowSession
import Shine.Transport.Gridlock
import Shine.Transport.AddressBlob
import Shine.Inbound.Socks5Grammar
import Shine.Inbound.Targets
import Shine.Transport.WriteCall
import Shine.Lib.Intervals
import Shine.Lib.Words
import Shine.Route.IpRange
import Shine.Lib.Grouped
import Shine.Route.GeoIp
import Shine.Route.GeoSite
import Shine.Config.Schema
import Shine.Route.Router
import Shine.Main
import Shine.Inbound.Requests
import Shine.Route.Naming
import Shine.Lib.Calls
import Shine.Outbound.ClientStreams
import Shine.Outbound.NullStream
import Shine.Core.ByteQueue
import Shine.Route.Spelling
import Shine.Route.CidrText
import Shine.Route.GeoShift
import Shine.Proto.Resp2Grammar
import Shine.Proto.Resp2Checked
import Shine.Proto.Waiting
import Shine.Lib.Pattern
import Shine.Route.Ecma
import Shine.Route.Keywords
import Shine.Transport.ChunkedWrite
import Shine.Config.YamlLoader
import Shine.Config.Sizes
import Shine.Route.GeoNames
import Shine.Config.RuleText
import Shine.Outbound.LinkPool
import Shine.Outbound.Rotation
import Shine.Outbound.Opening
import Shine.Transport.Heartbeat
import Shine.Transport.Silence
import Shine.Inbound.Association
import Shine.Inbound.AssociationLife
import Shine.Inbound.AcceptLoop
import Shine.Lib.Asserts
import Shine.Lib.Interference
import Shine.Outbound.DirectUdp
import Shine.Inbound.HttpHeads
import Shine.Outbound.Socks5Answers
import Shine.Proto.StreamGrammar
import Shine.Shutdown
import Shine.Lib.Ends
import Shine.Transport.Work
import Shine.Transport.Arrival
