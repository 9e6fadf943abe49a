import Hc.Core.Allocator
import Hc.Core.Base64
import Hc.Core.CompilerRt
import Hc.Core.Mul128
import Hc.Core.NativeGlue
import Hc.Core.NativeGlueReturns
import Hc.Core.NativeGlueSafety
import Hc.Core.NumberToStr
import Hc.Core.StrToNumber
import Hc.Core.Stream
import Hc.Core.Tls
import Hc.Core.Util
import Hc.Core.WindowsStart
import Hc.Core.X11Client
import Hc.Core.Xauth
import Hc.Crypto.Aes
import Hc.Crypto.AesCipher
import Hc.Crypto.ChaCha20
import Hc.Crypto.Curve25519
import Hc.Crypto.Curve25519Field
import Hc.Crypto.Curve25519Memory
import Hc.Crypto.Curve25519Prime
import Hc.Crypto.Ed25519
import Hc.Crypto.Ed25519Calls
import Hc.Crypto.Ed25519Carries
import Hc.Crypto.Ed25519Curve
import Hc.Crypto.Ed25519Encoding
import Hc.Crypto.Ed25519Ge
import Hc.Crypto.Ed25519Modm
import Hc.Crypto.Ed25519Multiples
import Hc.Crypto.Ed25519Points
import Hc.Crypto.Ed25519Recoding
import Hc.Crypto.Ed25519Scalar
import Hc.Crypto.Ed25519Scalarmult
import Hc.Crypto.Ed25519Signature
import Hc.Crypto.Ed25519Tables
import Hc.Crypto.Ed25519Window
import Hc.Crypto.Fips180
import Hc.Crypto.Fips197
import Hc.Crypto.Poly1305
import Hc.Crypto.Poly1305Blocks
import Hc.Crypto.Poly1305Tag
import Hc.Crypto.Sha1
import Hc.Crypto.Sha2
import Hc.Crypto.Sha2Rounds
import Hc.Crypto.ShaDigest
import Hc.Crypto.X25519
import Hc.Crypto.X25519Agreement
import Hc.Crypto.X25519Ladder
import Hc.Crypto.X25519Secret
import Hc.Foundation.Attempt
import Hc.Foundation.Barrett
import Hc.Foundation.BlockStream
import Hc.Foundation.Bytes
import Hc.Foundation.ClassicBpf
import Hc.Foundation.Counted
import Hc.Foundation.Digits
import Hc.Foundation.EdwardsCoordinates
import Hc.Foundation.EdwardsCurve
import Hc.Foundation.EdwardsLadder
import Hc.Foundation.EdwardsModular
import Hc.Foundation.InsertionSort
import Hc.Foundation.Loop
import Hc.Foundation.LruTable
import Hc.Foundation.Memory
import Hc.Foundation.MerkleDamgard
import Hc.Foundation.Mirror
import Hc.Foundation.MontgomeryLadder
import Hc.Foundation.Numeral
import Hc.Foundation.Primality
import Hc.Foundation.Reaches
import Hc.Foundation.Resumable
import Hc.Foundation.Runs
import Hc.Foundation.SqrtRatio
import Hc.Foundation.Trace
import Hc.Foundation.Word
import Hc.Router.Dhcp
import Hc.Router.DhcpClient
import Hc.Router.DhcpClientAccept
import Hc.Router.DhcpClientLease
import Hc.Router.DhcpClientRun
import Hc.Router.DhcpClientTimer
import Hc.Router.DhcpOptions
import Hc.Router.DhcpPacket
import Hc.Router.DhcpServer
import Hc.Router.DhcpServerLeases
import Hc.Router.ModemClient
import Hc.Router.ModemClientAck
import Hc.Router.ModemClientBuffer
import Hc.Router.ModemClientCall
import Hc.Router.ModemClientDelivery
import Hc.Router.ModemClientQueue
import Hc.Router.ModemClientReturns
import Hc.Router.ModemClientRun
import Hc.Router.Netlink
import Hc.Router.NetlinkAttributes
import Hc.Router.PacketDumper
import Hc.Router.TelnetServer
import Hc.Router.TelnetServerOutput
import Hc.Router.TelnetServerSockets
import Hc.Router.TelnetServerSplit
import Hc.Ssh.Connection
import Hc.Ssh.ConnectionArrival
import Hc.Ssh.ConnectionKeys
import Hc.Ssh.ConnectionServer
import Hc.Ssh.ConnectionStages
import Hc.Ssh.ExchangeHash
import Hc.Ssh.Hello
import Hc.Ssh.KeyExchange
import Hc.Ssh.Message
import Hc.Ssh.MessageDelivery
import Hc.Ssh.NameList
import Hc.Ssh.Packet
import Hc.Ssh.Receive
import Hc.Ssh.SharedSecret
import Hc.Tools.FileTree
import Hc.Tools.Tar
import Hc.Tools.TarAdd
import Hc.Tools.TarAddFrames
import Hc.Tools.TarAddRun
import Hc.Tools.TarHeader
import Hc.Tools.TarOrder
import Hc.Tools.TarRoundTrip
import Hc.Tools.Threading
import Hc.Tools.ThreadingEnds
import Hc.Tools.ThreadingLock
import Hc.Tools.UntarStream
import Hc.Tools.WebPacker
import Hc.Tools.WebPackerReplace
