import RustUtp.Lifecycle
import RustUtp.SendQueue
import RustUtp.Receive
import RustUtp.Eof
import RustUtp.Reassembler
import RustUtp.Mirror
import RustUtp.Shift
import RustUtp.RtoTimer
import RustUtp.MtuSearch
import RustUtp.FastResend
import RustUtp.Cursor
import RustUtp.Emissions
import RustUtp.AckList
import RustUtp.FreshHeaders
import RustUtp.Decoding
import RustUtp.Wakeup
import RustUtp.FullTrap
import RustUtp.Controller
import RustUtp.Flush
import RustUtp.Segments
import RustUtp.Handshake
import RustUtp.DelayBase
import RustUtp.AckRange
import RustUtp.ExtensionWalk
import RustUtp.RttEstimator
import RustUtp.RstCache
import RustUtp.Engine.Socket
import RustUtp.Handles
import RustUtp.Calling
import RustUtp.Link
import RustUtp.Backlog
import RustUtp.Passthrough
