import Dataplane.ProofSupport.Bytes
import Dataplane.ProofSupport.Ledger
import Dataplane.ProofSupport.Execution
import Dataplane.ProofSupport.TwoRuns
import Dataplane.ProofSupport.Feeding
import Dataplane.ProofSupport.Channel
import Dataplane.ProofSupport.Relaying
import Dataplane.ProofSupport.Numerals
import Dataplane.Model.Types
import Dataplane.Model.Kernel
import Dataplane.Model.Iouring
import Dataplane.Model.Connection
import Dataplane.Model.PacketHandler
import Dataplane.Model.Run
import Dataplane.Model.Handshake
import Dataplane.Model.Session
import Dataplane.Model.Chain
import Dataplane.Model.Teardown
import Dataplane.Model.Startup
import Dataplane.Model.Utils
import Dataplane.Model.TunDevice
import Dataplane.Model.Shutdown
import Dataplane.Proofs.Specs
import Dataplane.Proofs.Invariant
import Dataplane.Proofs.Completion
import Dataplane.Proofs.Receive
import Dataplane.Proofs.Transmit
import Dataplane.Proofs.Bodies
import Dataplane.Proofs.Loops
import Dataplane.Proofs.Ownership
import Dataplane.Proofs.Submissions
import Dataplane.Proofs.Flights
import Dataplane.Proofs.HandshakeBuffers
import Dataplane.Proofs.Datagram
import Dataplane.Proofs.Records
import Dataplane.Proofs.Startup
import Dataplane.Proofs.Turns
import Dataplane.Proofs.ZeroCopy
import Dataplane.Proofs.View
import Dataplane.Proofs.Noninterference
import Dataplane.Proofs.Sessions
import Dataplane.Proofs.Failures
import Dataplane.Proofs.Capacity
import Dataplane.Proofs.Outcome
import Dataplane.Proofs.Framing
import Dataplane.Proofs.GiveBack
import Dataplane.Proofs.HandshakeGiveBack
import Dataplane.Proofs.Peers
import Dataplane.Proofs.Addresses
import Dataplane.Proofs.Destinations
import Dataplane.Proofs.Strays
import Dataplane.Proofs.Traces
import Dataplane.Proofs.Traffic
import Dataplane.Proofs.Isolation
import Dataplane.Proofs.Validation
import Dataplane.Proofs.IpPackets
import Dataplane.Proofs.SocketAddresses
import Dataplane.Proofs.Lengths
import Dataplane.Proofs.SingleShot
import Dataplane.Proofs.PoolLedger
import Dataplane.Proofs.PoolCapacity
import Dataplane.Proofs.Teardown
import Dataplane.Proofs.IdealDtls
import Dataplane.Proofs.Relay
import Dataplane.Proofs.Passing
import Dataplane.Proofs.Transparency
import Dataplane.Proofs.EdgeTraffic
import Dataplane.Proofs.EndToEnd
import Dataplane.Proofs.ZeroTraffic
import Dataplane.Proofs.Assertions
import Dataplane.Proofs.Wire
import Dataplane.Proofs.Switching
import Dataplane.Proofs.Lifetime
import Dataplane.Proofs.TunDevice
import Dataplane.Proofs.Shutdown
import Dataplane.Proofs.GoingOn
