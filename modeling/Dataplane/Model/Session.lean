import Dataplane.Model.Handshake

/-!
# The `main`s from `iouring_initial_udp_recvs` on

`edge` shakes hands, asks for packets from its TUN device and runs
`tun_udp_run`; `edge_zero` runs its loop at once; the forwarder shakes hands on
the inbound connection, then on the outbound one, and runs `forwarder_run`.
-/

namespace Dataplane.Model

variable {σ : Type}

/-- Which handshake a `main` is in, with what it needs behind it. -/
inductive Stage (σ : Type)
  | edge (tunFd : Int)
  | inbound (outbound : Connection σ)
  | outbound (inbound : Connection σ)

/-- A `main` is in a handshake, in its loop, or it has returned in between;
`running` is the flag that a signal clears. -/
inductive Session (σ : Type)
  | handshake (stage : Stage σ) (s : HandshakeState σ) (running : Bool)
  | loop (s : LoopState σ)
  | returned (uring : IouringCtx)

/-- What happens to a session: the events of the handshake and of the loop, and
the return from a handshake. -/
inductive SessionEvent
  | call
  | kernel (e : KEvent)
  | wake
  | waitError
  | stop
  | proceed

/-- What an event is to a handshake. -/
def SessionEvent.handshake : SessionEvent → Option HandshakeEvent
  | .call => some .call
  | .kernel e => some (.kernel e)
  | .wake => some .wake
  | .waitError => some .waitError
  | .stop | .proceed => none

/-- What an event is to a loop. -/
def SessionEvent.loop : SessionEvent → Option LoopEvent
  | .kernel e => some (.kernel e)
  | .wake => some .wake
  | .waitError => some .waitError
  | .stop => some .stop
  | .call | .proceed => none

namespace Session

/-- What a `main` does when `do_dtls_handshake` has returned 0. -/
def proceed (s : HandshakeState σ) (running : Bool) : Stage σ → Session σ
  | .edge tunFd =>
      match s.uring.iouringInitialTunReads tunFd with
      | (ret, ctx) =>
          if ret ≠ 0 then .returned ctx
          else .loop (.start ctx (.tunUdpRun s.conn tunFd) running)
  | .inbound outbound => .handshake (.outbound s.conn) (.start s.uring outbound) running
  | .outbound inbound => .loop (.start s.uring (.forwarderRun inbound s.conn) running)

def step (api : Ssl σ) : Session σ → SessionEvent → Session σ
  | .handshake stage s _, .stop => .handshake stage s false
  | .handshake stage s running, .proceed =>
      if s.pc = .returned 0 then proceed s running stage else .handshake stage s running
  | .handshake stage s running, e =>
      match e.handshake with
      | none => .handshake stage s running
      | some e => .handshake stage (s.step api e) running
  | .loop s, e =>
      match e.loop with
      | none => .loop s
      | some e => .loop (s.step api e)
  | .returned uring, .kernel e => .returned (uring.kernel e)
  | .returned uring, _ => .returned uring

def run (api : Ssl σ) : Session σ → List SessionEvent → Session σ :=
  ProofSupport.Execution.run (step api)

def uring : Session σ → IouringCtx
  | .handshake _ s _ => s.uring
  | .loop s => s.uring
  | .returned uring => uring

/-- A `main` that is to run `prog`, behind its calls of
`iouring_initial_udp_recvs`; `none` when one of them fails. -/
def start (ctx : IouringCtx) (prog : Program σ) (running : Bool) : Option (Session σ) :=
  match prog with
  | .tunUdpRun conn tunFd =>
      match armReceives useMultiRecv ctx [conn.udpFd] with
      | none => none
      | some ctx => some (.handshake (.edge tunFd) (.start ctx conn) running)
  | .tunUdpRunZero conn tunFd =>
      match initialSubmissions ctx (.tunUdpRunZero conn tunFd) with
      | none => none
      | some ctx => some (.loop (.start ctx (.tunUdpRunZero conn tunFd) running))
  | .forwarderRun inbound outbound =>
      match armReceives useMultiRecv ctx [inbound.udpFd, outbound.udpFd] with
      | none => none
      | some ctx => some (.handshake (.inbound outbound) (.start ctx inbound) running)

end Session

end Dataplane.Model
