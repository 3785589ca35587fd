import Dataplane.Model.PacketHandler
import Dataplane.ProofSupport.Execution

/-!
# The data-phase loops: `src/tun_udp_run.c` and `forwarder_run`

The loops block in one place only, the `iouring_wait_cqe` inside
`wait_for_recv`.  A loop is therefore a machine that stands at that call, and
one step (`wake`) carries it from a completion to the next time it stands
there, or out of the loop.  Between two steps the kernel does what it likes.
-/

namespace Dataplane.Model

open ProofSupport

/-- The three loops with the variables of their callers they work on. -/
inductive Program (σ : Type)
  | tunUdpRun (conn : Connection σ) (tunFd : Int)
  | tunUdpRunZero (conn : Connection σ) (tunFd : Int)
  | forwarderRun (inbound outbound : Connection σ)

/-- A loop waits for a completion, or it has been left with the value `ret`
and with `op` in its local variable. -/
inductive Status
  | waiting
  | exited (ret : Int) (op : Option OpId)
  deriving DecidableEq, Repr

structure LoopState (σ : Type) where
  uring : IouringCtx
  prog : Program σ
  running : Bool
  status : Status

variable {σ : Type}

/-! ## The loop bodies

What the loops do with an op that `wait_for_recv` returned, up to and including
the `io_op_free` behind the `switch`. -/

/-- `io_op_free` at the end of a loop body. -/
def freeAndReturn (op : OpId) (ret : Int) (ctx : IouringCtx) (prog : Program σ) :
    Int × Option OpId × IouringCtx × Program σ :=
  match ctx.ioOpFree op with
  | (rest, ctx) => (ret, rest, ctx, prog)

def tunUdpRunBody (api : Ssl σ) (ctx : IouringCtx) (conn : Connection σ) (tunFd : Int)
    (op : OpId) : Int × Option OpId × IouringCtx × Program σ :=
  let o := ctx.ops op
  let data := ctx.load o.buffer o.dataLen.toNat
  match o.opType with
  | .tunRead =>
      match dtlsEncryptAndSendUdp api conn data ctx with
      | (ret, ctx, conn) => freeAndReturn op ret ctx (.tunUdpRun conn tunFd)
  | .udpRecv =>
      match dtlsDecryptAndWriteTun api conn tunFd data o.dataLen ctx with
      | (ret, ctx, conn) => freeAndReturn op ret ctx (.tunUdpRun conn tunFd)
  | _ => freeAndReturn op (-1) ctx (.tunUdpRun conn tunFd)

/-- `if (conn->addr_len == 0) { memcpy(&conn->addr, op->addr, op->addr_len); ... }` -/
def learnAddr (ctx : IouringCtx) (conn : Connection σ) (op : OpId) : IouringCtx × Connection σ :=
  if conn.addrLen = 0 then
    let o := ctx.ops op
    (ctx.assert (decide (0 < o.addrLen)),
      { conn with
        addr := Bytes.overwrite conn.addr (ctx.load o.addr o.addrLen)
        addrLen := o.addrLen })
  else (ctx, conn)

def tunUdpRunZeroBody (ctx : IouringCtx) (conn : Connection σ) (tunFd : Int) (op : OpId) :
    Int × Option OpId × IouringCtx × Program σ :=
  match (ctx.ops op).opType with
  | .tunRead =>
      match tunToUdp conn op ctx with
      | (ret, ctx) => freeAndReturn op ret ctx (.tunUdpRunZero conn tunFd)
  | .udpRecv =>
      match learnAddr ctx conn op with
      | (ctx, conn) =>
          match udpToTun tunFd op ctx with
          | (ret, ctx) => freeAndReturn op ret ctx (.tunUdpRunZero conn tunFd)
  | _ => freeAndReturn op (-1) ctx (.tunUdpRunZero conn tunFd)

/-- `forward_udp_packet` for the two connections in the roles the receiving
socket gives them. -/
def forwardBetween (api : Ssl σ) (ctx : IouringCtx) (recvConn forwardConn : Connection σ)
    (data : Bytes) (packetLen : Int) : Int × IouringCtx × Connection σ × Connection σ :=
  match recvConn.dtlsDecryptPacket api data packetLen bufSize with
  | (decryptedLen, decrypted, _, recvConn) =>
      if decryptedLen ≤ 0 then (-1, ctx, recvConn, forwardConn)
      else match dtlsEncryptAndSendUdp api forwardConn decrypted ctx with
        | (ret, ctx, forwardConn) =>
            (if ret < 0 then -1 else 0, ctx, recvConn, forwardConn)

def forwardUdpPacket (api : Ssl σ) (ctx : IouringCtx) (inbound outbound : Connection σ)
    (op : OpId) : Int × IouringCtx × Connection σ × Connection σ :=
  let o := ctx.ops op
  let data := ctx.load o.buffer o.dataLen.toNat
  if o.dataLen ≤ 0 then (-1, ctx, inbound, outbound)
  else if o.fd = inbound.udpFd then forwardBetween api ctx inbound outbound data o.dataLen
  else match forwardBetween api ctx outbound inbound data o.dataLen with
    | (ret, ctx, outbound, inbound) => (ret, ctx, inbound, outbound)

/-- `forwarder_run` returns without freeing the op when something fails. -/
def forwarderRunBody (api : Ssl σ) (ctx : IouringCtx) (inbound outbound : Connection σ)
    (op : OpId) : Int × Option OpId × IouringCtx × Program σ :=
  if (ctx.ops op).opType ≠ .udpRecv then (-1, some op, ctx, .forwarderRun inbound outbound)
  else match forwardUdpPacket api ctx inbound outbound op with
    | (ret, ctx, inbound, outbound) =>
        if ret < 0 then (ret, some op, ctx, .forwarderRun inbound outbound)
        else freeAndReturn op ret ctx (.forwarderRun inbound outbound)

def Program.body (api : Ssl σ) (ctx : IouringCtx) (op : OpId) :
    Program σ → Int × Option OpId × IouringCtx × Program σ
  | .tunUdpRun conn tunFd => tunUdpRunBody api ctx conn tunFd op
  | .tunUdpRunZero conn tunFd => tunUdpRunZeroBody ctx conn tunFd op
  | .forwarderRun inbound outbound => forwarderRunBody api ctx inbound outbound op

/-! ## The loops -/

/-- What happens to a loop: the kernel acts, `iouring_wait_cqe` returns (with a
completion when there is one, else because it timed out), `iouring_wait_cqe`
fails, or a signal clears the flag `running`, which `forwarder_run` does not
look at. -/
inductive LoopEvent
  | kernel (e : KEvent)
  | wake
  | waitError
  | stop

/-- Back at the head of the loop with the value `ret` of the last body. -/
def atLoopHead (s : LoopState σ) (ret : Int) (op : Option OpId) : LoopState σ :=
  let goesOn := match s.prog with
    | .forwarderRun _ _ => true
    | _ => s.running
  if ret < 0 then { s with status := .exited ret op }
  else if goesOn then s else { s with status := .exited ret op }

/-- `wait_for_recv` takes the completion `c`, leaving `cq`, and what follows
until the program waits again. -/
def takeCqe (api : Ssl σ) (s : LoopState σ) (c : Cqe) (cq : List Cqe) : LoopState σ :=
  match (s.uring.iouringCqeSeen c cq).waitForRecvBody c with
  | (.again, ctx) => { s with uring := ctx }
  | (.null, ctx) => { s with uring := ctx, status := .exited (-1) none }
  | (.recv op, ctx) =>
      match s.prog.body api ctx op with
      | (ret, rest, ctx, prog) => atLoopHead { s with uring := ctx, prog := prog } ret rest

def LoopState.wake (api : Ssl σ) (s : LoopState σ) : LoopState σ :=
  match s.status, s.uring.ring.cq with
  | .waiting, c :: cq => takeCqe api s c cq
  | _, _ => s

def LoopState.step (api : Ssl σ) (s : LoopState σ) : LoopEvent → LoopState σ
  | .kernel e => { s with uring := s.uring.kernel e }
  | .wake => s.wake api
  | .waitError => if s.status = .waiting then { s with status := .exited (-1) none } else s
  | .stop => { s with running := false }

def LoopState.run (api : Ssl σ) : LoopState σ → List LoopEvent → LoopState σ :=
  Execution.run (LoopState.step api)

/-! ## The state the loops start in -/

/-- The initial submissions of `main` for a loop, `none` when one of them
failed: `iouring_initial_udp_recvs` for every UDP socket and, for the edges,
`iouring_initial_tun_reads`. -/
def initialSubmissions (ctx : IouringCtx) : Program σ → Option IouringCtx
  | .tunUdpRun conn tunFd | .tunUdpRunZero conn tunFd =>
      match ctx.iouringInitialUdpRecvs conn.udpFd with
      | (ret, ctx) =>
          if ret ≠ 0 then none
          else match ctx.iouringInitialTunReads tunFd with
            | (ret, ctx) => if ret ≠ 0 then none else some ctx
  | .forwarderRun inbound outbound =>
      match ctx.iouringInitialUdpRecvs inbound.udpFd with
      | (ret, ctx) =>
          if ret ≠ 0 then none
          else match ctx.iouringInitialUdpRecvs outbound.udpFd with
            | (ret, ctx) => if ret ≠ 0 then none else some ctx

/-- A loop that is entered with the flag `running` as it stands. -/
def LoopState.start (uring : IouringCtx) (prog : Program σ) (running : Bool) : LoopState σ :=
  atLoopHead ⟨uring, prog, running, .waiting⟩ 0 none

end Dataplane.Model
