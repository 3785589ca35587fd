import Dataplane.Model.Run

/-!
# `do_dtls_handshake`

Like the loops of the data phase the handshake blocks in `wait_for_recv` only.
It is a machine that is about to call `SSL_do_handshake`, waits for a
completion, or has returned.
-/

namespace Dataplane.Model

open ProofSupport

inductive HandshakePc
  | calling
  | waiting
  | returned (ret : Int)
  deriving DecidableEq, Repr

/-- `sslSend` is the variable `ssl_send` of the last round, and `written` a
history: everything that was ever put into the write BIO. -/
structure HandshakeState (σ : Type) where
  uring : IouringCtx
  conn : Connection σ
  pc : HandshakePc
  sslSend : Nat
  written : Bytes

variable {σ : Type}

/-! ## A round of the loop -/

/-- The block behind `if (ssl_send)`: a datagram with what one `BIO_read` takes
out of the write BIO. -/
def sendFlight (ctx : IouringCtx) (conn : Connection σ) : Int × IouringCtx × Connection σ :=
  match bioRead conn.wbio bufSize with
  | (read, buffer, rest) =>
      let conn := { conn with wbio := rest }
      let ctx := ctx.assert (decide (0 < read))
      match ctx.ioOpAlloc .udpSend conn.udpFd false with
      | (newOp, ctx) =>
          let ctx := ctx.assert newOp.isSome
          match ctx.iouringSubmitUdpSend newOp conn.addr conn.addrLen (some buffer) read with
          | (ret, ctx) => (ret, ctx, conn)

namespace HandshakeState

/-- The rest of a round, from `if (ret == 1)` to the next call, to the wait, or
out of the function. -/
def conclude (s : HandshakeState σ) (ret : Int) (err : SslError) : HandshakeState σ :=
  if ret = 1 then { s with conn := { s.conn with state := .established }, pc := .returned 0 }
  else if ret = 0 then { s with pc := .returned (-1) }
  else match err with
    | .wantRead => if s.conn.rbio ≠ [] then { s with pc := .returned (-1) }
        else { s with pc := .waiting }
    | .wantWrite => if s.conn.wbio ≠ [] then { s with pc := .returned (-1) }
        else { s with pc := .calling }
    | _ => { s with pc := .returned (-1) }

/-- A round of the loop from its call of `SSL_do_handshake`. -/
def call (api : Ssl σ) (s : HandshakeState σ) : HandshakeState σ :=
  let r := api.doHandshake s.conn.ssl s.conn.rbio
  let conn := s.conn.after r
  let s := { s with
    conn := conn
    sslSend := conn.wbio.length
    written := s.written ++ r.out }
  if s.sslSend = 0 then s.conclude r.ret r.err
  else match sendFlight s.uring s.conn with
    | (ret, ctx, conn) =>
        let s := { s with uring := ctx, conn := conn }
        if ret < 0 then { s with pc := .returned (-1) } else s.conclude r.ret r.err

/-- `wait_for_recv` takes the completion `c`, leaving `cq`, and what follows
until the handshake waits or calls `SSL_do_handshake` again.  A datagram from
another socket is dropped without `io_op_free`. -/
def takeCqe (s : HandshakeState σ) (c : Cqe) (cq : List Cqe) : HandshakeState σ :=
  match (s.uring.iouringCqeSeen c cq).waitForRecvBody c with
  | (.again, ctx) => { s with uring := ctx }
  | (.null, ctx) => { s with uring := ctx, pc := .returned (-1) }
  | (.recv op, ctx) =>
      let ctx := ctx.assert (decide ((ctx.ops op).opType = .udpRecv))
      if (ctx.ops op).fd ≠ s.conn.udpFd then { s with uring := ctx, pc := .calling }
      else match learnAddr ctx s.conn op with
        | (ctx, conn) =>
            let o := ctx.ops op
            let written := bioWrite conn.rbio (ctx.load o.buffer o.dataLen.toNat) o.dataLen
            { s with
              uring := (ctx.ioOpFree op).2
              conn := { conn with rbio := written.2 }
              pc := .calling }

end HandshakeState

/-! ## The machine -/

/-- What happens to a handshake: it makes its next round, the kernel acts,
`iouring_wait_cqe` returns a completion, or it fails. -/
inductive HandshakeEvent
  | call
  | kernel (e : KEvent)
  | wake
  | waitError

namespace HandshakeState

def step (api : Ssl σ) (s : HandshakeState σ) : HandshakeEvent → HandshakeState σ
  | .call => if s.pc = .calling then s.call api else s
  | .kernel e => { s with uring := s.uring.kernel e }
  | .wake =>
      match s.pc, s.uring.ring.cq with
      | .waiting, c :: cq => s.takeCqe c cq
      | _, _ => s
  | .waitError => if s.pc = .waiting then { s with pc := .returned (-1) } else s

def run (api : Ssl σ) : HandshakeState σ → List HandshakeEvent → HandshakeState σ :=
  Execution.run (step api)

/-- The handshake when `do_dtls_handshake(uring_ctx, conn)` is called. -/
def start (uring : IouringCtx) (conn : Connection σ) : HandshakeState σ :=
  ⟨uring, conn, .calling, 0, conn.wbio⟩

end HandshakeState

/-! ## Arming receives -/

/-- `iouring_initial_udp_recvs` on every socket of `fds`, `none` when one of
them fails; `multi` stands for `USE_MULTI_RECV`. -/
def armReceives (multi : Bool) (ctx : IouringCtx) : List Int → Option IouringCtx
  | [] => some ctx
  | fd :: fds =>
      match if multi then ctx.iouringSubmitMultishotRecvmsg fd
        else IouringCtx.initialRecvs IouringCtx.iouringSubmitUdpRecv .udpRecv fd
          ctx.config.nInitialRecvOps ctx with
      | (ret, ctx) => if ret ≠ 0 then none else armReceives multi ctx fds

end Dataplane.Model
