import Dataplane.Model.Connection

/-!
# `src/packet_handler.c`

`waitForRecvBody` is one pass through the loop of `wait_for_recv`, from the
completion that `iouring_wait_cqe` hands out to the next call of
`iouring_wait_cqe` or to the end of the function.  Logging is left out.
-/

namespace Dataplane.Model

open ProofSupport

/-- How a pass through the loop of `wait_for_recv` ends: the loop goes on, or
the function returns an op or NULL. -/
inductive WaitStep
  | again
  | recv (op : OpId)
  | null
  deriving DecidableEq, Repr

namespace IouringCtx

/-- `iouring_cqe_seen` on the oldest completion; from here on the program
handles its packet. -/
def iouringCqeSeen (ctx : IouringCtx) (c : Cqe) (cq : List Cqe) : IouringCtx :=
  { ctx with
    ring := { ctx.ring with cq := cq, seen := ctx.ring.seen ++ [c] }
    tag := c.tag }

/-- The end of `wait_for_recv`, with the `ret` of the receive. -/
def waitForRecvDone (op : OpId) (r : Int × IouringCtx) : WaitStep × IouringCtx :=
  if r.1 < 0 then (.null, (r.2.ioOpFree op).2) else (.recv op, r.2)

def waitForRecvBody (ctx : IouringCtx) (cqe : Cqe) : WaitStep × IouringCtx :=
  let op := cqe.req.userData
  if cqe.res < 0 then (.null, ctx)
  else
    let ctx := ctx.modOp op fun o => { o with dataLen := cqe.res }
    match (ctx.ops op).opType with
    | .udpRecv =>
        if (ctx.ops op).isMulti then
          waitForRecvDone op (ctx.iouringMultishotRecvmsgOut op cqe.flags)
        else waitForRecvDone op (ctx.iouringResubmitRecv op)
    | .udpSend =>
        let ctx := ctx.assert (!(ctx.ops op).isMulti)
        (.again, (ctx.ioOpFree op).2)
    | .tunRead =>
        if (ctx.ops op).isMulti then
          waitForRecvDone op ((ctx.assert false).iouringMultishotReadOut op cqe.flags)
        else waitForRecvDone op (ctx.iouringResubmitRecv op)
    | .tunWrite =>
        let ctx := ctx.assert (!(ctx.ops op).isMulti)
        (.again, (ctx.ioOpFree op).2)
    | .unknown => waitForRecvDone op (-1, ctx)

end IouringCtx

variable {σ : Type}

def dtlsEncryptAndSendUdp (api : Ssl σ) (conn : Connection σ) (data : Bytes)
    (ctx : IouringCtx) : Int × IouringCtx × Connection σ :=
  match ctx.ioOpAlloc .udpSend conn.udpFd false with
  | (none, ctx) => (-1, ctx, conn)
  | (some op, ctx) =>
      match conn.dtlsEncryptPacket api data bufSize with
      | (len, result, conn) =>
          let ctx := ctx.store (ctx.ops op).buffer result
          let ctx := ctx.modOp op fun o => { o with dataLen := len }
          if len < 0 then (-1, (ctx.ioOpFree op).2, conn)
          else match ctx.iouringSubmitUdpSend (some op) conn.addr conn.addrLen none len with
            | (ret, ctx) =>
                if ret < 0 then (-1, (ctx.ioOpFree op).2, conn) else (0, ctx, conn)

def dtlsDecryptAndWriteTun (api : Ssl σ) (conn : Connection σ) (tunFd : Int)
    (encrypted : Bytes) (encryptedLen : Int) (ctx : IouringCtx) :
    Int × IouringCtx × Connection σ :=
  match ctx.ioOpAlloc .tunWrite tunFd false with
  | (none, ctx) => (-1, ctx, conn)
  | (some op, ctx) =>
      match conn.dtlsDecryptPacket api encrypted encryptedLen bufSize with
      | (len, decrypted, _, conn) =>
          let ctx := ctx.store (ctx.ops op).buffer decrypted
          let ctx := ctx.modOp op fun o => { o with dataLen := len }
          if len < 0 then (-1, (ctx.ioOpFree op).2, conn)
          else
            let ctx := ctx.modOp op fun o => { o with fd := tunFd }
            match ctx.iouringSubmitTunWrite op none len with
            | (ret, ctx) =>
                if ret < 0 then (-1, (ctx.ioOpFree op).2, conn) else (0, ctx, conn)

def tunToUdp (conn : Connection σ) (op : OpId) (ctx : IouringCtx) : Int × IouringCtx :=
  match ctx.ioOpAllocBuf .udpSend conn.udpFd false (some op) with
  | (none, ctx) => (-1, ctx)
  | (some sendOp, ctx) =>
      match ctx.iouringSubmitUdpSend (some sendOp) conn.addr conn.addrLen none
          (ctx.ops sendOp).dataLen with
      | (ret, ctx) => if ret < 0 then (-1, (ctx.ioOpFree sendOp).2) else (0, ctx)

def udpToTun (tunFd : Int) (op : OpId) (ctx : IouringCtx) : Int × IouringCtx :=
  match ctx.ioOpAllocBuf .tunWrite tunFd false (some op) with
  | (none, ctx) => (-1, ctx)
  | (some sendOp, ctx) =>
      match ctx.iouringSubmitTunWrite sendOp none (ctx.ops op).dataLen with
      | (ret, ctx) => if ret < 0 then (-1, (ctx.ioOpFree sendOp).2) else (0, ctx)

end Dataplane.Model
