import Dataplane.Model.Kernel

/-!
# `src/iouring.c`

Every function takes the context and returns its result with the new context.
Where the C code returns a pointer that may be NULL the result is an `Option`.
-/

namespace Dataplane.Model

open ProofSupport

namespace IouringCtx

/-! ## The pools -/

def iouringGetIoOp (ctx : IouringCtx) : Option OpId × IouringCtx :=
  match ctx.ioOpPool with
  | [] => (none, ctx)
  | op :: next =>
      (some op, { ctx with ioOpPool := next }.modOp op fun _ => { IoOp.zero with bufIdx := -1 })

def iouringPutIoOp (ctx : IouringCtx) (op : OpId) : IouringCtx :=
  { ctx with ioOpPool := op :: ctx.ioOpPool }

def iouringGetBufAddr (ctx : IouringCtx) : Option BufId × IouringCtx :=
  match ctx.bufAddrPool with
  | [] => (none, ctx)
  | bufAddr :: next => (some bufAddr, { ctx with bufAddrPool := next })

def iouringPutBufAddr (ctx : IouringCtx) (bufAddr : BufId) : IouringCtx :=
  { ctx with bufAddrPool := bufAddr :: ctx.bufAddrPool }

/-- `iouring_recycle_buffer`: the slot goes back to the end of the buffer ring. -/
def iouringRecycleBuffer (ctx : IouringCtx) (op : OpId) : IouringCtx :=
  let o := ctx.ops op
  let ctx := ctx.assert (o.bufAddr.isNone && decide (0 ≤ o.bufIdx))
  { ctx with br := ctx.br ++ [o.bufIdx.toNat] }.modOp op fun o => { o with bufIdx := -1 }

/-! ## Allocating and freeing ops -/

def ioOpAllocBuf (ctx : IouringCtx) (opType : OpType) (fd : Int) (isMulti : Bool)
    (bufOwner : Option OpId) : Option OpId × IouringCtx :=
  match ctx.iouringGetIoOp with
  | (none, ctx) => (none, ctx)
  | (some op, ctx) =>
      let ctx := ctx.modOp op fun o => { o with isMulti := isMulti, opType := opType, fd := fd }
      if isMulti then (some op, ctx)
      else match bufOwner with
        | none =>
            match ctx.iouringGetBufAddr with
            | (none, ctx) => (none, ctx.iouringPutIoOp op)
            | (some bufAddr, ctx) =>
                (some op, ctx.modOp op fun o =>
                  { o with
                    bufAddr := some bufAddr
                    buffer := some (.buf bufAddr)
                    addr := some (.addr bufAddr) })
        | some owner =>
            let own := ctx.ops owner
            if !own.isMulti then
              let ctx := ctx.modOp op fun o =>
                { o with
                  dataLen := own.dataLen
                  bufAddr := own.bufAddr
                  buffer := own.bufAddr.map .buf
                  addr := own.bufAddr.map .addr }
              (some op, ctx.modOp owner fun o => { o with bufAddr := none })
            else
              -- the data is in a slot of the buffer ring
              let ctx := ctx.modOp op fun o =>
                { o with
                  bufIdx := own.bufIdx
                  buffer := own.buffer
                  dataLen := own.dataLen }
              (some op, ctx.modOp owner fun o => { o with bufIdx := doNotFree })

def ioOpAlloc (ctx : IouringCtx) (opType : OpType) (fd : Int) (isMulti : Bool) :
    Option OpId × IouringCtx :=
  ctx.ioOpAllocBuf opType fd isMulti none

/-- `io_op_free(ctx, &op)`, with what it leaves in `op`. -/
def ioOpFree (ctx : IouringCtx) (op : OpId) : Option OpId × IouringCtx :=
  let o := ctx.ops op
  if o.isMulti then
    if 0 ≤ o.bufIdx then
      -- only the buffer is recycled, the multishot op is still in use
      (some op, ctx.iouringRecycleBuffer op)
    else if o.bufIdx ≠ doNotFree then (none, ctx.iouringPutIoOp op)
    else (some op, ctx)
  else
    let ctx := ctx.assert (o.bufAddr.isNone || decide (o.bufIdx = -1))
    let ctx := match o.bufAddr with
      | some bufAddr => ctx.iouringPutBufAddr bufAddr
      | none => if 0 ≤ o.bufIdx then ctx.iouringRecycleBuffer op else ctx
    (none, ctx.iouringPutIoOp op)

/-! ## Submitting requests -/

/-- `io_uring_submit` and the test `ret < 0` that follows it. -/
def submitChecked (ctx : IouringCtx) : Int × IouringCtx :=
  match ctx.ioUringSubmit with
  | (ret, ctx) => if ret < 0 then (-1, ctx) else (0, ctx)

def iouringSubmitMultishotRecvmsgOp (ctx : IouringCtx) (op : OpId) : Int × IouringCtx :=
  let ctx := ctx.assert (ctx.ops op).isMulti
  match ctx.ioUringGetSqe with
  | (false, ctx) => (-1, ctx)
  | (true, ctx) =>
      let msg := (ctx.ops op).msg
      (ctx.ioUringPrep (ctx.mkSqe .recvmsgMultishot op none 0 msg.msgName msg.msgNamelen)
        ).submitChecked

def iouringSubmitMultishotRecvmsg (ctx : IouringCtx) (fd : Int) : Int × IouringCtx :=
  match ctx.ioOpAlloc .udpRecv fd true with
  | (none, ctx) => (-1, ctx)
  | (some op, ctx) =>
      (ctx.modOp op fun o => { o with msg := { o.msg with msgNamelen := sizeofSockaddrStorage } }
        ).iouringSubmitMultishotRecvmsgOp op

def iouringSubmitTunRead (ctx : IouringCtx) (op : OpId) : Int × IouringCtx :=
  match ctx.ioUringGetSqe with
  | (false, ctx) => (-1, ctx)
  | (true, ctx) =>
      let ctx := ctx.assert (decide ((ctx.ops op).opType = .tunRead))
      (ctx.ioUringPrep (ctx.mkSqe .read op (ctx.ops op).buffer bufSize none 0)).submitChecked

/-- `if (data) { memcpy(op->buffer, data, len); op->data_len = len; }` -/
def copyIn (ctx : IouringCtx) (op : OpId) (data : Option Bytes) (len : Int) : IouringCtx :=
  match data with
  | none => ctx
  | some bytes =>
      (ctx.store (ctx.ops op).buffer (bytes.take len.toNat)).modOp op fun o =>
        { o with dataLen := len }

def iouringSubmitTunWrite (ctx : IouringCtx) (op : OpId) (data : Option Bytes) (len : Int) :
    Int × IouringCtx :=
  if len ≤ 0 ∨ (ctx.ops op).fd < 0 then (-1, ctx)
  else
    let ctx := ctx.assert (!(ctx.ops op).isMulti)
    if (bufSize : Int) < len then (-1, ctx)
    else match ctx.ioUringGetSqe with
      | (false, ctx) => (-1, ctx)
      | (true, ctx) =>
          let ctx := ctx.assert (decide ((ctx.ops op).opType = .tunWrite))
          let ctx := ctx.copyIn op data len
          let ctx := ctx.assert (decide ((ctx.ops op).dataLen = len))
          let o := ctx.ops op
          (ctx.ioUringPrep (ctx.mkSqe .write op o.buffer o.dataLen.toNat none 0)).submitChecked

def recvMsghdr (o : IoOp) : IoOp :=
  { o with
    iov := ⟨o.buffer, bufSize⟩
    msg := { o.msg with
      msgIovlen := 1, msgName := o.addr, msgNamelen := sizeofSockaddrStorage }
    addrLen := sizeofSockaddrStorage }

def iouringSubmitUdpRecv (ctx : IouringCtx) (op : OpId) : Int × IouringCtx :=
  let ctx := ctx.assert (decide ((ctx.ops op).opType = .udpRecv))
  let ctx := ctx.assert (!(ctx.ops op).isMulti)
  match ctx.ioUringGetSqe with
  | (false, ctx) => (-1, ctx)
  | (true, ctx) =>
      let ctx := ctx.modOp op recvMsghdr
      let o := ctx.ops op
      (ctx.ioUringPrep (ctx.mkSqe .recvmsg op o.iov.iovBase o.iov.iovLen o.msg.msgName
        o.msg.msgNamelen)).submitChecked

/-- The message header of a send, with `memcpy(op->addr, addr, addr_len)` done. -/
def sendMsghdr (addrLen : Nat) (o : IoOp) : IoOp :=
  { o with
    addrLen := addrLen
    iov := ⟨o.buffer, o.dataLen.toNat⟩
    msg := { o.msg with msgIovlen := 1, msgName := o.addr, msgNamelen := addrLen } }

/-- `io_uring_submit` and the tests of `iouring_submit_udp_send`, the only
submission that also takes 0 for a failure. -/
def submitNonzero (ctx : IouringCtx) : Int × IouringCtx :=
  match ctx.ioUringSubmit with
  | (ret, ctx) => if ret < 0 then (-1, ctx) else if ret = 0 then (-1, ctx) else (0, ctx)

/-- `iouring_submit_udp_send`; `addr` is what stands at the address argument,
which no caller lets be NULL. -/
def iouringSubmitUdpSend (ctx : IouringCtx) (op : Option OpId) (addr : Bytes) (addrLen : Nat)
    (data : Option Bytes) (len : Int) : Int × IouringCtx :=
  match op with
  | none => (-1, ctx)
  | some op =>
      if len ≤ 0 ∨ (ctx.ops op).fd < 0 then (-1, ctx)
      else if (bufSize : Int) < len then (-1, ctx)
      else match ctx.ioUringGetSqe with
        | (false, ctx) => (-1, ctx)
        | (true, ctx) =>
            let ctx := ctx.assert (decide ((ctx.ops op).opType = .udpSend))
            let ctx := ctx.copyIn op data len
            let ctx := ctx.assert (decide ((ctx.ops op).dataLen = len))
            let ctx := ctx.store (ctx.ops op).addr (addr.take addrLen)
            let ctx := ctx.modOp op (sendMsghdr addrLen)
            let o := ctx.ops op
            (ctx.ioUringPrep (ctx.mkSqe .sendmsg op o.iov.iovBase o.iov.iovLen
              o.msg.msgName o.msg.msgNamelen)).submitNonzero

/-! ## Completed receives -/

def iouringMultishotRecvmsgOut (ctx : IouringCtx) (op : OpId) (cqeFlags : CqeFlags) :
    Int × IouringCtx :=
  if !cqeFlags.buffer then (-1, ctx)
  else
    let bid := cqeFlags.bid
    let ctx := ctx.modOp op fun o => { o with bufIdx := bid }
    let res := (ctx.ops op).dataLen
    let msg := (ctx.ops op).msg
    if !ioUringRecvmsgValidate res msg then (-1, ctx)
    else
      let namelen := Bytes.readLe32 (ctx.brBufs bid)
      let ctx := ctx.modOp op fun o =>
        { o with addr := some (.slot bid sizeofRecvmsgOut), addrLen := namelen }
      if namelen = 0 then (-1, ctx)
      else
        let dataLen := ioUringRecvmsgPayloadLength res msg
        let ctx := ctx.modOp op fun o =>
          { o with buffer := some (.slot bid (recvmsgHeader msg)), dataLen := dataLen }
        if dataLen = 0 then (-1, ctx)
        else if !cqeFlags.more then
          -- the multishot request is done
          match ctx.iouringSubmitMultishotRecvmsgOp op with
          | (ret, ctx) =>
              if ret ≠ 0 then (-1, ctx)
              else (0, { ctx with multiRecvRearmed := ctx.multiRecvRearmed + 1 })
        else (0, ctx)

def iouringMultishotReadOut (ctx : IouringCtx) (op : OpId) (cqeFlags : CqeFlags) :
    Int × IouringCtx :=
  if !cqeFlags.buffer then (-1, ctx)
  else
    let ctx := ctx.modOp op fun o =>
      { o with bufIdx := cqeFlags.bid, buffer := some (.slot cqeFlags.bid 0) }
    if !cqeFlags.more then (-1, ctx) else (0, ctx)

def iouringResubmitRecv (ctx : IouringCtx) (completed : OpId) : Int × IouringCtx :=
  let done := ctx.ops completed
  match ctx.ioOpAlloc done.opType done.fd false with
  | (none, ctx) => (-1, ctx)
  | (some newOp, ctx) =>
      match done.opType with
      | .tunRead => ctx.iouringSubmitTunRead newOp
      | .udpRecv => ctx.iouringSubmitUdpRecv newOp
      | _ => (-1, ctx)

/-! ## Initial receives -/

/-- The loop of `iouring_initial_udp_recvs` and `iouring_initial_tun_reads`
over the `n` single-shot receives that are left to submit. -/
def initialRecvs (submit : IouringCtx → OpId → Int × IouringCtx) (opType : OpType) (fd : Int) :
    Nat → IouringCtx → Int × IouringCtx
  | 0, ctx => (0, ctx)
  | n + 1, ctx =>
      match ctx.ioOpAlloc opType fd false with
      | (none, ctx) => initialRecvs submit opType fd n ctx
      | (some op, ctx) =>
          match submit ctx op with
          | (ret, ctx) =>
              if ret < 0 then (1, (ctx.ioOpFree op).2) else initialRecvs submit opType fd n ctx

def iouringInitialUdpRecvs (ctx : IouringCtx) (fd : Int) : Int × IouringCtx :=
  if useMultiRecv then ctx.iouringSubmitMultishotRecvmsg fd
  else initialRecvs iouringSubmitUdpRecv .udpRecv fd ctx.config.nInitialRecvOps ctx

/-- `USE_MULTI_READ` is false, so TUN reads are single-shot. -/
def iouringInitialTunReads (ctx : IouringCtx) (fd : Int) : Int × IouringCtx :=
  initialRecvs iouringSubmitTunRead .tunRead fd ctx.config.nInitialReadOps ctx

/-! ## Initialisation -/

/-- The context a successful `iouring_init` returns.  Each pool is a list of
`n_io_ops` zeroed items in the order they were allocated, and every slot of the
buffer ring is handed to the kernel.  `sqeFree` and `submits` are the kernel's
answers to come. -/
def iouringInit (c : IouringConfig) (sqeFree : Nat → Bool) (submits : Nat → Int) : IouringCtx where
  config := c
  ring := ⟨[], [], [], sqeFree, submits, [], [], []⟩
  ioOpPool := List.range c.nIoOps
  bufAddrPool := List.range c.nIoOps
  br := List.range c.brNBufs
  ops := fun _ => IoOp.zero
  bufs := fun _ => ⟨List.replicate bufSize 0, List.replicate sizeofSockaddrStorage 0⟩
  brBufs := fun _ => List.replicate bufSize 0
  multiRecvRearmed := 0
  asserts := true
  tag := 0

end IouringCtx

end Dataplane.Model
