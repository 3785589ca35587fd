import Dataplane.Model.Session

/-!
# The end of an edge: `free(op)` and `iouring_cleanup`

What is freed from the end of `tun_udp_run` or `tun_udp_run_zero` on, up to
`io_uring_queue_exit`.  The context itself is freed behind that call.
-/

namespace Dataplane.Model

/-- What `malloc`, `calloc` and `posix_memalign` gave to `iouring_init`, less the
context: an `io_op_t`, a `buf_addr_t`, or `br_bufs`. -/
inductive HeapItem
  | ioOp (op : OpId)
  | bufAddr (b : BufId)
  | brBufs
  deriving DecidableEq

namespace IouringCtx

def iouringFreeIoOpPool (ctx : IouringCtx) : List HeapItem := ctx.ioOpPool.map .ioOp

def iouringFreeBufAddrPool (ctx : IouringCtx) : List HeapItem := ctx.bufAddrPool.map .bufAddr

/-- `iouring_free_buffers`; `ret` is what `io_uring_free_buf_ring` answers. -/
def iouringFreeBuffers (ctx : IouringCtx) (ret : Int) : List HeapItem :=
  ctx.iouringFreeIoOpPool ++ ctx.iouringFreeBufAddrPool ++
    if useMultiRecv then if ret ≠ 0 then [] else [.brBufs] else []

end IouringCtx

/-- What is freed, each with the state of the ring at that time: the op that is
left in the variable of the loop, at its end, and the buffers in
`iouring_cleanup`. -/
def teardown (exit : IouringCtx) (op : Option OpId) (cleanup : IouringCtx) (ret : Int) :
    List (IouringCtx × HeapItem) :=
  op.toList.map (fun op => (exit, .ioOp op)) ++
    (cleanup.iouringFreeBuffers ret).map fun item => (cleanup, item)

/-- The request `r` refers to an item as its op or its data buffer.  A multishot
receive has no buffer until it is completed with one. -/
def Sqe.RefersTo (r : Sqe) : HeapItem → Prop
  | .ioOp op => r.userData = op
  | .bufAddr b => r.opcode ≠ .recvmsgMultishot ∧
      (r.buffer = some (.buf b) ∨ r.msgName = some (.addr b))
  | .brBufs => r.opcode ≠ .recvmsgMultishot ∧ ∃ i off, r.buffer = some (.slot i off)

/-- Nothing is freed twice, and nothing while a request in flight refers to it. -/
structure FreesSafely (frees : List (IouringCtx × HeapItem)) : Prop where
  once : (frees.map Prod.snd).Nodup
  unused : ∀ p ∈ frees, ∀ r ∈ p.1.ring.active, ¬ r.RefersTo p.2

end Dataplane.Model
