import Dataplane.ProofSupport.Bytes
import Mathlib.Logic.Function.Basic

/-!
# The data structures of `include/iouring.h`

Pointers become numbers: an `io_op_t *` is an `OpId` and a `buf_addr_t *` a
`BufId`, both counted in the order the pools were allocated in.  A `Ptr` points
into one of the two kinds of payload memory, the `buf_addr_t` pool and the
slots of the buffer ring.
-/

namespace Dataplane.Model

open ProofSupport

def bufSize : Nat := 1600

/-- `sizeof(struct sockaddr_storage)` -/
def sizeofSockaddrStorage : Nat := 128

/-- `DO_NOT_FREE`, the `buf_idx` of a multishot op whose buffer went to a send op -/
def doNotFree : Int := -2

def useMultiRecv : Bool := true

abbrev OpId := Nat
abbrev BufId := Nat

/-- The `OP_TYPE_*` constants.  `unknown` is the 0 that `memset` leaves. -/
inductive OpType
  | unknown
  | tunRead
  | tunWrite
  | udpRecv
  | udpSend
  deriving DecidableEq, Repr

/-- A non-NULL pointer to payload or address bytes. -/
inductive Ptr
  | buf (b : BufId)            -- `buf_addr->buf`
  | addr (b : BufId)           -- `&buf_addr->addr`
  | slot (i : Nat) (off : Nat) -- `br_bufs + i * BUF_SIZE + off`
  deriving DecidableEq, Repr

/-- `buf_addr_t` without its `next` link. -/
structure BufAddr where
  buf : Bytes
  addr : Bytes

structure Iovec where
  iovBase : Option Ptr
  iovLen : Nat

/-- `struct msghdr`; `msg_iov` is always `&op->iov`. -/
structure Msghdr where
  msgName : Option Ptr
  msgNamelen : Nat
  msgControllen : Nat
  msgIovlen : Nat

/-- `io_op_t` without its `next` link. -/
structure IoOp where
  opType : OpType
  fd : Int
  isMulti : Bool
  buffer : Option Ptr
  dataLen : Int
  bufIdx : Int
  bufAddr : Option BufId
  msg : Msghdr
  iov : Iovec
  addr : Option Ptr
  addrLen : Nat

/-- `memset(op, 0, sizeof(io_op_t))` -/
def IoOp.zero : IoOp where
  opType := .unknown
  fd := 0
  isMulti := false
  buffer := none
  dataLen := 0
  bufIdx := 0
  bufAddr := none
  msg := ⟨none, 0, 0, 0⟩
  iov := ⟨none, 0⟩
  addr := none
  addrLen := 0

structure IouringConfig where
  sqDepth : Nat
  cqDepth : Nat
  brGid : Nat
  brNBufs : Nat
  nIoOps : Nat
  nInitialRecvOps : Nat
  nInitialReadOps : Nat

/-! ## Requests and completions -/

inductive Opcode
  | read
  | write
  | recvmsg
  | sendmsg
  | recvmsgMultishot
  deriving DecidableEq, Repr

/-- The requests that carry bytes out of the process. -/
def Opcode.outgoing : Opcode → Bool
  | .write | .sendmsg => true
  | _ => false

/-- A submission queue entry as the `io_uring_prep_*` calls fill it; the fields
of the `msghdr` are copied into it, as the kernel does when it takes the entry.
`name`, `data` and `tag` are ghosts: what the address and the payload of an
outgoing request were when the entry was filled, and which packet it stems
from. -/
structure Sqe where
  opcode : Opcode
  fd : Int
  userData : OpId
  buffer : Option Ptr
  len : Nat
  msgName : Option Ptr
  msgNamelen : Nat
  name : Bytes
  data : Bytes
  tag : Nat
  deriving DecidableEq

/-- `IORING_CQE_F_BUFFER`, `IORING_CQE_F_MORE` and `flags >> IORING_CQE_BUFFER_SHIFT` -/
structure CqeFlags where
  buffer : Bool
  more : Bool
  bid : Nat
  deriving DecidableEq

/-- A completion queue entry.  `req` is the request it completes, of which the
program only sees `user_data`; `data` and `tag` are ghosts: the bytes the kernel
put into memory for it, and the packet they are. -/
structure Cqe where
  req : Sqe
  res : Int
  flags : CqeFlags
  data : Bytes
  tag : Nat
  deriving DecidableEq

/-- What the kernel sent to a socket or wrote to the TUN device for `req`: the
bytes it found in memory at that time. -/
structure Transfer where
  req : Sqe
  name : Bytes
  data : Bytes
  deriving DecidableEq

/-- `struct io_uring` with the kernel behind it: the entries reserved and not
yet taken by the kernel, the requests in flight, and the completions not yet
taken by the program.  `sqeFree` and `submits` are the answers that
`io_uring_get_sqe` and `io_uring_submit` are going to give.  The last three are
histories. -/
structure IoUring where
  sq : List Sqe
  active : List Sqe
  cq : List Cqe
  sqeFree : Nat → Bool
  submits : Nat → Int
  queued : List Sqe
  seen : List Cqe
  wire : List Transfer

/-- `iouring_ctx_t` with the memory it manages.  `br` lists the ring indices
that are available to the kernel, `asserts` tells whether every `assert` reached
so far held (a release build compiles them out and goes on), and `tag` is the
packet being handled. -/
structure IouringCtx where
  config : IouringConfig
  ring : IoUring
  ioOpPool : List OpId
  bufAddrPool : List BufId
  br : List Nat
  ops : OpId → IoOp
  bufs : BufId → BufAddr
  brBufs : Nat → Bytes
  multiRecvRearmed : Nat
  asserts : Bool
  tag : Nat

namespace IouringCtx

def load (ctx : IouringCtx) (p : Option Ptr) (n : Nat) : Bytes :=
  match p with
  | none => []
  | some (.buf b) => (ctx.bufs b).buf.take n
  | some (.addr b) => (ctx.bufs b).addr.take n
  | some (.slot i off) => ((ctx.brBufs i).drop off).take n

/-- `memcpy(p, bytes, |bytes|)`.  The program never writes through a pointer
into the buffer ring. -/
def store (ctx : IouringCtx) (p : Option Ptr) (bytes : Bytes) : IouringCtx :=
  match p with
  | some (.buf b) =>
      let item := { ctx.bufs b with buf := Bytes.overwrite (ctx.bufs b).buf bytes }
      { ctx with bufs := Function.update ctx.bufs b item }
  | some (.addr b) =>
      let item := { ctx.bufs b with addr := Bytes.overwrite (ctx.bufs b).addr bytes }
      { ctx with bufs := Function.update ctx.bufs b item }
  | _ => ctx

def modOp (ctx : IouringCtx) (op : OpId) (f : IoOp → IoOp) : IouringCtx :=
  { ctx with ops := Function.update ctx.ops op (f (ctx.ops op)) }

def assert (ctx : IouringCtx) (b : Bool) : IouringCtx :=
  { ctx with asserts := ctx.asserts && b }

end IouringCtx

end Dataplane.Model
