import Dataplane.Model.Types

/-!
# liburing and the kernel

The calls the program makes to fill and submit queue entries, what the kernel
may do with a request, and the accessors for the header that a multishot
`recvmsg` puts in front of a payload.

The kernel is a set of events.  An event the kernel is not in a position to
perform changes nothing, so every list of events is a kernel behaviour.
-/

namespace Dataplane.Model

open ProofSupport

namespace IouringCtx

/-! ## Submission -/

/-- `io_uring_get_sqe`: whether there is a free entry. -/
def ioUringGetSqe (ctx : IouringCtx) : Bool × IouringCtx :=
  (ctx.ring.sqeFree 0,
    { ctx with ring := { ctx.ring with sqeFree := fun n => ctx.ring.sqeFree (n + 1) } })

def ioUringPrep (ctx : IouringCtx) (sqe : Sqe) : IouringCtx :=
  { ctx with ring := { ctx.ring with
      sq := ctx.ring.sq ++ [sqe]
      queued := ctx.ring.queued ++ [sqe] } }

/-- `io_uring_submit`: the kernel takes as many entries as it says, oldest
first, and none when it answers with an error. -/
def ioUringSubmit (ctx : IouringCtx) : Int × IouringCtx :=
  let ret := ctx.ring.submits 0
  (ret, { ctx with ring := { ctx.ring with
      sq := ctx.ring.sq.drop ret.toNat
      active := ctx.ring.active ++ ctx.ring.sq.take ret.toNat
      submits := fun n => ctx.ring.submits (n + 1) } })

/-- The entry for `op` with the ghosts taken from memory. -/
def mkSqe (ctx : IouringCtx) (opcode : Opcode) (op : OpId) (buffer : Option Ptr) (len : Nat)
    (msgName : Option Ptr) (msgNamelen : Nat) : Sqe where
  opcode := opcode
  fd := (ctx.ops op).fd
  userData := op
  buffer := buffer
  len := len
  msgName := msgName
  msgNamelen := msgNamelen
  name := if opcode.outgoing then ctx.load msgName msgNamelen else []
  data := if opcode.outgoing then ctx.load buffer len else []
  tag := ctx.tag

end IouringCtx

/-! ## Completion -/

/-- What the kernel may do on its own.  `complete` ends a single-shot request
with the result `res`, `data` and `name` being what arrived; `recv` is a
completion of a multishot receive that selected the ring index `bid` and wrote
`data` to its slot, the last one unless `more`; `fail` ends a multishot receive
with an error, without selecting a buffer. -/
inductive KEvent
  | complete (op : OpId) (res : Int) (data name : Bytes) (tag : Nat)
  | recv (op : OpId) (bid : Nat) (res : Int) (data : Bytes) (more : Bool) (tag : Nat)
  | fail (op : OpId) (res : Int)

namespace IouringCtx

/-- The request of `op` in flight, single-shot or multishot. -/
def inFlight (ctx : IouringCtx) (op : OpId) (multi : Bool) : Option Sqe :=
  ctx.ring.active.find? fun r => r.userData == op && (r.opcode == .recvmsgMultishot) == multi

/-- The bytes that the single-shot request `r` puts into memory. -/
def arrived (r : Sqe) (res : Int) (data : Bytes) : Bytes :=
  if 0 ≤ res ∧ (r.opcode = .read ∨ r.opcode = .recvmsg) then data.take r.len else []

/-- The memory side of a single-shot completion.  For an outgoing request the
kernel reads the memory now. -/
def perform (ctx : IouringCtx) (r : Sqe) (res : Int) (data name : Bytes) : IouringCtx :=
  if res < 0 then ctx
  else match r.opcode with
    | .read => ctx.store r.buffer (arrived r res data)
    | .recvmsg => (ctx.store r.buffer (arrived r res data)).store r.msgName (name.take r.msgNamelen)
    | .write | .sendmsg =>
        { ctx with ring := { ctx.ring with wire := ctx.ring.wire ++
            [⟨r, ctx.load r.msgName r.msgNamelen, ctx.load r.buffer r.len⟩] } }
    | .recvmsgMultishot => ctx

/-- Post a completion; the request stays in flight when it is not its last. -/
def post (ctx : IouringCtx) (c : Cqe) : IouringCtx :=
  { ctx with ring := { ctx.ring with
      active := if c.flags.more then ctx.ring.active else ctx.ring.active.erase c.req
      cq := ctx.ring.cq ++ [c] } }

/-- One event of the kernel. -/
def kernel (ctx : IouringCtx) : KEvent → IouringCtx
  | .complete op res data name tag =>
      match ctx.inFlight op false with
      | none => ctx
      | some r => (ctx.perform r res data name).post
          ⟨r, res, ⟨false, false, 0⟩, arrived r res data,
            if r.opcode.outgoing then r.tag else tag⟩
  | .recv op bid res data more tag =>
      match ctx.inFlight op true with
      | none => ctx
      | some r =>
          if bid ∈ ctx.br then
            let slot := Bytes.overwrite (ctx.brBufs bid) (data.take bufSize)
            { ctx with
              br := ctx.br.erase bid
              brBufs := Function.update ctx.brBufs bid slot }.post
              ⟨r, res, ⟨true, more, bid⟩, data.take bufSize, tag⟩
          else ctx
  | .fail op res =>
      match ctx.inFlight op true with
      | none => ctx
      | some r => if res < 0 then ctx.post ⟨r, res, ⟨false, false, 0⟩, [], 0⟩ else ctx

end IouringCtx

/-! ## `struct io_uring_recvmsg_out`

A slot filled by a multishot `recvmsg` starts with four 32-bit words (the
lengths of name, control data and payload, and the message flags), followed by
`msg_namelen` bytes for the name, `msg_controllen` bytes of control data, and
the payload up to the end of the slot. -/

/-- `sizeof(struct io_uring_recvmsg_out)` -/
def sizeofRecvmsgOut : Nat := 16

/-- Where the payload starts in a slot. -/
def recvmsgHeader (msg : Msghdr) : Nat := msg.msgControllen + msg.msgNamelen + sizeofRecvmsgOut

/-- `io_uring_recvmsg_validate(buf, buf_len, msgh) != NULL` -/
def ioUringRecvmsgValidate (bufLen : Int) (msg : Msghdr) : Bool :=
  decide (0 ≤ bufLen ∧ (recvmsgHeader msg : Int) ≤ bufLen)

/-- `io_uring_recvmsg_payload_length(o, buf_len, msgh)` for a valid `o` -/
def ioUringRecvmsgPayloadLength (bufLen : Int) (msg : Msghdr) : Int :=
  bufLen - recvmsgHeader msg

def msgTrunc : Nat := 0x20

/-- How the kernel lays out a datagram in a slot for a receive armed with
`msg_namelen = namelen` and no control data.  `pad` is what stands in the name
area behind the name, and what does not fit into the slot is cut off. -/
def recvmsgOut (namelen : Nat) (name pad payload : Bytes) : Bytes :=
  let room := bufSize - sizeofRecvmsgOut - namelen
  Bytes.le32 name.length ++ Bytes.le32 0 ++ Bytes.le32 payload.length ++
    Bytes.le32 (if room < payload.length then msgTrunc else 0) ++
    (name ++ pad) ++ payload.take room

end Dataplane.Model
