import Dataplane.Model.Session
import Dataplane.Proofs.Datagram
import Dataplane.Proofs.Flights
import Dataplane.Proofs.Ownership

/-!
# The lengths of a received datagram

Where in the buffer ring the address and the payload of a datagram lie, and how
long whatever the program makes of them can be.
-/

namespace Dataplane.Model

open ProofSupport

variable {σ : Type}

def sizeofSockaddrIn : Nat := 16

def Ptr.ringOffset : Ptr → Option Nat
  | .slot i off => some (i * bufSize + off)
  | _ => none

/-- The `len` bytes from `p` on lie in the slot `bid`, and in no other one. -/
structure InSlot (bid : Nat) (p : Option Ptr) (len start : Nat) : Prop where
  points : p.bind Ptr.ringOffset = some start
  lower : bid * bufSize ≤ start
  upper : start + len ≤ (bid + 1) * bufSize
  others : ∀ i, i ≠ bid → start + len ≤ i * bufSize ∨ (i + 1) * bufSize ≤ start

/-- The op presents an address and a payload that lie apart in the slot `bid`
of `n` slots, and the arithmetic on them stays within an `int`. -/
structure Placed (o : IoOp) (bid n : Nat) : Prop where
  bufIdx : o.bufIdx = bid
  places : ∃ addr payload, InSlot bid o.addr o.addrLen addr ∧
    InSlot bid o.buffer o.dataLen.toNat payload ∧ addr + o.addrLen ≤ payload
  allocated : (bid + 1) * bufSize ≤ n * bufSize
  noWrap : bid < 2 ^ 16 → (bid + 1) * bufSize < 2 ^ 31
  pos : 0 < o.dataLen
  le : o.dataLen ≤ bufSize - 16 - sizeofSockaddrStorage

/-- `SSL_read` delivers at most as many bytes as it is asked for. -/
def Ssl.Bounded (api : Ssl σ) : Prop :=
  ∀ ssl rbio n, (api.read ssl rbio n).ret ≤ n ∧ (api.read ssl rbio n).data.length ≤ n

/-- What the program makes of the datagram that `op` presents keeps to its
buffers. -/
structure Bounded (api : Ssl σ) (ctx : IouringCtx) (op : OpId) (data : Bytes) (len : Int) :
    Prop where
  learnt : ∀ conn : Connection σ, conn.addr.length = sizeofSockaddrStorage →
    (ctx.ops op).addrLen ≤ conn.addr.length ∧
      (learnAddr ctx conn op).2.addr.length = sizeofSockaddrStorage
  assertion : ∀ conn : Connection σ, len < bufSize ∧
    (conn.dtlsDecryptPacket api data len bufSize).2.2.1 = true
  reads : ∀ (conn : Connection σ) (k : Nat),
    (Connection.sslReadAgain api len.toNat k (conn.sslRead api len.toNat)).1.ret ≤ bufSize ∧
      (Connection.sslReadAgain api len.toNat k (conn.sslRead api len.toNat)).1.data.length ≤ bufSize
  plaintext : ∀ conn : Connection σ, (conn.dtlsDecryptPacket api data len bufSize).1 ≤ bufSize ∧
    (conn.dtlsDecryptPacket api data len bufSize).2.1.length ≤ bufSize
  reencrypted : ∀ (conn : Connection σ) (plaintext : Bytes),
    (conn.dtlsEncryptPacket api plaintext bufSize).1 ≤ bufSize ∧
      (conn.dtlsEncryptPacket api plaintext bufSize).2.1.length ≤ bufSize
  written : ∀ (conn : Connection σ) (tunFd : Int), Proofs.Queues (fun r => r.len ≤ bufSize) ctx
    (dtlsDecryptAndWriteTun api conn tunFd data len ctx).2.1
  forwarded : ∀ recvConn forwardConn : Connection σ, Proofs.Queues (fun r => r.len ≤ bufSize) ctx
    (forwardBetween api ctx recvConn forwardConn data len).2.1

/-- The completion `c` stops the loop `s`, or the handshake that stands there,
before anything is made of the datagram. -/
structure Unused (api : Ssl σ) (s : LoopState σ) (c : Cqe) (cq : List Cqe) : Prop where
  null : ((s.uring.iouringCqeSeen c cq).waitForRecvBody c).1 = .null
  prog : (takeCqe api s c cq).prog = s.prog
  status : (takeCqe api s c cq).status = .exited (-1) none
  queued : Proofs.Queues Proofs.Receives s.uring (takeCqe api s c cq).uring
  handshake : ∀ h : HandshakeState σ, h.uring = s.uring →
    (h.takeCqe c cq).conn = h.conn ∧ (h.takeCqe c cq).pc = .returned (-1)

structure SetUp (o : IoOp) : Prop where
  submitted : ∃ (receiver receiver' : IouringCtx) (fd : Int) (op : OpId) (ops : List OpId),
    receiver.ioOpPool = op :: ops ∧
    receiver.iouringSubmitMultishotRecvmsg fd = (0, receiver') ∧ o.msg = (receiver'.ops op).msg
  opType : o.opType = .udpRecv
  multi : o.isMulti = true

end Dataplane.Model

namespace Dataplane.Proofs

open ProofSupport Model

variable {σ : Type} {api : Ssl σ} {ctx : IouringCtx} {op : OpId}

/-! ## Slots -/

theorem inSlot {bid off len : Nat} (h : off + len ≤ bufSize) :
    InSlot bid (some (.slot bid off)) len (bid * bufSize + off) := by
  have hnext : (bid + 1) * bufSize = bid * bufSize + bufSize := Nat.succ_mul bid bufSize
  refine ⟨rfl, by omega, by omega, fun i hi => ?_⟩
  rcases Nat.lt_or_gt_of_ne hi with hlt | hgt
  · right
    have hmul := Nat.mul_le_mul_right bufSize (Nat.succ_le_of_lt hlt)
    rw [Nat.succ_eq_add_one] at hmul
    omega
  · left
    have hmul := Nat.mul_le_mul_right bufSize (Nat.succ_le_of_lt hgt)
    rw [Nat.succ_eq_add_one] at hmul
    omega

theorem iouringMultishotRecvmsgOut_success {flags : CqeFlags}
    (hmsg : recvmsgHeader (ctx.ops op).msg = slotHeader)
    (h : (ctx.iouringMultishotRecvmsgOut op flags).1 = 0) :
    (slotHeader : Int) < (ctx.ops op).dataLen ∧
      (ctx.iouringMultishotRecvmsgOut op flags).2.ops op = { ctx.ops op with
        bufIdx := flags.bid
        addr := some (.slot flags.bid sizeofRecvmsgOut)
        addrLen := Bytes.readLe32 (ctx.brBufs flags.bid)
        buffer := some (.slot flags.bid slotHeader)
        dataLen := (ctx.ops op).dataLen - slotHeader } ∧
      (ctx.iouringMultishotRecvmsgOut op flags).2.brBufs = ctx.brBufs := by
  have hdec := iouringMultishotRecvmsgOut_decoded ctx op flags
  obtain ⟨hbuf, hread⟩ := hdec.readable h
  obtain ⟨hop, hslots⟩ := hdec.decodes hbuf hread
  have hlong := hread.1
  rw [hmsg] at hlong
  refine ⟨hlong, ?_, hslots⟩
  rw [hop, present, hmsg]

/-! ## `SSL_read` and `SSL_write` -/

theorem sslReadAgain_bounded (hbound : api.Bounded) (n k : Nat)
    {last : SslRet σ × Connection σ} (h : last.1.ret ≤ n ∧ last.1.data.length ≤ n) :
    (Connection.sslReadAgain api n k last).1.ret ≤ n ∧
      (Connection.sslReadAgain api n k last).1.data.length ≤ n := by
  induction k generalizing last with
  | zero => exact h
  | succ k ih =>
      rw [Connection.sslReadAgain]
      split
      · exact ih (hbound last.2.ssl last.2.rbio n)
      · exact h

theorem sslReads_bounded (hbound : api.Bounded) (conn : Connection σ) (n k : Nat) :
    (Connection.sslReadAgain api n k (conn.sslRead api n)).1.ret ≤ n ∧
      (Connection.sslReadAgain api n k (conn.sslRead api n)).1.data.length ≤ n :=
  sslReadAgain_bounded hbound n k (hbound conn.ssl conn.rbio n)

theorem dtlsDecryptPacket_bounded (hbound : api.Bounded) (conn : Connection σ) (data : Bytes)
    (len size : Int) :
    (conn.dtlsDecryptPacket api data len size).1 ≤ len.toNat ∧
      (conn.dtlsDecryptPacket api data len size).2.1.length ≤ len.toNat := by
  have hreads := sslReads_bounded hbound
    { conn with rbio := conn.rbio ++ data.take len.toNat } len.toNat 4
  rw [dtlsDecryptPacket_eq api conn data len size rfl]
  split_ifs
  · exact ⟨by omega, Nat.zero_le _⟩
  · exact ⟨by omega, Nat.zero_le _⟩
  · exact hreads

theorem dtlsDecryptPacket_assertion (api : Ssl σ) (conn : Connection σ) (data : Bytes)
    {len size : Int} (h : len < size) :
    (conn.dtlsDecryptPacket api data len size).2.2.1 = true := by
  rw [dtlsDecryptPacket_eq api conn data len size rfl]
  split_ifs
  · rfl
  · exact decide_eq_true h
  · exact decide_eq_true h

theorem dtlsEncryptPacket_bounded (api : Ssl σ) (conn : Connection σ) (data : Bytes) (size : Nat) :
    (conn.dtlsEncryptPacket api data size).1 ≤ size ∧
      (conn.dtlsEncryptPacket api data size).2.1.length ≤ size := by
  rw [dtlsEncryptPacket_eq api conn data size rfl]
  have hfront := List.length_take_le size (conn.wbio ++ (api.write conn.ssl conn.rbio data).out)
  split_ifs
  · exact ⟨by omega, Nat.zero_le _⟩
  · exact ⟨by omega, hfront⟩
  · exact ⟨by omega, hfront⟩

/-! ## The requests -/

theorem Submitted.queues {P : Sqe → Prop} {mid : IouringCtx} {r : Sqe} {out : Int × IouringCtx}
    (h : Submitted ctx mid r out) (hmid : mid.ring = ctx.ring) (hr : P r) : Queues P ctx out.2 := by
  cases h with
  | refused f => exact .of_eq rfl
  | queued _ heff =>
      refine ⟨[r], ?_, by simpa using hr⟩
      rw [heff.queued, hmid]
  | failed _ heff _ =>
      refine ⟨[r], ?_, by simpa using hr⟩
      rw [heff.queued, hmid]

theorem dtlsDecryptAndWriteTun_len (api : Ssl σ) (conn : Connection σ) (tunFd : Int) (data : Bytes)
    (len : Int) (ctx : IouringCtx) :
    Queues (fun r => r.len = (conn.dtlsDecryptPacket api data len bufSize).1.toNat) ctx
      (dtlsDecryptAndWriteTun api conn tunFd data len ctx).2.1 := by
  have hring := ioOpAlloc_ring ctx .tunWrite tunFd false
  unfold dtlsDecryptAndWriteTun
  rcases ha : ctx.ioOpAlloc .tunWrite tunFd false with ⟨_ | op, ctx1⟩
  · rw [ha] at hring
    exact .of_ring_eq hring
  obtain ⟨ops, b, bufs, -, -, hctx1⟩ := ioOpAlloc_single_eq ha
  rw [ha] at hring
  dsimp only at hring ⊢
  rcases hdec : conn.dtlsDecryptPacket api data len bufSize with ⟨n, decrypted, ok, conn'⟩
  dsimp only
  split
  · exact .of_ring_eq (by rw [(ioOpFree_ring _ _).1, modOp_ring, store_ring, hring])
  generalize hmid : (((ctx1.store (ctx1.ops op).buffer decrypted).modOp op fun o =>
    { o with dataLen := n }).modOp op fun o => { o with fd := tunFd }) = mid
  have hmidring : mid.ring = ctx.ring := by
    rw [← hmid, modOp_ring, modOp_ring, store_ring, hring]
  have hop : mid.ops op = { pooledOp .tunWrite tunFd b with dataLen := n } := by
    rw [← hmid, modOp_self, modOp_self, store_ops, hctx1]
    simp [pooledOp, freshOp]
  have hsub : Submitted mid mid (mid.mkSqe .write op (mid.ops op).buffer n.toNat none 0)
      (mid.iouringSubmitTunWrite op none n) :=
    iouringSubmitTunWrite_submitted (by rw [hop]; rfl) (by rw [hop]; rfl) (by rw [hop])
  have hqueues : Queues (fun r => r.len = n.toNat) ctx (mid.iouringSubmitTunWrite op none n).2 :=
    Queues.trans (.of_ring_eq hmidring) (hsub.queues rfl rfl)
  split
  · exact hqueues.trans (ioOpFree_queues _ _)
  · exact hqueues

theorem dtlsDecryptAndWriteTun_lengths (conn : Connection σ) (tunFd : Int) {data : Bytes}
    {len : Int} (hlen : (conn.dtlsDecryptPacket api data len bufSize).1 ≤ bufSize)
    (ctx : IouringCtx) : Queues (fun r => r.len ≤ bufSize) ctx
      (dtlsDecryptAndWriteTun api conn tunFd data len ctx).2.1 := by
  obtain ⟨rs, hqueued, hrs⟩ := dtlsDecryptAndWriteTun_len api conn tunFd data len ctx
  refine ⟨rs, hqueued, fun r hr => ?_⟩
  have hrlen : r.len = (conn.dtlsDecryptPacket api data len bufSize).1.toNat := hrs r hr
  show r.len ≤ bufSize
  omega

theorem dtlsEncryptAndSendUdp_lengths (api : Ssl σ) (conn : Connection σ) (data : Bytes)
    (ctx : IouringCtx) : Queues (fun r => r.len ≤ bufSize) ctx
      (dtlsEncryptAndSendUdp api conn data ctx).2.1 := by
  have hlen := (dtlsEncryptPacket_bounded api conn data bufSize).1
  have hring := ioOpAlloc_ring ctx .udpSend conn.udpFd false
  unfold dtlsEncryptAndSendUdp
  rcases ha : ctx.ioOpAlloc .udpSend conn.udpFd false with ⟨_ | op, ctx1⟩
  · rw [ha] at hring
    exact .of_ring_eq hring
  obtain ⟨ops, b, bufs, -, -, hctx1⟩ := ioOpAlloc_single_eq ha
  rw [ha] at hring
  dsimp only at hring ⊢
  rcases henc : conn.dtlsEncryptPacket api data bufSize with ⟨n, result, conn'⟩
  rw [henc] at hlen
  dsimp only at hlen ⊢
  split
  · exact .of_ring_eq (by rw [(ioOpFree_ring _ _).1, modOp_ring, store_ring, hring])
  generalize hmid : ((ctx1.store (ctx1.ops op).buffer result).modOp op fun o =>
    { o with dataLen := n }) = mid
  have hmidring : mid.ring = ctx.ring := by rw [← hmid, modOp_ring, store_ring, hring]
  have hop : mid.ops op = { pooledOp .udpSend conn.udpFd b with dataLen := n } := by
    rw [← hmid, modOp_self, store_ops, hctx1]
    simp
  have htype : (mid.ops op).opType = .udpSend := by rw [hop]; rfl
  have hsub := iouringSubmitUdpSend_submitted conn'.addr conn'.addrLen none n htype
    (by rw [copyIn_op, hop]; rfl)
  have hqueues : Queues (fun r => r.len ≤ bufSize) ctx
      (mid.iouringSubmitUdpSend (some op) conn'.addr conn'.addrLen none n).2 := by
    refine Queues.trans (.of_ring_eq hmidring) (hsub.queues ?_ ?_)
    · simp [sendCtx, IouringCtx.copyIn]
    · show n.toNat ≤ bufSize
      omega
  split
  · exact hqueues.trans (ioOpFree_queues _ _)
  · exact hqueues

theorem forwardBetween_lengths (api : Ssl σ) (ctx : IouringCtx)
    (recvConn forwardConn : Connection σ)
    (data : Bytes) (len : Int) : Queues (fun r => r.len ≤ bufSize) ctx
      (forwardBetween api ctx recvConn forwardConn data len).2.1 := by
  unfold forwardBetween
  dsimp only
  split
  · exact .of_eq rfl
  · exact dtlsEncryptAndSendUdp_lengths api forwardConn _ ctx

/-! ## A failed decoding -/

theorem iouringMultishotRecvmsgOut_ret (ctx : IouringCtx) (op : OpId) (flags : CqeFlags) :
    (ctx.iouringMultishotRecvmsgOut op flags).1 = 0 ∨
      (ctx.iouringMultishotRecvmsgOut op flags).1 = -1 :=
  (iouringMultishotRecvmsgOut_decoded ctx op flags).ret

theorem waitForRecvBody_rejected {c : Cqe} (htype : (ctx.ops c.req.userData).opType = .udpRecv)
    (hmulti : (ctx.ops c.req.userData).isMulti = true) (hres : 0 ≤ c.res)
    (h : ((ctx.modOp c.req.userData fun o => { o with dataLen := c.res }).iouringMultishotRecvmsgOut
      c.req.userData c.flags).1 ≠ 0) : (ctx.waitForRecvBody c).1 = .null := by
  have hret := (iouringMultishotRecvmsgOut_ret _ _ _).resolve_left h
  rw [waitForRecvBody_multishot htype hmulti hres, IouringCtx.waitForRecvDone,
    if_pos (by rw [hret]; decide)]

/-- What `iouring_multishot_recvmsg_out` rejects is not used. -/
theorem unused_of_rejected (api : Ssl σ) {s : LoopState σ} {c : Cqe} (cq : List Cqe)
    (htype : (s.uring.ops c.req.userData).opType = .udpRecv)
    (hmulti : (s.uring.ops c.req.userData).isMulti = true) (hres : 0 ≤ c.res)
    (h : (((s.uring.iouringCqeSeen c cq).modOp c.req.userData fun o =>
      { o with dataLen := c.res }).iouringMultishotRecvmsgOut c.req.userData c.flags).1 ≠ 0) :
    Unused api s c cq := by
  have hnull : ((s.uring.iouringCqeSeen c cq).waitForRecvBody c).1 = .null :=
    waitForRecvBody_rejected htype hmulti hres h
  have hqueues := waitForRecvBody_queues (s.uring.iouringCqeSeen c cq) c
  refine ⟨hnull, ?_, ?_, ?_, fun h huring => ?_⟩
  · unfold takeCqe
    generalize (s.uring.iouringCqeSeen c cq).waitForRecvBody c = out at *
    obtain ⟨step, ctx⟩ := out
    obtain rfl : step = .null := hnull
    rfl
  · unfold takeCqe
    generalize (s.uring.iouringCqeSeen c cq).waitForRecvBody c = out at *
    obtain ⟨step, ctx⟩ := out
    obtain rfl : step = .null := hnull
    rfl
  · have hseen : Queues Receives s.uring (s.uring.iouringCqeSeen c cq) := .of_eq rfl
    refine hseen.trans ?_
    unfold takeCqe
    generalize (s.uring.iouringCqeSeen c cq).waitForRecvBody c = out at *
    obtain ⟨step, ctx⟩ := out
    obtain rfl : step = .null := hnull
    exact hqueues
  · unfold HandshakeState.takeCqe
    rw [huring]
    generalize (s.uring.iouringCqeSeen c cq).waitForRecvBody c = out at *
    obtain ⟨step, ctx⟩ := out
    obtain rfl : step = .null := hnull
    exact ⟨rfl, rfl⟩

/-! ## Every datagram -/

theorem SetUp.header {o : IoOp} (h : SetUp o) : recvmsgHeader o.msg = slotHeader := by
  obtain ⟨receiver, receiver', fd, op, ops, hpool, harm, hmsg⟩ := h.submitted
  rw [hmsg, armed_msg hpool harm]
  rfl

theorem length_load_slot_le (ctx : IouringCtx) (i off n : Nat) :
    (ctx.load (some (.slot i off)) n).length ≤ n :=
  List.length_take_le _ _

/-- When a loop takes a datagram from an IPv4 address that a multishot receive
has put into a slot, the op presents address and payload within that slot, and
everything that is made of them keeps to its buffer; or the datagram is not
used. -/
theorem datagram_lengths (hbound : api.Bounded) (s : LoopState σ) (c : Cqe) (cq : List Cqe)
    (hsetup : SetUp (s.uring.ops c.req.userData)) (hres : 0 ≤ c.res) (hle : c.res ≤ bufSize)
    (hbid : c.flags.bid < s.uring.config.brNBufs)
    (hname : Bytes.readLe32 (s.uring.brBufs c.flags.bid) = sizeofSockaddrIn) :
    let op := c.req.userData
    let out := ((s.uring.iouringCqeSeen c cq).modOp op fun o =>
      { o with dataLen := c.res }).iouringMultishotRecvmsgOut op c.flags
    (out.1 = 0 → Placed (out.2.ops op) c.flags.bid s.uring.config.brNBufs ∧
      Model.Bounded api out.2 op (out.2.load (out.2.ops op).buffer (out.2.ops op).dataLen.toNat)
        (out.2.ops op).dataLen) ∧
    (out.1 ≠ 0 → Unused api s c cq) := by
  intro op out
  refine ⟨fun hok => ?_, unused_of_rejected api cq hsetup.opType hsetup.multi hres⟩
  have hmsg := SetUp.header hsetup
  obtain ⟨hlong, hop, -⟩ := iouringMultishotRecvmsgOut_success
    (by rw [modOp_self]; exact hmsg) hok
  rw [modOp_self] at hlong hop
  dsimp only at hlong hop
  have hheader : (slotHeader : Int) = 144 := rfl
  have hsize : bufSize = 1600 := rfl
  have haddr : (out.2.ops op).addr = some (.slot c.flags.bid sizeofRecvmsgOut) := by rw [hop]
  have haddrLen : (out.2.ops op).addrLen = 16 := by rw [hop]; exact hname
  have hbuffer : (out.2.ops op).buffer = some (.slot c.flags.bid slotHeader) := by rw [hop]
  have hdataLen : (out.2.ops op).dataLen = c.res - slotHeader := by rw [hop]
  have hbidx : (out.2.ops op).bufIdx = c.flags.bid := by rw [hop]
  have hlen : (out.2.ops op).dataLen ≤ 1456 := by omega
  have hpos : 0 < (out.2.ops op).dataLen := by omega
  have hpayload : InSlot c.flags.bid (out.2.ops op).buffer (out.2.ops op).dataLen.toNat
      (c.flags.bid * bufSize + slotHeader) := by
    rw [hbuffer]
    apply inSlot
    have hnat : slotHeader = 144 := rfl
    omega
  have hsource : InSlot c.flags.bid (out.2.ops op).addr (out.2.ops op).addrLen
      (c.flags.bid * bufSize + sizeofRecvmsgOut) := by
    rw [haddr, haddrLen]
    exact inSlot (by decide)
  refine ⟨⟨hbidx, ⟨_, _, hsource, hpayload, ?_⟩, Nat.mul_le_mul_right _ hbid, fun hshort => ?_,
    hpos, ?_⟩, ⟨fun conn hconn => ?_, fun conn => ⟨by omega, ?_⟩, fun conn k => ?_, fun conn => ?_,
    fun conn plaintext => ?_, fun conn tunFd => ?_, fun recvConn forwardConn => ?_⟩⟩
  · rw [haddrLen, Nat.add_assoc]
    exact Nat.add_le_add_left (by decide) _
  · have hmul := Nat.mul_le_mul_right bufSize (Nat.succ_le_of_lt hshort)
    rw [Nat.succ_eq_add_one] at hmul
    omega
  · exact hlen
  · have hload := length_load_slot_le out.2 c.flags.bid sizeofRecvmsgOut 16
    refine ⟨by rw [haddrLen, hconn]; decide, ?_⟩
    unfold learnAddr
    split
    · dsimp only
      rw [haddr, haddrLen, Bytes.length_overwrite, hconn]
      exact Nat.max_eq_right (Nat.le_trans hload (by decide))
    · exact hconn
  · exact dtlsDecryptPacket_assertion api conn _ (by omega)
  · have hreads := sslReads_bounded hbound conn (out.2.ops op).dataLen.toNat k
    exact ⟨by omega, by omega⟩
  · have hplain := dtlsDecryptPacket_bounded hbound conn
      (out.2.load (out.2.ops op).buffer (out.2.ops op).dataLen.toNat) (out.2.ops op).dataLen bufSize
    exact ⟨by omega, by omega⟩
  · exact dtlsEncryptPacket_bounded api conn plaintext bufSize
  · have hplain := dtlsDecryptPacket_bounded hbound conn
      (out.2.load (out.2.ops op).buffer (out.2.ops op).dataLen.toNat) (out.2.ops op).dataLen bufSize
    exact dtlsDecryptAndWriteTun_lengths conn tunFd (by omega) out.2
  · exact forwardBetween_lengths api out.2 recvConn forwardConn _ _

/-! ## A full slot -/

theorem plainSsl_bounded : plainSsl.Bounded := by
  intro ssl rbio n
  unfold plainSsl
  dsimp only
  split
  · exact ⟨Int.le_trans (by decide) (Int.natCast_nonneg n), Nat.zero_le n⟩
  · have hle := List.length_take_le n rbio
    exact ⟨Int.ofNat_le.mpr hle, hle⟩

/-- The receiver when a datagram that fills the slot has arrived. -/
def fullRing : IouringCtx :=
  receivingRing.kernel (.recv 0 0 bufSize (recvmsgOut sizeofSockaddrStorage (List.replicate 16 2)
    (List.replicate 112 0) (List.replicate 1456 7)) true 0)

theorem datagram_lengths_full : ∃ c, fullRing.ring.cq = [c] ∧
    Placed ((((fullRing.iouringCqeSeen c []).modOp 0 fun o =>
      { o with dataLen := c.res }).iouringMultishotRecvmsgOut 0 c.flags).2.ops 0) 0 1 :=
  ⟨_, rfl, ((datagram_lengths plainSsl_bounded
    ⟨fullRing, .tunUdpRun smallConn 5, true, .waiting⟩ _ []
    ⟨⟨oneSlotRing, receivingRing, 3, 0, [1], rfl, rfl, rfl⟩, rfl, rfl⟩ (by decide) (by decide)
    (by decide) rfl).1 rfl).1⟩

end Dataplane.Proofs
