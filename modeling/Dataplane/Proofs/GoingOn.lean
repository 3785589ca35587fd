import Dataplane.Proofs.Assertions
import Dataplane.Proofs.Destinations
import Dataplane.Proofs.Lifetime

/-!
# When a loop goes on

Nothing hidden stops a loop.  Whether it goes on behind a completion can be told
before it takes it: from the completion, the free ops, the answers that the ring
is about to give, and what SSL makes of the packet.
-/

namespace Dataplane.Model

open ProofSupport

variable {σ : Type}

/-- The ring has an entry for the `k`-th submission from here on, and
`io_uring_submit` answers `least` at least. -/
def IoUring.Takes (ring : IoUring) (k : Nat) (least : Int) : Prop :=
  ring.sqeFree k = true ∧ least ≤ ring.submits k

/-- The smallest answer of `io_uring_submit` that is no failure. -/
def Port.least (port : Port) : Int := if port.opcode = .sendmsg then 1 else 0

/-- `SSL_write` takes the packet, and then there is something to send. -/
def Connection.Encrypts (api : Ssl σ) (conn : Connection σ) (data : Bytes) : Prop :=
  0 < (api.write conn.ssl conn.rbio data).ret ∧
    conn.wbio ++ (api.write conn.ssl conn.rbio data).out ≠ []

/-- `SSL_read` delivers a packet of the datagram, and the other connection can
encrypt it. -/
def Connection.Forwards (api : Ssl σ) (recvConn forwardConn : Connection σ) (data : Bytes) : Prop :=
  0 < (recvConn.dtlsDecryptPacket api data data.length bufSize).1 ∧
    forwardConn.Encrypts api (recvConn.dtlsDecryptPacket api data data.length bufSize).2.1

/-- What a program asks of the packet that came with `c`. -/
def Program.CanPass (api : Ssl σ) (c : Cqe) : Program σ → Prop
  | .tunUdpRun conn _ =>
      if c.req.opcode = .read then conn.Encrypts api c.payload
      else 0 < (conn.dtlsDecryptPacket api c.payload c.payload.length bufSize).1 ∧
        (conn.dtlsDecryptPacket api c.payload c.payload.length bufSize).1 ≤ bufSize
  | .tunUdpRunZero _ _ => 0 < c.payload.length ∧ c.payload.length ≤ bufSize
  | .forwarderRun inbound outbound =>
      c.req.opcode ≠ .read ∧
        if c.req.fd = inbound.udpFd then inbound.Forwards api outbound c.payload
        else outbound.Forwards api inbound c.payload

/-- A multishot receive has put a datagram and its source into a slot. -/
def IouringCtx.HasDatagram (ctx : IouringCtx) (c : Cqe) : Prop :=
  c.flags.buffer = true ∧ (Proofs.slotHeader : Int) < c.res ∧
    Bytes.readLe32 (ctx.brBufs c.flags.bid) ≠ 0

/-- What it takes for the packet of `c` to be passed on and the loop to wait again. -/
structure LoopState.Serves (api : Ssl σ) (s : LoopState σ) (c : Cqe) : Prop where
  incoming : c.req.opcode.outgoing = false
  received : 0 ≤ c.res
  datagram : c.req.opcode = .recvmsgMultishot → s.uring.HasDatagram c
  ops : (if c.req.opcode = .recvmsgMultishot then 1 else 2) ≤ s.uring.ioOpPool.length
  rearmed : c.last = true → s.uring.ring.Takes 0 0
  packet : s.prog.CanPass api c
  fd : 0 ≤ (s.prog.route c).fd
  submitted : s.uring.ring.Takes (if c.last = true then 1 else 0) (s.prog.route c).least
  running : s.prog.watches = true → s.running = true

/-- What a loop that waits needs of an event to wait again behind it. -/
def LoopState.GoesOn (api : Ssl σ) (s : LoopState σ) : LoopEvent → Prop
  | .wake => ∀ c cq, s.uring.ring.cq = c :: cq → c.Sent ∨ s.Serves api c
  | .waitError => False
  | .kernel _ | .stop => True

end Dataplane.Model

namespace Dataplane.Proofs

open ProofSupport Model Ledger

variable {σ : Type} {api : Ssl σ} {ctx ctx' : IouringCtx} {held got : Multiset OpId}
  {taken idx : Multiset Nat} {c : Cqe} {cq : List Cqe} {op : OpId}

/-! ## Submissions -/

theorem checked_iff {α : Type*} (ret : Int) (failed done : α) :
    0 ≤ (if ret < 0 then (-1, failed) else (0, done) : Int × α).1 ↔ 0 ≤ ret := by
  by_cases hret : ret < 0
  · rw [if_pos hret]
    exact iff_of_false (by simp) (by omega)
  · rw [if_neg hret]
    exact iff_of_true le_rfl (by omega)

theorem udpSend_iff (addr : Bytes) (addrLen : Nat) (len : Int) :
    0 ≤ (ctx.iouringSubmitUdpSend (some op) addr addrLen none len).1 ↔
      (0 < len ∧ len ≤ bufSize) ∧ 0 ≤ (ctx.ops op).fd ∧ ctx.ring.Takes 0 1 := by
  have hcalls : Calls _ ctx op _ := udpSend_calls addr addrLen none len
  rw [hcalls.succeeds_iff]
  have hone : 0 < ctx.ring.submits 0 ↔ 1 ≤ ctx.ring.submits 0 := by omega
  show ((0 < len ∧ 0 ≤ (ctx.ops op).fd) ∧ len ≤ bufSize) ∧ _ ∧ 0 < ctx.ring.submits 0 ↔ _
  unfold IoUring.Takes
  tauto

theorem tunWrite_iff (len : Int) : 0 ≤ (ctx.iouringSubmitTunWrite op none len).1 ↔
    (0 < len ∧ len ≤ bufSize) ∧ 0 ≤ (ctx.ops op).fd ∧ ctx.ring.Takes 0 0 := by
  have hcalls : Calls _ ctx op _ := tunWrite_calls none len
  rw [hcalls.succeeds_iff]
  show ((0 < len ∧ 0 ≤ (ctx.ops op).fd) ∧ len ≤ bufSize) ∧ _ ∧ 0 ≤ ctx.ring.submits 0 ↔ _
  unfold IoUring.Takes
  tauto

/-! ## Passing a packet on -/

/-- `dtls_encrypt_packet` succeeds exactly when the connection encrypts the packet,
and then with a length that can be sent. -/
theorem encryptPacket_iff (api : Ssl σ) (conn : Connection σ) (data : Bytes) :
    (0 ≤ (conn.dtlsEncryptPacket api data bufSize).1 ↔ conn.Encrypts api data) ∧
      (0 ≤ (conn.dtlsEncryptPacket api data bufSize).1 →
        0 < (conn.dtlsEncryptPacket api data bufSize).1 ∧
          (conn.dtlsEncryptPacket api data bufSize).1 ≤ bufSize) := by
  have hfront := List.length_take_le bufSize
    (conn.wbio ++ (api.write conn.ssl conn.rbio data).out)
  unfold Connection.Encrypts
  rw [dtlsEncryptPacket_eq api conn data bufSize rfl]
  by_cases hret : (api.write conn.ssl conn.rbio data).ret ≤ 0
  · rw [if_pos hret]
    exact ⟨iff_of_false (by simp) (by omega), by simp⟩
  rw [if_neg hret]
  dsimp only
  by_cases hempty : conn.wbio ++ (api.write conn.ssl conn.rbio data).out = []
  · rw [hempty, List.take_nil, if_pos rfl]
    exact ⟨iff_of_false (by simp) fun h => h.2 rfl, by simp⟩
  · have hpos : 0 < ((conn.wbio ++ (api.write conn.ssl conn.rbio data).out).take
        bufSize).length := by
      have hlen := List.length_pos_of_ne_nil hempty
      have hsize : 0 < bufSize := by decide
      rw [List.length_take]
      omega
    rw [if_neg (List.length_pos_iff.mp hpos)]
    exact ⟨iff_of_true (by omega) ⟨by omega, hempty⟩, fun _ => ⟨by omega, by omega⟩⟩

theorem fill_fields {opType : OpType} {fd : Int} {ctx1 : IouringCtx}
    (ha : ctx.ioOpAlloc opType fd false = (some op, ctx1)) (bytes : Bytes) (len : Int) :
    let filled :=
      (ctx1.store (ctx1.ops op).buffer bytes).modOp op fun o => { o with dataLen := len }
    filled.ring = ctx.ring ∧ (filled.ops op).fd = fd ∧ ctx.ioOpPool ≠ [] := by
  obtain ⟨ops, b, bufs, hpool, -, rfl⟩ := ioOpAlloc_single_eq ha
  refine ⟨by rw [modOp_ring, store_ring], ?_, by rw [hpool]; exact List.cons_ne_nil _ _⟩
  simp [pooledOp, freshOp]

theorem Inv.encryptAndSend_iff (h : Inv ctx held taken) (api : Ssl σ) (conn : Connection σ)
    (data : Bytes) : 0 ≤ (Model.dtlsEncryptAndSendUdp api conn data ctx).1 ↔
      ctx.ioOpPool ≠ [] ∧ conn.Encrypts api data ∧ 0 ≤ conn.udpFd ∧ ctx.ring.Takes 0 1 := by
  have halloc := alloc_none_iff h.pool_le .udpSend conn.udpFd
  obtain ⟨henc, hlen⟩ := encryptPacket_iff api conn data
  unfold Model.dtlsEncryptAndSendUdp
  rcases ha : ctx.ioOpAlloc .udpSend conn.udpFd false with ⟨_ | op, ctx1⟩
  · rw [ha] at halloc
    exact iff_of_false (by simp) fun hall => hall.1 (halloc.mp rfl)
  · generalize conn.dtlsEncryptPacket api data bufSize = encrypted at *
    obtain ⟨len, result, conn'⟩ := encrypted
    obtain ⟨hring, hfd, hfull⟩ := fill_fields ha result len
    dsimp only at henc hlen hring hfd ⊢
    rw [← henc]
    generalize (ctx1.store (ctx1.ops op).buffer result).modOp op
      (fun o => { o with dataLen := len }) = filled at *
    by_cases hneg : len < 0
    · rw [if_pos hneg]
      exact iff_of_false (by simp) fun hall => by omega
    · rw [if_neg hneg]
      have hsend := @udpSend_iff filled op conn'.addr conn'.addrLen len
      rw [hring, hfd] at hsend
      have hsome : 0 ≤ len := by omega
      have hbounds := hlen hsome
      generalize filled.iouringSubmitUdpSend (some op) conn'.addr conn'.addrLen none len = out at *
      rw [checked_iff, hsend]
      tauto

theorem Inv.decryptAndWrite_iff (h : Inv ctx held taken) (api : Ssl σ) (conn : Connection σ)
    (tunFd : Int) (data : Bytes) (len : Int) :
    0 ≤ (Model.dtlsDecryptAndWriteTun api conn tunFd data len ctx).1 ↔
      ctx.ioOpPool ≠ [] ∧ (0 < (conn.dtlsDecryptPacket api data len bufSize).1 ∧
        (conn.dtlsDecryptPacket api data len bufSize).1 ≤ bufSize) ∧
      0 ≤ tunFd ∧ ctx.ring.Takes 0 0 := by
  have halloc := alloc_none_iff h.pool_le .tunWrite tunFd
  unfold Model.dtlsDecryptAndWriteTun
  rcases ha : ctx.ioOpAlloc .tunWrite tunFd false with ⟨_ | op, ctx1⟩
  · rw [ha] at halloc
    exact iff_of_false (by simp) fun hall => hall.1 (halloc.mp rfl)
  · generalize conn.dtlsDecryptPacket api data len bufSize = decrypted
    obtain ⟨n, plaintext, ok, conn'⟩ := decrypted
    obtain ⟨hring, -, hfull⟩ := fill_fields ha plaintext n
    dsimp only at hring ⊢
    generalize (ctx1.store (ctx1.ops op).buffer plaintext).modOp op
      (fun o => { o with dataLen := n }) = filled at *
    by_cases hneg : n < 0
    · rw [if_pos hneg]
      exact iff_of_false (by simp) fun hall => by omega
    · rw [if_neg hneg]
      have hwrite := @tunWrite_iff (filled.modOp op fun o => { o with fd := tunFd }) op n
      rw [modOp_ring, modOp_self, hring] at hwrite
      generalize (filled.modOp op fun o =>
        { o with fd := tunFd }).iouringSubmitTunWrite op none n = out at *
      rw [checked_iff, hwrite]
      tauto

theorem inherit_fields {opType : OpType} {fd : Int} {new : OpId} {ctx1 : IouringCtx}
    (hout : op ∉ ctx.ioOpPool)
    (ha : ctx.ioOpAllocBuf opType fd false (some op) = (some new, ctx1)) :
    ctx1.ring = ctx.ring ∧ (ctx1.ops new).fd = fd ∧
      (ctx1.ops new).dataLen = (ctx.ops op).dataLen ∧
      (ctx1.ops op).dataLen = (ctx.ops op).dataLen ∧ ctx.ioOpPool ≠ [] := by
  cases hmulti : (ctx.ops op).isMulti with
  | false =>
      obtain ⟨ops, hpool, rfl⟩ := ioOpAllocBuf_single_eq hmulti hout ha
      have hne : op ≠ new := by
        rintro rfl
        exact hout (by rw [hpool]; exact List.mem_cons_self)
      rw [hpool]
      simp [takeOp, modOp_of_ne _ _ _ hne.symm, itemHeir, freshOp, Function.update_of_ne hne]
  | true =>
      obtain ⟨ops, hpool, rfl⟩ := ioOpAllocBuf_multi_eq hmulti hout ha
      have hne : op ≠ new := by
        rintro rfl
        exact hout (by rw [hpool]; exact List.mem_cons_self)
      rw [hpool]
      simp [takeOp, modOp_of_ne _ _ _ hne.symm, slotHeir, freshOp, Function.update_of_ne hne]

theorem tunToUdp_iff (hout : op ∉ ctx.ioOpPool) (conn : Connection σ) :
    0 ≤ (Model.tunToUdp conn op ctx).1 ↔
      ctx.ioOpPool ≠ [] ∧ (0 < (ctx.ops op).dataLen ∧ (ctx.ops op).dataLen ≤ bufSize) ∧
      0 ≤ conn.udpFd ∧ ctx.ring.Takes 0 1 := by
  have hnone := @ioOpAllocBuf_none_iff ctx op .udpSend conn.udpFd
  unfold Model.tunToUdp
  rcases ha : ctx.ioOpAllocBuf .udpSend conn.udpFd false (some op) with ⟨_ | new, ctx1⟩
  · rw [ha] at hnone
    exact iff_of_false (by simp) fun hall => hall.1 (hnone.mp rfl)
  · obtain ⟨hring, hfd, hlen, -, hfull⟩ := inherit_fields hout ha
    have hsend := @udpSend_iff ctx1 new conn.addr conn.addrLen (ctx1.ops new).dataLen
    rw [hring, hfd, hlen] at hsend
    dsimp only
    rw [hlen]
    generalize ctx1.iouringSubmitUdpSend (some new) conn.addr conn.addrLen none
      (ctx.ops op).dataLen = out at *
    rw [checked_iff, hsend]
    tauto

theorem udpToTun_iff (hout : op ∉ ctx.ioOpPool) (tunFd : Int) :
    0 ≤ (Model.udpToTun tunFd op ctx).1 ↔
      ctx.ioOpPool ≠ [] ∧ (0 < (ctx.ops op).dataLen ∧ (ctx.ops op).dataLen ≤ bufSize) ∧
      0 ≤ tunFd ∧ ctx.ring.Takes 0 0 := by
  have hnone := @ioOpAllocBuf_none_iff ctx op .tunWrite tunFd
  unfold Model.udpToTun
  rcases ha : ctx.ioOpAllocBuf .tunWrite tunFd false (some op) with ⟨_ | new, ctx1⟩
  · rw [ha] at hnone
    exact iff_of_false (by simp) fun hall => hall.1 (hnone.mp rfl)
  · obtain ⟨hring, hfd, -, hlen, hfull⟩ := inherit_fields hout ha
    have hwrite := @tunWrite_iff ctx1 new (ctx.ops op).dataLen
    rw [hring, hfd] at hwrite
    dsimp only
    rw [hlen]
    generalize ctx1.iouringSubmitTunWrite new none (ctx.ops op).dataLen = out at *
    rw [checked_iff, hwrite]
    tauto

theorem Inv.forwardBetween_iff (h : Inv ctx held taken) (api : Ssl σ)
    (recvConn forwardConn : Connection σ) (data : Bytes) :
    0 ≤ (Model.forwardBetween api ctx recvConn forwardConn data data.length).1 ↔
      ctx.ioOpPool ≠ [] ∧ recvConn.Forwards api forwardConn data ∧ 0 ≤ forwardConn.udpFd ∧
        ctx.ring.Takes 0 1 := by
  unfold Model.forwardBetween Connection.Forwards
  generalize recvConn.dtlsDecryptPacket api data data.length bufSize = decrypted
  obtain ⟨n, plaintext, ok, recvConn'⟩ := decrypted
  have hsend := h.encryptAndSend_iff api forwardConn plaintext
  dsimp only
  by_cases hn : n ≤ 0
  · rw [if_pos hn]
    exact iff_of_false (by simp) fun hall => by omega
  · rw [if_neg hn]
    generalize Model.dtlsEncryptAndSendUdp api forwardConn plaintext ctx = out at *
    obtain ⟨ret, ctx', forwardConn'⟩ := out
    have hret : 0 ≤ (if ret < 0 then -1 else 0 : Int) ↔ 0 ≤ ret := by
      split <;> omega
    dsimp only at hsend ⊢
    rw [hret, hsend]
    have hpos : 0 < n := by omega
    tauto

theorem not_forwards_nil (api : Ssl σ) (recvConn forwardConn : Connection σ) :
    ¬ recvConn.Forwards api forwardConn [] := by
  rintro ⟨hpos, -⟩
  have hnone : (recvConn.dtlsDecryptPacket api [] ([] : Bytes).length bufSize).1 = -1 := rfl
  omega

theorem Inv.forwardUdpPacket_iff (h : Inv ctx held taken) (api : Ssl σ)
    (inbound outbound : Connection σ) {data : Bytes}
    (hdata : ctx.load (ctx.ops op).buffer data.length = data)
    (hlen : (ctx.ops op).dataLen = data.length) :
    0 ≤ (Model.forwardUdpPacket api ctx inbound outbound op).1 ↔
      ctx.ioOpPool ≠ [] ∧
      (if (ctx.ops op).fd = inbound.udpFd then inbound.Forwards api outbound data
        else outbound.Forwards api inbound data) ∧
      0 ≤ (if (ctx.ops op).fd = inbound.udpFd then outbound.udpFd else inbound.udpFd) ∧
      ctx.ring.Takes 0 1 := by
  unfold Model.forwardUdpPacket
  simp only [hlen, Int.toNat_natCast, hdata]
  by_cases hempty : (data.length : Int) ≤ 0
  · rw [if_pos hempty]
    obtain rfl := List.length_eq_zero_iff.mp (by omega : data.length = 0)
    apply iff_of_false (by simp)
    rintro ⟨-, hforwards, -⟩
    split at hforwards <;> exact not_forwards_nil api _ _ hforwards
  · rw [if_neg hempty]
    by_cases hfd : (ctx.ops op).fd = inbound.udpFd
    · simp only [if_pos hfd]
      exact h.forwardBetween_iff api inbound outbound data
    · simp only [if_neg hfd]
      exact h.forwardBetween_iff api outbound inbound data

/-- A loop body succeeds exactly when the program can pass the packet on and there
is an op and an entry for it. -/
theorem Inv.body_iff (h : Inv ctx (got + held) (idx + taken)) (hr : Received ctx c op got idx)
    (hin : c.req.opcode.outgoing = false) (hhonest : c.Honest) (api : Ssl σ) (prog : Program σ) :
    0 ≤ (prog.body api ctx op).1 ↔ ctx.ioOpPool ≠ [] ∧ prog.CanPass api c ∧
      0 ≤ (prog.route c).fd ∧ ctx.ring.Takes 0 (prog.route c).least := by
  obtain ⟨hdata, hlen⟩ := hr.payload hhonest
  have hout := hr.not_mem_pool h
  rw [hlen, Int.toNat_natCast] at hdata
  cases prog with
  | tunUdpRun conn tunFd =>
      rcases hr.opType_cases hin with htype | htype
      · have hread := hr.isRead htype
        simp only [Program.body, tunUdpRunBody, htype, hlen, Int.toNat_natCast, hdata,
          Program.CanPass, Program.route, if_pos hread, Port.least]
        exact h.encryptAndSend_iff api conn c.payload
      · have hread := hr.notRead htype
        simp only [Program.body, tunUdpRunBody, htype, hlen, Int.toNat_natCast, hdata,
          Program.CanPass, Program.route, if_neg hread, Port.least]
        exact h.decryptAndWrite_iff api conn tunFd c.payload c.payload.length
  | tunUdpRunZero conn tunFd =>
      rcases hr.opType_cases hin with htype | htype
      · have hread := hr.isRead htype
        have hsend := tunToUdp_iff hout conn
        rw [hlen] at hsend
        simp only [Program.body, tunUdpRunZeroBody, htype, Program.CanPass, Program.route,
          if_pos hread, Port.least]
        exact_mod_cast hsend
      · have hread := hr.notRead htype
        have hlearn := learnAddr_ctx conn (hr.addrLen htype)
        have hwrite := udpToTun_iff hout tunFd
        rw [hlen] at hwrite
        simp only [Program.body, tunUdpRunZeroBody, htype, Program.CanPass, Program.route,
          if_neg hread, Port.least, hlearn]
        exact_mod_cast hwrite
  | forwarderRun inbound outbound =>
      show 0 ≤ (forwarderRunBody api ctx inbound outbound op).1 ↔ _
      unfold forwarderRunBody
      rcases hr.opType_cases hin with htype | htype
      · have hread := hr.isRead htype
        rw [if_pos (by rw [htype]; decide)]
        exact iff_of_false (by simp) fun hall => hall.2.1.1 hread
      · have hread := hr.notRead htype
        have hforward := h.forwardUdpPacket_iff api inbound outbound hdata hlen
        rw [hr.fd] at hforward
        rw [if_neg (not_not.mpr htype)]
        simp only [Program.CanPass, Program.route, Port.least]
        generalize Model.forwardUdpPacket api ctx inbound outbound op = out at *
        obtain ⟨ret, ctx', inbound', outbound'⟩ := out
        dsimp only at hforward ⊢
        rw [apply_ite Prod.fst]
        show 0 ≤ (if ret < 0 then ret else ret) ↔ _
        rw [ite_self, hforward]
        tauto

/-! ## Taking a packet -/

/-- Since `ctx` the program has made `k` submissions and taken `m` ops. -/
structure Spent (k m : Nat) (ctx ctx' : IouringCtx) : Prop where
  sqeFree : ∀ n, ctx'.ring.sqeFree n = ctx.ring.sqeFree (n + k)
  submits : ∀ n, ctx'.ring.submits n = ctx.ring.submits (n + k)
  ops : ctx.ioOpPool.length = ctx'.ioOpPool.length + m

theorem Spent.takes {k m : Nat} (h : Spent k m ctx ctx') (n : Nat) (least : Int) :
    ctx'.ring.Takes n least ↔ ctx.ring.Takes (n + k) least := by
  rw [IoUring.Takes, h.sqeFree, h.submits, IoUring.Takes]

theorem submitChecked_spent {mid : IouringCtx} (hring : mid.ring = ctx.ioUringGetSqe.2.ring)
    (hpool : mid.ioOpPool = ctx.ioOpPool) (r : Sqe) :
    Spent 1 0 ctx (mid.ioUringPrep r).submitChecked.2 := by
  have heq : (mid.ioUringPrep r).submitChecked.2 = (mid.ioUringPrep r).ioUringSubmit.2 := by
    unfold IouringCtx.submitChecked
    dsimp only
    split <;> rfl
  rw [heq]
  constructor
  · intro n
    show mid.ring.sqeFree n = ctx.ring.sqeFree (n + 1)
    rw [hring]
    rfl
  · intro n
    show mid.ring.submits (n + 1) = ctx.ring.submits (n + 1)
    rw [hring]
    rfl
  · show ctx.ioOpPool.length = mid.ioOpPool.length
    rw [hpool]

theorem getSqe_spent {start : IouringCtx} {k : IouringCtx → Int × IouringCtx}
    (hk : Spent 1 0 ctx (k start.ioUringGetSqe.2).2) :
    let out := match start.ioUringGetSqe with
      | (false, ctx) => (-1, ctx)
      | (true, ctx) => k ctx
    0 ≤ out.1 → Spent 1 0 ctx out.2 := by
  dsimp only
  split
  · exact fun h => absurd h (by simp)
  · rename_i hget
    obtain rfl := congrArg Prod.snd hget
    exact fun _ => hk

theorem submitTunRead_spent (h : 0 ≤ (ctx.iouringSubmitTunRead op).1) :
    Spent 1 0 ctx (ctx.iouringSubmitTunRead op).2 := by
  apply getSqe_spent _ h
  apply submitChecked_spent <;> rfl

theorem submitUdpRecv_spent (h : 0 ≤ (ctx.iouringSubmitUdpRecv op).1) :
    Spent 1 0 ctx (ctx.iouringSubmitUdpRecv op).2 := by
  apply getSqe_spent _ h
  apply submitChecked_spent <;> rfl

theorem submitMultishotRecvmsgOp_spent (h : 0 ≤ (ctx.iouringSubmitMultishotRecvmsgOp op).1) :
    Spent 1 0 ctx (ctx.iouringSubmitMultishotRecvmsgOp op).2 := by
  apply getSqe_spent _ h
  apply submitChecked_spent <;> rfl

/-- A single-shot receive is armed again exactly when there is an op and an entry
for it, and takes one of each. -/
theorem resubmitRecv_iff (hle : ctx.ioOpPool.length ≤ ctx.bufAddrPool.length)
    (htype : (ctx.ops op).opType = .tunRead ∨ (ctx.ops op).opType = .udpRecv) :
    (0 ≤ (ctx.iouringResubmitRecv op).1 ↔ ctx.ioOpPool ≠ [] ∧ ctx.ring.Takes 0 0) ∧
      (0 ≤ (ctx.iouringResubmitRecv op).1 → Spent 1 1 ctx (ctx.iouringResubmitRecv op).2) := by
  have halloc := alloc_none_iff hle (ctx.ops op).opType (ctx.ops op).fd
  unfold IouringCtx.iouringResubmitRecv
  dsimp only
  rcases ha : ctx.ioOpAlloc (ctx.ops op).opType (ctx.ops op).fd false with ⟨_ | new, ctx1⟩
  · rw [ha] at halloc
    exact ⟨iff_of_false (by simp) fun hall => hall.1 (halloc.mp rfl), by simp⟩
  · obtain ⟨ops, b, bufs, hpool, -, hctx1⟩ := ioOpAlloc_single_eq ha
    have hring : ctx1.ring = ctx.ring := by rw [hctx1]
    have hops : ctx.ioOpPool.length = ctx1.ioOpPool.length + 1 := by
      rw [hctx1, hpool]
      rfl
    have hfull : ctx.ioOpPool ≠ [] := by
      rw [hpool]
      exact List.cons_ne_nil _ _
    have hfirst : ∀ {ctx' : IouringCtx}, Spent 1 0 ctx1 ctx' → Spent 1 1 ctx ctx' := by
      intro ctx' hspent
      refine ⟨fun n => ?_, fun n => ?_, ?_⟩
      · rw [hspent.sqeFree, hring]
      · rw [hspent.submits, hring]
      · have hlen := hspent.ops
        omega
    rcases htype with htype | htype
    · have hiff := (tunRead_calls : Calls .tunRead ctx1 new _).succeeds_iff
      simp only [htype]
      refine ⟨?_, fun hret => hfirst (submitTunRead_spent hret)⟩
      rw [hiff, hring]
      exact ⟨fun hall => ⟨hfull, hall.2⟩, fun hall => ⟨trivial, hall.2⟩⟩
    · have hiff := (udpRecv_calls : Calls .udpRecv ctx1 new _).succeeds_iff
      simp only [htype]
      refine ⟨?_, fun hret => hfirst (submitUdpRecv_spent hret)⟩
      rw [hiff, hring]
      exact ⟨fun hall => ⟨hfull, hall.2⟩, fun hall => ⟨trivial, hall.2⟩⟩

/-- A multishot receive hands out a datagram exactly when there is one, and when
its last completion is followed by a new submission. -/
theorem multishotRecvmsgOut_iff (hmulti : Multi (ctx.ops op)) (flags : CqeFlags) :
    let out := ctx.iouringMultishotRecvmsgOut op flags
    (0 ≤ out.1 ↔ (flags.buffer = true ∧ (slotHeader : Int) < (ctx.ops op).dataLen ∧
        Bytes.readLe32 (ctx.brBufs flags.bid) ≠ 0) ∧
        (flags.more = false → ctx.ring.Takes 0 0)) ∧
      (0 ≤ out.1 → Spent (if flags.more = false then 1 else 0) 0 ctx out.2) := by
  have hreadable : Readable ctx op flags ↔ (slotHeader : Int) < (ctx.ops op).dataLen ∧
      Bytes.readLe32 (ctx.brBufs flags.bid) ≠ 0 := by rw [Readable, hmulti.header]
  have hiff := (multishotRecvmsg_calls : Calls .multishotRecvmsg
    (ctx.modOp op (present ctx op flags.bid)) op _).succeeds_iff
  have hspent := @submitMultishotRecvmsgOp_spent (ctx.modOp op (present ctx op flags.bid)) op
  have hdec := iouringMultishotRecvmsgOut_decoded ctx op flags
  dsimp only
  generalize ctx.iouringMultishotRecvmsgOut op flags = out at hdec ⊢
  rw [← hreadable]
  cases hdec with
  | noBuffer hnone =>
      refine ⟨iff_of_false (by simp) fun hall => ?_, fun hret => absurd hret (by simp)⟩
      rw [hnone] at hall
      exact absurd hall.1.1 (by decide)
  | rejected _ _ hnot =>
      exact ⟨iff_of_false (by simp) fun hall => hnot hall.1.2,
        fun hret => absurd hret (by simp)⟩
  | presented hbuf hread hmore =>
      rw [hmore]
      exact ⟨iff_of_true le_rfl ⟨⟨hbuf, hread⟩, fun hlast => absurd hlast (by decide)⟩,
        fun _ => ⟨fun _ => rfl, fun _ => rfl, rfl⟩⟩
  | rearmed hbuf hread hmore hsub =>
      rw [hsub] at hiff hspent
      rw [hmore]
      have hdone := hspent le_rfl
      exact ⟨iff_of_true le_rfl ⟨⟨hbuf, hread⟩, fun _ => (hiff.mp le_rfl).2⟩,
        fun _ => ⟨hdone.sqeFree, hdone.submits, hdone.ops⟩⟩
  | stopped hbuf hread hmore hsub hret =>
      have hcases := (multishotRecvmsg_calls : Calls .multishotRecvmsg
        (ctx.modOp op (present ctx op flags.bid)) op _).ret_cases
      rw [hsub] at hiff hcases
      have hfail := hcases.resolve_left hret
      refine ⟨iff_of_false (by simp) fun hall => ?_, fun hret => absurd hret (by simp)⟩
      have htakes := hiff.mpr ⟨trivial, hall.2 hmore⟩
      rw [hfail] at htakes
      exact absurd htakes (by decide)

theorem Spent.since {mid : IouringCtx} {k m : Nat} (h : Spent k m mid ctx')
    (hring : mid.ring = ctx.ring) (hpool : mid.ioOpPool = ctx.ioOpPool) : Spent k m ctx ctx' where
  sqeFree n := by rw [h.sqeFree, hring]
  submits n := by rw [h.submits, hring]
  ops := by rw [← hpool, h.ops]

theorem multishot_handedOut_iff (hok : CqeOk ctx c) (hcode : c.req.opcode = .recvmsgMultishot)
    (hres : 0 ≤ c.res) :
    ((ctx.waitForRecvBody c).1 = .recv c.req.userData ↔
        ctx.HasDatagram c ∧ (c.last = true → ctx.ring.Takes 0 0)) ∧
      ((ctx.waitForRecvBody c).1 = .recv c.req.userData →
        Spent (if c.last = true then 1 else 0) 0 ctx (ctx.waitForRecvBody c).2) := by
  have hop : (ctx.modOp c.req.userData fun o => { o with dataLen := c.res }).ops c.req.userData =
      { ctx.ops c.req.userData with dataLen := c.res } := modOp_self ..
  have hring : (ctx.modOp c.req.userData fun o => { o with dataLen := c.res }).ring = ctx.ring :=
    rfl
  have hpool : (ctx.modOp c.req.userData fun o => { o with dataLen := c.res }).ioOpPool =
      ctx.ioOpPool := rfl
  have hslots : (ctx.modOp c.req.userData fun o => { o with dataLen := c.res }).brBufs =
      ctx.brBufs := rfl
  rw [hok.req.body_multishot hcode hres]
  generalize (ctx.modOp c.req.userData fun o => { o with dataLen := c.res }) = mid at *
  have hmulti : Multi (mid.ops c.req.userData) := by
    have hbefore := hok.req.multi hcode
    rw [hop]
    exact ⟨hbefore.multi, hbefore.bufAddr, hbefore.msgName, hbefore.msgNamelen,
      hbefore.msgControllen⟩
  obtain ⟨hout, hspent⟩ := multishotRecvmsgOut_iff hmulti c.flags
  obtain ⟨hdone, hctx⟩ := waitForRecvDone_iff c.req.userData
    (mid.iouringMultishotRecvmsgOut c.req.userData c.flags)
  have hlast : c.last = true ↔ c.flags.more = false := by
    rw [Cqe.last, Bool.not_eq_true']
  rw [hop, hslots, hring] at hout
  simp only [hdone, hlast]
  refine ⟨hout, fun hret => ?_⟩
  rw [hctx hret]
  exact (hspent hret).since hring hpool

theorem Inv.single_handedOut_iff (h : Inv ctx held taken) (hok : CqeOk ctx c)
    (hin : c.req.opcode.outgoing = false) (hcode : c.req.opcode ≠ .recvmsgMultishot)
    (hres : 0 ≤ c.res) :
    ((ctx.waitForRecvBody c).1 = .recv c.req.userData ↔
        ctx.ioOpPool ≠ [] ∧ ctx.ring.Takes 0 0) ∧
      ((ctx.waitForRecvBody c).1 = .recv c.req.userData →
        Spent 1 1 ctx (ctx.waitForRecvBody c).2) := by
  have hread := Opcode.single_cases hin hcode
  have hkind : ((ctx.modOp c.req.userData fun o => { o with dataLen := c.res }).ops
      c.req.userData).opType = c.req.opcode.opType := by
    rw [modOp_self]
    exact hok.req.opType
  have hring : (ctx.modOp c.req.userData fun o => { o with dataLen := c.res }).ring = ctx.ring :=
    rfl
  have hpool : (ctx.modOp c.req.userData fun o => { o with dataLen := c.res }).ioOpPool =
      ctx.ioOpPool := rfl
  have hitems : (ctx.modOp c.req.userData fun o => { o with dataLen := c.res }).bufAddrPool =
      ctx.bufAddrPool := rfl
  rw [hok.req.body_single hread hres]
  generalize (ctx.modOp c.req.userData fun o => { o with dataLen := c.res }) = mid at *
  have htype : (mid.ops c.req.userData).opType = .tunRead ∨
      (mid.ops c.req.userData).opType = .udpRecv := by
    rw [hkind]
    rcases hread with hread | hread
    · left
      rw [hread]
      rfl
    · right
      rw [hread]
      rfl
  have hle : mid.ioOpPool.length ≤ mid.bufAddrPool.length := by
    rw [hpool, hitems]
    exact h.pool_le
  obtain ⟨hout, hspent⟩ := resubmitRecv_iff hle htype
  obtain ⟨hdone, hctx⟩ := waitForRecvDone_iff c.req.userData
    (mid.iouringResubmitRecv c.req.userData)
  rw [hpool, hring] at hout
  rw [hdone]
  refine ⟨hout, fun hret => ?_⟩
  rw [hctx hret]
  exact (hspent hret).since hring hpool

/-- When `wait_for_recv` hands out a packet, and what it has spent then. -/
theorem Inv.waitForRecvBody_iff (h : Inv ctx held taken) (hok : CqeOk ctx c)
    (hin : c.req.opcode.outgoing = false) :
    ((ctx.waitForRecvBody c).1 = .recv c.req.userData ↔ 0 ≤ c.res ∧
        (c.req.opcode = .recvmsgMultishot → ctx.HasDatagram c) ∧
        (c.req.opcode ≠ .recvmsgMultishot → ctx.ioOpPool ≠ []) ∧
        (c.last = true → ctx.ring.Takes 0 0)) ∧
      ((ctx.waitForRecvBody c).1 = .recv c.req.userData →
        Spent (if c.last = true then 1 else 0)
          (if c.req.opcode = .recvmsgMultishot then 0 else 1) ctx (ctx.waitForRecvBody c).2) := by
  by_cases hres : 0 ≤ c.res
  swap
  · rw [waitForRecvBody_error (by omega)]
    exact ⟨iff_of_false (by simp) fun hall => hres hall.1, by simp⟩
  by_cases hcode : c.req.opcode = .recvmsgMultishot
  · obtain ⟨hiff, hspent⟩ := multishot_handedOut_iff hok hcode hres
    rw [if_pos hcode]
    refine ⟨?_, hspent⟩
    rw [hiff]
    exact ⟨fun hall => ⟨hres, fun _ => hall.1, fun hne => absurd hcode hne, hall.2⟩,
      fun hall => ⟨hall.2.1 hcode, hall.2.2.2⟩⟩
  · obtain ⟨hiff, hspent⟩ := h.single_handedOut_iff hok hin hcode hres
    have hlast : c.last = true := by
      rw [Cqe.last, (hok.single hcode).2.1]
      rfl
    rw [if_neg hcode, if_pos hlast]
    refine ⟨?_, hspent⟩
    rw [hiff]
    exact ⟨fun hall => ⟨hres, fun heq => absurd heq hcode, fun _ => hall.1, fun _ => hall.2⟩,
      fun hall => ⟨hall.2.2.1 hcode, hall.2.2.2 hlast⟩⟩

/-! ## A turn -/

theorem headStatus_waits_iff (prog : Program σ) (running : Bool) (ret : Int) (op : Option OpId) :
    headStatus prog running .waiting ret op = .waiting ↔
      0 ≤ ret ∧ (prog.watches = true → running = true) := by
  unfold headStatus
  by_cases hret : ret < 0
  · rw [if_pos hret]
    exact iff_of_false (by simp) (by omega)
  · rw [if_neg hret]
    have hpos : 0 ≤ ret := by omega
    cases prog with
    | forwarderRun inbound outbound => simp [Program.watches, hpos]
    | _ => cases running <;> simp [Program.watches, hpos]

theorem takeCqe_negative (api : Ssl σ) (s : LoopState σ) (cq : List Cqe) (hres : c.res < 0) :
    (Model.takeCqe api s c cq).status = .exited (-1) none := by
  unfold Model.takeCqe
  rw [waitForRecvBody_error hres]

/-- Whether a loop waits again behind the completion that it takes. -/
theorem Inv.takeCqe_waits_iff (api : Ssl σ) {s : LoopState σ} (h : Inv s.uring held taken)
    (hcq : s.uring.ring.cq = c :: cq) (hstatus : s.status = .waiting)
    (hhonest : c.req.opcode.outgoing = false → 0 ≤ c.res → c.Honest) :
    (Model.takeCqe api s c cq).status = .waiting ↔ c.Sent ∨ s.Serves api c := by
  cases hout : c.req.opcode.outgoing with
  | true =>
      have hserves : ¬ s.Serves api c := by
        intro hserves
        rw [hserves.incoming] at hout
        cases hout
      by_cases hres : 0 ≤ c.res
      · obtain ⟨ctx', hagain⟩ := h.wait_sent hcq ⟨hout, hres⟩
        apply iff_of_true _ (.inl ⟨hout, hres⟩)
        unfold Model.takeCqe
        rw [hagain]
        exact hstatus
      · rw [takeCqe_negative api s cq (by omega)]
        apply iff_of_false (by simp)
        rintro (hsent | hserve)
        · exact hres hsent.2
        · exact hserves hserve
  | false =>
      have hsent : ¬ c.Sent := by
        intro hsent
        rw [hsent.1] at hout
        cases hout
      obtain ⟨hwait, hspent⟩ := (h.iouringCqeSeen hcq).waitForRecvBody_iff (h.seen_cqeOk hcq).1 hout
      unfold Model.takeCqe
      rcases hstep : (s.uring.iouringCqeSeen c cq).waitForRecvBody c with ⟨step, ctx⟩
      rw [hstep] at hwait hspent
      cases h.wait hcq hstep with
      | again _ hagain _ _ =>
          rw [hout] at hagain
          cases hagain
      | null rs _ _ _ =>
          apply iff_of_false (by simp)
          rintro (hsent' | hserves)
          · exact hsent hsent'
          · have hfull : s.uring.ioOpPool ≠ [] := by
              have hops := hserves.ops
              rw [← List.length_pos_iff_ne_nil]
              split at hops <;> omega
            have hrecv := hwait.mpr ⟨hserves.received, hserves.datagram, fun _ => hfull,
              hserves.rearmed⟩
            cases hrecv
      | recv rs got idx hres hin _ _ hinv hrecv =>
          obtain ⟨-, hdatagram, -, hrearmed⟩ := hwait.mp rfl
          have hlater := hspent rfl
          have hbody := hinv.body_iff hrecv hin (hhonest hout hres) api s.prog
          have hfull : ctx.ioOpPool ≠ [] ↔
              (if c.req.opcode = .recvmsgMultishot then 1 else 2) ≤ s.uring.ioOpPool.length := by
            have hops : s.uring.ioOpPool.length = ctx.ioOpPool.length +
                if c.req.opcode = .recvmsgMultishot then 0 else 1 := hlater.ops
            rw [← List.length_pos_iff_ne_nil, hops]
            split <;> omega
          have hwatches : (s.prog.body api ctx c.req.userData).2.2.2.watches = s.prog.watches := by
            rw [watches_eq, (body_socket api ctx c.req.userData s.prog .up).2, ← watches_eq]
          simp only [atLoopHead_eq, hstatus]
          rw [headStatus_waits_iff, hwatches, hbody, hlater.takes, zero_add, hfull]
          constructor
          · rintro ⟨⟨hops, hpacket, hfd, hsubmitted⟩, hrunning⟩
            exact .inr ⟨hout, hres, hdatagram, hops, hrearmed, hpacket, hfd, hsubmitted, hrunning⟩
          · rintro (hsent' | hserves)
            · exact absurd hsent' hsent
            · exact ⟨⟨hserves.ops, hserves.packet, hserves.fd, hserves.submitted⟩,
                hserves.running⟩

/-! ## A run -/

/-- Whether a loop that waits waits again behind an event. -/
theorem Inv.step_waits_iff (api : Ssl σ) {s : LoopState σ} (h : Inv s.uring held taken)
    (hstatus : s.status = .waiting) (e : LoopEvent)
    (hhonest : HonestReads (s.step api e).uring.ring.seen) :
    (s.step api e).status = .waiting ↔ s.GoesOn api e := by
  cases e with
  | kernel e => exact iff_of_true hstatus trivial
  | stop => exact iff_of_true hstatus trivial
  | waitError =>
      rw [LoopState.step, if_pos hstatus]
      exact iff_of_false (by simp) id
  | wake =>
      cases hcq : s.uring.ring.cq with
      | nil =>
          have hstep : s.step api .wake = s := by
            simp only [LoopState.step, LoopState.wake, hstatus, hcq]
          rw [hstep]
          apply iff_of_true hstatus
          intro c cq hcons
          rw [hcq] at hcons
          cases hcons
      | cons c cq =>
          have hstep : s.step api .wake = Model.takeCqe api s c cq := by
            simp only [LoopState.step, LoopState.wake, hstatus, hcq]
          rw [hstep] at hhonest ⊢
          obtain ⟨rs, heff⟩ := h.takeCqe_effect api hcq
          have hseen : c ∈ (Model.takeCqe api s c cq).uring.ring.seen := by
            rw [heff.seen]
            exact List.mem_append_right _ (List.mem_singleton_self c)
          rw [h.takeCqe_waits_iff api hcq hstatus (hhonest c hseen)]
          constructor
          · intro hgoes c' cq' hcons
            obtain ⟨rfl, rfl⟩ := List.cons.inj (hcq.symm.trans hcons)
            exact hgoes
          · exact fun hgoes => hgoes c cq hcq

theorem sound_step {s : LoopState σ} (h : s.status.ok = true → Sound s.uring) (e : LoopEvent)
    (hok : (s.step api e).status.ok = true) : Sound (s.step api e).uring := by
  obtain ⟨held, taken, hinv⟩ := h (step_ok hok)
  exact ⟨held, taken, hinv.loop_step e hok⟩

theorem honest_before {s : LoopState σ} (h : s.status.ok = true → Sound s.uring) (e : LoopEvent)
    (hhonest : HonestReads (s.step api e).uring.ring.seen) : HonestReads s.uring.ring.seen := by
  have hmono : s.uring.ring.seen ⊆ (s.step api e).uring.ring.seen := by
    cases e with
    | kernel e =>
        rw [LoopState.step, (kernel_histories s.uring e).1]
        exact List.Subset.refl _
    | stop => exact List.Subset.refl _
    | waitError =>
        simp only [LoopState.step]
        split <;> exact List.Subset.refl _
    | wake =>
        simp only [LoopState.step, LoopState.wake]
        split
        · rename_i hstatus hcq
          obtain ⟨_, _, hinv⟩ := h (by rw [hstatus]; rfl)
          obtain ⟨rs, heff⟩ := hinv.takeCqe_effect api hcq
          rw [heff.seen]
          exact List.subset_append_left _ _
        · exact List.Subset.refl _
  exact fun c hc => hhonest c (hmono hc)

/-- A loop that waits goes on exactly as long as every event lets it: the wait does
not fail, and each completion that it takes is the end of one of its requests or
brings a packet that it can pass on. -/
theorem sessions_goOn (api : Ssl σ) (config : IouringConfig) (sqeFree : Nat → Bool)
    (submits : Nat → Int) {prog : Program σ} {running : Bool} {start : Session σ}
    (hstart : Session.start (IouringCtx.iouringInit config sqeFree submits) prog running =
      some start) (es fs : List SessionEvent) {s s' : LoopState σ}
    (hs : start.run api es = .loop s) (hs' : start.run api (es ++ fs) = .loop s')
    (hwaits : s.status = .waiting) (hhonest : HonestReads s'.uring.ring.seen) :
    s'.status = .waiting ↔ Execution.Steps (LoopState.step api) (LoopState.GoesOn api) s
      (fs.filterMap SessionEvent.loop) := by
  have hgood := good_run api (good_start config sqeFree submits hstart) es
  rw [hs] at hgood
  have hrun : start.run api (es ++ fs) = Session.run api (.loop s) fs := by
    rw [← hs]
    exact Execution.run_append _ _ _ _
  rw [hrun, loop_session_run] at hs'
  obtain rfl := Session.loop.inj hs'
  apply Execution.last_iff_steps (fun s : LoopState σ => s.status.ok = true → Sound s.uring)
    (fun s => HonestReads s.uring.ring.seen) (Q := fun s => s.status = .waiting)
  · exact fun s e h hok => sound_step h e hok
  · exact fun s e h => honest_before h e
  · intro s e hleft
    have hstays : (s.step api e).status = s.status := (left_run api hleft [e]).1
    rw [hstays]
    exact hleft
  · intro s e h hstatus hhonest
    obtain ⟨_, _, hinv⟩ := h (by rw [hstatus]; rfl)
    exact hinv.step_waits_iff api hstatus e hhonest
  · exact hgood
  · exact hwaits
  · exact hhonest

def sentOnce : List SessionEvent :=
  [.kernel (.complete 1 3 [1, 2, 3] [] 0), .wake, .kernel (.complete 3 3 [] [] 0), .wake]

theorem sessions_goOn_once : ∃ s : LoopState Unit, smallSession.run plainSsl [] = .loop s ∧
    Execution.Steps (LoopState.step plainSsl) (LoopState.GoesOn plainSsl) s
      (sentOnce.filterMap SessionEvent.loop) := by
  have hstart : Session.start (IouringCtx.iouringInit smallConfig (fun _ => true) fun _ => 1)
      (.tunUdpRunZero smallConn 5) true = some smallSession := rfl
  exact ⟨_, rfl, (sessions_goOn plainSsl smallConfig (fun _ => true) (fun _ => 1) hstart []
    sentOnce rfl rfl rfl (by decide)).mp rfl⟩

end Dataplane.Proofs
