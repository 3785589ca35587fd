import Dataplane.Proofs.HandshakeGiveBack
import Dataplane.Proofs.Lengths
import Dataplane.Proofs.Peers

/-!
# Multishot against single-shot receives

What `wait_for_recv` makes of one and the same datagram when it arrived for a
multishot receive, in a slot of the buffer ring, and when it arrived for a
single-shot receive, in a pool item.
-/

namespace Dataplane.Model

open ProofSupport

/-- What an op shows the caller of `wait_for_recv`. -/
structure Presented where
  opType : OpType
  fd : Int
  dataLen : Int
  payload : Bytes
  addr : Bytes
  addrLen : Nat

def IouringCtx.presented (ctx : IouringCtx) (op : OpId) : Presented where
  opType := (ctx.ops op).opType
  fd := (ctx.ops op).fd
  dataLen := (ctx.ops op).dataLen
  payload := ctx.load (ctx.ops op).buffer (ctx.ops op).dataLen.toNat
  addr := ctx.load (ctx.ops op).addr (ctx.ops op).addrLen
  addrLen := (ctx.ops op).addrLen

/-- Two calls of `wait_for_recv` both fail, or they return ops that show the
same, and a connection learns the same address from both. -/
inductive PathsAgree (σ : Type) : WaitStep × IouringCtx → WaitStep × IouringCtx → Prop
  | failed (m s : IouringCtx) : PathsAgree σ (.null, m) (.null, s)
  | returned (m s : IouringCtx) (op op' : OpId) : m.presented op = s.presented op' →
      (∀ conn : Connection σ, (learnAddr m conn op).2 = (learnAddr s conn op').2) →
      PathsAgree σ (.recv op, m) (.recv op', s)

/-- `iouring_multishot_recvmsg_out` takes the datagram, and arms the receive
again if it has to. -/
def Decodes (ctx : IouringCtx) (c : Cqe) (name payload : Bytes) : Prop :=
  0 < name.length ∧ 0 < payload.length ∧ (c.flags.more = true ∨ ctx.ring.Ready)

/-- `iouring_resubmit_recv` can allocate an op and submit it. -/
def Resubmits (ctx : IouringCtx) : Prop :=
  ctx.ioOpPool ≠ [] ∧ ctx.bufAddrPool ≠ [] ∧ ctx.ring.Ready

end Dataplane.Model

namespace Dataplane.Proofs

open ProofSupport Model

/-! ## Deliveries -/

/-- The completion `c` reports a datagram that the multishot receive on `fd` has
got and that stands in its slot. -/
structure MultiDelivered (ctx : IouringCtx) (c : Cqe) (fd : Int) (name pad payload : Bytes) :
    Prop where
  multi : Multi (ctx.ops c.req.userData)
  opType : (ctx.ops c.req.userData).opType = .udpRecv
  fd : (ctx.ops c.req.userData).fd = fd
  full : name.length + pad.length = sizeofSockaddrStorage
  room : payload.length ≤ payloadRoom
  buffer : c.flags.buffer = true
  res : c.res = (recvmsgOut sizeofSockaddrStorage name pad payload).length
  slot : ∃ old, ctx.brBufs c.flags.bid =
    Bytes.overwrite old (recvmsgOut sizeofSockaddrStorage name pad payload)

/-- The completion `c` reports a datagram that a single-shot receive on `fd` has
got and that stands in the pool item `b`; its op is as `iouring_submit_udp_recv`
has left it. -/
structure SingleDelivered (ctx : IouringCtx) (c : Cqe) (fd : Int) (b : BufId)
    (name payload : Bytes) : Prop where
  op : ctx.ops c.req.userData = IouringCtx.recvMsghdr (pooledOp .udpRecv fd b)
  live : c.req.userData ∉ ctx.ioOpPool
  res : c.res = payload.length
  buf : ∃ old, (ctx.bufs b).buf = Bytes.overwrite old payload
  addr : ∃ old, (ctx.bufs b).addr = Bytes.overwrite old name

variable {σ : Type} {ctx ctx' m s : IouringCtx} {c d : Cqe} {op op' : OpId} {b : BufId} {fd : Int}
  {name pad payload : Bytes}

theorem kernel_multiDelivered {r : Sqe} {bid : Nat} (hmulti : Multi (ctx.ops op))
    (htype : (ctx.ops op).opType = .udpRecv) (hflight : ctx.inFlight op true = some r)
    (hbid : bid ∈ ctx.br) (hfull : name.length + pad.length = sizeofSockaddrStorage)
    (hroom : payload.length ≤ payloadRoom) (more : Bool) (tag : Nat) :
    let out := recvmsgOut sizeofSockaddrStorage name pad payload
    let after := ctx.kernel (.recv op bid out.length out more tag)
    ∃ c, after.ring.cq = ctx.ring.cq ++ [c] ∧ c.flags.more = more ∧
      MultiDelivered after c (ctx.ops op).fd name pad payload := by
  intro out after
  have huser : r.userData = op := (mem_of_inFlight hflight).2.1
  have hfits : out.length ≤ bufSize := by
    have hlen : out.length = slotHeader + min payload.length payloadRoom :=
      length_recvmsgOut payload hfull
    have hsum : slotHeader + payloadRoom = bufSize := rfl
    omega
  have hafter : after = ({ ctx with
      br := ctx.br.erase bid
      brBufs := Function.update ctx.brBufs bid (Bytes.overwrite (ctx.brBufs bid) out) }
        : IouringCtx).post ⟨r, out.length, ⟨true, more, bid⟩, out, tag⟩ := by
    simp [after, IouringCtx.kernel, hflight, hbid, List.take_of_length_le hfits]
  have hops : after.ops = ctx.ops := by rw [hafter]; rfl
  have hslot : after.brBufs bid = Bytes.overwrite (ctx.brBufs bid) out := by
    rw [hafter]
    exact Function.update_self ..
  subst huser
  refine ⟨⟨r, out.length, ⟨true, more, bid⟩, out, tag⟩, by rw [hafter]; rfl, rfl, ?_⟩
  exact {
    multi := hops ▸ hmulti
    opType := hops ▸ htype
    fd := by rw [hops]
    full := hfull
    room := hroom
    buffer := rfl
    res := rfl
    slot := ⟨_, hslot⟩ }

theorem kernel_singleDelivered {r : Sqe}
    (hop : ctx.ops op = IouringCtx.recvMsghdr (pooledOp .udpRecv fd b)) (hlive : op ∉ ctx.ioOpPool)
    (hflight : ctx.inFlight op false = some r) (hcode : r.opcode = .recvmsg)
    (hbuffer : r.buffer = some (.buf b)) (hlen : r.len = bufSize)
    (hmsgName : r.msgName = some (.addr b)) (hnamelen : r.msgNamelen = sizeofSockaddrStorage)
    (hname : name.length ≤ sizeofSockaddrStorage) (hroom : payload.length ≤ bufSize) (tag : Nat) :
    let after := ctx.kernel (.complete op payload.length payload name tag)
    ∃ c, after.ring.cq = ctx.ring.cq ++ [c] ∧ SingleDelivered after c fd b name payload := by
  intro after
  have huser : r.userData = op := (mem_of_inFlight hflight).2.1
  have harrived : IouringCtx.arrived r payload.length payload = payload := by
    simp [IouringCtx.arrived, hcode, hlen, List.take_of_length_le hroom]
  have hafter : after = (((ctx.store (some (.buf b)) payload).store (some (.addr b)) name).post
      ⟨r, payload.length, ⟨false, false, 0⟩, payload, tag⟩) := by
    have hnonneg : ¬ ((payload.length : Int) < 0) := by omega
    simp [after, IouringCtx.kernel, hflight, IouringCtx.perform, hcode, harrived, hbuffer, hmsgName,
      hnamelen, List.take_of_length_le hname, Opcode.outgoing, hnonneg]
  subst huser
  refine ⟨⟨r, payload.length, ⟨false, false, 0⟩, payload, tag⟩, by rw [hafter]; rfl, ?_⟩
  exact {
    op := by rw [hafter]; exact hop
    live := by rw [hafter]; exact hlive
    res := rfl
    buf := ⟨(ctx.bufs b).buf, by rw [hafter]; simp [IouringCtx.post, IouringCtx.store]⟩
    addr := ⟨(ctx.bufs b).addr, by rw [hafter]; simp [IouringCtx.post, IouringCtx.store]⟩ }

/-! ## What is presented -/

theorem learnAddr_presented (h : m.presented op = s.presented op') (conn : Connection σ) :
    (learnAddr m conn op).2 = (learnAddr s conn op').2 := by
  have hlen : (m.ops op).addrLen = (s.ops op').addrLen := congrArg Presented.addrLen h
  have haddr : m.load (m.ops op).addr (m.ops op).addrLen =
      s.load (s.ops op').addr (s.ops op').addrLen := congrArg Presented.addr h
  unfold learnAddr
  dsimp only
  rw [haddr, hlen]
  split <;> rfl

theorem name_recvmsgOut (name pad payload old : Bytes) :
    ((Bytes.overwrite old (recvmsgOut sizeofSockaddrStorage name pad payload)).drop
      sizeofRecvmsgOut).take name.length = name := by
  let words : Bytes := Bytes.le32 name.length ++ Bytes.le32 0 ++ Bytes.le32 payload.length ++
    Bytes.le32 (if payloadRoom < payload.length then msgTrunc else 0)
  have hwords : words.length = sizeofRecvmsgOut := rfl
  have heq : recvmsgOut sizeofSockaddrStorage name pad payload =
      words ++ (name ++ (pad ++ payload.take payloadRoom)) := by
    simp only [recvmsgOut, List.append_assoc, words]
    rfl
  rw [heq, Bytes.overwrite, List.append_assoc, ← hwords, List.drop_left, List.append_assoc,
    List.take_left]

/-- The multishot path shows payload and address of the datagram. -/
theorem multi_presents (h : MultiDelivered ctx c fd name pad payload) :
    (Decodes ctx c name payload ∧ (ctx.waitForRecvBody c).1 = .recv c.req.userData ∧
        (ctx.waitForRecvBody c).2.presented c.req.userData =
          ⟨.udpRecv, fd, payload.length, payload, name, name.length⟩) ∨
      (¬ Decodes ctx c name payload ∧ (ctx.waitForRecvBody c).1 = .null) := by
  obtain ⟨old, hslot⟩ := h.slot
  have hname : Bytes.readLe32 (ctx.brBufs c.flags.bid) = name.length := by
    rw [hslot]
    exact readLe32_recvmsgOut payload old h.full
  have hres : c.res = (slotHeader + payload.length : Nat) := by
    rw [h.res, length_recvmsgOut payload h.full, Nat.min_eq_left h.room]
  generalize hmid : (ctx.modOp c.req.userData fun o => { o with dataLen := c.res }) = mid
  have hop : mid.ops c.req.userData = { ctx.ops c.req.userData with dataLen := c.res } := by
    rw [← hmid, modOp_self]
  have hring : mid.ring = ctx.ring := by rw [← hmid, modOp_ring]
  have hbrBufs : mid.brBufs = ctx.brBufs := by rw [← hmid, modOp_brBufs]
  have hmulti : Multi (mid.ops c.req.userData) := by
    rw [hop]
    exact ⟨h.multi.multi, h.multi.bufAddr, h.multi.msgName, h.multi.msgNamelen,
      h.multi.msgControllen⟩
  have hbody : ctx.waitForRecvBody c = IouringCtx.waitForRecvDone c.req.userData
      (mid.iouringMultishotRecvmsgOut c.req.userData c.flags) := by
    rw [waitForRecvBody_multishot h.opType h.multi.multi (by omega), hmid]
  have hfails : (mid.iouringMultishotRecvmsgOut c.req.userData c.flags).1 < 0 ↔
      ¬ Decodes ctx c name payload := by
    rw [(multishotOut_books hmulti h.buffer).2, hop, hbrBufs, hring, hname]
    dsimp only
    unfold Decodes
    rw [hres]
    apply not_congr
    constructor
    · rintro ⟨hlong, hne, hagain⟩
      exact ⟨by omega, by omega, hagain⟩
    · rintro ⟨hpos, hlong, hagain⟩
      exact ⟨by omega, by omega, hagain⟩
  rw [hbody]
  unfold IouringCtx.waitForRecvDone
  by_cases hdec : Decodes ctx c name payload
  swap
  · exact .inr ⟨hdec, by rw [if_pos (hfails.mpr hdec)]⟩
  have hok : (mid.iouringMultishotRecvmsgOut c.req.userData c.flags).1 = 0 :=
    (iouringMultishotRecvmsgOut_ret ..).resolve_right fun hneg =>
      hfails.mp (by rw [hneg]; decide) hdec
  rw [hok, if_neg (by decide)]
  refine .inl ⟨hdec, rfl, ?_⟩
  obtain ⟨-, hout, hbufs⟩ := iouringMultishotRecvmsgOut_success (Multi.header hmulti) hok
  rw [hop, hbrBufs, hname] at hout
  rw [hbrBufs] at hbufs
  have hlen : c.res - slotHeader = payload.length := by omega
  unfold IouringCtx.presented
  rw [hout]
  dsimp only [IouringCtx.load]
  rw [hbufs, hslot, h.opType, h.fd, hlen, Int.toNat_natCast,
    payload_recvmsgOut payload old h.full h.room, name_recvmsgOut]

/-- `iouring_resubmit_recv` writes neither to the memory nor to an op that is in
use, and what it submits is an op as `iouring_submit_udp_recv` leaves it. -/
theorem iouringResubmitRecv_arms {completed : OpId}
    (htype : (ctx.ops completed).opType = .udpRecv) :
    (ctx.iouringResubmitRecv completed).2.bufs = ctx.bufs ∧
      (∀ o ∉ ctx.ioOpPool, (ctx.iouringResubmitRecv completed).2.ops o = ctx.ops o) ∧
      ((ctx.iouringResubmitRecv completed).1 = 0 → ∃ new b, new ∈ ctx.ioOpPool ∧
        (ctx.iouringResubmitRecv completed).2.ops new =
          IouringCtx.recvMsghdr (pooledOp .udpRecv (ctx.ops completed).fd b)) := by
  unfold IouringCtx.iouringResubmitRecv
  dsimp only
  rw [htype]
  rcases ha : ctx.ioOpAlloc .udpRecv (ctx.ops completed).fd false with ⟨_ | new, ctx1⟩
  · obtain ⟨ops, rfl, hsame⟩ := ioOpAlloc_none_eq ha
    exact ⟨rfl, hsame, fun h => by simp at h⟩
  obtain ⟨ops, b, bufs, hpool, -, rfl⟩ := ioOpAlloc_single_eq ha
  dsimp only
  generalize hmid : ({ ctx with
    ioOpPool := ops
    bufAddrPool := bufs
    ops := Function.update ctx.ops new (pooledOp .udpRecv (ctx.ops completed).fd b) } :
      IouringCtx) = mid
  have hnew : mid.ops new = pooledOp .udpRecv (ctx.ops completed).fd b := by simp [← hmid]
  have hbufs : mid.bufs = ctx.bufs := by rw [← hmid]
  have hother : ∀ o ∉ ctx.ioOpPool, mid.ops o = ctx.ops o ∧ o ≠ new := by
    intro o ho
    have hne : o ≠ new := fun heq => ho (by rw [hpool, heq]; exact List.mem_cons_self)
    exact ⟨by simp [← hmid, hne], hne⟩
  have hnewType : (mid.ops new).opType = .udpRecv := by rw [hnew]; rfl
  have hsub := iouringSubmitUdpRecv_submitted hnewType (by rw [hnew]; rfl)
  generalize mid.iouringSubmitUdpRecv new = out at *
  have hkept : ∀ out', RingOnly (mid.modOp new IouringCtx.recvMsghdr) out' →
      out'.bufs = ctx.bufs ∧ (∀ o ∉ ctx.ioOpPool, out'.ops o = ctx.ops o) ∧
        out'.ops new = IouringCtx.recvMsghdr (pooledOp .udpRecv (ctx.ops completed).fd b) := by
    intro out' honly
    rw [honly]
    refine ⟨hbufs, fun o ho => ?_, by rw [← hnew]; exact Function.update_self ..⟩
    obtain ⟨hsame, hne⟩ := hother o ho
    rw [← hsame]
    exact Function.update_of_ne hne _ _
  have hmem : new ∈ ctx.ioOpPool := by
    rw [hpool]
    exact List.mem_cons_self
  cases hsub with
  | refused f => exact ⟨hbufs, fun o ho => (hother o ho).1, fun h => by simp at h⟩
  | queued honly _ =>
      obtain ⟨hbufs', hops, hop⟩ := hkept _ honly
      exact ⟨hbufs', hops, fun _ => ⟨new, b, hmem, hop⟩⟩
  | failed honly _ _ =>
      obtain ⟨hbufs', hops, -⟩ := hkept _ honly
      exact ⟨hbufs', hops, fun h => by simp at h⟩

/-- The single-shot path shows the payload, and `sizeof(struct
sockaddr_storage)` bytes that begin with the address. -/
theorem single_presents (h : SingleDelivered ctx c fd b name payload) :
    (Resubmits ctx ∧ (ctx.waitForRecvBody c).1 = .recv c.req.userData ∧
        (ctx.waitForRecvBody c).2.presented c.req.userData =
          ⟨.udpRecv, fd, payload.length, payload, (ctx.bufs b).addr.take sizeofSockaddrStorage,
            sizeofSockaddrStorage⟩) ∨
      (¬ Resubmits ctx ∧ (ctx.waitForRecvBody c).1 = .null) := by
  obtain ⟨old, hbuf⟩ := h.buf
  have hres := h.res
  generalize hmid : (ctx.modOp c.req.userData fun o => { o with dataLen := c.res }) = mid
  have hop : mid.ops c.req.userData =
      { IouringCtx.recvMsghdr (pooledOp .udpRecv fd b) with dataLen := c.res } := by
    rw [← hmid, modOp_self, h.op]
  have htype : (mid.ops c.req.userData).opType = .udpRecv := by rw [hop]; rfl
  have hbody : ctx.waitForRecvBody c = IouringCtx.waitForRecvDone c.req.userData
      (mid.iouringResubmitRecv c.req.userData) := by
    have hown : (ctx.ops c.req.userData).opType = .udpRecv ∧
        (ctx.ops c.req.userData).isMulti = false := by
      rw [h.op]
      exact ⟨rfl, rfl⟩
    rw [waitForRecvBody_single (.inr hown.1) hown.2 (by omega), hmid]
  obtain ⟨hbufs, hops, -⟩ := iouringResubmitRecv_arms htype
  have hcases := iouringResubmitRecv_resubmitted mid c.req.userData
  have hfails : (mid.iouringResubmitRecv c.req.userData).1 < 0 ↔ ¬ Resubmits ctx := by
    have hsame : Resubmits ctx ↔ Resubmits mid := by rw [← hmid]; rfl
    rw [hsame]
    generalize mid.iouringResubmitRecv c.req.userData = out at hcases
    unfold Resubmits
    cases hcases with
    | empty hempty _ =>
        refine ⟨fun _ hready => ?_, fun _ => by simp⟩
        exact hempty.elim hready.1 hready.2.1
    | taken new b' hpool hitems _ _ hneg =>
        rw [hneg, hpool, hitems]
        simp [htype]
  rw [hbody]
  unfold IouringCtx.waitForRecvDone
  by_cases hready : Resubmits ctx
  swap
  · exact .inr ⟨hready, by rw [if_pos (hfails.mpr hready)]⟩
  rw [if_neg fun hneg => hfails.mp hneg hready]
  refine .inl ⟨hready, rfl, ?_⟩
  have hlive : c.req.userData ∉ mid.ioOpPool := by rw [← hmid]; exact h.live
  have hlen : c.res.toNat = payload.length := by omega
  have hmem : mid.bufs = ctx.bufs := by rw [← hmid]; rfl
  unfold IouringCtx.presented
  rw [hops _ hlive, hop]
  show Presented.mk _ _ _ (((mid.iouringResubmitRecv _).2.bufs b).buf.take _)
    (((mid.iouringResubmitRecv _).2.bufs b).addr.take _) _ = _
  rw [hbufs, hmem, hlen, hbuf, Bytes.take_overwrite, hres]
  rfl

/-! ## Agreement -/

theorem PathsAgree.presented {out out' : WaitStep × IouringCtx} (h : PathsAgree σ out out')
    (hop : out.1 = .recv op) (hop' : out'.1 = .recv op') :
    out.2.presented op = out'.2.presented op' := by
  cases h with
  | failed => cases hop
  | returned m s _ _ hsame _ =>
      cases hop
      cases hop'
      exact hsame

theorem PathsAgree.fails_iff {out out' : WaitStep × IouringCtx} (h : PathsAgree σ out out') :
    out.1 = .null ↔ out'.1 = .null := by
  cases h with
  | failed => exact Iff.rfl
  | returned => simp

/-- The two paths agree about a datagram if and only if they both fail, or both
return an op and the address takes up a whole `struct sockaddr_storage`. -/
theorem pathsAgree_iff (σ : Type) (hm : MultiDelivered m c fd name pad payload)
    (hs : SingleDelivered s d fd b name payload) :
    PathsAgree σ (m.waitForRecvBody c) (s.waitForRecvBody d) ↔
      (Decodes m c name payload ↔ Resubmits s) ∧
        (Decodes m c name payload → name.length = sizeofSockaddrStorage) := by
  have hmulti := multi_presents hm
  have hsingle := single_presents hs
  generalize m.waitForRecvBody c = out at *
  generalize s.waitForRecvBody d = out' at *
  rcases hmulti with ⟨hdec, hop, hshown⟩ | ⟨hnot, hnull⟩
  · rcases hsingle with ⟨hready, hop', hshown'⟩ | ⟨hnot', hnull'⟩
    · constructor
      · intro hagree
        have hsame := PathsAgree.presented hagree hop hop'
        rw [hshown, hshown'] at hsame
        exact ⟨iff_of_true hdec hready, fun _ => congrArg Presented.addrLen hsame⟩
      · rintro ⟨-, hlen⟩
        have hwhole : name.length = sizeofSockaddrStorage := hlen hdec
        obtain ⟨old, haddr⟩ := hs.addr
        have hsame : out.2.presented c.req.userData = out'.2.presented d.req.userData := by
          rw [hshown, hshown', haddr, ← hwhole, Bytes.take_overwrite]
        obtain ⟨step, m'⟩ := out
        obtain ⟨step', s'⟩ := out'
        dsimp only at hop hop' hsame
        rw [hop, hop']
        exact .returned m' s' _ _ hsame (learnAddr_presented hsame)
    · constructor
      · intro hagree
        have hnull := (PathsAgree.fails_iff hagree).mpr hnull'
        rw [hop] at hnull
        cases hnull
      · intro h
        exact absurd (h.1.mp hdec) hnot'
  · rcases hsingle with ⟨hready, hop', -⟩ | ⟨hnot', hnull'⟩
    · constructor
      · intro hagree
        have hnull' := (PathsAgree.fails_iff hagree).mp hnull
        rw [hop'] at hnull'
        cases hnull'
      · intro h
        exact absurd (h.1.mpr hready) hnot
    · obtain ⟨step, m'⟩ := out
      obtain ⟨step', s'⟩ := out'
      dsimp only at hnull hnull'
      rw [hnull, hnull']
      exact iff_of_true (.failed m' s') ⟨iff_of_false hnot hnot', fun h => absurd h hnot⟩

/-! ## A datagram from an IPv4 address -/

def waitingRing : IouringCtx :=
  ((oneSlotRing.ioOpAlloc .udpRecv 3 false).2.iouringSubmitUdpRecv 0).2

/-- 127.0.0.1:4433 as a `struct sockaddr_in` -/
def loopbackName : Bytes := [2, 0, 0x11, 0x51, 127, 0, 0, 1, 0, 0, 0, 0, 0, 0, 0, 0]

def multiRing (name : Bytes) : IouringCtx :=
  let out := recvmsgOut sizeofSockaddrStorage name
    (List.replicate (sizeofSockaddrStorage - name.length) 0) [1, 2, 3]
  receivingRing.kernel (.recv 0 0 out.length out true 0)

def singleRing (name : Bytes) : IouringCtx :=
  waitingRing.kernel (.complete 0 3 [1, 2, 3] name 0)

theorem multiRing_delivered {name : Bytes} (h : name.length ≤ sizeofSockaddrStorage) :
    ∃ c, (multiRing name).ring.cq = [c] ∧ c.flags.more = true ∧
      MultiDelivered (multiRing name) c 3 name
        (List.replicate (sizeofSockaddrStorage - name.length) 0) [1, 2, 3] := by
  have hflight : receivingRing.inFlight 0 true = some _ := rfl
  have hfull : name.length +
      (List.replicate (sizeofSockaddrStorage - name.length) (0 : UInt8)).length =
        sizeofSockaddrStorage := by
    rw [List.length_replicate]
    omega
  exact kernel_multiDelivered ⟨rfl, rfl, rfl, rfl, rfl⟩ rfl hflight (by decide) hfull (by decide)
    true 0

theorem singleRing_delivered {name : Bytes} (h : name.length ≤ sizeofSockaddrStorage) :
    ∃ c, (singleRing name).ring.cq = [c] ∧
      SingleDelivered (singleRing name) c 3 0 name [1, 2, 3] := by
  have hflight : waitingRing.inFlight 0 false = some _ := rfl
  exact kernel_singleDelivered rfl (by decide) hflight rfl rfl rfl rfl rfl h (by decide) 0

/-- The single-shot op shows 128 bytes of an address of 16. -/
theorem loopback_not_pathsAgree : ∃ c d, (multiRing loopbackName).ring.cq = [c] ∧
    (singleRing loopbackName).ring.cq = [d] ∧
    ¬ PathsAgree Unit ((multiRing loopbackName).waitForRecvBody c)
      ((singleRing loopbackName).waitForRecvBody d) := by
  obtain ⟨c, hc, hmore, hm⟩ := multiRing_delivered (show loopbackName.length ≤ _ by decide)
  obtain ⟨d, hd, hs⟩ := singleRing_delivered (show loopbackName.length ≤ _ by decide)
  refine ⟨c, d, hc, hd, fun hagree => ?_⟩
  have hdec : Decodes (multiRing loopbackName) c loopbackName [1, 2, 3] :=
    ⟨by decide, by decide, .inl hmore⟩
  have hready : Resubmits (singleRing loopbackName) := ⟨by decide, by decide, rfl, by decide⟩
  obtain ⟨-, hop, hshown⟩ := (multi_presents hm).resolve_right fun h => h.1 hdec
  obtain ⟨-, hop', hshown'⟩ := (single_presents hs).resolve_right fun h => h.1 hready
  have hsame := PathsAgree.presented hagree hop hop'
  rw [hshown, hshown'] at hsame
  have hlen : loopbackName.length = sizeofSockaddrStorage := congrArg Presented.addrLen hsame
  exact absurd hlen (by decide)

/-- An address of 128 bytes is shown by both. -/
theorem whole_pathsAgree : ∃ c d,
    (multiRing (List.replicate 128 7)).ring.cq = [c] ∧
    (singleRing (List.replicate 128 7)).ring.cq = [d] ∧
    PathsAgree Unit ((multiRing (List.replicate 128 7)).waitForRecvBody c)
      ((singleRing (List.replicate 128 7)).waitForRecvBody d) := by
  have hfits : (List.replicate 128 (7 : UInt8)).length ≤ sizeofSockaddrStorage := by
    rw [List.length_replicate]
    decide
  obtain ⟨c, hc, hmore, hm⟩ := multiRing_delivered hfits
  obtain ⟨d, hd, hs⟩ := singleRing_delivered hfits
  have hdec : Decodes (multiRing (List.replicate 128 7)) c (List.replicate 128 7) [1, 2, 3] :=
    ⟨by rw [List.length_replicate]; decide, by decide, .inl hmore⟩
  have hready : Resubmits (singleRing (List.replicate 128 7)) :=
    ⟨by decide, by decide, rfl, by decide⟩
  exact ⟨c, d, hc, hd, (pathsAgree_iff Unit hm hs).mpr
    ⟨iff_of_true hdec hready, fun _ => by rw [List.length_replicate]; rfl⟩⟩

end Dataplane.Proofs
