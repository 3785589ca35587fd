import Dataplane.Proofs.Transmit

/-!
# The loop bodies

What `tun_udp_run`, `tun_udp_run_zero` and `forwarder_run` do with an op that
`wait_for_recv` handed out: at most one outgoing request, and exactly one when
the body succeeds.
-/

namespace Dataplane.Proofs

open ProofSupport Model Ledger

variable {ctx ctx' : IouringCtx} {held got : Multiset OpId} {taken idx : Multiset Nat}
variable {σ : Type} {api : Ssl σ} {c : Cqe} {op : OpId}

/-! ## The received packet -/

end Dataplane.Proofs

namespace Dataplane.Model.Cqe

open Proofs

/-- The result says how many bytes the kernel put into memory. -/
def Honest (c : Cqe) : Prop := c.res = c.data.length

/-- The packet that a completed receive brought. -/
def payload (c : Cqe) : ProofSupport.Bytes :=
  if c.req.opcode = .recvmsgMultishot then c.data.drop slotHeader else c.data

end Dataplane.Model.Cqe

namespace Dataplane.Proofs

open ProofSupport Model Ledger

theorem Received.opType (h : Received ctx c op got idx) :
    (ctx.ops op).opType = c.req.opcode.opType := by
  cases h <;> assumption

theorem Received.fd (h : Received ctx c op got idx) : (ctx.ops op).fd = c.req.fd := by
  cases h <;> assumption

theorem Received.freeable (h : Received ctx c op got idx) :
    Freeable (ctx.ops op) op got idx := by
  cases h with
  | single b _ _ _ hp _ _ _ => exact .pooled b hp
  | multi _ _ _ hpres _ _ => exact .multi _ hpres.multi hpres.bufIdx

theorem Received.not_mem_pool (h : Received ctx c op got idx)
    (hinv : Inv ctx (got + held) (idx + taken)) : op ∉ ctx.ioOpPool := by
  cases h with
  | single b _ _ _ _ _ _ _ =>
      refine hinv.not_mem_pool (Multiset.mem_add.mpr (Or.inl (Multiset.mem_add.mpr (Or.inl ?_))))
      exact Multiset.mem_singleton_self op
  | multi _ _ _ _ hout _ => exact hout

theorem Received.payload (h : Received ctx c op got idx) (hc : c.Honest) :
    ctx.load (ctx.ops op).buffer (ctx.ops op).dataLen.toNat = c.payload ∧
      (ctx.ops op).dataLen = (c.payload.length : Int) := by
  rw [Cqe.Honest] at hc
  cases h with
  | single b _ _ hcode hp hlen hload _ =>
      rw [Cqe.payload, if_neg hcode, hp.buffer, hlen, hc, Int.toNat_natCast]
      exact ⟨hload, rfl⟩
  | multi _ _ hcode hpres _ hslot =>
      have hpos := hpres.pos
      rw [hpres.dataLen, hc] at hpos
      have hlen : (ctx.ops op).dataLen = ((c.data.length - slotHeader : Nat) : Int) := by
        rw [hpres.dataLen, hc]; omega
      rw [Cqe.payload, if_pos hcode, hpres.buffer, hlen, Int.toNat_natCast, List.length_drop]
      refine ⟨?_, rfl⟩
      calc ((ctx.brBufs c.flags.bid).drop slotHeader).take (c.data.length - slotHeader)
          = ((ctx.brBufs c.flags.bid).take c.data.length).drop slotHeader := by
            rw [List.drop_take]
        _ = c.data.drop slotHeader := by rw [hslot]

/-! ## What a body does -/

structure Handled (ctx ctx' : IouringCtx) (held : Multiset OpId) (taken : Multiset Nat) (ret : Int)
    (rs : List Sqe) (P : Sqe → Prop) : Prop where
  effect : Effect ctx ctx' rs
  single : rs.length ≤ 1
  entry : ∀ r ∈ rs, P r
  done : (ret = 0 ∧ rs ≠ [] ∧ Inv ctx' held taken) ∨ (ret = -1 ∧ Stopped ctx')

theorem Handled.mono {ret : Int} {rs : List Sqe} {P P' : Sqe → Prop}
    (h : Handled ctx ctx' held taken ret rs P) (hP : ∀ r ∈ rs, P r → P' r) :
    Handled ctx ctx' held taken ret rs P' :=
  ⟨h.effect, h.single, fun r hr => hP r hr (h.entry r hr), h.done⟩

theorem Handled.queues {ret : Int} {rs : List Sqe} {P : Sqe → Prop}
    (h : Handled ctx ctx' held taken ret rs P) (hret : ret = 0) : rs ≠ [] := by
  rcases h.done with ⟨-, hne, -⟩ | ⟨hfail, -⟩
  · exact hne
  · omega

theorem Handled.ret_cases {ret : Int} {rs : List Sqe} {P : Sqe → Prop}
    (h : Handled ctx ctx' held taken ret rs P) : ret = 0 ∨ ret = -1 := by
  rcases h.done with ⟨hret, -⟩ | ⟨hret, -⟩
  · exact .inl hret
  · exact .inr hret

theorem Sends.freeAndReturn {ret : Int} {rs : List Sqe} {P : Sqe → Prop} {ctx1 : IouringCtx}
    (h : Sends ctx ctx1 (got + held) (idx + taken) ret rs P) (hr : Received ctx c op got idx)
    (hout : op ∉ ctx.ioOpPool) : Handled ctx (ctx1.ioOpFree op).2 held taken ret rs P := by
  have hring := ioOpFree_ring ctx1 op
  have hfree : Freeable (ctx1.ops op) op got idx := by
    rw [h.ops op hout]; exact hr.freeable
  have heff := h.effect.trans (.of_ring_eq hring.1 hring.2.1 hring.2.2)
  rw [List.append_nil] at heff
  refine ⟨heff, h.single, h.entry, ?_⟩
  rcases h.done with ⟨hret, hne, hinv⟩ | ⟨hret, hleak⟩
  · exact Or.inl ⟨hret, hne, hinv.ioOpFree hfree⟩
  · exact Or.inr ⟨hret, hleak.ioOpFree_stopped hfree⟩

theorem Relays.freeAndReturn {ret : Int} {rs : List Sqe} {P : Sqe → Prop} {ctx1 : IouringCtx}
    (h : Relays ctx ctx1 held taken op ret rs P got idx) :
    Handled ctx (ctx1.ioOpFree op).2 held taken ret rs P := by
  have hring := ioOpFree_ring ctx1 op
  have heff := h.effect.trans (.of_ring_eq hring.1 hring.2.1 hring.2.2)
  rw [List.append_nil] at heff
  refine ⟨heff, h.single, h.entry, ?_⟩
  rcases h.done with ⟨hret, hne, hinv⟩ | ⟨hret, hleak⟩
  · exact Or.inl ⟨hret, hne, hinv.ioOpFree h.free⟩
  · exact Or.inr ⟨hret, hleak.ioOpFree_stopped h.free⟩

/-! ## `tun_udp_run` -/

section TunUdpRun

variable {conn : Connection σ} {tunFd ret : Int} {rest : Option OpId} {prog : Program σ}

theorem Inv.tunUdpRunBody_read (h : Inv ctx (got + held) (idx + taken))
    (hr : Received ctx c op got idx) (htype : (ctx.ops op).opType = .tunRead) {data : Bytes}
    (hdata : ctx.load (ctx.ops op).buffer (ctx.ops op).dataLen.toNat = data)
    (hres : tunUdpRunBody api ctx conn tunFd op = (ret, rest, ctx', prog)) :
    ∃ rs conn', prog = .tunUdpRun conn' tunFd ∧
      Handled ctx ctx' held taken ret rs
        (SendOn ctx conn (conn.dtlsEncryptPacket api data bufSize).2.1) ∧
      (conn' = conn ∧ ret = -1 ∧ rs = [] ∨
        conn' = (conn.dtlsEncryptPacket api data bufSize).2.2 ∧
          (ret = 0 → 0 ≤ (conn.dtlsEncryptPacket api data bufSize).1)) := by
  unfold Model.tunUdpRunBody at hres
  simp only [htype, hdata] at hres
  rcases hsend : Model.dtlsEncryptAndSendUdp api conn data ctx with ⟨ret', ctx1, conn'⟩
  obtain ⟨rs, hs, hconn⟩ := h.dtlsEncryptAndSendUdp hsend
  simp only [hsend, freeAndReturn, Prod.mk.injEq] at hres
  obtain ⟨rfl, -, rfl, rfl⟩ := hres
  exact ⟨rs, conn', rfl, hs.freeAndReturn hr (hr.not_mem_pool h), hconn⟩

theorem Inv.tunUdpRunBody_recv (h : Inv ctx (got + held) (idx + taken))
    (hr : Received ctx c op got idx) (htype : (ctx.ops op).opType = .udpRecv) {data : Bytes}
    {len : Int} (hdata : ctx.load (ctx.ops op).buffer (ctx.ops op).dataLen.toNat = data)
    (hlen : (ctx.ops op).dataLen = len)
    (hres : tunUdpRunBody api ctx conn tunFd op = (ret, rest, ctx', prog)) :
    ∃ rs conn', prog = .tunUdpRun conn' tunFd ∧
      Handled ctx ctx' held taken ret rs (fun r => r.opcode = .write ∧
        ((conn.dtlsDecryptPacket api data len bufSize).1 =
          ((conn.dtlsDecryptPacket api data len bufSize).2.1.length : Int) →
        Carries ctx r .write tunFd (conn.dtlsDecryptPacket api data len bufSize).2.1)) ∧
      (conn' = conn ∧ ret = -1 ∨ conn' = (conn.dtlsDecryptPacket api data len bufSize).2.2.2) := by
  unfold Model.tunUdpRunBody at hres
  rw [hlen] at hdata
  simp only [htype, hdata, hlen] at hres
  rcases hwrite : Model.dtlsDecryptAndWriteTun api conn tunFd data len ctx with ⟨ret', ctx1, conn'⟩
  obtain ⟨rs, hs, hconn⟩ := h.dtlsDecryptAndWriteTun hwrite
  simp only [hwrite, freeAndReturn, Prod.mk.injEq] at hres
  obtain ⟨rfl, -, rfl, rfl⟩ := hres
  exact ⟨rs, conn', rfl, hs.freeAndReturn hr (hr.not_mem_pool h), hconn⟩

end TunUdpRun

/-! ## `tun_udp_run_zero` -/

section TunUdpRunZero

variable {conn : Connection σ} {tunFd ret : Int} {rest : Option OpId} {prog : Program σ}

theorem Inv.tunUdpRunZeroBody_read (h : Inv ctx (got + held) (idx + taken))
    (hr : Received ctx c op got idx) (htype : (ctx.ops op).opType = .tunRead) {data : Bytes}
    (hdata : ctx.load (ctx.ops op).buffer (ctx.ops op).dataLen.toNat = data)
    (hres : tunUdpRunZeroBody ctx conn tunFd op = (ret, rest, ctx', prog)) :
    ∃ rs, prog = .tunUdpRunZero conn tunFd ∧
      Handled ctx ctx' held taken ret rs (SendOn ctx conn data) := by
  unfold Model.tunUdpRunZeroBody at hres
  simp only [htype] at hres
  cases hr with
  | multi htype' _ hcode _ _ _ => rw [htype, hcode] at htype'; cases htype'
  | single b _ _ _ hp _ _ _ =>
      rw [zero_add] at h
      rcases hsend : Model.tunToUdp conn op ctx with ⟨ret', ctx1⟩
      obtain ⟨rs, hrel⟩ := h.tunToUdp hp hsend
      rw [← hp.buffer, hdata] at hrel
      simp only [hsend, freeAndReturn, Prod.mk.injEq] at hres
      obtain ⟨rfl, -, rfl, rfl⟩ := hres
      exact ⟨rs, rfl, hrel.freeAndReturn⟩

theorem Received.addrLen (h : Received ctx c op got idx)
    (htype : (ctx.ops op).opType = .udpRecv) : 0 < (ctx.ops op).addrLen := by
  have hopcode := h.opType
  rw [htype] at hopcode
  cases h with
  | multi _ _ _ hpres _ _ => exact hpres.addrPos
  | single _ _ _ hcode _ _ _ haddr =>
      refine haddr ?_
      revert hopcode hcode
      cases c.req.opcode <;> simp [Opcode.opType]

theorem Inv.tunUdpRunZeroBody_recv (h : Inv ctx (got + held) (idx + taken))
    (hr : Received ctx c op got idx) (htype : (ctx.ops op).opType = .udpRecv) {data : Bytes}
    (hdata : ctx.load (ctx.ops op).buffer (ctx.ops op).dataLen.toNat = data)
    (hres : tunUdpRunZeroBody ctx conn tunFd op = (ret, rest, ctx', prog)) :
    ∃ rs, prog = .tunUdpRunZero (learnAddr ctx conn op).2 tunFd ∧
      Handled ctx ctx' held taken ret rs (fun r => Carries ctx r .write tunFd data) := by
  unfold Model.tunUdpRunZeroBody at hres
  simp only [htype, learnAddr_ctx conn (hr.addrLen htype)] at hres
  rcases hwrite : Model.udpToTun tunFd op ctx with ⟨ret', ctx1⟩
  simp only [hwrite, freeAndReturn, Prod.mk.injEq] at hres
  obtain ⟨rfl, -, rfl, rfl⟩ := hres
  cases hr with
  | single b _ _ _ hp _ _ _ =>
      rw [zero_add] at h
      obtain ⟨rs, ops, idx', hrel⟩ := h.udpToTun_single hp hwrite
      rw [← hp.buffer, hdata] at hrel
      exact ⟨rs, rfl, hrel.freeAndReturn⟩
  | multi _ _ _ hpres hout _ =>
      rw [zero_add] at h
      obtain ⟨rs, ops, idx', hrel⟩ :=
        h.udpToTun_multi hpres.multi hpres.bufIdx hpres.buffer hout hwrite
      rw [← hpres.buffer, hdata] at hrel
      exact ⟨rs, rfl, hrel.freeAndReturn⟩

end TunUdpRunZero

/-! ## `forwarder_run` -/

section ForwarderRun

variable {inbound outbound : Connection σ} {ret : Int} {rest : Option OpId} {prog : Program σ}

inductive Forwarded (api : Ssl σ) (recvConn forwardConn : Connection σ) (data : Bytes)
    (len ret : Int)
    (rs : List Sqe) : Connection σ → Connection σ → Prop
  | unread : ret = -1 → rs = [] →
      Forwarded api recvConn forwardConn data len ret rs recvConn forwardConn
  | unsent : ret = -1 → rs = [] → Forwarded api recvConn forwardConn data len ret rs
      (recvConn.dtlsDecryptPacket api data len bufSize).2.2.2 forwardConn
  | sent : 0 < (recvConn.dtlsDecryptPacket api data len bufSize).1 →
      (ret = 0 → 0 ≤ (forwardConn.dtlsEncryptPacket api
        (recvConn.dtlsDecryptPacket api data len bufSize).2.1 bufSize).1) →
      Forwarded api recvConn forwardConn data len ret rs
        (recvConn.dtlsDecryptPacket api data len bufSize).2.2.2
        (forwardConn.dtlsEncryptPacket api
          (recvConn.dtlsDecryptPacket api data len bufSize).2.1 bufSize).2.2

theorem Inv.forwardBetween {recvConn forwardConn recvConn' forwardConn' : Connection σ}
    {data : Bytes} {len : Int} (h : Inv ctx held taken)
    (hres : forwardBetween api ctx recvConn forwardConn data len =
      (ret, ctx', recvConn', forwardConn')) :
    ∃ rs, Sends ctx ctx' held taken ret rs (SendOn ctx forwardConn
        (forwardConn.dtlsEncryptPacket api
          (recvConn.dtlsDecryptPacket api data len bufSize).2.1 bufSize).2.1) ∧
      Forwarded api recvConn forwardConn data len ret rs recvConn' forwardConn' := by
  have hunsent := @Forwarded.unsent σ api recvConn forwardConn data len
  have hsent := @Forwarded.sent σ api recvConn forwardConn data len
  unfold Model.forwardBetween at hres
  rcases hdec : recvConn.dtlsDecryptPacket api data len bufSize with ⟨n, decrypted, ok, conn1⟩
  simp only [hdec] at hres hunsent hsent ⊢
  split at hres
  · simp only [Prod.mk.injEq] at hres
    obtain ⟨rfl, rfl, rfl, rfl⟩ := hres
    exact ⟨[], ⟨.of_ring_eq rfl rfl rfl, by simp, by simp, fun _ _ => rfl,
      Or.inr ⟨rfl, h.leaky⟩⟩, hunsent rfl rfl⟩
  rename_i hpos
  rcases hsend : Model.dtlsEncryptAndSendUdp api forwardConn decrypted ctx with
    ⟨ret', ctx1, conn2⟩
  obtain ⟨rs, hs, hconn⟩ := h.dtlsEncryptAndSendUdp hsend
  simp only [hsend, Prod.mk.injEq] at hres
  obtain ⟨rfl, rfl, rfl, rfl⟩ := hres
  have hret : (if ret' < 0 then (-1 : Int) else 0) = ret' := by
    rcases hs.done with ⟨rfl, -⟩ | ⟨rfl, -⟩ <;> rfl
  rw [hret]
  refine ⟨rs, hs, ?_⟩
  rcases hconn with ⟨rfl, hfail, rfl⟩ | ⟨rfl, hok⟩
  · exact hunsent hfail rfl
  · exact hsent (by omega) hok

theorem Sends.forwardReturn {ret' : Int} {rs : List Sqe} {P : Sqe → Prop} {ctx1 : IouringCtx}
    {prog' : Program σ} (h : Sends ctx ctx1 (got + held) (idx + taken) ret' rs P)
    (hr : Received ctx c op got idx) (hout : op ∉ ctx.ioOpPool)
    (hres : (if ret' < 0 then (ret', some op, ctx1, prog')
      else Model.freeAndReturn op ret' ctx1 prog') =
      (ret, rest, ctx', prog)) :
    prog = prog' ∧ ret = ret' ∧ Handled ctx ctx' held taken ret rs P := by
  rcases h.done with ⟨rfl, hne, hinv⟩ | ⟨rfl, hleak⟩
  · rw [if_neg (by decide)] at hres
    simp only [Model.freeAndReturn, Prod.mk.injEq] at hres
    obtain ⟨rfl, -, rfl, rfl⟩ := hres
    exact ⟨rfl, rfl, h.freeAndReturn hr hout⟩
  · rw [if_pos (by decide)] at hres
    simp only [Prod.mk.injEq] at hres
    obtain ⟨rfl, -, rfl, rfl⟩ := hres
    exact ⟨rfl, rfl, h.effect, h.single, h.entry, Or.inr ⟨rfl, hleak.stopped⟩⟩

theorem Inv.forwarderRunBody_inbound (h : Inv ctx (got + held) (idx + taken))
    (hr : Received ctx c op got idx) (htype : (ctx.ops op).opType = .udpRecv)
    (hfd : (ctx.ops op).fd = inbound.udpFd) {data : Bytes} {len : Int}
    (hdata : ctx.load (ctx.ops op).buffer (ctx.ops op).dataLen.toNat = data)
    (hlen : (ctx.ops op).dataLen = len)
    (hres : forwarderRunBody api ctx inbound outbound op = (ret, rest, ctx', prog)) :
    ∃ rs inbound' outbound', prog = .forwarderRun inbound' outbound' ∧
      Handled ctx ctx' held taken ret rs (SendOn ctx outbound (outbound.dtlsEncryptPacket api
        (inbound.dtlsDecryptPacket api data len bufSize).2.1 bufSize).2.1) ∧
      Forwarded api inbound outbound data len ret rs inbound' outbound' := by
  unfold Model.forwarderRunBody Model.forwardUdpPacket at hres
  rw [hlen] at hdata
  simp only [htype, hfd, hdata, hlen, ne_eq, not_true_eq_false, if_false, if_true] at hres
  split at hres
  · rw [if_pos (by simp)] at hres
    simp only [Prod.mk.injEq] at hres
    obtain ⟨rfl, -, rfl, rfl⟩ := hres
    exact ⟨[], inbound, outbound, rfl, ⟨.of_ring_eq rfl rfl rfl, by simp, by simp,
      Or.inr ⟨rfl, h.leaky.stopped⟩⟩, .unread rfl rfl⟩
  rcases hfwd : Model.forwardBetween api ctx inbound outbound data len with
    ⟨ret', ctx1, inbound', outbound'⟩
  obtain ⟨rs, hs, hconns⟩ := h.forwardBetween hfwd
  simp only [hfwd] at hres
  obtain ⟨rfl, rfl, hhandled⟩ := hs.forwardReturn hr (hr.not_mem_pool h) hres
  exact ⟨rs, inbound', outbound', rfl, hhandled, hconns⟩

theorem Inv.forwarderRunBody_outbound (h : Inv ctx (got + held) (idx + taken))
    (hr : Received ctx c op got idx) (htype : (ctx.ops op).opType = .udpRecv)
    (hfd : (ctx.ops op).fd ≠ inbound.udpFd) {data : Bytes} {len : Int}
    (hdata : ctx.load (ctx.ops op).buffer (ctx.ops op).dataLen.toNat = data)
    (hlen : (ctx.ops op).dataLen = len)
    (hres : forwarderRunBody api ctx inbound outbound op = (ret, rest, ctx', prog)) :
    ∃ rs inbound' outbound', prog = .forwarderRun inbound' outbound' ∧
      Handled ctx ctx' held taken ret rs (SendOn ctx inbound (inbound.dtlsEncryptPacket api
        (outbound.dtlsDecryptPacket api data len bufSize).2.1 bufSize).2.1) ∧
      Forwarded api outbound inbound data len ret rs outbound' inbound' := by
  unfold Model.forwarderRunBody Model.forwardUdpPacket at hres
  rw [hlen] at hdata
  simp only [htype, hfd, hdata, hlen, ne_eq, not_true_eq_false, if_false] at hres
  split at hres
  · rw [if_pos (by simp)] at hres
    simp only [Prod.mk.injEq] at hres
    obtain ⟨rfl, -, rfl, rfl⟩ := hres
    exact ⟨[], inbound, outbound, rfl, ⟨.of_ring_eq rfl rfl rfl, by simp, by simp,
      Or.inr ⟨rfl, h.leaky.stopped⟩⟩, .unread rfl rfl⟩
  rcases hfwd : Model.forwardBetween api ctx outbound inbound data len with
    ⟨ret', ctx1, outbound', inbound'⟩
  obtain ⟨rs, hs, hconns⟩ := h.forwardBetween hfwd
  simp only [hfwd] at hres
  obtain ⟨rfl, rfl, hhandled⟩ := hs.forwardReturn hr (hr.not_mem_pool h) hres
  exact ⟨rs, inbound', outbound', rfl, hhandled, hconns⟩

theorem Inv.forwarderRunBody_other (h : Inv ctx (got + held) (idx + taken))
    (htype : (ctx.ops op).opType ≠ .udpRecv)
    (hres : forwarderRunBody api ctx inbound outbound op = (ret, rest, ctx', prog)) :
    prog = .forwarderRun inbound outbound ∧ Handled ctx ctx' held taken ret [] fun _ => True := by
  unfold Model.forwarderRunBody at hres
  rw [if_pos htype] at hres
  simp only [Prod.mk.injEq] at hres
  obtain ⟨rfl, -, rfl, rfl⟩ := hres
  exact ⟨rfl, .of_ring_eq rfl rfl rfl, by simp, by simp, Or.inr ⟨rfl, h.leaky.stopped⟩⟩

end ForwarderRun

end Dataplane.Proofs
