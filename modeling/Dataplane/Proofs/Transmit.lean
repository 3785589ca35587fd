import Dataplane.Proofs.Receive

/-!
# Handing packets on

The functions that turn a received packet into an outgoing request, encrypted,
decrypted, or as it is.  Each either queues one request, or gives everything
back that it took.
-/

namespace Dataplane.Proofs

open ProofSupport Model Ledger

variable {ctx ctx' : IouringCtx} {held : Multiset OpId} {taken : Multiset Nat}

/-! ## Submitting a held op -/

structure Carries (ctx : IouringCtx) (r : Sqe) (opcode : Opcode) (fd : Int) (data : Bytes) :
    Prop where
  opcode : r.opcode = opcode
  fd : r.fd = fd
  tag : r.tag = ctx.tag
  data : r.data = data

theorem sendCtx_load {op : OpId} {b : BufId} (hp : Pooled (ctx.ops op) b) (addr : Bytes)
    (addrLen n : Nat) : (sendCtx ctx op addr addrLen).load (some (.buf b)) n =
      ctx.load (some (.buf b)) n := by
  rw [sendCtx, modOp_load, hp.addr, load_buf_store_addr]

theorem sendCtx_name {op : OpId} {b : BufId} (hp : Pooled (ctx.ops op) b) {addr : Bytes}
    {addrLen : Nat} (hlen : addrLen ≤ addr.length) :
    (sendCtx ctx op addr addrLen).load (some (.addr b)) addrLen = addr.take addrLen := by
  have htake : (addr.take addrLen).length = addrLen := by simp [hlen]
  rw [sendCtx, modOp_load, hp.addr]
  have := load_store_addr ctx b (addr.take addrLen)
  rwa [htake] at this

theorem sendCtx_ops_of_ne {op o : OpId} (addr : Bytes) (addrLen : Nat) (ho : o ≠ op) :
    (sendCtx ctx op addr addrLen).ops o = ctx.ops o := by
  rw [sendCtx, modOp_of_ne _ _ _ ho, store_ops]

theorem sendCtx_pooled {op : OpId} {b : BufId} (hp : Pooled (ctx.ops op) b) (addr : Bytes)
    (addrLen : Nat) : Pooled ((sendCtx ctx op addr addrLen).ops op) b := by
  simp only [sendCtx, modOp_self, store_ops]
  exact ⟨hp.1, hp.2, hp.3, hp.4, hp.5⟩

theorem Inv.sendCtx {op : OpId} {b : BufId} (h : Inv ctx ({op} + held) taken)
    (hp : Pooled (ctx.ops op) b) (addr : Bytes) (addrLen : Nat) :
    Inv (sendCtx ctx op addr addrLen) ({op} + held) taken := by
  have hop : op ∈ {op} + held := Multiset.mem_add.mpr (Or.inl (Multiset.mem_singleton_self op))
  have hb : b ∈ items (ctx.ops op) := by rw [hp.items]; exact Multiset.mem_singleton_self b
  rw [Proofs.sendCtx, hp.addr]
  exact (h.store_addr hop hb _).modOp _ hop (by rw [store_ops]; rfl) (by rw [store_ops]; rfl)

theorem Inv.copyIn {op : OpId} {b : BufId} (h : Inv ctx ({op} + held) taken)
    (hp : Pooled (ctx.ops op) b) (data : Option Bytes) (len : Int) :
    Inv (ctx.copyIn op data len) ({op} + held) taken ∧ Pooled ((ctx.copyIn op data len).ops op) b ∧
      Effect ctx (ctx.copyIn op data len) [] ∧ (ctx.copyIn op data len).brBufs = ctx.brBufs ∧
      ∀ o ≠ op, (ctx.copyIn op data len).ops o = ctx.ops o := by
  have hop : op ∈ {op} + held := Multiset.mem_add.mpr (Or.inl (Multiset.mem_singleton_self op))
  have hb : b ∈ items (ctx.ops op) := by rw [hp.items]; exact Multiset.mem_singleton_self b
  have hpooled : Pooled ((ctx.copyIn op data len).ops op) b := by
    rw [copyIn_op]; exact ⟨hp.1, hp.2, hp.3, hp.4, hp.5⟩
  cases data with
  | none => exact ⟨h, hp, .of_ring_eq rfl rfl rfl, rfl, fun _ _ => rfl⟩
  | some bytes =>
      refine ⟨?_, hpooled, .of_ring_eq ?_ ?_ ?_, ?_, fun o ho => ?_⟩
      · simp only [IouringCtx.copyIn, hp.buffer]
        exact (h.store_buf hop hb _).modOp _ hop (by rw [store_ops]; rfl) (by rw [store_ops]; rfl)
      · simp [IouringCtx.copyIn]
      · simp [IouringCtx.copyIn]
      · simp [IouringCtx.copyIn]
      · simp [IouringCtx.copyIn]
      · simp only [IouringCtx.copyIn]
        rw [modOp_of_ne _ _ _ ho, store_ops]

theorem copyIn_load {op : OpId} {b : BufId} (hp : Pooled (ctx.ops op) b) (bytes : Bytes) :
    (ctx.copyIn op (some bytes) bytes.length).load (some (.buf b)) bytes.length = bytes := by
  simp only [IouringCtx.copyIn, hp.buffer, modOp_load, Int.toNat_natCast, List.take_length]
  exact load_store_buf ctx b bytes

theorem Inv.submitUdpSend {op : OpId} {b : BufId} (h : Inv ctx ({op} + held) taken)
    (hp : Pooled (ctx.ops op) b) (htype : (ctx.ops op).opType = .udpSend) {addr : Bytes}
    {addrLen : Nat} (data : Option Bytes) {len : Int}
    (hlen : ((ctx.copyIn op data len).ops op).dataLen = len) {ret : Int}
    (hres : ctx.iouringSubmitUdpSend (some op) addr addrLen data len = (ret, ctx')) :
    ∃ rs, Effect ctx ctx' rs ∧ rs.length ≤ 1 ∧
      (∀ r ∈ rs, Carries ctx r .sendmsg (ctx.ops op).fd
          ((ctx.copyIn op data len).load (some (.buf b)) len.toNat) ∧
        r.msgNamelen = addrLen ∧ (addrLen ≤ addr.length → r.name = addr.take addrLen)) ∧
      (∀ o ≠ op, ctx'.ops o = ctx.ops o) ∧ ctx'.brBufs = ctx.brBufs ∧ Pooled (ctx'.ops op) b ∧
      ((ret = 0 ∧ rs ≠ [] ∧ Inv ctx' held taken) ∨
        (ret = -1 ∧ Leaky ctx' ({op} + held) taken)) := by
  have hs := iouringSubmitUdpSend_submitted addr addrLen data len htype hlen
  rw [hres] at hs
  obtain ⟨hcopy, hpc, heffc, hbrc, hopsc⟩ := h.copyIn hp data len
  have hop := copyIn_op ctx op data len
  have htypec : ((ctx.copyIn op data len).ops op).opType = .udpSend := by rw [hop]; exact htype
  have hfdc : ((ctx.copyIn op data len).ops op).fd = (ctx.ops op).fd := by rw [hop]
  generalize ctx.copyIn op data len = mid at *
  have hmid := hcopy.sendCtx hpc addr addrLen
  have hp' := sendCtx_pooled hpc addr addrLen
  have hfd : ((Proofs.sendCtx mid op addr addrLen).ops op).fd = (ctx.ops op).fd := by
    simp [Proofs.sendCtx, IouringCtx.sendMsghdr, hfdc]
  have htype' : ((Proofs.sendCtx mid op addr addrLen).ops op).opType = .udpSend := by
    simp [Proofs.sendCtx, IouringCtx.sendMsghdr, htypec]
  have heff1 : Effect mid (Proofs.sendCtx mid op addr addrLen) [] :=
    .of_ring_eq (by simp [Proofs.sendCtx]) (by simp [Proofs.sendCtx]) (by simp [Proofs.sendCtx])
  have heff0 : Effect ctx (Proofs.sendCtx mid op addr addrLen) [] := heffc.trans heff1
  have hbr : (Proofs.sendCtx mid op addr addrLen).brBufs = ctx.brBufs := by
    simpa [Proofs.sendCtx] using hbrc
  have hentry : ∀ r ∈ [(Proofs.sendCtx mid op addr addrLen).mkSqe .sendmsg op (ctx.ops op).buffer
      len.toNat (ctx.ops op).addr addrLen],
      Carries ctx r .sendmsg (ctx.ops op).fd (mid.load (some (.buf b)) len.toNat) ∧
        r.msgNamelen = addrLen ∧ (addrLen ≤ addr.length → r.name = addr.take addrLen) := by
    intro r hr
    rw [List.mem_singleton.mp hr]
    refine ⟨⟨rfl, hfd, heff0.tag, ?_⟩, rfl, fun hle => ?_⟩
    · simp only [IouringCtx.mkSqe, Opcode.outgoing, if_true, hp.buffer]
      exact sendCtx_load hpc addr addrLen len.toNat
    · simp only [IouringCtx.mkSqe, Opcode.outgoing, if_true, hp.addr]
      exact sendCtx_name hpc hle
  have hops : ∀ o ≠ op, (Proofs.sendCtx mid op addr addrLen).ops o = ctx.ops o := fun o ho =>
    (sendCtx_ops_of_ne addr addrLen ho).trans (hopsc o ho)
  rcases h.submitted hmid hs rfl (.pooled hp' htype' rfl (by simp [IouringCtx.mkSqe])
    (by rw [hp'.buffer]; exact hp.buffer) (Or.inr (by rw [hp'.addr]; exact hp.addr))
    (by simp [IouringCtx.mkSqe])) mkSqe_intact with
    ⟨hret, hinv, hrest, heff⟩ | ⟨hret, hleak, ⟨hrest, heff⟩ | ⟨hrest, heff⟩⟩
  · rw [RingOnly] at hrest
    refine ⟨_, heff0.trans heff, by simp, hentry, fun o ho => ?_, ?_, ?_,
      Or.inl ⟨hret, by simp, hinv⟩⟩
    · rw [hrest]; exact hops o ho
    · rw [hrest]; exact hbr
    · rw [hrest]; exact hp'
  · rw [RingOnly] at hrest
    refine ⟨_, heff, by simp, by simp, fun o _ => ?_, ?_, ?_, Or.inr ⟨hret, hleak⟩⟩
    · rw [hrest]
    · rw [hrest]
    · rw [hrest]; exact hp
  · rw [RingOnly] at hrest
    refine ⟨_, heff0.trans heff, by simp, hentry, fun o ho => ?_, ?_, ?_,
      Or.inr ⟨hret, hleak⟩⟩
    · rw [hrest]; exact hops o ho
    · rw [hrest]; exact hbr
    · rw [hrest]; exact hp'

theorem Inv.submitTunWrite {op : OpId} (h : Inv ctx ({op} + held) taken)
    (hplace : (∃ b, Pooled (ctx.ops op) b) ∨ ∃ i off, Slotted (ctx.ops op) i off)
    (htype : (ctx.ops op).opType = .tunWrite) {len : Int} (hlen : (ctx.ops op).dataLen = len)
    {ret : Int} (hres : ctx.iouringSubmitTunWrite op none len = (ret, ctx')) :
    ∃ rs, Effect ctx ctx' rs ∧ rs.length ≤ 1 ∧
      (∀ r ∈ rs, Carries ctx r .write (ctx.ops op).fd
        (ctx.load (ctx.ops op).buffer len.toNat)) ∧
      RingOnly ctx ctx' ∧
      ((ret = 0 ∧ rs ≠ [] ∧ Inv ctx' held taken) ∨
        (ret = -1 ∧ Leaky ctx' ({op} + held) taken)) := by
  have hsingle : (ctx.ops op).isMulti = false := by
    rcases hplace with ⟨b, hp⟩ | ⟨i, off, hs⟩
    · exact hp.single
    · exact hs.single
  have hs := iouringSubmitTunWrite_submitted htype hsingle hlen
  rw [hres] at hs
  have hok : ReqOk (ctx.ops op)
      (ctx.mkSqe .write op (ctx.ops op).buffer len.toNat none 0) := by
    rcases hplace with ⟨b, hp⟩ | ⟨i, off, hslot⟩
    · exact .pooled hp htype rfl (by simp [IouringCtx.mkSqe]) rfl (Or.inl rfl)
        (by simp [IouringCtx.mkSqe])
    · exact ⟨htype, rfl, .slotted i off rfl hslot hslot.buffer rfl, by simp [IouringCtx.mkSqe]⟩
  have hentry : ∀ r ∈ [ctx.mkSqe .write op (ctx.ops op).buffer len.toNat none 0],
      Carries ctx r .write (ctx.ops op).fd (ctx.load (ctx.ops op).buffer len.toNat) := by
    intro r hr
    rw [List.mem_singleton.mp hr]
    exact ⟨rfl, rfl, rfl, rfl⟩
  rcases h.submitted h hs rfl hok mkSqe_intact with
    ⟨hret, hinv, hrest, heff⟩ | ⟨hret, hleak, ⟨hrest, heff⟩ | ⟨hrest, heff⟩⟩
  · exact ⟨_, heff, by simp, hentry, hrest, Or.inl ⟨hret, by simp, hinv⟩⟩
  · exact ⟨_, heff, by simp, by simp, hrest, Or.inr ⟨hret, hleak⟩⟩
  · exact ⟨_, heff, by simp, hentry, hrest, Or.inr ⟨hret, hleak⟩⟩

/-! ## Encrypting and decrypting into a new op -/

/-- The effect of a function that makes one outgoing request like `P`: ops in
use stay as they are, and the request is queued unless the function fails. -/
structure Sends (ctx ctx' : IouringCtx) (held : Multiset OpId) (taken : Multiset Nat) (ret : Int)
    (rs : List Sqe) (P : Sqe → Prop) : Prop where
  effect : Effect ctx ctx' rs
  single : rs.length ≤ 1
  entry : ∀ r ∈ rs, P r
  ops : ∀ o ∉ ctx.ioOpPool, ctx'.ops o = ctx.ops o
  done : (ret = 0 ∧ rs ≠ [] ∧ Inv ctx' held taken) ∨ (ret = -1 ∧ Leaky ctx' held taken)

structure SameConn {σ : Type} (conn conn' : Connection σ) : Prop where
  udpFd : conn'.udpFd = conn.udpFd
  role : conn'.role = conn.role
  addr : conn'.addr = conn.addr
  addrLen : conn'.addrLen = conn.addrLen
  state : conn'.state = conn.state

theorem SameConn.refl {σ : Type} (conn : Connection σ) : SameConn conn conn :=
  ⟨rfl, rfl, rfl, rfl, rfl⟩

theorem SameConn.trans {σ : Type} {conn conn' conn'' : Connection σ} (h : SameConn conn conn')
    (h' : SameConn conn' conn'') : SameConn conn conn'' :=
  ⟨h'.1.trans h.1, h'.2.trans h.2, h'.3.trans h.3, h'.4.trans h.4, h'.5.trans h.5⟩

theorem dtlsEncryptPacket_sameConn {σ : Type} (api : Ssl σ) (conn : Connection σ) (data : Bytes)
    (size : Nat) : SameConn conn (conn.dtlsEncryptPacket api data size).2.2 := by
  rw [dtlsEncryptPacket_eq api conn data size rfl]
  split <;> exact ⟨rfl, rfl, rfl, rfl, rfl⟩

theorem after_sameConn {σ : Type} (conn : Connection σ) (r : SslRet σ) :
    SameConn conn (conn.after r) := ⟨rfl, rfl, rfl, rfl, rfl⟩

theorem sslReadAgain_sameConn {σ : Type} (api : Ssl σ) (n k : Nat)
    (last : SslRet σ × Connection σ) :
    SameConn last.2 (Connection.sslReadAgain api n k last).2 := by
  induction k generalizing last with
  | zero => exact .refl _
  | succ k ih =>
      rw [Connection.sslReadAgain]
      split
      · exact (after_sameConn last.2 _).trans (ih (last.2.sslRead api n))
      · exact .refl _

theorem dtlsDecryptPacket_sameConn {σ : Type} (api : Ssl σ) (conn : Connection σ)
    (encrypted : Bytes) (len size : Int) :
    SameConn conn (conn.dtlsDecryptPacket api encrypted len size).2.2.2 := by
  rw [dtlsDecryptPacket_eq api conn encrypted len size rfl]
  have hconn : SameConn conn { conn with rbio := conn.rbio ++ encrypted.take len.toNat } :=
    ⟨rfl, rfl, rfl, rfl, rfl⟩
  have hread := (hconn.trans (after_sameConn _ _)).trans (sslReadAgain_sameConn api len.toNat 4
    (({ conn with rbio := conn.rbio ++ encrypted.take len.toNat } : Connection σ).sslRead api
      len.toNat))
  split_ifs
  · exact .refl conn
  · exact hread
  · exact hread

theorem dtlsEncryptPacket_length {σ : Type} {api : Ssl σ} {conn : Connection σ} {data : Bytes}
    {size : Nat} (h : 0 ≤ (conn.dtlsEncryptPacket api data size).1) :
    (conn.dtlsEncryptPacket api data size).1 =
      ((conn.dtlsEncryptPacket api data size).2.1.length : Int) := by
  rw [dtlsEncryptPacket_eq api conn data size rfl] at h ⊢
  split_ifs at h ⊢
  · simp at h
  · simp at h
  · rfl

structure Filled (ctx ctx' : IouringCtx) (held : Multiset OpId) (taken : Multiset Nat)
    (op : OpId) (b : BufId) (opType : OpType) (fd len : Int) (bytes : Bytes) : Prop where
  inv : Inv ctx' ({op} + held) taken
  pooled : Pooled (ctx'.ops op) b
  opType : (ctx'.ops op).opType = opType
  fd : (ctx'.ops op).fd = fd
  dataLen : (ctx'.ops op).dataLen = len
  effect : Effect ctx ctx' []
  ops : ∀ o ∉ ctx.ioOpPool, o ≠ op ∧ ctx'.ops o = ctx.ops o
  load : len = bytes.length → ctx'.load (some (.buf b)) len.toNat = bytes

theorem Inv.fill (h : Inv ctx held taken) {opType : OpType} {fd : Int} {op : OpId}
    {ctx1 : IouringCtx} (ha : ctx.ioOpAlloc opType fd false = (some op, ctx1)) (bytes : Bytes)
    (len : Int) : ∃ b, Filled ctx ((ctx1.store (ctx1.ops op).buffer bytes).modOp op
      fun o => { o with dataLen := len }) held taken op b opType fd len bytes := by
  have hinv := h.ioOpAlloc_single ha
  obtain ⟨ops, b, bufs, hpool, hbuf, hctx1⟩ := ioOpAlloc_single_eq ha
  have hop : op ∈ {op} + held := Multiset.mem_add.mpr (Or.inl (Multiset.mem_singleton_self op))
  have hops : ctx1.ops op = pooledOp opType fd b := by rw [hctx1]; simp
  have hbuffer : (ctx1.ops op).buffer = some (.buf b) := by rw [hops]; rfl
  have hitem : b ∈ items (ctx1.ops op) := by rw [hops]; simp [items, pooledOp]
  rw [hbuffer]
  refine ⟨b, (hinv.store_buf hop hitem bytes).modOp _ hop rfl rfl, ?_, ?_, ?_, ?_, ?_, ?_, ?_⟩
  · rw [modOp_self, store_ops, hops]; exact ⟨rfl, rfl, rfl, rfl, rfl⟩
  · rw [modOp_self, store_ops, hops]; rfl
  · rw [modOp_self, store_ops, hops]; rfl
  · rw [modOp_self]
  · refine .of_ring_eq ?_ ?_ ?_ <;> simp [hctx1]
  · intro o ho
    have hne : o ≠ op := by
      rintro rfl
      exact ho (by rw [hpool]; exact List.mem_cons_self)
    refine ⟨hne, ?_⟩
    rw [modOp_of_ne _ _ _ hne, store_ops, hctx1]
    simp [hne]
  · intro hlen
    rw [hlen, Int.toNat_natCast, modOp_load]
    exact load_store_buf ctx1 b bytes

section Filled

variable {ctx1 ctx2 : IouringCtx} {op : OpId} {b : BufId} {opType : OpType} {fd len : Int}
  {bytes : Bytes}

theorem Filled.giveUp (h : Filled ctx ctx1 held taken op b opType fd len bytes)
    (P : Sqe → Prop) : Sends ctx (ctx1.ioOpFree op).2 held taken (-1) [] P := by
  have hring := ioOpFree_ring ctx1 op
  have hfree := h.inv
  rw [← zero_add taken] at hfree
  refine ⟨h.effect.trans (.of_ring_eq hring.1 hring.2.1 hring.2.2), by simp, by simp,
    fun o ho => ?_, Or.inr ⟨rfl, (hfree.ioOpFree (.pooled b h.pooled)).leaky⟩⟩
  rw [ioOpFree_pooled h.pooled.single h.pooled.bufAddr h.pooled.bufIdx]
  exact (h.ops o ho).2

theorem Filled.submit (h : Filled ctx ctx1 held taken op b opType fd len bytes)
    (P : Sqe → Prop) {rs : List Sqe} {ret : Int} (heff : Effect ctx1 ctx2 rs)
    (hsingle : rs.length ≤ 1) (hentry : ∀ r ∈ rs, P r)
    (hsame : ∀ o ≠ op, ctx2.ops o = ctx1.ops o) (hp : Pooled (ctx2.ops op) b)
    (hdone : (ret = 0 ∧ rs ≠ [] ∧ Inv ctx2 held taken) ∨
      (ret = -1 ∧ Leaky ctx2 ({op} + held) taken)) :
    Sends ctx (if ret < 0 then (ctx2.ioOpFree op).2 else ctx2) held taken
      (if ret < 0 then -1 else 0) rs P := by
  have hold : ∀ o ∉ ctx.ioOpPool, ctx2.ops o = ctx.ops o := fun o ho =>
    (hsame o (h.ops o ho).1).trans (h.ops o ho).2
  rcases hdone with ⟨rfl, hne, hinv⟩ | ⟨rfl, hleak⟩
  · rw [if_neg (by decide), if_neg (by decide)]
    exact ⟨h.effect.trans heff, hsingle, hentry, hold, Or.inl ⟨rfl, hne, hinv⟩⟩
  · rw [if_pos (by decide), if_pos (by decide)]
    have hring := ioOpFree_ring ctx2 op
    rw [← zero_add taken] at hleak
    have heff' := (h.effect.trans heff).trans (.of_ring_eq hring.1 hring.2.1 hring.2.2)
    rw [List.nil_append, List.append_nil] at heff'
    refine ⟨heff', hsingle, hentry, fun o ho => ?_, Or.inr ⟨rfl, hleak.ioOpFree (.pooled b hp)⟩⟩
    rw [ioOpFree_pooled hp.single hp.bufAddr hp.bufIdx]
    exact hold o ho

end Filled

variable {σ : Type} {api : Ssl σ}

structure SendOn (ctx : IouringCtx) (conn : Connection σ) (data : Bytes) (r : Sqe) : Prop where
  carries : Carries ctx r .sendmsg conn.udpFd data
  namelen : r.msgNamelen = conn.addrLen
  name : conn.addrLen ≤ conn.addr.length → r.name = conn.addr.take conn.addrLen

theorem Inv.dtlsEncryptAndSendUdp {conn conn' : Connection σ} {data : Bytes} {ret : Int}
    (h : Inv ctx held taken)
    (hres : dtlsEncryptAndSendUdp api conn data ctx = (ret, ctx', conn')) :
    ∃ rs, Sends ctx ctx' held taken ret rs
        (SendOn ctx conn (conn.dtlsEncryptPacket api data bufSize).2.1) ∧
      (conn' = conn ∧ ret = -1 ∧ rs = [] ∨
        conn' = (conn.dtlsEncryptPacket api data bufSize).2.2 ∧
          (ret = 0 → 0 ≤ (conn.dtlsEncryptPacket api data bufSize).1)) := by
  unfold Model.dtlsEncryptAndSendUdp at hres
  rcases ha : ctx.ioOpAlloc .udpSend conn.udpFd false with ⟨_ | op, ctx1⟩
  · simp only [ha, Prod.mk.injEq] at hres
    obtain ⟨rfl, rfl, rfl⟩ := hres
    have hinv := h.ioOpAlloc_none ha
    obtain ⟨ops, rfl, hsame⟩ := ioOpAlloc_none_eq ha
    exact ⟨[], ⟨.of_ring_eq rfl rfl rfl, by simp, by simp, hsame, Or.inr ⟨rfl, hinv.leaky⟩⟩,
      Or.inl ⟨rfl, rfl, rfl⟩⟩
  have hlen := @dtlsEncryptPacket_length σ api conn data bufSize
  have hconn := dtlsEncryptPacket_sameConn api conn data bufSize
  rcases henc : conn.dtlsEncryptPacket api data bufSize with ⟨len, result, conn1⟩
  simp only [ha, henc] at hres hlen hconn ⊢
  obtain ⟨b, hf⟩ := h.fill ha result len
  generalize (ctx1.store (ctx1.ops op).buffer result).modOp op
    (fun o => { o with dataLen := len }) = ctx2 at *
  split at hres
  · simp only [Prod.mk.injEq] at hres
    obtain ⟨rfl, rfl, rfl⟩ := hres
    exact ⟨[], hf.giveUp _, Or.inr ⟨rfl, fun hzero => absurd hzero (by decide)⟩⟩
  rename_i hneg
  rw [hconn.addr, hconn.addrLen] at hres
  rcases hsub : ctx2.iouringSubmitUdpSend (some op) conn.addr conn.addrLen none len with
    ⟨ret', ctx3⟩
  obtain ⟨rs, heff, hsingle, hentry, hsame, -, hp, hdone⟩ :=
    hf.inv.submitUdpSend hf.pooled hf.opType none hf.dataLen hsub
  have hentry' : ∀ r ∈ rs, SendOn ctx conn result r := by
    intro r hr
    obtain ⟨hcar, hnamelen, hname⟩ := hentry r hr
    exact ⟨⟨hcar.opcode, hcar.fd.trans hf.fd, hcar.tag.trans hf.effect.tag,
      hcar.data.trans (hf.load (hlen (by omega)))⟩, hnamelen, hname⟩
  have hsend := hf.submit _ heff hsingle hentry' hsame hp hdone
  rw [hsub] at hres
  refine ⟨rs, ?_⟩
  split at hres <;> rename_i hret <;> simp only [Prod.mk.injEq] at hres <;>
    obtain ⟨rfl, rfl, rfl⟩ := hres
  · rw [if_pos hret, if_pos hret] at hsend
    exact ⟨hsend, Or.inr ⟨rfl, fun _ => by omega⟩⟩
  · rw [if_neg hret, if_neg hret] at hsend
    exact ⟨hsend, Or.inr ⟨rfl, fun _ => by omega⟩⟩

theorem Inv.dtlsDecryptAndWriteTun {conn conn' : Connection σ} {tunFd : Int} {encrypted : Bytes}
    {encryptedLen ret : Int} (h : Inv ctx held taken)
    (hres : dtlsDecryptAndWriteTun api conn tunFd encrypted encryptedLen ctx =
      (ret, ctx', conn')) :
    ∃ rs, Sends ctx ctx' held taken ret rs (fun r => r.opcode = .write ∧
        ((conn.dtlsDecryptPacket api encrypted encryptedLen bufSize).1 =
          ((conn.dtlsDecryptPacket api encrypted encryptedLen bufSize).2.1.length : Int) →
        Carries ctx r .write tunFd
          (conn.dtlsDecryptPacket api encrypted encryptedLen bufSize).2.1)) ∧
      (conn' = conn ∧ ret = -1 ∨
        conn' = (conn.dtlsDecryptPacket api encrypted encryptedLen bufSize).2.2.2) := by
  unfold Model.dtlsDecryptAndWriteTun at hres
  rcases ha : ctx.ioOpAlloc .tunWrite tunFd false with ⟨_ | op, ctx1⟩
  · simp only [ha, Prod.mk.injEq] at hres
    obtain ⟨rfl, rfl, rfl⟩ := hres
    have hinv := h.ioOpAlloc_none ha
    obtain ⟨ops, rfl, hsame⟩ := ioOpAlloc_none_eq ha
    exact ⟨[], ⟨.of_ring_eq rfl rfl rfl, by simp, by simp, hsame, Or.inr ⟨rfl, hinv.leaky⟩⟩,
      Or.inl ⟨rfl, rfl⟩⟩
  rcases hdec : conn.dtlsDecryptPacket api encrypted encryptedLen bufSize with
    ⟨len, decrypted, ok, conn1⟩
  simp only [ha, hdec] at hres ⊢
  obtain ⟨b, hf⟩ := h.fill ha decrypted len
  generalize (ctx1.store (ctx1.ops op).buffer decrypted).modOp op
    (fun o => { o with dataLen := len }) = ctx2 at *
  split at hres
  · simp only [Prod.mk.injEq] at hres
    obtain ⟨rfl, rfl, rfl⟩ := hres
    exact ⟨[], hf.giveUp _, Or.inr rfl⟩
  -- `tun_op->fd = tun_fd` changes nothing
  have hfd : ctx2.modOp op (fun o => { o with fd := tunFd }) = ctx2 := by
    have hsame : ({ ctx2.ops op with fd := tunFd } : IoOp) = ctx2.ops op := by
      rw [← hf.fd]
    simp [IouringCtx.modOp, hsame]
  rw [hfd] at hres
  rcases hsub : ctx2.iouringSubmitTunWrite op none len with ⟨ret', ctx3⟩
  obtain ⟨rs, heff, hsingle, hentry, hrest, hdone⟩ :=
    hf.inv.submitTunWrite (Or.inl ⟨b, hf.pooled⟩) hf.opType hf.dataLen hsub
  rw [RingOnly] at hrest
  have hentry' : ∀ r ∈ rs, r.opcode = .write ∧ (len = (decrypted.length : Int) →
      Carries ctx r .write tunFd decrypted) := by
    intro r hr
    have hcar := hentry r hr
    refine ⟨hcar.opcode, fun hlen => ?_⟩
    refine ⟨hcar.opcode, hcar.fd.trans hf.fd, hcar.tag.trans hf.effect.tag, hcar.data.trans ?_⟩
    rw [hf.pooled.buffer]
    exact hf.load hlen
  have hsend := hf.submit _ heff hsingle hentry' (by rw [hrest]; simp)
    (by rw [hrest]; exact hf.pooled) hdone
  rw [hsub] at hres
  refine ⟨rs, ?_⟩
  split at hres <;> rename_i hret <;> simp only [Prod.mk.injEq] at hres <;>
    obtain ⟨rfl, rfl, rfl⟩ := hres
  · rw [if_pos hret, if_pos hret] at hsend
    exact ⟨hsend, Or.inr rfl⟩
  · rw [if_neg hret, if_neg hret] at hsend
    exact ⟨hsend, Or.inr rfl⟩

/-! ## Handing a buffer over -/

/-- The effect of a function that hands the buffer of `op` to an outgoing
request like `P`; what is left for `io_op_free` is `ops` and `idx`. -/
structure Relays (ctx ctx' : IouringCtx) (held : Multiset OpId) (taken : Multiset Nat) (op : OpId)
    (ret : Int) (rs : List Sqe) (P : Sqe → Prop) (ops : Multiset OpId) (idx : Multiset Nat) :
    Prop where
  effect : Effect ctx ctx' rs
  single : rs.length ≤ 1
  entry : ∀ r ∈ rs, P r
  free : Freeable (ctx'.ops op) op ops idx
  done : (ret = 0 ∧ rs ≠ [] ∧ Inv ctx' (ops + held) (idx + taken)) ∨
    (ret = -1 ∧ Leaky ctx' (ops + held) (idx + taken))

theorem Inv.inherit_item {opType : OpType} {fd : Int} {op owner : OpId} {b : BufId}
    {ctx1 : IouringCtx} (h : Inv ctx ({owner} + held) taken) (hp : Pooled (ctx.ops owner) b)
    (ha : ctx.ioOpAllocBuf opType fd false (some owner) = (some op, ctx1)) :
    Inv ctx1 ({op} + ({owner} + held)) taken ∧ Effect ctx ctx1 [] ∧ owner ≠ op ∧
      ctx1.ops op = itemHeir opType fd (ctx.ops owner) ∧
      ctx1.ops owner = { ctx.ops owner with bufAddr := none } ∧
      ctx1.bufs = ctx.bufs ∧ ctx1.brBufs = ctx.brBufs := by
  have howner : owner ∈ {owner} + held :=
    Multiset.mem_add.mpr (Or.inl (Multiset.mem_singleton_self owner))
  have hout := h.not_mem_pool (Multiset.mem_add.mpr (Or.inl howner))
  have hinv := h.ioOpAllocBuf_single howner hp ha
  obtain ⟨ops, hpool, rfl⟩ := ioOpAllocBuf_single_eq hp.single hout ha
  have hne : owner ≠ op := by
    rintro rfl
    exact hout (by rw [hpool]; exact List.mem_cons_self)
  refine ⟨hinv, .of_ring_eq rfl rfl rfl, hne, ?_, ?_, rfl, rfl⟩
  · rw [modOp_of_ne _ _ _ hne.symm]; simp [takeOp]
  · rw [modOp_self]; simp [takeOp, hne]

theorem Inv.inherit_slot {opType : OpType} {fd : Int} {op owner : OpId} {i : Nat}
    {ctx1 : IouringCtx} (h : Inv ctx held ({i} + taken)) (hm : Multi (ctx.ops owner))
    (hidx : (ctx.ops owner).bufIdx = i) (hout : owner ∉ ctx.ioOpPool)
    (ha : ctx.ioOpAllocBuf opType fd false (some owner) = (some op, ctx1)) :
    Inv ctx1 ({op} + held) taken ∧ Effect ctx ctx1 [] ∧ owner ≠ op ∧
      ctx1.ops op = slotHeir opType fd (ctx.ops owner) ∧
      ctx1.ops owner = { ctx.ops owner with bufIdx := doNotFree } ∧
      ctx1.bufs = ctx.bufs ∧ ctx1.brBufs = ctx.brBufs := by
  have hinv := h.ioOpAllocBuf_multi hout hm hidx ha
  obtain ⟨ops, hpool, rfl⟩ := ioOpAllocBuf_multi_eq hm.multi hout ha
  have hne : owner ≠ op := by
    rintro rfl
    exact hout (by rw [hpool]; exact List.mem_cons_self)
  refine ⟨hinv, .of_ring_eq rfl rfl rfl, hne, ?_, ?_, rfl, rfl⟩
  · rw [modOp_of_ne _ _ _ hne.symm]; simp [takeOp]
  · rw [modOp_self]; simp [takeOp, hne]

theorem Inv.tunToUdp {conn : Connection σ} {op : OpId} {b : BufId} {ret : Int}
    (h : Inv ctx ({op} + held) taken) (hp : Pooled (ctx.ops op) b)
    (hres : tunToUdp conn op ctx = (ret, ctx')) :
    ∃ rs, Relays ctx ctx' held taken op ret rs
      (SendOn ctx conn (ctx.load (some (.buf b)) (ctx.ops op).dataLen.toNat)) {op} 0 := by
  unfold Model.tunToUdp at hres
  rcases ha : ctx.ioOpAllocBuf .udpSend conn.udpFd false (some op) with ⟨_ | new, ctx1⟩
  · simp only [ha, Prod.mk.injEq] at hres
    obtain ⟨rfl, rfl⟩ := hres
    rw [ioOpAllocBuf_none_eq ha]
    exact ⟨[], .of_ring_eq rfl rfl rfl, by simp, by simp, .pooled b hp,
      Or.inr ⟨rfl, by rw [zero_add]; exact h.leaky⟩⟩
  obtain ⟨hinv, heff0, hne, hnew, hown, hbufs, hbrBufs⟩ := h.inherit_item hp ha
  have hp1 : Pooled (ctx1.ops new) b := by
    rw [hnew]
    exact ⟨rfl, hp.bufAddr, rfl, by simp [itemHeir, hp.bufAddr], by simp [itemHeir, hp.bufAddr]⟩
  simp only [ha] at hres
  rcases hsub : ctx1.iouringSubmitUdpSend (some new) conn.addr conn.addrLen none
    (ctx1.ops new).dataLen with ⟨ret', ctx2⟩
  obtain ⟨rs, heff, hsingle, hentry, hsame, -, hp2, hdone⟩ :=
    hinv.submitUdpSend hp1 (by rw [hnew]; rfl) none rfl hsub
  have hentry' : ∀ r ∈ rs,
      SendOn ctx conn (ctx.load (some (.buf b)) (ctx.ops op).dataLen.toNat) r := by
    intro r hr
    obtain ⟨hcar, hnamelen, hname⟩ := hentry r hr
    refine ⟨⟨hcar.opcode, ?_, hcar.tag.trans heff0.tag, ?_⟩, hnamelen, hname⟩
    · rw [hcar.fd, hnew]; rfl
    · rw [hcar.data, hnew]
      simp [IouringCtx.copyIn, IouringCtx.load, hbufs, itemHeir]
  have hfree2 : Freeable (ctx2.ops op) op {op} 0 := by
    rw [hsame op hne, hown]
    exact .bare hp.single rfl (by rw [hp.bufIdx]; decide)
  rw [hsub] at hres
  rcases hdone with ⟨rfl, hnil, hinv2⟩ | ⟨rfl, hleak⟩
  · rw [if_neg (by simp)] at hres
    obtain ⟨rfl, rfl⟩ := Prod.mk.inj hres
    exact ⟨rs, heff0.trans heff, hsingle, hentry', hfree2,
      Or.inl ⟨rfl, hnil, by rwa [zero_add]⟩⟩
  · rw [if_pos (by simp)] at hres
    obtain ⟨rfl, rfl⟩ := Prod.mk.inj hres
    have hring := ioOpFree_ring ctx2 new
    have heff' := (heff0.trans heff).trans (.of_ring_eq hring.1 hring.2.1 hring.2.2)
    rw [List.nil_append, List.append_nil] at heff'
    rw [← zero_add taken] at hleak
    refine ⟨rs, heff', hsingle, hentry', ?_, Or.inr ⟨rfl, ?_⟩⟩
    · rw [ioOpFree_pooled hp2.single hp2.bufAddr hp2.bufIdx]
      exact hfree2
    · rw [zero_add]
      exact hleak.ioOpFree (.pooled b hp2)

theorem Inv.udpToTun_submit {op new : OpId} {ctx1 : IouringCtx} {ret : Int} {data : Bytes}
    {ops : Multiset OpId} {idx : Multiset Nat} (h : Inv ctx1 ({new} + (ops + held)) (idx + taken))
    (tunFd : Int) (heff0 : Effect ctx ctx1 []) (hne : op ≠ new)
    (hplace : (∃ b, Pooled (ctx1.ops new) b) ∨ ∃ i off, Slotted (ctx1.ops new) i off)
    (htype : (ctx1.ops new).opType = .tunWrite) (hfd : (ctx1.ops new).fd = tunFd)
    (hlen : (ctx1.ops new).dataLen = (ctx1.ops op).dataLen)
    (hdata : ctx1.load (ctx1.ops new).buffer (ctx1.ops new).dataLen.toNat = data)
    (hfree : Freeable (ctx1.ops op) op ops idx)
    (hres : (match ctx1.iouringSubmitTunWrite new none (ctx1.ops op).dataLen with
      | (ret, ctx) => if ret < 0 then (-1, (ctx.ioOpFree new).2) else (0, ctx)) = (ret, ctx')) :
    ∃ rs, Relays ctx ctx' held taken op ret rs (fun r => Carries ctx r .write tunFd data)
      ops idx := by
  rcases hsub : ctx1.iouringSubmitTunWrite new none (ctx1.ops op).dataLen with ⟨ret', ctx2⟩
  obtain ⟨rs, heff, hsingle, hentry, hrest, hdone⟩ := h.submitTunWrite hplace htype hlen hsub
  have hentry' : ∀ r ∈ rs, Carries ctx r .write tunFd data := by
    intro r hr
    have hcar := hentry r hr
    exact ⟨hcar.opcode, hcar.fd.trans hfd, hcar.tag.trans heff0.tag,
      hcar.data.trans (by rw [← hlen]; exact hdata)⟩
  rw [RingOnly] at hrest
  have hops : ctx2.ops = ctx1.ops := by rw [hrest]
  rw [hsub] at hres
  dsimp only at hres
  rcases hdone with ⟨rfl, hnil, hinv2⟩ | ⟨rfl, hleak⟩
  · rw [if_neg (by simp)] at hres
    obtain ⟨rfl, rfl⟩ := Prod.mk.inj hres
    exact ⟨rs, heff0.trans heff, hsingle, hentry', hops ▸ hfree, Or.inl ⟨rfl, hnil, hinv2⟩⟩
  · rw [if_pos (by simp)] at hres
    obtain ⟨rfl, rfl⟩ := Prod.mk.inj hres
    have hring := ioOpFree_ring ctx2 new
    have heff' := (heff0.trans heff).trans (.of_ring_eq hring.1 hring.2.1 hring.2.2)
    rw [List.nil_append, List.append_nil] at heff'
    have hnewFree : Freeable (ctx2.ops new) new {new} 0 := by
      rw [hops]
      rcases hplace with ⟨b, hp⟩ | ⟨i, off, hs⟩
      · exact .pooled b hp
      · exact .slotted i off hs
    rw [← zero_add (idx + taken)] at hleak
    refine ⟨rs, heff', hsingle, hentry', ?_, Or.inr ⟨rfl, hleak.ioOpFree hnewFree⟩⟩
    have hkeep : (ctx2.ioOpFree new).2.ops op = ctx2.ops op := by
      rcases hplace with ⟨b, hp⟩ | ⟨i, off, hs⟩
      · rw [← hops] at hp
        rw [ioOpFree_pooled hp.single hp.bufAddr hp.bufIdx]
      · rw [← hops] at hs
        rw [ioOpFree_slotted hs.single hs.bufAddr hs.bufIdx]
        exact Function.update_of_ne hne _ _
    rw [hkeep, hops]
    exact hfree

theorem Inv.udpToTun_single {op : OpId} {b : BufId} {tunFd ret : Int}
    (h : Inv ctx ({op} + held) taken) (hp : Pooled (ctx.ops op) b)
    (hres : udpToTun tunFd op ctx = (ret, ctx')) :
    ∃ rs ops idx, Relays ctx ctx' held taken op ret rs (fun r => Carries ctx r .write tunFd
      (ctx.load (some (.buf b)) (ctx.ops op).dataLen.toNat)) ops idx := by
  unfold Model.udpToTun at hres
  rcases ha : ctx.ioOpAllocBuf .tunWrite tunFd false (some op) with ⟨_ | new, ctx1⟩
  · simp only [ha, Prod.mk.injEq] at hres
    obtain ⟨rfl, rfl⟩ := hres
    rw [ioOpAllocBuf_none_eq ha]
    exact ⟨[], {op}, 0, .of_ring_eq rfl rfl rfl, by simp, by simp, .pooled b hp,
      Or.inr ⟨rfl, by rw [zero_add]; exact h.leaky⟩⟩
  obtain ⟨hinv, heff0, hne, hnew, hown, hbufs, hbrBufs⟩ := h.inherit_item hp ha
  have hheir : Pooled (ctx1.ops new) b := by
    rw [hnew]
    exact ⟨rfl, hp.bufAddr, rfl, by simp [itemHeir, hp.bufAddr], by simp [itemHeir, hp.bufAddr]⟩
  simp only [ha] at hres
  rw [← zero_add taken] at hinv
  obtain ⟨rs, hrel⟩ := hinv.udpToTun_submit tunFd heff0 hne (Or.inl ⟨b, hheir⟩)
    (by rw [hnew]; rfl) (by rw [hnew]; rfl) (by rw [hnew, hown]; rfl) rfl
    (by rw [hown]; exact .bare hp.single rfl (by rw [hp.bufIdx]; decide)) hres
  refine ⟨rs, {op}, 0, hrel.effect, hrel.single, fun r hr => ?_, hrel.free, hrel.done⟩
  have hcar := hrel.entry r hr
  refine ⟨hcar.opcode, hcar.fd, hcar.tag, hcar.data.trans ?_⟩
  rw [hnew]
  simp [itemHeir, hp.bufAddr, IouringCtx.load, hbufs]

theorem Inv.udpToTun_multi {op : OpId} {i off : Nat} {tunFd ret : Int}
    (h : Inv ctx held ({i} + taken)) (hm : Multi (ctx.ops op)) (hidx : (ctx.ops op).bufIdx = i)
    (hbuf : (ctx.ops op).buffer = some (.slot i off)) (hout : op ∉ ctx.ioOpPool)
    (hres : udpToTun tunFd op ctx = (ret, ctx')) :
    ∃ rs ops idx, Relays ctx ctx' held taken op ret rs (fun r => Carries ctx r .write tunFd
      (ctx.load (some (.slot i off)) (ctx.ops op).dataLen.toNat)) ops idx := by
  unfold Model.udpToTun at hres
  rcases ha : ctx.ioOpAllocBuf .tunWrite tunFd false (some op) with ⟨_ | new, ctx1⟩
  · simp only [ha, Prod.mk.injEq] at hres
    obtain ⟨rfl, rfl⟩ := hres
    rw [ioOpAllocBuf_none_eq ha]
    exact ⟨[], 0, {i}, .of_ring_eq rfl rfl rfl, by simp, by simp, .multi i hm hidx,
      Or.inr ⟨rfl, by rw [zero_add]; exact h.leaky⟩⟩
  obtain ⟨hinv, heff0, hne, hnew, hown, hbufs, hbrBufs⟩ := h.inherit_slot hm hidx hout ha
  have hheir : Slotted (ctx1.ops new) i off := by rw [hnew]; exact ⟨rfl, rfl, hidx, hbuf⟩
  simp only [ha] at hres
  rw [← zero_add taken, ← zero_add held] at hinv
  obtain ⟨rs, hrel⟩ := hinv.udpToTun_submit tunFd heff0 hne (Or.inr ⟨i, off, hheir⟩)
    (by rw [hnew]; rfl) (by rw [hnew]; rfl) (by rw [hnew, hown]; rfl) rfl
    (by rw [hown]; exact .doNotFree hm.multi rfl) hres
  refine ⟨rs, 0, 0, hrel.effect, hrel.single, fun r hr => ?_, hrel.free, hrel.done⟩
  have hcar := hrel.entry r hr
  refine ⟨hcar.opcode, hcar.fd, hcar.tag, hcar.data.trans ?_⟩
  rw [hnew]
  simp [slotHeir, hbuf, IouringCtx.load, hbrBufs]

end Dataplane.Proofs
