import Dataplane.Proofs.Completion

/-!
# `wait_for_recv`

One pass through the loop of `wait_for_recv` frees the op of an outgoing
request, or arms the next receive and hands out the op of a completed one.
-/

namespace Dataplane.Proofs

open ProofSupport Model Ledger

variable {ctx ctx' mid : IouringCtx} {held : Multiset OpId} {taken : Multiset Nat}

/-! ## Submitting the request of a held op -/

/-- What a submission does to the ownership of the op: the ring gets it, or the
program keeps it. -/
theorem Inv.submitted {op : OpId} (h : Inv ctx ({op} + held) taken)
    (hmid : Inv mid ({op} + held) taken) {r : Sqe} {ret : Int}
    (hs : Submitted ctx mid r (ret, ctx')) (huser : r.userData = op)
    (hok : ReqOk (mid.ops op) r) (hintact : Intact mid r) :
    (ret = 0 ∧ Inv ctx' held taken ∧ RingOnly mid ctx' ∧ Effect mid ctx' [r]) ∨
      (ret = -1 ∧ Leaky ctx' ({op} + held) taken ∧
        (RingOnly ctx ctx' ∧ Effect ctx ctx' [] ∨ RingOnly mid ctx' ∧ Effect mid ctx' [r])) := by
  cases hs with
  | refused f =>
      exact Or.inr
        ⟨rfl, (h.sqeFree f).leaky, Or.inl ⟨rfl, ⟨by simp [IoUring.inflight], by simp, by simp, rfl,
        rfl, rfl, rfl, rfl⟩⟩⟩
  | queued hrest heff => exact Or.inl ⟨rfl, hmid.enqueue hrest heff huser hok hintact, hrest, heff⟩
  | failed hrest heff hactive =>
      exact Or.inr ⟨rfl, hmid.failed hrest heff hactive, Or.inr ⟨hrest, heff⟩⟩

theorem mkSqe_intact {ctx : IouringCtx} {opcode : Opcode} {op : OpId} {buffer : Option Ptr}
    {len : Nat} {msgName : Option Ptr} {msgNamelen : Nat} :
    Intact ctx (ctx.mkSqe opcode op buffer len msgName msgNamelen) := by
  intro hout
  have hout' : opcode.outgoing = true := hout
  simp [IouringCtx.mkSqe, hout']

structure Kept (ctx ctx' : IouringCtx) (op : OpId) : Prop where
  ops : ctx'.ops op = ctx.ops op
  bufs : ctx'.bufs = ctx.bufs
  brBufs : ctx'.brBufs = ctx.brBufs

theorem Kept.load {op : OpId} (h : Kept ctx ctx' op) (p : Option Ptr) (n : Nat) :
    ctx'.load p n = ctx.load p n := by
  rcases p with _ | _ | _ | _ <;> simp [IouringCtx.load, h.bufs, h.brBufs]

theorem Kept.of_ringOnly (h : RingOnly ctx ctx') (op : OpId) : Kept ctx ctx' op := by
  rw [RingOnly] at h
  rw [h]
  exact ⟨rfl, rfl, rfl⟩

theorem Kept.trans {ctx'' : IouringCtx} {op : OpId} (h : Kept ctx ctx' op)
    (h' : Kept ctx' ctx'' op) : Kept ctx ctx'' op :=
  ⟨h'.ops.trans h.ops, h'.bufs.trans h.bufs, h'.brBufs.trans h.brBufs⟩

theorem ReqOk.pooled {o : IoOp} {r : Sqe} {b : BufId} (hp : Pooled o b)
    (htype : o.opType = r.opcode.opType) (hfd : o.fd = r.fd)
    (hmulti : r.opcode ≠ .recvmsgMultishot) (hbuffer : r.buffer = o.buffer)
    (hname : r.msgName = none ∨ r.msgName = o.addr)
    (haddr : r.opcode = .recvmsg → 0 < o.addrLen) : ReqOk o r :=
  ⟨htype, hfd, .pooled b hmulti hp (hbuffer.trans hp.buffer)
    (hname.imp_right fun hname => hname.trans hp.addr), haddr⟩

structure Incoming (opType : OpType) (fd : Int) (r : Sqe) : Prop where
  outgoing : r.opcode.outgoing = false
  opType : r.opcode.opType = opType
  fd : r.fd = fd

theorem mkSqe_incoming {opcode : Opcode} {op : OpId} {buffer msgName : Option Ptr}
    {len msgNamelen : Nat} {opType : OpType} {fd : Int} (hout : opcode.outgoing = false)
    (htype : opcode.opType = opType) (hfd : (ctx.ops op).fd = fd) :
    ∀ r ∈ [ctx.mkSqe opcode op buffer len msgName msgNamelen], Incoming opType fd r := by
  intro r hr
  rw [List.mem_singleton.mp hr]
  exact ⟨hout, htype, hfd⟩

/-! ## `iouring_resubmit_recv` -/

theorem Inv.submitRecv {op : OpId} {b : BufId} {opType : OpType} {fd : Int}
    (h : Inv ctx ({op} + held) taken) (hop : ctx.ops op = pooledOp opType fd b) {ret : Int}
    (hres : opType = .tunRead ∧ ctx.iouringSubmitTunRead op = (ret, ctx') ∨
      opType = .udpRecv ∧ ctx.iouringSubmitUdpRecv op = (ret, ctx')) :
    ∃ rs, Effect ctx ctx' rs ∧ (∀ r ∈ rs, Incoming opType fd r) ∧
      (∀ o ≠ op, Kept ctx ctx' o) ∧
      ((ret = 0 ∧ Inv ctx' held taken) ∨ (ret = -1 ∧ Leaky ctx' ({op} + held) taken)) := by
  have hheld : op ∈ {op} + held := Multiset.mem_add.mpr (Or.inl (Multiset.mem_singleton_self op))
  have hp : Pooled (ctx.ops op) b := by rw [hop]; exact ⟨rfl, rfl, rfl, rfl, rfl⟩
  have hfd : (ctx.ops op).fd = fd := by rw [hop]; rfl
  rcases hres with ⟨rfl, hres⟩ | ⟨rfl, hres⟩
  · have hs := iouringSubmitTunRead_submitted (show (ctx.ops op).opType = .tunRead by rw [hop]; rfl)
    rw [hres] at hs
    rcases h.submitted h hs rfl (.pooled hp (by rw [hop]; rfl) rfl (by simp [IouringCtx.mkSqe]) rfl
      (Or.inl rfl) (by simp [IouringCtx.mkSqe])) mkSqe_intact with
      ⟨hret, hinv, hrest, heff⟩ | ⟨hret, hleak, ⟨hrest, heff⟩ | ⟨hrest, heff⟩⟩
    · exact ⟨_, heff, mkSqe_incoming rfl rfl hfd,
        fun o _ => .of_ringOnly hrest o, Or.inl ⟨hret, hinv⟩⟩
    · exact ⟨_, heff, by simp, fun o _ => .of_ringOnly hrest o, Or.inr ⟨hret, hleak⟩⟩
    · exact ⟨_, heff, mkSqe_incoming rfl rfl hfd,
        fun o _ => .of_ringOnly hrest o, Or.inr ⟨hret, hleak⟩⟩
  · have hs := iouringSubmitUdpRecv_submitted (show (ctx.ops op).opType = .udpRecv by rw [hop]; rfl)
      (by rw [hop]; rfl)
    rw [hres] at hs
    have hmid : Inv (ctx.modOp op IouringCtx.recvMsghdr) ({op} + held) taken :=
      h.modOp _ hheld rfl rfl
    have hp' : Pooled ((ctx.modOp op IouringCtx.recvMsghdr).ops op) b := by
      rw [modOp_self]; exact ⟨hp.1, hp.2, hp.3, hp.4, hp.5⟩
    have hfd' : ((ctx.modOp op IouringCtx.recvMsghdr).ops op).fd = fd := by
      rw [modOp_self]; exact hfd
    have hkept : ∀ o ≠ op, Kept ctx (ctx.modOp op IouringCtx.recvMsghdr) o :=
      fun o ho => ⟨modOp_of_ne ctx op _ ho, rfl, rfl⟩
    have heff0 : Effect ctx (ctx.modOp op IouringCtx.recvMsghdr) [] := .of_ring_eq rfl rfl rfl
    rcases h.submitted hmid hs rfl (.pooled hp' (by rw [modOp_self, hop]; rfl)
      rfl (by simp [IouringCtx.mkSqe]) (by rw [modOp_self]; rfl) (Or.inr (by rw [modOp_self]; rfl))
      (fun _ => by rw [modOp_self]; exact Nat.succ_pos 127)) mkSqe_intact with
      ⟨hret, hinv, hrest, heff⟩ | ⟨hret, hleak, ⟨hrest, heff⟩ | ⟨hrest, heff⟩⟩
    · exact ⟨_, heff0.trans heff, mkSqe_incoming rfl rfl hfd',
        fun o ho => (hkept o ho).trans (.of_ringOnly hrest o), Or.inl ⟨hret, hinv⟩⟩
    · exact ⟨_, heff, by simp, fun o _ => .of_ringOnly hrest o, Or.inr ⟨hret, hleak⟩⟩
    · exact ⟨_, heff0.trans heff, mkSqe_incoming rfl rfl hfd',
        fun o ho => (hkept o ho).trans (.of_ringOnly hrest o), Or.inr ⟨hret, hleak⟩⟩

theorem Inv.iouringResubmitRecv {op : OpId} (h : Inv ctx held taken) (hop : op ∈ held)
    (htype : (ctx.ops op).opType = .tunRead ∨ (ctx.ops op).opType = .udpRecv) {ret : Int}
    (hres : ctx.iouringResubmitRecv op = (ret, ctx')) :
    ∃ rs, Effect ctx ctx' rs ∧ (∀ r ∈ rs, Incoming (ctx.ops op).opType (ctx.ops op).fd r) ∧
      Kept ctx ctx' op ∧
      ((ret = 0 ∧ Inv ctx' held taken) ∨ (ret = -1 ∧ Leaky ctx' held taken)) := by
  unfold IouringCtx.iouringResubmitRecv at hres
  have hout : op ∉ ctx.ioOpPool := h.not_mem_pool (Multiset.mem_add.mpr (Or.inl hop))
  rcases ha : ctx.ioOpAlloc (ctx.ops op).opType (ctx.ops op).fd false with ⟨_ | new, ctx1⟩
  · simp only [ha, Prod.mk.injEq] at hres
    obtain ⟨rfl, rfl⟩ := hres
    have hinv := h.ioOpAlloc_none ha
    obtain ⟨ops, rfl, hsame⟩ := ioOpAlloc_none_eq ha
    exact ⟨[], .of_ring_eq rfl rfl rfl, by simp, ⟨hsame op hout, rfl, rfl⟩,
      Or.inr ⟨rfl, hinv.leaky⟩⟩
  · simp only [ha] at hres
    have hinv := h.ioOpAlloc_single ha
    obtain ⟨ops, b, bufs, hpool, hbuf, hctx1⟩ := ioOpAlloc_single_eq ha
    have hne : op ≠ new := by
      rintro rfl
      exact hout (by rw [hpool]; exact List.mem_cons_self)
    have heff0 : Effect ctx ctx1 [] := by rw [hctx1]; exact .of_ring_eq rfl rfl rfl
    have hkept0 : Kept ctx ctx1 op := by rw [hctx1]; exact ⟨by simp [hne], rfl, rfl⟩
    have hnew : ctx1.ops new = pooledOp (ctx.ops op).opType (ctx.ops op).fd b := by
      rw [hctx1]; simp
    have hcases : (ctx.ops op).opType = .tunRead ∧ ctx1.iouringSubmitTunRead new = (ret, ctx') ∨
        (ctx.ops op).opType = .udpRecv ∧ ctx1.iouringSubmitUdpRecv new = (ret, ctx') := by
      rcases htype with htype | htype
      · exact Or.inl ⟨htype, by rw [htype] at hres; exact hres⟩
      · exact Or.inr ⟨htype, by rw [htype] at hres; exact hres⟩
    obtain ⟨rs, heff, hin, hkept, hdone⟩ := hinv.submitRecv hnew hcases
    refine ⟨rs, heff0.trans heff, hin, hkept0.trans (hkept op hne), ?_⟩
    rcases hdone with ⟨hret, hdone⟩ | ⟨hret, lost, hdone⟩
    · exact Or.inl ⟨hret, hdone⟩
    · refine Or.inr ⟨hret, {new} + lost, ?_⟩
      rwa [← add_assoc, add_comm held {new}]

/-! ## `iouring_multishot_recvmsg_out` -/

def slotHeader : Nat := sizeofRecvmsgOut + sizeofSockaddrStorage

theorem Multi.header {o : IoOp} (h : Multi o) : recvmsgHeader o.msg = slotHeader := by
  simp [recvmsgHeader, h.msgNamelen, h.msgControllen, slotHeader, Nat.add_comm]

structure Presents (ctx : IouringCtx) (op : OpId) (bid : Nat) (res : Int) : Prop where
  multi : Multi (ctx.ops op)
  bufIdx : (ctx.ops op).bufIdx = bid
  buffer : (ctx.ops op).buffer = some (.slot bid slotHeader)
  dataLen : (ctx.ops op).dataLen = res - slotHeader
  pos : 0 < (ctx.ops op).dataLen
  addr : (ctx.ops op).addr = some (.slot bid sizeofRecvmsgOut)
  addrLen : (ctx.ops op).addrLen = Bytes.readLe32 (ctx.brBufs bid)
  addrPos : 0 < (ctx.ops op).addrLen

/-- How far the decoding of a completion has come: the op names the slot, and
its receive, the memory and the ring are as they were. -/
structure Decoding (ctx ctx' : IouringCtx) (op : OpId) (bid : Nat) : Prop where
  multi : Multi (ctx'.ops op)
  bufIdx : (ctx'.ops op).bufIdx = bid
  opType : (ctx'.ops op).opType = (ctx.ops op).opType
  fd : (ctx'.ops op).fd = (ctx.ops op).fd
  pool : ctx'.ioOpPool = ctx.ioOpPool
  bufs : ctx'.bufs = ctx.bufs
  brBufs : ctx'.brBufs = ctx.brBufs

theorem Decoding.ringOnly {op : OpId} {bid : Nat} {ctx'' : IouringCtx}
    (h : Decoding ctx ctx' op bid) (hrest : RingOnly ctx' ctx'') : Decoding ctx ctx'' op bid := by
  rw [RingOnly] at hrest
  rw [hrest]
  exact ⟨h.1, h.2, h.3, h.4, h.5, h.6, h.7⟩

theorem Inv.locate {op : OpId} {bid : Nat} {g : IoOp → IoOp} (h : Inv ctx held taken)
    (hm : Multi (ctx.ops op)) (hg : ∀ o, Locates bid o (g o)) :
    Decoding ctx (ctx.modOp op g) op bid ∧ Inv (ctx.modOp op g) held taken := by
  obtain ⟨hidx, htype, hfd, hmulti, haddr, hmsg, -⟩ := hg (ctx.ops op)
  have hm' : Multi (g (ctx.ops op)) :=
    ⟨hmulti.trans hm.1, haddr.trans hm.2, by rw [hmsg]; exact hm.3, by rw [hmsg]; exact hm.4,
      by rw [hmsg]; exact hm.5⟩
  refine ⟨⟨?_, ?_, ?_, ?_, rfl, rfl, rfl⟩, h.modOp_multi g hm hm' htype hfd⟩
  · rw [modOp_self]; exact hm'
  · rw [modOp_self]; exact hidx
  · rw [modOp_self]; exact htype
  · rw [modOp_self]; exact hfd

theorem Multi.presents {op : OpId} {flags : CqeFlags} (hm : Multi (ctx.ops op))
    (hread : Readable ctx op flags) :
    Presents (ctx.modOp op (present ctx op flags.bid)) op flags.bid (ctx.ops op).dataLen := by
  obtain ⟨hlong, hname⟩ := hread
  rw [hm.header] at hlong
  constructor
  all_goals rw [modOp_self]
  · exact ⟨hm.1, hm.2, hm.3, hm.4, hm.5⟩
  · rfl
  · rw [present, hm.header]
  · rw [present, hm.header]
  · rw [present, hm.header]
    dsimp only
    omega
  · rfl
  · rfl
  · exact Nat.pos_of_ne_zero hname

/-- The multishot receive is armed again when this was its last completion. -/
theorem Inv.rearm {op : OpId} (h : Inv ctx ({op} + held) taken) (hm : Multi (ctx.ops op))
    (htype : (ctx.ops op).opType = .udpRecv) {ret : Int}
    (hres : ctx.iouringSubmitMultishotRecvmsgOp op = (ret, ctx')) :
    ∃ rs, Effect ctx ctx' rs ∧ (∀ r ∈ rs, Incoming .udpRecv (ctx.ops op).fd r) ∧ RingOnly ctx ctx' ∧
      ((ret = 0 ∧ Inv ctx' held taken) ∨ (ret = -1 ∧ Leaky ctx' ({op} + held) taken)) := by
  have hs := iouringSubmitMultishotRecvmsgOp_submitted hm.multi
  rw [hres] at hs
  rcases h.submitted h hs rfl ⟨htype, rfl, .multi rfl hm, by simp [IouringCtx.mkSqe]⟩
    mkSqe_intact with ⟨hret, hinv, hrest, heff⟩ | ⟨hret, hleak, ⟨hrest, heff⟩ | ⟨hrest, heff⟩⟩
  · exact ⟨_, heff, mkSqe_incoming rfl rfl rfl, hrest, Or.inl ⟨hret, hinv⟩⟩
  · exact ⟨_, heff, by simp, hrest, Or.inr ⟨hret, hleak⟩⟩
  · exact ⟨_, heff, mkSqe_incoming rfl rfl rfl, hrest, Or.inr ⟨hret, hleak⟩⟩

theorem Inv.iouringMultishotRecvmsgOut {op : OpId} {flags : CqeFlags}
    (h : Inv ctx ((if flags.more then 0 else {op}) + held) taken) (hm : Multi (ctx.ops op))
    (htype : (ctx.ops op).opType = .udpRecv) (hbuf : flags.buffer = true) {ret : Int}
    (hres : ctx.iouringMultishotRecvmsgOut op flags = (ret, ctx')) :
    ∃ rs, Effect ctx ctx' rs ∧ (∀ r ∈ rs, Incoming .udpRecv (ctx.ops op).fd r) ∧
      Decoding ctx ctx' op flags.bid ∧
      ((ret = 0 ∧ Inv ctx' held taken ∧ Presents ctx' op flags.bid (ctx.ops op).dataLen) ∨
        (ret = -1 ∧ Leaky ctx' ((if flags.more then 0 else {op}) + held) taken)) := by
  have hunchanged : ∀ g, Effect ctx (ctx.modOp op g) [] := fun g => .of_ring_eq rfl rfl rfl
  obtain ⟨hdec, hinv⟩ := h.locate hm (present_locates ctx op flags.bid)
  -- the receive is armed again on the op as it is presented
  have hrearm : flags.more = false → ∀ {ret' : Int} {mid : IouringCtx},
      (ctx.modOp op (present ctx op flags.bid)).iouringSubmitMultishotRecvmsgOp op = (ret', mid) →
      ∃ rs, Effect ctx mid rs ∧ (∀ r ∈ rs, Incoming .udpRecv (ctx.ops op).fd r) ∧
        RingOnly (ctx.modOp op (present ctx op flags.bid)) mid ∧
        ((ret' = 0 ∧ Inv mid held taken) ∨ (ret' = -1 ∧ Leaky mid ({op} + held) taken)) := by
    intro hmore ret' mid hsub
    rw [hmore, if_neg (by decide)] at hinv
    obtain ⟨rs, heff, hin, hrest, hdone⟩ := hinv.rearm hdec.multi (hdec.opType.trans htype) hsub
    rw [hdec.fd] at hin
    exact ⟨rs, (hunchanged _).trans heff, hin, hrest, hdone⟩
  have hout := iouringMultishotRecvmsgOut_decoded ctx op flags
  rw [hres] at hout
  cases hout with
  | noBuffer hnone => exact absurd hbuf (by simp [hnone])
  | rejected g _ _ hg =>
      obtain ⟨hdec, hinv⟩ := h.locate hm hg
      exact ⟨[], hunchanged g, by simp, hdec, .inr ⟨rfl, hinv.leaky⟩⟩
  | presented _ hread hmore =>
      rw [hmore, if_pos rfl, zero_add] at hinv
      exact ⟨[], hunchanged _, by simp, hdec, .inl ⟨rfl, hinv, hm.presents hread⟩⟩
  | rearmed _ hread hmore hsub =>
      obtain ⟨rs, heff, hin, hrest, hdone⟩ := hrearm hmore hsub
      have hdec' := hdec.ringOnly hrest
      have hpres := hm.presents hread
      have hinv' := (hdone.resolve_right fun hfail => by simp at hfail).2
      refine ⟨rs, ⟨heff.1, heff.2, heff.3, heff.4, heff.5, heff.6, heff.7, heff.8⟩, hin,
        ⟨hdec'.1, hdec'.2, hdec'.3, hdec'.4, hdec'.5, hdec'.6, hdec'.7⟩,
        .inl ⟨rfl, hinv'.of_eq rfl rfl rfl rfl rfl rfl rfl rfl rfl rfl rfl, ?_⟩⟩
      rw [RingOnly] at hrest
      rw [hrest]
      exact ⟨hpres.1, hpres.2, hpres.3, hpres.4, hpres.5, hpres.6, hpres.7, hpres.8⟩
  | stopped _ hread hmore hsub hret =>
      obtain ⟨rs, heff, hin, hrest, hdone⟩ := hrearm hmore hsub
      rw [hmore, if_neg (by decide)]
      exact ⟨rs, heff, hin, hdec.ringOnly hrest,
        .inr ⟨rfl, (hdone.resolve_left fun hok => hret hok.1).2⟩⟩

/-! ## One pass of `wait_for_recv` -/

/-- The op that a completed receive is handed out with, and what the program
holds for it. -/
inductive Received (ctx : IouringCtx) (c : Cqe) (op : OpId) : Multiset OpId → Multiset Nat → Prop
  | single (b : BufId) : (ctx.ops op).opType = c.req.opcode.opType → (ctx.ops op).fd = c.req.fd →
      c.req.opcode ≠ .recvmsgMultishot → Pooled (ctx.ops op) b → (ctx.ops op).dataLen = c.res →
      ctx.load (some (.buf b)) c.data.length = c.data →
      (c.req.opcode = .recvmsg → 0 < (ctx.ops op).addrLen) → Received ctx c op {op} 0
  | multi : (ctx.ops op).opType = c.req.opcode.opType → (ctx.ops op).fd = c.req.fd →
      c.req.opcode = .recvmsgMultishot → Presents ctx op c.flags.bid c.res → op ∉ ctx.ioOpPool →
      (ctx.brBufs c.flags.bid).take c.data.length = c.data → Received ctx c op 0 {c.flags.bid}

/-- Some ops may be lost, but everything else is in its place. -/
def Stopped (ctx : IouringCtx) : Prop := ∃ held taken, Inv (dropSq ctx) held taken

theorem Leaky.stopped (h : Leaky ctx held taken) : Stopped ctx :=
  let ⟨lost, h⟩ := h
  ⟨held + lost, taken, h⟩

theorem Leaky.ioOpFree_stopped {op : OpId} {ops : Multiset OpId} {idx : Multiset Nat}
    (h : Leaky ctx (ops + held) (idx + taken)) (hf : Freeable (ctx.ops op) op ops idx) :
    Stopped (ctx.ioOpFree op).2 :=
  (h.ioOpFree hf).stopped

theorem ReqOk.freeable {o : IoOp} {r : Sqe} (h : ReqOk o r) (hcode : r.opcode ≠ .recvmsgMultishot)
    (op : OpId) : Freeable o op {op} 0 := by
  cases h.place with
  | multi hm _ => exact absurd hm hcode
  | pooled b _ hp _ _ => exact .pooled b hp
  | slotted i off _ hs _ _ => exact .slotted i off hs

theorem ReqOk.pooled_of_incoming {o : IoOp} {r : Sqe} (h : ReqOk o r)
    (hcode : r.opcode = .read ∨ r.opcode = .recvmsg) :
    ∃ b, Pooled o b ∧ r.buffer = some (.buf b) := by
  cases h.place with
  | multi hm _ => rcases hcode with hcode | hcode <;> rw [hcode] at hm <;> cases hm
  | pooled b _ hp hbuf _ => exact ⟨b, hp, hbuf⟩
  | slotted _ _ hw _ _ _ => rcases hcode with hcode | hcode <;> rw [hcode] at hw <;> cases hw

theorem ReqOk.multi {o : IoOp} {r : Sqe} (h : ReqOk o r) (hcode : r.opcode = .recvmsgMultishot) :
    Multi o := by
  cases h.place with
  | multi _ hm => exact hm
  | pooled _ hm _ _ _ => exact absurd hcode hm
  | slotted _ _ hw _ _ _ => rw [hcode] at hw; cases hw

theorem ReqOk.single {o : IoOp} {r : Sqe} (h : ReqOk o r) (hcode : r.opcode ≠ .recvmsgMultishot) :
    o.isMulti = false := by
  cases h.place with
  | multi hm _ => exact absurd hm hcode
  | pooled _ _ hp _ _ => exact hp.single
  | slotted _ _ _ hs _ _ => exact hs.single

theorem Opcode.single_cases {code : Opcode} (hin : code.outgoing = false)
    (hcode : code ≠ .recvmsgMultishot) : code = .read ∨ code = .recvmsg := by
  cases code with
  | read => exact .inl rfl
  | recvmsg => exact .inr rfl
  | recvmsgMultishot => exact absurd rfl hcode
  | write => cases hin
  | sendmsg => cases hin

theorem ReqOk.opType_cases {o : IoOp} {r : Sqe} (h : ReqOk o r)
    (hcode : r.opcode = .read ∨ r.opcode = .recvmsg) :
    o.opType = .tunRead ∨ o.opType = .udpRecv := by
  rw [h.opType]
  rcases hcode with hcode | hcode
  · left
    rw [hcode]
    rfl
  · right
    rw [hcode]
    rfl

theorem ReqOk.single_of_incoming {o : IoOp} {r : Sqe} (h : ReqOk o r)
    (hcode : r.opcode = .read ∨ r.opcode = .recvmsg) : o.isMulti = false := by
  obtain ⟨b, hp, -⟩ := h.pooled_of_incoming hcode
  exact hp.single

theorem waitForRecvDone_recv {op op' : OpId} {r : Int × IouringCtx}
    (h : IouringCtx.waitForRecvDone op r = (.recv op', ctx')) :
    op' = op ∧ 0 ≤ r.1 ∧ ctx' = r.2 := by
  unfold IouringCtx.waitForRecvDone at h
  split at h
  · cases h
  · obtain ⟨hop, rfl⟩ := Prod.mk.inj h
    exact ⟨(WaitStep.recv.inj hop).symm, by omega, rfl⟩

theorem waitForRecvDone_iff (op : OpId) (r : Int × IouringCtx) :
    ((IouringCtx.waitForRecvDone op r).1 = .recv op ↔ 0 ≤ r.1) ∧
      (0 ≤ r.1 → (IouringCtx.waitForRecvDone op r).2 = r.2) := by
  unfold IouringCtx.waitForRecvDone
  by_cases hret : r.1 < 0
  · rw [if_pos hret]
    exact ⟨iff_of_false (by simp) (by omega), by omega⟩
  · rw [if_neg hret]
    exact ⟨iff_of_true rfl (by omega), fun _ => rfl⟩

theorem waitForRecvBody_error {c : Cqe} (hres : c.res < 0) :
    ctx.waitForRecvBody c = (.null, ctx) := by
  unfold IouringCtx.waitForRecvBody
  rw [if_pos hres]

theorem ReqOk.body_outgoing {c : Cqe} (h : ReqOk (ctx.ops c.req.userData) c.req)
    (hout : c.req.opcode.outgoing = true) (hres : 0 ≤ c.res) :
    ctx.waitForRecvBody c = (.again, ((ctx.modOp c.req.userData fun o =>
      { o with dataLen := c.res }).ioOpFree c.req.userData).2) := by
  have hsingle := h.single fun hcode => by rw [hcode] at hout; cases hout
  unfold IouringCtx.waitForRecvBody
  simp only [if_neg (not_lt.mpr hres), modOp_self, h.opType, hsingle, Bool.not_false, assert_true]
  cases hcode : c.req.opcode with
  | write => rfl
  | sendmsg => rfl
  | read => rw [hcode] at hout; cases hout
  | recvmsg => rw [hcode] at hout; cases hout
  | recvmsgMultishot => rw [hcode] at hout; cases hout

theorem waitForRecvBody_multishot {c : Cqe} (htype : (ctx.ops c.req.userData).opType = .udpRecv)
    (hmulti : (ctx.ops c.req.userData).isMulti = true) (hres : 0 ≤ c.res) :
    ctx.waitForRecvBody c = IouringCtx.waitForRecvDone c.req.userData
      ((ctx.modOp c.req.userData fun o => { o with dataLen := c.res }).iouringMultishotRecvmsgOut
        c.req.userData c.flags) := by
  unfold IouringCtx.waitForRecvBody
  simp only [if_neg (not_lt.mpr hres), modOp_self, htype, hmulti, if_true]

theorem waitForRecvBody_single {c : Cqe} (htype : (ctx.ops c.req.userData).opType = .tunRead ∨
      (ctx.ops c.req.userData).opType = .udpRecv)
    (hmulti : (ctx.ops c.req.userData).isMulti = false) (hres : 0 ≤ c.res) :
    ctx.waitForRecvBody c = IouringCtx.waitForRecvDone c.req.userData
      ((ctx.modOp c.req.userData fun o => { o with dataLen := c.res }).iouringResubmitRecv
        c.req.userData) := by
  unfold IouringCtx.waitForRecvBody
  simp only [if_neg (not_lt.mpr hres), modOp_self, hmulti]
  rcases htype with htype | htype
  all_goals rw [htype]; rfl

theorem ReqOk.body_multishot {c : Cqe} (h : ReqOk (ctx.ops c.req.userData) c.req)
    (hcode : c.req.opcode = .recvmsgMultishot) (hres : 0 ≤ c.res) :
    ctx.waitForRecvBody c = IouringCtx.waitForRecvDone c.req.userData
      ((ctx.modOp c.req.userData fun o => { o with dataLen := c.res }).iouringMultishotRecvmsgOut
        c.req.userData c.flags) := by
  apply waitForRecvBody_multishot _ (h.multi hcode).multi hres
  rw [h.opType, hcode]
  rfl

theorem ReqOk.body_single {c : Cqe} (h : ReqOk (ctx.ops c.req.userData) c.req)
    (hcode : c.req.opcode = .read ∨ c.req.opcode = .recvmsg) (hres : 0 ≤ c.res) :
    ctx.waitForRecvBody c = IouringCtx.waitForRecvDone c.req.userData
      ((ctx.modOp c.req.userData fun o => { o with dataLen := c.res }).iouringResubmitRecv
        c.req.userData) :=
  waitForRecvBody_single (h.opType_cases hcode) (h.single_of_incoming hcode) hres

/-- A completed single-shot receive: the next one is armed, and the op is handed
out. -/
theorem Inv.receive_single {c : Cqe} (h : Inv ctx ({c.req.userData} + held) taken)
    (hok : ReqOk (ctx.ops c.req.userData) c.req)
    (hcode : c.req.opcode = .read ∨ c.req.opcode = .recvmsg)
    (hlen : (ctx.ops c.req.userData).dataLen = c.res)
    (hdata : ctx.load c.req.buffer c.data.length = c.data) {step : WaitStep}
    (hres : IouringCtx.waitForRecvDone c.req.userData
      (ctx.iouringResubmitRecv c.req.userData) = (step, ctx')) :
    ∃ rs, Effect ctx ctx' rs ∧ (∀ r ∈ rs, Incoming c.req.opcode.opType c.req.fd r) ∧
      ((step = .recv c.req.userData ∧ Inv ctx' ({c.req.userData} + held) taken ∧
          Received ctx' c c.req.userData {c.req.userData} 0) ∨
        (step = .null ∧ Stopped ctx')) := by
  have hop : c.req.userData ∈ {c.req.userData} + held :=
    Multiset.mem_add.mpr (Or.inl (Multiset.mem_singleton_self _))
  rcases hsub : ctx.iouringResubmitRecv c.req.userData with ⟨ret, ctx1⟩
  obtain ⟨rs, heff, hin, hkept, hdone⟩ := h.iouringResubmitRecv hop (hok.opType_cases hcode) hsub
  rw [hok.opType, hok.fd] at hin
  obtain ⟨b, hp, hbuf⟩ := hok.pooled_of_incoming hcode
  rw [hsub, IouringCtx.waitForRecvDone] at hres
  rcases hdone with ⟨rfl, hinv⟩ | ⟨rfl, hleak⟩
  · rw [if_neg (by simp)] at hres
    obtain ⟨rfl, rfl⟩ := Prod.mk.inj hres
    refine ⟨rs, heff, hin, Or.inl ⟨rfl, hinv, .single b ?_ ?_ ?_ ?_ ?_ ?_ ?_⟩⟩
    · rw [hkept.ops]; exact hok.opType
    · rw [hkept.ops]; exact hok.fd
    · rcases hcode with hcode | hcode <;> rw [hcode] <;> decide
    · rw [hkept.ops]; exact hp
    · rw [hkept.ops]; exact hlen
    · rw [hkept.load, ← hbuf]; exact hdata
    · rw [hkept.ops]; exact hok.addrLen
  · rw [if_pos (by simp)] at hres
    obtain ⟨rfl, rfl⟩ := Prod.mk.inj hres
    have hring := ioOpFree_ring ctx1 c.req.userData
    refine ⟨rs ++ [], heff.trans (.of_ring_eq hring.1 hring.2.1 hring.2.2), by simpa using hin,
      Or.inr ⟨rfl, ?_⟩⟩
    rw [← zero_add taken] at hleak
    refine hleak.ioOpFree_stopped ?_
    rw [hkept.ops]
    exact .pooled b hp

/-- A completion of a multishot receive: its op is handed out with the slot. -/
theorem Inv.receive_multi {c : Cqe}
    (h : Inv ctx ((if c.flags.more then 0 else {c.req.userData}) + held) ({c.flags.bid} + taken))
    (hok : ReqOk (ctx.ops c.req.userData) c.req) (hcode : c.req.opcode = .recvmsgMultishot)
    (hout : c.req.userData ∉ ctx.ioOpPool) (hbuf : c.flags.buffer = true)
    (hlen : (ctx.ops c.req.userData).dataLen = c.res)
    (hdata : (ctx.brBufs c.flags.bid).take c.data.length = c.data) {step : WaitStep}
    (hres : IouringCtx.waitForRecvDone c.req.userData
      (ctx.iouringMultishotRecvmsgOut c.req.userData c.flags) = (step, ctx')) :
    ∃ rs, Effect ctx ctx' rs ∧ (∀ r ∈ rs, Incoming c.req.opcode.opType c.req.fd r) ∧
      ((step = .recv c.req.userData ∧ Inv ctx' held ({c.flags.bid} + taken) ∧
          Received ctx' c c.req.userData 0 {c.flags.bid}) ∨
        (step = .null ∧ Stopped ctx')) := by
  have hm := hok.multi hcode
  have htype : (ctx.ops c.req.userData).opType = .udpRecv := by rw [hok.opType, hcode]; rfl
  rcases hsub : ctx.iouringMultishotRecvmsgOut c.req.userData c.flags with ⟨ret, ctx1⟩
  obtain ⟨rs, heff, hin, hdec, hdone⟩ := h.iouringMultishotRecvmsgOut hm htype hbuf hsub
  rw [← htype, hok.opType, hok.fd] at hin
  rw [hsub, IouringCtx.waitForRecvDone] at hres
  rcases hdone with ⟨rfl, hinv, hpres⟩ | ⟨rfl, hleak⟩
  · rw [if_neg (by simp)] at hres
    obtain ⟨rfl, rfl⟩ := Prod.mk.inj hres
    refine ⟨rs, heff, hin, Or.inl ⟨rfl, hinv, .multi ?_ ?_ hcode (hlen ▸ hpres) ?_ ?_⟩⟩
    · rw [hdec.opType]; exact hok.opType
    · rw [hdec.fd]; exact hok.fd
    · rw [hdec.pool]; exact hout
    · rw [hdec.brBufs]; exact hdata
  · rw [if_pos (by simp)] at hres
    obtain ⟨rfl, rfl⟩ := Prod.mk.inj hres
    have hring := ioOpFree_ring ctx1 c.req.userData
    refine ⟨rs ++ [], heff.trans (.of_ring_eq hring.1 hring.2.1 hring.2.2), by simpa using hin,
      Or.inr ⟨rfl, ?_⟩⟩
    rw [← zero_add ((if c.flags.more then 0 else {c.req.userData}) + held)] at hleak
    exact hleak.ioOpFree_stopped (.multi c.flags.bid hdec.multi hdec.bufIdx)

inductive Waited (ctx : IouringCtx) (c : Cqe) (held : Multiset OpId) (taken : Multiset Nat) :
    WaitStep → IouringCtx → Prop
  | again {ctx' : IouringCtx} : 0 ≤ c.res → c.req.opcode.outgoing = true → Effect ctx ctx' [] →
      Inv ctx' held taken → Waited ctx c held taken .again ctx'
  | recv {ctx' : IouringCtx} (rs : List Sqe) (ops : Multiset OpId) (idx : Multiset Nat) :
      0 ≤ c.res → c.req.opcode.outgoing = false → Effect ctx ctx' rs →
      (∀ r ∈ rs, Incoming c.req.opcode.opType c.req.fd r) → Inv ctx' (ops + held) (idx + taken) →
      Received ctx' c c.req.userData ops idx →
      Waited ctx c held taken (.recv c.req.userData) ctx'
  | null {ctx' : IouringCtx} (rs : List Sqe) : Effect ctx ctx' rs →
      (∀ r ∈ rs, Incoming c.req.opcode.opType c.req.fd r) → Stopped ctx' →
      Waited ctx c held taken .null ctx'

theorem Inv.free_outgoing {c : Cqe} (h : Inv ctx ({c.req.userData} + held) taken)
    (hok : ReqOk (ctx.ops c.req.userData) c.req) (hout : c.req.opcode.outgoing = true) :
    Effect ctx (ctx.ioOpFree c.req.userData).2 [] ∧
      Inv (ctx.ioOpFree c.req.userData).2 held taken := by
  have hcode : c.req.opcode ≠ .recvmsgMultishot := by
    intro hcode; rw [hcode] at hout; cases hout
  have hring := ioOpFree_ring ctx c.req.userData
  rw [← zero_add taken] at h
  exact ⟨.of_ring_eq hring.1 hring.2.1 hring.2.2, h.ioOpFree (hok.freeable hcode _)⟩

/-- `wait_for_recv` on a completion that fits its request. -/
theorem Inv.waitForRecvBody {c : Cqe}
    (h : Inv ctx ((if c.last then {c.req.userData} else 0) + held)
      ((if c.flags.buffer then {c.flags.bid} else 0) + taken))
    (hc : CqeOk ctx c) (hout : c.req.userData ∉ ctx.ioOpPool) {step : WaitStep}
    (hres : ctx.waitForRecvBody c = (step, ctx')) : Waited ctx c held taken step ctx' := by
  by_cases hneg : c.res < 0
  · rw [waitForRecvBody_error hneg] at hres
    obtain ⟨rfl, rfl⟩ := Prod.mk.inj hres
    exact .null [] (.of_ring_eq rfl rfl rfl) (by simp) h.leaky.stopped
  have hnonneg : 0 ≤ c.res := by omega
  have hreq := hc.req
  have heff0 : Effect ctx (ctx.modOp c.req.userData fun o => { o with dataLen := c.res }) [] :=
    .of_ring_eq rfl rfl rfl
  by_cases hcode : c.req.opcode = .recvmsgMultishot
  · -- a multishot receive
    have hm := hreq.multi hcode
    have hbuf : c.flags.buffer = true := by
      by_contra hbuf
      exact hneg (hc.multi hcode (by simpa using hbuf))
    have hinv := h.modOp_multi (fun o => { o with dataLen := c.res }) hm
      ⟨hm.1, hm.2, hm.3, hm.4, hm.5⟩ rfl rfl
    have hreq' : ReqOk ((ctx.modOp c.req.userData fun o => { o with dataLen := c.res }).ops
        c.req.userData) c.req := by
      rw [modOp_self]
      exact ⟨hreq.opType, hreq.fd, .multi hcode ⟨hm.1, hm.2, hm.3, hm.4, hm.5⟩, hreq.addrLen⟩
    rw [hreq.body_multishot hcode hnonneg] at hres
    have hlast : (if c.last = true then ({c.req.userData} : Multiset OpId) else 0) =
        if c.flags.more = true then 0 else {c.req.userData} := by
      cases hmore : c.flags.more <;> simp [Cqe.last, hmore]
    rw [hlast, if_pos hbuf] at hinv
    obtain ⟨rs, heff, hin, ⟨rfl, hinv', hrecv⟩ | ⟨rfl, hstop⟩⟩ :=
      hinv.receive_multi hreq' hcode hout hbuf (by rw [modOp_self]) (hc.slot hbuf) hres
    · exact .recv rs 0 {c.flags.bid} hnonneg (by rw [hcode]; rfl) (heff0.trans heff) hin
        (by rwa [zero_add]) hrecv
    · exact .null rs (heff0.trans heff) hin hstop
  -- a single-shot request, whose op the program now holds
  obtain ⟨hbuf, hmore, hdata⟩ := hc.single hcode
  have hlast : c.last = true := by simp [Cqe.last, hmore]
  rw [if_pos hlast, if_neg (by simp [hbuf]), zero_add] at h
  have hop : c.req.userData ∈ {c.req.userData} + held :=
    Multiset.mem_add.mpr (Or.inl (Multiset.mem_singleton_self _))
  have hinv := h.modOp (fun o => { o with dataLen := c.res }) hop rfl rfl
  have hreq' : ReqOk ((ctx.modOp c.req.userData fun o => { o with dataLen := c.res }).ops
      c.req.userData) c.req := by
    rw [modOp_self]
    refine ⟨hreq.opType, hreq.fd, ?_, hreq.addrLen⟩
    cases hreq.place with
    | multi hm _ => exact absurd hm hcode
    | pooled b hm hp hbuffer hname =>
        exact .pooled b hm ⟨hp.1, hp.2, hp.3, hp.4, hp.5⟩ hbuffer hname
    | slotted i off hw hs hbuffer hname =>
      exact .slotted i off hw ⟨hs.1, hs.2, hs.3, hs.4⟩ hbuffer hname
  have hlen : ((ctx.modOp c.req.userData fun o => { o with dataLen := c.res }).ops
      c.req.userData).dataLen = c.res := by rw [modOp_self]
  have hdata' : (ctx.modOp c.req.userData fun o => { o with dataLen := c.res }).load c.req.buffer
      c.data.length = c.data := hdata
  cases hsend : c.req.opcode.outgoing with
  | true =>
      rw [hreq.body_outgoing hsend hnonneg] at hres
      obtain ⟨rfl, rfl⟩ := Prod.mk.inj hres
      have hfree := hinv.free_outgoing hreq' hsend
      exact .again hnonneg hsend (heff0.trans hfree.1) hfree.2
  | false =>
      have hin := Opcode.single_cases hsend hcode
      rw [hreq.body_single hin hnonneg] at hres
      obtain ⟨rs, heff, hrs, ⟨rfl, hinv', hgot⟩ | ⟨rfl, hstop⟩⟩ :=
        hinv.receive_single hreq' hin hlen hdata' hres
      · exact .recv rs {c.req.userData} 0 hnonneg hsend (heff0.trans heff) hrs (by rwa [zero_add])
          hgot
      · exact .null rs (heff0.trans heff) hrs hstop

end Dataplane.Proofs
