import Dataplane.Proofs.Loops

/-!
# What the program can see

The program never looks at the requests the kernel has, at the indices that are
available to it, or at the slots of datagrams it has not got yet.  `view S` hides
all that and keeps the slots in `S`.  Two contexts with the same view make the
program do the same, and the views stay the same.
-/

namespace Dataplane.Model

/-- The kernel completes the request once. -/
def Sqe.single (r : Sqe) : Bool := r.opcode != .recvmsgMultishot

/-- What the program can see of a context when it uses the slots in `S`.  Of the
requests the kernel has, it keeps those that are completed once. -/
def IouringCtx.view (S : Nat → Bool) (ctx : IouringCtx) : IouringCtx :=
  { ctx with
    ring := { ctx.ring with
      active := ctx.ring.active.filter Sqe.single
      cq := []
      wire := [] }
    br := []
    brBufs := fun i => if S i then ctx.brBufs i else [] }

end Dataplane.Model

namespace Dataplane.Proofs

open ProofSupport Model

variable {S : Nat → Bool} {σ : Type} {api : Ssl σ}

/-! ## Views -/

def SameView {α : Type} (S : Nat → Bool) (p q : α × IouringCtx) : Prop :=
  p.1 = q.1 ∧ p.2.view S = q.2.view S

theorem SameView.ret {α : Type} (a : α) {x b : IouringCtx} (h : x.view S = b.view S) :
    SameView S (a, x) (a, b) :=
  ⟨rfl, h⟩

theorem SameView.cases {α : Type} {p q : α × IouringCtx} (h : SameView S p q) :
    ∃ a x b, p = (a, x) ∧ q = (a, b) ∧ x.view S = b.view S :=
  ⟨q.1, p.2, q.2, Prod.ext h.1 rfl, rfl, h.2⟩

theorem SameView.of_commutes {α : Type} {f : IouringCtx → α × IouringCtx}
    (hf : ∀ ctx, f (ctx.view S) = ((f ctx).1, (f ctx).2.view S)) {x b : IouringCtx}
    (h : x.view S = b.view S) : SameView S (f x) (f b) := by
  have hx := hf x
  rw [h, hf b] at hx
  exact ⟨(congrArg Prod.fst hx).symm, (congrArg Prod.snd hx).symm⟩

theorem ops_of_view {x b : IouringCtx} (h : x.view S = b.view S) : x.ops = b.ops :=
  show (x.view S).ops = (b.view S).ops by rw [h]

theorem view_modOp (ctx : IouringCtx) (op : OpId) (f : IoOp → IoOp) :
    (ctx.modOp op f).view S = (ctx.view S).modOp op f := rfl

theorem modOp_of_view {x b : IouringCtx} (h : x.view S = b.view S) (op : OpId) (f : IoOp → IoOp) :
    (x.modOp op f).view S = (b.modOp op f).view S := by
  rw [view_modOp, view_modOp, h]

theorem assert_of_view {x b : IouringCtx} (h : x.view S = b.view S) (p : Bool) :
    (x.assert p).view S = (b.assert p).view S := by
  show (x.view S).assert p = (b.view S).assert p
  rw [h]

theorem store_of_view {x b : IouringCtx} (h : x.view S = b.view S) (p : Option Ptr)
    (bytes : Bytes) : (x.store p bytes).view S = (b.store p bytes).view S := by
  have hstore : ∀ ctx : IouringCtx, (ctx.store p bytes).view S = (ctx.view S).store p bytes := by
    intro ctx
    rcases p with _ | _ | _ | _ <;> rfl
  rw [hstore, hstore, h]

def Visible (S : Nat → Bool) (p : Option Ptr) : Prop := ∀ i off, p = some (.slot i off) → S i = true

theorem load_of_view {x b : IouringCtx} (h : x.view S = b.view S) {p : Option Ptr}
    (hp : Visible S p) (n : Nat) : x.load p n = b.load p n := by
  have hload : ∀ ctx : IouringCtx, ctx.load p n = (ctx.view S).load p n := by
    intro ctx
    rcases p with _ | _ | _ | ⟨i, off⟩
    · rfl
    · rfl
    · rfl
    · simp [IouringCtx.load, IouringCtx.view, hp i off rfl]
  rw [hload x, hload b, h]

/-! ## The pools -/

theorem ioOpAlloc_of_view {x b : IouringCtx} (h : x.view S = b.view S) (opType : OpType) (fd : Int)
    (isMulti : Bool) :
    SameView S (x.ioOpAlloc opType fd isMulti) (b.ioOpAlloc opType fd isMulti) := by
  refine SameView.of_commutes (f := fun ctx => ctx.ioOpAlloc opType fd isMulti) ?_ h
  rintro ⟨config, ring, _ | ⟨op, pool⟩, _ | ⟨item, items⟩, br, ops, bufs, brBufs, rearmed, asserts,
    tag⟩ <;> cases isMulti <;> rfl

theorem recycle_of_view {x b : IouringCtx} (h : x.view S = b.view S) (op : OpId) :
    (x.iouringRecycleBuffer op).view S = (b.iouringRecycleBuffer op).view S := by
  have hrec : ∀ ctx : IouringCtx, (ctx.iouringRecycleBuffer op).view S =
      ((ctx.view S).assert ((ctx.ops op).bufAddr.isNone && decide (0 ≤ (ctx.ops op).bufIdx))).modOp
        op fun o => { o with bufIdx := -1 } := fun _ => rfl
  rw [hrec, hrec, h, ops_of_view h]

theorem putIoOp_of_view {x b : IouringCtx} (h : x.view S = b.view S) (op : OpId) :
    (x.iouringPutIoOp op).view S = (b.iouringPutIoOp op).view S := by
  show (x.view S).iouringPutIoOp op = (b.view S).iouringPutIoOp op
  rw [h]

theorem putBufAddr_of_view {x b : IouringCtx} (h : x.view S = b.view S) (item : BufId) :
    (x.iouringPutBufAddr item).view S = (b.iouringPutBufAddr item).view S := by
  show (x.view S).iouringPutBufAddr item = (b.view S).iouringPutBufAddr item
  rw [h]

theorem ioOpFree_of_view {x b : IouringCtx} (h : x.view S = b.view S) (op : OpId) :
    SameView S (x.ioOpFree op) (b.ioOpFree op) := by
  unfold IouringCtx.ioOpFree
  rw [ops_of_view h]
  by_cases hmulti : (b.ops op).isMulti = true
  · rw [if_pos hmulti, if_pos hmulti]
    by_cases hidx : 0 ≤ (b.ops op).bufIdx
    · rw [if_pos hidx, if_pos hidx]
      exact ⟨rfl, recycle_of_view h op⟩
    · rw [if_neg hidx, if_neg hidx]
      split
      · exact ⟨rfl, putIoOp_of_view h op⟩
      · exact ⟨rfl, h⟩
  · rw [if_neg hmulti, if_neg hmulti]
    refine ⟨rfl, putIoOp_of_view ?_ op⟩
    have hassert := assert_of_view h
      ((b.ops op).bufAddr.isNone || decide ((b.ops op).bufIdx = -1))
    cases hitem : (b.ops op).bufAddr with
    | some item =>
        rw [hitem] at hassert
        exact putBufAddr_of_view hassert item
    | none =>
        rw [hitem] at hassert
        dsimp only
        by_cases hidx : 0 ≤ (b.ops op).bufIdx
        · rw [if_pos hidx, if_pos hidx]
          exact recycle_of_view hassert op
        · rw [if_neg hidx, if_neg hidx]
          exact hassert

/-! ## Submission -/

theorem ioUringSubmit_of_view {x b : IouringCtx} (h : x.view S = b.view S) :
    SameView S x.ioUringSubmit b.ioUringSubmit := by
  have hsubmit : ∀ ctx : IouringCtx, ctx.ioUringSubmit.2.view S =
      { (ctx.view S).ioUringSubmit.2 with ring := { (ctx.view S).ioUringSubmit.2.ring with
        active := (ctx.view S).ring.active ++
          ((ctx.view S).ring.sq.take
            ((ctx.view S).ring.submits 0).toNat).filter Sqe.single } } := by
    intro ctx
    simp only [IouringCtx.ioUringSubmit, IouringCtx.view, List.filter_append]
  refine ⟨?_, by rw [hsubmit, hsubmit, h]⟩
  show (x.view S).ring.submits 0 = (b.view S).ring.submits 0
  rw [h]

theorem submitChecked_of_view {x b : IouringCtx} (h : x.view S = b.view S) :
    SameView S x.submitChecked b.submitChecked := by
  obtain ⟨ret, x', b', hx, hb, h'⟩ := (ioUringSubmit_of_view h).cases
  unfold IouringCtx.submitChecked
  rw [hx, hb]
  dsimp only
  split <;> exact ⟨rfl, h'⟩

theorem submitNonzero_of_view {x b : IouringCtx} (h : x.view S = b.view S) :
    SameView S x.submitNonzero b.submitNonzero := by
  obtain ⟨ret, x', b', hx, hb, h'⟩ := (ioUringSubmit_of_view h).cases
  unfold IouringCtx.submitNonzero
  rw [hx, hb]
  dsimp only
  split
  · exact ⟨rfl, h'⟩
  · split <;> exact ⟨rfl, h'⟩

theorem getSqe_of_view {x b : IouringCtx} (h : x.view S = b.view S) :
    SameView S x.ioUringGetSqe b.ioUringGetSqe := by
  constructor
  · show (x.view S).ioUringGetSqe.1 = (b.view S).ioUringGetSqe.1
    rw [h]
  · show (x.view S).ioUringGetSqe.2 = (b.view S).ioUringGetSqe.2
    rw [h]

theorem mkSqe_of_view {x b : IouringCtx} (h : x.view S = b.view S) (opcode : Opcode) (op : OpId)
    {buffer msgName : Option Ptr} (len namelen : Nat)
    (hvisible : opcode.outgoing = true → Visible S buffer ∧ Visible S msgName) :
    x.mkSqe opcode op buffer len msgName namelen =
      b.mkSqe opcode op buffer len msgName namelen := by
  have htag : x.tag = b.tag := show (x.view S).tag = (b.view S).tag by rw [h]
  unfold IouringCtx.mkSqe
  rw [ops_of_view h, htag]
  cases hout : opcode.outgoing with
  | false => rfl
  | true =>
      obtain ⟨hbuffer, hname⟩ := hvisible hout
      simp only [if_true, load_of_view h hbuffer, load_of_view h hname]

theorem prep_of_view {x b : IouringCtx} (h : x.view S = b.view S) {r r' : Sqe} (hr : r = r') :
    (x.ioUringPrep r).view S = (b.ioUringPrep r').view S := by
  subst hr
  show (x.view S).ioUringPrep r = (b.view S).ioUringPrep r
  rw [h]

theorem iouringSubmitTunRead_of_view {x b : IouringCtx} (h : x.view S = b.view S) (op : OpId) :
    SameView S (x.iouringSubmitTunRead op) (b.iouringSubmitTunRead op) := by
  unfold IouringCtx.iouringSubmitTunRead
  obtain ⟨free, x', b', hx, hb, h'⟩ := (getSqe_of_view h).cases
  rw [hx, hb]
  cases free with
  | false => exact ⟨rfl, h'⟩
  | true =>
      dsimp only
      rw [ops_of_view h']
      have hassert := assert_of_view h' (decide ((b'.ops op).opType = .tunRead))
      apply submitChecked_of_view
      apply prep_of_view hassert
      rw [ops_of_view hassert]
      exact mkSqe_of_view hassert .read op _ _ (by simp [Opcode.outgoing])

theorem iouringSubmitUdpRecv_of_view {x b : IouringCtx} (h : x.view S = b.view S) (op : OpId) :
    SameView S (x.iouringSubmitUdpRecv op) (b.iouringSubmitUdpRecv op) := by
  unfold IouringCtx.iouringSubmitUdpRecv
  have hassert : ((x.assert (decide ((x.ops op).opType = .udpRecv))).assert
        (!((x.assert (decide ((x.ops op).opType = .udpRecv))).ops op).isMulti)).view S =
      ((b.assert (decide ((b.ops op).opType = .udpRecv))).assert
        (!((b.assert (decide ((b.ops op).opType = .udpRecv))).ops op).isMulti)).view S := by
    rw [ops_of_view h, ops_of_view (assert_of_view h _)]
    exact assert_of_view (assert_of_view h _) _
  dsimp only
  obtain ⟨free, x', b', hx, hb, h'⟩ := (getSqe_of_view hassert).cases
  rw [hx, hb]
  cases free with
  | false => exact ⟨rfl, h'⟩
  | true =>
      have hmod := modOp_of_view h' op IouringCtx.recvMsghdr
      apply submitChecked_of_view
      apply prep_of_view hmod
      rw [ops_of_view hmod]
      exact mkSqe_of_view hmod .recvmsg op _ _ (by simp [Opcode.outgoing])

theorem iouringSubmitMultishotRecvmsgOp_of_view {x b : IouringCtx} (h : x.view S = b.view S)
    (op : OpId) :
    SameView S (x.iouringSubmitMultishotRecvmsgOp op) (b.iouringSubmitMultishotRecvmsgOp op) := by
  unfold IouringCtx.iouringSubmitMultishotRecvmsgOp
  rw [ops_of_view h]
  dsimp only
  obtain ⟨free, x', b', hx, hb, h'⟩ :=
    (getSqe_of_view (assert_of_view h (b.ops op).isMulti)).cases
  rw [hx, hb]
  cases free with
  | false => exact ⟨rfl, h'⟩
  | true =>
      apply submitChecked_of_view
      apply prep_of_view h'
      rw [ops_of_view h']
      exact mkSqe_of_view h' .recvmsgMultishot op _ _ (by simp [Opcode.outgoing])

/-- A send or a write reads what it is to carry through its op. -/
def OpVisible (S : Nat → Bool) (o : IoOp) : Prop := Visible S o.buffer ∧ Visible S o.addr

theorem iouringSubmitTunWrite_of_view {x b : IouringCtx} (h : x.view S = b.view S) (op : OpId)
    (len : Int) (hvisible : OpVisible S (b.ops op)) :
    SameView S (x.iouringSubmitTunWrite op none len) (b.iouringSubmitTunWrite op none len) := by
  unfold IouringCtx.iouringSubmitTunWrite
  rw [ops_of_view h]
  split
  · exact ⟨rfl, h⟩
  dsimp only
  have hassert := assert_of_view h (!(b.ops op).isMulti)
  split
  · exact ⟨rfl, hassert⟩
  obtain ⟨free, x', b', hx, hb, h'⟩ := (getSqe_of_view hassert).cases
  have hops : b'.ops = b.ops := congrArg (fun p => p.2.ops) hb.symm
  rw [hx, hb]
  cases free with
  | false => exact ⟨rfl, h'⟩
  | true =>
      simp only [IouringCtx.copyIn, assert_ops, ops_of_view h']
      have hasserts := assert_of_view (assert_of_view h' (decide ((b'.ops op).opType = .tunWrite)))
        (decide ((b'.ops op).dataLen = len))
      apply submitChecked_of_view
      apply prep_of_view hasserts
      refine mkSqe_of_view hasserts .write op _ _ fun _ => ⟨?_, fun _ _ h => by cases h⟩
      rw [hops]
      exact hvisible.1

theorem iouringSubmitUdpSend_of_view {x b : IouringCtx} (h : x.view S = b.view S) (op : OpId)
    (addr : Bytes) (addrLen : Nat) (len : Int) (hvisible : OpVisible S (b.ops op)) :
    SameView S (x.iouringSubmitUdpSend (some op) addr addrLen none len)
      (b.iouringSubmitUdpSend (some op) addr addrLen none len) := by
  unfold IouringCtx.iouringSubmitUdpSend
  dsimp only
  rw [ops_of_view h]
  split
  · exact ⟨rfl, h⟩
  split
  · exact ⟨rfl, h⟩
  obtain ⟨free, x', b', hx, hb, h'⟩ := (getSqe_of_view h).cases
  have hops : b'.ops = b.ops := congrArg (fun p => p.2.ops) hb.symm
  rw [hx, hb]
  cases free with
  | false => exact ⟨rfl, h'⟩
  | true =>
      simp only [IouringCtx.copyIn, assert_ops, store_ops, modOp_self, ops_of_view h']
      have hasserts := assert_of_view (assert_of_view h' (decide ((b'.ops op).opType = .udpSend)))
        (decide ((b'.ops op).dataLen = len))
      have hstore := store_of_view hasserts (b'.ops op).addr (addr.take addrLen)
      have hmod := modOp_of_view hstore op (IouringCtx.sendMsghdr addrLen)
      apply submitNonzero_of_view
      apply prep_of_view hmod
      refine mkSqe_of_view hmod .sendmsg op _ _ fun _ => ?_
      show OpVisible S (b'.ops op)
      rw [hops]
      exact hvisible

/-! ## `wait_for_recv` -/

theorem iouringResubmitRecv_of_view {x b : IouringCtx} (h : x.view S = b.view S) (op : OpId) :
    SameView S (x.iouringResubmitRecv op) (b.iouringResubmitRecv op) := by
  unfold IouringCtx.iouringResubmitRecv
  rw [ops_of_view h]
  dsimp only
  obtain ⟨newOp, x', b', hx, hb, h'⟩ :=
    (ioOpAlloc_of_view h (b.ops op).opType (b.ops op).fd false).cases
  rw [hx, hb]
  cases newOp with
  | none => exact ⟨rfl, h'⟩
  | some newOp =>
      dsimp only
      split
      · exact iouringSubmitTunRead_of_view h' newOp
      · exact iouringSubmitUdpRecv_of_view h' newOp
      · exact ⟨rfl, h'⟩

theorem iouringMultishotRecvmsgOut_of_view {x b : IouringCtx} (h : x.view S = b.view S) (op : OpId)
    (flags : CqeFlags) (hslot : flags.buffer = true → S flags.bid = true) :
    SameView S (x.iouringMultishotRecvmsgOut op flags) (b.iouringMultishotRecvmsgOut op flags) := by
  unfold IouringCtx.iouringMultishotRecvmsgOut
  split
  · exact ⟨rfl, h⟩
  rename_i hbuffer
  have hbrBufs : x.brBufs flags.bid = b.brBufs flags.bid := by
    have hview := congrArg (fun ctx => ctx.brBufs flags.bid) h
    simpa [IouringCtx.view, hslot (by simpa using hbuffer)] using hview
  have h1 := modOp_of_view h op fun o => { o with bufIdx := (flags.bid : Int) }
  dsimp only
  rw [ops_of_view h1]
  split
  · exact ⟨rfl, h1⟩
  rw [show (x.modOp op fun o => { o with bufIdx := (flags.bid : Int) }).brBufs flags.bid =
    (b.modOp op fun o => { o with bufIdx := (flags.bid : Int) }).brBufs flags.bid from hbrBufs]
  split
  · exact ⟨rfl, modOp_of_view h1 op _⟩
  split
  · exact ⟨rfl, modOp_of_view (modOp_of_view h1 op _) op _⟩
  split
  · obtain ⟨ret, x', b', hx, hb, h'⟩ := (iouringSubmitMultishotRecvmsgOp_of_view
      (modOp_of_view (modOp_of_view h1 op _) op _) op).cases
    rw [hx, hb]
    dsimp only
    split
    · exact ⟨rfl, h'⟩
    · refine ⟨rfl, ?_⟩
      have hcount : ∀ ctx : IouringCtx,
          IouringCtx.view S { ctx with multiRecvRearmed := ctx.multiRecvRearmed + 1 } =
            { ctx.view S with multiRecvRearmed := (ctx.view S).multiRecvRearmed + 1 } :=
        fun _ => rfl
      rw [hcount, hcount, h']
  · exact ⟨rfl, modOp_of_view (modOp_of_view h1 op _) op _⟩

theorem iouringMultishotReadOut_of_view {x b : IouringCtx} (h : x.view S = b.view S) (op : OpId)
    (flags : CqeFlags) :
    SameView S (x.iouringMultishotReadOut op flags) (b.iouringMultishotReadOut op flags) := by
  unfold IouringCtx.iouringMultishotReadOut
  split
  · exact ⟨rfl, h⟩
  dsimp only
  split <;> exact ⟨rfl, modOp_of_view h op _⟩

theorem waitForRecvDone_of_view {p q : Int × IouringCtx} (h : SameView S p q) (op : OpId) :
    SameView S (IouringCtx.waitForRecvDone op p) (IouringCtx.waitForRecvDone op q) := by
  obtain ⟨ret, x, b, rfl, rfl, hview⟩ := h.cases
  unfold IouringCtx.waitForRecvDone
  split
  · exact ⟨rfl, (ioOpFree_of_view hview op).2⟩
  · exact ⟨rfl, hview⟩

theorem waitForRecvBody_of_view {x b : IouringCtx} (h : x.view S = b.view S) (c : Cqe)
    (hslot : c.flags.buffer = true → S c.flags.bid = true) :
    SameView S (x.waitForRecvBody c) (b.waitForRecvBody c) := by
  unfold IouringCtx.waitForRecvBody
  dsimp only
  split
  · exact ⟨rfl, h⟩
  have h1 := modOp_of_view h c.req.userData fun o => { o with dataLen := c.res }
  rw [ops_of_view h1]
  split
  · split
    · exact waitForRecvDone_of_view (iouringMultishotRecvmsgOut_of_view h1 _ c.flags hslot) _
    · exact waitForRecvDone_of_view (iouringResubmitRecv_of_view h1 _) _
  · exact ⟨rfl, (ioOpFree_of_view (assert_of_view h1 _) _).2⟩
  · split
    · exact waitForRecvDone_of_view
        (iouringMultishotReadOut_of_view (assert_of_view h1 false) _ c.flags) _
    · exact waitForRecvDone_of_view (iouringResubmitRecv_of_view h1 _) _
  · exact ⟨rfl, (ioOpFree_of_view (assert_of_view h1 _) _).2⟩
  · exact waitForRecvDone_of_view (.ret (-1) h1) _

/-! ## The packet handlers -/

theorem opVisible_of_alloc {ctx ctx' : IouringCtx} {opType : OpType} {fd : Int} {op : OpId}
    (h : ctx.ioOpAlloc opType fd false = (some op, ctx')) (len : Int) :
    OpVisible S { ctx'.ops op with dataLen := len } := by
  obtain ⟨ops, item, items, -, -, rfl⟩ := ioOpAlloc_single_eq h
  simp only [Function.update_self]
  constructor <;> intro i off hp <;> simp [pooledOp] at hp

theorem dtlsEncryptAndSendUdp_of_view (api : Ssl σ) {x b : IouringCtx} (h : x.view S = b.view S)
    (conn : Connection σ) (data : Bytes) :
    ∃ ret conn' x' b', dtlsEncryptAndSendUdp api conn data x = (ret, x', conn') ∧
      dtlsEncryptAndSendUdp api conn data b = (ret, b', conn') ∧ x'.view S = b'.view S := by
  unfold dtlsEncryptAndSendUdp
  obtain ⟨op, x1, b1, hx, hb, h1⟩ := (ioOpAlloc_of_view h .udpSend conn.udpFd false).cases
  rw [hx, hb]
  cases op with
  | none => exact ⟨_, _, _, _, rfl, rfl, h1⟩
  | some op =>
      obtain ⟨len, result, conn'⟩ := conn.dtlsEncryptPacket api data bufSize
      simp only [ops_of_view h1]
      have h2 := modOp_of_view (store_of_view h1 (b1.ops op).buffer result) op
        fun o => { o with dataLen := len }
      have hvisible : OpVisible S (((b1.store (b1.ops op).buffer result).modOp op fun o =>
          { o with dataLen := len }).ops op) := by
        rw [modOp_self, store_ops]
        exact opVisible_of_alloc hb len
      generalize (x1.store (b1.ops op).buffer result).modOp op _ = x2 at h2 ⊢
      generalize (b1.store (b1.ops op).buffer result).modOp op _ = b2 at h2 hvisible ⊢
      by_cases hlen : len < 0
      · rw [if_pos hlen, if_pos hlen]
        exact ⟨_, _, _, _, rfl, rfl, (ioOpFree_of_view h2 op).2⟩
      · rw [if_neg hlen, if_neg hlen]
        obtain ⟨ret, x3, b3, hx3, hb3, h3⟩ :=
          (iouringSubmitUdpSend_of_view h2 op conn'.addr conn'.addrLen len hvisible).cases
        rw [hx3, hb3]
        dsimp only
        by_cases hret : ret < 0
        · rw [if_pos hret, if_pos hret]
          exact ⟨_, _, _, _, rfl, rfl, (ioOpFree_of_view h3 op).2⟩
        · rw [if_neg hret, if_neg hret]
          exact ⟨_, _, _, _, rfl, rfl, h3⟩

theorem dtlsDecryptAndWriteTun_of_view (api : Ssl σ) {x b : IouringCtx} (h : x.view S = b.view S)
    (conn : Connection σ) (tunFd : Int) (encrypted : Bytes) (encryptedLen : Int) :
    ∃ ret conn' x' b',
      dtlsDecryptAndWriteTun api conn tunFd encrypted encryptedLen x = (ret, x', conn') ∧
      dtlsDecryptAndWriteTun api conn tunFd encrypted encryptedLen b = (ret, b', conn') ∧
      x'.view S = b'.view S := by
  unfold dtlsDecryptAndWriteTun
  obtain ⟨op, x1, b1, hx, hb, h1⟩ := (ioOpAlloc_of_view h .tunWrite tunFd false).cases
  rw [hx, hb]
  cases op with
  | none => exact ⟨_, _, _, _, rfl, rfl, h1⟩
  | some op =>
      obtain ⟨len, decrypted, ok, conn'⟩ :=
        conn.dtlsDecryptPacket api encrypted encryptedLen bufSize
      simp only [ops_of_view h1]
      have h2 := modOp_of_view (store_of_view h1 (b1.ops op).buffer decrypted) op
        fun o => { o with dataLen := len }
      have hvisible : OpVisible S ((((b1.store (b1.ops op).buffer decrypted).modOp op fun o =>
          { o with dataLen := len }).modOp op fun o => { o with fd := tunFd }).ops op) := by
        rw [modOp_self, modOp_self, store_ops]
        exact opVisible_of_alloc hb len
      generalize (x1.store (b1.ops op).buffer decrypted).modOp op _ = x2 at h2 ⊢
      generalize (b1.store (b1.ops op).buffer decrypted).modOp op _ = b2 at h2 hvisible ⊢
      by_cases hlen : len < 0
      · rw [if_pos hlen, if_pos hlen]
        exact ⟨_, _, _, _, rfl, rfl, (ioOpFree_of_view h2 op).2⟩
      · rw [if_neg hlen, if_neg hlen]
        obtain ⟨ret, x3, b3, hx3, hb3, h3⟩ := (iouringSubmitTunWrite_of_view
          (modOp_of_view h2 op fun o => { o with fd := tunFd }) op len hvisible).cases
        rw [hx3, hb3]
        dsimp only
        by_cases hret : ret < 0
        · rw [if_pos hret, if_pos hret]
          exact ⟨_, _, _, _, rfl, rfl, (ioOpFree_of_view h3 op).2⟩
        · rw [if_neg hret, if_neg hret]
          exact ⟨_, _, _, _, rfl, rfl, h3⟩

/-! ## The loop bodies -/

def SameBody (S : Nat → Bool) (p q : Int × Option OpId × IouringCtx × Program σ) : Prop :=
  ∃ ret op x b prog, p = (ret, op, x, prog) ∧ q = (ret, op, b, prog) ∧ x.view S = b.view S

theorem freeAndReturn_of_view {x b : IouringCtx} (h : x.view S = b.view S) (op : OpId) (ret : Int)
    (prog : Program σ) : SameBody S (freeAndReturn op ret x prog)
    (freeAndReturn op ret b prog) := by
  unfold freeAndReturn
  obtain ⟨rest, x', b', hx, hb, h'⟩ := (ioOpFree_of_view h op).cases
  rw [hx, hb]
  exact ⟨_, _, _, _, _, rfl, rfl, h'⟩

theorem tunUdpRunBody_of_view {x b : IouringCtx} (h : x.view S = b.view S) (conn : Connection σ)
    (tunFd : Int) (op : OpId) (hbuffer : Visible S (b.ops op).buffer) :
    SameBody S (tunUdpRunBody api x conn tunFd op) (tunUdpRunBody api b conn tunFd op) := by
  unfold tunUdpRunBody
  simp only [ops_of_view h, load_of_view h hbuffer]
  split
  · obtain ⟨ret, conn', x', b', hx, hb, h'⟩ := dtlsEncryptAndSendUdp_of_view api h conn
      (b.load (b.ops op).buffer (b.ops op).dataLen.toNat)
    rw [hx, hb]
    exact freeAndReturn_of_view h' op ret _
  · obtain ⟨ret, conn', x', b', hx, hb, h'⟩ := dtlsDecryptAndWriteTun_of_view api h conn
      tunFd (b.load (b.ops op).buffer (b.ops op).dataLen.toNat) (b.ops op).dataLen
    rw [hx, hb]
    exact freeAndReturn_of_view h' op ret _
  · exact freeAndReturn_of_view h op (-1) _

theorem forwardBetween_of_view (api : Ssl σ) {x b : IouringCtx} (h : x.view S = b.view S)
    (recvConn forwardConn : Connection σ) (data : Bytes) (packetLen : Int) :
    ∃ ret conn conn' x' b',
      forwardBetween api x recvConn forwardConn data packetLen = (ret, x', conn, conn') ∧
      forwardBetween api b recvConn forwardConn data packetLen = (ret, b', conn, conn') ∧
      x'.view S = b'.view S := by
  unfold forwardBetween
  obtain ⟨len, decrypted, ok, recvConn'⟩ := recvConn.dtlsDecryptPacket api data packetLen bufSize
  dsimp only
  by_cases hlen : len ≤ 0
  · rw [if_pos hlen, if_pos hlen]
    exact ⟨_, _, _, _, _, rfl, rfl, h⟩
  · rw [if_neg hlen, if_neg hlen]
    obtain ⟨ret, conn', x', b', hx, hb, h'⟩ :=
      dtlsEncryptAndSendUdp_of_view api h forwardConn decrypted
    rw [hx, hb]
    exact ⟨_, _, _, _, _, rfl, rfl, h'⟩

theorem forwarderRunBody_of_view {x b : IouringCtx} (h : x.view S = b.view S)
    (inbound outbound : Connection σ) (op : OpId) (hbuffer : Visible S (b.ops op).buffer) :
    SameBody S (forwarderRunBody api x inbound outbound op)
      (forwarderRunBody api b inbound outbound op) := by
  have hforward : ∃ ret inbound' outbound' x' b',
      forwardUdpPacket api x inbound outbound op = (ret, x', inbound', outbound') ∧
      forwardUdpPacket api b inbound outbound op = (ret, b', inbound', outbound') ∧
      x'.view S = b'.view S := by
    unfold forwardUdpPacket
    simp only [ops_of_view h, load_of_view h hbuffer]
    split
    · exact ⟨_, _, _, _, _, rfl, rfl, h⟩
    split
    · exact forwardBetween_of_view api h _ _ _ _
    · obtain ⟨ret, conn, conn', x', b', hx, hb, h'⟩ := forwardBetween_of_view api h
        outbound inbound (b.load (b.ops op).buffer (b.ops op).dataLen.toNat) (b.ops op).dataLen
      rw [hx, hb]
      exact ⟨_, _, _, _, _, rfl, rfl, h'⟩
  unfold forwarderRunBody
  rw [ops_of_view h]
  split
  · exact ⟨_, _, _, _, _, rfl, rfl, h⟩
  · obtain ⟨ret, inbound', outbound', x', b', hx, hb, h'⟩ := hforward
    rw [hx, hb]
    dsimp only
    split
    · exact ⟨_, _, _, _, _, rfl, rfl, h'⟩
    · exact freeAndReturn_of_view h' op ret _

/-! ## The kernel -/

theorem filter_erase_single {l : List Sqe} {r : Sqe} (hr : r.single = false) :
    (l.erase r).filter Sqe.single = l.filter Sqe.single := by
  rw [← List.erase_filter, List.erase_of_not_mem]
  intro hmem
  have htrue := (List.mem_filter.mp hmem).2
  rw [hr] at htrue
  cases htrue

theorem post_view_multi (ctx : IouringCtx) {c : Cqe} (hc : c.req.single = false) :
    (ctx.post c).view S = ctx.view S := by
  unfold IouringCtx.post IouringCtx.view
  cases c.flags.more with
  | true => rfl
  | false => simp [filter_erase_single hc]

theorem post_of_view {x b : IouringCtx} (h : x.view S = b.view S) {c : Cqe}
    (hc : c.flags.more = false) : (x.post c).view S = (b.post c).view S := by
  have hpost : ∀ ctx : IouringCtx, (ctx.post c).view S =
      { ctx.view S with ring := { (ctx.view S).ring with
        active := (ctx.view S).ring.active.erase c.req } } := by
    intro ctx
    simp [IouringCtx.post, IouringCtx.view, hc, List.erase_filter]
  rw [hpost, hpost, h]

theorem inFlight_of_view {x b : IouringCtx} (h : x.view S = b.view S) (op : OpId) :
    x.inFlight op false = b.inFlight op false := by
  have hfind : ∀ ctx : IouringCtx, ctx.inFlight op false = (ctx.view S).inFlight op false := by
    intro ctx
    simp only [IouringCtx.inFlight, IouringCtx.view, List.find?_filter, Sqe.single, bne]
    congr 1
    funext r
    rw [Bool.eq_iff_iff]
    simp only [Bool.and_eq_true, beq_iff_eq, beq_eq_false_iff_ne, Bool.not_eq_true',
      decide_eq_true_eq]
    tauto
  rw [hfind x, hfind b, h]

theorem perform_of_view {x b : IouringCtx} (h : x.view S = b.view S) (r : Sqe) (res : Int)
    (data name : Bytes) : (x.perform r res data name).view S =
    (b.perform r res data name).view S := by
  unfold IouringCtx.perform
  split
  · exact h
  · split
    · exact store_of_view h _ _
    · exact store_of_view (store_of_view h _ _) _ _
    · exact h
    · exact h
    · exact h

theorem kernel_complete_of_view {x b : IouringCtx} (h : x.view S = b.view S) (op : OpId) (res : Int)
    (data name : Bytes) (tag : Nat) :
    (x.kernel (.complete op res data name tag)).view S =
      (b.kernel (.complete op res data name tag)).view S := by
  simp only [IouringCtx.kernel, inFlight_of_view h op]
  split
  · exact h
  · exact post_of_view (perform_of_view h _ _ _ _) rfl

def KEvent.multishot : KEvent → Bool
  | .complete .. => false
  | .recv .. | .fail .. => true

/-- Completions of a multishot receive are invisible as long as the slots in
view are not available to the kernel. -/
theorem kernel_multishot_view {ctx : IouringCtx} (hS : ∀ i, S i = true → i ∉ ctx.br) {e : KEvent}
    (he : KEvent.multishot e = true) : (ctx.kernel e).view S = ctx.view S := by
  cases e with
  | complete op res data name tag => cases he
  | recv op bid res data more tag =>
      simp only [IouringCtx.kernel]
      split
      · rfl
      rename_i r hr
      obtain ⟨-, -, hmulti⟩ := mem_of_inFlight hr
      split
      · rename_i hbid
        rw [post_view_multi _ (show r.single = false by simp [Sqe.single, bne, hmulti])]
        have hne : ∀ i, S i = true → i ≠ bid := fun i hi heq => hS i hi (heq ▸ hbid)
        simp only [IouringCtx.view, IouringCtx.mk.injEq, true_and, and_true]
        funext i
        by_cases hi : S i = true
        · rw [if_pos hi, if_pos hi, Function.update_of_ne (hne i hi)]
        · rw [if_neg hi, if_neg hi]
      · rfl
  | fail op res =>
      simp only [IouringCtx.kernel]
      split
      · rfl
      rename_i r hr
      obtain ⟨-, -, hmulti⟩ := mem_of_inFlight hr
      split
      · exact post_view_multi _ (by simp [Sqe.single, bne, hmulti])
      · rfl

/-- What the kernel does is invisible, or visible in the same way. -/
theorem kernel_of_view {x b : IouringCtx} (h : x.view S = b.view S)
    (hx : ∀ i, S i = true → i ∉ x.br) (hb : ∀ i, S i = true → i ∉ b.br) (e : KEvent) :
    (x.kernel e).view S = (b.kernel e).view S := by
  cases he : KEvent.multishot e with
  | true => rw [kernel_multishot_view hx he, kernel_multishot_view hb he, h]
  | false =>
      cases e with
      | complete op res data name tag => exact kernel_complete_of_view h op res data name tag
      | recv op bid res data more tag => cases he
      | fail op res => cases he

theorem kernel_cq (ctx : IouringCtx) (e : KEvent) :
    ∃ cq, (ctx.kernel e).ring.cq = ctx.ring.cq ++ cq := by
  have hperform : ∀ r res data name, (ctx.perform r res data name).ring.cq = ctx.ring.cq := by
    intro r res data name
    unfold IouringCtx.perform
    split
    · rfl
    · split <;> simp
  cases e with
  | complete op res data name tag =>
      simp only [IouringCtx.kernel]
      split
      · exact ⟨[], (List.append_nil _).symm⟩
      · exact ⟨_, by rw [IouringCtx.post, hperform]⟩
  | recv op bid res data more tag =>
      simp only [IouringCtx.kernel]
      split
      · exact ⟨[], (List.append_nil _).symm⟩
      · split
        · exact ⟨_, rfl⟩
        · exact ⟨[], (List.append_nil _).symm⟩
  | fail op res =>
      simp only [IouringCtx.kernel]
      split
      · exact ⟨[], (List.append_nil _).symm⟩
      · split
        · exact ⟨_, rfl⟩
        · exact ⟨[], (List.append_nil _).symm⟩

theorem view_mono {S' : Nat → Bool} (hS : ∀ i, S' i = true → S i = true) {x b : IouringCtx}
    (h : x.view S = b.view S) : x.view S' = b.view S' := by
  have hhide : ∀ ctx : IouringCtx, ctx.view S' =
      { ctx.view S with brBufs := fun i => if S' i then (ctx.view S).brBufs i else [] } := by
    intro ctx
    simp only [IouringCtx.view, IouringCtx.mk.injEq, true_and, and_true]
    funext i
    by_cases hi : S' i = true
    · rw [if_pos hi, if_pos hi, if_pos (hS i hi)]
    · rw [if_neg hi, if_neg hi]
  rw [hhide x, hhide b, h]

end Dataplane.Proofs
