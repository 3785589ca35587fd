import Dataplane.Model.Run

/-!
# What the functions of `iouring.c` and `connection.c` do

One lemma per function says how a call ends and what it changes.  The proofs
about the loops start from these.
-/

namespace Dataplane.Proofs

open ProofSupport Model

/-! ## Field updates -/

section Fields

variable (ctx : IouringCtx) (op : OpId) (f : IoOp → IoOp) (p : Option Ptr) (bytes : Bytes)
  (b : Bool)

@[simp] theorem modOp_config : (ctx.modOp op f).config = ctx.config := rfl
@[simp] theorem modOp_ring : (ctx.modOp op f).ring = ctx.ring := rfl
@[simp] theorem modOp_ioOpPool : (ctx.modOp op f).ioOpPool = ctx.ioOpPool := rfl
@[simp] theorem modOp_bufAddrPool : (ctx.modOp op f).bufAddrPool = ctx.bufAddrPool := rfl
@[simp] theorem modOp_br : (ctx.modOp op f).br = ctx.br := rfl
@[simp] theorem modOp_bufs : (ctx.modOp op f).bufs = ctx.bufs := rfl
@[simp] theorem modOp_brBufs : (ctx.modOp op f).brBufs = ctx.brBufs := rfl
@[simp] theorem modOp_asserts : (ctx.modOp op f).asserts = ctx.asserts := rfl
@[simp] theorem modOp_tag : (ctx.modOp op f).tag = ctx.tag := rfl
@[simp] theorem modOp_load (n : Nat) : (ctx.modOp op f).load p n = ctx.load p n := rfl

@[simp] theorem modOp_self : (ctx.modOp op f).ops op = f (ctx.ops op) := by
  simp [IouringCtx.modOp]

theorem modOp_of_ne {o : OpId} (h : o ≠ op) : (ctx.modOp op f).ops o = ctx.ops o := by
  simp [IouringCtx.modOp, h]

@[simp] theorem assert_config : (ctx.assert b).config = ctx.config := rfl
@[simp] theorem assert_ring : (ctx.assert b).ring = ctx.ring := rfl
@[simp] theorem assert_ioOpPool : (ctx.assert b).ioOpPool = ctx.ioOpPool := rfl
@[simp] theorem assert_bufAddrPool : (ctx.assert b).bufAddrPool = ctx.bufAddrPool := rfl
@[simp] theorem assert_br : (ctx.assert b).br = ctx.br := rfl
@[simp] theorem assert_ops : (ctx.assert b).ops = ctx.ops := rfl
@[simp] theorem assert_bufs : (ctx.assert b).bufs = ctx.bufs := rfl
@[simp] theorem assert_brBufs : (ctx.assert b).brBufs = ctx.brBufs := rfl
@[simp] theorem assert_tag : (ctx.assert b).tag = ctx.tag := rfl
@[simp] theorem assert_asserts : (ctx.assert b).asserts = (ctx.asserts && b) := rfl
@[simp] theorem assert_load (n : Nat) : (ctx.assert b).load p n = ctx.load p n := rfl

@[simp] theorem assert_true : ctx.assert true = ctx := by
  simp [IouringCtx.assert]

@[simp] theorem store_config : (ctx.store p bytes).config = ctx.config := by
  rcases p with _ | _ | _ | _ <;> rfl
@[simp] theorem store_ring : (ctx.store p bytes).ring = ctx.ring := by
  rcases p with _ | _ | _ | _ <;> rfl
@[simp] theorem store_ioOpPool : (ctx.store p bytes).ioOpPool = ctx.ioOpPool := by
  rcases p with _ | _ | _ | _ <;> rfl
@[simp] theorem store_bufAddrPool : (ctx.store p bytes).bufAddrPool = ctx.bufAddrPool := by
  rcases p with _ | _ | _ | _ <;> rfl
@[simp] theorem store_br : (ctx.store p bytes).br = ctx.br := by
  rcases p with _ | _ | _ | _ <;> rfl
@[simp] theorem store_ops : (ctx.store p bytes).ops = ctx.ops := by
  rcases p with _ | _ | _ | _ <;> rfl
@[simp] theorem store_brBufs : (ctx.store p bytes).brBufs = ctx.brBufs := by
  rcases p with _ | _ | _ | _ <;> rfl
@[simp] theorem store_asserts : (ctx.store p bytes).asserts = ctx.asserts := by
  rcases p with _ | _ | _ | _ <;> rfl
@[simp] theorem store_tag : (ctx.store p bytes).tag = ctx.tag := by
  rcases p with _ | _ | _ | _ <;> rfl

end Fields

theorem load_store_buf (ctx : IouringCtx) (b : BufId) (bytes : Bytes) :
    (ctx.store (some (.buf b)) bytes).load (some (.buf b)) bytes.length = bytes := by
  simp [IouringCtx.store, IouringCtx.load]

theorem load_store_addr (ctx : IouringCtx) (b : BufId) (bytes : Bytes) :
    (ctx.store (some (.addr b)) bytes).load (some (.addr b)) bytes.length = bytes := by
  simp [IouringCtx.store, IouringCtx.load]

theorem load_buf_store_addr (ctx : IouringCtx) (b b' : BufId) (bytes : Bytes) (n : Nat) :
    (ctx.store (some (.addr b)) bytes).load (some (.buf b')) n = ctx.load (some (.buf b')) n := by
  by_cases h : b' = b
  · subst h; simp [IouringCtx.store, IouringCtx.load]
  · simp [IouringCtx.store, IouringCtx.load, h]

/-! ## Allocation -/

def freshOp (opType : OpType) (fd : Int) (isMulti : Bool) : IoOp :=
  { IoOp.zero with bufIdx := -1, isMulti := isMulti, opType := opType, fd := fd }

def pooledOp (opType : OpType) (fd : Int) (b : BufId) : IoOp :=
  { freshOp opType fd false with
    bufAddr := some b, buffer := some (.buf b), addr := some (.addr b) }

theorem ioOpAlloc_single_eq {ctx ctx' : IouringCtx} {opType : OpType} {fd : Int} {op : OpId}
    (h : ctx.ioOpAlloc opType fd false = (some op, ctx')) :
    ∃ ops b bufs, ctx.ioOpPool = op :: ops ∧ ctx.bufAddrPool = b :: bufs ∧
      ctx' = { ctx with
        ioOpPool := ops
        bufAddrPool := bufs
        ops := Function.update ctx.ops op (pooledOp opType fd b) } := by
  unfold IouringCtx.ioOpAlloc IouringCtx.ioOpAllocBuf IouringCtx.iouringGetIoOp at h
  cases hpool : ctx.ioOpPool with
  | nil => simp [hpool] at h
  | cons o ops =>
      cases hbuf : ctx.bufAddrPool with
      | nil => simp [hpool, hbuf, IouringCtx.iouringGetBufAddr, IouringCtx.modOp] at h
      | cons b bufs =>
          simp only [hpool, hbuf, IouringCtx.iouringGetBufAddr, IouringCtx.modOp,
            Bool.false_eq_true, if_false, Prod.mk.injEq, Option.some.injEq,
            Function.update_self, Function.update_idem] at h
          obtain ⟨rfl, rfl⟩ := h
          exact ⟨ops, b, bufs, rfl, rfl, by simp [pooledOp, freshOp]⟩

theorem ioOpAlloc_multi_eq {ctx ctx' : IouringCtx} {opType : OpType} {fd : Int} {op : OpId}
    (h : ctx.ioOpAlloc opType fd true = (some op, ctx')) :
    ∃ ops, ctx.ioOpPool = op :: ops ∧
      ctx' = { ctx with
        ioOpPool := ops
        ops := Function.update ctx.ops op (freshOp opType fd true) } := by
  unfold IouringCtx.ioOpAlloc IouringCtx.ioOpAllocBuf IouringCtx.iouringGetIoOp at h
  cases hpool : ctx.ioOpPool with
  | nil => simp [hpool] at h
  | cons o ops =>
      simp only [hpool, IouringCtx.modOp, if_true, Prod.mk.injEq, Option.some.injEq,
        Function.update_self, Function.update_idem] at h
      obtain ⟨rfl, rfl⟩ := h
      exact ⟨ops, rfl, by simp [freshOp]⟩

def itemHeir (opType : OpType) (fd : Int) (own : IoOp) : IoOp :=
  { freshOp opType fd false with
    dataLen := own.dataLen
    bufAddr := own.bufAddr
    buffer := own.bufAddr.map .buf
    addr := own.bufAddr.map .addr }

def slotHeir (opType : OpType) (fd : Int) (own : IoOp) : IoOp :=
  { freshOp opType fd false with
    bufIdx := own.bufIdx
    buffer := own.buffer
    dataLen := own.dataLen }

def takeOp (ctx : IouringCtx) (op : OpId) (ops : List OpId) (o : IoOp) : IouringCtx :=
  { ctx with ioOpPool := ops, ops := Function.update ctx.ops op o }

theorem ioOpAllocBuf_single_eq {ctx ctx' : IouringCtx} {opType : OpType} {fd : Int}
    {op owner : OpId} (howner : (ctx.ops owner).isMulti = false) (hout : owner ∉ ctx.ioOpPool)
    (h : ctx.ioOpAllocBuf opType fd false (some owner) = (some op, ctx')) :
    ∃ ops, ctx.ioOpPool = op :: ops ∧
      ctx' = (takeOp ctx op ops (itemHeir opType fd (ctx.ops owner))).modOp owner
        fun o => { o with bufAddr := none } := by
  unfold IouringCtx.ioOpAllocBuf IouringCtx.iouringGetIoOp at h
  cases hpool : ctx.ioOpPool with
  | nil => simp [hpool] at h
  | cons o ops =>
      have hne : owner ≠ o := by
        rintro rfl
        exact hout (by rw [hpool]; exact List.mem_cons_self)
      simp only [hpool, IouringCtx.modOp, Bool.false_eq_true, if_false, Function.update_self,
        Function.update_idem, Function.update_of_ne hne, howner, Bool.not_false, if_true,
        Prod.mk.injEq, Option.some.injEq] at h
      obtain ⟨rfl, rfl⟩ := h
      exact ⟨ops, rfl, by simp [takeOp, IouringCtx.modOp, itemHeir, freshOp, howner, hne]⟩

theorem ioOpAllocBuf_multi_eq {ctx ctx' : IouringCtx} {opType : OpType} {fd : Int}
    {op owner : OpId} (howner : (ctx.ops owner).isMulti = true) (hout : owner ∉ ctx.ioOpPool)
    (h : ctx.ioOpAllocBuf opType fd false (some owner) = (some op, ctx')) :
    ∃ ops, ctx.ioOpPool = op :: ops ∧
      ctx' = (takeOp ctx op ops (slotHeir opType fd (ctx.ops owner))).modOp owner
        fun o => { o with bufIdx := doNotFree } := by
  unfold IouringCtx.ioOpAllocBuf IouringCtx.iouringGetIoOp at h
  cases hpool : ctx.ioOpPool with
  | nil => simp [hpool] at h
  | cons o ops =>
      have hne : owner ≠ o := by
        rintro rfl
        exact hout (by rw [hpool]; exact List.mem_cons_self)
      simp only [hpool, IouringCtx.modOp, Bool.false_eq_true, if_false, Function.update_self,
        Function.update_idem, Function.update_of_ne hne, howner, Bool.not_true,
        Prod.mk.injEq, Option.some.injEq] at h
      obtain ⟨rfl, rfl⟩ := h
      exact ⟨ops, rfl, by simp [takeOp, IouringCtx.modOp, slotHeir, freshOp, howner, hne]⟩

/-- Without a free op or pool item the pools stay as they are, and so does
everything but the op that was tried. -/
theorem ioOpAlloc_none_eq {ctx ctx' : IouringCtx} {opType : OpType} {fd : Int} {isMulti : Bool}
    (h : ctx.ioOpAlloc opType fd isMulti = (none, ctx')) :
    ∃ ops, ctx' = { ctx with ops := ops } ∧ ∀ o ∉ ctx.ioOpPool, ops o = ctx.ops o := by
  unfold IouringCtx.ioOpAlloc IouringCtx.ioOpAllocBuf IouringCtx.iouringGetIoOp at h
  cases hpool : ctx.ioOpPool with
  | nil =>
      simp only [hpool, Prod.mk.injEq, true_and] at h
      subst h
      exact ⟨ctx.ops, by simp [← hpool], fun _ _ => rfl⟩
  | cons op next =>
      cases isMulti with
      | true => simp [hpool, IouringCtx.modOp] at h
      | false =>
          cases hbuf : ctx.bufAddrPool with
          | cons b bufs => simp [hpool, hbuf, IouringCtx.iouringGetBufAddr, IouringCtx.modOp] at h
          | nil =>
              simp only [hpool, hbuf, IouringCtx.iouringGetBufAddr, IouringCtx.modOp,
                IouringCtx.iouringPutIoOp, Bool.false_eq_true, if_false, Prod.mk.injEq,
                true_and, Function.update_self, Function.update_idem] at h
              subst h
              refine ⟨Function.update ctx.ops op (freshOp opType fd false), ?_, ?_⟩
              · simp [freshOp]
              · intro o ho
                rw [Function.update_of_ne]
                rintro rfl
                exact ho List.mem_cons_self

theorem ioOpAllocBuf_empty {ctx : IouringCtx} (h : ctx.ioOpPool = []) (opType : OpType) (fd : Int)
    (isMulti : Bool) (owner : Option OpId) :
    ctx.ioOpAllocBuf opType fd isMulti owner = (none, ctx) := by
  simp [IouringCtx.ioOpAllocBuf, IouringCtx.iouringGetIoOp, h]

theorem ioOpAlloc_empty {ctx : IouringCtx} (h : ctx.ioOpPool = []) (opType : OpType) (fd : Int)
    (isMulti : Bool) : ctx.ioOpAlloc opType fd isMulti = (none, ctx) :=
  ioOpAllocBuf_empty h opType fd isMulti none

theorem ioOpAlloc_none_iff {ctx : IouringCtx} {opType : OpType} {fd : Int} :
    (ctx.ioOpAlloc opType fd false).1 = none ↔ ctx.ioOpPool = [] ∨ ctx.bufAddrPool = [] := by
  unfold IouringCtx.ioOpAlloc IouringCtx.ioOpAllocBuf IouringCtx.iouringGetIoOp
  cases hpool : ctx.ioOpPool with
  | nil => simp
  | cons op ops =>
      cases hbuf : ctx.bufAddrPool with
      | nil => simp [IouringCtx.iouringGetBufAddr, IouringCtx.modOp]
      | cons b bufs => simp [IouringCtx.iouringGetBufAddr, IouringCtx.modOp]

theorem ioOpAllocBuf_none_eq {ctx ctx' : IouringCtx} {opType : OpType} {fd : Int} {owner : OpId}
    (h : ctx.ioOpAllocBuf opType fd false (some owner) = (none, ctx')) : ctx' = ctx := by
  unfold IouringCtx.ioOpAllocBuf IouringCtx.iouringGetIoOp at h
  cases hpool : ctx.ioOpPool with
  | nil =>
      simp only [hpool, Prod.mk.injEq, true_and] at h
      exact h.symm
  | cons op next =>
      simp only [hpool, Bool.false_eq_true, if_false] at h
      split at h <;> simp at h

/-! ## Freeing -/

theorem ioOpFree_pooled {ctx : IouringCtx} {op : OpId} {b : BufId}
    (hsingle : (ctx.ops op).isMulti = false) (haddr : (ctx.ops op).bufAddr = some b)
    (hidx : (ctx.ops op).bufIdx = -1) :
    ctx.ioOpFree op = (none, { ctx with
      ioOpPool := op :: ctx.ioOpPool
      bufAddrPool := b :: ctx.bufAddrPool }) := by
  simp [IouringCtx.ioOpFree, hsingle, haddr, hidx, IouringCtx.iouringPutBufAddr,
    IouringCtx.iouringPutIoOp]

theorem ioOpFree_bare {ctx : IouringCtx} {op : OpId} (hsingle : (ctx.ops op).isMulti = false)
    (haddr : (ctx.ops op).bufAddr = none) (hidx : (ctx.ops op).bufIdx < 0) :
    ctx.ioOpFree op = (none, { ctx with ioOpPool := op :: ctx.ioOpPool }) := by
  have hneg : ¬ 0 ≤ (ctx.ops op).bufIdx := by omega
  simp [IouringCtx.ioOpFree, hsingle, haddr, hneg, IouringCtx.iouringPutIoOp]

theorem ioOpFree_slotted {ctx : IouringCtx} {op : OpId} {i : Nat}
    (hsingle : (ctx.ops op).isMulti = false) (haddr : (ctx.ops op).bufAddr = none)
    (hidx : (ctx.ops op).bufIdx = i) :
    ctx.ioOpFree op = (none, { ctx with
      ioOpPool := op :: ctx.ioOpPool
      br := ctx.br ++ [i]
      ops := Function.update ctx.ops op { ctx.ops op with bufIdx := -1 } }) := by
  simp [IouringCtx.ioOpFree, hsingle, haddr, hidx, IouringCtx.iouringRecycleBuffer,
    IouringCtx.iouringPutIoOp, IouringCtx.modOp]

theorem ioOpFree_multi {ctx : IouringCtx} {op : OpId} {i : Nat}
    (hmulti : (ctx.ops op).isMulti = true) (haddr : (ctx.ops op).bufAddr = none)
    (hidx : (ctx.ops op).bufIdx = i) :
    ctx.ioOpFree op = (some op, { ctx with
      br := ctx.br ++ [i]
      ops := Function.update ctx.ops op { ctx.ops op with bufIdx := -1 } }) := by
  simp [IouringCtx.ioOpFree, hmulti, haddr, hidx, IouringCtx.iouringRecycleBuffer,
    IouringCtx.modOp]

/-- A multishot op whose buffer went to another op is left alone. -/
theorem ioOpFree_doNotFree {ctx : IouringCtx} {op : OpId}
    (hmulti : (ctx.ops op).isMulti = true) (hidx : (ctx.ops op).bufIdx = doNotFree) :
    ctx.ioOpFree op = (some op, ctx) := by
  simp [IouringCtx.ioOpFree, hmulti, hidx, doNotFree]

theorem ioOpFree_ring (ctx : IouringCtx) (op : OpId) :
    (ctx.ioOpFree op).2.ring = ctx.ring ∧ (ctx.ioOpFree op).2.tag = ctx.tag ∧
      (ctx.ioOpFree op).2.config = ctx.config := by
  unfold IouringCtx.ioOpFree
  dsimp only
  repeat' split
  all_goals exact ⟨rfl, rfl, rfl⟩

/-! ## Effects on the ring -/

end Dataplane.Proofs

namespace Dataplane.Model.IoUring

def inflight (ring : IoUring) : List Sqe := ring.active ++ ring.sq

end Dataplane.Model.IoUring

namespace Dataplane.Proofs

open ProofSupport Model

/-- From `ctx` to `ctx'` the program queued the requests `rs` and took no
completion. -/
structure Effect (ctx ctx' : IouringCtx) (rs : List Sqe) : Prop where
  inflight : ctx'.ring.inflight = ctx.ring.inflight ++ rs
  active : ctx.ring.active <+: ctx'.ring.active
  queued : ctx'.ring.queued = ctx.ring.queued ++ rs
  cq : ctx'.ring.cq = ctx.ring.cq
  seen : ctx'.ring.seen = ctx.ring.seen
  wire : ctx'.ring.wire = ctx.ring.wire
  tag : ctx'.tag = ctx.tag
  config : ctx'.config = ctx.config

theorem Effect.of_ring_eq {ctx ctx' : IouringCtx} (hring : ctx'.ring = ctx.ring)
    (htag : ctx'.tag = ctx.tag) (hconfig : ctx'.config = ctx.config) : Effect ctx ctx' [] := by
  constructor <;> simp [hring, htag, hconfig]

theorem Effect.trans {ctx ctx' ctx'' : IouringCtx} {rs ss : List Sqe} (h : Effect ctx ctx' rs)
    (h' : Effect ctx' ctx'' ss) : Effect ctx ctx'' (rs ++ ss) where
  inflight := by rw [h'.inflight, h.inflight, List.append_assoc]
  active := h.active.trans h'.active
  queued := by rw [h'.queued, h.queued, List.append_assoc]
  cq := h'.cq.trans h.cq
  seen := h'.seen.trans h.seen
  wire := h'.wire.trans h.wire
  tag := h'.tag.trans h.tag
  config := h'.config.trans h.config

def RingOnly (ctx ctx' : IouringCtx) : Prop := ctx' = { ctx with ring := ctx'.ring }

/-! ## Submission -/

/-- How a submission that fills the entry `r` on the context `mid` ends: it
refuses before it touches anything, it queues `r`, or it fails with `r` left in
the submission queue. -/
inductive Submitted (ctx mid : IouringCtx) (r : Sqe) : Int × IouringCtx → Prop
  | refused (f : Nat → Bool) :
      Submitted ctx mid r (-1, { ctx with ring := { ctx.ring with sqeFree := f } })
  | queued {ctx' : IouringCtx} : RingOnly mid ctx' → Effect mid ctx' [r] →
      Submitted ctx mid r (0, ctx')
  | failed {ctx' : IouringCtx} : RingOnly mid ctx' → Effect mid ctx' [r] →
      ctx'.ring.active = mid.ring.active → Submitted ctx mid r (-1, ctx')

def submitCtx (mid : IouringCtx) (r : Sqe) : IouringCtx :=
  (mid.ioUringGetSqe.2.ioUringPrep r).ioUringSubmit.2

theorem submitCtx_ringOnly (mid : IouringCtx) (r : Sqe) : RingOnly mid (submitCtx mid r) := rfl

theorem submitCtx_effect (mid : IouringCtx) (r : Sqe) : Effect mid (submitCtx mid r) [r] := by
  constructor <;> simp [submitCtx, IouringCtx.ioUringSubmit, IouringCtx.ioUringPrep,
    IouringCtx.ioUringGetSqe, IoUring.inflight]

theorem submitCtx_active {mid : IouringCtx} {r : Sqe} (h : mid.ring.submits 0 ≤ 0) :
    (submitCtx mid r).ring.active = mid.ring.active := by
  have hnone : (mid.ring.submits 0).toNat = 0 := Int.toNat_of_nonpos h
  simp [submitCtx, IouringCtx.ioUringSubmit, IouringCtx.ioUringPrep, IouringCtx.ioUringGetSqe,
    hnone]

theorem submitChecked_submitted (ctx mid : IouringCtx) (r : Sqe) :
    Submitted ctx mid r (mid.ioUringGetSqe.2.ioUringPrep r).submitChecked := by
  have heq : (mid.ioUringGetSqe.2.ioUringPrep r).submitChecked =
      if mid.ring.submits 0 < 0 then (-1, submitCtx mid r) else (0, submitCtx mid r) := rfl
  rw [heq]
  split
  · exact .failed (submitCtx_ringOnly mid r) (submitCtx_effect mid r) (submitCtx_active (by omega))
  · exact .queued (submitCtx_ringOnly mid r) (submitCtx_effect mid r)

theorem submitNonzero_submitted (ctx mid : IouringCtx) (r : Sqe) :
    Submitted ctx mid r (mid.ioUringGetSqe.2.ioUringPrep r).submitNonzero := by
  have heq : (mid.ioUringGetSqe.2.ioUringPrep r).submitNonzero =
      if mid.ring.submits 0 < 0 then (-1, submitCtx mid r)
      else if mid.ring.submits 0 = 0 then (-1, submitCtx mid r) else (0, submitCtx mid r) := rfl
  rw [heq]
  split
  · exact .failed (submitCtx_ringOnly mid r) (submitCtx_effect mid r) (submitCtx_active (by omega))
  · split
    · exact .failed (submitCtx_ringOnly mid r) (submitCtx_effect mid r)
        (submitCtx_active (by omega))
    · exact .queued (submitCtx_ringOnly mid r) (submitCtx_effect mid r)

@[simp] theorem getSqe_ops (ctx : IouringCtx) : ctx.ioUringGetSqe.2.ops = ctx.ops := rfl

theorem store_getSqe (ctx : IouringCtx) (p : Option Ptr) (bytes : Bytes) :
    ctx.ioUringGetSqe.2.store p bytes = (ctx.store p bytes).ioUringGetSqe.2 := by
  rcases p with _ | _ | _ | _ <;> rfl

theorem getSqe_submitted {ctx mid : IouringCtx} {r : Sqe} {k : IouringCtx → Int × IouringCtx}
    (h : Submitted ctx mid r (k ctx.ioUringGetSqe.2)) :
    Submitted ctx mid r (match ctx.ioUringGetSqe with
      | (false, ctx) => (-1, ctx)
      | (true, ctx) => k ctx) := by
  cases hfree : ctx.ring.sqeFree 0 with
  | false => simpa [IouringCtx.ioUringGetSqe, hfree] using Submitted.refused _
  | true =>
      have heq : ctx.ioUringGetSqe = (true, ctx.ioUringGetSqe.2) := Prod.ext hfree rfl
      rw [heq]
      exact h

theorem refused_self (ctx mid : IouringCtx) (r : Sqe) : Submitted ctx mid r (-1, ctx) :=
  .refused ctx.ring.sqeFree

theorem iouringSubmitTunRead_submitted {ctx : IouringCtx} {op : OpId}
    (htype : (ctx.ops op).opType = .tunRead) :
    Submitted ctx ctx (ctx.mkSqe .read op (ctx.ops op).buffer bufSize none 0)
      (ctx.iouringSubmitTunRead op) := by
  refine getSqe_submitted ?_
  simp only [getSqe_ops, htype, decide_true, assert_true]
  exact submitChecked_submitted ctx _ _

theorem iouringSubmitMultishotRecvmsgOp_submitted {ctx : IouringCtx} {op : OpId}
    (hmulti : (ctx.ops op).isMulti = true) :
    Submitted ctx ctx (ctx.mkSqe .recvmsgMultishot op none 0 (ctx.ops op).msg.msgName
      (ctx.ops op).msg.msgNamelen) (ctx.iouringSubmitMultishotRecvmsgOp op) := by
  unfold IouringCtx.iouringSubmitMultishotRecvmsgOp
  simp only [hmulti, assert_true]
  exact getSqe_submitted (submitChecked_submitted ctx _ _)

theorem iouringSubmitUdpRecv_submitted {ctx : IouringCtx} {op : OpId}
    (htype : (ctx.ops op).opType = .udpRecv) (hmulti : (ctx.ops op).isMulti = false) :
    Submitted ctx (ctx.modOp op IouringCtx.recvMsghdr)
      ((ctx.modOp op IouringCtx.recvMsghdr).mkSqe .recvmsg op (ctx.ops op).buffer bufSize
        (ctx.ops op).addr sizeofSockaddrStorage) (ctx.iouringSubmitUdpRecv op) := by
  unfold IouringCtx.iouringSubmitUdpRecv
  simp only [htype, hmulti, decide_true, Bool.not_false, assert_true]
  refine getSqe_submitted ?_
  simp only [modOp_self, getSqe_ops]
  exact submitChecked_submitted ctx _ _

/-- A TUN write whose data is in place is queued as it stands, when its length
is in range. -/
theorem iouringSubmitTunWrite_submitted {ctx : IouringCtx} {op : OpId} {len : Int}
    (htype : (ctx.ops op).opType = .tunWrite) (hmulti : (ctx.ops op).isMulti = false)
    (hlen : (ctx.ops op).dataLen = len) :
    Submitted ctx ctx (ctx.mkSqe .write op (ctx.ops op).buffer len.toNat none 0)
      (ctx.iouringSubmitTunWrite op none len) := by
  unfold IouringCtx.iouringSubmitTunWrite
  split
  · exact refused_self ..
  simp only [hmulti, Bool.not_false, assert_true]
  split
  · exact refused_self ..
  refine getSqe_submitted ?_
  simp only [getSqe_ops, htype, hlen, IouringCtx.copyIn, decide_true, assert_true]
  exact submitChecked_submitted ctx _ _

def sendCtx (ctx : IouringCtx) (op : OpId) (addr : Bytes) (addrLen : Nat) : IouringCtx :=
  (ctx.store (ctx.ops op).addr (addr.take addrLen)).modOp op (IouringCtx.sendMsghdr addrLen)

theorem sendCtx_getSqe (ctx : IouringCtx) (op : OpId) (addr : Bytes) (addrLen : Nat) :
    (ctx.ioUringGetSqe.2.store (ctx.ops op).addr (addr.take addrLen)).modOp op
        (IouringCtx.sendMsghdr addrLen) = (sendCtx ctx op addr addrLen).ioUringGetSqe.2 := by
  rw [store_getSqe]
  rfl

theorem copyIn_getSqe (ctx : IouringCtx) (op : OpId) (data : Option Bytes) (len : Int) :
    ctx.ioUringGetSqe.2.copyIn op data len = (ctx.copyIn op data len).ioUringGetSqe.2 := by
  cases data with
  | none => rfl
  | some bytes =>
      simp only [IouringCtx.copyIn, getSqe_ops, store_getSqe]
      rfl

theorem copyIn_op (ctx : IouringCtx) (op : OpId) (data : Option Bytes) (len : Int) :
    (ctx.copyIn op data len).ops op =
      { ctx.ops op with dataLen := if data.isSome then len else (ctx.ops op).dataLen } := by
  cases data <;> simp [IouringCtx.copyIn]

/-- A send is queued with its data, copied or already in place, and with its own
copy of the address. -/
theorem iouringSubmitUdpSend_submitted {ctx : IouringCtx} {op : OpId} (addr : Bytes)
    (addrLen : Nat) (data : Option Bytes) (len : Int) (htype : (ctx.ops op).opType = .udpSend)
    (hlen : ((ctx.copyIn op data len).ops op).dataLen = len) :
    Submitted ctx (sendCtx (ctx.copyIn op data len) op addr addrLen)
      ((sendCtx (ctx.copyIn op data len) op addr addrLen).mkSqe .sendmsg op (ctx.ops op).buffer
        len.toNat (ctx.ops op).addr addrLen)
      (ctx.iouringSubmitUdpSend (some op) addr addrLen data len) := by
  unfold IouringCtx.iouringSubmitUdpSend
  dsimp only
  split
  · exact refused_self ..
  split
  · exact refused_self ..
  refine getSqe_submitted ?_
  have hop := copyIn_op ctx op data len
  have hbuffer : ((ctx.copyIn op data len).ops op).buffer = (ctx.ops op).buffer := by rw [hop]
  have haddr : ((ctx.copyIn op data len).ops op).addr = (ctx.ops op).addr := by rw [hop]
  simp only [getSqe_ops, htype, decide_true, assert_true, copyIn_getSqe, hlen]
  generalize ctx.copyIn op data len = mid at *
  have hiov : ((sendCtx mid op addr addrLen).ops op).iov = ⟨(ctx.ops op).buffer, len.toNat⟩ := by
    simp [sendCtx, IouringCtx.sendMsghdr, hlen, hbuffer]
  have hname : ((sendCtx mid op addr addrLen).ops op).msg.msgName = (ctx.ops op).addr := by
    simp [sendCtx, IouringCtx.sendMsghdr, haddr]
  have hnamelen : ((sendCtx mid op addr addrLen).ops op).msg.msgNamelen = addrLen := by
    simp [sendCtx, IouringCtx.sendMsghdr]
  rw [sendCtx_getSqe, getSqe_ops, hiov, hname, hnamelen]
  exact submitNonzero_submitted ctx _ _

theorem iouringSubmitUdpSend_len {ctx ctx' : IouringCtx} {op : OpId} {addr : Bytes}
    {addrLen : Nat} {data : Option Bytes} {len : Int}
    (h : ctx.iouringSubmitUdpSend (some op) addr addrLen data len = (0, ctx')) :
    0 < len ∧ len ≤ bufSize := by
  unfold IouringCtx.iouringSubmitUdpSend at h
  dsimp only at h
  split at h
  · simp at h
  split at h
  · simp at h
  omega

/-! ## Decoding a completion of the multishot receive -/

theorem modOp_modOp (ctx : IouringCtx) (op : OpId) (f g : IoOp → IoOp) :
    (ctx.modOp op f).modOp op g = ctx.modOp op fun o => g (f o) := by
  simp [IouringCtx.modOp]

theorem iouringSubmitMultishotRecvmsgOp_memory (ctx : IouringCtx) (op : OpId) :
    (ctx.iouringSubmitMultishotRecvmsgOp op).2.ops = ctx.ops ∧
      (ctx.iouringSubmitMultishotRecvmsgOp op).2.ioOpPool = ctx.ioOpPool ∧
      (ctx.iouringSubmitMultishotRecvmsgOp op).2.bufs = ctx.bufs ∧
      (ctx.iouringSubmitMultishotRecvmsgOp op).2.brBufs = ctx.brBufs := by
  unfold IouringCtx.iouringSubmitMultishotRecvmsgOp IouringCtx.submitChecked
  dsimp only
  split
  · rename_i hget
    rw [← (Prod.mk.inj hget).2]
    exact ⟨rfl, rfl, rfl, rfl⟩
  · rename_i hget
    rw [← (Prod.mk.inj hget).2]
    split <;> exact ⟨rfl, rfl, rfl, rfl⟩

/-- The slot holds more than header and address, and it names a sender. -/
def Readable (ctx : IouringCtx) (op : OpId) (flags : CqeFlags) : Prop :=
  (recvmsgHeader (ctx.ops op).msg : Int) < (ctx.ops op).dataLen ∧
    Bytes.readLe32 (ctx.brBufs flags.bid) ≠ 0

/-- The op names the slot, and its receive is as it was. -/
structure Locates (bid : Nat) (o o' : IoOp) : Prop where
  bufIdx : o'.bufIdx = bid
  opType : o'.opType = o.opType
  fd : o'.fd = o.fd
  isMulti : o'.isMulti = o.isMulti
  bufAddr : o'.bufAddr = o.bufAddr
  msg : o'.msg = o.msg
  iov : o'.iov = o.iov

def present (ctx : IouringCtx) (op : OpId) (bid : Nat) (o : IoOp) : IoOp :=
  { o with
    bufIdx := bid
    addr := some (.slot bid sizeofRecvmsgOut)
    addrLen := Bytes.readLe32 (ctx.brBufs bid)
    buffer := some (.slot bid (recvmsgHeader (ctx.ops op).msg))
    dataLen := (ctx.ops op).dataLen - recvmsgHeader (ctx.ops op).msg }

theorem present_locates (ctx : IouringCtx) (op : OpId) (bid : Nat) (o : IoOp) :
    Locates bid o (present ctx op bid o) :=
  ⟨rfl, rfl, rfl, rfl, rfl, rfl, rfl⟩

/-- How `iouring_multishot_recvmsg_out` ends.  A datagram is presented to the
caller, after the receive is armed again when this was its last completion. -/
inductive Decoded (ctx : IouringCtx) (op : OpId) (flags : CqeFlags) : Int × IouringCtx → Prop
  | noBuffer : flags.buffer = false → Decoded ctx op flags (-1, ctx)
  | rejected (g : IoOp → IoOp) : flags.buffer = true → ¬ Readable ctx op flags →
      (∀ o, Locates flags.bid o (g o)) → Decoded ctx op flags (-1, ctx.modOp op g)
  | presented : flags.buffer = true → Readable ctx op flags → flags.more = true →
      Decoded ctx op flags (0, ctx.modOp op (present ctx op flags.bid))
  | rearmed {mid : IouringCtx} : flags.buffer = true → Readable ctx op flags →
      flags.more = false →
      (ctx.modOp op (present ctx op flags.bid)).iouringSubmitMultishotRecvmsgOp op = (0, mid) →
      Decoded ctx op flags (0, { mid with multiRecvRearmed := mid.multiRecvRearmed + 1 })
  | stopped {ret : Int} {mid : IouringCtx} : flags.buffer = true → Readable ctx op flags →
      flags.more = false →
      (ctx.modOp op (present ctx op flags.bid)).iouringSubmitMultishotRecvmsgOp op = (ret, mid) →
      ret ≠ 0 → Decoded ctx op flags (-1, mid)

theorem iouringMultishotRecvmsgOut_decoded (ctx : IouringCtx) (op : OpId) (flags : CqeFlags) :
    Decoded ctx op flags (ctx.iouringMultishotRecvmsgOut op flags) := by
  unfold IouringCtx.iouringMultishotRecvmsgOut
  dsimp only
  by_cases hbuf : flags.buffer = true
  swap
  · have hnone : flags.buffer = false := by simpa using hbuf
    rw [hnone]
    exact .noBuffer hnone
  rw [hbuf]
  simp only [Bool.not_true, Bool.false_eq_true, if_false, modOp_self, modOp_brBufs,
    ioUringRecvmsgValidate, ioUringRecvmsgPayloadLength]
  by_cases hvalid : 0 ≤ (ctx.ops op).dataLen ∧
      (recvmsgHeader (ctx.ops op).msg : Int) ≤ (ctx.ops op).dataLen
  swap
  · rw [decide_eq_false hvalid]
    refine .rejected _ hbuf (fun ⟨hlong, _⟩ => hvalid ?_)
      fun _ => ⟨rfl, rfl, rfl, rfl, rfl, rfl, rfl⟩
    omega
  rw [decide_eq_true hvalid]
  simp only [Bool.not_true, Bool.false_eq_true, if_false]
  by_cases hname : Bytes.readLe32 (ctx.brBufs flags.bid) = 0
  · rw [if_pos hname, modOp_modOp]
    exact .rejected _ hbuf (fun h => h.2 hname) fun _ => ⟨rfl, rfl, rfl, rfl, rfl, rfl, rfl⟩
  rw [if_neg hname]
  simp only [modOp_modOp]
  by_cases hlen : (ctx.ops op).dataLen - recvmsgHeader (ctx.ops op).msg = 0
  · rw [if_pos hlen]
    refine .rejected _ hbuf (fun ⟨hlong, _⟩ => ?_) fun _ => ⟨rfl, rfl, rfl, rfl, rfl, rfl, rfl⟩
    omega
  rw [if_neg hlen]
  have hreadable : Readable ctx op flags := ⟨by omega, hname⟩
  cases hmore : flags.more with
  | true => exact .presented hbuf hreadable hmore
  | false =>
      simp only [Bool.not_false, if_true]
      rcases hsub : (ctx.modOp op (present ctx op flags.bid)).iouringSubmitMultishotRecvmsgOp op
        with ⟨ret, mid⟩
      have hsub' := hsub
      unfold present at hsub'
      rw [hsub']
      dsimp only
      by_cases hret : ret = 0
      · rw [hret] at hsub ⊢
        exact .rearmed hbuf hreadable hmore hsub
      · rw [if_pos hret]
        exact .stopped hbuf hreadable hmore hsub hret

theorem Decoded.ret {ctx : IouringCtx} {op : OpId} {flags : CqeFlags} {out : Int × IouringCtx}
    (h : Decoded ctx op flags out) : out.1 = 0 ∨ out.1 = -1 := by
  cases h with
  | noBuffer => exact .inr rfl
  | rejected => exact .inr rfl
  | presented => exact .inl rfl
  | rearmed => exact .inl rfl
  | stopped => exact .inr rfl

theorem Decoded.readable {ctx : IouringCtx} {op : OpId} {flags : CqeFlags}
    {out : Int × IouringCtx} (h : Decoded ctx op flags out) (hret : out.1 = 0) :
    flags.buffer = true ∧ Readable ctx op flags := by
  cases h with
  | noBuffer => cases hret
  | rejected => cases hret
  | presented hbuf hread => exact ⟨hbuf, hread⟩
  | rearmed hbuf hread => exact ⟨hbuf, hread⟩
  | stopped => cases hret

/-- A readable slot is decoded even when the receive cannot be armed again. -/
theorem Decoded.decodes {ctx : IouringCtx} {op : OpId} {flags : CqeFlags}
    {out : Int × IouringCtx} (h : Decoded ctx op flags out) (hbuf : flags.buffer = true)
    (hread : Readable ctx op flags) :
    out.2.ops op = present ctx op flags.bid (ctx.ops op) ∧ out.2.brBufs = ctx.brBufs := by
  have hmem := iouringSubmitMultishotRecvmsgOp_memory (ctx.modOp op (present ctx op flags.bid)) op
  have hself := modOp_self ctx op (present ctx op flags.bid)
  cases h with
  | noBuffer hnone => exact absurd hbuf (by simp [hnone])
  | rejected _ _ hnot => exact absurd hread hnot
  | presented => exact ⟨hself, rfl⟩
  | rearmed _ _ _ hsub =>
      rw [hsub] at hmem
      exact ⟨(congrFun hmem.1 op).trans hself, hmem.2.2.2⟩
  | stopped _ _ _ hsub =>
      rw [hsub] at hmem
      exact ⟨(congrFun hmem.1 op).trans hself, hmem.2.2.2⟩

/-! ## Learning an address -/

section LearnAddr

variable {σ : Type} (ctx : IouringCtx) (conn : Connection σ) (op : OpId)

theorem learnAddr_ring : (learnAddr ctx conn op).1.ring = ctx.ring := by
  unfold learnAddr
  split <;> rfl
theorem learnAddr_ioOpPool : (learnAddr ctx conn op).1.ioOpPool = ctx.ioOpPool := by
  unfold learnAddr
  split <;> rfl
theorem learnAddr_udpFd : (learnAddr ctx conn op).2.udpFd = conn.udpFd := by
  unfold learnAddr
  split <;> rfl
theorem learnAddr_ssl : (learnAddr ctx conn op).2.ssl = conn.ssl := by
  unfold learnAddr
  split <;> rfl
theorem learnAddr_rbio : (learnAddr ctx conn op).2.rbio = conn.rbio := by
  unfold learnAddr
  split <;> rfl
theorem learnAddr_wbio : (learnAddr ctx conn op).2.wbio = conn.wbio := by
  unfold learnAddr
  split <;> rfl
theorem learnAddr_state : (learnAddr ctx conn op).2.state = conn.state := by
  unfold learnAddr
  split <;> rfl

end LearnAddr

theorem learnAddr_ctx {σ : Type} {ctx : IouringCtx} {op : OpId} (conn : Connection σ)
    (h : 0 < (ctx.ops op).addrLen) : (learnAddr ctx conn op).1 = ctx := by
  unfold learnAddr
  split
  · simp [h]
  · rfl

theorem learnAddr_of_pos {σ : Type} (ctx : IouringCtx) {conn : Connection σ} (op : OpId)
    (h : conn.addrLen ≠ 0) : (learnAddr ctx conn op).2 = conn := by
  rw [learnAddr, if_neg h]

/-! ## Encrypting and decrypting a packet -/

/-- `dtls_encrypt_packet` hands on the front of the write BIO, unless `SSL_write`
fails or there is none. -/
theorem dtlsEncryptPacket_eq {σ : Type} (api : Ssl σ) (conn : Connection σ) (data : Bytes)
    (size : Nat) {r : SslRet σ} (hr : api.write conn.ssl conn.rbio data = r) :
    conn.dtlsEncryptPacket api data size =
      if r.ret ≤ 0 then (-1, [], conn.after r)
      else (if (conn.wbio ++ r.out).take size = [] then (-1 : Int)
          else ((conn.wbio ++ r.out).take size).length,
        (conn.wbio ++ r.out).take size,
        { conn.after r with wbio := (conn.wbio ++ r.out).drop size }) := by
  unfold Connection.dtlsEncryptPacket bioRead
  rw [hr]
  dsimp only [Connection.after]
  by_cases hret : r.ret ≤ 0
  · rw [if_pos hret, if_pos hret]
  rw [if_neg hret, if_neg hret]
  by_cases hempty : conn.wbio ++ r.out = []
  · simp [hempty]
  rw [if_neg hempty]
  by_cases hfront : (conn.wbio ++ r.out).take size = []
  · simp [hfront]
  · have hpos := List.length_pos_iff.mpr hfront
    dsimp only
    rw [if_neg hfront, if_neg (by omega)]

/-- `dtls_decrypt_packet` does what the last call of `SSL_read` says, `last` being its
answer and the connection behind it. -/
theorem dtlsDecryptPacket_eq {σ : Type} (api : Ssl σ) (conn : Connection σ) (encrypted : Bytes)
    (len size : Int) {last : SslRet σ × Connection σ}
    (hlast : Connection.sslReadAgain api len.toNat 4
      (({ conn with rbio := conn.rbio ++ encrypted.take len.toNat } : Connection σ).sslRead api
        len.toNat) = last) :
    conn.dtlsDecryptPacket api encrypted len size =
      if len ≤ 0 then (-1, [], true, conn)
      else if last.1.err ≠ .none then (-1, [], decide (len < size), last.2)
      else (last.1.ret, last.1.data, decide (len < size), last.2) := by
  unfold Connection.dtlsDecryptPacket bioWrite
  by_cases hlen : len ≤ 0
  · rw [if_pos hlen, if_pos hlen]
    rfl
  · rw [if_neg hlen, if_neg hlen]
    dsimp only
    rw [if_neg hlen, if_neg (by simp), hlast]

end Dataplane.Proofs
