import Dataplane.Proofs.Sessions
import Dataplane.Proofs.Submissions

/-!
# What a failing step gives back

A call that fails behind an allocation has to leave the pools as they were, up
to what the caller's op still owns.  The functions of `packet_handler.c` do;
the receives, and the flight of the handshake, lose their new op when the ring
refuses its request.
-/

namespace Dataplane.Model

open ProofSupport

variable {σ : Type}

/-- The same ops, pool items and ring indices are free. -/
structure SamePools (ctx ctx' : IouringCtx) : Prop where
  ops : ctx'.ioOpPool.Perm ctx.ioOpPool
  items : ctx'.bufAddrPool.Perm ctx.bufAddrPool
  slots : ctx'.br.Perm ctx.br

/-- There is a free queue entry, and `io_uring_submit` does not fail. -/
def IoUring.Ready (ring : IoUring) : Prop := ring.sqeFree 0 = true ∧ 0 ≤ ring.submits 0

/-- What the asserts of `io_op_free` ask of an op: a buffer of at most one kind,
and a multishot op names the ring index of its packet. -/
def IoOp.Loaded (o : IoOp) : Prop :=
  if o.isMulti then o.bufAddr = none ∧ 0 ≤ o.bufIdx else o.bufAddr = none ∨ o.bufIdx = -1

/-- `io_op_free` on the op that the caller holds, if it holds one. -/
def IouringCtx.freeOwn (ctx : IouringCtx) : Option OpId → IouringCtx
  | none => ctx
  | some own => (ctx.ioOpFree own).2

/-- A call of one of the functions that return a negative value when they fail. -/
inductive Fallible (σ : Type)
  | dtlsEncryptAndSendUdp (conn : Connection σ) (data : Bytes)
  | dtlsDecryptAndWriteTun (conn : Connection σ) (tunFd : Int) (encrypted : Bytes)
      (encryptedLen : Int)
  | tunToUdp (conn : Connection σ) (op : OpId)
  | udpToTun (tunFd : Int) (op : OpId)
  | iouringResubmitRecv (op : OpId)
  | iouringSubmitMultishotRecvmsg (fd : Int)
  | iouringInitialUdpRecvs (fd : Int)

namespace Fallible

def call (api : Ssl σ) (ctx : IouringCtx) : Fallible σ → Int × IouringCtx
  | .dtlsEncryptAndSendUdp conn data =>
      match Model.dtlsEncryptAndSendUdp api conn data ctx with
      | (ret, ctx, _) => (ret, ctx)
  | .dtlsDecryptAndWriteTun conn tunFd encrypted encryptedLen =>
      match Model.dtlsDecryptAndWriteTun api conn tunFd encrypted encryptedLen ctx with
      | (ret, ctx, _) => (ret, ctx)
  | .tunToUdp conn op => Model.tunToUdp conn op ctx
  | .udpToTun tunFd op => Model.udpToTun tunFd op ctx
  | .iouringResubmitRecv op => ctx.iouringResubmitRecv op
  | .iouringSubmitMultishotRecvmsg fd => ctx.iouringSubmitMultishotRecvmsg fd
  | .iouringInitialUdpRecvs fd => ctx.iouringInitialUdpRecvs fd

/-- The op that the caller holds is not in the pool, and where the function takes
its buffer over it is the op that the function gets. -/
def HeldBy (f : Fallible σ) (ctx : IouringCtx) (own : Option OpId) : Prop :=
  (∀ o, own = some o → o ∉ ctx.ioOpPool ∧ (ctx.ops o).Loaded) ∧
    match f with
    | .tunToUdp _ op | .udpToTun _ op => own = some op
    | _ => True

/-- When the call fails, the caller frees its op and the same ops, items and
indices are free as if there had been no call. -/
def GivesBack (api : Ssl σ) (f : Fallible σ) (ctx : IouringCtx) (own : Option OpId) : Prop :=
  (f.call api ctx).1 < 0 → SamePools (ctx.freeOwn own) ((f.call api ctx).2.freeOwn own)

/-- No op is allocated whose request the ring refuses. -/
def Safe (f : Fallible σ) (ctx : IouringCtx) : Prop :=
  match f with
  | .iouringResubmitRecv op => ctx.ioOpPool = [] ∨ ctx.bufAddrPool = [] ∨
      ((ctx.ops op).opType = .tunRead ∨ (ctx.ops op).opType = .udpRecv) ∧ ctx.ring.Ready
  | .iouringSubmitMultishotRecvmsg _ | .iouringInitialUdpRecvs _ =>
      ctx.ioOpPool = [] ∨ ctx.ring.Ready
  | _ => True

end Fallible

/-- When `iouring_initial_tun_reads` fails, its last round has given back what it
took. -/
def TunReadsGiveBack (ctx : IouringCtx) (fd : Int) : Prop :=
  (ctx.iouringInitialTunReads fd).1 ≠ 0 → ∃ k mid, k < ctx.config.nInitialReadOps ∧
    IouringCtx.initialRecvs IouringCtx.iouringSubmitTunRead .tunRead fd k ctx = (0, mid) ∧
      SamePools mid (ctx.iouringInitialTunReads fd).2

end Dataplane.Model

namespace Dataplane.Proofs

open ProofSupport Model Ledger

variable {σ : Type} {api : Ssl σ} {ctx ctx' mid : IouringCtx} {op own : OpId} {opType : OpType}
  {fd : Int}

/-! ## The books -/

def grip (o : IoOp) : Bool × Option BufId × Int := (o.isMulti, o.bufAddr, o.bufIdx)

def pools (ctx : IouringCtx) : List OpId × List BufId × List Nat :=
  (ctx.ioOpPool, ctx.bufAddrPool, ctx.br)

def freed (op : OpId) (g : Bool × Option BufId × Int) (p : List OpId × List BufId × List Nat) :
    List OpId × List BufId × List Nat :=
  match g with
  | (true, _, idx) =>
      if 0 ≤ idx then (p.1, p.2.1, p.2.2 ++ [idx.toNat])
      else if idx ≠ doNotFree then (op :: p.1, p.2) else p
  | (false, some b, _) => (op :: p.1, b :: p.2.1, p.2.2)
  | (false, none, idx) => (op :: p.1, p.2.1, if 0 ≤ idx then p.2.2 ++ [idx.toNat] else p.2.2)

theorem pools_ioOpFree (ctx : IouringCtx) (op : OpId) :
    pools (ctx.ioOpFree op).2 = freed op (grip (ctx.ops op)) (pools ctx) := by
  unfold IouringCtx.ioOpFree
  cases hmulti : (ctx.ops op).isMulti with
  | true =>
      by_cases hidx : 0 ≤ (ctx.ops op).bufIdx
      · simp [hidx, hmulti, freed, grip, pools, IouringCtx.iouringRecycleBuffer]
      · by_cases hfree : (ctx.ops op).bufIdx = doNotFree
        · simp [hfree, hmulti, freed, grip, pools, doNotFree]
        · simp [hidx, hfree, hmulti, freed, grip, pools, IouringCtx.iouringPutIoOp]
  | false =>
      cases haddr : (ctx.ops op).bufAddr with
      | some b =>
          simp [hmulti, haddr, freed, grip, pools, IouringCtx.iouringPutIoOp,
            IouringCtx.iouringPutBufAddr]
      | none =>
          by_cases hidx : 0 ≤ (ctx.ops op).bufIdx
          · simp [hidx, hmulti, haddr, freed, grip, pools, IouringCtx.iouringPutIoOp,
              IouringCtx.iouringRecycleBuffer]
          · simp [hidx, hmulti, haddr, freed, grip, pools, IouringCtx.iouringPutIoOp]

theorem ioOpFree_ops_of_ne (ctx : IouringCtx) {o : OpId} (h : o ≠ op) :
    (ctx.ioOpFree op).2.ops o = ctx.ops o := by
  have hrecycle : ∀ c : IouringCtx, (c.iouringRecycleBuffer op).ops o = c.ops o :=
    fun c => Function.update_of_ne h _ _
  unfold IouringCtx.ioOpFree
  dsimp only
  repeat' split
  all_goals first
    | rfl
    | exact hrecycle _

theorem SamePools.of_eq (h : pools ctx' = pools ctx) : SamePools ctx ctx' := by
  simp only [pools, Prod.mk.injEq] at h
  obtain ⟨hops, hitems, hslots⟩ := h
  constructor
  · rw [hops]
  · rw [hitems]
  · rw [hslots]

structure Books (ctx ctx' : IouringCtx) : Prop where
  pools : pools ctx' = pools ctx
  grip : ∀ o, grip (ctx'.ops o) = grip (ctx.ops o)

theorem Books.trans (h : Books ctx mid) (h' : Books mid ctx') : Books ctx ctx' where
  pools := h'.pools.trans h.pools
  grip o := (h'.grip o).trans (h.grip o)

theorem Books.refl (ctx : IouringCtx) : Books ctx ctx := ⟨rfl, fun _ => rfl⟩

theorem Books.of_ringOnly (h : RingOnly ctx ctx') : Books ctx ctx' := by
  rw [RingOnly] at h
  rw [h]
  exact ⟨rfl, fun _ => rfl⟩

theorem Books.modOp (ctx : IouringCtx) (op : OpId) {f : IoOp → IoOp}
    (hf : ∀ o, Proofs.grip (f o) = Proofs.grip o) : Books ctx (ctx.modOp op f) where
  pools := rfl
  grip o := by
    by_cases ho : o = op
    · subst ho
      rw [modOp_self, hf]
    · rw [modOp_of_ne ctx op f ho]

theorem Books.store (ctx : IouringCtx) (p : Option Ptr) (bytes : Bytes) :
    Books ctx (ctx.store p bytes) where
  pools := by simp [Proofs.pools]
  grip o := by rw [store_ops]

theorem copyIn_books (ctx : IouringCtx) (op : OpId) (data : Option Bytes) (len : Int) :
    Books ctx (ctx.copyIn op data len) := by
  cases data with
  | none => exact .refl ctx
  | some bytes =>
      unfold IouringCtx.copyIn
      apply (Books.store ctx _ _).trans
      apply Books.modOp
      intro o
      rfl

theorem sendCtx_books (ctx : IouringCtx) (op : OpId) (addr : Bytes) (addrLen : Nat) :
    Books ctx (sendCtx ctx op addr addrLen) := by
  unfold sendCtx
  apply (Books.store ctx _ _).trans
  apply Books.modOp
  intro o
  rfl

theorem Books.submitted {r : Sqe} {out : Int × IouringCtx} (hmid : Books ctx mid)
    (h : Submitted ctx mid r out) : Books ctx out.2 := by
  cases h with
  | refused f => exact .of_ringOnly rfl
  | queued hrest _ => exact hmid.trans (.of_ringOnly hrest)
  | failed hrest _ _ => exact hmid.trans (.of_ringOnly hrest)

structure Untouched (ctx ctx' : IouringCtx) : Prop where
  pools : pools ctx' = pools ctx
  grip : ∀ o ∉ ctx.ioOpPool, grip (ctx'.ops o) = grip (ctx.ops o)

theorem Untouched.samePools (h : Untouched ctx ctx') {own : Option OpId}
    (hown : ∀ o, own = some o → o ∉ ctx.ioOpPool) :
    SamePools (ctx.freeOwn own) (ctx'.freeOwn own) := by
  apply SamePools.of_eq
  cases own with
  | none => exact h.pools
  | some o =>
      show Proofs.pools (ctx'.ioOpFree o).2 = Proofs.pools (ctx.ioOpFree o).2
      rw [pools_ioOpFree, pools_ioOpFree, h.pools, h.grip o (hown o rfl)]

/-! ## An op of the function's own -/

/-- An op that was allocated and is freed again. -/
theorem alloc_free (ha : ctx.ioOpAlloc opType fd false = (some op, mid)) (hb : Books mid ctx') :
    Untouched ctx (ctx'.ioOpFree op).2 := by
  obtain ⟨ops, b, bufs, hpool, hbuf, rfl⟩ := ioOpAlloc_single_eq ha
  constructor
  · rw [pools_ioOpFree, hb.pools, hb.grip]
    simp [freed, grip, pools, pooledOp, freshOp, hpool, hbuf]
  · intro o ho
    have hne : o ≠ op := by
      rintro rfl
      exact ho (by rw [hpool]; exact List.mem_cons_self)
    rw [ioOpFree_ops_of_ne _ hne, hb.grip]
    exact congrArg grip (Function.update_of_ne hne _ _)

theorem alloc_none {isMulti : Bool} (ha : ctx.ioOpAlloc opType fd isMulti = (none, ctx')) :
    Untouched ctx ctx' := by
  obtain ⟨ops, rfl, hsame⟩ := ioOpAlloc_none_eq ha
  exact ⟨rfl, fun o ho => congrArg grip (hsame o ho)⟩

theorem dtlsEncryptAndSendUdp_untouched (conn : Connection σ) (data : Bytes)
    (hret : (dtlsEncryptAndSendUdp api conn data ctx).1 < 0) :
    Untouched ctx (dtlsEncryptAndSendUdp api conn data ctx).2.1 := by
  unfold dtlsEncryptAndSendUdp at hret ⊢
  rcases ha : ctx.ioOpAlloc .udpSend conn.udpFd false with ⟨_ | op, ctx1⟩
  · exact alloc_none ha
  simp only [ha] at hret ⊢
  rcases hencrypt : conn.dtlsEncryptPacket api data bufSize with ⟨len, result, conn'⟩
  simp only [hencrypt] at hret ⊢
  have hbooks : Books ctx1 ((ctx1.store (ctx1.ops op).buffer result).modOp op
      fun o => { o with dataLen := len }) :=
    (Books.store ctx1 _ result).trans (.modOp _ op fun _ => rfl)
  have htype : (((ctx1.store (ctx1.ops op).buffer result).modOp op
      fun o => { o with dataLen := len }).ops op).opType = .udpSend := by
    obtain ⟨ops, b, bufs, -, -, rfl⟩ := ioOpAlloc_single_eq ha
    simp [pooledOp, freshOp]
  have hlen : (((ctx1.store (ctx1.ops op).buffer result).modOp op
      fun o => { o with dataLen := len }).ops op).dataLen = len := by
    rw [modOp_self]
  generalize (ctx1.store (ctx1.ops op).buffer result).modOp op _ = ctx2 at *
  split
  · exact alloc_free ha hbooks
  rename_i hpos
  rw [if_neg hpos] at hret
  have hsub := iouringSubmitUdpSend_submitted conn'.addr conn'.addrLen none len htype hlen
  have hkept := hbooks.trans ((sendCtx_books ctx2 op _ _).submitted hsub)
  generalize ctx2.iouringSubmitUdpSend (some op) conn'.addr conn'.addrLen none len = out at *
  split
  · exact alloc_free ha hkept
  · rename_i hout
    rw [if_neg hout] at hret
    exact absurd hret (by simp)

theorem dtlsDecryptAndWriteTun_untouched (conn : Connection σ) (tunFd : Int) (encrypted : Bytes)
    (encryptedLen : Int)
    (hret : (dtlsDecryptAndWriteTun api conn tunFd encrypted encryptedLen ctx).1 < 0) :
    Untouched ctx (dtlsDecryptAndWriteTun api conn tunFd encrypted encryptedLen ctx).2.1 := by
  unfold dtlsDecryptAndWriteTun at hret ⊢
  rcases ha : ctx.ioOpAlloc .tunWrite tunFd false with ⟨_ | op, ctx1⟩
  · exact alloc_none ha
  simp only [ha] at hret ⊢
  rcases hdecrypt : conn.dtlsDecryptPacket api encrypted encryptedLen bufSize with
    ⟨len, decrypted, ok, conn'⟩
  simp only [hdecrypt] at hret ⊢
  have hbooks : Books ctx1 ((ctx1.store (ctx1.ops op).buffer decrypted).modOp op
      fun o => { o with dataLen := len }) :=
    (Books.store ctx1 _ decrypted).trans (.modOp _ op fun _ => rfl)
  have hop : (ctx1.ops op).opType = .tunWrite ∧ (ctx1.ops op).isMulti = false := by
    obtain ⟨ops, b, bufs, -, -, rfl⟩ := ioOpAlloc_single_eq ha
    simp [pooledOp, freshOp]
  split
  · exact alloc_free ha hbooks
  rename_i hpos
  rw [if_neg hpos] at hret
  have hbooks' :=
    hbooks.trans (.modOp _ op fun o => show grip { o with fd := tunFd } = grip o from rfl)
  have hready : ∀ c : IouringCtx, c = ((ctx1.store (ctx1.ops op).buffer decrypted).modOp op
      fun o => { o with dataLen := len }).modOp op (fun o => { o with fd := tunFd }) →
      (c.ops op).opType = .tunWrite ∧ (c.ops op).isMulti = false ∧ (c.ops op).dataLen = len := by
    rintro c rfl
    simp [hop]
  obtain ⟨htype, hsingle, hlen⟩ := hready _ rfl
  have hkept := hbooks'.trans
    (Books.submitted (.refl _) (iouringSubmitTunWrite_submitted htype hsingle hlen))
  generalize ((ctx1.store (ctx1.ops op).buffer decrypted).modOp op _).modOp op _ = ctx2 at *
  generalize ctx2.iouringSubmitTunWrite op none len = out at *
  split
  · exact alloc_free ha hkept
  · rename_i hout
    rw [if_neg hout] at hret
    exact absurd hret (by simp)

/-! ## A buffer that is handed on -/

/-- An op that took over the buffer of `owner` is freed again, and then `owner`
is: the pools are as if `owner` had been freed at once. -/
theorem heir_free {owner : OpId} (hout : owner ∉ ctx.ioOpPool) (hloaded : (ctx.ops owner).Loaded)
    (ha : ctx.ioOpAllocBuf opType fd false (some owner) = (some op, mid)) (hb : Books mid ctx') :
    SamePools (ctx.ioOpFree owner).2 ((ctx'.ioOpFree op).2.ioOpFree owner).2 := by
  have hne : ∀ {ops}, ctx.ioOpPool = op :: ops → owner ≠ op := by
    rintro ops hpool rfl
    exact hout (by rw [hpool]; exact List.mem_cons_self)
  apply SamePools.of_eq
  unfold IoOp.Loaded at hloaded
  cases hmulti : (ctx.ops owner).isMulti with
  | false =>
      obtain ⟨ops, hpool, rfl⟩ := ioOpAllocBuf_single_eq hmulti hout ha
      have hne := hne hpool
      rw [pools_ioOpFree, pools_ioOpFree, pools_ioOpFree, ioOpFree_ops_of_ne _ hne, hb.pools,
        hb.grip, hb.grip, modOp_self, modOp_of_ne _ _ _ hne.symm]
      rw [hmulti, if_neg (by simp)] at hloaded
      cases haddr : (ctx.ops owner).bufAddr with
      | none =>
          simp [freed, grip, pools, takeOp, itemHeir, freshOp, hpool, hne, hmulti, haddr]
      | some b =>
          have hidx := hloaded.resolve_left (by simp [haddr])
          simp [freed, grip, pools, takeOp, itemHeir, freshOp, hpool, hne, hmulti, haddr, hidx]
  | true =>
      obtain ⟨ops, hpool, rfl⟩ := ioOpAllocBuf_multi_eq hmulti hout ha
      have hne := hne hpool
      rw [pools_ioOpFree, pools_ioOpFree, pools_ioOpFree, ioOpFree_ops_of_ne _ hne, hb.pools,
        hb.grip, hb.grip, modOp_self, modOp_of_ne _ _ _ hne.symm]
      rw [hmulti, if_pos rfl] at hloaded
      simp [freed, grip, pools, takeOp, slotHeir, freshOp, IoOp.zero, hpool, hne, hmulti, hloaded,
        doNotFree]

theorem heir_op {owner : OpId} (hout : owner ∉ ctx.ioOpPool)
    (ha : ctx.ioOpAllocBuf opType fd false (some owner) = (some op, mid)) :
    (mid.ops op).opType = opType ∧ (mid.ops op).isMulti = false ∧
      (mid.ops op).dataLen = (ctx.ops owner).dataLen ∧
      (mid.ops owner).dataLen = (ctx.ops owner).dataLen := by
  have hne : ∀ {ops}, ctx.ioOpPool = op :: ops → op ≠ owner := by
    rintro ops hpool rfl
    exact hout (by rw [hpool]; exact List.mem_cons_self)
  cases hmulti : (ctx.ops owner).isMulti with
  | false =>
      obtain ⟨ops, hpool, rfl⟩ := ioOpAllocBuf_single_eq hmulti hout ha
      have hne := hne hpool
      rw [modOp_self, modOp_of_ne _ _ _ hne]
      simp [takeOp, itemHeir, freshOp, hne.symm]
  | true =>
      obtain ⟨ops, hpool, rfl⟩ := ioOpAllocBuf_multi_eq hmulti hout ha
      have hne := hne hpool
      rw [modOp_self, modOp_of_ne _ _ _ hne]
      simp [takeOp, slotHeir, freshOp, hne.symm]

theorem tunToUdp_samePools (conn : Connection σ) {owner : OpId} (hout : owner ∉ ctx.ioOpPool)
    (hloaded : (ctx.ops owner).Loaded) (hret : (tunToUdp conn owner ctx).1 < 0) :
    SamePools (ctx.ioOpFree owner).2 ((tunToUdp conn owner ctx).2.ioOpFree owner).2 := by
  unfold tunToUdp at hret ⊢
  rcases ha : ctx.ioOpAllocBuf .udpSend conn.udpFd false (some owner) with ⟨_ | op, ctx1⟩
  · obtain rfl := ioOpAllocBuf_none_eq ha
    exact SamePools.of_eq rfl
  simp only [ha] at hret ⊢
  obtain ⟨htype, -, -, -⟩ := heir_op hout ha
  have hsub := iouringSubmitUdpSend_submitted conn.addr conn.addrLen none (ctx1.ops op).dataLen
    htype rfl
  have hkept := (sendCtx_books ctx1 op _ _).submitted hsub
  generalize ctx1.iouringSubmitUdpSend (some op) conn.addr conn.addrLen none _ = out at *
  split
  · exact heir_free hout hloaded ha hkept
  · rename_i hpos
    rw [if_neg hpos] at hret
    exact absurd hret (by simp)

theorem udpToTun_samePools (tunFd : Int) {owner : OpId} (hout : owner ∉ ctx.ioOpPool)
    (hloaded : (ctx.ops owner).Loaded) (hret : (udpToTun tunFd owner ctx).1 < 0) :
    SamePools (ctx.ioOpFree owner).2 ((udpToTun tunFd owner ctx).2.ioOpFree owner).2 := by
  unfold udpToTun at hret ⊢
  rcases ha : ctx.ioOpAllocBuf .tunWrite tunFd false (some owner) with ⟨_ | op, ctx1⟩
  · obtain rfl := ioOpAllocBuf_none_eq ha
    exact SamePools.of_eq rfl
  simp only [ha] at hret ⊢
  obtain ⟨htype, hsingle, hlen, hlen'⟩ := heir_op hout ha
  have hsub := iouringSubmitTunWrite_submitted htype hsingle (hlen.trans hlen'.symm)
  have hkept := (Books.refl ctx1).submitted hsub
  generalize ctx1.iouringSubmitTunWrite op none _ = out at *
  split
  · exact heir_free hout hloaded ha hkept
  · rename_i hpos
    rw [if_neg hpos] at hret
    exact absurd hret (by simp)

/-! ## An op that is lost -/

theorem ioOpAlloc_multi_none_iff : (ctx.ioOpAlloc opType fd true).1 = none ↔
    ctx.ioOpPool = [] := by
  unfold IouringCtx.ioOpAlloc IouringCtx.ioOpAllocBuf IouringCtx.iouringGetIoOp
  cases hpool : ctx.ioOpPool with
  | nil => simp
  | cons op ops => simp

/-- Freeing an op from outside adds the same to the pools, whatever is in them. -/
theorem freed_length (op : OpId) (g : Bool × Option BufId × Int)
    (p p' : List OpId × List BufId × List Nat) :
    (freed op g p).1.length + p'.1.length = (freed op g p').1.length + p.1.length := by
  obtain ⟨multi, item, idx⟩ := g
  cases multi with
  | false => cases item <;> simp only [freed, List.length_cons] <;> omega
  | true =>
      simp only [freed]
      split
      · exact Nat.add_comm _ _
      · split
        · simp only [List.length_cons]
          omega
        · exact Nat.add_comm _ _

theorem not_samePools (hlost : ctx'.ioOpPool.length < ctx.ioOpPool.length) {own : Option OpId}
    (hown : ∀ o, own = some o → grip (ctx'.ops o) = grip (ctx.ops o)) :
    ¬ SamePools (ctx.freeOwn own) (ctx'.freeOwn own) := by
  intro hsame
  have hlen := hsame.ops.length_eq
  cases own with
  | none =>
      have hlen : ctx'.ioOpPool.length = ctx.ioOpPool.length := hlen
      omega
  | some o =>
      have hcount := freed_length o (grip (ctx.ops o)) (pools ctx') (pools ctx)
      rw [← hown o rfl, ← pools_ioOpFree, hown o rfl, ← pools_ioOpFree] at hcount
      have hcount : (ctx'.ioOpFree o).2.ioOpPool.length + ctx.ioOpPool.length =
          (ctx.ioOpFree o).2.ioOpPool.length + ctx'.ioOpPool.length := hcount
      have hlen : (ctx'.ioOpFree o).2.ioOpPool.length = (ctx.ioOpFree o).2.ioOpPool.length := hlen
      omega

/-! ## Receives -/

theorem accepted_iff (f : Submission) (hrecv : f = .tunRead ∨ f = .udpRecv ∨ f = .multishotRecvmsg)
    (ctx : IouringCtx) (op : OpId) : (f.call ctx op).1 < 0 ↔ ¬ ctx.ring.Ready := by
  have hcalls := submission_calls f ctx op
  have haccepts : f.Accepts ctx op := by
    rcases hrecv with rfl | rfl | rfl <;> trivial
  have htakes : f.Takes (ctx.ring.submits 0) ↔ 0 ≤ ctx.ring.submits 0 := by
    rcases hrecv with rfl | rfl | rfl <;> exact Iff.rfl
  unfold IoUring.Ready
  generalize f.call ctx op = out at *
  cases hcalls with
  | refused hnot _ =>
      refine ⟨fun _ hready => hnot ⟨haccepts, hready.1⟩, fun _ => ?_⟩
      show (-1 : Int) < 0
      decide
  | submitted r _ hfree _ _ hans =>
      rw [← htakes]
      rcases hans with ⟨rfl, hyes⟩ | ⟨rfl, hno⟩
      · exact ⟨fun h => absurd h (by simp), fun h => absurd ⟨hfree, hyes⟩ h⟩
      · exact ⟨fun _ h => hno h.2, fun _ => by simp⟩

theorem recv_books {b : BufId} (hop : ctx.ops op = pooledOp opType fd b) :
    (opType = .tunRead → Books ctx (ctx.iouringSubmitTunRead op).2) ∧
      (opType = .udpRecv → Books ctx (ctx.iouringSubmitUdpRecv op).2) := by
  constructor
  · rintro rfl
    have htype : (ctx.ops op).opType = .tunRead := by rw [hop]; rfl
    exact (Books.refl ctx).submitted (iouringSubmitTunRead_submitted htype)
  · rintro rfl
    have htype : (ctx.ops op).opType = .udpRecv := by rw [hop]; rfl
    have hsingle : (ctx.ops op).isMulti = false := by rw [hop]; rfl
    have hmid : Books ctx (ctx.modOp op IouringCtx.recvMsghdr) := .modOp ctx op fun _ => rfl
    exact hmid.submitted (iouringSubmitUdpRecv_submitted htype hsingle)

/-- Behind an allocation, nothing brings the op back to the pool. -/
theorem alloc_lost (hpool : ctx.ioOpPool = op :: mid.ioOpPool)
    (hops : ∀ o ≠ op, mid.ops o = ctx.ops o) (hb : Books mid ctx') {own : Option OpId}
    (hown : ∀ o, own = some o → o ∉ ctx.ioOpPool) :
    ¬ SamePools (ctx.freeOwn own) (ctx'.freeOwn own) := by
  apply not_samePools
  · have hlen := congrArg (fun p => p.1.length) hb.pools
    simp only [pools] at hlen
    rw [hlen, hpool]
    simp
  · rintro o rfl
    have hne : o ≠ op := by
      rintro rfl
      exact hown o rfl (by rw [hpool]; exact List.mem_cons_self)
    rw [hb.grip, hops o hne]

/-- So a receive that is submitted for a new op has to be accepted. -/
theorem alloc_lost_iff (hpool : ctx.ioOpPool = op :: mid.ioOpPool)
    (hops : ∀ o ≠ op, mid.ops o = ctx.ops o) {own : Option OpId}
    (hown : ∀ o, own = some o → o ∉ ctx.ioOpPool) {out : Int × IouringCtx}
    (hb : Books mid out.2) (hfails : out.1 < 0 ↔ ¬ mid.ring.Ready) :
    (out.1 < 0 → SamePools (ctx.freeOwn own) (out.2.freeOwn own)) ↔ mid.ring.Ready := by
  constructor
  · intro hback
    by_contra hnot
    exact alloc_lost hpool hops hb hown (hback (hfails.mpr hnot))
  · intro hready hneg
    exact absurd hready (hfails.mp hneg)

inductive Resubmitted (ctx : IouringCtx) (completed : OpId) : Int × IouringCtx → Prop
  | empty {ctx' : IouringCtx} : (ctx.ioOpPool = [] ∨ ctx.bufAddrPool = []) → Untouched ctx ctx' →
      Resubmitted ctx completed (-1, ctx')
  | taken {out : Int × IouringCtx} (new : OpId) (b : BufId) :
      ctx.ioOpPool = new :: out.2.ioOpPool → ctx.bufAddrPool = b :: out.2.bufAddrPool →
      out.2.br = ctx.br → (∀ o ∉ ctx.ioOpPool, grip (out.2.ops o) = grip (ctx.ops o)) →
      (out.1 < 0 ↔ ¬ (((ctx.ops completed).opType = .tunRead ∨
        (ctx.ops completed).opType = .udpRecv) ∧ ctx.ring.Ready)) →
      Resubmitted ctx completed out

theorem iouringResubmitRecv_resubmitted (ctx : IouringCtx) (completed : OpId) :
    Resubmitted ctx completed (ctx.iouringResubmitRecv completed) := by
  have hnone : (ctx.ioOpAlloc (ctx.ops completed).opType (ctx.ops completed).fd false).1 = none ↔
    _ := ioOpAlloc_none_iff
  unfold IouringCtx.iouringResubmitRecv
  dsimp only
  rcases ha : ctx.ioOpAlloc (ctx.ops completed).opType (ctx.ops completed).fd false with
    ⟨_ | op, ctx1⟩
  · rw [ha] at hnone
    exact .empty (hnone.mp rfl) (alloc_none ha)
  obtain ⟨ops, b, bufs, hpool, hbuf, hctx1⟩ := ioOpAlloc_single_eq ha
  have hring : ctx1.ring = ctx.ring := by rw [hctx1]
  have hop : ctx1.ops op = pooledOp (ctx.ops completed).opType (ctx.ops completed).fd b := by
    rw [hctx1]
    simp
  have hpools : pools ctx1 = (ops, bufs, ctx.br) := by
    rw [hctx1]
    rfl
  have htaken : ∀ {out : Int × IouringCtx}, Books ctx1 out.2 →
      (out.1 < 0 ↔ ¬ (((ctx.ops completed).opType = .tunRead ∨
        (ctx.ops completed).opType = .udpRecv) ∧ ctx1.ring.Ready)) →
      Resubmitted ctx completed out := by
    intro out hb hfails
    have hout := hb.pools.trans hpools
    simp only [pools, Prod.mk.injEq] at hout
    obtain ⟨hops', hitems', hslots'⟩ := hout
    refine .taken op b (by rw [hops', hpool]) (by rw [hitems', hbuf]) hslots' ?_ (hring ▸ hfails)
    intro o ho
    have hne : o ≠ op := by
      rintro rfl
      exact ho (by rw [hpool]; exact List.mem_cons_self)
    rw [hb.grip, hctx1]
    exact congrArg grip (Function.update_of_ne hne _ _)
  obtain ⟨hread, hudp⟩ := recv_books hop
  cases htype : (ctx.ops completed).opType with
  | tunRead =>
      have haccept : (ctx1.iouringSubmitTunRead op).1 < 0 ↔ ¬ ctx1.ring.Ready :=
        accepted_iff .tunRead (.inl rfl) ctx1 op
      apply htaken (hread htype)
      simpa [htype] using haccept
  | udpRecv =>
      have haccept : (ctx1.iouringSubmitUdpRecv op).1 < 0 ↔ ¬ ctx1.ring.Ready :=
        accepted_iff .udpRecv (.inr (.inl rfl)) ctx1 op
      apply htaken (hudp htype)
      simpa [htype] using haccept
  | unknown => exact htaken (.refl ctx1) (by simp [htype])
  | tunWrite => exact htaken (.refl ctx1) (by simp [htype])
  | udpSend => exact htaken (.refl ctx1) (by simp [htype])

theorem resubmitRecv_givesBack (completed : OpId) {own : Option OpId}
    (hown : ∀ o, own = some o → o ∉ ctx.ioOpPool) :
    ((ctx.iouringResubmitRecv completed).1 < 0 →
      SamePools (ctx.freeOwn own) ((ctx.iouringResubmitRecv completed).2.freeOwn own)) ↔
      ctx.ioOpPool = [] ∨ ctx.bufAddrPool = [] ∨
        ((ctx.ops completed).opType = .tunRead ∨ (ctx.ops completed).opType = .udpRecv) ∧
          ctx.ring.Ready := by
  rw [← or_assoc]
  have hcases := iouringResubmitRecv_resubmitted ctx completed
  generalize ctx.iouringResubmitRecv completed = out at *
  cases hcases with
  | empty hempty hsame => exact ⟨fun _ => .inl hempty, fun _ _ => hsame.samePools hown⟩
  | taken new b hops hitems hslots hgrip hfails =>
      have hfull : ¬ (ctx.ioOpPool = [] ∨ ctx.bufAddrPool = []) := by
        rw [hops, hitems]
        simp
      rw [or_iff_right hfull]
      constructor
      · intro hback
        by_contra hnot
        apply not_samePools _ (fun o ho => hgrip o (hown o ho)) (hback (hfails.mpr hnot))
        rw [hops]
        exact Nat.lt_succ_self _
      · intro hready hneg
        exact absurd hready (hfails.mp hneg)

theorem multishot_givesBack (fd : Int) {own : Option OpId}
    (hown : ∀ o, own = some o → o ∉ ctx.ioOpPool) :
    ((ctx.iouringSubmitMultishotRecvmsg fd).1 < 0 →
      SamePools (ctx.freeOwn own) ((ctx.iouringSubmitMultishotRecvmsg fd).2.freeOwn own)) ↔
      ctx.ioOpPool = [] ∨ ctx.ring.Ready := by
  have hnone : (ctx.ioOpAlloc .udpRecv fd true).1 = none ↔ _ := ioOpAlloc_multi_none_iff
  unfold IouringCtx.iouringSubmitMultishotRecvmsg
  rcases ha : ctx.ioOpAlloc .udpRecv fd true with ⟨_ | op, ctx1⟩
  · rw [ha] at hnone
    exact ⟨fun _ => .inl (hnone.mp rfl), fun _ _ => (alloc_none ha).samePools hown⟩
  rw [ha] at hnone
  have hfull : ¬ ctx.ioOpPool = [] := fun h => by simpa using hnone.mpr h
  rw [or_iff_right hfull]
  obtain ⟨ops, hpool, rfl⟩ := ioOpAlloc_multi_eq ha
  dsimp only
  have hrest : ∀ o ≠ op, ∀ f, ((takeOp ctx op ops (freshOp .udpRecv fd true)).modOp op f).ops o =
      ctx.ops o := by
    intro o ho f
    rw [modOp_of_ne _ op f ho]
    exact Function.update_of_ne ho _ _
  have hmulti : ∀ n, (((takeOp ctx op ops (freshOp .udpRecv fd true)).modOp op
      fun o => { o with msg := { o.msg with msgNamelen := n } }).ops op).isMulti = true := by
    intro n
    rw [modOp_self]
    simp [takeOp, freshOp]
  have hsub := iouringSubmitMultishotRecvmsgOp_submitted (hmulti sizeofSockaddrStorage)
  exact alloc_lost_iff hpool (fun o ho => hrest o ho _) hown ((Books.refl _).submitted hsub)
    (accepted_iff .multishotRecvmsg (.inr (.inr rfl)) _ op)

/-! ## The calls -/

theorem fallible_givesBack (api : Ssl σ) (f : Fallible σ) {own : Option OpId}
    (hheld : f.HeldBy ctx own) : f.GivesBack api ctx own ↔ f.Safe ctx := by
  obtain ⟨hown, howner⟩ := hheld
  have hout := fun o ho => (hown o ho).1
  cases f with
  | dtlsEncryptAndSendUdp conn data =>
      exact ⟨fun _ => trivial,
        fun _ hret => (dtlsEncryptAndSendUdp_untouched conn data hret).samePools hout⟩
  | dtlsDecryptAndWriteTun conn tunFd encrypted encryptedLen =>
      exact ⟨fun _ => trivial, fun _ hret =>
        (dtlsDecryptAndWriteTun_untouched conn tunFd encrypted encryptedLen hret).samePools hout⟩
  | tunToUdp conn op =>
      subst howner
      obtain ⟨hpool, hloaded⟩ := hown op rfl
      exact ⟨fun _ => trivial, fun _ hret => tunToUdp_samePools conn hpool hloaded hret⟩
  | udpToTun tunFd op =>
      subst howner
      obtain ⟨hpool, hloaded⟩ := hown op rfl
      exact ⟨fun _ => trivial, fun _ hret => udpToTun_samePools tunFd hpool hloaded hret⟩
  | iouringResubmitRecv op => exact resubmitRecv_givesBack op hout
  | iouringSubmitMultishotRecvmsg fd => exact multishot_givesBack fd hout
  | iouringInitialUdpRecvs fd => exact multishot_givesBack fd hout

theorem initialRecvs_givesBack (n : Nat) {ret : Int}
    (hres : IouringCtx.initialRecvs IouringCtx.iouringSubmitTunRead .tunRead fd n ctx = (ret, ctx'))
    (hret : ret ≠ 0) : ∃ k mid, k < n ∧
      IouringCtx.initialRecvs IouringCtx.iouringSubmitTunRead .tunRead fd k ctx = (0, mid) ∧
        SamePools mid ctx' := by
  induction n generalizing ctx with
  | zero =>
      obtain ⟨rfl, -⟩ := Prod.mk.inj hres
      exact absurd rfl hret
  | succ n ih =>
      simp only [IouringCtx.initialRecvs] at hres
      rcases ha : ctx.ioOpAlloc .tunRead fd false with ⟨_ | op, ctx1⟩
      · rw [ha] at hres
        obtain ⟨k, mid, hk, hrun, hsame⟩ := ih hres
        refine ⟨k + 1, mid, by omega, ?_, hsame⟩
        simp only [IouringCtx.initialRecvs, ha, hrun]
      simp only [ha] at hres
      rcases hsub : ctx1.iouringSubmitTunRead op with ⟨ret', ctx2⟩
      simp only [hsub] at hres
      split at hres
      · obtain ⟨-, rfl⟩ := Prod.mk.inj hres
        obtain ⟨ops, b, bufs, -, -, hctx1⟩ := ioOpAlloc_single_eq ha
        have hop : ctx1.ops op = pooledOp .tunRead fd b := by
          rw [hctx1]
          simp
        have hb := (recv_books hop).1 rfl
        rw [hsub] at hb
        exact ⟨0, ctx, by omega, rfl, SamePools.of_eq (alloc_free ha hb).pools⟩
      · rename_i hpos
        obtain ⟨k, mid, hk, hrun, hsame⟩ := ih hres
        refine ⟨k + 1, mid, by omega, ?_, hsame⟩
        simp only [IouringCtx.initialRecvs, ha, hsub, if_neg hpos, hrun]

end Dataplane.Proofs
