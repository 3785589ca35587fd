import Dataplane.Proofs.Invariant
import Mathlib.Logic.Relation

/-!
# How far the pools go

The calls of `io_op_alloc`, `io_op_alloc_buf` and `io_op_free` that the program
makes are those on ops that are out of the pool.  Whatever their order, a free
op finds a free buffer.
-/

namespace Dataplane.Model

def IouringCtx.Live (ctx : IouringCtx) (n : Nat) (op : OpId) : Prop :=
  op < n ∧ op ∉ ctx.ioOpPool

def IouringCtx.liveOps (ctx : IouringCtx) (n : Nat) : Nat :=
  (List.range n).countP fun op => decide (op ∉ ctx.ioOpPool)

/-- `io_op_alloc_buf` gets to "Failed to allocate I/O buffer". -/
def IouringCtx.BufferMissing (ctx : IouringCtx) (isMulti : Bool) (bufOwner : Option OpId) : Prop :=
  ∃ op mid, ctx.iouringGetIoOp = (some op, mid) ∧ isMulti = false ∧ bufOwner = none ∧
    mid.iouringGetBufAddr.1 = none

/-- What an allocation can count on. -/
structure PoolCapacity (n : Nat) (ctx : IouringCtx) : Prop where
  enough : ctx.ioOpPool.length ≤ ctx.bufAddrPool.length
  null : ∀ opType fd isMulti bufOwner,
    (ctx.ioOpAllocBuf opType fd isMulti bufOwner).1 = none ↔ ctx.liveOps n = n
  buffer : ∀ isMulti bufOwner, ¬ ctx.BufferMissing isMulti bufOwner
  failed : ∀ opType fd isMulti bufOwner, (ctx.ioOpAllocBuf opType fd isMulti bufOwner).1 = none →
    (ctx.ioOpAllocBuf opType fd isMulti bufOwner).2 = ctx

end Dataplane.Model

namespace Dataplane.Proofs

open ProofSupport Model Ledger

variable {n : Nat} {ctx ctx' : IouringCtx} {op : OpId}
  {live : Multiset OpId} {opType : OpType} {fd : Int} {isMulti : Bool}

/-! ## Calls -/

/-- What happens between two calls: nothing is taken or given back, and ops keep
their kind and their buffers. -/
structure Between (ctx ctx' : IouringCtx) : Prop where
  config : ctx'.config = ctx.config
  ioOpPool : ctx'.ioOpPool = ctx.ioOpPool
  bufAddrPool : ctx'.bufAddrPool = ctx.bufAddrPool
  ops : ∀ op, (ctx'.ops op).isMulti = (ctx.ops op).isMulti ∧
    (ctx'.ops op).bufAddr = (ctx.ops op).bufAddr

/-- A call, with an owner or an op to free that is out of the pool, or what
happens between two calls. -/
inductive PoolCall (n : Nat) (ctx : IouringCtx) : IouringCtx → Prop
  | ioOpAlloc (opType : OpType) (fd : Int) (isMulti : Bool) :
      PoolCall n ctx (ctx.ioOpAlloc opType fd isMulti).2
  | ioOpAllocBuf (opType : OpType) (fd : Int) (isMulti : Bool) (bufOwner : OpId) :
      ctx.Live n bufOwner → PoolCall n ctx (ctx.ioOpAllocBuf opType fd isMulti (some bufOwner)).2
  | ioOpFree (op : OpId) : ctx.Live n op → PoolCall n ctx (ctx.ioOpFree op).2
  | between {ctx' : IouringCtx} : Between ctx ctx' → PoolCall n ctx ctx'

/-- The calls made on the way from `ctx` to `ctx'`. -/
def PoolCalls (n : Nat) : IouringCtx → IouringCtx → Prop := Relation.ReflTransGen (PoolCall n)

/-! ## The ledger -/

/-- Each op is in the pool or live, each buffer in the pool or with one live op,
which is no multishot op. -/
structure Stocked (n : Nat) (ctx : IouringCtx) (live : Multiset OpId) : Prop where
  size : ctx.config.nIoOps = n
  ops : (ctx.ioOpPool : Multiset OpId) + live = Multiset.range n
  bufs : (ctx.bufAddrPool : Multiset BufId) + owned (fun op => items (ctx.ops op)) live =
    Multiset.range n
  multi : ∀ op ∈ live, (ctx.ops op).isMulti = true → (ctx.ops op).bufAddr = none

theorem Stocked.mem_live (h : Stocked n ctx live) (hop : ctx.Live n op) : op ∈ live := by
  have hmem : op ∈ (ctx.ioOpPool : Multiset OpId) + live := by
    rw [h.ops]
    exact Multiset.mem_range.mpr hop.1
  exact (Multiset.mem_add.mp hmem).resolve_left fun hpool => hop.2 (Multiset.mem_coe.mp hpool)

theorem Stocked.live_of_mem (h : Stocked n ctx live) (hop : op ∈ live) : ctx.Live n op := by
  constructor
  · apply Multiset.mem_range.mp
    rw [← h.ops]
    exact Multiset.mem_add.mpr (.inr hop)
  · intro hpool
    exact not_mem_right_of_stock (Multiset.nodup_range n) h.ops (Multiset.mem_coe.mpr hpool) hop

theorem Stocked.nodup (h : Stocked n ctx live) : live.Nodup := by
  have hnd := Multiset.nodup_range n
  rw [← h.ops] at hnd
  exact (Multiset.nodup_add.mp hnd).2.1

theorem Stocked.between (h : Stocked n ctx live) (hb : Between ctx ctx') : Stocked n ctx' live := by
  have hitems : ∀ op, items (ctx'.ops op) = items (ctx.ops op) := by
    intro op
    rw [items, items, (hb.ops op).2]
  refine ⟨by rw [hb.config]; exact h.size, by rw [hb.ioOpPool]; exact h.ops, ?_,
    fun op hop hmulti => ?_⟩
  · rw [hb.bufAddrPool, owned_congr fun op _ => hitems op]
    exact h.bufs
  · rw [(hb.ops op).2]
    exact h.multi op hop ((hb.ops op).1 ▸ hmulti)

theorem Stocked.take (h : Stocked n ctx live) {ops : List OpId} {bufs : List BufId} {o : IoOp}
    (hpool : ctx.ioOpPool = op :: ops)
    (hbufs : (bufs : Multiset BufId) + items o = ctx.bufAddrPool)
    (hmulti : o.isMulti = true → o.bufAddr = none) :
    Stocked n { ctx with
      ioOpPool := ops
      bufAddrPool := bufs
      ops := Function.update ctx.ops op o } (op ::ₘ live) := by
  have hfresh : op ∉ live := by
    apply not_mem_right_of_stock (Multiset.nodup_range n) h.ops
    rw [hpool]
    exact Multiset.mem_coe.mpr List.mem_cons_self
  refine ⟨h.size, ?_, ?_, fun o' ho' hm => ?_⟩
  · rw [← h.ops, hpool, ← Multiset.cons_coe, Multiset.add_cons, Multiset.cons_add]
  · rw [owned_cons, owned_update_of_notMem _ hfresh]
    simp only [Function.update_self]
    rw [← add_assoc, hbufs]
    exact h.bufs
  · by_cases hne : o' = op
    · subst hne
      simp only [Function.update_self] at hm ⊢
      exact hmulti hm
    · simp only [Function.update_of_ne hne] at hm ⊢
      exact h.multi o' ((Multiset.mem_cons.mp ho').resolve_left hne) hm

theorem card_items_le (o : IoOp) : (items o).card ≤ 1 := by
  unfold items
  split <;> simp

/-- A free op finds a free buffer. -/
theorem Stocked.enough (h : Stocked n ctx live) :
    ctx.ioOpPool.length ≤ ctx.bufAddrPool.length := by
  have hops := congrArg Multiset.card h.ops
  have hbufs := congrArg Multiset.card h.bufs
  have howned := card_owned_le (fun op => card_items_le (ctx.ops op)) live
  simp only [Multiset.card_add, Multiset.coe_card, Multiset.card_range] at hops hbufs
  omega

theorem Stocked.pool_lt (h : Stocked n ctx live) (hop : op ∈ ctx.ioOpPool) : op < n := by
  apply Multiset.mem_range.mp
  rw [← h.ops]
  exact Multiset.mem_add.mpr (.inl (Multiset.mem_coe.mpr hop))

theorem Stocked.liveOps_eq_iff (h : Stocked n ctx live) : ctx.liveOps n = n ↔
    ctx.ioOpPool = [] := by
  have hall : ctx.liveOps n = n ↔ ∀ op ∈ List.range n, op ∉ ctx.ioOpPool := by
    have hcount :=
      List.countP_eq_length (p := fun op => decide (op ∉ ctx.ioOpPool)) (l := List.range n)
    rw [List.length_range] at hcount
    simpa [IouringCtx.liveOps] using hcount
  rw [hall, List.eq_nil_iff_forall_not_mem]
  constructor
  · intro hout op hop
    exact hout op (List.mem_range.mpr (h.pool_lt hop)) hop
  · intro hout op _
    exact hout op

/-! ## Allocating -/

theorem ioOpAllocBuf_multi_owner (ctx : IouringCtx) (opType : OpType) (fd : Int)
    (bufOwner : Option OpId) :
    ctx.ioOpAllocBuf opType fd true bufOwner = ctx.ioOpAlloc opType fd true := by
  unfold IouringCtx.ioOpAlloc IouringCtx.ioOpAllocBuf
  cases ctx.ioOpPool <;> simp

theorem ioOpAllocBuf_some {b : BufId} {ops : List OpId} {bufs : List BufId}
    (hpool : ctx.ioOpPool = op :: ops) (hbufs : ctx.bufAddrPool = b :: bufs) (opType : OpType)
    (fd : Int) (isMulti : Bool) (bufOwner : Option OpId) :
    (ctx.ioOpAllocBuf opType fd isMulti bufOwner).1 = some op := by
  simp only [IouringCtx.ioOpAllocBuf, IouringCtx.iouringGetIoOp, hpool,
    IouringCtx.iouringGetBufAddr, modOp_bufAddrPool, hbufs]
  cases isMulti with
  | true => rfl
  | false =>
      cases bufOwner with
      | none => rfl
      | some owner =>
          simp only [Bool.false_eq_true, if_false]
          split <;> rfl

theorem Stocked.capacity (h : Stocked n ctx live) : PoolCapacity n ctx := by
  have hnull : ∀ opType fd isMulti bufOwner,
      (ctx.ioOpAllocBuf opType fd isMulti bufOwner).1 = none ↔ ctx.ioOpPool = [] := by
    intro opType fd isMulti bufOwner
    have henough := h.enough
    cases hpool : ctx.ioOpPool with
    | nil => simp [ioOpAllocBuf_empty hpool]
    | cons op ops =>
        cases hbufs : ctx.bufAddrPool with
        | nil =>
            rw [hpool, hbufs] at henough
            simp at henough
        | cons b bufs => simp [ioOpAllocBuf_some hpool hbufs]
  refine ⟨h.enough, fun _ _ _ _ => (hnull ..).trans h.liveOps_eq_iff.symm, ?_, ?_⟩
  · rintro isMulti bufOwner ⟨op, mid, hget, -, -, hmissing⟩
    have henough := h.enough
    unfold IouringCtx.iouringGetIoOp at hget
    unfold IouringCtx.iouringGetBufAddr at hmissing
    cases hpool : ctx.ioOpPool with
    | nil => simp [hpool] at hget
    | cons o ops =>
        rw [hpool] at hget henough
        obtain ⟨-, rfl⟩ := Prod.mk.inj hget
        cases hbufs : ctx.bufAddrPool with
        | nil =>
            rw [hbufs] at henough
            simp at henough
        | cons b bufs => simp [IouringCtx.modOp, hbufs] at hmissing
  · intro opType fd isMulti bufOwner hnone
    rw [ioOpAllocBuf_empty ((hnull ..).mp hnone)]

theorem Between.modOp (ctx : IouringCtx) (op : OpId) {f : IoOp → IoOp}
    (hf : ∀ o, (f o).isMulti = o.isMulti ∧ (f o).bufAddr = o.bufAddr) :
    Between ctx (ctx.modOp op f) where
  config := rfl
  ioOpPool := rfl
  bufAddrPool := rfl
  ops o := by
    by_cases ho : o = op
    · subst ho
      rw [modOp_self]
      exact hf _
    · rw [modOp_of_ne ctx op f ho]
      exact ⟨rfl, rfl⟩

theorem Stocked.takeOver (h : Stocked n ctx live) {ops : List OpId} {owner : OpId}
    (hpool : ctx.ioOpPool = op :: ops) (howner : owner ∈ live) :
    Stocked n ((takeOp ctx op ops (itemHeir opType fd (ctx.ops owner))).modOp owner
      fun o => { o with bufAddr := none }) (op ::ₘ live) := by
  have hfresh : op ∉ live := by
    apply not_mem_right_of_stock (Multiset.nodup_range n) h.ops
    rw [hpool]
    exact Multiset.mem_coe.mpr List.mem_cons_self
  have hne : op ≠ owner := fun heq => hfresh (heq ▸ howner)
  obtain ⟨rest, rfl⟩ := Multiset.exists_cons_of_mem howner
  have hrest : owner ∉ rest := (Multiset.nodup_cons.mp h.nodup).1
  have hop : op ∉ rest := fun hmem => hfresh (Multiset.mem_cons.mpr (.inr hmem))
  have hheir : items (itemHeir opType fd (ctx.ops owner)) = items (ctx.ops owner) := rfl
  refine ⟨h.size, ?_, ?_, fun o ho hm => ?_⟩
  · rw [← h.ops, hpool, ← Multiset.cons_coe, Multiset.add_cons, Multiset.cons_add]
    rfl
  · rw [← h.bufs]
    simp only [takeOp, IouringCtx.modOp]
    rw [owned_cons, owned_cons, owned_update_of_notMem _ hrest, owned_update_of_notMem _ hop,
      Function.update_of_ne hne, Function.update_self, Function.update_self, hheir, owned_cons]
    show _ + (_ + (0 + _)) = _
    rw [zero_add]
  · by_cases howned : o = owner
    · subst howned
      rw [modOp_self]
    · rw [modOp_of_ne _ _ _ howned] at hm ⊢
      by_cases hself : o = op
      · subst hself
        simp only [takeOp, Function.update_self] at hm
        exact absurd hm (by simp [itemHeir, freshOp])
      · simp only [takeOp, Function.update_of_ne hself] at hm ⊢
        exact h.multi o ((Multiset.mem_cons.mp ho).resolve_left hself) hm

inductive Allocated (n : Nat) (ctx : IouringCtx) (live : Multiset OpId) :
    Option OpId × IouringCtx → Prop
  | none : Allocated n ctx live (none, ctx)
  | some {ctx' : IouringCtx} (op : OpId) : ctx.ioOpPool = op :: ctx'.ioOpPool →
      Stocked n ctx' (op ::ₘ live) → Allocated n ctx live (some op, ctx')

theorem Stocked.ioOpAlloc (h : Stocked n ctx live) (opType : OpType) (fd : Int) (isMulti : Bool) :
    Allocated n ctx live (ctx.ioOpAlloc opType fd isMulti) := by
  rcases ha : ctx.ioOpAlloc opType fd isMulti with ⟨_ | op, ctx'⟩
  · have hsame := h.capacity.failed opType fd isMulti none (congrArg Prod.fst ha)
    rw [show ctx.ioOpAllocBuf opType fd isMulti none = (none, ctx') from ha] at hsame
    obtain rfl : ctx' = ctx := hsame
    exact .none
  cases isMulti with
  | true =>
      obtain ⟨ops, hpool, rfl⟩ := ioOpAlloc_multi_eq ha
      refine .some op hpool ?_
      exact h.take hpool (by simp [items, freshOp, IoOp.zero]) fun _ => rfl
  | false =>
      obtain ⟨ops, b, bufs, hpool, hbufs, rfl⟩ := ioOpAlloc_single_eq ha
      refine .some op hpool ?_
      refine h.take hpool ?_ fun hm => absurd hm (by simp [pooledOp, freshOp])
      rw [hbufs, ← Multiset.cons_coe, add_comm]
      rfl

theorem Stocked.ioOpAllocBuf (h : Stocked n ctx live) (opType : OpType) (fd : Int) (isMulti : Bool)
    {bufOwner : OpId} (howner : ctx.Live n bufOwner) :
    Allocated n ctx live (ctx.ioOpAllocBuf opType fd isMulti (some bufOwner)) := by
  cases isMulti with
  | true =>
      rw [ioOpAllocBuf_multi_owner]
      exact h.ioOpAlloc opType fd true
  | false =>
      rcases ha : ctx.ioOpAllocBuf opType fd false (some bufOwner) with ⟨_ | op, ctx'⟩
      · obtain rfl := ioOpAllocBuf_none_eq ha
        exact .none
      cases hmulti : (ctx.ops bufOwner).isMulti with
      | false =>
          obtain ⟨ops, hpool, rfl⟩ := ioOpAllocBuf_single_eq hmulti howner.2 ha
          exact .some op hpool (h.takeOver hpool (h.mem_live howner))
      | true =>
          obtain ⟨ops, hpool, rfl⟩ := ioOpAllocBuf_multi_eq hmulti howner.2 ha
          refine .some op hpool ?_
          have htaken : Stocked n (takeOp ctx op ops (slotHeir opType fd (ctx.ops bufOwner)))
              (op ::ₘ live) :=
            h.take hpool (by simp [items, slotHeir, freshOp, IoOp.zero]) fun _ => rfl
          exact htaken.between (Between.modOp _ _ fun _ => ⟨rfl, rfl⟩)

/-! ## Freeing -/

theorem Between.recycle (ctx : IouringCtx) (op : OpId) :
    Between ctx (ctx.iouringRecycleBuffer op) := by
  have hmod := Between.modOp ctx op (f := fun o => { o with bufIdx := -1 }) fun _ => ⟨rfl, rfl⟩
  exact ⟨rfl, rfl, rfl, hmod.ops⟩

theorem Stocked.put (h : Stocked n ctx (op ::ₘ live)) (hconfig : ctx'.config = ctx.config)
    (hpool : ctx'.ioOpPool = op :: ctx.ioOpPool)
    (hbufs : (ctx'.bufAddrPool : Multiset BufId) = ctx.bufAddrPool + items (ctx.ops op))
    (hops : ∀ o, (ctx'.ops o).isMulti = (ctx.ops o).isMulti ∧
      (ctx'.ops o).bufAddr = (ctx.ops o).bufAddr) : Stocked n ctx' live where
  size := by rw [hconfig]; exact h.size
  ops := by rw [← h.ops, hpool, ← Multiset.cons_coe, Multiset.add_cons, Multiset.cons_add]
  bufs := by
    have hitems : ∀ o, items (ctx'.ops o) = items (ctx.ops o) := by
      intro o
      rw [items, items, (hops o).2]
    rw [← h.bufs, owned_cons, ← add_assoc, ← hbufs, owned_congr fun o _ => hitems o]
  multi o ho hm := by
    rw [(hops o).2]
    exact h.multi o (Multiset.mem_cons.mpr (.inr ho)) ((hops o).1 ▸ hm)

theorem Stocked.ioOpFree (h : Stocked n ctx (op ::ₘ live)) :
    Stocked n (ctx.ioOpFree op).2 (op ::ₘ live) ∧ (ctx.ioOpFree op).2.ioOpPool = ctx.ioOpPool ∨
      Stocked n (ctx.ioOpFree op).2 live ∧
        (ctx.ioOpFree op).2.ioOpPool = op :: ctx.ioOpPool := by
  have hrecycled := Between.recycle ctx op
  unfold IouringCtx.ioOpFree
  dsimp only
  cases hmulti : (ctx.ops op).isMulti with
  | true =>
      rw [if_pos rfl]
      split
      · exact .inl ⟨h.between hrecycled, rfl⟩
      split
      · have hbare : items (ctx.ops op) = 0 := by
          rw [items, h.multi op (Multiset.mem_cons_self op live) hmulti]
        refine .inr ⟨h.put rfl rfl ?_ fun _ => ⟨rfl, rfl⟩, rfl⟩
        rw [hbare, add_zero]
        rfl
      · exact .inl ⟨h, rfl⟩
  | false =>
      rw [if_neg (by decide)]
      right
      cases haddr : (ctx.ops op).bufAddr with
      | some b =>
          refine ⟨h.put rfl rfl ?_ fun _ => ⟨rfl, rfl⟩, rfl⟩
          rw [items, haddr, add_comm, Multiset.singleton_add]
          rfl
      | none =>
          have hbare : (ctx.bufAddrPool : Multiset BufId) =
              ctx.bufAddrPool + items (ctx.ops op) := by
            rw [items, haddr, add_zero]
          dsimp only
          split
          · exact ⟨h.put rfl rfl hbare hrecycled.ops, rfl⟩
          · exact ⟨h.put rfl rfl hbare fun _ => ⟨rfl, rfl⟩, rfl⟩

/-! ## Sequences of calls -/

theorem stocked_iouringInit (c : IouringConfig) (sqeFree : Nat → Bool) (submits : Nat → Int) :
    Stocked c.nIoOps (IouringCtx.iouringInit c sqeFree submits) 0 where
  size := rfl
  ops := by simp [IouringCtx.iouringInit, Multiset.range]
  bufs := by simp [IouringCtx.iouringInit, Multiset.range]
  multi _ hop := absurd hop (Multiset.notMem_zero _)

theorem Stocked.call (h : Stocked n ctx live) (hcall : PoolCall n ctx ctx') :
    ∃ live', Stocked n ctx' live' := by
  have hallocated : ∀ {out}, Allocated n ctx live out → ∃ live', Stocked n out.2 live' := by
    intro out hout
    cases hout with
    | none => exact ⟨live, h⟩
    | some op _ htaken => exact ⟨_, htaken⟩
  cases hcall with
  | ioOpAlloc opType fd isMulti => exact hallocated (h.ioOpAlloc opType fd isMulti)
  | ioOpAllocBuf opType fd isMulti bufOwner howner =>
      exact hallocated (h.ioOpAllocBuf opType fd isMulti howner)
  | ioOpFree op hop =>
      obtain ⟨rest, rfl⟩ := Multiset.exists_cons_of_mem (h.mem_live hop)
      rcases h.ioOpFree with ⟨hkept, -⟩ | ⟨hput, -⟩
      · exact ⟨_, hkept⟩
      · exact ⟨_, hput⟩
  | between hb => exact ⟨live, h.between hb⟩

theorem Stocked.calls (h : Stocked n ctx live) (hcalls : PoolCalls n ctx ctx') :
    ∃ live', Stocked n ctx' live' := by
  induction hcalls with
  | refl => exact ⟨live, h⟩
  | tail _ hcall ih =>
      obtain ⟨_, hmid⟩ := ih
      exact hmid.call hcall

end Dataplane.Proofs
