import Dataplane.Proofs.Loops

/-!
# Everything has exactly one owner

The ownership invariant in terms of the data structures: which ops are in the
pool or referred to by a request, who owns the pool items, and where the
indices of the buffer ring are.
-/

namespace Dataplane.Proofs

open ProofSupport Model Ledger

/-- How many requests refer to `op`: requests that the kernel has or is going to
get, and requests whose last completion has not been taken. -/
def references (ring : IoUring) (op : OpId) : Nat :=
  ring.inflight.countP (fun r => r.userData == op) +
    ring.cq.countP fun c => c.last && c.req.userData == op

/-- The ops outside the pool that own the item `b` through `buf_addr`. -/
def itemOwners (ctx : IouringCtx) (b : BufId) : List OpId :=
  (List.range ctx.config.nIoOps).filter fun op =>
    decide (op ∉ ctx.ioOpPool ∧ (ctx.ops op).bufAddr = some b)

/-- The TUN writes in flight that own the ring index `i` through `buf_idx`. -/
def slotWriters (ctx : IouringCtx) (i : Nat) : List OpId :=
  (List.range ctx.config.nIoOps).filter fun op =>
    decide (0 < references ctx.ring op ∧ (ctx.ops op).opType = .tunWrite ∧
      (ctx.ops op).bufIdx = i)

/-- Ops, pool items and ring indices are in exactly one place each. -/
structure OwnedOnce (ctx : IouringCtx) : Prop where
  op : ∀ op < ctx.config.nIoOps, ctx.ioOpPool.count op + references ctx.ring op = 1
  item : ∀ b < ctx.config.nIoOps, ctx.bufAddrPool.count b + (itemOwners ctx b).length = 1
  slot : ∀ i < ctx.config.brNBufs, ctx.br.count i +
    ctx.ring.cq.countP (fun c => c.flags.buffer && c.flags.bid == i) +
    (slotWriters ctx i).length = 1

variable {ctx : IouringCtx}

theorem count_requests (ring : IoUring) (op : OpId) :
    ring.requests.count op = references ring op := by
  rw [requests_eq, Multiset.count_add, references]
  simp only [Multiset.coe_count, List.count, List.countP_map, List.countP_filter,
    Function.comp_def]
  congr 2
  funext c
  rw [Bool.and_comm]

theorem count_selected (ring : IoUring) (i : Nat) :
    ring.selected.count i = ring.cq.countP fun c => c.flags.buffer && c.flags.bid == i := by
  rw [IoUring.selected]
  simp only [Multiset.coe_count, List.count, List.countP_map, List.countP_filter,
    Function.comp_def]
  congr 1
  funext c
  rw [Bool.and_comm]

theorem mem_items (o : IoOp) (b : BufId) : b ∈ items o ↔ o.bufAddr = some b := by
  cases h : o.bufAddr <;> simp [items, h, eq_comm]

theorem nodup_items (o : IoOp) : (items o).Nodup := by
  unfold items
  split <;> simp

theorem nodup_slots (o : IoOp) : (slots o).Nodup := by
  unfold slots
  split <;> simp

/-- Counting the ops that satisfy `P` among the requests, when no op of the pool
satisfies it. -/
theorem Inv.countP_requests (h : Inv ctx 0 0) {P : OpId → Bool}
    (hpool : ∀ op ∈ ctx.ioOpPool, P op = false) :
    ((List.range ctx.config.nIoOps).filter P).length = ctx.ring.requests.countP fun op => P op := by
  have hsplit := congrArg (Multiset.countP fun op => P op = true) h.opLedger
  rw [Multiset.countP_add, zero_add, Multiset.range, Multiset.coe_countP, Multiset.coe_countP,
    List.countP_eq_zero.mpr (by simpa using hpool), zero_add] at hsplit
  rw [hsplit, List.countP_eq_length_filter]
  simp

theorem Inv.reqOk_of_mem (h : Inv ctx 0 0) {op : OpId} (hop : op ∈ ctx.ring.requests) :
    ∃ r : Sqe, r.userData = op ∧ ReqOk (ctx.ops op) r := by
  rw [requests_eq, Multiset.mem_add, Multiset.mem_coe, Multiset.mem_coe] at hop
  rcases hop with hop | hop
  · obtain ⟨r, hr, rfl⟩ := List.mem_map.mp hop
    exact ⟨r, rfl, (h.inflight r hr).1⟩
  · obtain ⟨c, hc, rfl⟩ := List.mem_map.mp hop
    exact ⟨c.req, rfl, (h.cq c (List.mem_filter.mp hc).1).2.req⟩

theorem ReqOk.mem_slots {o : IoOp} {r : Sqe} (h : ReqOk o r) (i : Nat) :
    i ∈ slots o ↔ o.opType = .tunWrite ∧ o.bufIdx = i := by
  cases h.place with
  | multi hcode hm =>
      rw [hm.slots, h.opType, hcode]
      simp [Opcode.opType]
  | pooled b _ hp _ _ =>
      rw [hp.slots, hp.bufIdx]
      simp
  | slotted j off hw hs _ _ =>
      rw [hs.slots, h.opType, hw, hs.bufIdx]
      simp [Opcode.opType, eq_comm]

/-- The ledgers say that everything has one owner. -/
theorem Inv.ownedOnce (h : Inv ctx 0 0) : OwnedOnce ctx where
  op := by
    intro op hop
    have hcount := count_add_of_range h.opLedger hop
    rwa [zero_add, Multiset.coe_count, count_requests] at hcount
  item := by
    intro b hb
    have hcount := count_add_of_range h.itemLedger hb
    rw [zero_add, count_owned (fun op => nodup_items _), Multiset.coe_count] at hcount
    rw [itemOwners, h.countP_requests (by simp +contextual)]
    rw [← hcount]
    congr 1
    refine Multiset.countP_congr rfl fun op hop => ?_
    have hout := h.not_mem_pool (Multiset.mem_add.mpr (Or.inr hop))
    simp only [hout, not_false_eq_true, true_and, decide_eq_true_eq, mem_items]
  slot := by
    intro i hi
    have hcount := count_add_of_range h.slotLedger hi
    rw [zero_add, Multiset.count_add, count_selected, zero_add,
      count_owned (fun op => nodup_slots _), Multiset.coe_count] at hcount
    have hpool : ∀ op ∈ ctx.ioOpPool, references ctx.ring op = 0 := by
      intro op hop
      rw [← count_requests]
      refine Multiset.count_eq_zero.mpr fun hreq => ?_
      exact h.not_mem_pool (Multiset.mem_add.mpr (Or.inr hreq)) hop
    rw [slotWriters, h.countP_requests (by
      intro op hop
      simp [hpool op hop]), ← hcount, add_assoc]
    congr 2
    refine Multiset.countP_congr rfl fun op hop => ?_
    obtain ⟨r, -, hok⟩ := h.reqOk_of_mem hop
    have hpos : 0 < references ctx.ring op := by
      rw [← count_requests]; exact Multiset.count_pos.mpr hop
    simp [hpos, hok.mem_slots i]

/-- After any run of any of the loops from the state that `iouring_init` and the
initial submissions leave, no assertion has failed, and as long as there was no
error every op, pool item and ring index has exactly one owner. -/
theorem loops_ownedOnce {σ : Type} (api : Ssl σ) (config : IouringConfig) (sqeFree : Nat → Bool)
    (submits : Nat → Int) (prog : Program σ) (running : Bool) {ctx : IouringCtx}
    (hstart : initialSubmissions (IouringCtx.iouringInit config sqeFree submits) prog = some ctx)
    (es : List LoopEvent) :
    ((LoopState.start ctx prog running).run api es).uring.asserts = true ∧
      (((LoopState.start ctx prog running).run api es).status.ok = true →
        OwnedOnce ((LoopState.start ctx prog running).run api es).uring) := by
  obtain ⟨-, -, -, hinv⟩ := (inv_iouringInit config sqeFree submits).initialSubmissions hstart
  have hrun : LoopInv ((LoopState.start ctx prog running).run api es) :=
    (loopInv_start hinv prog running).run es
  obtain ⟨held, taken, hstopped⟩ := hrun.stopped
  exact ⟨hstopped.asserts, fun hok => (hrun.ok hok).ownedOnce⟩

/-! ## A run -/

def smallConfig : IouringConfig where
  sqDepth := 8
  cqDepth := 8
  brGid := 1
  brNBufs := 2
  nIoOps := 4
  nInitialRecvOps := 0
  nInitialReadOps := 1

/-- An SSL object that passes bytes through. -/
def plainSsl : Ssl Unit where
  doHandshake := fun _ rbio => ⟨1, .none, [], rbio, [], ()⟩
  read := fun _ rbio n =>
    if rbio = [] then ⟨-1, .wantRead, [], [], [], ()⟩
    else ⟨(rbio.take n).length, .none, rbio.take n, rbio.drop n, [], ()⟩
  write := fun _ rbio data => ⟨data.length, .none, [], rbio, data, ()⟩

def smallConn : Connection Unit := ⟨3, .client, (), [], [], [127, 0, 0, 1], 4, .established⟩

def smallRun : List LoopEvent :=
  [.kernel (.complete 1 3 [1, 2, 3] [] 0), .wake,
    .kernel (.recv 0 1 147 (recvmsgOut 128 [10, 0, 0, 1] (List.replicate 124 0) [4, 5, 6]) true 1),
    .wake]

/-- The run goes on without an error and everything has one owner. -/
theorem loops_ownedOnce_small : ∃ ctx,
    initialSubmissions (IouringCtx.iouringInit smallConfig (fun _ => true) (fun _ => 1))
      (.tunUdpRunZero smallConn 5) = some ctx ∧
    ((LoopState.start ctx (.tunUdpRunZero smallConn 5) true).run plainSsl smallRun).status.ok =
      true ∧
    OwnedOnce
      ((LoopState.start ctx (.tunUdpRunZero smallConn 5) true).run plainSsl smallRun).uring :=
  ⟨_, rfl, rfl, (loops_ownedOnce plainSsl smallConfig (fun _ => true) (fun _ => 1)
    (.tunUdpRunZero smallConn 5) true rfl smallRun).2 rfl⟩

end Dataplane.Proofs
