import Dataplane.Proofs.Specs
import Dataplane.ProofSupport.Ledger
import Mathlib.Tactic.Abel

/-!
# The ownership invariant

Ops, pool items and ring indices are accounted for by three ledgers over the
pools, the requests of the ring, and what the program holds between two waits:
`held` are ops that no request refers to, and `taken` are ring indices that the
program has got with a completion and not yet handed on.
-/

namespace Dataplane.Proofs

open ProofSupport Model Ledger

/-! ## What ops own -/

def items (o : IoOp) : Multiset BufId :=
  match o.bufAddr with
  | some b => {b}
  | none => 0

/-- The ring index a single-shot op owns through `buf_idx`.  A multishot op only
names the index of its last completion. -/
def slots (o : IoOp) : Multiset Nat :=
  if o.isMulti = false ∧ 0 ≤ o.bufIdx then {o.bufIdx.toNat} else 0

structure Pooled (o : IoOp) (b : BufId) : Prop where
  single : o.isMulti = false
  bufAddr : o.bufAddr = some b
  bufIdx : o.bufIdx = -1
  buffer : o.buffer = some (.buf b)
  addr : o.addr = some (.addr b)

structure Slotted (o : IoOp) (i off : Nat) : Prop where
  single : o.isMulti = false
  bufAddr : o.bufAddr = none
  bufIdx : o.bufIdx = i
  buffer : o.buffer = some (.slot i off)

structure Multi (o : IoOp) : Prop where
  multi : o.isMulti = true
  bufAddr : o.bufAddr = none
  msgName : o.msg.msgName = none
  msgNamelen : o.msg.msgNamelen = sizeofSockaddrStorage
  msgControllen : o.msg.msgControllen = 0

theorem Pooled.items {o : IoOp} {b : BufId} (h : Pooled o b) : items o = {b} := by
  simp [Proofs.items, h.bufAddr]

theorem Pooled.slots {o : IoOp} {b : BufId} (h : Pooled o b) : slots o = 0 := by
  simp [Proofs.slots, h.bufIdx]

theorem Slotted.items {o : IoOp} {i off : Nat} (h : Slotted o i off) : items o = 0 := by
  simp [Proofs.items, h.bufAddr]

theorem Slotted.slots {o : IoOp} {i off : Nat} (h : Slotted o i off) : slots o = {i} := by
  simp [Proofs.slots, h.single, h.bufIdx]

theorem Multi.items {o : IoOp} (h : Multi o) : items o = 0 := by
  simp [Proofs.items, h.bufAddr]

theorem Multi.slots {o : IoOp} (h : Multi o) : slots o = 0 := by
  simp [Proofs.slots, h.multi]

/-! ## Requests and their ops -/

end Dataplane.Proofs

namespace Dataplane.Model

def Opcode.opType : Opcode → OpType
  | .read => .tunRead
  | .write => .tunWrite
  | .recvmsg | .recvmsgMultishot => .udpRecv
  | .sendmsg => .udpSend

/-- No completion of the same request follows. -/
def Cqe.last (c : Cqe) : Bool := !c.flags.more

namespace IoUring

def posted (ring : IoUring) : Multiset OpId :=
  (ring.active.map Sqe.userData : Multiset OpId) +
    ((ring.cq.filter Cqe.last).map fun c => c.req.userData : Multiset OpId)

/-- The ops that requests refer to: those in flight, and those whose last
completion has not been taken. -/
def requests (ring : IoUring) : Multiset OpId :=
  ring.posted + (ring.sq.map Sqe.userData : Multiset OpId)

def selected (ring : IoUring) : Multiset Nat :=
  ((ring.cq.filter fun c => c.flags.buffer).map fun c => c.flags.bid : Multiset Nat)

end IoUring

end Dataplane.Model

namespace Dataplane.Proofs

open ProofSupport Model Ledger

/-- Where the data of a request is: a multishot receive has none of its own,
other requests use the buffer of their op. -/
inductive Place (o : IoOp) (r : Sqe) : Prop
  | multi : r.opcode = .recvmsgMultishot → Multi o → Place o r
  | pooled (b : BufId) : r.opcode ≠ .recvmsgMultishot → Pooled o b → r.buffer = some (.buf b) →
      (r.msgName = none ∨ r.msgName = some (.addr b)) → Place o r
  | slotted (i off : Nat) : r.opcode = .write → Slotted o i off → r.buffer = some (.slot i off) →
      r.msgName = none → Place o r

/-- The request `r` fits its op. -/
structure ReqOk (o : IoOp) (r : Sqe) : Prop where
  opType : o.opType = r.opcode.opType
  fd : o.fd = r.fd
  place : Place o r
  addrLen : r.opcode = .recvmsg → 0 < o.addrLen

/-- What an outgoing request is to carry still stands in memory. -/
def Intact (ctx : IouringCtx) (r : Sqe) : Prop :=
  r.opcode.outgoing = true →
    ctx.load r.buffer r.len = r.data ∧ ctx.load r.msgName r.msgNamelen = r.name

/-- The completion `c` fits its request, and what the kernel put into memory
still stands there. -/
structure CqeOk (ctx : IouringCtx) (c : Cqe) : Prop where
  req : ReqOk (ctx.ops c.req.userData) c.req
  single : c.req.opcode ≠ .recvmsgMultishot → c.flags.buffer = false ∧ c.flags.more = false ∧
    ctx.load c.req.buffer c.data.length = c.data
  multi : c.req.opcode = .recvmsgMultishot → c.flags.buffer = false → c.res < 0
  slot : c.flags.buffer = true → (ctx.brBufs c.flags.bid).take c.data.length = c.data

/-! ## The ledgers -/

structure Inv (ctx : IouringCtx) (held : Multiset OpId) (taken : Multiset Nat) : Prop where
  opLedger : (ctx.ioOpPool : Multiset OpId) + (held + ctx.ring.requests) =
    Multiset.range ctx.config.nIoOps
  itemLedger : (ctx.bufAddrPool : Multiset BufId) +
    owned (fun op => items (ctx.ops op)) (held + ctx.ring.requests) =
      Multiset.range ctx.config.nIoOps
  slotLedger : (ctx.br : Multiset Nat) + (ctx.ring.selected + (taken +
    owned (fun op => slots (ctx.ops op)) (held + ctx.ring.requests))) =
      Multiset.range ctx.config.brNBufs
  inflight : ∀ r ∈ ctx.ring.inflight, ReqOk (ctx.ops r.userData) r ∧ Intact ctx r
  cq : ∀ c ∈ ctx.ring.cq, c.req.userData ∈ ctx.ring.posted ∧ CqeOk ctx c
  order : ctx.ring.cq.Pairwise fun c c' => c.last = true → c'.req.userData ≠ c.req.userData
  asserts : ctx.asserts = true

/-! ## What the ledgers say -/

section Ledgers

variable {ctx : IouringCtx} {held : Multiset OpId} {taken : Multiset Nat}

theorem Inv.nodup (h : Inv ctx held taken) : (held + ctx.ring.requests).Nodup := by
  have hnd := Multiset.nodup_range ctx.config.nIoOps
  rw [← h.opLedger] at hnd
  exact (Multiset.nodup_add.mp hnd).2.1

theorem Inv.not_mem_pool (h : Inv ctx held taken) {op : OpId}
    (hop : op ∈ held + ctx.ring.requests) : op ∉ ctx.ioOpPool := by
  intro hpool
  exact not_mem_right_of_stock (Multiset.nodup_range _) h.opLedger
    (Multiset.mem_coe.mpr hpool) hop

theorem Inv.not_mem_requests (h : Inv ctx held taken) {op : OpId} (hop : op ∈ held) :
    op ∉ ctx.ring.requests :=
  fun hreq => Multiset.disjoint_left.mp (Multiset.nodup_add.mp h.nodup).2.2 hop hreq

theorem Inv.items_nodup (h : Inv ctx held taken) :
    (owned (fun op => items (ctx.ops op)) (held + ctx.ring.requests)).Nodup := by
  have hnd := Multiset.nodup_range ctx.config.nIoOps
  rw [← h.itemLedger] at hnd
  exact (Multiset.nodup_add.mp hnd).2.1

theorem requests_eq (ring : IoUring) : ring.requests =
    ((ring.inflight).map Sqe.userData : Multiset OpId) +
      ((ring.cq.filter Cqe.last).map fun c => c.req.userData : Multiset OpId) := by
  rw [IoUring.requests, IoUring.posted, IoUring.inflight, List.map_append, ← Multiset.coe_add]
  abel

theorem mem_requests_of_inflight {ring : IoUring} {r : Sqe} (hr : r ∈ ring.inflight) :
    r.userData ∈ ring.requests := by
  rw [requests_eq]
  exact Multiset.mem_add.mpr (Or.inl (Multiset.mem_coe.mpr (List.mem_map_of_mem hr)))

theorem mem_requests_of_posted {ring : IoUring} {op : OpId} (hop : op ∈ ring.posted) :
    op ∈ ring.requests :=
  Multiset.mem_add.mpr (Or.inl hop)

theorem Inv.item_owner (h : Inv ctx held taken) {op op' : OpId} {b : BufId}
    (hop : op ∈ held + ctx.ring.requests) (hop' : op' ∈ held + ctx.ring.requests)
    (hb : b ∈ items (ctx.ops op)) (hb' : b ∈ items (ctx.ops op')) : op = op' :=
  eq_of_nodup_owned h.items_nodup hop hop' hb hb'

theorem Inv.item_held (h : Inv ctx held taken) {op op' : OpId} {b : BufId} (hop : op ∈ held)
    (hb : b ∈ items (ctx.ops op)) (hop' : op' ∈ ctx.ring.requests) :
    b ∉ items (ctx.ops op') := by
  intro hb'
  have heq := h.item_owner (Multiset.mem_add.mpr (Or.inl hop))
    (Multiset.mem_add.mpr (Or.inr hop')) hb hb'
  subst heq
  exact h.not_mem_requests hop hop'

end Ledgers

/-! ## Steps of the program -/

section Program

variable {ctx ctx' : IouringCtx} {held : Multiset OpId} {taken : Multiset Nat}

/-- The invariant does not see the answers of the kernel to come, the histories
and the current packet. -/
theorem Inv.of_eq (h : Inv ctx held taken) (hactive : ctx'.ring.active = ctx.ring.active)
    (hsq : ctx'.ring.sq = ctx.ring.sq) (hcq : ctx'.ring.cq = ctx.ring.cq)
    (hpool : ctx'.ioOpPool = ctx.ioOpPool)
    (hitems : ctx'.bufAddrPool = ctx.bufAddrPool) (hbr : ctx'.br = ctx.br)
    (hops : ctx'.ops = ctx.ops) (hbufs : ctx'.bufs = ctx.bufs)
    (hbrBufs : ctx'.brBufs = ctx.brBufs) (hasserts : ctx'.asserts = ctx.asserts)
    (hconfig : ctx'.config = ctx.config) : Inv ctx' held taken := by
  have hload : ∀ p n, ctx'.load p n = ctx.load p n := by
    intro p n
    rcases p with _ | _ | _ | _ <;> simp [IouringCtx.load, hbufs, hbrBufs]
  have hposted : ctx'.ring.posted = ctx.ring.posted := by simp only [IoUring.posted, hactive, hcq]
  have hreqs : ctx'.ring.requests =
    ctx.ring.requests := by simp only [IoUring.requests, hposted, hsq]
  refine ⟨?_, ?_, ?_, ?_, ?_, ?_, ?_⟩
  · rw [hpool, hreqs, hconfig]; exact h.opLedger
  · rw [hitems, hreqs, hconfig, hops]; exact h.itemLedger
  · rw [hbr, hreqs, hconfig, hops, IoUring.selected, hcq]; exact h.slotLedger
  · simpa only [IoUring.inflight, hactive, hsq, hops, Intact, hload] using h.inflight
  · intro c hc
    rw [hcq] at hc
    obtain ⟨hmem, hok⟩ := h.cq c hc
    refine ⟨hposted ▸ hmem, hops ▸ hok.req, ?_, hok.multi, hbrBufs ▸ hok.slot⟩
    simpa only [hload] using hok.single
  · rw [hcq]; exact h.order
  · rw [hasserts]; exact h.asserts

theorem Inv.sqeFree (h : Inv ctx held taken) (f : Nat → Bool) :
    Inv { ctx with ring := { ctx.ring with sqeFree := f } } held taken :=
  h.of_eq rfl rfl rfl rfl rfl rfl rfl rfl rfl rfl rfl

/-- Ops may change in what the ledgers and the requests do not speak of. -/
theorem Inv.setOps (h : Inv ctx held taken) {ops : OpId → IoOp}
    (hitems : ∀ op ∈ held + ctx.ring.requests, items (ops op) = items (ctx.ops op))
    (hslots : ∀ op ∈ held + ctx.ring.requests, slots (ops op) = slots (ctx.ops op))
    (hreq : ∀ r : Sqe, r.userData ∈ ctx.ring.requests →
      ReqOk (ctx.ops r.userData) r → ReqOk (ops r.userData) r) :
    Inv { ctx with ops := ops } held taken where
  opLedger := h.opLedger
  itemLedger := by
    have heq := owned_congr hitems
    simpa only [heq] using h.itemLedger
  slotLedger := by
    have heq := owned_congr hslots
    simpa only [heq] using h.slotLedger
  inflight := by
    intro r hr
    obtain ⟨hok, hintact⟩ := h.inflight r hr
    exact ⟨hreq r (mem_requests_of_inflight hr) hok, hintact⟩
  cq := by
    intro c hc
    obtain ⟨hmem, hok⟩ := h.cq c hc
    exact ⟨hmem, hreq c.req (mem_requests_of_posted hmem) hok.req, hok.single, hok.multi, hok.slot⟩
  order := h.order
  asserts := h.asserts

theorem Inv.modOp (h : Inv ctx held taken) {op : OpId} (f : IoOp → IoOp) (hop : op ∈ held)
    (hitems : items (f (ctx.ops op)) = items (ctx.ops op))
    (hslots : slots (f (ctx.ops op)) = slots (ctx.ops op)) :
    Inv (ctx.modOp op f) held taken := by
  refine h.setOps ?_ ?_ ?_
  · intro o _
    by_cases ho : o = op
    · subst ho; simpa using hitems
    · simp [ho]
  · intro o _
    by_cases ho : o = op
    · subst ho; simpa using hslots
    · simp [ho]
  · intro r hr hok
    have hne : r.userData ≠ op := fun heq => h.not_mem_requests hop (heq ▸ hr)
    simpa [hne] using hok

theorem Inv.modOp_multi (h : Inv ctx held taken) {op : OpId} (f : IoOp → IoOp)
    (hmulti : Multi (ctx.ops op)) (hmulti' : Multi (f (ctx.ops op)))
    (htype : (f (ctx.ops op)).opType = (ctx.ops op).opType)
    (hfd : (f (ctx.ops op)).fd = (ctx.ops op).fd) : Inv (ctx.modOp op f) held taken := by
  refine h.setOps ?_ ?_ ?_
  · intro o _
    by_cases ho : o = op
    · subst ho; simp [hmulti.items, hmulti'.items]
    · simp [ho]
  · intro o _
    by_cases ho : o = op
    · subst ho; simp [hmulti.slots, hmulti'.slots]
    · simp [ho]
  · intro r hr hok
    by_cases ho : r.userData = op
    · have hcode : r.opcode = .recvmsgMultishot := by
        cases hok.place with
        | multi hcode _ => exact hcode
        | pooled b _ hp _ _ => exact absurd hp.single (by rw [ho, hmulti.multi]; decide)
        | slotted i off _ hs _ _ => exact absurd hs.single (by rw [ho, hmulti.multi]; decide)
      subst ho
      simp only [Function.update_self]
      exact ⟨htype.trans hok.opType, hfd.trans hok.fd, .multi hcode hmulti', by simp [hcode]⟩
    · simpa [ho] using hok

theorem Inv.setItem (h : Inv ctx held taken) {b : BufId} (item : BufAddr)
    (hreq : ∀ r ∈ ctx.ring.inflight, r.opcode.outgoing = true →
      b ∉ items (ctx.ops r.userData))
    (hcq : ∀ c ∈ ctx.ring.cq, b ∉ items (ctx.ops c.req.userData)) :
    Inv { ctx with bufs := Function.update ctx.bufs b item } held taken where
  opLedger := h.opLedger
  itemLedger := h.itemLedger
  slotLedger := h.slotLedger
  inflight := by
    intro r hr
    obtain ⟨hok, hintact⟩ := h.inflight r hr
    refine ⟨hok, fun hout => ?_⟩
    have hb := hreq r hr hout
    have hkeep := hintact hout
    cases hok.place with
    | multi hcode _ => rw [hcode] at hout; simp [Opcode.outgoing] at hout
    | pooled b' _ hp hbuf hname =>
        have hne : b' ≠ b := by
          rintro rfl
          exact hb (by rw [hp.items]; exact Multiset.mem_singleton_self b')
        rcases hname with hname | hname <;>
          simpa [hbuf, hname, IouringCtx.load, hne] using hkeep
    | slotted i off _ _ hbuf hname => simpa [hbuf, hname, IouringCtx.load] using hkeep
  cq := by
    intro c hc
    obtain ⟨hmem, hok⟩ := h.cq c hc
    have hb := hcq c hc
    refine ⟨hmem, hok.req, fun hcode => ?_, hok.multi, hok.slot⟩
    obtain ⟨hbuffer, hmore, hdata⟩ := hok.single hcode
    refine ⟨hbuffer, hmore, ?_⟩
    cases hok.req.place with
    | multi hcode' _ => exact absurd hcode' hcode
    | pooled b' _ hp hbuf _ =>
        have hne : b' ≠ b := by
          rintro rfl
          exact hb (by rw [hp.items]; exact Multiset.mem_singleton_self b')
        simpa [hbuf, IouringCtx.load, hne] using hdata
    | slotted i off _ _ hbuf _ => simpa [hbuf, IouringCtx.load] using hdata
  order := h.order
  asserts := h.asserts

theorem Inv.store_buf (h : Inv ctx held taken) {op : OpId} {b : BufId} (hop : op ∈ held)
    (hb : b ∈ items (ctx.ops op)) (bytes : Bytes) :
    Inv (ctx.store (some (.buf b)) bytes) held taken :=
  h.setItem _ (fun _ hr _ => h.item_held hop hb (mem_requests_of_inflight hr))
    (fun c hc => h.item_held hop hb (mem_requests_of_posted (h.cq c hc).1))

theorem Inv.store_addr (h : Inv ctx held taken) {op : OpId} {b : BufId} (hop : op ∈ held)
    (hb : b ∈ items (ctx.ops op)) (bytes : Bytes) :
    Inv (ctx.store (some (.addr b)) bytes) held taken :=
  h.setItem _ (fun _ hr _ => h.item_held hop hb (mem_requests_of_inflight hr))
    (fun c hc => h.item_held hop hb (mem_requests_of_posted (h.cq c hc).1))

/-- What the program holds may move between the pools and the held ops, and the
held ops may change, as long as the books balance. -/
theorem Inv.rearrange (h : Inv ctx held taken) {pool : List OpId} {bufs : List BufId}
    {br : List Nat} {ops : OpId → IoOp} {held' : Multiset OpId} {taken' : Multiset Nat}
    (hsame : ∀ op ∈ ctx.ring.requests, ops op = ctx.ops op)
    (hpool : (pool : Multiset OpId) + held' = ctx.ioOpPool + held)
    (hitems : (bufs : Multiset BufId) + owned (fun op => items (ops op)) held' =
      ctx.bufAddrPool + owned (fun op => items (ctx.ops op)) held)
    (hslots : (br : Multiset Nat) + (taken' + owned (fun op => slots (ops op)) held') =
      ctx.br + (taken + owned (fun op => slots (ctx.ops op)) held)) :
    Inv { ctx with ioOpPool := pool, bufAddrPool := bufs, br := br, ops := ops } held' taken' where
  opLedger := by
    rw [← h.opLedger, ← add_assoc, ← add_assoc, hpool]
  itemLedger := by
    have hreq : owned (fun op => items (ops op)) (ctx.ring.requests) =
        owned (fun op => items (ctx.ops op)) (ctx.ring.requests) :=
      owned_congr fun op hop => by rw [hsame op hop]
    rw [← h.itemLedger, owned_add, owned_add, ← add_assoc, ← add_assoc, hitems, hreq]
  slotLedger := by
    have hreq : owned (fun op => slots (ops op)) (ctx.ring.requests) =
        owned (fun op => slots (ctx.ops op)) (ctx.ring.requests) :=
      owned_congr fun op hop => by rw [hsame op hop]
    rw [← h.slotLedger, owned_add, owned_add, hreq]
    calc (br : Multiset Nat) + (ctx.ring.selected + (taken' + (owned _ held' + _)))
        = (↑br + (taken' + owned (fun op => slots (ops op)) held')) + (ctx.ring.selected +
            owned (fun op => slots (ctx.ops op)) (ctx.ring.requests)) := by abel
      _ = ↑ctx.br + (ctx.ring.selected + (taken + (owned _ held + _))) := by rw [hslots]; abel
  inflight := by
    intro r hr
    obtain ⟨hok, hintact⟩ := h.inflight r hr
    exact ⟨by simpa only [hsame _ (mem_requests_of_inflight hr)] using hok, hintact⟩
  cq := by
    intro c hc
    obtain ⟨hmem, hok⟩ := h.cq c hc
    have hsame' := hsame _ (mem_requests_of_posted hmem)
    exact ⟨hmem, by simpa only [hsame'] using hok.req, hok.single, hok.multi, hok.slot⟩
  order := h.order
  asserts := h.asserts

theorem Inv.head_not_mem (h : Inv ctx held taken) {op : OpId} {ops : List OpId}
    (hpool : ctx.ioOpPool = op :: ops) : op ∉ held + ctx.ring.requests := by
  intro hop
  exact h.not_mem_pool hop (by rw [hpool]; exact List.mem_cons_self)

theorem Inv.ioOpAlloc_single (h : Inv ctx held taken) {opType : OpType} {fd : Int} {op : OpId}
    (ha : ctx.ioOpAlloc opType fd false = (some op, ctx')) : Inv ctx' ({op} + held) taken := by
  obtain ⟨ops, b, bufs, hpool, hbuf, rfl⟩ := ioOpAlloc_single_eq ha
  have hfresh := h.head_not_mem hpool
  simp only [Multiset.mem_add, not_or] at hfresh
  have hp : Pooled (pooledOp opType fd b) b := ⟨rfl, rfl, rfl, rfl, rfl⟩
  refine h.rearrange ?_ ?_ ?_ ?_
  · intro o ho
    rw [Function.update_of_ne]
    rintro rfl
    exact hfresh.2 ho
  · rw [hpool, ← Multiset.cons_coe, ← Multiset.singleton_add]; abel
  · rw [hbuf, ← Multiset.cons_coe, ← Multiset.singleton_add, owned_add, owned_singleton,
      owned_update_of_notMem _ hfresh.1, Function.update_self, hp.items]
    abel
  · rw [owned_add, owned_singleton, owned_update_of_notMem _ hfresh.1, Function.update_self,
      hp.slots, zero_add]

theorem Inv.ioOpAlloc_multi (h : Inv ctx held taken) {opType : OpType} {fd : Int} {op : OpId}
    (ha : ctx.ioOpAlloc opType fd true = (some op, ctx')) : Inv ctx' ({op} + held) taken := by
  obtain ⟨ops, hpool, rfl⟩ := ioOpAlloc_multi_eq ha
  have hfresh := h.head_not_mem hpool
  simp only [Multiset.mem_add, not_or] at hfresh
  refine h.rearrange ?_ ?_ ?_ ?_
  · intro o ho
    rw [Function.update_of_ne]
    rintro rfl
    exact hfresh.2 ho
  · rw [hpool, ← Multiset.cons_coe, ← Multiset.singleton_add]; abel
  · rw [owned_add, owned_singleton, owned_update_of_notMem _ hfresh.1, Function.update_self]
    simp [items, freshOp, IoOp.zero]
  · rw [owned_add, owned_singleton, owned_update_of_notMem _ hfresh.1, Function.update_self]
    simp [slots, freshOp, IoOp.zero]

theorem Inv.ioOpAlloc_none (h : Inv ctx held taken) {opType : OpType} {fd : Int} {isMulti : Bool}
    (ha : ctx.ioOpAlloc opType fd isMulti = (none, ctx')) : Inv ctx' held taken := by
  obtain ⟨ops, rfl, hsame⟩ := ioOpAlloc_none_eq ha
  refine h.setOps ?_ ?_ ?_
  · intro op hop; rw [hsame op (h.not_mem_pool hop)]
  · intro op hop; rw [hsame op (h.not_mem_pool hop)]
  · intro r hr hok
    rwa [hsame _ (h.not_mem_pool (Multiset.mem_add.mpr (Or.inr hr)))]

theorem Inv.ioOpAllocBuf_single (h : Inv ctx held taken) {opType : OpType} {fd : Int}
    {op owner : OpId} {b : BufId} (howner : owner ∈ held) (hp : Pooled (ctx.ops owner) b)
    (ha : ctx.ioOpAllocBuf opType fd false (some owner) = (some op, ctx')) :
    Inv ctx' ({op} + held) taken := by
  have hmem : owner ∈ held + ctx.ring.requests := Multiset.mem_add.mpr (Or.inl howner)
  obtain ⟨ops, hpool, rfl⟩ :=
    ioOpAllocBuf_single_eq hp.single (h.not_mem_pool hmem) ha
  have hfresh := h.head_not_mem hpool
  simp only [Multiset.mem_add, not_or] at hfresh
  have hne : op ≠ owner := by
    rintro rfl
    exact hfresh.1 howner
  obtain ⟨rest, rfl⟩ : ∃ rest, held = {owner} + rest :=
    ⟨held.erase owner, by rw [Multiset.singleton_add, Multiset.cons_erase howner]⟩
  have hnd := (Multiset.nodup_add.mp h.nodup).1
  have hrest : owner ∉ rest := by
    rw [Multiset.singleton_add] at hnd
    exact (Multiset.nodup_cons.mp hnd).1
  have hoprest : op ∉ rest := fun hm => hfresh.1 (Multiset.mem_add.mpr (Or.inr hm))
  refine h.rearrange ?_ ?_ ?_ ?_
  · intro o ho
    have hop : o ≠ op := by rintro rfl; exact hfresh.2 ho
    have hown : o ≠ owner := by rintro rfl; exact h.not_mem_requests howner ho
    simp [takeOp, hop, hown]
  · rw [hpool, ← Multiset.cons_coe, ← Multiset.singleton_add]
    simp only [takeOp]
    abel
  · simp only [takeOp]
    rw [owned_add, owned_add, owned_add, owned_singleton, owned_singleton, owned_singleton,
      Function.update_of_ne hne, Function.update_self, Function.update_self,
      owned_update_of_notMem _ hrest, owned_update_of_notMem _ hoprest, hp.items]
    simp only [items, itemHeir, hp.bufAddr]
    abel
  · simp only [takeOp]
    rw [owned_add, owned_add, owned_add, owned_singleton, owned_singleton, owned_singleton,
      Function.update_of_ne hne, Function.update_self, Function.update_self,
      owned_update_of_notMem _ hrest, owned_update_of_notMem _ hoprest, hp.slots,
      Function.update_of_ne hne.symm]
    simp [slots, hp.bufIdx, itemHeir, freshOp]

theorem Inv.ioOpAllocBuf_multi {i : Nat} (h : Inv ctx held ({i} + taken)) {opType : OpType}
    {fd : Int} {op owner : OpId} (hout : owner ∉ ctx.ioOpPool)
    (hm : Multi (ctx.ops owner)) (hidx : (ctx.ops owner).bufIdx = i)
    (ha : ctx.ioOpAllocBuf opType fd false (some owner) = (some op, ctx')) :
    Inv ctx' ({op} + held) taken := by
  obtain ⟨ops, hpool, rfl⟩ := ioOpAllocBuf_multi_eq hm.multi hout ha
  have hfresh := h.head_not_mem hpool
  simp only [Multiset.mem_add, not_or] at hfresh
  have hne : owner ≠ op := by
    rintro rfl
    exact hout (by rw [hpool]; exact List.mem_cons_self)
  have hmid : Inv (takeOp ctx op ops (slotHeir opType fd (ctx.ops owner))) ({op} + held) taken := by
    refine h.rearrange ?_ ?_ ?_ ?_
    · intro o ho
      rw [Function.update_of_ne]
      rintro rfl
      exact hfresh.2 ho
    · rw [hpool, ← Multiset.cons_coe, ← Multiset.singleton_add]; abel
    · rw [owned_add, owned_singleton, owned_update_of_notMem _ hfresh.1, Function.update_self]
      simp [items, slotHeir, freshOp, IoOp.zero]
    · rw [owned_add, owned_singleton, owned_update_of_notMem _ hfresh.1, Function.update_self]
      have hslot : slots (slotHeir opType fd (ctx.ops owner)) = {i} := by
        simp [slots, slotHeir, freshOp, hidx]
      rw [hslot]
      abel
  have hself : (takeOp ctx op ops (slotHeir opType fd (ctx.ops owner))).ops owner =
      ctx.ops owner := Function.update_of_ne hne _ _
  refine hmid.modOp_multi _ ?_ ?_ rfl rfl
  · rw [hself]; exact hm
  · rw [hself]; exact ⟨hm.1, hm.2, hm.3, hm.4, hm.5⟩

theorem Effect.posted_le {rs : List Sqe} (heff : Effect ctx ctx' rs) {op : OpId}
    (hop : op ∈ ctx.ring.posted) : op ∈ ctx'.ring.posted := by
  obtain ⟨more, hmore⟩ := heff.active
  rw [IoUring.posted, heff.cq, ← hmore, List.map_append, ← Multiset.coe_add]
  rcases Multiset.mem_add.mp hop with hop | hop
  · exact Multiset.mem_add.mpr (Or.inl (Multiset.mem_add.mpr (Or.inl hop)))
  · exact Multiset.mem_add.mpr (Or.inr hop)

/-- A held op whose request has been queued is referred to by the ring. -/
theorem Inv.enqueue {op : OpId} (h : Inv ctx ({op} + held) taken) {r : Sqe}
    (hrest : RingOnly ctx ctx') (heff : Effect ctx ctx' [r]) (huser : r.userData = op)
    (hok : ReqOk (ctx.ops op) r) (hintact : Intact ctx r) : Inv ctx' held taken := by
  have hreqs : ctx'.ring.requests = {op} + ctx.ring.requests := by
    simp only [requests_eq, heff.inflight, heff.cq, List.map_append, List.map_cons,
      List.map_nil, ← Multiset.coe_add, Multiset.coe_singleton, huser]
    abel
  have hmove : held + ctx'.ring.requests = {op} + held + ctx.ring.requests := by
    rw [hreqs]; abel
  rw [RingOnly] at hrest
  generalize ctx'.ring = ring at *
  subst hrest
  have hcq : ring.cq = ctx.ring.cq := heff.cq
  refine ⟨?_, ?_, ?_, ?_, ?_, ?_, h.asserts⟩
  · simpa only [hmove] using h.opLedger
  · simpa only [hmove] using h.itemLedger
  · simpa only [hmove, IoUring.selected, hcq] using h.slotLedger
  · intro r' hr'
    rw [heff.inflight] at hr'
    rcases List.mem_append.mp hr' with hr' | hr'
    · exact h.inflight r' hr'
    · rw [List.mem_singleton.mp hr']
      exact ⟨huser ▸ hok, hintact⟩
  · intro c hc
    simp only [hcq] at hc
    obtain ⟨hmem, hcok⟩ := h.cq c hc
    refine ⟨heff.posted_le hmem, hcok.req, hcok.single, hcok.multi, hcok.slot⟩
  · simpa only [hcq] using h.order

inductive Freeable (o : IoOp) (op : OpId) : Multiset OpId → Multiset Nat → Prop
  | pooled (b : BufId) : Pooled o b → Freeable o op {op} 0
  | bare : o.isMulti = false → o.bufAddr = none → o.bufIdx < 0 → Freeable o op {op} 0
  | slotted (i off : Nat) : Slotted o i off → Freeable o op {op} 0
  | multi (i : Nat) : Multi o → o.bufIdx = i → Freeable o op 0 {i}
  | doNotFree : o.isMulti = true → o.bufIdx = doNotFree → Freeable o op 0 0

theorem Inv.ioOpFree {op : OpId} {ops : Multiset OpId} {idx : Multiset Nat}
    (h : Inv ctx (ops + held) (idx + taken)) (hf : Freeable (ctx.ops op) op ops idx) :
    Inv (ctx.ioOpFree op).2 held taken := by
  cases hf with
  | pooled b hp =>
      rw [ioOpFree_pooled hp.single hp.bufAddr hp.bufIdx]
      refine h.rearrange (fun _ _ => rfl) ?_ ?_ ?_
      · rw [← Multiset.cons_coe, ← Multiset.singleton_add]; abel
      · rw [← Multiset.cons_coe, ← Multiset.singleton_add, owned_add, owned_singleton, hp.items]
        abel
      · rw [owned_add, owned_singleton, hp.slots, zero_add, zero_add]
  | bare hsingle haddr hidx =>
      rw [ioOpFree_bare hsingle haddr hidx]
      refine h.rearrange (fun _ _ => rfl) ?_ ?_ ?_
      · rw [← Multiset.cons_coe, ← Multiset.singleton_add]; abel
      · rw [owned_add, owned_singleton]
        simp [items, haddr]
      · have hneg : ¬ 0 ≤ (ctx.ops op).bufIdx := by omega
        rw [owned_add, owned_singleton]
        simp [slots, hneg]
  | slotted i off hs =>
      rw [ioOpFree_slotted hs.single hs.bufAddr hs.bufIdx]
      have hreq :=
        h.not_mem_requests (Multiset.mem_add.mpr (Or.inl (Multiset.mem_singleton_self op)))
      have hheld : op ∉ held := by
        have hnd := (Multiset.nodup_add.mp h.nodup).1
        rw [Multiset.singleton_add] at hnd
        exact (Multiset.nodup_cons.mp hnd).1
      refine h.rearrange ?_ ?_ ?_ ?_
      · intro o ho
        rw [Function.update_of_ne]
        rintro rfl
        exact hreq ho
      · rw [← Multiset.cons_coe, ← Multiset.singleton_add]; abel
      · rw [owned_add, owned_singleton, owned_update_of_notMem _ hheld, hs.items, zero_add]
      · rw [owned_add, owned_singleton, owned_update_of_notMem _ hheld, hs.slots,
          ← Multiset.coe_add, Multiset.coe_singleton]
        abel
  | multi i hm hidx =>
      rw [ioOpFree_multi hm.multi hm.bufAddr hidx]
      have hmid : Inv { ctx with br := ctx.br ++ [i] } held taken := by
        refine h.rearrange (fun _ _ => rfl) ?_ ?_ ?_
        · rw [zero_add]
        · rw [zero_add]
        · rw [← Multiset.coe_add, Multiset.coe_singleton, zero_add]; abel
      exact hmid.modOp_multi (fun o => { o with bufIdx := -1 }) hm
        ⟨hm.1, hm.2, hm.3, hm.4, hm.5⟩ rfl rfl
  | doNotFree hmulti hidx =>
      rw [ioOpFree_doNotFree hmulti hidx]
      simpa only [zero_add] using h

/-! ### After a failure

A submission that fails leaves its entry in the submission queue, where nobody
will submit it any more, and the op goes back to the pool.  From then on the
ledgers hold for the ring without its submission queue, and some ops are lost. -/

def dropSq (ctx : IouringCtx) : IouringCtx := { ctx with ring := { ctx.ring with sq := [] } }

/-- The program holds `held` and `taken`, and some ops are lost. -/
def Leaky (ctx : IouringCtx) (held : Multiset OpId) (taken : Multiset Nat) : Prop :=
  ∃ lost, Inv (dropSq ctx) (held + lost) taken

theorem Inv.leaky (h : Inv ctx held taken) : Leaky ctx held taken := by
  refine ⟨(ctx.ring.sq.map Sqe.userData : Multiset OpId), ?_⟩
  have hmove : held + (ctx.ring.sq.map Sqe.userData : Multiset OpId) +
      (dropSq ctx).ring.requests = held + ctx.ring.requests := by
    simp only [IoUring.requests, IoUring.posted, dropSq, List.map_nil, Multiset.coe_nil]
    abel
  refine ⟨?_, ?_, ?_, ?_, ?_, h.order, h.asserts⟩
  · rw [hmove]; exact h.opLedger
  · rw [hmove]; exact h.itemLedger
  · rw [hmove]; exact h.slotLedger
  · intro r hr
    refine h.inflight r ?_
    simp only [IoUring.inflight, dropSq, List.append_nil] at hr
    exact List.mem_append_left _ hr
  · intro c hc
    obtain ⟨hmem, hok⟩ := h.cq c hc
    exact ⟨hmem, hok.req, hok.single, hok.multi, hok.slot⟩

/-- A submission that failed after its entry was filled. -/
theorem Inv.failed (h : Inv ctx held taken) {r : Sqe} (hrest : RingOnly ctx ctx')
    (heff : Effect ctx ctx' [r]) (hactive : ctx'.ring.active = ctx.ring.active) :
    Leaky ctx' held taken := by
  obtain ⟨lost, hlost⟩ := h.leaky
  rw [RingOnly] at hrest
  generalize ctx'.ring = ring at *
  subst hrest
  exact ⟨lost, hlost.of_eq hactive rfl heff.cq rfl rfl rfl rfl rfl rfl rfl rfl⟩

theorem dropSq_ioOpFree (ctx : IouringCtx) (op : OpId) :
    dropSq (ctx.ioOpFree op).2 = ((dropSq ctx).ioOpFree op).2 := by
  have hops : (dropSq ctx).ops = ctx.ops := rfl
  unfold IouringCtx.ioOpFree
  rw [hops]
  dsimp only
  repeat' split
  all_goals rfl

theorem Leaky.ioOpFree {op : OpId} {ops : Multiset OpId} {idx : Multiset Nat}
    (h : Leaky ctx (ops + held) (idx + taken)) (hf : Freeable (ctx.ops op) op ops idx) :
    Leaky (ctx.ioOpFree op).2 held taken := by
  obtain ⟨lost, h⟩ := h
  rw [add_assoc] at h
  exact ⟨lost, dropSq_ioOpFree ctx op ▸ h.ioOpFree hf⟩

end Program

end Dataplane.Proofs
