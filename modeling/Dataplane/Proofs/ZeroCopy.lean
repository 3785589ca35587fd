import Dataplane.Proofs.Ownership
import Dataplane.Proofs.Turns
import Mathlib.Data.Multiset.AddSub

/-!
# `tun_udp_run_zero` relays every packet in its own buffer

A received packet is not copied: its buffer goes from the op of the receive to
the op of the outgoing request.  The ledgers say that it is nobody else's until
that request is completed.
-/

namespace Dataplane.Proofs

open ProofSupport Model Ledger

end Dataplane.Proofs

namespace Dataplane.Model

/-- A piece of payload memory: an item of the pool or a slot of the buffer ring. -/
inductive Buffer
  | item (b : BufId)
  | slot (i : Nat)
  deriving DecidableEq, Repr

def Ptr.buffer : Ptr → Buffer
  | .buf b | .addr b => .item b
  | .slot i _ => .slot i

def IouringCtx.Free (ctx : IouringCtx) : Buffer → Prop
  | .item b => b ∈ ctx.bufAddrPool
  | .slot i => i ∈ ctx.br

def IoOp.Owns (o : IoOp) : Buffer → Prop
  | .item b => o.bufAddr = some b
  | .slot i => o.isMulti = false ∧ o.bufIdx = i

/-- The kernel writes to the memory when it completes the single-shot receive. -/
def Sqe.Fills (r : Sqe) (buf : Buffer) : Prop :=
  (r.opcode = .read ∨ r.opcode = .recvmsg) ∧
    ∃ p, (r.buffer = some p ∨ r.msgName = some p) ∧ p.buffer = buf

/-- Neither the kernel nor an op other than `op` can write to the memory. -/
structure Reserved (ctx : IouringCtx) (op : OpId) (buf : Buffer) : Prop where
  free : ¬ ctx.Free buf
  kernel : ∀ r ∈ ctx.ring.inflight, ¬ r.Fills buf
  owner : ∀ op' < ctx.config.nIoOps, op' ∉ ctx.ioOpPool → (ctx.ops op').Owns buf → op' = op

def Cqe.place (c : Cqe) : Option Ptr :=
  if c.req.opcode = .recvmsgMultishot then some (.slot c.flags.bid Proofs.slotHeader)
  else c.req.buffer

def Sqe.carried (r : Sqe) : Opcode × Int × ProofSupport.Bytes := (r.opcode, r.fd, r.data)

/-- The request that relays the packet of a completed receive: packets from the
TUN device go to the UDP socket, datagrams to the TUN device. -/
def Cqe.relayed (udpFd tunFd : Int) (c : Cqe) : Opcode × Int × ProofSupport.Bytes :=
  if c.req.opcode = .read then (.sendmsg, udpFd, c.payload) else (.write, tunFd, c.payload)

end Dataplane.Model

namespace Dataplane.Proofs

open ProofSupport Model Ledger

variable {σ : Type} {api : Ssl σ} {ctx : IouringCtx}

/-! ## Reserved memory -/

theorem Inv.mem_requests (h : Inv ctx 0 0) {op : OpId} (hop : op < ctx.config.nIoOps)
    (hout : op ∉ ctx.ioOpPool) : op ∈ ctx.ring.requests := by
  have hmem : op ∈ Multiset.range ctx.config.nIoOps := Multiset.mem_range.mpr hop
  rw [← h.opLedger, zero_add, Multiset.mem_add] at hmem
  exact hmem.resolve_left hout

theorem Inv.mem_requests_cq (h : Inv ctx 0 0) {c : Cqe} (hc : c ∈ ctx.ring.cq) :
    c.req.userData ∈ ctx.ring.requests :=
  mem_requests_of_posted (h.cq c hc).1

theorem Inv.item_reserved (h : Inv ctx 0 0) {op : OpId} {b : BufId}
    (hop : op ∈ ctx.ring.requests) (hp : Pooled (ctx.ops op) b)
    (hout : ∀ r ∈ ctx.ring.inflight, r.opcode = .read ∨ r.opcode = .recvmsg → r.userData ≠ op) :
    Reserved ctx op (.item b) := by
  have hitem : b ∈ items (ctx.ops op) := by
    rw [hp.items]
    exact Multiset.mem_singleton_self b
  have hmem : op ∈ 0 + ctx.ring.requests := by rwa [zero_add]
  refine ⟨?_, ?_, ?_⟩
  · intro hfree
    apply not_mem_right_of_stock (Multiset.nodup_range _) h.itemLedger (Multiset.mem_coe.mpr hfree)
    exact mem_owned.mpr ⟨op, hmem, hitem⟩
  · rintro r hr ⟨hcode, p, hptr, hbuf⟩
    obtain ⟨b', hp', hbuffer⟩ := (h.inflight r hr).1.pooled_of_incoming hcode
    have hname : r.msgName = none ∨ r.msgName = some (.addr b') := by
      cases (h.inflight r hr).1.place with
      | multi hm _ => rcases hcode with hcode | hcode <;> rw [hcode] at hm <;> cases hm
      | slotted _ _ hw _ _ _ => rcases hcode with hcode | hcode <;> rw [hcode] at hw <;> cases hw
      | pooled b'' _ hp'' _ hname =>
          have heq := hp''.bufAddr.symm.trans hp'.bufAddr
          rwa [Option.some.inj heq] at hname
    have heq : b' = b := by
      rcases hptr with hptr | hptr
      · rw [hbuffer] at hptr
        cases hptr
        cases hbuf
        rfl
      · rcases hname with hname | hname <;> rw [hname] at hptr <;> cases hptr
        cases hbuf
        rfl
    subst heq
    apply hout r hr hcode
    apply h.item_owner _ hmem _ hitem
    · rw [zero_add]
      exact mem_requests_of_inflight hr
    · rw [hp'.items]
      exact Multiset.mem_singleton_self b'
  · intro op' hlt hnot howns
    apply h.item_owner _ hmem _ hitem
    · rw [zero_add]
      exact h.mem_requests hlt hnot
    · simp only [IoOp.Owns] at howns
      simp [items, howns]

theorem Inv.not_fills_slot (h : Inv ctx 0 0) {r : Sqe} (hr : r ∈ ctx.ring.inflight) (i : Nat) :
    ¬ r.Fills (.slot i) := by
  rintro ⟨hcode, p, hptr, hbuf⟩
  cases (h.inflight r hr).1.place with
  | multi hm _ => rcases hcode with hcode | hcode <;> rw [hcode] at hm <;> cases hm
  | slotted _ _ hw _ _ _ => rcases hcode with hcode | hcode <;> rw [hcode] at hw <;> cases hw
  | pooled b _ _ hbuffer hname =>
      rcases hptr with hptr | hptr
      · rw [hbuffer] at hptr
        cases hptr
        cases hbuf
      · rcases hname with hname | hname <;> rw [hname] at hptr <;> cases hptr
        cases hbuf

theorem mem_slots_of_owns {o : IoOp} {i : Nat} (h : o.Owns (.slot i)) : i ∈ slots o := by
  obtain ⟨hsingle, hidx⟩ := h
  simp [slots, hsingle, hidx]

theorem Inv.slot_reserved (h : Inv ctx 0 0) {op : OpId} {i : Nat}
    (hop : op ∈ ctx.ring.requests) (hi : i ∈ slots (ctx.ops op)) :
    Reserved ctx op (.slot i) := by
  have hmem : op ∈ 0 + ctx.ring.requests := by rwa [zero_add]
  refine ⟨?_, fun r hr => h.not_fills_slot hr i, ?_⟩
  · intro hfree
    apply not_mem_right_of_stock (Multiset.nodup_range _) h.slotLedger (Multiset.mem_coe.mpr hfree)
    apply Multiset.mem_add.mpr
    right
    rw [zero_add]
    exact mem_owned.mpr ⟨op, hmem, hi⟩
  · intro op' hlt hnot howns
    have hnd := h.slots_nodup
    rw [zero_add] at hnd
    have howned := (Multiset.nodup_add.mp (Multiset.nodup_add.mp hnd).2.1).2.1
    apply eq_of_nodup_owned howned _ hmem (mem_slots_of_owns howns) hi
    rw [zero_add]
    exact h.mem_requests hlt hnot

theorem Inv.selected_reserved (h : Inv ctx 0 0) {c : Cqe} (hc : c ∈ ctx.ring.cq)
    (hbuf : c.flags.buffer = true) : Reserved ctx c.req.userData (.slot c.flags.bid) := by
  have hsel : c.flags.bid ∈ ctx.ring.selected := by
    apply Multiset.mem_coe.mpr
    exact List.mem_map.mpr ⟨c, List.mem_filter.mpr ⟨hc, hbuf⟩, rfl⟩
  refine ⟨?_, fun r hr => h.not_fills_slot hr _, ?_⟩
  · intro hfree
    apply not_mem_right_of_stock (Multiset.nodup_range _) h.slotLedger (Multiset.mem_coe.mpr hfree)
    exact Multiset.mem_add.mpr (.inl hsel)
  · intro op' hlt hnot howns
    exfalso
    have hdisj := (Multiset.nodup_add.mp (Multiset.nodup_add.mp h.slots_nodup).2.1).2.2
    apply Multiset.disjoint_left.mp hdisj hsel
    rw [zero_add, zero_add]
    exact mem_owned.mpr ⟨op', h.mem_requests hlt hnot, mem_slots_of_owns howns⟩

theorem Inv.inflight_ne_last (h : Inv ctx 0 0) {r : Sqe} {c : Cqe} (hr : r ∈ ctx.ring.inflight)
    (hc : c ∈ ctx.ring.cq) (hlast : c.last = true) : r.userData ≠ c.req.userData := by
  have hnd := (Multiset.nodup_add.mp h.nodup).2.1
  rw [requests_eq] at hnd
  intro heq
  apply Multiset.disjoint_left.mp (Multiset.nodup_add.mp hnd).2.2
    (Multiset.mem_coe.mpr (List.mem_map_of_mem hr))
  exact Multiset.mem_coe.mpr (List.mem_map.mpr ⟨c, List.mem_filter.mpr ⟨hc, hlast⟩, heq.symm⟩)

/-- A packet lies in reserved memory from the completion of its receive on. -/
theorem Inv.arrived_reserved (h : Inv ctx 0 0) {c : Cqe} (hc : c ∈ ctx.ring.cq)
    (hin : c.req.opcode.outgoing = false) (hres : 0 ≤ c.res) :
    ∃ p, c.place = some p ∧ Reserved ctx c.req.userData p.buffer ∧
      ctx.load (some p) c.payload.length = c.payload := by
  obtain ⟨-, hok⟩ := h.cq c hc
  by_cases hcode : c.req.opcode = .recvmsgMultishot
  · have hbuf : c.flags.buffer = true := by
      by_contra hbuf
      have hneg := hok.multi hcode (by simpa using hbuf)
      omega
    refine ⟨.slot c.flags.bid slotHeader, if_pos hcode, h.selected_reserved hc hbuf, ?_⟩
    have hslot := hok.slot hbuf
    rw [Cqe.payload, if_pos hcode, IouringCtx.load, List.length_drop]
    calc ((ctx.brBufs c.flags.bid).drop slotHeader).take (c.data.length - slotHeader)
        = ((ctx.brBufs c.flags.bid).take c.data.length).drop slotHeader := by rw [List.drop_take]
      _ = c.data.drop slotHeader := by rw [hslot]
  · have hsingle := Opcode.single_cases hin hcode
    obtain ⟨b, hp, hbuffer⟩ := hok.req.pooled_of_incoming hsingle
    obtain ⟨-, hmore, hdata⟩ := hok.single hcode
    have hlast : c.last = true := by simp [Cqe.last, hmore]
    refine ⟨.buf b, by rw [Cqe.place, if_neg hcode, hbuffer], ?_, ?_⟩
    · apply h.item_reserved (h.mem_requests_cq hc) hp
      intro r hr _
      exact h.inflight_ne_last hr hc hlast
    · rw [Cqe.payload, if_neg hcode, ← hbuffer]
      exact hdata

/-- The packet stays in reserved memory until the outgoing request is
completed. -/
theorem Inv.pending_reserved (h : Inv ctx 0 0) {r : Sqe} (hr : r ∈ ctx.ring.inflight)
    (hout : r.opcode.outgoing = true) :
    ∃ p, r.buffer = some p ∧ Reserved ctx r.userData p.buffer ∧
      ctx.load (some p) r.len = r.data := by
  obtain ⟨hok, hintact⟩ := h.inflight r hr
  have hdata := (hintact hout).1
  have hop := mem_requests_of_inflight hr
  cases hok.place with
  | multi hm _ => rw [hm] at hout; cases hout
  | pooled b _ hp hbuffer _ =>
      refine ⟨.buf b, hbuffer, h.item_reserved hop hp ?_, by rw [← hbuffer]; exact hdata⟩
      intro r' hr' hcode heq
      have htype : r'.opcode.opType = r.opcode.opType := by
        rw [← (h.inflight r' hr').1.opType, heq, hok.opType]
      revert hout htype
      rcases hcode with hcode | hcode <;> rw [hcode] <;> cases r.opcode <;>
        simp [Opcode.outgoing, Opcode.opType]
  | slotted i off _ hs hbuffer _ =>
      refine ⟨.slot i off, hbuffer, h.slot_reserved hop ?_, by rw [← hbuffer]; exact hdata⟩
      rw [hs.slots]
      exact Multiset.mem_singleton_self i

/-! ## The body -/

def ZeroProgram (udpFd tunFd : Int) (prog : Program σ) : Prop :=
  ∃ conn, prog = .tunUdpRunZero conn tunFd ∧ conn.udpFd = udpFd

theorem zero_bodySpec {c : Cqe} (hin : c.req.opcode.outgoing = false) {udpFd tunFd : Int}
    {prog : Program σ} (hprog : ZeroProgram udpFd tunFd prog) :
    BodySpec api prog c (fun r => c.Honest → r.carried = c.relayed udpFd tunFd)
      (ZeroProgram udpFd tunFd) := by
  obtain ⟨conn, rfl, rfl⟩ := hprog
  intro ctx ctx' held got taken idx ret rest prog' hinv hrecv _ hres
  have hcarries : ∀ {r : Sqe} {opcode : Opcode} {fd : Int}, Carries ctx r opcode fd
      (ctx.load (ctx.ops c.req.userData).buffer (ctx.ops c.req.userData).dataLen.toNat) →
      c.Honest → r.carried = (opcode, fd, c.payload) := by
    intro r opcode fd hcar hhonest
    simp only [Sqe.carried, hcar.opcode, hcar.fd, hcar.data, (hrecv.payload hhonest).1]
  have hopType := hrecv.opType
  rcases hrecv.opType_cases hin with htype | htype
  · have hread : c.req.opcode = .read := by
      rw [htype] at hopType
      revert hopType
      cases c.req.opcode <;> simp [Opcode.opType]
    obtain ⟨rs, hprog', hh⟩ := hinv.tunUdpRunZeroBody_read hrecv htype rfl hres
    refine ⟨rs, hh.mono fun r _ hsend hhonest => ?_, fun _ => ⟨conn, hprog', rfl⟩⟩
    rw [hcarries hsend.1 hhonest, Cqe.relayed, if_pos hread]
  · have hread : c.req.opcode ≠ .read := by
      intro hread
      rw [htype, hread] at hopType
      cases hopType
    obtain ⟨rs, hprog', hh⟩ := hinv.tunUdpRunZeroBody_recv hrecv htype rfl hres
    refine ⟨rs, hh.mono fun r _ hcar hhonest => ?_,
      fun _ => ⟨_, hprog', learnAddr_udpFd ctx conn c.req.userData⟩⟩
    rw [hcarries hcar hhonest, Cqe.relayed, if_neg hread]

/-! ## Runs -/

end Dataplane.Proofs

namespace Dataplane.Model

def IoUring.sends (ring : IoUring) : List Sqe := ring.queued.filter fun r => r.opcode.outgoing

def IoUring.receipts (ring : IoUring) : List Cqe :=
  ring.seen.filter fun c => !c.req.opcode.outgoing

/-- The program relays every packet once, in order, out of the memory it was
received into, which nobody writes to until the kernel has sent it. -/
structure ZeroCopy (udpFd tunFd : Int) (ctx : IouringCtx) : Prop where
  relayed : ctx.ring.sends.map Sqe.carried = ctx.ring.receipts.map (Cqe.relayed udpFd tunFd)
  arrived : ∀ c ∈ ctx.ring.cq, c.req.opcode.outgoing = false → 0 ≤ c.res →
    ∃ p, c.place = some p ∧ Reserved ctx c.req.userData p.buffer ∧
      ctx.load (some p) c.payload.length = c.payload
  pending : ∀ r ∈ ctx.ring.inflight, r.opcode.outgoing = true →
    ∃ p, r.buffer = some p ∧ Reserved ctx r.userData p.buffer ∧ ctx.load (some p) r.len = r.data
  sent : ∀ t ∈ ctx.ring.wire, t.data = t.req.data
  once : (ctx.ring.wire.map Transfer.req).Subperm ctx.ring.sends

end Dataplane.Model

namespace Dataplane.Proofs

open ProofSupport Model Ledger

variable {σ : Type} {api : Ssl σ} {ctx : IouringCtx}

/-- The history of a relaying loop that has not failed. -/
structure Relaying (udpFd tunFd : Int) (s : LoopState σ) : Prop where
  prog : ZeroProgram udpFd tunFd s.prog
  relayed : (∀ c ∈ s.uring.ring.receipts, c.Honest) →
    s.uring.ring.sends.map Sqe.carried = s.uring.ring.receipts.map (Cqe.relayed udpFd tunFd)
  sent : ∀ t ∈ s.uring.ring.wire, t.data = t.req.data
  once : (s.uring.ring.wire.map Transfer.req : Multiset Sqe) +
    (s.uring.ring.inflight.filter fun r => r.opcode.outgoing : List Sqe) ≤
      (s.uring.ring.sends : Multiset Sqe)

theorem Relaying.kernel {udpFd tunFd : Int} {s : LoopState σ} (h : Relaying udpFd tunFd s)
    (hinv : Inv s.uring 0 0) (e : KEvent) :
    Relaying udpFd tunFd { s with uring := s.uring.kernel e } := by
  rcases kernel_posted s.uring e with heq | ⟨c, hpost⟩
  · rw [heq]
    exact h
  have hsends : (s.uring.kernel e).ring.sends = s.uring.ring.sends := by
    rw [IoUring.sends, hpost.queued, IoUring.sends]
  have hreceipts : (s.uring.kernel e).ring.receipts = s.uring.ring.receipts := by
    rw [IoUring.receipts, hpost.seen, IoUring.receipts]
  refine ⟨h.prog, ?_, ?_, ?_⟩
  · simp only [hsends, hreceipts]
    exact h.relayed
  · intro t ht
    simp only [hpost.wire] at ht
    rcases List.mem_append.mp ht with ht | ht
    · exact h.sent t ht
    · split at ht
      · rename_i hout
        rw [List.mem_singleton.mp ht]
        exact ((hinv.inflight c.req (List.mem_append_left _ hpost.req)).2 hout.1).1
      · simp at ht
  · refine le_trans ?_ (hsends ▸ h.once)
    simp only [IoUring.inflight, hpost.wire, hpost.active, hpost.sq, List.map_append,
      List.filter_append, ← Multiset.coe_add]
    by_cases hout : c.req.opcode.outgoing = true
    · -- the request leaves the kernel's hands, and is sent unless it failed
      have hperm := (List.perm_cons_erase hpost.req).filter fun r => r.opcode.outgoing
      rw [List.filter_cons_of_pos (by simpa using hout)] at hperm
      simp only [hpost.last hout, Bool.false_eq_true, if_false]
      rw [Multiset.coe_eq_coe.mpr hperm, ← Multiset.cons_coe, ← Multiset.singleton_add, add_assoc,
        add_assoc]
      apply add_le_add_right
      apply add_le_add_left
      split <;> simp
    · rw [if_neg (fun hboth => hout hboth.1), List.map_nil, Multiset.coe_nil, add_zero]
      apply add_le_add_right
      apply add_le_add_left
      apply Multiset.coe_le.mpr
      split
      · exact List.Subperm.refl _
      · exact (List.erase_sublist.filter _).subperm

/-- One turn relays one packet. -/
theorem Relaying.takeCqe {udpFd tunFd : Int} {s : LoopState σ} (h : Relaying udpFd tunFd s)
    (hinv : Inv s.uring 0 0) {c : Cqe} {cq : List Cqe} (hcq : s.uring.ring.cq = c :: cq)
    (hok : (takeCqe api s c cq).status.ok = true) :
    Relaying udpFd tunFd (takeCqe api s c cq) := by
  obtain ⟨ins, outs, htook, hturn⟩ :=
    hinv.turn api hcq fun hin => zero_bodySpec hin h.prog
  generalize Model.takeCqe api s c cq = s' at *
  have hins : ins.filter (fun r => r.opcode.outgoing) = [] := by
    apply List.filter_eq_nil_iff.mpr
    intro r hr
    simp [htook.incoming r hr]
  have hsends : s'.uring.ring.sends =
      s.uring.ring.sends ++ outs.filter fun r => r.opcode.outgoing := by
    simp only [IoUring.sends, htook.queued, List.filter_append, hins, List.nil_append]
  have hreceipts : s'.uring.ring.receipts =
      s.uring.ring.receipts ++ [c].filter fun c => !c.req.opcode.outgoing := by
    simp only [IoUring.receipts, htook.seen, List.filter_append]
  refine ⟨?_, ?_, ?_, ?_⟩
  · cases hout : c.req.opcode.outgoing with
    | true => exact (hturn.outgoing hout).2 ▸ h.prog
    | false => exact (hturn.done hok hout).2
  · intro hhonest
    rw [hreceipts] at hhonest ⊢
    have hbefore := h.relayed fun c' hc' => hhonest c' (List.mem_append_left _ hc')
    rw [hsends, List.map_append, List.map_append, hbefore]
    congr 1
    cases hout : c.req.opcode.outgoing with
    | true => simp [(hturn.outgoing hout).1, hout]
    | false =>
        have hself : c ∈ s.uring.ring.receipts ++ [c].filter fun c => !c.req.opcode.outgoing := by
          simp [hout]
        obtain ⟨r, hr⟩ := List.length_eq_one_iff.mp (Nat.le_antisymm hturn.single
          (List.length_pos_iff.mpr (hturn.done hok hout).1))
        have hcar := hturn.entry r (by simp [hr]) (hhonest c hself)
        have hopcode : r.opcode.outgoing = true := by
          have hfst := congrArg Prod.fst hcar
          revert hfst
          simp only [Sqe.carried, Cqe.relayed]
          split <;> intro hfst <;> rw [hfst] <;> rfl
        simp [hr, hopcode, hout, hcar]
  · rw [htook.wire]
    exact h.sent
  · rw [hsends, htook.wire, htook.inflight, List.filter_append, List.filter_append, hins,
      List.nil_append, ← Multiset.coe_add, ← Multiset.coe_add, ← add_assoc]
    exact add_le_add_left h.once _

theorem Relaying.step (api : Ssl σ) {udpFd tunFd : Int} {s : LoopState σ} (e : LoopEvent)
    (h : LoopInv s ∧ (s.status.ok = true → Relaying udpFd tunFd s)) :
    LoopInv (s.step api e) ∧
      ((s.step api e).status.ok = true → Relaying udpFd tunFd (s.step api e)) := by
  obtain ⟨hinv, hrel⟩ := h
  refine ⟨hinv.step e, fun hok => ?_⟩
  have hok' := step_ok hok
  cases e with
  | kernel e => exact (hrel hok').kernel (hinv.ok hok') e
  | wake =>
      simp only [LoopState.step, LoopState.wake] at hok ⊢
      split at hok
      · rename_i hcq
        exact (hrel hok').takeCqe (hinv.ok hok') hcq hok
      · exact hrel hok'
  | waitError =>
      simp only [LoopState.step] at hok ⊢
      split at hok
      · simp [Status.ok] at hok
      · rename_i hstatus
        rw [if_neg hstatus]
        exact hrel hok'
  | stop =>
      have hsame := hrel hok'
      exact ⟨hsame.1, hsame.2, hsame.3, hsame.4⟩

/-- Every run of `tun_udp_run_zero` from the state that `iouring_init` and the
initial submissions leave relays what was received, as long as there was no
error and the kernel reports how much it has received. -/
theorem tunUdpRunZero_zeroCopy (api : Ssl σ) (config : IouringConfig) (sqeFree : Nat → Bool)
    (submits : Nat → Int) (conn : Connection σ) (tunFd : Int) (running : Bool) {ctx : IouringCtx}
    (hstart : initialSubmissions (IouringCtx.iouringInit config sqeFree submits)
      (.tunUdpRunZero conn tunFd) = some ctx) (es : List LoopEvent)
    (hok : ((LoopState.start ctx (.tunUdpRunZero conn tunFd) running).run api es).status.ok = true)
    (hhonest : ∀ c ∈ ((LoopState.start ctx (.tunUdpRunZero conn tunFd) running).run api
      es).uring.ring.receipts, c.Honest) :
    ZeroCopy conn.udpFd tunFd
      ((LoopState.start ctx (.tunUdpRunZero conn tunFd) running).run api es).uring := by
  obtain ⟨rs, heff, hin, hinv⟩ :=
    (inv_iouringInit config sqeFree submits).initialSubmissions hstart
  have hnone : ∀ l : List Sqe, (∀ r ∈ l, r ∈ rs) → l.filter (fun r => r.opcode.outgoing) = [] := by
    intro l hl
    apply List.filter_eq_nil_iff.mpr
    intro r hr
    obtain ⟨_, _, hincoming⟩ := hin r (hl r hr)
    simp [hincoming.outgoing]
  have hrel : Relaying conn.udpFd tunFd
      (LoopState.start ctx (.tunUdpRunZero conn tunFd) running : LoopState σ) := by
    rw [LoopState.start, atLoopHead_eq]
    refine ⟨⟨conn, rfl, rfl⟩, fun _ => ?_, ?_, ?_⟩
    · simp only [IoUring.sends, IoUring.receipts, heff.queued, heff.seen]
      rw [hnone _ (by simp [IouringCtx.iouringInit])]
      rfl
    · simp only [heff.wire]
      simp [IouringCtx.iouringInit]
    · simp only [heff.wire, heff.inflight]
      rw [hnone _ (by simp [IouringCtx.iouringInit, IoUring.inflight])]
      exact Multiset.zero_le _
  obtain ⟨hloop, hlast⟩ := Execution.run_invariant (fun _ => True)
    (fun s => LoopInv s ∧ (s.status.ok = true → Relaying conn.udpFd tunFd s))
    (fun _ e _ hs => Relaying.step api e hs) (fun e (_ : e ∈ es) => trivial)
    ⟨loopInv_start hinv _ running, fun _ => hrel⟩
  have hend := hlast hok
  have hown := hloop.ok hok
  exact ⟨hend.relayed hhonest, fun c hc => hown.arrived_reserved hc,
    fun r hr => hown.pending_reserved hr, hend.sent,
    Multiset.coe_le.mp (le_trans (Multiset.le_add_right _ _) hend.once)⟩

/-! ## A run -/

instance (c : Cqe) : Decidable c.Honest := inferInstanceAs (Decidable (_ = _))

def relayRun : List LoopEvent := smallRun ++ [.kernel (.complete 3 3 [] [] 0), .wake]

set_option maxRecDepth 20000 in
theorem tunUdpRunZero_zeroCopy_small : ∃ ctx,
    initialSubmissions (IouringCtx.iouringInit smallConfig (fun _ => true) (fun _ => 1))
      (.tunUdpRunZero smallConn 5) = some ctx ∧
    ZeroCopy 3 5 ((LoopState.start ctx (.tunUdpRunZero smallConn 5) true).run plainSsl
      relayRun).uring :=
  ⟨_, rfl, tunUdpRunZero_zeroCopy plainSsl smallConfig (fun _ => true) (fun _ => 1) smallConn 5
    true rfl relayRun rfl (by decide)⟩

end Dataplane.Proofs
