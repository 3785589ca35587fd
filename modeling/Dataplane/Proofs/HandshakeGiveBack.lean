import Dataplane.Proofs.GiveBack
import Dataplane.Proofs.Outcome

/-!
# What a failing handshake gives back

The handshake fails in a call of `SSL_do_handshake`, or in `wait_for_recv` on a
completion that has put its op, its pool item or a ring index into the program's
hands.
-/

namespace Dataplane.Model

open ProofSupport Proofs Ledger

variable {σ : Type}

/-- The op that the completion puts into the program's hands. -/
def Cqe.gives (c : Cqe) : Multiset OpId := if c.last then {c.req.userData} else 0

/-- What the completion `c` has put into the program's hands is in the pools. -/
structure HandsBack (ctx : IouringCtx) (c : Cqe) (ctx' : IouringCtx) : Prop where
  ops : (ctx'.ioOpPool : Multiset OpId) = ctx.ioOpPool + c.gives
  items : (ctx'.bufAddrPool : Multiset BufId) =
    ctx.bufAddrPool + owned (fun op => items (ctx.ops op)) c.gives
  slots : (ctx'.br : Multiset Nat) = ctx.br +
    ((if c.flags.buffer then {c.flags.bid} else 0) + owned (fun op => slots (ctx.ops op)) c.gives)

/-- The op and the item that were taken are owned by a send that was queued, and
`io_uring_submit` took an entry. -/
def Accepted (ctx ctx' : IouringCtx) : Prop :=
  ∃ q b, ctx'.ring.queued = ctx.ring.queued ++ [q] ∧ 0 < ctx.ring.submits 0 ∧
    q.buffer = some (.buf b) ∧ ctx.ioOpPool = q.userData :: ctx'.ioOpPool ∧
    ctx.bufAddrPool = b :: ctx'.bufAddrPool ∧ ctx'.br = ctx.br

/-- The completion leaves nothing to give back, or `wait_for_recv` gives all of
it back where it fails: a datagram without a source or a payload, or with a
receive that is not armed again, costs the op of a multishot receive that has
ended, and a single-shot receive that is refused costs its op. -/
def Cqe.Harmless (ctx : IouringCtx) (c : Cqe) : Prop :=
  c.last = false ∧ c.flags.buffer = false ∨
    0 ≤ c.res ∧ (c.req.opcode.outgoing = true ∨
      if c.req.opcode = .recvmsgMultishot then
        c.flags.more = true ∨ slotHeader < c.res ∧
          Bytes.readLe32 (ctx.brBufs c.flags.bid) ≠ 0 ∧ ctx.ring.Ready
      else ctx.ioOpPool = [] ∨ ctx.bufAddrPool = [] ∨ ctx.ring.Ready)

namespace HandshakeState

/-- When the handshake fails on the event `e`, everything it took is back, or a
request that the kernel has been given owns it. -/
def GivesBack (api : Ssl σ) (s : HandshakeState σ) : HandshakeEvent → Prop
  | .call => s.pc = .calling → (s.call api).pc = .returned (-1) →
      SamePools s.uring (s.call api).uring ∨ Accepted s.uring (s.call api).uring
  | .wake => s.pc = .waiting → ∀ c cq, s.uring.ring.cq = c :: cq →
      (s.takeCqe c cq).pc = .returned (-1) → HandsBack s.uring c (s.takeCqe c cq).uring
  | .waitError => s.pc = .waiting → SamePools s.uring (s.step api .waitError).uring
  | .kernel _ => True

/-- A call has nothing to send, or cannot allocate, or its send is accepted; a
completion is harmless. -/
def Safe (api : Ssl σ) (s : HandshakeState σ) : HandshakeEvent → Prop
  | .call => s.pc = .calling → s.pending api = [] ∨ s.uring.ioOpPool = [] ∨
      s.uring.bufAddrPool = [] ∨
      0 ≤ s.conn.udpFd ∧ s.uring.ring.sqeFree 0 = true ∧ 0 < s.uring.ring.submits 0
  | .wake => s.pc = .waiting → ∀ c cq, s.uring.ring.cq = c :: cq → c.Harmless s.uring
  | _ => True

end HandshakeState

end Dataplane.Model

namespace Dataplane.Proofs

open ProofSupport Model Ledger

variable {σ : Type} {api : Ssl σ} {ctx ctx' mid : IouringCtx} {op : OpId}
  {held : Multiset OpId} {taken : Multiset Nat}

/-! ## A call -/

/-- When the flight fails nothing is lost exactly if it cannot be allocated or is
accepted, and a flight that does not fail is accepted. -/
theorem sendFlight_givesBack (ctx : IouringCtx) {conn : Connection σ} (hne : conn.wbio ≠ []) :
    ((((sendFlight ctx conn).1 < 0 → SamePools ctx (sendFlight ctx conn).2.1 ∨
      Accepted ctx (sendFlight ctx conn).2.1) ↔ ctx.ioOpPool = [] ∨ ctx.bufAddrPool = [] ∨
        0 ≤ conn.udpFd ∧ ctx.ring.sqeFree 0 = true ∧ 0 < ctx.ring.submits 0)) ∧
    (0 ≤ (sendFlight ctx conn).1 → Accepted ctx (sendFlight ctx conn).2.1) := by
  have hnone : (ctx.ioOpAlloc .udpSend conn.udpFd false).1 = none ↔ _ := ioOpAlloc_none_iff
  have hpos := flight_pos hne
  have hle : (conn.wbio.take bufSize).length ≤ bufSize := List.length_take_le ..
  rcases ha : ctx.ioOpAlloc .udpSend conn.udpFd false with ⟨_ | op, ctx1⟩
  · rw [ha] at hnone
    rw [sendFlight_none hne ha]
    have hsame : SamePools ctx (ctx1.assert false) := SamePools.of_eq (alloc_none ha).pools
    rw [← or_assoc]
    exact ⟨⟨fun _ => .inl (hnone.mp rfl), fun _ _ => .inl hsame⟩, fun h => absurd h (by simp)⟩
  rcases hres : ctx1.iouringSubmitUdpSend (some op) conn.addr conn.addrLen
    (some (conn.wbio.take bufSize)) (conn.wbio.take bufSize).length with ⟨ret, ctx2⟩
  have haccepted := sendFlight_accepted ctx hne
  rw [sendFlight_some hne ha hres] at haccepted ⊢
  generalize conn.wbio.take bufSize = bytes at *
  rw [ha] at hnone
  have hfull : ¬ (ctx.ioOpPool = [] ∨ ctx.bufAddrPool = []) := fun h => by simpa using hnone.mpr h
  have haccept : 0 ≤ ret ↔
      0 ≤ conn.udpFd ∧ ctx.ring.sqeFree 0 = true ∧ 0 < ctx.ring.submits 0 := by
    rw [haccepted]
    exact ⟨fun h => ⟨h.fd, h.entry, h.submitted⟩, fun h =>
      ⟨fun hops => hfull (.inl hops), fun hbufs => hfull (.inr hbufs), h.1, h.2.1, h.2.2⟩⟩
  obtain ⟨ops, b, bufs, hpool, hbuf, hctx1⟩ := ioOpAlloc_single_eq ha
  have hop : ctx1.ops op = pooledOp .udpSend conn.udpFd b := by
    rw [hctx1]
    simp
  have hring : ctx1.ring = ctx.ring := by rw [hctx1]
  have hrest : ∀ o ≠ op, ctx1.ops o = ctx.ops o := by
    intro o ho
    rw [hctx1]
    exact Function.update_of_ne ho _ _
  have htype : (ctx1.ops op).opType = .udpSend := by rw [hop]; rfl
  have hlen : ((ctx1.copyIn op (some bytes) bytes.length).ops op).dataLen = bytes.length := by
    rw [copyIn_op]
    rfl
  have hsub := iouringSubmitUdpSend_submitted conn.addr conn.addrLen (some bytes) bytes.length htype
    hlen
  have hcalls : Calls (.udpSend conn.addr conn.addrLen (some bytes) bytes.length) ctx1 op _ :=
    udpSend_calls conn.addr conn.addrLen (some bytes) bytes.length
  have hqueued := udpSend_success htype hlen hres
  rw [hres] at hsub hcalls
  dsimp only
  have hmid : Books ctx1 (sendCtx (ctx1.copyIn op (some bytes) bytes.length) op conn.addr
      conn.addrLen) :=
    (copyIn_books ctx1 op (some bytes) bytes.length).trans (sendCtx_books _ op _ _)
  have hbooks := hmid.submitted hsub
  have howned : 0 ≤ ret → Accepted ctx ctx2 := by
    intro hret
    cases hsub with
    | refused f => exact absurd hret (by decide)
    | failed _ _ _ => exact absurd hret (by decide)
    | queued _ heff =>
        have hpools := hbooks.pools
        simp only [pools, Prod.mk.injEq] at hpools
        obtain ⟨hops', hitems', hslots'⟩ := hpools
        have hmidring : (sendCtx (ctx1.copyIn op (some bytes) bytes.length) op conn.addr
            conn.addrLen).ring = ctx.ring := by
          simp only [sendCtx, modOp_ring, store_ring, copyIn_ring, hring]
        have hentry := heff.queued
        rw [hmidring] at hentry
        refine ⟨_, b, hentry, (haccept.mp hret).2.2, ?_, ?_, ?_, ?_⟩
        · show (ctx1.ops op).buffer = _
          rw [hop]
          rfl
        · rw [hops', hctx1]
          exact hpool
        · rw [hitems', hctx1]
          exact hbuf
        · rw [hslots', hctx1]
  refine ⟨?_, howned⟩
  rw [← or_assoc, or_iff_right hfull, ← haccept]
  constructor
  · intro hback
    by_contra hneg
    rcases hback (by omega) with hsame | ⟨q, -, hq, hsubmits, -⟩
    · have hlost : ¬ SamePools (ctx.freeOwn none) (ctx2.freeOwn none) :=
        alloc_lost (by rw [hpool, hctx1]) hrest hbooks (by simp)
      exact hlost hsame
    · refine hneg (hqueued.mpr ⟨?_, by rw [hring]; exact hsubmits⟩)
      rw [hq, hring]
      simp
  · intro hret hneg
    omega

theorem call_givesBack (api : Ssl σ) (s : HandshakeState σ) :
    s.GivesBack api .call ↔ s.Safe api .call := by
  have hcall := call_eq api s
  unfold HandshakeState.GivesBack HandshakeState.Safe
  dsimp only
  apply forall_congr'
  intro hpc
  by_cases hempty : s.pending api = []
  · rw [if_pos (by simp [hempty])] at hcall
    refine ⟨fun _ => .inl hempty, fun _ _ => .inl (SamePools.of_eq ?_)⟩
    rw [hcall, (conclude_frame _ _ _).1]
  have hlen : (s.pending api).length ≠ 0 := by simpa using hempty
  rw [if_neg hlen] at hcall
  rw [or_iff_right hempty]
  have hne : (s.conn.after (s.answer api)).wbio ≠ [] := hempty
  obtain ⟨hback, howned⟩ := sendFlight_givesBack s.uring hne
  have hfd : (s.conn.after (s.answer api)).udpFd = s.conn.udpFd := rfl
  rw [hfd] at hback
  rw [← hback]
  rcases hsend : sendFlight s.uring (s.conn.after (s.answer api)) with ⟨ret, ctx, conn⟩
  rw [hsend] at hcall howned
  dsimp only at hcall howned ⊢
  by_cases hret : ret < 0
  · rw [if_pos hret] at hcall
    rw [hcall]
    simp [hret]
  · rw [if_neg hret] at hcall
    have huring : (s.call api).uring = ctx := by rw [hcall, (conclude_frame _ _ _).1]
    rw [huring]
    exact ⟨fun _ h => absurd h hret, fun _ _ => .inr (howned (by omega))⟩

/-! ## A completion -/

/-- What `iouring_multishot_recvmsg_out` does to the pools and when it fails. -/
theorem multishotOut_books {flags : CqeFlags} (hm : Multi (ctx.ops op))
    (hbuf : flags.buffer = true) :
    Books (ctx.modOp op fun o => { o with bufIdx := flags.bid })
        (ctx.iouringMultishotRecvmsgOut op flags).2 ∧
      ((ctx.iouringMultishotRecvmsgOut op flags).1 < 0 ↔ ¬ (slotHeader < (ctx.ops op).dataLen ∧
        Bytes.readLe32 (ctx.brBufs flags.bid) ≠ 0 ∧ (flags.more = true ∨ ctx.ring.Ready))) := by
  have hreadable : Readable ctx op flags ↔ (slotHeader : Int) < (ctx.ops op).dataLen ∧
      Bytes.readLe32 (ctx.brBufs flags.bid) ≠ 0 := by rw [Readable, hm.header]
  -- after the first update nothing that a pool depends on changes
  have hplaced : ∀ {g : IoOp → IoOp}, (∀ o, Locates flags.bid o (g o)) →
      Books (ctx.modOp op fun o => { o with bufIdx := flags.bid }) (ctx.modOp op g) := by
    intro g hg
    refine ⟨rfl, fun o => ?_⟩
    by_cases ho : o = op
    · subst ho
      rw [modOp_self, modOp_self]
      simp only [grip, (hg _).isMulti, (hg _).bufAddr, (hg _).bufIdx]
    · rw [modOp_of_ne _ _ _ ho, modOp_of_ne _ _ _ ho]
  have hmulti : ((ctx.modOp op (present ctx op flags.bid)).ops op).isMulti = true := by
    rw [modOp_self]
    exact hm.multi
  have hsubmitted := iouringSubmitMultishotRecvmsgOp_submitted hmulti
  have haccept : ((ctx.modOp op (present ctx op flags.bid)).iouringSubmitMultishotRecvmsgOp op).1 <
      0 ↔ ¬ ctx.ring.Ready := accepted_iff .multishotRecvmsg (.inr (.inr rfl)) _ op
  have harmed := (hplaced (present_locates ctx op flags.bid)).trans
    ((Books.refl _).submitted hsubmitted)
  have hdec := iouringMultishotRecvmsgOut_decoded ctx op flags
  generalize ctx.iouringMultishotRecvmsgOut op flags = out at hdec ⊢
  rw [← and_assoc, ← hreadable]
  cases hdec with
  | noBuffer hnone => exact absurd hbuf (by simp [hnone])
  | rejected _ _ hnot hg =>
      exact ⟨hplaced hg, iff_of_true (by simp) fun hall => hnot hall.1⟩
  | presented _ hread hmore =>
      exact ⟨hplaced (present_locates ctx op flags.bid),
        iff_of_false (by simp) fun hnot => hnot ⟨hread, .inl hmore⟩⟩
  | rearmed _ hread _ hsub =>
      rw [hsub] at harmed haccept
      have hready : ctx.ring.Ready := by
        by_contra hnot
        exact absurd (haccept.mpr hnot) (by simp)
      exact ⟨⟨harmed.pools, harmed.grip⟩,
        iff_of_false (by simp) fun hnot => hnot ⟨hread, .inr hready⟩⟩
  | stopped _ _ hmore hsub hret =>
      have hcases := (multishotRecvmsg_calls : Calls .multishotRecvmsg
        (ctx.modOp op (present ctx op flags.bid)) op _).ret_cases
      rw [hsub] at harmed haccept hcases
      have hfail := hcases.resolve_left hret
      refine ⟨harmed, iff_of_true (by simp) ?_⟩
      rintro ⟨-, hrest | hready⟩
      · rw [hmore] at hrest
        cases hrest
      · exact haccept.mp (by omega) hready

theorem gives_eq_zero (c : Cqe) : c.gives = 0 ↔ c.last = false := by
  unfold Cqe.gives
  cases c.last <;> simp

theorem handsBack_error {c : Cqe} (hpools : pools ctx' = pools ctx) :
    HandsBack ctx c ctx' ↔ c.last = false ∧ c.flags.buffer = false := by
  simp only [pools, Prod.mk.injEq] at hpools
  obtain ⟨hops, hitems, hslots⟩ := hpools
  rw [← gives_eq_zero]
  constructor
  · intro hback
    have hpool := hback.ops
    rw [hops] at hpool
    have hnone : c.gives = 0 := left_eq_add.mp hpool
    refine ⟨hnone, ?_⟩
    have hbr := hback.slots
    rw [hslots, hnone, owned_zero, add_zero] at hbr
    have hsel := left_eq_add.mp hbr
    by_contra hbuf
    rw [if_pos (by simpa using hbuf)] at hsel
    simp at hsel
  · rintro ⟨hnone, hbuf⟩
    constructor
    · rw [hops, hnone, add_zero]
    · rw [hitems, hnone, owned_zero, add_zero]
    · rw [hslots, hnone, owned_zero, add_zero, if_neg (by simp [hbuf]), add_zero]

theorem handsBack_multi {c : Cqe} (hbuf : c.flags.buffer = true)
    (hpools : pools ctx' = (ctx.ioOpPool, ctx.bufAddrPool, ctx.br ++ [c.flags.bid])) :
    HandsBack ctx c ctx' ↔ c.flags.more = true := by
  simp only [pools, Prod.mk.injEq] at hpools
  obtain ⟨hops, hitems, hslots⟩ := hpools
  have hlast : c.gives = 0 ↔ c.flags.more = true := by
    rw [gives_eq_zero, Cqe.last, Bool.not_eq_false']
  rw [← hlast]
  constructor
  · intro hback
    have hpool := hback.ops
    rw [hops] at hpool
    exact left_eq_add.mp hpool
  · intro hnone
    constructor
    · rw [hops, hnone, add_zero]
    · rw [hitems, hnone, owned_zero, add_zero]
    · rw [hslots, hnone, owned_zero, add_zero, if_pos hbuf, ← Multiset.coe_add,
        Multiset.coe_singleton]

theorem handsBack_single {c : Cqe} {b : BufId} (hp : Pooled (ctx.ops c.req.userData) b)
    (hlast : c.last = true) (hbuf : c.flags.buffer = false) (hpools : pools ctx' =
      (c.req.userData :: mid.ioOpPool, b :: mid.bufAddrPool, mid.br)) (hbr : mid.br = ctx.br) :
    HandsBack ctx c ctx' ↔ (mid.ioOpPool : Multiset OpId) = ctx.ioOpPool ∧
      (mid.bufAddrPool : Multiset BufId) = ctx.bufAddrPool := by
  simp only [pools, Prod.mk.injEq] at hpools
  obtain ⟨hops, hitems, hslots⟩ := hpools
  have hgives : c.gives = {c.req.userData} := if_pos hlast
  have hops' : (ctx'.ioOpPool : Multiset OpId) = mid.ioOpPool + {c.req.userData} := by
    rw [hops, ← Multiset.cons_coe, ← Multiset.singleton_add, add_comm]
  have hitems' : (ctx'.bufAddrPool : Multiset BufId) = mid.bufAddrPool + {b} := by
    rw [hitems, ← Multiset.cons_coe, ← Multiset.singleton_add, add_comm]
  constructor
  · intro hback
    have h1 := hback.ops
    have h2 := hback.items
    rw [hgives] at h1 h2
    rw [owned_singleton, hp.items] at h2
    rw [hops'] at h1
    rw [hitems'] at h2
    exact ⟨add_right_cancel h1, add_right_cancel h2⟩
  · rintro ⟨h1, h2⟩
    constructor
    · rw [hops', h1, hgives]
    · rw [hitems', h2, hgives, owned_singleton, hp.items]
    · rw [hslots, hbr, hgives, owned_singleton, hp.slots, if_neg (by simp [hbuf]), add_zero,
        add_zero]

theorem multi_givesBack {c : Cqe} {step : WaitStep} (hsame : pools mid = pools ctx)
    (hm : Multi (mid.ops c.req.userData)) (hlen : (mid.ops c.req.userData).dataLen = c.res)
    (hbuf : c.flags.buffer = true)
    (hres : IouringCtx.waitForRecvDone c.req.userData
      (mid.iouringMultishotRecvmsgOut c.req.userData c.flags) = (step, ctx')) :
    (step = .null → HandsBack ctx c ctx') ↔ c.flags.more = true ∨ slotHeader < c.res ∧
      Bytes.readLe32 (mid.brBufs c.flags.bid) ≠ 0 ∧ mid.ring.Ready := by
  obtain ⟨hb, hfails⟩ := multishotOut_books hm hbuf
  rw [hlen] at hfails
  rcases hsub : mid.iouringMultishotRecvmsgOut c.req.userData c.flags with ⟨ret, ctx2⟩
  rw [hsub] at hres hb hfails
  have hgrip : grip (ctx2.ops c.req.userData) =
      (true, (mid.ops c.req.userData).bufAddr, (c.flags.bid : Int)) := by
    rw [hb.grip, modOp_self, ← hm.multi]
    rfl
  have hpools : pools (ctx2.ioOpFree c.req.userData).2 =
      (ctx.ioOpPool, ctx.bufAddrPool, ctx.br ++ [c.flags.bid]) := by
    have hkept : pools ctx2 = pools ctx := hb.pools.trans hsame
    rw [pools_ioOpFree, hgrip, hkept]
    simp [freed, pools]
  unfold IouringCtx.waitForRecvDone at hres
  by_cases hret : ret < 0
  · rw [if_pos hret] at hres
    obtain ⟨rfl, rfl⟩ := Prod.mk.inj hres
    rw [handsBack_multi hbuf hpools]
    constructor
    · intro hback
      exact .inl (hback rfl)
    · rintro (hmore | ⟨hlong, hsource, hready⟩) -
      · exact hmore
      · exact absurd ⟨hlong, hsource, .inr hready⟩ (hfails.mp hret)
  · rw [if_neg hret] at hres
    obtain ⟨rfl, rfl⟩ := Prod.mk.inj hres
    obtain ⟨hlong, hsource, hmore⟩ := not_not.mp (mt hfails.mpr hret)
    refine ⟨fun _ => ?_, fun _ hnull => by cases hnull⟩
    rcases hmore with hmore | hready
    · exact .inl hmore
    · exact .inr ⟨hlong, hsource, hready⟩

theorem single_givesBack {c : Cqe} {step : WaitStep} {b : BufId} (hsame : pools mid = pools ctx)
    (hout : c.req.userData ∉ mid.ioOpPool) (hp : Pooled (ctx.ops c.req.userData) b)
    (hgrip : grip (mid.ops c.req.userData) = grip (ctx.ops c.req.userData))
    (htype : (mid.ops c.req.userData).opType = .tunRead ∨
      (mid.ops c.req.userData).opType = .udpRecv)
    (hlast : c.last = true) (hbuf : c.flags.buffer = false)
    (hres : IouringCtx.waitForRecvDone c.req.userData
      (mid.iouringResubmitRecv c.req.userData) = (step, ctx')) :
    (step = .null → HandsBack ctx c ctx') ↔
      (mid.ioOpPool = [] ∨ mid.bufAddrPool = []) ∨ mid.ring.Ready := by
  have hcases := iouringResubmitRecv_resubmitted mid c.req.userData
  rcases hsub : mid.iouringResubmitRecv c.req.userData with ⟨ret, ctx2⟩
  rw [hsub] at hres hcases
  simp only [pools, Prod.mk.injEq] at hsame
  obtain ⟨hpool, hpoolItems, hpoolSlots⟩ := hsame
  have hpools : grip (ctx2.ops c.req.userData) = grip (mid.ops c.req.userData) →
      pools (ctx2.ioOpFree c.req.userData).2 =
        (c.req.userData :: ctx2.ioOpPool, b :: ctx2.bufAddrPool, ctx2.br) := by
    intro hgrip2
    have hown : grip (ctx.ops c.req.userData) = (false, some b, -1) :=
      Prod.ext hp.single (Prod.ext hp.bufAddr hp.bufIdx)
    rw [pools_ioOpFree, hgrip2, hgrip, hown]
    rfl
  unfold IouringCtx.waitForRecvDone at hres
  cases hcases with
  | empty hempty hkept =>
      rw [if_pos (by simp)] at hres
      obtain ⟨rfl, rfl⟩ := Prod.mk.inj hres
      have hpools2 := hpools (hkept.grip _ hout)
      have hkept := hkept.pools
      simp only [pools, Prod.mk.injEq] at hkept
      obtain ⟨hops, hitems, hslots⟩ := hkept
      rw [handsBack_single hp hlast hbuf hpools2 (hslots.trans hpoolSlots), hops, hitems, hpool,
        hpoolItems]
      refine ⟨fun _ => .inl ?_, fun _ _ => ⟨rfl, rfl⟩⟩
      rwa [hpool, hpoolItems] at hempty
  | taken new b' hops hitems hslots hkept hfails =>
      have hfull : ¬ (mid.ioOpPool = [] ∨ mid.bufAddrPool = []) := by
        rw [hops, hitems]
        simp
      rw [or_iff_right hfull]
      by_cases hret : ret < 0
      · rw [if_pos hret] at hres
        obtain ⟨rfl, rfl⟩ := Prod.mk.inj hres
        rw [handsBack_single hp hlast hbuf (hpools (hkept _ hout)) (hslots.trans hpoolSlots)]
        constructor
        · intro hback
          have hcard := congrArg Multiset.card (hback rfl).1
          rw [← hpool, hops] at hcard
          simp at hcard
        · intro hready
          exact absurd ⟨htype, hready⟩ (hfails.mp hret)
      · rw [if_neg hret] at hres
        obtain ⟨rfl, rfl⟩ := Prod.mk.inj hres
        exact ⟨fun _ => (not_not.mp (mt hfails.mpr hret)).2, fun _ hnull => by cases hnull⟩

/-- What `wait_for_recv` has got with a completion is given back when it fails,
exactly if the completion is harmless. -/
theorem Inv.wait_givesBack (h : Inv ctx held taken) {c : Cqe} {cq : List Cqe}
    (hcq : ctx.ring.cq = c :: cq) {step : WaitStep}
    (hres : (ctx.iouringCqeSeen c cq).waitForRecvBody c = (step, ctx')) :
    (step = .null → HandsBack ctx c ctx') ↔ c.Harmless ctx := by
  obtain ⟨hok, hout⟩ := h.seen_cqeOk hcq
  unfold Cqe.Harmless
  by_cases hneg : c.res < 0
  · rw [waitForRecvBody_error hneg] at hres
    obtain ⟨rfl, rfl⟩ := Prod.mk.inj hres
    have herror : HandsBack ctx c (ctx.iouringCqeSeen c cq) ↔ _ := handsBack_error rfl
    rw [herror, or_iff_left (by omega)]
    exact ⟨fun hback => hback rfl, fun hback _ => hback⟩
  have hnonneg : 0 ≤ c.res := by omega
  by_cases hsend : c.req.opcode.outgoing = true
  · rw [hok.req.body_outgoing hsend hnonneg] at hres
    obtain ⟨rfl, -⟩ := Prod.mk.inj hres
    exact ⟨fun _ => .inr ⟨hnonneg, .inl hsend⟩, fun _ hnull => by cases hnull⟩
  rw [and_iff_right hnonneg, or_iff_right hsend]
  by_cases hcode : c.req.opcode = .recvmsgMultishot
  · have hbuf : c.flags.buffer = true := by
      by_contra hbuf
      exact hneg (hok.multi hcode (by simpa using hbuf))
    rw [hok.req.body_multishot hcode hnonneg] at hres
    rw [if_pos hcode, or_iff_right (by simp [hbuf])]
    have hm := hok.req.multi hcode
    refine Iff.trans (multi_givesBack ?_ ?_ ?_ hbuf hres) Iff.rfl
    · rfl
    · rw [modOp_self]
      exact ⟨hm.1, hm.2, hm.3, hm.4, hm.5⟩
    · rw [modOp_self]
  · obtain ⟨hbuf, hmore, -⟩ := hok.single hcode
    have hlast : c.last = true := by simp [Cqe.last, hmore]
    have hin := Opcode.single_cases (by simpa using hsend) hcode
    rw [hok.req.body_single hin hnonneg] at hres
    rw [if_neg hcode, or_iff_right (by simp [hlast]), ← or_assoc]
    obtain ⟨b, hp, -⟩ := hok.req.pooled_of_incoming hin
    refine Iff.trans (single_givesBack ?_ ?_ hp ?_ ?_ hlast hbuf hres) Iff.rfl
    · rfl
    · exact hout
    · rw [modOp_self]
      rfl
    · rw [modOp_self]
      show ((ctx.iouringCqeSeen c cq).ops c.req.userData).opType = _ ∨
        ((ctx.iouringCqeSeen c cq).ops c.req.userData).opType = _
      rw [hok.req.opType]
      rcases hin with hin | hin <;> simp [hin, Opcode.opType]

theorem wake_givesBack {s : HandshakeState σ} (h : Sound s.uring) :
    s.GivesBack api .wake ↔ s.Safe api .wake := by
  obtain ⟨held, taken, hinv⟩ := h
  unfold HandshakeState.GivesBack HandshakeState.Safe
  dsimp only
  apply forall_congr'
  intro hpc
  apply forall_congr'
  intro c
  apply forall_congr'
  intro cq
  apply forall_congr'
  intro hcq
  rcases hstep : (s.uring.iouringCqeSeen c cq).waitForRecvBody c with ⟨step, ctx⟩
  rw [← hinv.wait_givesBack hcq hstep]
  unfold HandshakeState.takeCqe
  rw [hstep]
  cases step with
  | again => simp [hpc]
  | null => simp
  | recv op =>
      dsimp only
      split
      · simp
      · simp

theorem handshake_givesBack (api : Ssl σ) {s : HandshakeState σ} (h : Sound s.uring)
    (e : HandshakeEvent) : s.GivesBack api e ↔ s.Safe api e := by
  cases e with
  | call => exact call_givesBack api s
  | wake => exact wake_givesBack h
  | kernel e => exact Iff.rfl
  | waitError =>
      refine ⟨fun _ => trivial, fun _ hpc => SamePools.of_eq ?_⟩
      simp only [HandshakeState.step, if_pos hpc]

/-! ## Every failing path -/

/-- A failing call gives back what it has allocated exactly when it is safe, the
last round of `iouring_initial_tun_reads` always does, and so does the handshake
on exactly the events that are safe. -/
theorem failures_giveBack (api : Ssl σ) :
    (∀ (f : Fallible σ) (ctx : IouringCtx) (own : Option OpId), f.HeldBy ctx own →
      (f.GivesBack api ctx own ↔ f.Safe ctx)) ∧
    (∀ (ctx : IouringCtx) (fd : Int), TunReadsGiveBack ctx fd) ∧
    ∀ s : HandshakeState σ, Sound s.uring → ∀ e, (s.GivesBack api e ↔ s.Safe api e) := by
  refine ⟨fun f ctx own hheld => fallible_givesBack api f hheld, fun ctx fd hret => ?_,
    fun s h e => handshake_givesBack api h e⟩
  exact initialRecvs_givesBack ctx.config.nInitialReadOps rfl hret

/-- `io_uring_submit` fails with `-EAGAIN`, and the op of the new receive is gone. -/
theorem refusedReceive_not_givesBack :
    ¬ (Fallible.iouringSubmitMultishotRecvmsg 3 : Fallible Unit).GivesBack plainSsl
      (answeringRing (-11)) none := by
  intro hback
  have hlen := (hback (by decide)).ops.length_eq
  revert hlen
  decide

/-- A packet that has been read is to be sent when `io_uring_submit` fails: the op
that `tun_to_udp` has taken and the one with the packet come back. -/
theorem failures_giveBack_answering : ∃ op ctx,
    (answeringRing (-11)).ioOpAlloc .tunRead 5 false = (some op, ctx) ∧
      (let read := ctx.modOp op fun o => { o with dataLen := 3 }
      ((Fallible.tunToUdp inboundConn op).call plainSsl read).1 < 0 ∧
        (Fallible.tunToUdp inboundConn op).GivesBack plainSsl read (some op)) ∧
      ((HandshakeState.start (answeringRing 1) inboundConn).GivesBack plainSsl .call ↔
        (HandshakeState.start (answeringRing 1) inboundConn).Safe plainSsl .call) := by
  obtain ⟨hcalls, -, hsteps⟩ := failures_giveBack plainSsl
  refine ⟨_, _, rfl, ⟨by decide, ?_⟩, hsteps _ ⟨0, 0, inv_iouringInit _ _ _⟩ .call⟩
  refine (hcalls (.tunToUdp inboundConn _) _ (some _) ⟨?_, rfl⟩).mpr trivial
  rintro _ ⟨⟩
  refine ⟨by decide, ?_⟩
  unfold IoOp.Loaded
  decide

end Dataplane.Proofs
