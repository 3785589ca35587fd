import Dataplane.Proofs.Datagram
import Dataplane.Proofs.PoolLedger
import Dataplane.Proofs.Sessions
import Dataplane.Proofs.Submissions

/-!
# The calls that a session makes

Every function of the program is a sequence of calls on ops that are out of the
pool, and so is every run of a session.
-/

namespace Dataplane.Proofs

open ProofSupport Model Ledger

variable {σ : Type} {api : Ssl σ} {n : Nat} {ctx ctx' mid : IouringCtx} {op : OpId}
  {opType : OpType} {fd : Int} {isMulti : Bool}

/-! ## Requests -/

theorem Between.same (hconfig : ctx'.config = ctx.config) (hpool : ctx'.ioOpPool = ctx.ioOpPool)
    (hbufs : ctx'.bufAddrPool = ctx.bufAddrPool) (hops : ctx'.ops = ctx.ops) :
    Between ctx ctx' where
  config := hconfig
  ioOpPool := hpool
  bufAddrPool := hbufs
  ops op := by
    rw [hops]
    exact ⟨rfl, rfl⟩

theorem Between.refl (ctx : IouringCtx) : Between ctx ctx := .same rfl rfl rfl rfl

theorem Between.trans (h : Between ctx mid) (h' : Between mid ctx') : Between ctx ctx' where
  config := h'.config.trans h.config
  ioOpPool := h'.ioOpPool.trans h.ioOpPool
  bufAddrPool := h'.bufAddrPool.trans h.bufAddrPool
  ops op := ⟨(h'.ops op).1.trans (h.ops op).1, (h'.ops op).2.trans (h.ops op).2⟩

theorem Between.store (ctx : IouringCtx) (p : Option Ptr) (bytes : Bytes) :
    Between ctx (ctx.store p bytes) where
  config := store_config ..
  ioOpPool := store_ioOpPool ..
  bufAddrPool := store_bufAddrPool ..
  ops op := by
    rw [store_ops]
    exact ⟨rfl, rfl⟩

theorem copyIn_between (ctx : IouringCtx) (op : OpId) (data : Option Bytes) (len : Int) :
    Between ctx (ctx.copyIn op data len) := by
  unfold IouringCtx.copyIn
  cases data with
  | none => exact .refl ctx
  | some bytes => exact (Between.store ctx _ _).trans (Between.modOp _ _ fun _ => ⟨rfl, rfl⟩)

theorem getSqe_between {start : IouringCtx} {k : IouringCtx → Int × IouringCtx}
    (hstart : Between ctx start)
    (hk : ∀ c, Between ctx c → Between ctx (k c).2) :
    Between ctx (match start.ioUringGetSqe with
      | (false, ctx) => (-1, ctx)
      | (true, ctx) => k ctx).2 := by
  have hget : Between ctx start.ioUringGetSqe.2 := hstart.trans (.same rfl rfl rfl rfl)
  generalize start.ioUringGetSqe = out at *
  obtain ⟨_ | _, c⟩ := out
  · exact hget
  · exact hk c hget

theorem submitChecked_between (ctx : IouringCtx) (r : Sqe) :
    Between ctx (ctx.ioUringPrep r).submitChecked.2 := by
  unfold IouringCtx.submitChecked IouringCtx.ioUringSubmit
  dsimp only
  split <;> exact .same rfl rfl rfl rfl

theorem submitNonzero_between (ctx : IouringCtx) (r : Sqe) :
    Between ctx (ctx.ioUringPrep r).submitNonzero.2 := by
  unfold IouringCtx.submitNonzero IouringCtx.ioUringSubmit
  dsimp only
  repeat' split
  all_goals exact .same rfl rfl rfl rfl

theorem Between.assert (ctx : IouringCtx) (b : Bool) : Between ctx (ctx.assert b) :=
  .same rfl rfl rfl rfl

theorem submission_between (f : Submission) (ctx : IouringCtx) (op : OpId) :
    Between ctx (f.call ctx op).2 := by
  cases f with
  | tunRead =>
      refine getSqe_between (.refl ctx) fun c hc => ?_
      exact (hc.trans (.assert c _)).trans (submitChecked_between _ _)
  | multishotRecvmsg =>
      refine getSqe_between (.assert ctx _) fun c hc => ?_
      exact hc.trans (submitChecked_between _ _)
  | udpRecv =>
      refine getSqe_between ((Between.assert ctx _).trans (.assert _ _)) fun c hc => ?_
      have hmod : Between c (c.modOp op IouringCtx.recvMsghdr) :=
        Between.modOp c op fun _ => ⟨rfl, rfl⟩
      exact (hc.trans hmod).trans (submitChecked_between _ _)
  | tunWrite data len =>
      simp only [Submission.call, IouringCtx.iouringSubmitTunWrite]
      split
      · exact .refl ctx
      split
      · exact .assert ctx _
      refine getSqe_between (.assert ctx _) fun c hc => ?_
      have hcopied : ∀ b, Between c ((c.assert b).copyIn op data len) :=
        fun b => (Between.assert c b).trans (copyIn_between _ op data len)
      exact (hc.trans ((hcopied _).trans (.assert _ _))).trans (submitChecked_between _ _)
  | udpSend addr addrLen data len =>
      simp only [Submission.call, IouringCtx.iouringSubmitUdpSend]
      split
      · exact .refl ctx
      split
      · exact .refl ctx
      refine getSqe_between (.refl ctx) fun c hc => ?_
      have hcopied : ∀ b b', Between c (((c.assert b).copyIn op data len).assert b') :=
        fun b b' => ((Between.assert c b).trans (copyIn_between _ op data len)).trans (.assert _ b')
      have hmod : ∀ d : IouringCtx, Between d (d.modOp op (IouringCtx.sendMsghdr addrLen)) :=
        fun d => Between.modOp d op fun _ => ⟨rfl, rfl⟩
      refine Between.trans ?_ (submitNonzero_between _ _)
      exact ((hc.trans (hcopied _ _)).trans (Between.store _ _ _)).trans (hmod _)

/-! ## The functions that call -/

/-- Calls that leave nothing in the pool that was not there. -/
structure Issues (n : Nat) (ctx ctx' : IouringCtx) : Prop where
  calls : PoolCalls n ctx ctx'
  pool : ctx'.ioOpPool ⊆ ctx.ioOpPool

theorem Issues.trans (h : Issues n ctx mid) (h' : Issues n mid ctx') : Issues n ctx ctx' :=
  ⟨h.calls.trans h'.calls, fun _ hop => h.pool (h'.pool hop)⟩

theorem Between.issues (h : Between ctx ctx') : Issues n ctx ctx' where
  calls := .single (.between h)
  pool := by rw [h.ioOpPool]; exact fun _ => id

theorem Issues.keeps (h : Issues n ctx ctx') (hop : ctx.Live n op) : ctx'.Live n op :=
  ⟨hop.1, fun hpool => hop.2 (h.pool hpool)⟩

def Balanced (n : Nat) (ctx : IouringCtx) : Prop := ∃ live, Stocked n ctx live

theorem Issues.balanced (h : Issues n ctx ctx') (hb : Balanced n ctx) : Balanced n ctx' := by
  obtain ⟨live, hstock⟩ := hb
  exact hstock.calls h.calls

structure Obtained (n : Nat) (ctx ctx' : IouringCtx) (op : OpId) : Prop where
  issues : Issues n ctx ctx'
  pool : op ∈ ctx.ioOpPool
  live : ctx'.Live n op

theorem Obtained.between (h : Obtained n ctx mid op) (hb : Between mid ctx') :
    Obtained n ctx ctx' op :=
  ⟨h.issues.trans hb.issues, h.pool, hb.issues.keeps h.live⟩

theorem Obtained.freed (h : Obtained n ctx ctx' op) (hb : Balanced n ctx) :
    Issues n ctx (ctx'.ioOpFree op).2 := by
  obtain ⟨live, hstock⟩ := h.issues.balanced hb
  obtain ⟨rest, rfl⟩ := Multiset.exists_cons_of_mem (hstock.mem_live h.live)
  refine ⟨h.issues.calls.tail (.ioOpFree op h.live), ?_⟩
  rcases hstock.ioOpFree with ⟨-, hpool⟩ | ⟨-, hpool⟩
  · rw [hpool]
    exact h.issues.pool
  · rw [hpool]
    exact List.cons_subset.mpr ⟨h.pool, h.issues.pool⟩

theorem Balanced.alloc (h : Balanced n ctx)
    (ha : ctx.ioOpAlloc opType fd isMulti = (some op, ctx')) :
    Obtained n ctx ctx' op := by
  obtain ⟨live, hstock⟩ := h
  have hcall : PoolCall n ctx ctx' := by
    have hc : PoolCall n ctx (ctx.ioOpAlloc opType fd isMulti).2 := .ioOpAlloc opType fd isMulti
    rwa [ha] at hc
  have hallocated := hstock.ioOpAlloc opType fd isMulti
  rw [ha] at hallocated
  cases hallocated with
  | some _ hpool htaken =>
      refine ⟨⟨.single hcall, ?_⟩, ?_, htaken.live_of_mem (Multiset.mem_cons_self op live)⟩
      · rw [hpool]
        exact List.subset_cons_self ..
      · rw [hpool]
        exact List.mem_cons_self

theorem Balanced.allocBuf (h : Balanced n ctx) {bufOwner : OpId} (howner : ctx.Live n bufOwner)
    (ha : ctx.ioOpAllocBuf opType fd isMulti (some bufOwner) = (some op, ctx')) :
    Obtained n ctx ctx' op := by
  obtain ⟨live, hstock⟩ := h
  have hcall : PoolCall n ctx ctx' := by
    have hc := PoolCall.ioOpAllocBuf opType fd isMulti bufOwner howner
    rwa [ha] at hc
  have hallocated := hstock.ioOpAllocBuf opType fd isMulti howner
  rw [ha] at hallocated
  cases hallocated with
  | some _ hpool htaken =>
      refine ⟨⟨.single hcall, ?_⟩, ?_, htaken.live_of_mem (Multiset.mem_cons_self op live)⟩
      · rw [hpool]
        exact List.subset_cons_self ..
      · rw [hpool]
        exact List.mem_cons_self

theorem Balanced.alloc_none (h : Balanced n ctx)
    (ha : ctx.ioOpAlloc opType fd isMulti = (none, ctx')) : Issues n ctx ctx' := by
  obtain ⟨live, hstock⟩ := h
  have hallocated := hstock.ioOpAlloc opType fd isMulti
  have hcall : PoolCall n ctx (ctx.ioOpAlloc opType fd isMulti).2 := .ioOpAlloc opType fd isMulti
  rw [ha] at hallocated hcall
  cases hallocated with
  | none => exact ⟨.single hcall, fun _ => id⟩

theorem dtlsEncryptAndSendUdp_issues (h : Balanced n ctx) (conn : Connection σ) (data : Bytes) :
    Issues n ctx (dtlsEncryptAndSendUdp api conn data ctx).2.1 := by
  unfold dtlsEncryptAndSendUdp
  rcases ha : ctx.ioOpAlloc .udpSend conn.udpFd false with ⟨_ | op, ctx1⟩
  · exact h.alloc_none ha
  have hgot := h.alloc ha
  rcases conn.dtlsEncryptPacket api data bufSize with ⟨len, result, conn'⟩
  have hfilled : Between ctx1 ((ctx1.store (ctx1.ops op).buffer result).modOp op
      fun o => { o with dataLen := len }) :=
    (Between.store ctx1 _ result).trans (.modOp _ op fun _ => ⟨rfl, rfl⟩)
  dsimp only
  split
  · exact (hgot.between hfilled).freed h
  have hsent := hfilled.trans
    (submission_between (.udpSend conn'.addr conn'.addrLen none len) _ op)
  split
  · exact (hgot.between hsent).freed h
  · exact (hgot.between hsent).issues

theorem dtlsDecryptAndWriteTun_issues (h : Balanced n ctx) (conn : Connection σ) (tunFd : Int)
    (encrypted : Bytes) (encryptedLen : Int) :
    Issues n ctx (dtlsDecryptAndWriteTun api conn tunFd encrypted encryptedLen ctx).2.1 := by
  unfold dtlsDecryptAndWriteTun
  rcases ha : ctx.ioOpAlloc .tunWrite tunFd false with ⟨_ | op, ctx1⟩
  · exact h.alloc_none ha
  have hgot := h.alloc ha
  rcases conn.dtlsDecryptPacket api encrypted encryptedLen bufSize with ⟨len, decrypted, ok, conn'⟩
  have hfilled : Between ctx1 ((ctx1.store (ctx1.ops op).buffer decrypted).modOp op
      fun o => { o with dataLen := len }) :=
    (Between.store ctx1 _ decrypted).trans (.modOp _ op fun _ => ⟨rfl, rfl⟩)
  dsimp only
  split
  · exact (hgot.between hfilled).freed h
  have hwritten := (hfilled.trans (.modOp _ op fun o =>
    show ({ o with fd := tunFd } : IoOp).isMulti = o.isMulti ∧ _ = o.bufAddr from ⟨rfl, rfl⟩)).trans
      (submission_between (.tunWrite none len) _ op)
  split
  · exact (hgot.between hwritten).freed h
  · exact (hgot.between hwritten).issues

theorem tunToUdp_issues (h : Balanced n ctx) (conn : Connection σ) {owner : OpId}
    (howner : ctx.Live n owner) : Issues n ctx (tunToUdp conn owner ctx).2 := by
  unfold tunToUdp
  rcases ha : ctx.ioOpAllocBuf .udpSend conn.udpFd false (some owner) with ⟨_ | op, ctx1⟩
  · obtain rfl := ioOpAllocBuf_none_eq ha
    exact (Between.refl ctx1).issues
  have hgot := (h.allocBuf howner ha).between
    (submission_between (.udpSend conn.addr conn.addrLen none (ctx1.ops op).dataLen) ctx1 op)
  dsimp only
  split
  · exact hgot.freed h
  · exact hgot.issues

theorem udpToTun_issues (h : Balanced n ctx) (tunFd : Int) {owner : OpId}
    (howner : ctx.Live n owner) : Issues n ctx (udpToTun tunFd owner ctx).2 := by
  unfold udpToTun
  rcases ha : ctx.ioOpAllocBuf .tunWrite tunFd false (some owner) with ⟨_ | op, ctx1⟩
  · obtain rfl := ioOpAllocBuf_none_eq ha
    exact (Between.refl ctx1).issues
  have hgot := (h.allocBuf howner ha).between
    (submission_between (.tunWrite none (ctx1.ops owner).dataLen) ctx1 op)
  dsimp only
  split
  · exact hgot.freed h
  · exact hgot.issues

theorem iouringResubmitRecv_issues (h : Balanced n ctx) (completed : OpId) :
    Issues n ctx (ctx.iouringResubmitRecv completed).2 := by
  unfold IouringCtx.iouringResubmitRecv
  dsimp only
  rcases ha : ctx.ioOpAlloc (ctx.ops completed).opType (ctx.ops completed).fd false with
    ⟨_ | new, ctx1⟩
  · exact h.alloc_none ha
  have hgot := h.alloc ha
  cases (ctx.ops completed).opType with
  | tunRead => exact (hgot.between (submission_between .tunRead ctx1 new)).issues
  | udpRecv => exact (hgot.between (submission_between .udpRecv ctx1 new)).issues
  | unknown => exact hgot.issues
  | tunWrite => exact hgot.issues
  | udpSend => exact hgot.issues

theorem iouringSubmitMultishotRecvmsg_issues (h : Balanced n ctx) (fd : Int) :
    Issues n ctx (ctx.iouringSubmitMultishotRecvmsg fd).2 := by
  unfold IouringCtx.iouringSubmitMultishotRecvmsg
  rcases ha : ctx.ioOpAlloc .udpRecv fd true with ⟨_ | op, ctx1⟩
  · exact h.alloc_none ha
  have hnamed : Between ctx1 (ctx1.modOp op fun o =>
      { o with msg := { o.msg with msgNamelen := sizeofSockaddrStorage } }) :=
    Between.modOp ctx1 op fun _ => ⟨rfl, rfl⟩
  exact ((h.alloc ha).between (hnamed.trans (submission_between .multishotRecvmsg _ op))).issues

theorem initialRecvs_issues {submit : IouringCtx → OpId → Int × IouringCtx}
    (hsubmit : ∀ c op, Between c (submit c op).2) (k : Nat) (h : Balanced n ctx) :
    Issues n ctx (IouringCtx.initialRecvs submit opType fd k ctx).2 := by
  induction k generalizing ctx with
  | zero => exact (Between.refl ctx).issues
  | succ k ih =>
      rw [IouringCtx.initialRecvs]
      rcases ha : ctx.ioOpAlloc opType fd false with ⟨_ | op, ctx1⟩
      · have hfailed := h.alloc_none ha
        exact hfailed.trans (ih (hfailed.balanced h))
      have hgot := (h.alloc ha).between (hsubmit ctx1 op)
      dsimp only
      split
      · exact hgot.freed h
      · exact hgot.issues.trans (ih (hgot.issues.balanced h))

theorem tunReads_issues (h : Balanced n ctx) (fd : Int) :
    Issues n ctx (ctx.iouringInitialTunReads fd).2 :=
  initialRecvs_issues (fun c op => submission_between .tunRead c op) _ h

theorem armReceives_issues {fds : List Int} (h : Balanced n ctx)
    (harm : armReceives useMultiRecv ctx fds = some ctx') : Issues n ctx ctx' := by
  apply armReceives_rule (P := fun _ mid => Issues n ctx mid) _ harm (Between.refl ctx).issues
  intro fd fds mid mid1 hsub hmid
  have hissues := iouringSubmitMultishotRecvmsg_issues (hmid.balanced h) fd
  simp only [useMultiRecv, if_true] at hsub
  rw [hsub] at hissues
  exact hmid.trans hissues

theorem sendFlight_issues (h : Balanced n ctx) (conn : Connection σ) :
    Issues n ctx (sendFlight ctx conn).2.1 := by
  unfold sendFlight
  rcases bioRead conn.wbio bufSize with ⟨read, buffer, rest⟩
  dsimp only
  have hassert := Between.assert ctx (decide (0 < read))
  generalize ctx.assert (decide (0 < read)) = ctx0 at *
  have hbal := hassert.issues.balanced h
  rcases ha : ctx0.ioOpAlloc .udpSend conn.udpFd false with ⟨_ | op, ctx1⟩
  · exact hassert.issues.trans ((hbal.alloc_none ha).trans (Between.assert ctx1 _).issues)
  · have hsent := (Between.assert ctx1 (some op).isSome).trans
      (submission_between (.udpSend conn.addr conn.addrLen (some buffer) read) _ op)
    exact hassert.issues.trans ((hbal.alloc ha).between hsent).issues

/-! ## A completion -/

theorem iouringMultishotRecvmsgOut_between (ctx : IouringCtx) (op : OpId) (flags : CqeFlags) :
    Between ctx (ctx.iouringMultishotRecvmsgOut op flags).2 := by
  have hplaced : ∀ {g : IoOp → IoOp}, (∀ o, Locates flags.bid o (g o)) →
      Between ctx (ctx.modOp op g) := fun hg =>
    .modOp ctx op fun o => ⟨(hg o).isMulti, (hg o).bufAddr⟩
  have harmed := (hplaced (present_locates ctx op flags.bid)).trans
    (submission_between .multishotRecvmsg _ op)
  rw [Submission.call] at harmed
  have hdec := iouringMultishotRecvmsgOut_decoded ctx op flags
  generalize ctx.iouringMultishotRecvmsgOut op flags = out at hdec ⊢
  cases hdec with
  | noBuffer => exact .refl ctx
  | rejected g _ _ hg => exact hplaced hg
  | presented => exact hplaced (present_locates ctx op flags.bid)
  | rearmed _ _ _ hsub =>
      rw [hsub] at harmed
      exact harmed.trans (.same rfl rfl rfl rfl)
  | stopped _ _ _ hsub =>
      rw [hsub] at harmed
      exact harmed

theorem iouringMultishotReadOut_between (ctx : IouringCtx) (op : OpId) (flags : CqeFlags) :
    Between ctx (ctx.iouringMultishotReadOut op flags).2 := by
  unfold IouringCtx.iouringMultishotReadOut
  dsimp only
  split
  · exact .refl ctx
  have hplaced := Between.modOp ctx op (f := fun o => { o with
    bufIdx := flags.bid, buffer := some (.slot flags.bid 0) }) fun _ => ⟨rfl, rfl⟩
  split <;> exact hplaced

theorem waitForRecvDone_calls {r : Int × IouringCtx} (h : Issues n ctx r.2) (hop : ctx.Live n op) :
    PoolCalls n ctx (IouringCtx.waitForRecvDone op r).2 ∧
      ∀ op', (IouringCtx.waitForRecvDone op r).1 = .recv op' →
        op' = op ∧ Issues n ctx (IouringCtx.waitForRecvDone op r).2 := by
  unfold IouringCtx.waitForRecvDone
  split
  · exact ⟨h.calls.tail (.ioOpFree op (h.keeps hop)), fun _ hret => nomatch hret⟩
  · exact ⟨h.calls, fun _ hret => ⟨(WaitStep.recv.inj hret).symm, h⟩⟩

theorem waitForRecvBody_calls (h : Balanced n ctx) {c : Cqe} (hop : ctx.Live n c.req.userData) :
    PoolCalls n ctx (ctx.waitForRecvBody c).2 ∧
      ∀ op', (ctx.waitForRecvBody c).1 = .recv op' →
        op' = c.req.userData ∧ Issues n ctx (ctx.waitForRecvBody c).2 := by
  unfold IouringCtx.waitForRecvBody
  dsimp only
  split
  · exact ⟨.refl, fun _ hret => nomatch hret⟩
  have hset : Between ctx (ctx.modOp c.req.userData fun o => { o with dataLen := c.res }) :=
    Between.modOp ctx _ fun _ => ⟨rfl, rfl⟩
  generalize (ctx.modOp c.req.userData fun o => { o with dataLen := c.res }) = mid at *
  have hbal := hset.issues.balanced h
  have hfree : ∀ b, PoolCalls n ctx ((mid.assert b).ioOpFree c.req.userData).2 := by
    intro b
    have hassert : Issues n ctx (mid.assert b) := (hset.trans (Between.assert mid b)).issues
    exact hassert.calls.tail (.ioOpFree _ (hassert.keeps hop))
  cases (mid.ops c.req.userData).opType with
  | udpSend => exact ⟨hfree _, fun _ hret => nomatch hret⟩
  | tunWrite => exact ⟨hfree _, fun _ hret => nomatch hret⟩
  | unknown => exact waitForRecvDone_calls hset.issues hop
  | udpRecv =>
      dsimp only
      split
      · exact waitForRecvDone_calls
          (hset.trans (iouringMultishotRecvmsgOut_between mid _ _)).issues hop
      · exact waitForRecvDone_calls (hset.issues.trans (iouringResubmitRecv_issues hbal _)) hop
  | tunRead =>
      dsimp only
      split
      · exact waitForRecvDone_calls ((hset.trans (Between.assert mid _)).trans
          (iouringMultishotReadOut_between _ _ _)).issues hop
      · exact waitForRecvDone_calls (hset.issues.trans (iouringResubmitRecv_issues hbal _)) hop

/-! ## Loop bodies and handshakes -/

theorem forwardBetween_issues (h : Balanced n ctx) (recvConn forwardConn : Connection σ)
    (data : Bytes) (packetLen : Int) :
    Issues n ctx (forwardBetween api ctx recvConn forwardConn data packetLen).2.1 := by
  unfold forwardBetween
  dsimp only
  split
  · exact (Between.refl ctx).issues
  · exact dtlsEncryptAndSendUdp_issues h forwardConn _

theorem learnAddr_between (ctx : IouringCtx) (conn : Connection σ) (op : OpId) :
    Between ctx (learnAddr ctx conn op).1 := by
  unfold learnAddr
  split
  · exact .assert ctx _
  · exact .refl ctx

/-- A body works on an op that is out of the pool, and frees it at most at its
end. -/
theorem body_calls (h : Balanced n ctx) (hop : ctx.Live n op) (prog : Program σ) :
    PoolCalls n ctx (prog.body api ctx op).2.2.1 := by
  have hfree : ∀ {c : IouringCtx}, Issues n ctx c → PoolCalls n ctx (c.ioOpFree op).2 :=
    fun hc => hc.calls.tail (.ioOpFree op (hc.keeps hop))
  cases prog with
  | tunUdpRun conn tunFd =>
      simp only [Program.body, tunUdpRunBody]
      split
      · exact hfree (dtlsEncryptAndSendUdp_issues h conn _)
      · exact hfree (dtlsDecryptAndWriteTun_issues h conn tunFd _ _)
      · exact hfree (Between.refl ctx).issues
  | tunUdpRunZero conn tunFd =>
      simp only [Program.body, tunUdpRunZeroBody]
      split
      · exact hfree (tunToUdp_issues h conn hop)
      · have hlearnt : Issues n ctx (learnAddr ctx conn op).1 :=
          (learnAddr_between ctx conn op).issues
        exact hfree (hlearnt.trans (udpToTun_issues (hlearnt.balanced h) tunFd (hlearnt.keeps hop)))
      · exact hfree (Between.refl ctx).issues
  | forwarderRun inbound outbound =>
      have hforward : Issues n ctx (forwardUdpPacket api ctx inbound outbound op).2.1 := by
        unfold forwardUdpPacket
        dsimp only
        split
        · exact (Between.refl ctx).issues
        split
        · exact forwardBetween_issues h inbound outbound _ _
        · exact forwardBetween_issues h outbound inbound _ _
      simp only [Program.body, forwarderRunBody]
      split
      · exact .refl
      generalize forwardUdpPacket api ctx inbound outbound op = out at *
      split
      · exact hforward.calls
      · exact hfree hforward

theorem call_calls {s : HandshakeState σ} (h : Balanced n s.uring) :
    PoolCalls n s.uring (s.call api).uring := by
  have hflight := sendFlight_issues h (s.conn.after (api.doHandshake s.conn.ssl s.conn.rbio))
  unfold HandshakeState.call
  dsimp only
  split
  · rw [(conclude_frame _ _ _).1]
    exact .refl
  generalize sendFlight s.uring _ = out at *
  split
  · exact hflight.calls
  · rw [(conclude_frame _ _ _).1]
    exact hflight.calls

/-! ## Sessions -/

theorem Inv.completed_live {held : Multiset OpId} {taken : Multiset Nat} (h : Inv ctx held taken)
    {c : Cqe} {cq : List Cqe} (hcq : ctx.ring.cq = c :: cq) :
    (ctx.iouringCqeSeen c cq).Live ctx.config.nIoOps c.req.userData := by
  have hmem : c ∈ ctx.ring.cq := by
    rw [hcq]
    exact List.mem_cons_self
  have hop : c.req.userData ∈ held + ctx.ring.requests :=
    Multiset.mem_add.mpr (.inr (mem_requests_of_posted (h.cq c hmem).1))
  refine ⟨?_, h.not_mem_pool hop⟩
  apply Multiset.mem_range.mp
  rw [← h.opLedger]
  exact Multiset.mem_add.mpr (.inr hop)

theorem kernel_between (ctx : IouringCtx) (e : KEvent) : Between ctx (ctx.kernel e) := by
  have hperform : ∀ r res data name, Between ctx (ctx.perform r res data name) := by
    intro r res data name
    unfold IouringCtx.perform
    split
    · exact .refl ctx
    split
    · exact Between.store ctx _ _
    · exact (Between.store ctx _ _).trans (Between.store _ _ _)
    · exact .same rfl rfl rfl rfl
    · exact .same rfl rfl rfl rfl
    · exact .refl ctx
  have hpost : ∀ (ctx' : IouringCtx) (c : Cqe), Between ctx' (ctx'.post c) :=
    fun _ _ => .same rfl rfl rfl rfl
  cases e with
  | complete op res data name tag =>
      simp only [IouringCtx.kernel]
      split
      · exact .refl ctx
      · exact (hperform _ _ _ _).trans (hpost _ _)
  | recv op bid res data more tag =>
      simp only [IouringCtx.kernel]
      split
      · exact .refl ctx
      split
      · exact .same rfl rfl rfl rfl
      · exact .refl ctx
  | fail op res =>
      simp only [IouringCtx.kernel]
      split
      · exact .refl ctx
      split
      · exact hpost _ _
      · exact .refl ctx

theorem cqeSeen_issues (ctx : IouringCtx) (c : Cqe) (cq : List Cqe) :
    Issues n ctx (ctx.iouringCqeSeen c cq) :=
  Between.issues (.same rfl rfl rfl rfl)

theorem handshake_takeCqe_calls {s : HandshakeState σ} (h : Balanced n s.uring) {c : Cqe}
    {cq : List Cqe} (hop : (s.uring.iouringCqeSeen c cq).Live n c.req.userData) :
    PoolCalls n s.uring (s.takeCqe c cq).uring := by
  have hseen : Issues n s.uring (s.uring.iouringCqeSeen c cq) := cqeSeen_issues ..
  obtain ⟨hcalls, hrecv⟩ := waitForRecvBody_calls (hseen.balanced h) hop
  unfold HandshakeState.takeCqe
  generalize (s.uring.iouringCqeSeen c cq).waitForRecvBody c = out at *
  obtain ⟨step, ctx⟩ := out
  cases step with
  | again => exact hseen.calls.trans hcalls
  | null => exact hseen.calls.trans hcalls
  | recv op =>
      obtain ⟨rfl, hissues⟩ := hrecv op rfl
      have hassert : ∀ b, Issues n (s.uring.iouringCqeSeen c cq) (ctx.assert b) :=
        fun b => hissues.trans (Between.assert ctx b).issues
      have hlearnt : ∀ b, Issues n (s.uring.iouringCqeSeen c cq)
          (learnAddr (ctx.assert b) s.conn c.req.userData).1 :=
        fun b => (hassert b).trans (learnAddr_between _ s.conn c.req.userData).issues
      dsimp only
      split
      · exact hseen.calls.trans (hassert _).calls
      · exact hseen.calls.trans ((hlearnt _).calls.tail (.ioOpFree _ ((hlearnt _).keeps hop)))

theorem loop_takeCqe_calls {s : LoopState σ} (h : Balanced n s.uring) {c : Cqe} {cq : List Cqe}
    (hop : (s.uring.iouringCqeSeen c cq).Live n c.req.userData) :
    PoolCalls n s.uring (takeCqe api s c cq).uring := by
  have hseen : Issues n s.uring (s.uring.iouringCqeSeen c cq) := cqeSeen_issues ..
  obtain ⟨hcalls, hrecv⟩ := waitForRecvBody_calls (hseen.balanced h) hop
  unfold takeCqe
  generalize (s.uring.iouringCqeSeen c cq).waitForRecvBody c = out at *
  obtain ⟨step, ctx⟩ := out
  cases step with
  | again => exact hseen.calls.trans hcalls
  | null => exact hseen.calls.trans hcalls
  | recv op =>
      obtain ⟨rfl, hissues⟩ := hrecv op rfl
      have hbody : PoolCalls n ctx (s.prog.body api ctx c.req.userData).2.2.1 :=
        body_calls (hissues.balanced (hseen.balanced h)) (hissues.keeps hop) s.prog
      dsimp only
      rw [atLoopHead_eq]
      exact (hseen.calls.trans hissues.calls).trans hbody

theorem Balanced.completed_live (h : Balanced n ctx) (hsound : Sound ctx) {c : Cqe} {cq : List Cqe}
    (hcq : ctx.ring.cq = c :: cq) : (ctx.iouringCqeSeen c cq).Live n c.req.userData := by
  obtain ⟨live, hstock⟩ := h
  obtain ⟨held, taken, hinv⟩ := hsound
  rw [← hstock.size]
  exact hinv.completed_live hcq

theorem handshake_step_calls {s : HandshakeState σ} (h : Balanced n s.uring) (hs : HandshakeSound s)
    (e : HandshakeEvent) : PoolCalls n s.uring (s.step api e).uring := by
  cases e with
  | call =>
      simp only [HandshakeState.step]
      split
      · exact call_calls h
      · exact .refl
  | kernel e => exact .single (.between (kernel_between s.uring e))
  | wake =>
      simp only [HandshakeState.step]
      split
      · rename_i c cq hpc hcq
        exact handshake_takeCqe_calls h (h.completed_live (hs (by rw [hpc]; simp)).1 hcq)
      · exact .refl
  | waitError =>
      simp only [HandshakeState.step]
      split <;> exact .refl

theorem loop_step_calls {s : LoopState σ} (h : Balanced n s.uring)
    (hs : s.status.ok = true → Sound s.uring) (e : LoopEvent) :
    PoolCalls n s.uring (s.step api e).uring := by
  cases e with
  | kernel e => exact .single (.between (kernel_between s.uring e))
  | wake =>
      simp only [LoopState.step, LoopState.wake]
      split
      · rename_i c cq hstatus hcq
        exact loop_takeCqe_calls h (h.completed_live (hs (by rw [hstatus]; rfl)) hcq)
      · exact .refl
  | waitError =>
      simp only [LoopState.step]
      split <;> exact .refl
  | stop => exact .refl

theorem session_step_calls {s : Session σ} (h : Balanced n s.uring) (hs : s.Good)
    (e : SessionEvent) :
    PoolCalls n s.uring (s.step api e).uring := by
  cases s with
  | handshake stage s running =>
      cases e with
      | stop => exact .refl
      | proceed =>
          simp only [Session.step]
          split
          · cases stage with
            | inbound outbound => exact .refl
            | outbound inbound =>
                show PoolCalls n s.uring (LoopState.start _ _ _).uring
                rw [start_uring]
                exact .refl
            | edge tunFd =>
                have hreads := tunReads_issues h tunFd
                show PoolCalls n s.uring (Session.proceed s running (.edge tunFd)).uring
                unfold Session.proceed
                dsimp only [Session.uring] at hreads ⊢
                generalize s.uring.iouringInitialTunReads tunFd = out at *
                by_cases hret : out.1 ≠ 0
                · rw [if_pos hret]
                  exact hreads.calls
                · rw [if_neg hret]
                  dsimp only
                  rw [start_uring]
                  exact hreads.calls
          · exact .refl
      | call => exact handshake_step_calls h hs .call
      | kernel e => exact handshake_step_calls h hs (.kernel e)
      | wake => exact handshake_step_calls h hs .wake
      | waitError => exact handshake_step_calls h hs .waitError
  | loop s =>
      simp only [Session.step]
      split
      · exact .refl
      · exact loop_step_calls h hs _
  | returned uring =>
      cases e with
      | kernel e => exact .single (.between (kernel_between uring e))
      | _ => exact .refl

theorem session_start_calls {prog : Program σ} {running : Bool} {s : Session σ} (h : Balanced n ctx)
    (hstart : Session.start ctx prog running = some s) : PoolCalls n ctx s.uring := by
  cases started_of_start hstart with
  | edge conn tunFd harm => exact (armReceives_issues h harm).calls
  | zero conn tunFd hsub =>
      have hudp := iouringSubmitMultishotRecvmsg_issues h conn.udpFd
      show PoolCalls n ctx (LoopState.start _ _ _).uring
      rw [start_uring]
      unfold initialSubmissions IouringCtx.iouringInitialUdpRecvs at hsub
      simp only [useMultiRecv, if_true] at hsub
      generalize ctx.iouringSubmitMultishotRecvmsg conn.udpFd = out at *
      split at hsub
      · cases hsub
      have hreads := tunReads_issues (hudp.balanced h) tunFd
      generalize out.2.iouringInitialTunReads tunFd = out' at *
      split at hsub
      · cases hsub
      · obtain rfl := Option.some.inj hsub
        exact (hudp.trans hreads).calls
  | forwarder inbound outbound harm => exact (armReceives_issues h harm).calls

/-- Whatever a session does, its pools are used by calls on ops out of the pool. -/
theorem session_run_calls (config : IouringConfig) (sqeFree : Nat → Bool) (submits : Nat → Int)
    {prog : Program σ} {running : Bool} {s : Session σ}
    (hstart : Session.start (IouringCtx.iouringInit config sqeFree submits) prog running = some s)
    (es : List SessionEvent) :
    PoolCalls config.nIoOps (IouringCtx.iouringInit config sqeFree submits)
      (s.run api es).uring := by
  have hstock := stocked_iouringInit config sqeFree submits
  refine (Execution.run_invariant (fun _ => True) (fun s : Session σ => s.Good ∧
    PoolCalls config.nIoOps (IouringCtx.iouringInit config sqeFree submits) s.uring) ?_
      (fun _ _ => trivial) ?_).2
  · rintro s e - ⟨hgood, hcalls⟩
    exact ⟨good_step hgood e, hcalls.trans (session_step_calls (hstock.calls hcalls) hgood e)⟩
  · exact ⟨good_start config sqeFree submits hstart, session_start_calls ⟨0, hstock⟩ hstart⟩

/-- After any calls on ops out of the pool, and so whenever a session makes one,
a free op finds a free buffer. -/
theorem pools_capacity (config : IouringConfig) (sqeFree : Nat → Bool) (submits : Nat → Int) :
    (∀ ctx, PoolCalls config.nIoOps (IouringCtx.iouringInit config sqeFree submits) ctx →
      PoolCapacity config.nIoOps ctx) ∧
    ∀ {σ : Type} (api : Ssl σ) (prog : Program σ) (running : Bool) (s : Session σ),
      Session.start (IouringCtx.iouringInit config sqeFree submits) prog running = some s →
        ∀ es, PoolCalls config.nIoOps (IouringCtx.iouringInit config sqeFree submits)
          (s.run api es).uring := by
  constructor
  · intro ctx hcalls
    obtain ⟨live, hstock⟩ := (stocked_iouringInit config sqeFree submits).calls hcalls
    exact hstock.capacity
  · intro σ api prog running s hstart es
    exact session_run_calls config sqeFree submits hstart es

def handedOnRing : IouringCtx :=
  ((oneSlotRing.ioOpAlloc .tunRead 5 false).2.ioOpAllocBuf .udpSend 3 false (some 0)).2

/-- Both ops are live, and a buffer is left over. -/
theorem pools_capacity_handedOn : PoolCapacity 2 handedOnRing ∧ handedOnRing.ioOpPool = [] ∧
    handedOnRing.bufAddrPool = [1] := by
  refine ⟨?_, rfl, rfl⟩
  apply (pools_capacity ⟨8, 8, 1, 1, 2, 0, 0⟩ (fun _ => true) fun _ => 1).1
  have halloc : PoolCalls 2 oneSlotRing (oneSlotRing.ioOpAlloc .tunRead 5 false).2 :=
    .single (.ioOpAlloc .tunRead 5 false)
  exact halloc.tail (.ioOpAllocBuf .udpSend 3 false 0 ⟨by decide, by decide⟩)

end Dataplane.Proofs
