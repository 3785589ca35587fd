import Dataplane.Proofs.Sessions
import Dataplane.Proofs.ZeroCopy

/-!
# Every completed receive is armed again

A request is outstanding from the time it is queued until the program takes its
last completion.  The receives that are outstanding stay the same: whenever
`wait_for_recv` hands out an op, it has queued the receive that was completed
once more, unless the kernel goes on with it.
-/

namespace Dataplane.Model

variable {σ : Type}

/-- The requests whose last completion the program has not taken. -/
def IoUring.outstanding (ring : IoUring) : List Sqe :=
  ring.inflight ++ (ring.cq.filter Cqe.last).map Cqe.req

def IoUring.outstandingOf (ring : IoUring) (opcode : Opcode) : List Sqe :=
  ring.outstanding.filter fun r => r.opcode = opcode

def Program.sockets : Program σ → List Int
  | .tunUdpRun conn _ | .tunUdpRunZero conn _ => [conn.udpFd]
  | .forwarderRun inbound outbound => [inbound.udpFd, outbound.udpFd]

/-- `wait_for_recv` hands out `op`: `k` TUN reads are outstanding, each with an
op of its own and with a buffer of its own that is not the one of `op`, and one
multishot receive for each socket. -/
structure Capacity (k : Nat) (sockets : List Int) (ctx : IouringCtx) (op : OpId) : Prop where
  reads : (ctx.ring.outstandingOf .read).length = k
  multishots : ((ctx.ring.outstandingOf .recvmsgMultishot).map Sqe.fd).Perm sockets
  recvmsgs : ctx.ring.outstandingOf .recvmsg = []
  ops : ((ctx.ring.outstandingOf .read).map Sqe.userData).Nodup
  buffers : ((ctx.ring.outstandingOf .read).map Sqe.buffer).Nodup
  apart : ∀ r ∈ ctx.ring.outstandingOf .read, r.userData ≠ op ∧
    ∃ b, r.buffer = some (.buf b) ∧ (ctx.ops r.userData).bufAddr = some b ∧
      ∀ p, (ctx.ops op).buffer = some p → p.buffer ≠ .item b

end Dataplane.Model

namespace Dataplane.Proofs

open ProofSupport Model Ledger

variable {σ : Type} {api : Ssl σ} {ctx ctx' : IouringCtx} {held : Multiset OpId}
  {taken : Multiset Nat}

/-! ## Counting receives -/

def receives (rs : List Sqe) : Multiset (Opcode × Int) :=
  ((rs.filter fun r => !r.opcode.outgoing).map fun r => (r.opcode, r.fd) : List (Opcode × Int))

@[simp] theorem receives_nil : receives [] = 0 := rfl

theorem receives_append (rs ss : List Sqe) : receives (rs ++ ss) = receives rs + receives ss := by
  simp only [receives, List.filter_append, List.map_append, ← Multiset.coe_add]

theorem receives_perm {rs ss : List Sqe} (h : rs.Perm ss) : receives rs = receives ss :=
  Multiset.coe_eq_coe.mpr ((h.filter _).map _)

theorem receives_incoming {r : Sqe} (h : r.opcode.outgoing = false) :
    receives [r] = {(r.opcode, r.fd)} := by
  simp [receives, h]

theorem receives_outgoing {rs : List Sqe} (h : ∀ r ∈ rs, r.opcode.outgoing = true) :
    receives rs = 0 := by
  have hnone : (rs.filter fun r => !r.opcode.outgoing) = [] := by
    apply List.filter_eq_nil_iff.mpr
    intro r hr
    simp [h r hr]
  simp [receives, hnone]

theorem filter_receives {opcode : Opcode} (hin : opcode.outgoing = false) (rs : List Sqe) :
    ((receives rs).filter fun p => p.1 = opcode).map Prod.snd =
      ((rs.filter fun r => r.opcode = opcode).map Sqe.fd : List Int) := by
  simp only [receives, Multiset.filter_coe, Multiset.map_coe, List.filter_map, List.map_map,
    List.filter_filter]
  congr 2
  apply List.filter_congr
  intro r _
  by_cases hr : r.opcode = opcode
  · simp [hr, hin]
  · simp [hr]

theorem Effect.receives {rs : List Sqe} (h : Effect ctx ctx' rs) :
    receives ctx'.ring.outstanding = receives ctx.ring.outstanding + receives rs := by
  simp only [IoUring.outstanding, h.inflight, h.cq, receives_append]
  abel

theorem kernel_receives (ctx : IouringCtx) (e : KEvent) :
    receives (ctx.kernel e).ring.outstanding = receives ctx.ring.outstanding := by
  rcases kernel_posted ctx e with heq | ⟨c, hpost⟩
  · rw [heq]
  simp only [IoUring.outstanding, IoUring.inflight, hpost.active, hpost.sq, hpost.cq,
    List.filter_append, List.map_append, receives_append]
  cases hmore : c.flags.more with
  | true => simp [Cqe.last, hmore]
  | false =>
      have hactive := receives_perm (List.perm_cons_erase hpost.req)
      rw [← List.singleton_append, receives_append] at hactive
      simp only [hactive, Cqe.last, hmore, List.filter_cons, List.filter_nil, Bool.not_false,
        Bool.false_eq_true, if_true, if_false, List.map_cons, List.map_nil]
      abel

theorem seen_receives {c : Cqe} {cq : List Cqe} (hcq : ctx.ring.cq = c :: cq) :
    receives ctx.ring.outstanding = receives (if c.last then [c.req] else []) +
      receives (ctx.iouringCqeSeen c cq).ring.outstanding := by
  simp only [IoUring.outstanding, IoUring.inflight, IouringCtx.iouringCqeSeen, hcq,
    receives_append]
  cases hlast : c.last with
  | true =>
      simp only [List.filter_cons, hlast, if_true, List.map_cons]
      rw [← List.singleton_append, receives_append]
      abel
  | false => simp [hlast]

/-! ## Arming receives -/

theorem Submitted.queued_eq {mid : IouringCtx} {r : Sqe} {ret : Int}
    (h : Submitted ctx mid r (ret, ctx')) (hret : 0 ≤ ret) :
    ctx'.ring.queued = mid.ring.queued ++ [r] := by
  cases h with
  | refused f => omega
  | queued _ heff => exact heff.queued
  | failed _ _ _ => omega

theorem ioOpAlloc_queued {opType : OpType} {fd : Int} {isMulti : Bool} {op : OpId}
    (h : ctx.ioOpAlloc opType fd isMulti = (some op, ctx')) :
    ctx'.ring.queued = ctx.ring.queued ∧ (ctx'.ops op).opType = opType ∧ (ctx'.ops op).fd = fd ∧
      (ctx'.ops op).isMulti = isMulti := by
  cases isMulti with
  | true =>
      obtain ⟨ops, -, rfl⟩ := ioOpAlloc_multi_eq h
      simp [freshOp]
  | false =>
      obtain ⟨ops, b, bufs, -, -, rfl⟩ := ioOpAlloc_single_eq h
      simp [pooledOp, freshOp]

theorem resubmitRecv_receives {op : OpId} {opcode : Opcode}
    (hcode : opcode = .read ∨ opcode = .recvmsg) (htype : (ctx.ops op).opType = opcode.opType)
    {ret : Int} (hres : ctx.iouringResubmitRecv op = (ret, ctx')) (hret : 0 ≤ ret) :
    ∃ rs, ctx'.ring.queued = ctx.ring.queued ++ rs ∧
      receives rs = {(opcode, (ctx.ops op).fd)} := by
  unfold IouringCtx.iouringResubmitRecv at hres
  rcases ha : ctx.ioOpAlloc (ctx.ops op).opType (ctx.ops op).fd false with ⟨_ | new, ctx1⟩
  · simp only [ha, Prod.mk.injEq] at hres
    omega
  obtain ⟨hqueued, hnewType, hnewFd, hsingle⟩ := ioOpAlloc_queued ha
  rw [htype] at ha hnewType
  simp only [htype, ha] at hres
  rcases hcode with rfl | rfl
  · have hs := iouringSubmitTunRead_submitted hnewType
    rw [show ctx1.iouringSubmitTunRead new = (ret, ctx') from hres] at hs
    refine ⟨_, (hs.queued_eq hret).trans (by rw [hqueued]), ?_⟩
    rw [receives_incoming rfl, ← hnewFd]
    rfl
  · have hs := iouringSubmitUdpRecv_submitted hnewType hsingle
    rw [show ctx1.iouringSubmitUdpRecv new = (ret, ctx') from hres] at hs
    refine ⟨_, (hs.queued_eq hret).trans (by rw [modOp_ring, hqueued]), ?_⟩
    rw [receives_incoming rfl, ← hnewFd]
    simp [IouringCtx.mkSqe, IouringCtx.recvMsghdr]

theorem submitMultishotRecvmsgOp_receives {op : OpId} (hmulti : (ctx.ops op).isMulti = true)
    {ret : Int} (hres : ctx.iouringSubmitMultishotRecvmsgOp op = (ret, ctx')) (hret : 0 ≤ ret) :
    ∃ rs, ctx'.ring.queued = ctx.ring.queued ++ rs ∧
      receives rs = {(.recvmsgMultishot, (ctx.ops op).fd)} := by
  have hs := iouringSubmitMultishotRecvmsgOp_submitted hmulti
  rw [hres] at hs
  exact ⟨_, hs.queued_eq hret, receives_incoming rfl⟩

theorem multishotRecvmsgOut_receives {op : OpId} {flags : CqeFlags}
    (hmulti : (ctx.ops op).isMulti = true) {ret : Int}
    (hres : ctx.iouringMultishotRecvmsgOut op flags = (ret, ctx')) (hret : 0 ≤ ret) :
    ∃ rs, ctx'.ring.queued = ctx.ring.queued ++ rs ∧
      receives rs = if flags.more then 0 else {(.recvmsgMultishot, (ctx.ops op).fd)} := by
  have hself := modOp_self ctx op (present ctx op flags.bid)
  have hdec := iouringMultishotRecvmsgOut_decoded ctx op flags
  rw [hres] at hdec
  cases hdec with
  | noBuffer => omega
  | rejected => omega
  | presented _ _ hmore =>
      rw [hmore]
      exact ⟨[], (List.append_nil _).symm, rfl⟩
  | rearmed _ _ hmore hsub =>
      have hmulti' : ((ctx.modOp op (present ctx op flags.bid)).ops op).isMulti = true := by
        rw [hself]
        exact hmulti
      obtain ⟨rs, hqueued, hrs⟩ := submitMultishotRecvmsgOp_receives hmulti' hsub le_rfl
      refine ⟨rs, hqueued, ?_⟩
      rw [hrs, hself, hmore]
      rfl
  | stopped => omega

/-- What `wait_for_recv` queues when it hands out an op: the receive that was
completed, if this was its last completion. -/
theorem waitForRecvBody_receives {c : Cqe} (hc : CqeOk ctx c) {op : OpId}
    (hres : ctx.waitForRecvBody c = (.recv op, ctx')) :
    op = c.req.userData ∧ ∃ rs, ctx'.ring.queued = ctx.ring.queued ++ rs ∧
      receives rs = receives (if c.last then [c.req] else []) := by
  by_cases hneg : c.res < 0
  · rw [waitForRecvBody_error hneg] at hres
    cases hres
  have hnonneg : 0 ≤ c.res := by omega
  have hself := modOp_self ctx c.req.userData fun o => { o with dataLen := c.res }
  have hqueued : (ctx.modOp c.req.userData fun o => { o with dataLen := c.res }).ring.queued =
      ctx.ring.queued := rfl
  rw [← hqueued]
  cases hin : c.req.opcode.outgoing with
  | true =>
      rw [hc.req.body_outgoing hin hnonneg] at hres
      cases hres
  | false =>
      by_cases hcode : c.req.opcode = .recvmsgMultishot
      · rw [hc.req.body_multishot hcode hnonneg] at hres
        obtain ⟨rfl, hret, rfl⟩ := waitForRecvDone_recv hres
        have hm := (hc.req.multi hcode).multi
        obtain ⟨rs, hrs, heq⟩ := multishotRecvmsgOut_receives (hself ▸ hm) rfl hret
        refine ⟨rfl, rs, hrs, ?_⟩
        rw [heq, hself]
        dsimp only
        rw [hc.req.fd]
        cases hmore : c.flags.more with
        | true => simp [Cqe.last, hmore]
        | false =>
            simp only [Cqe.last, hmore, Bool.not_false, if_true, Bool.false_eq_true, if_false]
            rw [receives_incoming hin, hcode]
      · have hsingle := Opcode.single_cases hin hcode
        rw [hc.req.body_single hsingle hnonneg] at hres
        obtain ⟨rfl, hret, rfl⟩ := waitForRecvDone_recv hres
        obtain ⟨rs, hrs, heq⟩ := resubmitRecv_receives hsingle
          ((congrArg IoOp.opType hself).trans hc.req.opType) rfl hret
        have hlast : c.last = true := by simp [Cqe.last, (hc.single hcode).2.1]
        refine ⟨rfl, rs, hrs, ?_⟩
        rw [heq, hself, if_pos hlast, receives_incoming hin]
        dsimp only
        rw [hc.req.fd]

theorem Inv.wait_receives (h : Inv ctx held taken) {c : Cqe} {cq : List Cqe}
    (hcq : ctx.ring.cq = c :: cq) {op : OpId}
    (hres : (ctx.iouringCqeSeen c cq).waitForRecvBody c = (.recv op, ctx')) :
    receives ctx'.ring.outstanding = receives ctx.ring.outstanding := by
  obtain ⟨rfl, rs, hqueued, hrs⟩ := waitForRecvBody_receives (h.seen_cqeOk hcq).1 hres
  cases h.wait hcq hres with
  | recv rs' got idx _ _ heff _ _ _ =>
      have heq : rs = rs' := List.append_cancel_left (hqueued.symm.trans heff.queued)
      rw [heff.receives, ← heq, hrs, seen_receives hcq, add_comm]

theorem Inv.again_receives (h : Inv ctx held taken) {c : Cqe} {cq : List Cqe}
    (hcq : ctx.ring.cq = c :: cq)
    (hres : (ctx.iouringCqeSeen c cq).waitForRecvBody c = (.again, ctx')) :
    receives ctx'.ring.outstanding = receives ctx.ring.outstanding := by
  cases h.wait hcq hres with
  | again _ hout heff _ =>
      have hnone : receives (if c.last then [c.req] else []) = 0 := by
        apply receives_outgoing
        intro r hr
        split at hr
        · rw [List.mem_singleton.mp hr]
          exact hout
        · simp at hr
      rw [heff.receives, receives_nil, add_zero, seen_receives hcq, hnone, zero_add]

/-! ## Steps -/

theorem Inv.loop_receives {s : LoopState σ} (h : Inv s.uring held taken) (e : LoopEvent)
    (hok : (s.step api e).status.ok = true) :
    receives (s.step api e).uring.ring.outstanding = receives s.uring.ring.outstanding := by
  cases e with
  | kernel e => exact kernel_receives s.uring e
  | waitError =>
      simp only [LoopState.step]
      split <;> rfl
  | stop => rfl
  | wake =>
      simp only [LoopState.step, LoopState.wake] at hok ⊢
      split at hok
      · rename_i c cq _ hcq
        unfold Model.takeCqe at hok ⊢
        rcases hstep : (s.uring.iouringCqeSeen c cq).waitForRecvBody c with ⟨step, ctx⟩
        rw [hstep] at hok
        cases step with
        | again => exact h.again_receives hcq hstep
        | null => simp [Status.ok] at hok
        | recv op =>
            have hkept := h.wait_receives hcq hstep
            cases h.wait hcq hstep with
            | recv rs got idx _ hin _ _ hinv hrecv =>
                rcases hbody : s.prog.body api ctx c.req.userData with ⟨ret, rest, ctx', prog⟩
                obtain ⟨rs', hh⟩ := hinv.body hrecv hin hbody
                simp only [hbody, atLoopHead_eq]
                rw [hh.effect.receives, receives_outgoing hh.entry, add_zero, hkept]
      · rfl

theorem takeCqe_ring (s : HandshakeState σ) (c : Cqe) (cq : List Cqe) :
    (s.takeCqe c cq).uring.ring =
      ((s.uring.iouringCqeSeen c cq).waitForRecvBody c).2.ring := by
  unfold HandshakeState.takeCqe
  rcases (s.uring.iouringCqeSeen c cq).waitForRecvBody c with ⟨step, ctx⟩
  cases step with
  | again => rfl
  | null => rfl
  | recv op =>
      dsimp only
      split
      · rfl
      · simp only [(ioOpFree_ring _ _).1, learnAddr_ring]
        rfl

theorem HandshakeSound.receives {s : HandshakeState σ} (h : HandshakeSound s) (e : HandshakeEvent)
    (hpc : (s.step api e).pc ≠ .returned (-1)) :
    receives (s.step api e).uring.ring.outstanding = receives s.uring.ring.outstanding := by
  cases e with
  | kernel e => exact kernel_receives s.uring e
  | waitError =>
      simp only [HandshakeState.step]
      split <;> rfl
  | call =>
      simp only [HandshakeState.step]
      split
      · rename_i hcalling
        obtain ⟨⟨held, taken, hinv⟩, -⟩ := h (by rw [hcalling]; simp)
        obtain ⟨outs, hcalled⟩ := hinv.call api
        have hout : ∀ r ∈ outs, r.opcode.outgoing = true := fun r hr =>
          (hcalled.entry r hr).outgoing
        rw [hcalled.effect.receives, receives_outgoing hout, add_zero]
      · rfl
  | wake =>
      simp only [HandshakeState.step] at hpc ⊢
      split
      · rename_i c cq hwaiting hcq
        obtain ⟨⟨held, taken, hinv⟩, -⟩ := h (by rw [hwaiting]; simp)
        rw [takeCqe_ring]
        rcases hstep : (s.uring.iouringCqeSeen c cq).waitForRecvBody c with ⟨step, ctx⟩
        cases step with
        | again => exact hinv.again_receives hcq hstep
        | recv op => exact hinv.wait_receives hcq hstep
        | null =>
            simp only [hwaiting, hcq, HandshakeState.takeCqe, hstep] at hpc
            exact absurd rfl hpc
      · rfl

/-! ## The receives of a session -/

def multishots (sockets : List Int) : Multiset (Opcode × Int) :=
  (sockets.map fun fd => (.recvmsgMultishot, fd) : List (Opcode × Int))

theorem submitMultishotRecvmsg_receives {fd : Int} (h : Inv ctx held taken)
    (hres : ctx.iouringSubmitMultishotRecvmsg fd = (0, ctx')) :
    receives ctx'.ring.outstanding = receives ctx.ring.outstanding + multishots [fd] := by
  obtain ⟨rs, heff, -, -⟩ := h.iouringSubmitMultishotRecvmsg hres
  unfold IouringCtx.iouringSubmitMultishotRecvmsg at hres
  rcases ha : ctx.ioOpAlloc .udpRecv fd true with ⟨_ | op, ctx1⟩
  · simp [ha] at hres
  obtain ⟨hqueued, -, hfd, hmulti⟩ := ioOpAlloc_queued ha
  simp only [ha] at hres
  obtain ⟨rs', hrs, heq⟩ := submitMultishotRecvmsgOp_receives (by simp [hmulti]) hres le_rfl
  rw [modOp_ring, hqueued] at hrs
  have hsame : rs' = rs := List.append_cancel_left (hrs.symm.trans heff.queued)
  rw [heff.receives, ← hsame, heq, modOp_self, hfd]
  rfl

theorem armReceives_receives {fds : List Int} (h : Inv ctx held taken)
    (hres : armReceives true ctx fds = some ctx') :
    Inv ctx' held taken ∧
      receives ctx'.ring.outstanding = receives ctx.ring.outstanding + multishots fds := by
  have hall : Inv ctx' held taken ∧ receives ctx'.ring.outstanding + multishots [] =
      receives ctx.ring.outstanding + multishots fds := by
    apply armReceives_rule (P := fun left mid => Inv mid held taken ∧
      receives mid.ring.outstanding + multishots left =
        receives ctx.ring.outstanding + multishots fds) _ hres ⟨h, rfl⟩
    rintro fd left mid mid1 hsub ⟨hinv, hmid⟩
    obtain ⟨rs, -, -, hinv'⟩ := hinv.iouringSubmitMultishotRecvmsg hsub
    refine ⟨hinv', ?_⟩
    rw [submitMultishotRecvmsg_receives hinv hsub, add_assoc]
    exact hmid
  exact ⟨hall.1, (add_zero _).symm.trans hall.2⟩

theorem initialTunReads_receives {fd : Int} (h : Inv ctx held taken)
    (hres : ctx.iouringInitialTunReads fd = (0, ctx')) :
    ∃ k, receives ctx'.ring.outstanding =
      Multiset.replicate k (.read, fd) + receives ctx.ring.outstanding := by
  obtain ⟨rs, heff, hin, -⟩ := h.initialRecvs (.inl ⟨rfl, rfl⟩) hres
  refine ⟨rs.length, ?_⟩
  have hread : ∀ r ∈ rs, r.opcode = .read := by
    intro r hr
    have htype := (hin r hr).opType
    revert htype
    cases r.opcode <;> simp [Opcode.opType]
  have hall : receives rs = Multiset.replicate rs.length (.read, fd) := by
    have hfilter : (rs.filter fun r => !r.opcode.outgoing) = rs := by
      apply List.filter_eq_self.mpr
      intro r hr
      rw [hread r hr]
      rfl
    rw [receives, hfilter, ← Multiset.coe_replicate, Multiset.coe_eq_coe]
    apply List.Perm.of_eq
    apply List.eq_replicate_iff.mpr
    refine ⟨List.length_map _, fun p hp => ?_⟩
    obtain ⟨r, hr, rfl⟩ := List.mem_map.mp hp
    rw [hread r hr, (hin r hr).fd]
  rw [heff.receives, hall, add_comm]

def Armed (sockets : List Int) : Session σ → Prop
  | .handshake _ s _ => s.pc ≠ .returned (-1) →
      receives s.uring.ring.outstanding = multishots sockets
  | .loop s => s.status.ok = true → ∃ k fd,
      receives s.uring.ring.outstanding = Multiset.replicate k (.read, fd) + multishots sockets
  | .returned _ => True

theorem armed_loop {sockets : List Int} {prog : Program σ} {running : Bool} (k : Nat) (fd : Int)
    (h : receives ctx.ring.outstanding = Multiset.replicate k (.read, fd) + multishots sockets) :
    Armed sockets (.loop (.start ctx prog running)) := by
  intro _
  rw [start_uring]
  exact ⟨k, fd, h⟩

theorem armed_step {sockets : List Int} {s : Session σ} (hgood : s.Good) (h : Armed sockets s)
    (e : SessionEvent) : Armed sockets (s.step api e) := by
  cases s with
  | handshake stage s running =>
      have hstep : ∀ e, Armed sockets (.handshake stage (s.step api e) running) := by
        intro e hpc
        rw [HandshakeSound.receives hgood e hpc]
        exact h fun hback => hpc (step_returned hback e)
      cases e with
      | stop => exact h
      | proceed =>
          simp only [Session.step]
          split
          · rename_i hpc
            have harmed := h (by rw [hpc]; simp)
            obtain ⟨⟨held, taken, hinv⟩, -⟩ := hgood (by rw [hpc]; simp)
            cases stage with
            | inbound outbound => exact fun _ => harmed
            | outbound inbound => exact armed_loop 0 0 (by simpa using harmed)
            | edge tunFd =>
                unfold Session.proceed
                dsimp only
                split
                · trivial
                rename_i hret
                have hread : s.uring.iouringInitialTunReads tunFd =
                    (0, (s.uring.iouringInitialTunReads tunFd).2) := Prod.ext (not_not.mp hret) rfl
                obtain ⟨k, hk⟩ := initialTunReads_receives hinv hread
                exact armed_loop k tunFd (hk.trans (by rw [harmed]))
          · exact h
      | call => exact hstep .call
      | kernel e => exact hstep (.kernel e)
      | wake => exact hstep .wake
      | waitError => exact hstep .waitError
  | loop s =>
      simp only [Session.step]
      split
      · exact h
      · intro hok
        obtain ⟨held, taken, hinv⟩ := hgood (step_ok hok)
        rw [hinv.loop_receives _ hok]
        exact h (step_ok hok)
  | returned uring => cases e <;> trivial

theorem armed_run (api : Ssl σ) {sockets : List Int} {s : Session σ} (hgood : s.Good)
    (h : Armed sockets s)
    (es : List SessionEvent) : Armed sockets (s.run api es) :=
  (Execution.run_invariant (fun _ => True) (fun s => s.Good ∧ Armed sockets s)
    (fun _ e _ hs => ⟨good_step hs.1 e, armed_step hs.1 hs.2 e⟩) (fun _ _ => trivial)
    ⟨hgood, h⟩).2

theorem armed_start (config : IouringConfig) (sqeFree : Nat → Bool) (submits : Nat → Int)
    {prog : Program σ} {running : Bool} {s : Session σ}
    (hstart : Session.start (IouringCtx.iouringInit config sqeFree submits) prog running = some s) :
    Armed prog.sockets s := by
  have hinit := inv_iouringInit config sqeFree submits
  have hnone : receives (IouringCtx.iouringInit config sqeFree submits).ring.outstanding = 0 := rfl
  generalize IouringCtx.iouringInit config sqeFree submits = ctx at *
  cases started_of_start hstart with
  | edge conn tunFd harm =>
      intro _
      exact (armReceives_receives hinit harm).2.trans (by rw [hnone, zero_add]; rfl)
  | zero conn tunFd hsub =>
      unfold initialSubmissions at hsub
      dsimp only at hsub
      rcases hrecv : ctx.iouringInitialUdpRecvs conn.udpFd with ⟨ret, ctx1⟩
      simp only [hrecv] at hsub
      by_cases hret : ret = 0
      · subst hret
        obtain ⟨rs, -, -, hinv⟩ := hinit.iouringSubmitMultishotRecvmsg hrecv
        have harmed := submitMultishotRecvmsg_receives hinit hrecv
        rcases hread : ctx1.iouringInitialTunReads tunFd with ⟨ret', ctx2⟩
        simp only [hread] at hsub
        by_cases hret' : ret' = 0
        · subst hret'
          simp only [ne_eq, not_true_eq_false, if_false, Option.some.injEq] at hsub
          subst hsub
          obtain ⟨k, hk⟩ := initialTunReads_receives hinv hread
          exact armed_loop k tunFd (hk.trans (by rw [harmed, hnone, zero_add]; rfl))
        · simp [hret'] at hsub
      · simp [hret] at hsub
  | forwarder inbound outbound harm =>
      intro _
      exact (armReceives_receives hinit harm).2.trans (by rw [hnone, zero_add]; rfl)

/-! ## Where `wait_for_recv` hands out an op -/

theorem outstanding_requests (ring : IoUring) :
    ((ring.outstanding.map Sqe.userData : List OpId) : Multiset OpId) = ring.requests := by
  rw [requests_eq, IoUring.outstanding, List.map_append, List.map_map, ← Multiset.coe_add]
  rfl

theorem Inv.outstanding_reqOk (h : Inv ctx held taken) {r : Sqe}
    (hr : r ∈ ctx.ring.outstanding) :
    r.userData ∈ ctx.ring.requests ∧ ReqOk (ctx.ops r.userData) r := by
  refine ⟨?_, ?_⟩
  · rw [← outstanding_requests]
    exact Multiset.mem_coe.mpr (List.mem_map_of_mem hr)
  · rcases List.mem_append.mp hr with hr | hr
    · exact (h.inflight r hr).1
    · obtain ⟨c, hc, rfl⟩ := List.mem_map.mp hr
      exact (h.cq c (List.mem_filter.mp hc).1).2.req

theorem mem_outstandingOf {ring : IoUring} {opcode : Opcode} {r : Sqe} :
    r ∈ ring.outstandingOf opcode ↔ r ∈ ring.outstanding ∧ r.opcode = opcode := by
  simp [IoUring.outstandingOf]

theorem Inv.outstanding_nodup (h : Inv ctx held taken) (opcode : Opcode) :
    ((ctx.ring.outstandingOf opcode).map Sqe.userData).Nodup := by
  have hnd := (Multiset.nodup_add.mp h.nodup).2.1
  rw [← outstanding_requests, Multiset.coe_nodup] at hnd
  exact (List.filter_sublist.map Sqe.userData).nodup hnd

theorem Inv.read_buffer (h : Inv ctx held taken) {r : Sqe}
    (hr : r ∈ ctx.ring.outstandingOf .read) :
    ∃ b, r.buffer = some (.buf b) ∧ Pooled (ctx.ops r.userData) b := by
  obtain ⟨hr, hcode⟩ := mem_outstandingOf.mp hr
  obtain ⟨b, hp, hbuffer⟩ := (h.outstanding_reqOk hr).2.pooled_of_incoming (.inl hcode)
  exact ⟨b, hbuffer, hp⟩

theorem Inv.read_buffers (h : Inv ctx held taken) :
    ((ctx.ring.outstandingOf .read).map Sqe.buffer).Nodup := by
  have hnd := h.outstanding_nodup .read
  apply List.Nodup.map_on _ hnd.of_map
  intro r hr r' hr' heq
  apply List.inj_on_of_nodup_map hnd hr hr'
  obtain ⟨b, hb, hp⟩ := h.read_buffer hr
  obtain ⟨b', hb', hp'⟩ := h.read_buffer hr'
  rw [hb, hb'] at heq
  cases heq
  have hmem : ∀ {r}, r ∈ ctx.ring.outstandingOf .read → r.userData ∈ held + ctx.ring.requests :=
    fun hr => Multiset.mem_add.mpr
      (.inr (h.outstanding_reqOk (mem_outstandingOf.mp hr).1).1)
  apply h.item_owner (hmem hr) (hmem hr')
  · rw [hp.items]
    exact Multiset.mem_singleton_self b
  · rw [hp'.items]
    exact Multiset.mem_singleton_self b

theorem Received.apart {c : Cqe} {op : OpId} {got : Multiset OpId} {idx : Multiset Nat}
    (hrecv : Received ctx c op got idx) (h : Inv ctx (got + held) (idx + taken)) {r : Sqe}
    (hr : r ∈ ctx.ring.outstandingOf .read) : r.userData ≠ op ∧
      ∃ b, r.buffer = some (.buf b) ∧ (ctx.ops r.userData).bufAddr = some b ∧
        ∀ p, (ctx.ops op).buffer = some p → p.buffer ≠ .item b := by
  obtain ⟨b, hbuffer, hp⟩ := h.read_buffer hr
  obtain ⟨hreq, -⟩ := h.outstanding_reqOk (mem_outstandingOf.mp hr).1
  cases hrecv with
  | single b' _ _ _ hp' _ _ _ =>
      have hheld : op ∈ {op} + held :=
        Multiset.mem_add.mpr (.inl (Multiset.mem_singleton_self op))
      have hne : r.userData ≠ op := by
        intro heq
        rw [heq] at hreq
        exact h.not_mem_requests hheld hreq
      refine ⟨hne, b, hbuffer, hp.bufAddr, ?_⟩
      intro p hptr hitem
      rw [hp'.buffer] at hptr
      cases hptr
      cases hitem
      apply hne
      apply h.item_owner (Multiset.mem_add.mpr (.inr hreq)) (Multiset.mem_add.mpr (.inl hheld))
      · rw [hp.items]
        exact Multiset.mem_singleton_self b
      · rw [hp'.items]
        exact Multiset.mem_singleton_self b
  | multi _ _ _ hpres _ _ =>
      refine ⟨?_, b, hbuffer, hp.bufAddr, ?_⟩
      · intro heq
        have hsingle := hp.single
        rw [heq, hpres.multi.multi] at hsingle
        cases hsingle
      · intro p hptr hitem
        rw [hpres.buffer] at hptr
        cases hptr
        cases hitem

theorem outstandingOf_fd (ring : IoUring) (opcode : Opcode) (hin : opcode.outgoing = false) :
    (((ring.outstandingOf opcode).map Sqe.fd : List Int) : Multiset Int) =
      ((receives ring.outstanding).filter fun p => p.1 = opcode).map Prod.snd :=
  (filter_receives hin _).symm

theorem outstandingOf_receives {ring : IoUring} {k : Nat} {fd : Int} {sockets : List Int}
    (h : receives ring.outstanding = Multiset.replicate k (.read, fd) + multishots sockets) :
    (ring.outstandingOf .read).length = k ∧
      ((ring.outstandingOf .recvmsgMultishot).map Sqe.fd).Perm sockets ∧
      ring.outstandingOf .recvmsg = [] := by
  have hmulti : ∀ opcode, (multishots sockets).filter (fun p => p.1 = opcode) =
      if opcode = .recvmsgMultishot then multishots sockets else 0 := by
    intro opcode
    split
    · rename_i heq
      rw [Multiset.filter_eq_self]
      intro p hp
      obtain ⟨fd, -, rfl⟩ := List.mem_map.mp (Multiset.mem_coe.mp hp)
      exact heq.symm
    · rename_i hne
      rw [Multiset.filter_eq_nil]
      intro p hp heq
      obtain ⟨fd, -, rfl⟩ := List.mem_map.mp (Multiset.mem_coe.mp hp)
      exact hne heq.symm
  have hreads : ∀ opcode, (Multiset.replicate k (Opcode.read, fd)).filter (fun p => p.1 = opcode) =
      if opcode = .read then Multiset.replicate k (.read, fd) else 0 := by
    intro opcode
    split
    · rename_i heq
      rw [Multiset.filter_eq_self]
      intro p hp
      rw [Multiset.eq_of_mem_replicate hp, heq]
    · rename_i hne
      rw [Multiset.filter_eq_nil]
      intro p hp heq
      rw [Multiset.eq_of_mem_replicate hp] at heq
      exact hne heq.symm
  refine ⟨?_, ?_, ?_⟩
  · have hfds := outstandingOf_fd ring .read rfl
    rw [h, Multiset.filter_add, hreads, hmulti] at hfds
    have hcard := congrArg Multiset.card hfds
    simpa using hcard
  · have hfds := outstandingOf_fd ring .recvmsgMultishot rfl
    rw [h, Multiset.filter_add, hreads, hmulti] at hfds
    apply Multiset.coe_eq_coe.mp
    rw [hfds]
    simp [multishots, Function.comp_def]
  · have hfds := outstandingOf_fd ring .recvmsg rfl
    rw [h, Multiset.filter_add, hreads, hmulti] at hfds
    have hcard := congrArg Multiset.card hfds
    simpa using hcard

theorem Inv.capacity (h : Inv ctx held taken) {c : Cqe} {cq : List Cqe}
    (hcq : ctx.ring.cq = c :: cq) {op : OpId}
    (hres : (ctx.iouringCqeSeen c cq).waitForRecvBody c = (.recv op, ctx')) {k : Nat} {fd : Int}
    {sockets : List Int}
    (harmed : receives ctx.ring.outstanding = Multiset.replicate k
      (.read, fd) + multishots sockets) :
    Capacity k sockets ctx' op := by
  have hkept := h.wait_receives hcq hres
  obtain ⟨hreads, hmulti, hrecvmsg⟩ := outstandingOf_receives (hkept.trans harmed)
  cases h.wait hcq hres with
  | recv rs got idx _ _ _ _ hinv hrecv =>
      exact ⟨hreads, hmulti, hrecvmsg, hinv.outstanding_nodup .read, hinv.read_buffers,
        fun r hr => hrecv.apart hinv hr⟩

theorem loop_run_receives {s : LoopState σ} (h : Sound s.uring) (es : List LoopEvent)
    (hok : (s.run api es).status.ok = true) : Sound (s.run api es).uring ∧
      receives (s.run api es).uring.ring.outstanding = receives s.uring.ring.outstanding := by
  apply Execution.run_invariant (fun _ => True) (fun t : LoopState σ => t.status.ok = true →
    Sound t.uring ∧ receives t.uring.ring.outstanding = receives s.uring.ring.outstanding)
    (fun t e _ ht hok => ?_) (fun _ _ => trivial) (fun _ => ⟨h, rfl⟩) hok
  obtain ⟨⟨held, taken, hinv⟩, heq⟩ := ht (step_ok hok)
  exact ⟨⟨held, taken, hinv.loop_step e hok⟩, (hinv.loop_receives e hok).trans heq⟩

theorem loop_run_ok {s : LoopState σ} {es : List LoopEvent}
    (h : (s.run api es).status.ok = true) : s.status.ok = true := by
  induction es generalizing s with
  | nil => exact h
  | cons e es ih => exact step_ok (ih h)

/-- In every session, whenever `wait_for_recv` hands a loop an op, as many TUN
reads are outstanding as there were in any earlier state `s` of the loop, with
ops and buffers of their own, and one multishot receive for every socket. -/
theorem loops_capacity (api : Ssl σ) (config : IouringConfig) (sqeFree : Nat → Bool)
    (submits : Nat → Int) (prog : Program σ) (running : Bool) {start : Session σ}
    (hstart : Session.start (IouringCtx.iouringInit config sqeFree submits) prog running =
      some start) (es : List SessionEvent) {s : LoopState σ} (hs : start.run api es = .loop s)
    (fs : List LoopEvent) (hwait : (s.run api fs).status = .waiting) {c : Cqe} {cq : List Cqe}
    (hcq : (s.run api fs).uring.ring.cq = c :: cq) {op : OpId} {ctx : IouringCtx}
    (hrecv : ((s.run api fs).uring.iouringCqeSeen c cq).waitForRecvBody c = (.recv op, ctx)) :
    Capacity (s.uring.ring.outstandingOf .read).length prog.sockets ctx op := by
  have hgood := good_start config sqeFree submits hstart
  have hsound := good_run api hgood es
  have harmed := armed_run api hgood (armed_start config sqeFree submits hstart) es
  rw [hs] at hsound harmed
  have hend : (s.run api fs).status.ok = true := by rw [hwait]; rfl
  have hok := loop_run_ok hend
  obtain ⟨k, fd, hk⟩ := harmed hok
  obtain ⟨⟨held, taken, hinv⟩, heq⟩ := loop_run_receives (hsound hok) fs hend
  rw [(outstandingOf_receives hk).1]
  exact hinv.capacity hcq hrecv (heq.trans hk)

def onePacket : List LoopEvent := [.kernel (.complete 1 3 [1, 2, 3] [] 0)]

/-- With the packet in hand one TUN read and the receive on socket 3 are
outstanding. -/
theorem loops_capacity_small : ∃ s ctx, smallSession = .loop s ∧ Capacity 1 [3] ctx 1 ∧
    ctx.ring.inflight.map Sqe.userData = [0, 2] :=
  ⟨_, _, rfl, loops_capacity plainSsl smallConfig (fun _ => true) (fun _ => 1)
    (.tunUdpRunZero smallConn 5) true rfl [] rfl onePacket rfl rfl rfl, rfl⟩

end Dataplane.Proofs
