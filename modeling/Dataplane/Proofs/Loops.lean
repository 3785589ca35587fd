import Dataplane.Proofs.Bodies

/-!
# The loops keep the ownership invariant

One step lemma for the three loops, and from it the invariant of every run that
starts behind `iouring_init` and the initial submissions.
-/

namespace Dataplane.Proofs

open ProofSupport Model Ledger

variable {σ : Type} {api : Ssl σ}

/-! ## One turn -/

section Turn

variable {ctx ctx' : IouringCtx} {held got : Multiset OpId} {taken idx : Multiset Nat}
  {c : Cqe} {op : OpId}

theorem Received.opType_cases (h : Received ctx c op got idx)
    (hin : c.req.opcode.outgoing = false) :
    (ctx.ops op).opType = .tunRead ∨ (ctx.ops op).opType = .udpRecv := by
  rw [h.opType]
  revert hin
  cases c.req.opcode <;> simp [Opcode.outgoing, Opcode.opType]

theorem SendOn.outgoing {conn : Connection σ} {data : Bytes} {r : Sqe}
    (h : SendOn ctx conn data r) : r.opcode.outgoing = true := by
  rw [h.carries.opcode]
  rfl

/-- Whatever the program, a body makes at most one request and keeps the books. -/
theorem Inv.body (h : Inv ctx (got + held) (idx + taken)) (hr : Received ctx c op got idx)
    (hin : c.req.opcode.outgoing = false) {prog prog' : Program σ} {ret : Int}
    {rest : Option OpId} (hres : prog.body api ctx op = (ret, rest, ctx', prog')) :
    ∃ rs, Handled ctx ctx' held taken ret rs fun r => r.opcode.outgoing = true := by
  cases prog with
  | tunUdpRun conn tunFd =>
      rcases hr.opType_cases hin with htype | htype
      · obtain ⟨rs, _, -, hh, -⟩ := h.tunUdpRunBody_read hr htype rfl hres
        exact ⟨rs, hh.mono fun _ _ hsend => hsend.outgoing⟩
      · obtain ⟨rs, _, -, hh, -⟩ := h.tunUdpRunBody_recv hr htype rfl rfl hres
        exact ⟨rs, hh.mono fun _ _ hwrite => by rw [hwrite.1]; rfl⟩
  | tunUdpRunZero conn tunFd =>
      rcases hr.opType_cases hin with htype | htype
      · obtain ⟨rs, -, hh⟩ := h.tunUdpRunZeroBody_read hr htype rfl hres
        exact ⟨rs, hh.mono fun _ _ hsend => hsend.outgoing⟩
      · obtain ⟨rs, -, hh⟩ := h.tunUdpRunZeroBody_recv hr htype rfl hres
        exact ⟨rs, hh.mono fun _ _ hwrite => by rw [hwrite.opcode]; rfl⟩
  | forwarderRun inbound outbound =>
      by_cases htype : (ctx.ops op).opType = .udpRecv
      · by_cases hfd : (ctx.ops op).fd = inbound.udpFd
        · obtain ⟨rs, _, _, -, hh, -⟩ := h.forwarderRunBody_inbound hr htype hfd rfl rfl hres
          exact ⟨rs, hh.mono fun _ _ hsend => hsend.outgoing⟩
        · obtain ⟨rs, _, _, -, hh, -⟩ := h.forwarderRunBody_outbound hr htype hfd rfl rfl hres
          exact ⟨rs, hh.mono fun _ _ hsend => hsend.outgoing⟩
      · obtain ⟨-, hh⟩ := h.forwarderRunBody_other htype hres
        exact ⟨[], hh.mono (by simp)⟩

end Turn

end Dataplane.Proofs

namespace Dataplane.Model

def Status.ok : Status → Bool
  | .waiting => true
  | .exited ret _ => decide (0 ≤ ret)

end Dataplane.Model

namespace Dataplane.Proofs

open ProofSupport Model Ledger

variable {σ : Type} {api : Ssl σ}

/-- The invariant of a loop: between two turns the program holds nothing, and
after an error some ops may be lost. -/
structure LoopInv (s : LoopState σ) : Prop where
  ok : s.status.ok = true → Inv s.uring 0 0
  stopped : Stopped s.uring

theorem Inv.stopped {ctx : IouringCtx} {held : Multiset OpId} {taken : Multiset Nat}
    (h : Inv ctx held taken) : Stopped ctx := h.leaky.stopped

theorem LoopInv.of_inv {s : LoopState σ} (h : Inv s.uring 0 0) : LoopInv s :=
  ⟨fun _ => h, h.stopped⟩

theorem Inv.seen_cqeOk {ctx : IouringCtx} {held : Multiset OpId} {taken : Multiset Nat}
    (h : Inv ctx held taken) {c : Cqe} {cq : List Cqe} (hcq : ctx.ring.cq = c :: cq) :
    CqeOk (ctx.iouringCqeSeen c cq) c ∧ c.req.userData ∉ (ctx.iouringCqeSeen c cq).ioOpPool := by
  obtain ⟨hmem, hok⟩ := h.cq c (by rw [hcq]; exact List.mem_cons_self)
  exact ⟨⟨hok.req, hok.single, hok.multi, hok.slot⟩,
    h.not_mem_pool (Multiset.mem_add.mpr (Or.inr (mem_requests_of_posted hmem)))⟩

theorem Inv.wait {ctx ctx' : IouringCtx} {held : Multiset OpId} {taken : Multiset Nat}
    (h : Inv ctx held taken) {c : Cqe} {cq : List Cqe} (hcq : ctx.ring.cq = c :: cq)
    {step : WaitStep} (hres : (ctx.iouringCqeSeen c cq).waitForRecvBody c = (step, ctx')) :
    Waited (ctx.iouringCqeSeen c cq) c held taken step ctx' := by
  obtain ⟨hok, hout⟩ := h.seen_cqeOk hcq
  exact (h.iouringCqeSeen hcq).waitForRecvBody hok hout hres

/-- One turn of a loop, from a completion to the next wait. -/
theorem LoopInv.takeCqe {s : LoopState σ} (h : Inv s.uring 0 0)
    {c : Cqe} {cq : List Cqe} (hcq : s.uring.ring.cq = c :: cq) :
    LoopInv (Model.takeCqe api s c cq) := by
  unfold Model.takeCqe
  rcases hstep : (s.uring.iouringCqeSeen c cq).waitForRecvBody c with ⟨step, ctx⟩
  have hwaited := h.wait hcq hstep
  cases hwaited with
  | again _ _ _ hinv => exact .of_inv hinv
  | null rs _ _ hstop => exact ⟨by simp [Status.ok], hstop⟩
  | recv rs got idx _ hin _ _ hinv hrecv =>
      rcases hbody : s.prog.body api ctx c.req.userData with ⟨ret, rest, ctx', prog⟩
      obtain ⟨rs', hh⟩ := hinv.body hrecv hin hbody
      simp only [hbody]
      rcases hh.done with ⟨rfl, -, hinv'⟩ | ⟨rfl, hstop⟩
      · unfold atLoopHead
        rw [if_neg (by decide)]
        split <;> split <;> exact .of_inv hinv'
      · unfold atLoopHead
        rw [if_pos (by decide)]
        exact ⟨by simp [Status.ok], hstop⟩

theorem dropSq_kernel (ctx : IouringCtx) (e : KEvent) :
    dropSq (ctx.kernel e) = (dropSq ctx).kernel e := by
  have hinflight : ∀ op multi, (dropSq ctx).inFlight op multi = ctx.inFlight op multi :=
    fun _ _ => rfl
  cases e with
  | complete op res data name tag =>
      simp only [IouringCtx.kernel, hinflight]
      split
      · rfl
      · rename_i r _
        have hperf : dropSq (ctx.perform r res data name) =
            (dropSq ctx).perform r res data name := by
          have hstore : ∀ (ctx : IouringCtx) p bytes,
              dropSq (ctx.store p bytes) = (dropSq ctx).store p bytes := by
            intro ctx p bytes
            rcases p with _ | _ | _ | _ <;> rfl
          unfold IouringCtx.perform
          split
          · rfl
          · split
            · exact hstore _ _ _
            · rw [hstore, hstore]
            · rfl
            · rfl
            · rfl
        rw [← hperf]
        rfl
  | recv op bid res data more tag =>
      simp only [IouringCtx.kernel, hinflight]
      split
      · rfl
      · have hbr : (dropSq ctx).br = ctx.br := rfl
        rw [hbr]
        split <;> rfl
  | fail op res =>
      simp only [IouringCtx.kernel, hinflight]
      split
      · rfl
      · split <;> rfl

theorem Stopped.kernel {ctx : IouringCtx} (h : Stopped ctx) (e : KEvent) :
    Stopped (ctx.kernel e) := by
  obtain ⟨held, taken, h⟩ := h
  exact ⟨held, taken, dropSq_kernel ctx e ▸ h.kernel e⟩

/-- Every step of a loop keeps its invariant. -/
theorem LoopInv.step {s : LoopState σ} (h : LoopInv s) (e : LoopEvent) :
    LoopInv (s.step api e) := by
  cases e with
  | kernel e => exact ⟨fun hok => (h.ok hok).kernel e, h.stopped.kernel e⟩
  | wake =>
      simp only [LoopState.step, LoopState.wake]
      split
      · rename_i hstatus hcq
        exact .takeCqe (h.ok (by rw [hstatus]; rfl)) hcq
      · exact h
  | waitError =>
      simp only [LoopState.step]
      split
      · exact ⟨by simp [Status.ok], h.stopped⟩
      · exact h
  | stop => exact ⟨h.ok, h.stopped⟩

theorem LoopInv.run {s : LoopState σ} (h : LoopInv s) (es : List LoopEvent) :
    LoopInv (s.run api es) :=
  Execution.run_invariant (fun _ => True) LoopInv (fun _ e _ hs => hs.step e) (fun _ _ => trivial) h

/-! ## The start -/

theorem inv_iouringInit (c : IouringConfig) (sqeFree : Nat → Bool) (submits : Nat → Int) :
    Inv (IouringCtx.iouringInit c sqeFree submits) 0 0 := by
  refine ⟨?_, ?_, ?_, by simp [IouringCtx.iouringInit, IoUring.inflight],
    by simp [IouringCtx.iouringInit], by simp [IouringCtx.iouringInit], rfl⟩
  all_goals simp [IouringCtx.iouringInit, IoUring.requests, IoUring.posted, IoUring.selected,
    Multiset.range]

section Start

variable {ctx ctx' : IouringCtx} {held : Multiset OpId} {taken : Multiset Nat}

theorem Inv.iouringSubmitMultishotRecvmsg (h : Inv ctx held taken) {fd : Int}
    (hres : ctx.iouringSubmitMultishotRecvmsg fd = (0, ctx')) :
    ∃ rs, Effect ctx ctx' rs ∧ (∀ r ∈ rs, Incoming .udpRecv fd r) ∧ Inv ctx' held taken := by
  unfold IouringCtx.iouringSubmitMultishotRecvmsg at hres
  rcases ha : ctx.ioOpAlloc .udpRecv fd true with ⟨_ | op, ctx1⟩
  · simp [ha] at hres
  simp only [ha] at hres
  have hinv := h.ioOpAlloc_multi ha
  obtain ⟨ops, hpool, hctx1⟩ := ioOpAlloc_multi_eq ha
  have hop : ctx1.ops op = freshOp .udpRecv fd true := by rw [hctx1]; simp
  have heff : Effect ctx (ctx1.modOp op fun o =>
      { o with msg := { o.msg with msgNamelen := sizeofSockaddrStorage } }) [] := by
    rw [hctx1]; exact .of_ring_eq rfl rfl rfl
  have hinv2 :=
    hinv.modOp (fun o => { o with msg := { o.msg with msgNamelen := sizeofSockaddrStorage } })
    (Multiset.mem_add.mpr (Or.inl (Multiset.mem_singleton_self op))) rfl rfl
  have hm : Multi ((ctx1.modOp op fun o =>
      { o with msg := { o.msg with msgNamelen := sizeofSockaddrStorage } }).ops op) := by
    rw [modOp_self, hop]
    exact ⟨rfl, rfl, rfl, rfl, rfl⟩
  obtain ⟨rs, heff', hin, -, hdone⟩ := hinv2.rearm hm (by rw [modOp_self, hop]; rfl) hres
  rw [modOp_self, hop] at hin
  rcases hdone with ⟨-, hinv3⟩ | ⟨hret, -⟩
  · exact ⟨rs, heff.trans heff', hin, hinv3⟩
  · cases hret

theorem Inv.initialRecvs (h : Inv ctx held taken) {submit : IouringCtx → OpId → Int × IouringCtx}
    {opType : OpType} (hsubmit : opType = .tunRead ∧ submit = IouringCtx.iouringSubmitTunRead ∨
      opType = .udpRecv ∧ submit = IouringCtx.iouringSubmitUdpRecv) {fd : Int} {n : Nat}
    (hres : IouringCtx.initialRecvs submit opType fd n ctx = (0, ctx')) :
    ∃ rs, Effect ctx ctx' rs ∧ (∀ r ∈ rs, Incoming opType fd r) ∧ Inv ctx' held taken := by
  induction n generalizing ctx with
  | zero =>
      obtain ⟨-, rfl⟩ := Prod.mk.inj hres
      exact ⟨[], .of_ring_eq rfl rfl rfl, by simp, h⟩
  | succ n ih =>
      rw [IouringCtx.initialRecvs] at hres
      rcases ha : ctx.ioOpAlloc opType fd false with ⟨_ | op, ctx1⟩
      · simp only [ha] at hres
        obtain ⟨rs, heff, hin, hinv⟩ := ih (h.ioOpAlloc_none ha) hres
        obtain ⟨ops, rfl, -⟩ := ioOpAlloc_none_eq ha
        have heff0 : Effect ctx { ctx with ops := ops } [] := .of_ring_eq rfl rfl rfl
        exact ⟨rs, heff0.trans heff, hin, hinv⟩
      · simp only [ha] at hres
        have hinv := h.ioOpAlloc_single ha
        obtain ⟨ops, b, bufs, hpool, hbuf, hctx1⟩ := ioOpAlloc_single_eq ha
        have hop : ctx1.ops op = pooledOp opType fd b := by rw [hctx1]; simp
        have heff0 : Effect ctx ctx1 [] := by rw [hctx1]; exact .of_ring_eq rfl rfl rfl
        rcases hsub : submit ctx1 op with ⟨ret, ctx2⟩
        have hcases : opType = .tunRead ∧ ctx1.iouringSubmitTunRead op = (ret, ctx2) ∨
            opType = .udpRecv ∧ ctx1.iouringSubmitUdpRecv op = (ret, ctx2) := by
          rcases hsubmit with ⟨htype, hfun⟩ | ⟨htype, hfun⟩
          · exact Or.inl ⟨htype, by rw [← hfun]; exact hsub⟩
          · exact Or.inr ⟨htype, by rw [← hfun]; exact hsub⟩
        obtain ⟨rs, heff1, hin1, -, hdone⟩ := hinv.submitRecv hop hcases
        simp only [hsub] at hres
        rcases hdone with ⟨rfl, hinv2⟩ | ⟨rfl, -⟩
        · rw [if_neg (by decide)] at hres
          obtain ⟨ss, heff2, hin2, hinv3⟩ := ih hinv2 hres
          refine ⟨rs ++ ss, heff0.trans (heff1.trans heff2), fun r hr => ?_, hinv3⟩
          exact (List.mem_append.mp hr).elim (hin1 r) (hin2 r)
        · rw [if_pos (by decide)] at hres
          cases (Prod.mk.inj hres).1

/-- Behind the initial submissions the program holds nothing, and it has only
asked to receive. -/
theorem Inv.initialSubmissions (h : Inv ctx 0 0) {prog : Program σ}
    (hres : initialSubmissions ctx prog = some ctx') :
    ∃ rs, Effect ctx ctx' rs ∧ (∀ r ∈ rs, ∃ opType fd, Incoming opType fd r) ∧ Inv ctx' 0 0 := by
  have hmulti : ∀ {ctx ctx1 : IouringCtx} {fd ret : Int}, Inv ctx 0 0 →
      ctx.iouringInitialUdpRecvs fd = (ret, ctx1) → ret = 0 →
      ∃ rs, Effect ctx ctx1 rs ∧ (∀ r ∈ rs, ∃ opType fd, Incoming opType fd r) ∧
        Inv ctx1 0 0 := by
    intro ctx ctx1 fd ret h hres hret
    subst hret
    obtain ⟨rs, heff, hin, hinv⟩ := h.iouringSubmitMultishotRecvmsg hres
    exact ⟨rs, heff, fun r hr => ⟨_, _, hin r hr⟩, hinv⟩
  have hboth : ∀ {ctx ctx1 ctx2 : IouringCtx} {rs ss : List Sqe}, Effect ctx ctx1 rs →
      (∀ r ∈ rs, ∃ opType fd, Incoming opType fd r) → Effect ctx1 ctx2 ss →
      (∀ r ∈ ss, ∃ opType fd, Incoming opType fd r) → Effect ctx ctx2 (rs ++ ss) ∧
        ∀ r ∈ rs ++ ss, ∃ opType fd, Incoming opType fd r := fun heff hin heff' hin' =>
    ⟨heff.trans heff', fun r hr => (List.mem_append.mp hr).elim (hin r) (hin' r)⟩
  -- `tun_udp_run` and `tun_udp_run_zero` make the same submissions
  have hedge : ∀ (conn : Connection σ) (tunFd : Int),
      Model.initialSubmissions ctx (.tunUdpRunZero conn tunFd) = some ctx' →
      ∃ rs, Effect ctx ctx' rs ∧ (∀ r ∈ rs, ∃ opType fd, Incoming opType fd r) ∧
        Inv ctx' 0 0 := by
    intro conn tunFd hres
    simp only [Model.initialSubmissions] at hres
    rcases hrecv : ctx.iouringInitialUdpRecvs conn.udpFd with ⟨ret, ctx1⟩
    rw [hrecv] at hres
    dsimp only at hres
    split at hres
    · cases hres
    rename_i hret
    obtain ⟨rs, heff, hin, hinv⟩ := hmulti h hrecv (not_not.mp hret)
    rcases hread : ctx1.iouringInitialTunReads tunFd with ⟨ret', ctx2⟩
    rw [hread] at hres
    dsimp only at hres
    split at hres
    · cases hres
    rename_i hret'
    obtain rfl := Option.some.inj hres
    rw [not_not.mp hret'] at hread
    obtain ⟨ss, heff', hin', hinv'⟩ := hinv.initialRecvs (Or.inl ⟨rfl, rfl⟩) hread
    obtain ⟨heff2, hin2⟩ := hboth heff hin heff' fun r hr => ⟨_, _, hin' r hr⟩
    exact ⟨_, heff2, hin2, hinv'⟩
  cases prog with
  | tunUdpRun conn tunFd => exact hedge conn tunFd hres
  | tunUdpRunZero conn tunFd => exact hedge conn tunFd hres
  | forwarderRun inbound outbound =>
      simp only [Model.initialSubmissions] at hres
      rcases hin : ctx.iouringInitialUdpRecvs inbound.udpFd with ⟨ret, ctx1⟩
      simp only [hin] at hres
      split at hres
      · cases hres
      rename_i hret
      obtain ⟨rs, heff, hrs, hinv⟩ := hmulti h hin (not_not.mp hret)
      rcases hout : ctx1.iouringInitialUdpRecvs outbound.udpFd with ⟨ret', ctx2⟩
      simp only [hout] at hres
      split at hres
      · cases hres
      rename_i hret'
      obtain rfl := Option.some.inj hres
      obtain ⟨ss, heff', hss, hinv'⟩ := hmulti hinv hout (not_not.mp hret')
      obtain ⟨heff2, hin2⟩ := hboth heff hrs heff' hss
      exact ⟨_, heff2, hin2, hinv'⟩

end Start

theorem loopInv_start {ctx : IouringCtx} (h : Inv ctx 0 0) (prog : Program σ) (running : Bool) :
    LoopInv (LoopState.start ctx prog running) := by
  unfold LoopState.start atLoopHead
  rw [if_neg (by decide)]
  split <;> split <;> exact .of_inv h

end Dataplane.Proofs
