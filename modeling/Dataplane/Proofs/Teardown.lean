import Dataplane.Model.Teardown
import Dataplane.Proofs.Failures
import Dataplane.Proofs.PoolCapacity

/-!
# What a teardown frees

Behind the loop of an edge nothing in the pools is referred to.  That leaves the
op that `free(op)` frees, a multishot op, and the memory of the buffer ring.
-/

namespace Dataplane.Proofs

open ProofSupport Model Ledger

variable {σ : Type} {api : Ssl σ} {n : Nat} {ctx ctx' : IouringCtx} {op : OpId}
  {held : Multiset OpId} {taken : Multiset Nat}

/-! ## The pools -/

theorem Inv.pool_nodup (h : Inv ctx held taken) : ctx.ioOpPool.Nodup := by
  have hnd := Multiset.nodup_range ctx.config.nIoOps
  rw [← h.opLedger] at hnd
  exact Multiset.coe_nodup.mp (Multiset.nodup_add.mp hnd).1

theorem Inv.bufs_nodup (h : Inv ctx held taken) : ctx.bufAddrPool.Nodup := by
  have hnd := Multiset.nodup_range ctx.config.nIoOps
  rw [← h.itemLedger] at hnd
  exact Multiset.coe_nodup.mp (Multiset.nodup_add.mp hnd).1

theorem Inv.active_unpooled (h : Inv ctx held taken) {r : Sqe} (hr : r ∈ ctx.ring.active) :
    r.userData ∉ ctx.ioOpPool ∧ ∀ b ∈ ctx.bufAddrPool, ¬ r.RefersTo (.bufAddr b) := by
  have hflight : r ∈ ctx.ring.inflight := List.mem_append_left _ hr
  have hop : r.userData ∈ held + ctx.ring.requests :=
    Multiset.mem_add.mpr (.inr (mem_requests_of_inflight hflight))
  refine ⟨h.not_mem_pool hop, ?_⟩
  rintro b hb ⟨hcode, hrefers⟩
  obtain ⟨hok, -⟩ := h.inflight r hflight
  cases hok.place with
  | multi hmulti _ => exact hcode hmulti
  | slotted i off _ _ hbuffer hname =>
      rw [hbuffer, hname] at hrefers
      simp at hrefers
  | pooled b' _ hp hbuffer hname =>
      have hsame : b' = b := by
        rcases hrefers with heq | heq
        · rw [hbuffer] at heq
          simpa using heq
        · rcases hname with hname | hname
          · rw [hname] at heq
            cases heq
          · rw [hname] at heq
            simpa using heq
      subst hsame
      refine not_mem_right_of_stock (Multiset.nodup_range _) h.itemLedger
        (Multiset.mem_coe.mpr hb) ?_
      exact mem_owned.mpr ⟨r.userData, hop, by rw [hp.items]; exact Multiset.mem_singleton_self b'⟩

theorem Stopped.pools (h : Stopped ctx) : ctx.ioOpPool.Nodup ∧ ctx.bufAddrPool.Nodup ∧
    ∀ r ∈ ctx.ring.active, r.userData ∉ ctx.ioOpPool ∧
      ∀ b ∈ ctx.bufAddrPool, ¬ r.RefersTo (.bufAddr b) := by
  obtain ⟨held, taken, hinv⟩ := h
  exact ⟨hinv.pool_nodup, hinv.bufs_nodup, fun r hr => hinv.active_unpooled hr⟩

/-! ## The frees -/

theorem mem_iouringFreeBuffers {item : HeapItem} {ret : Int} :
    item ∈ ctx.iouringFreeBuffers ret ↔ (∃ op ∈ ctx.ioOpPool, .ioOp op = item) ∨
      (∃ b ∈ ctx.bufAddrPool, .bufAddr b = item) ∨ ret = 0 ∧ item = .brBufs := by
  simp only [IouringCtx.iouringFreeBuffers, IouringCtx.iouringFreeIoOpPool,
    IouringCtx.iouringFreeBufAddrPool, List.mem_append, List.mem_map, useMultiRecv, if_true,
    or_assoc]
  split <;> simp_all

/-- The op that is left is not in the pool, so nothing is freed twice. -/
theorem frees_once {exit cleanup : IouringCtx} {left : Option OpId} (hstop : Stopped cleanup)
    (hleft : ∀ op, left = some op → op ∉ cleanup.ioOpPool) (ret : Int) :
    ((teardown exit left cleanup ret).map Prod.snd).Nodup := by
  obtain ⟨hops, hbufs, -⟩ := hstop.pools
  have hmap : (teardown exit left cleanup ret).map Prod.snd =
      left.toList.map .ioOp ++ cleanup.iouringFreeBuffers ret := by
    simp [teardown, Function.comp_def]
  have hbuffers : (cleanup.iouringFreeBuffers ret).Nodup := by
    unfold IouringCtx.iouringFreeBuffers
    refine List.nodup_append.mpr ⟨List.nodup_append.mpr ⟨?_, ?_, ?_⟩, ?_, ?_⟩
    · exact hops.map fun _ _ heq => HeapItem.ioOp.inj heq
    · exact hbufs.map fun _ _ heq => HeapItem.bufAddr.inj heq
    · intro item hitem item' hitem' heq
      obtain ⟨op, -, rfl⟩ := List.mem_map.mp hitem
      obtain ⟨b, -, rfl⟩ := List.mem_map.mp hitem'
      cases heq
    · simp only [useMultiRecv, if_true]
      split <;> simp
    · intro item hitem item' hitem' heq
      have hbr : item' = .brBufs := by
        simp only [useMultiRecv, if_true] at hitem'
        split at hitem' <;> simp_all
      subst hbr heq
      rcases List.mem_append.mp hitem with hitem | hitem
      · obtain ⟨op, -, heq⟩ := List.mem_map.mp hitem
        cases heq
      · obtain ⟨b, -, heq⟩ := List.mem_map.mp hitem
        cases heq
  rw [hmap]
  refine List.nodup_append.mpr ⟨?_, hbuffers, ?_⟩
  · cases left <;> simp
  · intro item hitem item' hitem' heq
    obtain ⟨op, hop, rfl⟩ := List.mem_map.mp hitem
    subst heq
    rcases mem_iouringFreeBuffers.mp hitem' with ⟨op', hpool, heq⟩ | ⟨b, -, heq⟩ | ⟨-, heq⟩
    · obtain rfl := HeapItem.ioOp.inj heq
      exact hleft _ (by simpa using hop) hpool
    · cases heq
    · cases heq

/-- What is left to ask: whether the op that `free(op)` frees, and the memory of
the buffer ring, are still referred to. -/
theorem freesSafely_iff {exit cleanup : IouringCtx} {left : Option OpId} (hstop : Stopped cleanup)
    (hleft : ∀ op, left = some op → op ∉ cleanup.ioOpPool) (ret : Int) :
    FreesSafely (teardown exit left cleanup ret) ↔
      (∀ op, left = some op → ∀ r ∈ exit.ring.active, r.userData ≠ op) ∧
        (ret = 0 → ∀ r ∈ cleanup.ring.active, ¬ r.RefersTo .brBufs) := by
  constructor
  · intro hsafe
    constructor
    · intro op hop r hr
      refine hsafe.unused (exit, .ioOp op) (List.mem_append_left _ ?_) r hr
      simp [hop]
    · intro hret r hr
      refine hsafe.unused (cleanup, .brBufs) (List.mem_append_right _ ?_) r hr
      exact List.mem_map_of_mem (mem_iouringFreeBuffers.mpr (.inr (.inr ⟨hret, rfl⟩)))
  · rintro ⟨hop, hring⟩
    refine ⟨frees_once hstop hleft ret, ?_⟩
    rintro ⟨ctx, item⟩ hmem r hr hrefers
    rcases List.mem_append.mp hmem with hmem | hmem
    · obtain ⟨op, hleft', heq⟩ := List.mem_map.mp hmem
      obtain ⟨rfl, rfl⟩ := Prod.mk.inj heq
      exact hop op (by simpa using hleft') r hr hrefers
    · obtain ⟨item', hitem, heq⟩ := List.mem_map.mp hmem
      obtain ⟨rfl, rfl⟩ := Prod.mk.inj heq
      obtain ⟨hpool, hbufs⟩ := hstop.pools.2.2 r hr
      rcases mem_iouringFreeBuffers.mp hitem with ⟨op, hop', rfl⟩ | ⟨b, hb, rfl⟩ | ⟨hret, rfl⟩
      · have huser : r.userData = op := hrefers
        exact hpool (huser ▸ hop')
      · exact hbufs b hb hrefers
      · exact hring hret r hr hrefers

/-! ## What a loop leaves -/

theorem ioOpFree_left {o : OpId} (hop : op ∉ ctx.ioOpPool) (h : (ctx.ioOpFree op).1 = some o) :
    o ∉ (ctx.ioOpFree op).2.ioOpPool := by
  unfold IouringCtx.ioOpFree at h ⊢
  dsimp only at h ⊢
  split at h
  · rename_i hmulti
    rw [if_pos hmulti]
    split at h
    · rename_i hidx
      rw [if_pos hidx]
      obtain rfl := Option.some.inj h
      exact hop
    split at h
    · cases h
    · rename_i hidx hkeep
      rw [if_neg hidx, if_neg hkeep]
      obtain rfl := Option.some.inj h
      exact hop
  · cases h

theorem freeAndReturn_left {ret : Int} {prog : Program σ} {o : OpId} (hop : op ∉ ctx.ioOpPool)
    (h : (freeAndReturn op ret ctx prog).2.1 = some o) :
    o ∉ (freeAndReturn op ret ctx prog).2.2.1.ioOpPool :=
  ioOpFree_left hop h

end Dataplane.Proofs

namespace Dataplane.Model

variable {σ : Type}

def Program.Edge : Program σ → Prop
  | .forwarderRun _ _ => False
  | _ => True

end Dataplane.Model

namespace Dataplane.Proofs

open ProofSupport Model Ledger

variable {σ : Type} {api : Ssl σ} {n : Nat} {ctx ctx' : IouringCtx} {op : OpId}
  {held : Multiset OpId} {taken : Multiset Nat}

theorem body_left (h : Balanced n ctx) (hop : ctx.Live n op) {prog : Program σ}
    (hedge : prog.Edge) {o : OpId}
    (hleft : (prog.body api ctx op).2.1 = some o) :
    o ∉ (prog.body api ctx op).2.2.1.ioOpPool := by
  have hlive : ∀ {c : IouringCtx}, Issues n ctx c → op ∉ c.ioOpPool := fun hc => (hc.keeps hop).2
  cases prog with
  | forwarderRun inbound outbound => exact hedge.elim
  | tunUdpRun conn tunFd =>
      simp only [Program.body, tunUdpRunBody] at hleft ⊢
      split at hleft
      · exact freeAndReturn_left (hlive (dtlsEncryptAndSendUdp_issues h conn _)) hleft
      · exact freeAndReturn_left (hlive (dtlsDecryptAndWriteTun_issues h conn tunFd _ _)) hleft
      · exact freeAndReturn_left hop.2 hleft
  | tunUdpRunZero conn tunFd =>
      simp only [Program.body, tunUdpRunZeroBody] at hleft ⊢
      split at hleft
      · exact freeAndReturn_left (hlive (tunToUdp_issues h conn hop)) hleft
      · have hlearnt : Issues n ctx (learnAddr ctx conn op).1 :=
          (learnAddr_between ctx conn op).issues
        exact freeAndReturn_left (hlive (hlearnt.trans
          (udpToTun_issues (hlearnt.balanced h) tunFd (hlearnt.keeps hop)))) hleft
      · exact freeAndReturn_left hop.2 hleft

theorem body_edge (prog : Program σ) : (prog.body api ctx op).2.2.2.Edge ↔ prog.Edge := by
  cases prog with
  | tunUdpRun conn tunFd =>
      simp only [Program.body, tunUdpRunBody]
      split <;> exact Iff.rfl
  | tunUdpRunZero conn tunFd =>
      simp only [Program.body, tunUdpRunZeroBody]
      split <;> exact Iff.rfl
  | forwarderRun inbound outbound =>
      simp only [Program.body, forwarderRunBody]
      split
      · exact Iff.rfl
      split <;> exact Iff.rfl

structure Standing (n : Nat) (s : LoopState σ) : Prop where
  balanced : Balanced n s.uring
  sound : s.status.ok = true → Sound s.uring
  stopped : Stopped s.uring
  left : s.prog.Edge → ∀ ret op, s.status = .exited ret (some op) → op ∉ s.uring.ioOpPool

theorem headStatus_ok {prog : Program σ} {running : Bool} {ret : Int} {left : Option OpId}
    (h : (headStatus prog running .waiting ret left).ok = true) : 0 ≤ ret := by
  unfold headStatus at h
  by_cases hret : ret < 0
  · rw [if_pos hret] at h
    simpa [Status.ok] using h
  · omega

theorem headStatus_exited {prog : Program σ} {running : Bool} {ret ret' : Int}
    {left left' : Option OpId}
    (h : headStatus prog running .waiting ret left = .exited ret' left') : left = left' := by
  unfold headStatus at h
  split at h
  · exact (Status.exited.inj h).2
  split at h
  · cases h
  split at h
  · cases h
  · exact (Status.exited.inj h).2

theorem Standing.takeCqe {s : LoopState σ} (h : Standing n s) (hs : s.status = .waiting) {c : Cqe}
    {cq : List Cqe} (hcq : s.uring.ring.cq = c :: cq) : Standing n (Model.takeCqe api s c cq) := by
  have hsound := h.sound (by rw [hs]; rfl)
  have hlive := h.balanced.completed_live hsound hcq
  have hbalanced : Balanced n (Model.takeCqe api s c cq).uring := by
    obtain ⟨live, hstock⟩ := h.balanced
    exact hstock.calls (loop_takeCqe_calls ⟨live, hstock⟩ hlive)
  obtain ⟨held, taken, hinv⟩ := hsound
  have hwait := waitForRecvBody_calls ((cqeSeen_issues s.uring c cq).balanced h.balanced) hlive
  unfold Model.takeCqe at hbalanced ⊢
  rcases hstep : (s.uring.iouringCqeSeen c cq).waitForRecvBody c with ⟨step, ctx⟩
  rw [hstep] at hbalanced hwait
  have hwaited := hinv.wait hcq hstep
  cases hwaited with
  | again _ _ _ hinv' =>
      exact ⟨hbalanced, fun _ => ⟨held, taken, hinv'⟩, hinv'.stopped, fun _ _ _ hexit =>
        nomatch hs.symm.trans hexit⟩
  | null rs _ _ hstop =>
      refine ⟨hbalanced, fun hok => absurd hok (by simp [Status.ok]), hstop,
        fun _ ret op hexit => ?_⟩
      exact absurd (Status.exited.inj hexit).2 (by simp)
  | recv rs got idx _ hin _ _ hinv' hrecv =>
      obtain ⟨-, hissues⟩ := hwait.2 _ rfl
      have hmid := hissues.balanced ((cqeSeen_issues s.uring c cq).balanced h.balanced)
      have hedge : (s.prog.body api ctx c.req.userData).2.2.2.Edge ↔ s.prog.Edge := body_edge s.prog
      have hleft : s.prog.Edge → ∀ o, (s.prog.body api ctx c.req.userData).2.1 = some o →
          o ∉ (s.prog.body api ctx c.req.userData).2.2.1.ioOpPool :=
        fun hprog o ho => body_left hmid (hissues.keeps hlive) hprog ho
      rcases hbody : s.prog.body api ctx c.req.userData with ⟨ret, rest, ctx', prog⟩
      obtain ⟨rs', hh⟩ := hinv'.body hrecv hin hbody
      simp only [hbody] at hbalanced hedge hleft ⊢
      rw [atLoopHead_eq] at hbalanced ⊢
      refine ⟨hbalanced, fun hok => ?_, ?_, fun hprog ret' op hexit => ?_⟩
      · rw [hs] at hok
        have hret := headStatus_ok hok
        rcases hh.done with ⟨-, -, hinv''⟩ | ⟨rfl, -⟩
        · exact ⟨held, taken, hinv''⟩
        · exact absurd hret (by decide)
      · rcases hh.done with ⟨-, -, hinv''⟩ | ⟨-, hstop⟩
        · exact hinv''.stopped
        · exact hstop
      · rw [hs] at hexit
        exact hleft (hedge.mp hprog) op (headStatus_exited hexit)

theorem Standing.step {s : LoopState σ} (h : Standing n s) (e : LoopEvent) :
    Standing n (s.step api e) := by
  cases e with
  | kernel e =>
      have hkernel := kernel_between s.uring e
      refine ⟨hkernel.issues.balanced h.balanced, fun hok => ?_, h.stopped.kernel e,
        fun hprog ret op hexit => ?_⟩
      · obtain ⟨held, taken, hinv⟩ := h.sound hok
        exact ⟨held, taken, hinv.kernel e⟩
      · have hout := h.left hprog ret op hexit
        rwa [← hkernel.ioOpPool] at hout
  | wake =>
      simp only [LoopState.step, LoopState.wake]
      split
      · rename_i hs hcq
        exact h.takeCqe hs hcq
      · exact h
  | waitError =>
      simp only [LoopState.step]
      split
      · refine ⟨h.balanced, fun hok => absurd hok (by simp [Status.ok]), h.stopped,
          fun _ ret op hexit => ?_⟩
        exact absurd (Status.exited.inj hexit).2 (by simp)
      · exact h
  | stop => exact ⟨h.balanced, h.sound, h.stopped, h.left⟩

theorem Standing.run {s : LoopState σ} (h : Standing n s) (es : List LoopEvent) :
    Standing n (s.run api es) :=
  Execution.run_invariant (fun _ => True) (Standing n) (fun _ e _ hs => hs.step e)
    (fun _ _ => trivial) h

theorem Standing.start (hbalanced : Balanced n ctx) (hsound : Sound ctx) (prog : Program σ)
    (running : Bool) : Standing n (LoopState.start ctx prog running) := by
  rw [LoopState.start, atLoopHead_eq]
  obtain ⟨held, taken, hinv⟩ := hsound
  refine ⟨hbalanced, fun _ => ⟨held, taken, hinv⟩, hinv.stopped, fun _ ret op hexit => ?_⟩
  change headStatus prog running .waiting 0 none = .exited ret (some op) at hexit
  have hnone : none = some op := headStatus_exited hexit
  cases hnone

/-! ## Sessions -/

structure Upright (n : Nat) (s : Session σ) : Prop where
  good : s.Good
  balanced : Balanced n s.uring
  standing : ∀ ls, s = .loop ls → Standing n ls

theorem Upright.of_start {prog : Program σ} {running : Bool}
    (hgood : (Session.loop (LoopState.start ctx prog running)).Good) (hbalanced : Balanced n ctx) :
    ∀ ls, Session.loop (LoopState.start ctx prog running) = .loop ls → Standing n ls := by
  intro ls hls
  obtain rfl := Session.loop.inj hls
  have hok : (LoopState.start ctx prog running).status.ok = true := by
    rw [LoopState.start, atLoopHead_eq]
    unfold headStatus
    rw [if_neg (by decide)]
    cases prog <;> cases running <;> rfl
  have hsound : Sound (LoopState.start ctx prog running).uring := hgood hok
  rw [start_uring] at hsound
  exact .start hbalanced hsound prog running

theorem Upright.step {s : Session σ} (h : Upright n s) (e : SessionEvent) :
    Upright n (s.step api e) := by
  have hgood : (s.step api e).Good := good_step h.good e
  have hbalanced : Balanced n (s.step api e).uring := by
    obtain ⟨live, hstock⟩ := h.balanced
    exact hstock.calls (session_step_calls h.balanced h.good e)
  refine ⟨hgood, hbalanced, ?_⟩
  cases s with
  | loop s =>
      intro ls hls
      simp only [Session.step] at hls
      split at hls
      · exact h.standing ls hls
      · obtain rfl := Session.loop.inj hls
        exact (h.standing s rfl).step _
  | returned uring =>
      intro ls hls
      cases e <;> cases hls
  | handshake stage s running =>
      cases e with
      | proceed =>
          simp only [Session.step] at hgood hbalanced ⊢
          split
          · rename_i hpc
            rw [if_pos hpc] at hgood hbalanced
            cases stage with
            | inbound outbound =>
                intro ls hls
                cases hls
            | outbound inbound => exact Upright.of_start hgood h.balanced
            | edge tunFd =>
                have hreads := (tunReads_issues h.balanced tunFd).balanced h.balanced
                unfold Session.proceed at hgood ⊢
                dsimp only [Session.uring] at hgood hreads ⊢
                generalize s.uring.iouringInitialTunReads tunFd = out at *
                by_cases hret : out.1 ≠ 0
                · rw [if_pos hret]
                  intro ls hls
                  cases hls
                · rw [if_neg hret] at hgood ⊢
                  exact Upright.of_start hgood hreads
          · intro ls hls
            cases hls
      | _ =>
          intro ls hls
          cases hls

theorem upright_start (config : IouringConfig) (sqeFree : Nat → Bool) (submits : Nat → Int)
    {prog : Program σ} {running : Bool} {s : Session σ}
    (hstart : Session.start (IouringCtx.iouringInit config sqeFree submits) prog running = some s) :
    Upright config.nIoOps s := by
  have hstock := stocked_iouringInit config sqeFree submits
  have hgood := good_start config sqeFree submits hstart
  have hbalanced : Balanced config.nIoOps s.uring :=
    hstock.calls (session_start_calls ⟨0, hstock⟩ hstart)
  refine ⟨hgood, hbalanced, ?_⟩
  cases started_of_start hstart with
  | edge conn tunFd _ =>
      intro ls hls
      cases hls
  | zero conn tunFd _ =>
      refine Upright.of_start hgood ?_
      dsimp only [Session.uring] at hbalanced
      rwa [start_uring] at hbalanced
  | forwarder inbound outbound _ =>
      intro ls hls
      cases hls

theorem exited_step_prog {s : LoopState σ} {ret : Int} {left : Option OpId}
    (h : s.status = .exited ret left) (e : LoopEvent) : (s.step api e).prog = s.prog := by
  cases e with
  | kernel e => rfl
  | wake => simp [LoopState.step, LoopState.wake, h]
  | waitError => simp [LoopState.step, h]
  | stop => rfl

theorem exited_run_prog {s : LoopState σ} {ret : Int} {left : Option OpId}
    (h : s.status = .exited ret left) (fs : List LoopEvent) : (s.run api fs).prog = s.prog := by
  refine (Execution.run_invariant (fun _ => True)
    (fun t : LoopState σ => Halted s t ∧ t.prog = s.prog) ?_ (fun _ _ => trivial)
      ⟨⟨rfl, rfl, rfl⟩, rfl⟩).2
  rintro t e - ⟨hhalted, hprog⟩
  exact ⟨Halted.step h hhalted e, (exited_step_prog (hhalted.status.trans h) e).trans hprog⟩

/-- Behind the loop of an edge, however it was left and whatever is in flight,
the frees are safe if and only if the multishot receive of the op that is left
is over, and the memory of the buffer ring is not freed or no write still takes
its data from it. -/
theorem teardown_safe_iff (api : Ssl σ) (config : IouringConfig) (sqeFree : Nat → Bool)
    (submits : Nat → Int) (prog : Program σ) (running : Bool) {start : Session σ}
    (hstart : Session.start (IouringCtx.iouringInit config sqeFree submits) prog running =
      some start) (es : List SessionEvent) {s : LoopState σ} (hs : start.run api es = .loop s)
    (hedge : s.prog.Edge) {ret : Int} {left : Option OpId} (hexit : s.status = .exited ret left)
    (fs : List LoopEvent) (freed : Int) :
    FreesSafely (teardown s.uring left (s.run api fs).uring freed) ↔
      (∀ op, left = some op → ∀ r ∈ s.uring.ring.active, r.userData ≠ op) ∧
        (freed = 0 → ∀ r ∈ (s.run api fs).uring.ring.active, ¬ r.RefersTo .brBufs) := by
  have hupright : Upright config.nIoOps (start.run api es) :=
    Execution.run_invariant (fun _ => True) (Upright config.nIoOps) (fun _ e _ h => h.step e)
      (fun _ _ => trivial) (upright_start config sqeFree submits hstart)
  have hstanding : Standing config.nIoOps (s.run api fs) := (hupright.standing s hs).run fs
  have hstatus : (s.run api fs).status = .exited ret left :=
    (exited_run hexit fs).status.trans hexit
  have hprog : (s.run api fs).prog = s.prog := exited_run_prog hexit fs
  apply freesSafely_iff hstanding.stopped
  intro op hop
  subst hop
  exact hstanding.left (by rw [hprog]; exact hedge) ret op hstatus

/-! ## A stop signal after a datagram -/

/-- A datagram is taken after the signal to stop; the write to the TUN device is
still in flight when the loop is left. -/
def stoppedRun : List SessionEvent :=
  [.kernel (.recv 0 1 147 (recvmsgOut 128 [10, 0, 0, 1] (List.replicate 124 0) [4, 5, 6]) true 0),
    .stop, .wake]

set_option maxRecDepth 20000 in
/-- `free(op)` frees the op of the multishot receive, which is still in flight. -/
theorem stoppedRun_not_freesSafely : ∃ s, smallSession.run plainSsl stoppedRun = .loop s ∧
    s.prog = .tunUdpRunZero smallConn 5 ∧ s.status = .exited 0 (some 0) ∧
    ¬ FreesSafely (teardown s.uring (some 0) s.uring 0) := by
  refine ⟨_, rfl, rfl, rfl, fun hsafe => ?_⟩
  exact hsafe.unused (_, .ioOp 0) (List.mem_append_left _ List.mem_cons_self) _
    List.mem_cons_self rfl

set_option maxRecDepth 20000 in
/-- Without a datagram there is no op left, and nothing is written. -/
theorem teardown_safe_stopped : ∃ s, smallSession.run plainSsl [.stop, .waitError] = .loop s ∧
    s.status = .exited (-1) none ∧
    FreesSafely (teardown s.uring none (s.run plainSsl []).uring 0) := by
  refine ⟨_, rfl, rfl, ?_⟩
  refine (teardown_safe_iff plainSsl smallConfig (fun _ => true) (fun _ => 1)
    (.tunUdpRunZero smallConn 5) true rfl [.stop, .waitError] rfl trivial rfl [] 0).mpr ⟨?_, ?_⟩
  · intro op hop
    cases hop
  · rintro - r hr ⟨hcode, i, off, hbuffer⟩
    rcases List.mem_cons.mp hr with rfl | hr
    · exact hcode rfl
    · obtain rfl := List.mem_singleton.mp hr
      cases hbuffer

end Dataplane.Proofs
