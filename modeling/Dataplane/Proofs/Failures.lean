import Dataplane.Proofs.Sessions
import Dataplane.Proofs.ZeroCopy

/-!
# A failure ends the loop

`wait_for_recv` returns NULL on a completion with an error, and a packet for
which there is no op makes the loop body fail.  Both leave the loop.
-/

namespace Dataplane.Model

variable {σ : Type}

/-- An operation has failed, or a packet has come and there is no op left. -/
def Cqe.Fails (ctx : IouringCtx) (c : Cqe) : Prop :=
  c.res < 0 ∨ c.req.opcode.outgoing = false ∧ ctx.ioOpPool = []

/-- The loop goes on when the oldest completion fails. -/
def LoopState.Survives (api : Ssl σ) (s : LoopState σ) : Prop :=
  s.status = .waiting → ∀ c cq, s.uring.ring.cq = c :: cq → c.Fails s.uring →
    (s.step api .wake).status = .waiting

/-- Since `s` the program has taken no completion and made no request. -/
structure Halted (s t : LoopState σ) : Prop where
  status : t.status = s.status
  seen : t.uring.ring.seen = s.uring.ring.seen
  queued : t.uring.ring.queued = s.uring.ring.queued

/-- From `s` to `s'` the loop is left with -1: no outgoing request is made of what
has been taken, and nothing is taken or requested any more. -/
structure EndsWith (api : Ssl σ) (s s' : LoopState σ) : Prop where
  exited : ∃ op, s'.status = .exited (-1) op
  sends : s'.uring.ring.sends = s.uring.ring.sends
  after : ∀ es, Halted s' (s'.run api es)

end Dataplane.Model

namespace Dataplane.Proofs

open ProofSupport Model Ledger

variable {σ : Type} {api : Ssl σ} {ctx ctx' : IouringCtx}

/-! ## A loop that has been left -/

theorem Halted.step {s t : LoopState σ} {ret : Int} {op : Option OpId}
    (hs : s.status = .exited ret op) (h : Halted s t) (e : LoopEvent) :
    Halted s (t.step api e) := by
  have hexited := h.status.trans hs
  cases e with
  | kernel e =>
      obtain ⟨hseen, hqueued⟩ := kernel_histories t.uring e
      exact ⟨h.status, hseen.trans h.seen, hqueued.trans h.queued⟩
  | wake =>
      simp only [LoopState.step, LoopState.wake, hexited]
      exact h
  | waitError =>
      simp only [LoopState.step, hexited]
      exact h
  | stop => exact ⟨h.status, h.seen, h.queued⟩

theorem exited_run {s : LoopState σ} {ret : Int} {op : Option OpId} (hs : s.status = .exited ret op)
    (es : List LoopEvent) : Halted s (s.run api es) :=
  Execution.run_invariant (fun _ => True) (Halted s) (fun _ e _ h => Halted.step hs h e)
    (fun _ _ => trivial) ⟨rfl, rfl, rfl⟩

/-! ## Without an op -/

theorem resubmitRecv_empty (h : ctx.ioOpPool = []) (op : OpId) :
    ctx.iouringResubmitRecv op = (-1, ctx) := by
  simp only [IouringCtx.iouringResubmitRecv, ioOpAlloc_empty h]

theorem multishotRecvmsgOut_pool (ctx : IouringCtx) (op : OpId) (flags : CqeFlags) :
    (ctx.iouringMultishotRecvmsgOut op flags).2.ioOpPool = ctx.ioOpPool := by
  have hsubmit := (iouringSubmitMultishotRecvmsgOp_memory
    (ctx.modOp op (present ctx op flags.bid)) op).2.1
  have hdec := iouringMultishotRecvmsgOut_decoded ctx op flags
  generalize ctx.iouringMultishotRecvmsgOut op flags = out at hdec ⊢
  cases hdec with
  | noBuffer => rfl
  | rejected => rfl
  | presented => rfl
  | rearmed _ _ _ hsub =>
      rw [hsub] at hsubmit
      exact hsubmit
  | stopped _ _ _ hsub =>
      rw [hsub] at hsubmit
      exact hsubmit

/-- Without an op, a packet is handed out by a multishot receive, which leaves
the pool as it is. -/
theorem waitForRecvBody_empty (h : ctx.ioOpPool = []) {c : Cqe} {op : OpId}
    (hres : ctx.waitForRecvBody c = (.recv op, ctx')) : ctx'.ioOpPool = [] := by
  unfold IouringCtx.waitForRecvBody at hres
  dsimp only at hres
  split at hres
  · cases hres
  have hmod : (ctx.modOp c.req.userData fun o => { o with dataLen := c.res }).ioOpPool = [] := h
  generalize ctx.modOp c.req.userData (fun o => { o with dataLen := c.res }) = mid at *
  have hsingle : ¬ IouringCtx.waitForRecvDone c.req.userData
      (mid.iouringResubmitRecv c.req.userData) = (.recv op, ctx') := by
    intro hr
    have hret := (waitForRecvDone_recv hr).2.1
    rw [resubmitRecv_empty hmod] at hret
    omega
  split at hres
  · split at hres
    · rw [(waitForRecvDone_recv hres).2.2, multishotRecvmsgOut_pool]
      exact hmod
    · exact absurd hres hsingle
  · cases hres
  · split at hres
    · rw [(waitForRecvDone_recv hres).2.2]
      unfold IouringCtx.iouringMultishotReadOut
      repeat' split
      all_goals exact hmod
    · exact absurd hres hsingle
  · cases hres
  · have hret := (waitForRecvDone_recv hres).2.1
    dsimp only at hret
    omega

theorem dtlsEncryptAndSendUdp_empty (h : ctx.ioOpPool = []) (conn : Connection σ) (data : Bytes) :
    dtlsEncryptAndSendUdp api conn data ctx = (-1, ctx, conn) := by
  simp only [dtlsEncryptAndSendUdp, ioOpAlloc_empty h]

theorem forwardBetween_empty (h : ctx.ioOpPool = []) (recvConn forwardConn : Connection σ)
    (data : Bytes) (len : Int) :
    (forwardBetween api ctx recvConn forwardConn data len).1 = -1 ∧
      (forwardBetween api ctx recvConn forwardConn data len).2.1 = ctx := by
  unfold forwardBetween
  dsimp only
  split
  · exact ⟨rfl, rfl⟩
  · simp [dtlsEncryptAndSendUdp_empty h]

theorem forwardUdpPacket_empty (h : ctx.ioOpPool = []) (inbound outbound : Connection σ)
    (op : OpId) : (forwardUdpPacket api ctx inbound outbound op).1 = -1 ∧
      (forwardUdpPacket api ctx inbound outbound op).2.1 = ctx := by
  unfold forwardUdpPacket
  dsimp only
  split
  · exact ⟨rfl, rfl⟩
  split
  · exact forwardBetween_empty h _ _ _ _
  · exact forwardBetween_empty h _ _ _ _

theorem body_empty (api : Ssl σ) (h : ctx.ioOpPool = []) (prog : Program σ) (op : OpId) :
    (prog.body api ctx op).1 = -1 ∧ (prog.body api ctx op).2.2.1.ring = ctx.ring := by
  have hring := (ioOpFree_ring ctx op).1
  cases prog with
  | tunUdpRun conn tunFd =>
      show (tunUdpRunBody api ctx conn tunFd op).1 = -1 ∧
        (tunUdpRunBody api ctx conn tunFd op).2.2.1.ring = ctx.ring
      unfold tunUdpRunBody
      dsimp only
      split
      · rw [dtlsEncryptAndSendUdp_empty h]
        exact ⟨rfl, hring⟩
      · simp only [dtlsDecryptAndWriteTun, ioOpAlloc_empty h]
        exact ⟨rfl, hring⟩
      · exact ⟨rfl, hring⟩
  | tunUdpRunZero conn tunFd =>
      show (tunUdpRunZeroBody ctx conn tunFd op).1 = -1 ∧
        (tunUdpRunZeroBody ctx conn tunFd op : _ × _ × _ × Program σ).2.2.1.ring = ctx.ring
      unfold tunUdpRunZeroBody
      split
      · simp only [tunToUdp, ioOpAllocBuf_empty h]
        exact ⟨rfl, hring⟩
      · have hpool := (learnAddr_ioOpPool ctx conn op).trans h
        simp only [udpToTun, ioOpAllocBuf_empty hpool]
        exact ⟨rfl, (ioOpFree_ring _ op).1.trans (learnAddr_ring ctx conn op)⟩
      · exact ⟨rfl, hring⟩
  | forwarderRun inbound outbound =>
      obtain ⟨hret, hctx⟩ := forwardUdpPacket_empty h inbound outbound op
      show (forwarderRunBody api ctx inbound outbound op).1 = -1 ∧
        (forwarderRunBody api ctx inbound outbound op).2.2.1.ring = ctx.ring
      unfold forwarderRunBody
      split
      · exact ⟨rfl, rfl⟩
      · rcases hres : forwardUdpPacket api ctx inbound outbound op with
          ⟨ret, ctx', inbound', outbound'⟩
        rw [hres] at hret hctx
        dsimp only at hret hctx ⊢
        rw [if_pos (by omega)]
        exact ⟨hret, by rw [hctx]⟩

/-! ## The end of the loop -/

theorem sends_of_queues (h : Queues Receives ctx ctx') : ctx'.ring.sends = ctx.ring.sends := by
  obtain ⟨rs, hqueued, hrs⟩ := h
  have hnone : rs.filter (fun r => r.opcode.outgoing) = [] := by
    apply List.filter_eq_nil_iff.mpr
    intro r hr
    rw [hrs r hr]
    decide
  rw [IoUring.sends, hqueued, List.filter_append, hnone, List.append_nil, IoUring.sends]

theorem Sound.fails {s : LoopState σ} (h : Sound s.uring) {c : Cqe} {cq : List Cqe}
    (hcq : s.uring.ring.cq = c :: cq) (hfails : c.Fails s.uring) :
    EndsWith api s (takeCqe api s c cq) := by
  obtain ⟨held, taken, hinv⟩ := h
  have hend : ∀ {s' : LoopState σ}, (∃ op, s'.status = .exited (-1) op) →
      ∀ es, Halted s' (s'.run api es) := by
    rintro s' ⟨op, hstatus⟩ es
    exact exited_run hstatus es
  unfold takeCqe
  have hqueues := waitForRecvBody_queues (s.uring.iouringCqeSeen c cq) c
  rcases hstep : (s.uring.iouringCqeSeen c cq).waitForRecvBody c with ⟨step, ctx⟩
  rw [hstep] at hqueues
  have hsends : ctx.ring.sends = s.uring.ring.sends := sends_of_queues hqueues
  cases hinv.wait hcq hstep with
  | again hres hout _ _ =>
      rcases hfails with hneg | ⟨hin, -⟩
      · omega
      · rw [hin] at hout
        cases hout
  | null rs _ _ _ =>
      exact ⟨⟨none, rfl⟩, hsends, hend ⟨none, rfl⟩⟩
  | recv rs got idx hres _ _ _ _ _ =>
      have hempty : ctx.ioOpPool = [] := by
        rcases hfails with hneg | ⟨-, hpool⟩
        · omega
        · have hseen : (s.uring.iouringCqeSeen c cq).ioOpPool = [] := hpool
          exact waitForRecvBody_empty hseen hstep
      obtain ⟨hret, hring⟩ := body_empty api hempty s.prog c.req.userData
      rcases hbody : s.prog.body api ctx c.req.userData with ⟨ret, rest, ctx2, prog⟩
      rw [hbody] at hret hring
      dsimp only at hret hring
      subst hret
      simp only [hbody, atLoopHead_eq]
      have hexited : ∃ op, headStatus prog s.running s.status (-1) rest = .exited (-1) op :=
        ⟨rest, rfl⟩
      refine ⟨hexited, ?_, hend hexited⟩
      rw [← hsends, IoUring.sends, hring, IoUring.sends]

/-- In every session a loop that comes to a completion with an error, or to a
packet while there is no op left, ends with -1. -/
theorem failure_ends (api : Ssl σ) (config : IouringConfig) (sqeFree : Nat → Bool)
    (submits : Nat → Int) (prog : Program σ) (running : Bool) {start : Session σ}
    (hstart : Session.start (IouringCtx.iouringInit config sqeFree submits) prog running =
      some start) (es : List SessionEvent) {s : LoopState σ} (hs : start.run api es = .loop s)
    (hwait : s.status = .waiting) {c : Cqe} {cq : List Cqe} (hcq : s.uring.ring.cq = c :: cq)
    (hfails : c.Fails s.uring) : EndsWith api s (s.step api .wake) := by
  have hgood := good_run api (good_start config sqeFree submits hstart) es
  rw [hs] at hgood
  have hsound : Sound s.uring := hgood (by rw [hwait]; rfl)
  simp only [LoopState.step, LoopState.wake, hwait, hcq]
  exact hsound.fails hcq hfails

/-! ## A refused send -/

def refusedSend : List SessionEvent :=
  [.kernel (.complete 1 3 [1, 2, 3] [] 0), .wake, .kernel (.complete 3 (-111) [] [] 0)]

/-- The loop does not survive it. -/
theorem refusedSend_not_survives :
    ¬ ∀ es s, smallSession.run plainSsl es = .loop s → s.Survives plainSsl := by
  intro h
  have hgoes := h refusedSend _ rfl rfl _ _ rfl (.inl (by decide))
  revert hgoes
  decide

theorem failure_ends_refused : ∃ s, smallSession.run plainSsl refusedSend = .loop s ∧
    EndsWith plainSsl s (s.step plainSsl .wake) :=
  ⟨_, rfl, failure_ends plainSsl smallConfig (fun _ => true) (fun _ => 1)
    (.tunUdpRunZero smallConn 5) true rfl refusedSend rfl rfl rfl (.inl (by decide))⟩

end Dataplane.Proofs
