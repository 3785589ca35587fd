import Dataplane.Proofs.Assertions
import Dataplane.Proofs.EdgeTraffic

/-!
# What goes out

The kernel reads the memory of an outgoing request when it carries the request
out, which may be long after it was submitted, in another stage of the session
or after the session has failed.  The ledgers say that nobody has touched that
memory in between.
-/

namespace Dataplane.Model

/-- What has gone out is what the requests were made for, and no request goes
out twice. -/
structure IoUring.Faithful (ring : IoUring) : Prop where
  carried : ∀ t ∈ ring.wire, t.data = t.req.data ∧ t.name = t.req.name
  once : (ring.wire.map Transfer.req ++ ring.inflight.filter fun r => r.opcode.outgoing).Subperm
    (ring.queued.filter fun r => r.opcode.outgoing)

end Dataplane.Model

namespace Dataplane.Proofs

open ProofSupport Model Ledger

variable {σ : Type} {api : Ssl σ} {ctx ctx' : IouringCtx} {held : Multiset OpId}
  {taken : Multiset Nat}

/-! ## Steps -/

/-- A step of the kernel, or of the program: it takes at most one completion and
makes some requests. -/
inductive Progress (ctx : IouringCtx) : IouringCtx → Prop
  | kernel (e : KEvent) : Progress ctx (ctx.kernel e)
  | acts {ctx' : IouringCtx} (rs : List Sqe) : Effect ctx ctx' rs → Progress ctx ctx'
  | takes {ctx' : IouringCtx} {c : Cqe} {cq : List Cqe} (rs : List Sqe) : ctx.ring.cq = c :: cq →
      Effect (ctx.iouringCqeSeen c cq) ctx' rs → Progress ctx ctx'

theorem Progress.same (ctx : IouringCtx) : Progress ctx ctx :=
  .acts [] (.of_ring_eq rfl rfl rfl)

theorem Progress.config (h : Progress ctx ctx') : ctx'.config = ctx.config := by
  cases h with
  | kernel e => exact kernel_config ctx e
  | acts rs heff => exact heff.config
  | takes rs _ heff => exact heff.config

/-- What the kernel sends for a request is what the request was made for, as
long as nobody has touched its memory. -/
theorem Faithful.posted (h : ctx.ring.Faithful) {c : Cqe} (hpost : Posted ctx ctx' c)
    (hintact : Intact ctx c.req) : ctx'.ring.Faithful := by
  obtain ⟨hcarried, honce⟩ := h
  have herase : ctx.ring.active.Perm (c.req :: ctx.ring.active.erase c.req) :=
    List.perm_cons_erase hpost.req
  constructor
  · intro t ht
    rw [hpost.wire] at ht
    rcases List.mem_append.mp ht with hold | hnew
    · exact hcarried t hold
    split at hnew
    · rename_i hout
      rw [List.mem_singleton.mp hnew]
      exact hintact hout.1
    · cases hnew
  rw [hpost.queued]
  refine List.Subperm.trans ?_ honce
  rw [hpost.wire, IoUring.inflight, IoUring.inflight, hpost.active, hpost.sq]
  by_cases hout : c.req.opcode.outgoing = true
  · -- the request goes from those in flight to those sent, or it is lost
    simp only [hpost.last hout, Bool.false_eq_true, if_false]
    have hperm : (ctx.ring.wire.map Transfer.req ++
        (ctx.ring.active ++ ctx.ring.sq).filter fun r => r.opcode.outgoing).Perm
        (c.req :: (ctx.ring.wire.map Transfer.req ++
          (ctx.ring.active.erase c.req ++ ctx.ring.sq).filter fun r => r.opcode.outgoing)) := by
      have hfilter := (herase.append_right ctx.ring.sq).filter fun r => r.opcode.outgoing
      rw [List.cons_append, List.filter_cons, if_pos hout] at hfilter
      exact (hfilter.append_left _).trans List.perm_middle
    refine List.Subperm.trans ?_ hperm.symm.subperm
    split
    · rw [List.map_append, List.append_assoc]
      exact List.perm_middle.subperm
    · rw [List.append_nil]
      exact (List.sublist_cons_self _ _).subperm
  · -- a receive is no outgoing request
    have hnone : ¬ (c.req.opcode.outgoing = true ∧ 0 ≤ c.res) := fun h => hout h.1
    rw [if_neg hnone, List.append_nil]
    have hsub : (if c.flags.more then ctx.ring.active else ctx.ring.active.erase c.req).Sublist
        ctx.ring.active := by
      split
      · exact List.Sublist.refl _
      · exact List.erase_sublist
    apply List.Sublist.subperm
    apply List.Sublist.append_left
    exact (hsub.append_right _).filter _

theorem Faithful.requests (h : ctx.ring.Faithful) {rs : List Sqe}
    (hqueued : ctx'.ring.queued = ctx.ring.queued ++ rs)
    (hinflight : ctx'.ring.inflight = ctx.ring.inflight ++ rs)
    (hwire : ctx'.ring.wire = ctx.ring.wire) : ctx'.ring.Faithful := by
  constructor
  · rw [hwire]
    exact h.carried
  · rw [hqueued, hinflight, hwire, List.filter_append, List.filter_append, ← List.append_assoc]
    exact (List.subperm_append_right _).mpr h.once

theorem Progress.faithful (h : Progress ctx ctx') (hrests : Rests ctx)
    (hfaithful : ctx.ring.Faithful) : ctx'.ring.Faithful := by
  cases h with
  | kernel e =>
      rcases kernel_posted ctx e with heq | ⟨c, hpost⟩
      · rw [heq]
        exact hfaithful
      · exact Faithful.posted hfaithful hpost (hrests.intact hpost.req)
  | acts rs heff => exact Faithful.requests hfaithful heff.queued heff.inflight heff.wire
  | takes rs _ heff => exact Faithful.requests hfaithful heff.queued heff.inflight heff.wire

/-! ## Steps of a session -/

theorem HandshakeSound.progress {s : HandshakeState σ} (h : HandshakeSound s)
    (e : HandshakeEvent) : Progress s.uring (s.step api e).uring := by
  cases e with
  | call =>
      simp only [HandshakeState.step]
      split
      · rename_i hpc
        obtain ⟨⟨_, _, hinv⟩, -⟩ := h (by rw [hpc]; simp)
        obtain ⟨_, hcalled⟩ := hinv.call api
        exact .acts _ hcalled.effect
      · exact .same _
  | kernel e => exact .kernel e
  | wake =>
      simp only [HandshakeState.step]
      split
      · rename_i hpc hcq
        obtain ⟨⟨_, _, hinv⟩, hreqs⟩ := h (by rw [hpc]; simp)
        obtain ⟨_, heff, -, -⟩ := hinv.consume hreqs hpc hcq
        exact .takes _ hcq heff
      · exact .same _
  | waitError =>
      simp only [HandshakeState.step]
      split <;> exact .same _

theorem HandshakeSound.proceed_progress {s : HandshakeState σ} (h : HandshakeSound s)
    (hpc : s.pc = .returned 0) (running : Bool) (stage : Stage σ) :
    Progress s.uring (Session.proceed s running stage).uring := by
  obtain ⟨⟨held, taken, hinv⟩, -⟩ := h (by rw [hpc]; simp)
  cases stage with
  | inbound outbound => exact .same _
  | outbound inbound =>
      simp only [Session.proceed, Session.uring, start_uring]
      exact .same _
  | edge tunFd =>
      obtain ⟨_, heff, -⟩ := hinv.tunReads tunFd s.uring.config.nInitialReadOps
      have hprogress := Progress.acts _ heff
      simp only [Session.proceed]
      split
      · exact hprogress
      · simp only [Session.uring, start_uring]
        exact hprogress

theorem Inv.takeCqe_effect (api : Ssl σ) {s : LoopState σ} (h : Inv s.uring held taken) {c : Cqe}
    {cq : List Cqe} (hcq : s.uring.ring.cq = c :: cq) :
    ∃ rs, Effect (s.uring.iouringCqeSeen c cq) (takeCqe api s c cq).uring rs := by
  unfold takeCqe
  rcases hstep : (s.uring.iouringCqeSeen c cq).waitForRecvBody c with ⟨step, ctx⟩
  cases h.wait hcq hstep with
  | again _ _ heff _ => exact ⟨_, heff⟩
  | null rs heff _ _ => exact ⟨rs, heff⟩
  | recv rs got idx _ hin heff _ hinv hrecv =>
      rcases hbody : s.prog.body api ctx c.req.userData with ⟨ret, rest, ctx', prog⟩
      obtain ⟨rs', hh⟩ := hinv.body hrecv hin hbody
      simp only [hbody, atLoopHead_eq]
      exact ⟨rs ++ rs', heff.trans hh.effect⟩

theorem loop_progress {s : LoopState σ} (h : s.status.ok = true → Sound s.uring) (e : LoopEvent) :
    Progress s.uring (s.step api e).uring := by
  cases e with
  | kernel e => exact .kernel e
  | wake =>
      simp only [LoopState.step, LoopState.wake]
      split
      · rename_i hstatus hcq
        obtain ⟨held, taken, hinv⟩ := h (by rw [hstatus]; rfl)
        obtain ⟨rs, heff⟩ := hinv.takeCqe_effect api hcq
        exact .takes rs hcq heff
      · exact .same _
  | waitError =>
      simp only [LoopState.step]
      split <;> exact .same _
  | stop => exact .same _

theorem step_progress (api : Ssl σ) {s : Session σ} (hgood : s.Good) (e : SessionEvent) :
    Progress s.uring (s.step api e).uring := by
  cases s with
  | handshake stage s running =>
      cases e with
      | call => exact HandshakeSound.progress hgood .call
      | kernel e => exact .kernel e
      | wake => exact HandshakeSound.progress hgood .wake
      | waitError => exact HandshakeSound.progress hgood .waitError
      | stop => exact .same _
      | proceed =>
          simp only [Session.step]
          split
          · rename_i hpc
            exact HandshakeSound.proceed_progress hgood hpc running stage
          · exact .same _
  | loop s =>
      simp only [Session.step]
      split
      · exact .same _
      · exact loop_progress hgood _
  | returned uring =>
      cases e with
      | kernel e => exact .kernel e
      | _ => exact .same _

/-! ## Sessions -/

/-- In every state of every session, failed sessions included, what has gone out
on a socket or to the TUN device is what was in memory when its request was
made, with the destination that it was made for, and no request went out more
often than it was made. -/
theorem sessions_faithful (api : Ssl σ) (config : IouringConfig) (sqeFree : Nat → Bool)
    (submits : Nat → Int) {prog : Program σ} {running : Bool} {start : Session σ}
    (hstart : Session.start (IouringCtx.iouringInit config sqeFree submits) prog running =
      some start) (es : List SessionEvent) : (start.run api es).uring.ring.Faithful := by
  have hrun : ((start.run api es).Good ∧ Rests (start.run api es).uring) ∧
      (start.run api es).uring.ring.Faithful := by
    apply Execution.run_invariant (fun _ => True)
      (fun s : Session σ => (s.Good ∧ Rests s.uring) ∧ s.uring.ring.Faithful)
    · rintro s e - ⟨⟨hgood, hrests⟩, hfaithful⟩
      exact ⟨⟨good_step hgood e, (step_checks api hgood hrests e).rests⟩,
        (step_progress api hgood e).faithful hrests hfaithful⟩
    · exact fun _ _ => trivial
    · refine ⟨⟨good_start config sqeFree submits hstart, (session_start_inv hstart).stopped.rests⟩,
        ?_⟩
      obtain ⟨rs, heff, -⟩ := session_start_effect hstart
      exact Faithful.requests ⟨by simp [IouringCtx.iouringInit],
        by simp [IouringCtx.iouringInit, IoUring.inflight]⟩ heff.queued heff.inflight heff.wire
  exact hrun.2

/-- A packet is relayed, the receive fails and ends the loop, and only then the
kernel carries the send out. -/
def lateRun : List SessionEvent :=
  [.kernel (.complete 1 3 [1, 2, 3] [] 0), .wake, .kernel (.fail 0 (-105)), .wake,
    .kernel (.complete 3 3 [] [] 0)]

theorem sessions_faithful_late :
    (smallSession.run plainSsl lateRun).uring.ring.wire.map (fun t => (t.req.userData, t.data)) =
      [(3, [1, 2, 3])] ∧ (smallSession.run plainSsl lateRun).uring.ring.Faithful := by
  have hstart : Session.start (IouringCtx.iouringInit smallConfig (fun _ => true) fun _ => 1)
      (.tunUdpRunZero smallConn 5) true = some smallSession := rfl
  exact ⟨rfl, sessions_faithful plainSsl smallConfig (fun _ => true) (fun _ => 1) hstart lateRun⟩

/-! ## How much waits

A completion that waits holds an op or a slot of the buffer ring, so there are
never more of them than ops and slots. -/

/-- A completion that is not the last of its request has brought a packet. -/
def Brings (ring : IoUring) : Prop := ∀ c ∈ ring.cq, c.flags.more = true → c.flags.buffer = true

theorem Brings.posted (h : Brings ctx.ring) {c : Cqe} (hpost : Posted ctx ctx' c)
    (hc : c.flags.more = true → c.flags.buffer = true) : Brings ctx'.ring := by
  intro c' hc'
  rw [hpost.cq] at hc'
  rcases List.mem_append.mp hc' with hold | hnew
  · exact h c' hold
  · rw [List.mem_singleton.mp hnew]
    exact hc

theorem Brings.kernel (h : Brings ctx.ring) (e : KEvent) : Brings (ctx.kernel e).ring := by
  have hsame : ctx.kernel e = ctx → Brings (ctx.kernel e).ring := fun heq => by
    rw [heq]
    exact h
  cases e with
  | complete op res data name tag =>
      cases hr : ctx.inFlight op false with
      | none => exact hsame (by simp [IouringCtx.kernel, hr])
      | some r => exact Brings.posted h (complete_posted hr res data name tag) (by simp)
  | recv op bid res data more tag =>
      cases hr : ctx.inFlight op true with
      | none => exact hsame (by simp [IouringCtx.kernel, hr])
      | some r =>
          by_cases hbid : bid ∈ ctx.br
          · exact Brings.posted h (recv_posted hr hbid res data more tag) fun _ => rfl
          · exact hsame (by simp [IouringCtx.kernel, hr, hbid])
  | fail op res =>
      cases hr : ctx.inFlight op true with
      | none => exact hsame (by simp [IouringCtx.kernel, hr])
      | some r =>
          by_cases hres : res < 0
          · exact Brings.posted h (fail_posted hr hres) (by simp)
          · exact hsame (by simp [IouringCtx.kernel, hr, hres])

theorem Progress.brings (h : Progress ctx ctx') (hbrings : Brings ctx.ring) : Brings ctx'.ring := by
  cases h with
  | kernel e => exact Brings.kernel hbrings e
  | acts rs heff =>
      intro c hc
      rw [heff.cq] at hc
      exact hbrings c hc
  | takes rs hcq heff =>
      intro c hc
      rw [heff.cq] at hc
      apply hbrings c
      rw [hcq]
      exact List.mem_cons_of_mem _ hc

theorem Rests.backlog (h : Rests ctx) (hbrings : Brings ctx.ring) :
    ctx.ring.active.length + ctx.ring.cq.length ≤ ctx.config.nIoOps + ctx.config.brNBufs := by
  obtain ⟨held, taken, hinv⟩ := h
  have hops : ctx.ring.active.length + (ctx.ring.cq.filter Cqe.last).length ≤
      ctx.config.nIoOps := by
    have hledger := congrArg Multiset.card hinv.opLedger
    simp only [IoUring.requests, IoUring.posted, dropSq, Multiset.card_add, Multiset.coe_card,
      List.length_map, Multiset.card_range] at hledger
    omega
  have hslots : (ctx.ring.cq.filter fun c => c.flags.buffer).length ≤ ctx.config.brNBufs := by
    have hledger := congrArg Multiset.card hinv.slotLedger
    simp only [IoUring.selected, dropSq, Multiset.card_add, Multiset.coe_card, List.length_map,
      Multiset.card_range] at hledger
    omega
  have hmore : (ctx.ring.cq.filter fun c => !c.last).length ≤
      (ctx.ring.cq.filter fun c => c.flags.buffer).length := by
    simp only [← List.countP_eq_length_filter]
    apply List.countP_mono_left
    intro c hc hlast
    exact hbrings c hc (by simpa [Cqe.last] using hlast)
  have hsplit := ctx.ring.cq.length_eq_length_filter_add Cqe.last
  omega

/-- In every state of every session, failed sessions included, the requests that
the kernel has and the completions that the program has not taken are together
no more than the ops and the slots of the buffer ring. -/
theorem sessions_backlog (api : Ssl σ) (config : IouringConfig) (sqeFree : Nat → Bool)
    (submits : Nat → Int) {prog : Program σ} {running : Bool} {start : Session σ}
    (hstart : Session.start (IouringCtx.iouringInit config sqeFree submits) prog running =
      some start) (es : List SessionEvent) :
    (start.run api es).uring.ring.active.length + (start.run api es).uring.ring.cq.length ≤
      config.nIoOps + config.brNBufs := by
  have hrun : ((start.run api es).Good ∧ Rests (start.run api es).uring) ∧
      Brings (start.run api es).uring.ring ∧ (start.run api es).uring.config = config := by
    apply Execution.run_invariant (fun _ => True) (fun s : Session σ =>
      (s.Good ∧ Rests s.uring) ∧ Brings s.uring.ring ∧ s.uring.config = config)
    · rintro s e - ⟨⟨hgood, hrests⟩, hbrings, hconfig⟩
      have hprogress := step_progress api hgood e
      exact ⟨⟨good_step hgood e, (step_checks api hgood hrests e).rests⟩,
        hprogress.brings hbrings, hprogress.config.trans hconfig⟩
    · exact fun _ _ => trivial
    · obtain ⟨rs, heff, -⟩ := session_start_effect hstart
      refine ⟨⟨good_start config sqeFree submits hstart, (session_start_inv hstart).stopped.rests⟩,
        ?_, heff.config⟩
      intro c hc
      rw [heff.cq] at hc
      cases hc
  obtain ⟨⟨-, hrests⟩, hbrings, hconfig⟩ := hrun
  rw [← hconfig]
  exact hrests.backlog hbrings

theorem sessions_backlog_late : (smallSession.run plainSsl lateRun).uring.ring.active.length +
    (smallSession.run plainSsl lateRun).uring.ring.cq.length ≤ 6 := by
  have hstart : Session.start (IouringCtx.iouringInit smallConfig (fun _ => true) fun _ => 1)
      (.tunUdpRunZero smallConn 5) true = some smallSession := rfl
  exact sessions_backlog plainSsl smallConfig (fun _ => true) (fun _ => 1) hstart lateRun

end Dataplane.Proofs
