import Dataplane.Model.Session
import Dataplane.Proofs.HandshakeBuffers
import Dataplane.Proofs.Turns

/-!
# Sessions keep the ownership invariant

What a handshake drops without freeing it stays in the program's hands for the
rest of the session.  Everything else is in its place as long as nothing has
failed.
-/

namespace Dataplane.Proofs

open ProofSupport Model Ledger

variable {σ : Type} {api : Ssl σ} {ctx ctx' : IouringCtx} {held : Multiset OpId}
  {taken : Multiset Nat}

/-! ## A round of the handshake -/

structure Called (api : Ssl σ) (held : Multiset OpId) (taken : Multiset Nat)
    (s s' : HandshakeState σ) (outs : List Sqe) : Prop where
  effect : Effect s.uring s'.uring outs
  single : outs.length ≤ 1
  entry : ∀ r ∈ outs, SendOn s.uring s.conn
    ((s.conn.after (api.doHandshake s.conn.ssl s.conn.rbio)).wbio.take bufSize) r
  conn : s'.conn.udpFd = s.conn.udpFd ∧ s'.conn.addr = s.conn.addr ∧
    s'.conn.addrLen = s.conn.addrLen
  inv : s'.pc ≠ .returned (-1) → Inv s'.uring held taken

theorem conclude_addr (s : HandshakeState σ) (ret : Int) (err : SslError) :
    (s.conclude ret err).conn.addr = s.conn.addr ∧
      (s.conclude ret err).conn.addrLen = s.conn.addrLen := by
  unfold HandshakeState.conclude
  repeat' split
  all_goals exact ⟨rfl, rfl⟩

theorem Inv.call (api : Ssl σ) {s : HandshakeState σ} (h : Inv s.uring held taken) :
    ∃ outs, Called api held taken s (s.call api) outs := by
  unfold HandshakeState.call
  dsimp only
  generalize hr : api.doHandshake s.conn.ssl s.conn.rbio = r
  split
  · obtain ⟨huring, -, hfd, -⟩ := conclude_frame { s with
      conn := s.conn.after r
      sslSend := (s.conn.after r).wbio.length
      written := s.written ++ r.out } r.ret r.err
    refine ⟨[], ?_, by simp, by simp, ⟨hfd, conclude_addr _ _ _⟩, fun _ => ?_⟩
    · rw [huring]
      exact .of_ring_eq rfl rfl rfl
    · rw [huring]
      exact h
  rename_i hlen
  have hne : (s.conn.after r).wbio ≠ [] := by simpa using hlen
  rcases hsend : Model.sendFlight s.uring (s.conn.after r) with ⟨ret, ctx, conn⟩
  obtain ⟨rfl, outs, hflight⟩ := h.sendFlight hne hsend
  have hentry : ∀ r' ∈ outs, SendOn s.uring s.conn ((s.conn.after r).wbio.take bufSize) r' := by
    intro r' hr'
    have hon := hflight.entry r' hr'
    exact ⟨hon.carries, hon.namelen, hon.name⟩
  split
  · exact ⟨outs, hflight.effect, hflight.single, hr ▸ hentry, ⟨rfl, rfl, rfl⟩,
      fun hpc => absurd rfl hpc⟩
  rename_i hret
  obtain ⟨huring, -, hfd, -⟩ := conclude_frame { s with
    uring := ctx
    conn := { s.conn.after r with wbio := (s.conn.after r).wbio.drop bufSize }
    sslSend := (s.conn.after r).wbio.length
    written := s.written ++ r.out } r.ret r.err
  refine ⟨outs, ?_, hflight.single, hr ▸ hentry, ⟨hfd, conclude_addr _ _ _⟩, fun _ => ?_⟩
  · rw [huring]
    exact hflight.effect
  · rw [huring]
    rcases hflight.done with ⟨-, -, hinv⟩ | rfl
    · exact hinv
    · exact absurd (by simp) hret

/-! ## A completion in the handshake -/

inductive Consumed (held : Multiset OpId) (taken : Multiset Nat) (s : HandshakeState σ) (c : Cqe) :
    HandshakeState σ → Prop
  | sent {s' : HandshakeState σ} : c.req.opcode.outgoing = true → s'.conn = s.conn →
      s'.pc = .waiting → Inv s'.uring held taken → Consumed held taken s c s'
  | stopped {s' : HandshakeState σ} : s'.conn = s.conn → s'.pc = .returned (-1) →
      Consumed held taken s c s'
  | foreign {s' : HandshakeState σ} (got : Multiset OpId) (idx : Multiset Nat) :
      0 ≤ c.res → c.req.opcode.outgoing = false → c.req.fd ≠ s.conn.udpFd → s'.conn = s.conn →
      s'.pc = .calling → Inv s'.uring (got + held) (idx + taken) → Consumed held taken s c s'
  | own {s' : HandshakeState σ} (mid : IouringCtx) (got : Multiset OpId) (idx : Multiset Nat) :
      0 ≤ c.res → c.req.opcode.outgoing = false → c.req.fd = s.conn.udpFd →
      Received mid c c.req.userData got idx →
      s'.conn = { (learnAddr mid s.conn c.req.userData).2 with
        rbio := (bioWrite s.conn.rbio (mid.load (mid.ops c.req.userData).buffer
          (mid.ops c.req.userData).dataLen.toNat) (mid.ops c.req.userData).dataLen).2 } →
      s'.pc = .calling → Inv s'.uring held taken → Consumed held taken s c s'

theorem Inv.consume {s : HandshakeState σ} (h : Inv s.uring held taken)
    (hreqs : AllRequests UdpRequest s.uring.ring) (hpc : s.pc = .waiting) {c : Cqe} {cq : List Cqe}
    (hcq : s.uring.ring.cq = c :: cq) :
    ∃ ins, Effect (s.uring.iouringCqeSeen c cq) (s.takeCqe c cq).uring ins ∧
      (∀ r ∈ ins, Incoming c.req.opcode.opType c.req.fd r) ∧
      Consumed held taken s c (s.takeCqe c cq) := by
  have hudp := (hreqs.seen hcq).1
  unfold HandshakeState.takeCqe
  rcases hstep : (s.uring.iouringCqeSeen c cq).waitForRecvBody c with ⟨step, ctx⟩
  cases h.wait hcq hstep with
  | again _ hout heff hinv => exact ⟨[], heff, by simp, .sent hout rfl hpc hinv⟩
  | null rs heff hin _ => exact ⟨rs, heff, hin, .stopped rfl rfl⟩
  | recv rs got idx hres hin heff hrs hinv hrecv =>
      have htype : (ctx.ops c.req.userData).opType = .udpRecv := by
        rw [hrecv.opType]
        apply hudp.resolve_left
        intro hsend
        rw [hsend] at hin
        cases hin
      simp only [htype, decide_true, assert_true]
      split
      · rename_i hfd
        rw [hrecv.fd] at hfd
        exact ⟨rs, heff, hrs, .foreign got idx hres hin hfd rfl rfl hinv⟩
      · rename_i hfd
        rw [hrecv.fd, not_not] at hfd
        have hring := ioOpFree_ring ctx c.req.userData
        have heff' := heff.trans (.of_ring_eq hring.1 hring.2.1 hring.2.2)
        rw [List.append_nil] at heff'
        simp only [learnAddr_ctx s.conn (hrecv.addrLen htype), learnAddr_rbio]
        exact ⟨rs, heff', hrs, .own ctx got idx hres hin hfd hrecv rfl rfl
          (hinv.ioOpFree hrecv.freeable)⟩

/-! ## The ownership invariant of a session -/

def Sound (ctx : IouringCtx) : Prop := ∃ held taken, Inv ctx held taken

theorem step_returned {s : HandshakeState σ} {ret : Int} (h : s.pc = .returned ret)
    (e : HandshakeEvent) : (s.step api e).pc = .returned ret := by
  cases e <;> simp [HandshakeState.step, h]

def HandshakeSound (s : HandshakeState σ) : Prop :=
  s.pc ≠ .returned (-1) → Sound s.uring ∧ AllRequests UdpRequest s.uring.ring

theorem Called.requests {s s' : HandshakeState σ} {outs : List Sqe}
    (h : Called api held taken s s' outs) (hreqs : AllRequests UdpRequest s.uring.ring) :
    AllRequests UdpRequest s'.uring.ring := by
  apply hreqs.effect h.effect
  intro r hr
  exact Or.inl (h.entry r hr).carries.opcode

theorem UdpRequest.of_opType {r r' : Sqe} (h : UdpRequest r)
    (htype : r'.opcode.opType = r.opcode.opType) : UdpRequest r' := by
  rcases h with h | h
  · left
    rw [h] at htype
    revert htype
    cases r'.opcode <;> simp [Opcode.opType]
  · right
    exact htype.trans h

theorem HandshakeSound.step {s : HandshakeState σ} (h : HandshakeSound s) (e : HandshakeEvent) :
    HandshakeSound (s.step api e) := by
  cases e with
  | call =>
      simp only [HandshakeState.step]
      split
      · rename_i hpc
        obtain ⟨⟨held, taken, hinv⟩, hreqs⟩ := h (by rw [hpc]; simp)
        obtain ⟨outs, hcalled⟩ := hinv.call api
        exact fun hpc' => ⟨⟨held, taken, hcalled.inv hpc'⟩, hcalled.requests hreqs⟩
      · exact h
  | kernel e =>
      intro hpc
      obtain ⟨⟨held, taken, hinv⟩, hreqs⟩ := h hpc
      exact ⟨⟨held, taken, hinv.kernel e⟩, hreqs.kernel e⟩
  | wake =>
      simp only [HandshakeState.step]
      split
      · rename_i c cq hpc hcq
        obtain ⟨⟨held, taken, hinv⟩, hreqs⟩ := h (by rw [hpc]; simp)
        obtain ⟨ins, heff, hin, hconsumed⟩ := hinv.consume hreqs hpc hcq
        have hudp : AllRequests UdpRequest (s.takeCqe c cq).uring.ring := by
          obtain ⟨hreq, hseen⟩ := hreqs.seen hcq
          apply hseen.effect heff
          intro r hr
          exact hreq.of_opType (hin r hr).opType
        intro hpc'
        refine ⟨?_, hudp⟩
        cases hconsumed with
        | sent _ _ _ hinv' => exact ⟨held, taken, hinv'⟩
        | stopped _ hstop => exact absurd hstop hpc'
        | foreign got idx _ _ _ _ _ hinv' => exact ⟨got + held, idx + taken, hinv'⟩
        | own _ _ _ _ _ _ _ _ _ hinv' => exact ⟨held, taken, hinv'⟩
      · exact h
  | waitError =>
      simp only [HandshakeState.step]
      split
      · exact fun hpc => absurd rfl hpc
      · exact h

/-! ### Loops -/

theorem body_bodySpec {c : Cqe} (hin : c.req.opcode.outgoing = false) (prog : Program σ) :
    BodySpec api prog c (fun r => r.opcode.outgoing = true) fun _ => True := by
  intro ctx ctx' held got taken idx ret rest prog' hinv hrecv _ hres
  obtain ⟨rs, hh⟩ := hinv.body hrecv hin hres
  exact ⟨rs, hh, fun _ => trivial⟩

/-- A step that does not fail keeps what the program holds. -/
theorem Inv.loop_step {s : LoopState σ} (h : Inv s.uring held taken) (e : LoopEvent)
    (hok : (s.step api e).status.ok = true) : Inv (s.step api e).uring held taken := by
  cases e with
  | kernel e => exact h.kernel e
  | wake =>
      simp only [LoopState.step, LoopState.wake] at hok ⊢
      split at hok
      · rename_i hcq
        obtain ⟨ins, outs, -, hturn⟩ := h.turn api hcq fun hin => body_bodySpec hin s.prog
        exact hturn.inv hok
      · exact h
  | waitError =>
      simp only [LoopState.step]
      split <;> exact h
  | stop => exact h

theorem start_uring (ctx : IouringCtx) (prog : Program σ) (running : Bool) :
    (LoopState.start ctx prog running).uring = ctx := by
  rw [LoopState.start, atLoopHead_eq]

theorem start_prog (ctx : IouringCtx) (prog : Program σ) (running : Bool) :
    (LoopState.start ctx prog running).prog = prog := by
  rw [LoopState.start, atLoopHead_eq]

end Dataplane.Proofs

namespace Dataplane.Model

def Session.Good {σ : Type} : Session σ → Prop
  | .handshake _ s _ => Proofs.HandshakeSound s
  | .loop s => s.status.ok = true → Proofs.Sound s.uring
  | .returned _ => True

end Dataplane.Model

namespace Dataplane.Proofs

open ProofSupport Model Ledger

variable {σ : Type} {api : Ssl σ} {ctx ctx' : IouringCtx} {held : Multiset OpId}
  {taken : Multiset Nat}

theorem HandshakeSound.proceed {s : HandshakeState σ} (h : HandshakeSound s)
    (hpc : s.pc = .returned 0) (running : Bool) (stage : Stage σ) :
    (Session.proceed s running stage).Good := by
  obtain ⟨⟨held, taken, hinv⟩, hreqs⟩ := h (by rw [hpc]; simp)
  cases stage with
  | inbound outbound => exact fun _ => ⟨⟨held, taken, hinv⟩, hreqs⟩
  | outbound inbound =>
      intro _
      rw [start_uring]
      exact ⟨held, taken, hinv⟩
  | edge tunFd =>
      unfold Session.proceed
      dsimp only
      split
      · trivial
      rename_i hret
      have hread : s.uring.iouringInitialTunReads tunFd =
          (0, (s.uring.iouringInitialTunReads tunFd).2) := Prod.ext (not_not.mp hret) rfl
      obtain ⟨rs, -, -, hinv'⟩ := hinv.initialRecvs (Or.inl ⟨rfl, rfl⟩) hread
      intro _
      rw [start_uring]
      exact ⟨held, taken, hinv'⟩

theorem good_step {s : Session σ} (h : s.Good) (e : SessionEvent) : (s.step api e).Good := by
  cases s with
  | handshake stage s running =>
      cases e with
      | stop => exact h
      | proceed =>
          simp only [Session.step]
          split
          · rename_i hpc
            exact HandshakeSound.proceed h hpc running stage
          · exact h
      | call => exact HandshakeSound.step h .call
      | kernel e => exact HandshakeSound.step h (.kernel e)
      | wake => exact HandshakeSound.step h .wake
      | waitError => exact HandshakeSound.step h .waitError
  | loop s =>
      simp only [Session.step]
      split
      · exact h
      · intro hok
        obtain ⟨held, taken, hinv⟩ := h (step_ok hok)
        exact ⟨held, taken, hinv.loop_step _ hok⟩
  | returned uring => cases e <;> trivial

theorem good_run (api : Ssl σ) {s : Session σ} (h : s.Good) (es : List SessionEvent) :
    (s.run api es).Good :=
  Execution.run_invariant (fun _ => True) Session.Good (fun _ e _ hs => good_step hs e)
    (fun _ _ => trivial) h

/-- How a session starts: its receives are armed and the handshake begins, or,
without DTLS, the loop begins behind the initial submissions. -/
inductive Started (ctx : IouringCtx) (running : Bool) : Program σ → Session σ → Prop
  | edge {ctx' : IouringCtx} (conn : Connection σ) (tunFd : Int) :
      armReceives useMultiRecv ctx [conn.udpFd] = some ctx' →
      Started ctx running (.tunUdpRun conn tunFd)
        (.handshake (.edge tunFd) (.start ctx' conn) running)
  | zero {ctx' : IouringCtx} (conn : Connection σ) (tunFd : Int) :
      initialSubmissions ctx (.tunUdpRunZero conn tunFd) = some ctx' →
      Started ctx running (.tunUdpRunZero conn tunFd)
        (.loop (.start ctx' (.tunUdpRunZero conn tunFd) running))
  | forwarder {ctx' : IouringCtx} (inbound outbound : Connection σ) :
      armReceives useMultiRecv ctx [inbound.udpFd, outbound.udpFd] = some ctx' →
      Started ctx running (.forwarderRun inbound outbound)
        (.handshake (.inbound outbound) (.start ctx' inbound) running)

theorem started_of_start {ctx : IouringCtx} {prog : Program σ} {running : Bool} {s : Session σ}
    (hstart : Session.start ctx prog running = some s) : Started ctx running prog s := by
  unfold Session.start at hstart
  cases prog with
  | tunUdpRun conn tunFd =>
      dsimp only at hstart
      split at hstart
      · cases hstart
      · rename_i harm
        obtain rfl := Option.some.inj hstart
        exact .edge conn tunFd harm
  | tunUdpRunZero conn tunFd =>
      dsimp only at hstart
      split at hstart
      · cases hstart
      · rename_i hsub
        obtain rfl := Option.some.inj hstart
        exact .zero conn tunFd hsub
  | forwarderRun inbound outbound =>
      dsimp only at hstart
      split at hstart
      · cases hstart
      · rename_i harm
        obtain rfl := Option.some.inj hstart
        exact .forwarder inbound outbound harm

theorem good_start (config : IouringConfig) (sqeFree : Nat → Bool) (submits : Nat → Int)
    {prog : Program σ} {running : Bool} {s : Session σ}
    (hstart : Session.start (IouringCtx.iouringInit config sqeFree submits) prog running = some s) :
    s.Good := by
  have hinit : AllBack config (IouringCtx.iouringInit config sqeFree submits) :=
    ⟨rfl, inv_iouringInit config sqeFree submits,
      by simp [IouringCtx.iouringInit, IoUring.inflight], by simp [IouringCtx.iouringInit]⟩
  cases started_of_start hstart with
  | edge conn tunFd harm =>
      have hback := hinit.armReceives harm
      exact fun _ => ⟨⟨0, 0, hback.inv⟩, hback.requests⟩
  | zero conn tunFd hsub =>
      obtain ⟨-, -, -, hinv⟩ := hinit.inv.initialSubmissions hsub
      intro _
      rw [start_uring]
      exact ⟨0, 0, hinv⟩
  | forwarder inbound outbound harm =>
      have hback := hinit.armReceives harm
      exact fun _ => ⟨⟨0, 0, hback.inv⟩, hback.requests⟩

/-! ## A session -/

def smallSession : Session Unit :=
  (Session.start (IouringCtx.iouringInit smallConfig (fun _ => true) fun _ => 1)
    (.tunUdpRunZero smallConn 5) true).getD
      (.returned (IouringCtx.iouringInit smallConfig (fun _ => true) fun _ => 1))

end Dataplane.Proofs
