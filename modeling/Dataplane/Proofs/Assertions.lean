import Dataplane.Proofs.GiveBack
import Dataplane.Proofs.Passing
import Dataplane.Proofs.PoolLedger

/-!
# The assertions of a session

Every session keeps its ledgers, failed sessions up to the ops they have lost.
So no `assert` ever fails but one: the handshake asserts that it gets an op for
its flight, and the pool can be empty.
-/

namespace Dataplane.Model

/-- The handshake is about to send a flight and finds no op for it. -/
def Session.LacksOp {σ : Type} (api : Ssl σ) : Session σ → SessionEvent → Prop
  | .handshake _ s _, .call => s.pc = .calling ∧
      (s.conn.after (api.doHandshake s.conn.ssl s.conn.rbio)).wbio ≠ [] ∧ s.uring.ioOpPool = []
  | _, _ => False

end Dataplane.Model

namespace Dataplane.Proofs

open ProofSupport Model Ledger

variable {σ : Type} {api : Ssl σ} {ctx ctx' : IouringCtx} {held : Multiset OpId}
  {taken : Multiset Nat}

/-! ## Ledgers without their assertions -/

/-- Everything is in its place up to lost ops, whether or not an assertion has
failed. -/
def Rests (ctx : IouringCtx) : Prop := Stopped { ctx with asserts := true }

theorem Stopped.asserts (h : Stopped ctx) : ctx.asserts = true := by
  obtain ⟨_, _, hinv⟩ := h
  exact hinv.asserts

theorem with_asserts_eq (h : ctx.asserts = true) : { ctx with asserts := true } = ctx := by
  rw [← h]

theorem Stopped.rests (h : Stopped ctx) : Rests ctx := by
  rw [Rests, with_asserts_eq h.asserts]
  exact h

theorem kernel_with_asserts (ctx : IouringCtx) (b : Bool) (e : KEvent) :
    ({ ctx with asserts := b } : IouringCtx).kernel e = { ctx.kernel e with asserts := b } := by
  have hstore : ∀ (ctx : IouringCtx) p bytes,
    ({ ctx with asserts := b } : IouringCtx).store p bytes =
      { ctx.store p bytes with asserts := b } := by
    intro ctx p bytes
    rcases p with _ | _ | _ | _ <;> rfl
  have hinflight : ∀ op multi,
      ({ ctx with asserts := b } : IouringCtx).inFlight op multi = ctx.inFlight op multi :=
    fun _ _ => rfl
  cases e with
  | complete op res data name tag =>
      have hperform : ∀ r, ({ ctx with asserts := b } : IouringCtx).perform r res data name =
          { ctx.perform r res data name with asserts := b } := by
        intro r
        unfold IouringCtx.perform
        split
        · rfl
        · split
          · exact hstore _ _ _
          · rw [hstore, hstore]
          · rfl
          · rfl
          · rfl
      simp only [IouringCtx.kernel, hinflight]
      split
      · rfl
      · rw [hperform]
        rfl
  | recv op bid res data more tag =>
      simp only [IouringCtx.kernel, hinflight]
      split
      · rfl
      · split <;> rfl
  | fail op res =>
      simp only [IouringCtx.kernel, hinflight]
      split
      · rfl
      · split <;> rfl

theorem kernel_asserts (ctx : IouringCtx) (e : KEvent) :
    (ctx.kernel e).asserts = ctx.asserts := by
  have h := congrArg IouringCtx.asserts (kernel_with_asserts ctx ctx.asserts e)
  exact h

theorem Rests.kernel (h : Rests ctx) (e : KEvent) : Rests (ctx.kernel e) := by
  rw [Rests, ← kernel_with_asserts]
  exact Stopped.kernel h e

theorem Rests.intact (h : Rests ctx) {r : Sqe} (hr : r ∈ ctx.ring.active) : Intact ctx r := by
  obtain ⟨_, _, hinv⟩ := h
  exact (hinv.inflight r (List.mem_append_left _ hr)).2

/-! ## What a step does to the assertions -/

/-- Behind a step the ledgers hold, and an assertion has failed in it exactly if
`fails`. -/
structure Checks (ctx ctx' : IouringCtx) (fails : Prop) : Prop where
  rests : Rests ctx'
  asserts : ctx'.asserts = true ↔ ctx.asserts = true ∧ ¬ fails

theorem Checks.same (h : Rests ctx) : Checks ctx ctx False :=
  ⟨h, by simp⟩

theorem Checks.kernel (h : Rests ctx) (e : KEvent) : Checks ctx (ctx.kernel e) False :=
  ⟨h.kernel e, by simp [kernel_asserts]⟩

theorem Checks.stopped (hctx : ctx.asserts = true) (h : Stopped ctx') : Checks ctx ctx' False :=
  ⟨h.rests, by simp [hctx, h.asserts]⟩

theorem Checks.of_iff {fails fails' : Prop} (h : Checks ctx ctx' fails) (hiff : fails ↔ fails') :
    Checks ctx ctx' fails' :=
  ⟨h.rests, by rw [h.asserts, hiff]⟩

theorem Inv.pool_le (h : Inv ctx held taken) : ctx.ioOpPool.length ≤ ctx.bufAddrPool.length := by
  have hops := congrArg Multiset.card h.opLedger
  have hitems := congrArg Multiset.card h.itemLedger
  have howned := card_owned_le (fun op => card_items_le (ctx.ops op)) (held + ctx.ring.requests)
  simp only [Multiset.card_add, Multiset.coe_card, Multiset.card_range] at hops hitems howned
  omega

theorem alloc_none_iff (hle : ctx.ioOpPool.length ≤ ctx.bufAddrPool.length) (opType : OpType)
    (fd : Int) : (ctx.ioOpAlloc opType fd false).1 = none ↔ ctx.ioOpPool = [] := by
  rw [ioOpAlloc_none_iff]
  constructor
  · rintro (hpool | hitems)
    · exact hpool
    · rw [hitems, List.length_nil] at hle
      exact List.length_eq_zero_iff.mp (by omega)
  · exact .inl

/-- A flight fails its assertion exactly when there is no op for it. -/
theorem Inv.flight_checks (h : Inv ctx held taken) {conn : Connection σ} (hne : conn.wbio ≠ []) :
    Checks ctx (Model.sendFlight ctx conn).2.1 (ctx.ioOpPool = []) := by
  have halloc := alloc_none_iff h.pool_le .udpSend conn.udpFd
  rcases ha : ctx.ioOpAlloc .udpSend conn.udpFd false with ⟨_ | op, ctx1⟩
  · rw [ha] at halloc
    have hempty := halloc.mp rfl
    have hkeep := (h.ioOpAlloc_none ha).stopped
    rw [sendFlight_none hne ha]
    refine ⟨?_, by simp [IouringCtx.assert, hempty]⟩
    have heq : ({ ctx1.assert false with asserts := true } : IouringCtx) = ctx1 :=
      with_asserts_eq hkeep.asserts
    rw [Rests, heq]
    exact hkeep
  · rw [ha] at halloc
    have hfull : ctx.ioOpPool ≠ [] := fun hempty => by cases halloc.mpr hempty
    rcases hsub : ctx1.iouringSubmitUdpSend (some op) conn.addr conn.addrLen
      (some (conn.wbio.take bufSize)) (conn.wbio.take bufSize).length with ⟨ret, ctx2⟩
    rw [sendFlight_some hne ha hsub]
    obtain ⟨ops, b, bufs, -, -, hctx1⟩ := ioOpAlloc_single_eq ha
    have hop : ctx1.ops op = pooledOp .udpSend conn.udpFd b := by
      rw [hctx1]
      simp
    have hp : Pooled (ctx1.ops op) b := by
      rw [hop]
      exact ⟨rfl, rfl, rfl, rfl, rfl⟩
    have hlen : ((ctx1.copyIn op (some (conn.wbio.take bufSize))
        (conn.wbio.take bufSize).length).ops op).dataLen = (conn.wbio.take bufSize).length := by
      rw [copyIn_op]
      rfl
    obtain ⟨_, _, _, _, _, _, _, hdone⟩ := (h.ioOpAlloc_single ha).submitUdpSend hp
      (by rw [hop]; rfl) (some (conn.wbio.take bufSize)) hlen hsub
    have hstop : Stopped ctx2 := by
      rcases hdone with ⟨-, -, hinv⟩ | ⟨-, hleak⟩
      · exact hinv.stopped
      · exact hleak.stopped
    exact (Checks.stopped h.asserts hstop).of_iff (by simp [hfull])

theorem Inv.call_checks (api : Ssl σ) {s : HandshakeState σ} (h : Inv s.uring held taken) :
    Checks s.uring (s.call api).uring
      ((s.conn.after (api.doHandshake s.conn.ssl s.conn.rbio)).wbio ≠ [] ∧
        s.uring.ioOpPool = []) := by
  unfold HandshakeState.call
  dsimp only
  generalize hconn : s.conn.after (api.doHandshake s.conn.ssl s.conn.rbio) = conn
  split
  · rename_i hlen
    have hnil : conn.wbio = [] := List.length_eq_zero_iff.mp hlen
    rw [(conclude_frame _ _ _).1]
    exact (Checks.same h.stopped.rests).of_iff (by simp [hnil])
  · rename_i hlen
    have hne : conn.wbio ≠ [] := fun hnil => hlen (by rw [hnil]; rfl)
    refine Checks.of_iff (show Checks _ _ (s.uring.ioOpPool = []) from ?_) (by simp [hne])
    have hflight := h.flight_checks hne
    split
    · exact hflight
    · rw [(conclude_frame _ _ _).1]
      exact hflight

/-- No assertion fails in the handling of a completion. -/
theorem Inv.handshake_stopped {s : HandshakeState σ} (h : Inv s.uring held taken)
    (hreqs : AllRequests UdpRequest s.uring.ring) {c : Cqe} {cq : List Cqe}
    (hcq : s.uring.ring.cq = c :: cq) : Stopped (s.takeCqe c cq).uring := by
  have hudp := (hreqs.seen hcq).1
  unfold HandshakeState.takeCqe
  rcases hstep : (s.uring.iouringCqeSeen c cq).waitForRecvBody c with ⟨step, ctx⟩
  cases h.wait hcq hstep with
  | again _ _ _ hinv => exact hinv.stopped
  | null _ _ _ hstop => exact hstop
  | recv rs got idx _ hin _ _ hinv hrecv =>
      have htype : (ctx.ops c.req.userData).opType = .udpRecv := by
        rw [hrecv.opType]
        apply hudp.resolve_left
        intro hsend
        rw [hsend] at hin
        cases hin
      simp only [htype, decide_true, assert_true]
      split
      · exact hinv.stopped
      · simp only [learnAddr_ctx s.conn (hrecv.addrLen htype)]
        exact (hinv.ioOpFree hrecv.freeable).stopped

theorem iouringSubmitTunRead_ops {op : OpId} (htype : (ctx.ops op).opType = .tunRead) :
    (ctx.iouringSubmitTunRead op).2.ops = ctx.ops := by
  have hs := iouringSubmitTunRead_submitted htype
  rcases hres : ctx.iouringSubmitTunRead op with ⟨ret, ctx'⟩
  rw [hres] at hs
  cases hs with
  | refused f => rfl
  | queued hrest _ => rw [hrest]
  | failed hrest _ _ => rw [hrest]

theorem Inv.tunReads (h : Inv ctx held taken) (fd : Int) (n : Nat) :
    ∃ rs, Effect ctx
        (IouringCtx.initialRecvs IouringCtx.iouringSubmitTunRead .tunRead fd n ctx).2 rs ∧
      Stopped (IouringCtx.initialRecvs IouringCtx.iouringSubmitTunRead .tunRead fd n ctx).2 := by
  induction n generalizing ctx with
  | zero => exact ⟨[], .of_ring_eq rfl rfl rfl, h.stopped⟩
  | succ n ih =>
      rw [IouringCtx.initialRecvs]
      rcases ha : ctx.ioOpAlloc .tunRead fd false with ⟨_ | op, ctx1⟩
      · obtain ⟨ops, hctx1, -⟩ := ioOpAlloc_none_eq ha
        have heff0 : Effect ctx ctx1 [] := by
          rw [hctx1]
          exact .of_ring_eq rfl rfl rfl
        obtain ⟨rs, heff, hstop⟩ := ih (h.ioOpAlloc_none ha)
        exact ⟨rs, heff0.trans heff, hstop⟩
      obtain ⟨ops, b, bufs, -, -, hctx1⟩ := ioOpAlloc_single_eq ha
      have hop : ctx1.ops op = pooledOp .tunRead fd b := by
        rw [hctx1]
        simp
      have heff0 : Effect ctx ctx1 [] := by
        rw [hctx1]
        exact .of_ring_eq rfl rfl rfl
      rcases hsub : ctx1.iouringSubmitTunRead op with ⟨ret, ctx2⟩
      obtain ⟨rs, heff, _, _, hdone⟩ := (h.ioOpAlloc_single ha).submitRecv hop (.inl ⟨rfl, hsub⟩)
      simp only [hsub]
      rcases hdone with ⟨rfl, hinv⟩ | ⟨rfl, hleak⟩
      · rw [if_neg (by decide)]
        obtain ⟨ss, heff', hstop⟩ := ih hinv
        exact ⟨rs ++ ss, heff0.trans (heff.trans heff'), hstop⟩
      · rw [if_pos (by decide)]
        have hp : Pooled (ctx2.ops op) b := by
          have hops := iouringSubmitTunRead_ops (show (ctx1.ops op).opType = .tunRead by
            rw [hop]
            rfl)
          rw [hsub] at hops
          rw [hops, hop]
          exact ⟨rfl, rfl, rfl, rfl, rfl⟩
        have hring := ioOpFree_ring ctx2 op
        have heff1 := heff.trans (.of_ring_eq hring.1 hring.2.1 hring.2.2)
        rw [List.append_nil] at heff1
        rw [← zero_add taken] at hleak
        exact ⟨rs, heff0.trans heff1, hleak.ioOpFree_stopped (.pooled b hp)⟩

/-! ## Steps of a session -/

theorem HandshakeSound.call_checks {s : HandshakeState σ} (h : HandshakeSound s)
    (hrests : Rests s.uring) : Checks s.uring (s.step api .call).uring (s.pc = .calling ∧
      (s.conn.after (api.doHandshake s.conn.ssl s.conn.rbio)).wbio ≠ [] ∧
        s.uring.ioOpPool = []) := by
  simp only [HandshakeState.step]
  split
  · rename_i hpc
    obtain ⟨⟨_, _, hinv⟩, -⟩ := h (by rw [hpc]; simp)
    exact (hinv.call_checks api).of_iff (by simp [hpc])
  · rename_i hpc
    exact (Checks.same hrests).of_iff (by simp [hpc])

theorem HandshakeSound.wake_checks {s : HandshakeState σ} (h : HandshakeSound s)
    (hrests : Rests s.uring) : Checks s.uring (s.step api .wake).uring False := by
  simp only [HandshakeState.step]
  split
  · rename_i hpc hcq
    obtain ⟨⟨_, _, hinv⟩, hreqs⟩ := h (by rw [hpc]; simp)
    exact .stopped hinv.asserts (hinv.handshake_stopped hreqs hcq)
  · exact .same hrests

theorem HandshakeSound.proceed_checks {s : HandshakeState σ} (h : HandshakeSound s)
    (hpc : s.pc = .returned 0) (running : Bool) (stage : Stage σ) :
    Checks s.uring (Session.proceed s running stage).uring False := by
  obtain ⟨⟨held, taken, hinv⟩, -⟩ := h (by rw [hpc]; simp)
  cases stage with
  | inbound outbound => exact .same hinv.stopped.rests
  | outbound inbound =>
      simp only [Session.proceed, Session.uring, start_uring]
      exact .same hinv.stopped.rests
  | edge tunFd =>
      obtain ⟨_, -, hstop⟩ := hinv.tunReads tunFd s.uring.config.nInitialReadOps
      have hchecks := Checks.stopped hinv.asserts hstop
      simp only [Session.proceed]
      split
      · exact hchecks
      · simp only [Session.uring, start_uring]
        exact hchecks

theorem loop_checks {s : LoopState σ} (h : s.status.ok = true → Sound s.uring)
    (hrests : Rests s.uring) (e : LoopEvent) : Checks s.uring (s.step api e).uring False := by
  cases e with
  | kernel e => exact .kernel hrests e
  | wake =>
      simp only [LoopState.step, LoopState.wake]
      split
      · rename_i hstatus hcq
        obtain ⟨held, taken, hinv⟩ := h (by rw [hstatus]; rfl)
        exact .stopped hinv.asserts (hinv.takeCqe_stopped api hcq)
      · exact .same hrests
  | waitError =>
      simp only [LoopState.step]
      split <;> exact .same hrests
  | stop => exact .same hrests

/-- A step keeps the ledgers, and the only assertion that it can fail is the one
for the op of a flight. -/
theorem step_checks (api : Ssl σ) {s : Session σ} (hgood : s.Good) (hrests : Rests s.uring)
    (e : SessionEvent) :
    Checks s.uring (s.step api e).uring (s.LacksOp api e) := by
  cases s with
  | handshake stage s running =>
      cases e with
      | call => exact HandshakeSound.call_checks hgood hrests
      | kernel e => exact .kernel hrests e
      | wake => exact HandshakeSound.wake_checks hgood hrests
      | waitError =>
          have huring : (s.step api .waitError).uring = s.uring := by
            simp only [HandshakeState.step]
            split <;> rfl
          simp only [Session.step, SessionEvent.handshake, Session.uring, huring]
          exact .same hrests
      | stop => exact .same hrests
      | proceed =>
          simp only [Session.step]
          split
          · rename_i hpc
            exact HandshakeSound.proceed_checks hgood hpc running stage
          · exact .same hrests
  | loop s =>
      simp only [Session.step]
      split
      · exact .same hrests
      · exact loop_checks hgood hrests _
  | returned uring =>
      cases e with
      | kernel e => exact .kernel hrests e
      | _ => exact .same hrests

theorem session_start_inv {config : IouringConfig} {sqeFree : Nat → Bool} {submits : Nat → Int}
    {prog : Program σ} {running : Bool} {s : Session σ}
    (hstart : Session.start (IouringCtx.iouringInit config sqeFree submits) prog running = some s) :
    Inv s.uring 0 0 := by
  have hinit : AllBack config (IouringCtx.iouringInit config sqeFree submits) :=
    ⟨rfl, inv_iouringInit config sqeFree submits,
      by simp [IouringCtx.iouringInit, IoUring.inflight], by simp [IouringCtx.iouringInit]⟩
  cases started_of_start hstart with
  | edge conn tunFd harm => exact (hinit.armReceives harm).inv
  | forwarder inbound outbound harm => exact (hinit.armReceives harm).inv
  | zero conn tunFd hsub =>
      obtain ⟨_, _, _, hinv⟩ := hinit.inv.initialSubmissions hsub
      rwa [Session.uring, start_uring]

/-- No assertion of a session ever fails but the one of the handshake that there
is an op for its flight, and that one fails exactly when the op pool is empty. -/
theorem sessions_assertions (api : Ssl σ) (config : IouringConfig) (sqeFree : Nat → Bool)
    (submits : Nat → Int) {prog : Program σ} {running : Bool} {s : Session σ}
    (hstart : Session.start (IouringCtx.iouringInit config sqeFree submits) prog running = some s)
    (es : List SessionEvent) :
    Execution.Always (Session.step api) (fun s => s.uring.asserts = true) s es ↔
      Execution.Steps (Session.step api) (fun s e => ¬ s.LacksOp api e) s es := by
  have hstop := (session_start_inv hstart).stopped
  apply Execution.always_iff_steps fun s =>
    (s.Good ∧ Rests s.uring) ∧ s.uring.asserts = true
  · exact fun s hs => hs.2
  · rintro s e ⟨⟨hgood, hrests⟩, hasserts⟩ hnot
    have hchecks := step_checks api hgood hrests e
    exact ⟨⟨good_step hgood e, hchecks.rests⟩, hchecks.asserts.mpr ⟨hasserts, hnot⟩⟩
  · rintro s e ⟨⟨hgood, hrests⟩, -⟩ hnext
    exact ((step_checks api hgood hrests e).asserts.mp hnext).2
  · exact ⟨⟨good_start config sqeFree submits hstart, hstop.rests⟩, hstop.asserts⟩

def tightConfig : IouringConfig := { smallConfig with nIoOps := 2 }

def tightSession : Session Unit :=
  (Session.start (IouringCtx.iouringInit tightConfig (fun _ => true) fun _ => 1)
    (.forwarderRun smallConn { smallConn with udpFd := 4 }) true).getD
      (.returned (IouringCtx.iouringInit tightConfig (fun _ => true) fun _ => 1))

/-- Its first flight fails the assertion. -/
theorem sessions_assertions_tight : ¬ Execution.Always (Session.step longFlightSsl)
    (fun s => s.uring.asserts = true) tightSession [.call] := by
  have hstart : Session.start (IouringCtx.iouringInit tightConfig (fun _ => true) fun _ => 1)
      (.forwarderRun smallConn { smallConn with udpFd := 4 }) true = some tightSession := rfl
  intro h
  have hsteps := (sessions_assertions longFlightSsl tightConfig (fun _ => true) (fun _ => 1)
    hstart [.call]).mp h
  apply hsteps.1
  refine ⟨rfl, ?_, rfl⟩
  simp [longFlightSsl, Connection.after]

end Dataplane.Proofs
