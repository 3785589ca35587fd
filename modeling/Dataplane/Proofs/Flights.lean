import Dataplane.Model.Handshake
import Dataplane.Proofs.Submissions
import Dataplane.Proofs.Turns

/-!
# What the handshake sends

Everything SSL writes during the handshake goes out in order, except what a
round leaves in the write BIO because one datagram does not take it.
-/

namespace Dataplane.Proofs

open ProofSupport Model

/-! ## The history of queued requests -/

def Queues (P : Sqe → Prop) (ctx ctx' : IouringCtx) : Prop :=
  ∃ rs, ctx'.ring.queued = ctx.ring.queued ++ rs ∧ ∀ r ∈ rs, P r

section Queues

variable {P : Sqe → Prop} {ctx ctx' ctx'' : IouringCtx}

theorem Queues.of_eq (h : ctx'.ring.queued = ctx.ring.queued) : Queues P ctx ctx' :=
  ⟨[], by rw [h, List.append_nil], by simp⟩

theorem Queues.of_ring_eq (h : ctx'.ring = ctx.ring) : Queues P ctx ctx' :=
  .of_eq (by rw [h])

theorem Queues.trans (h : Queues P ctx ctx') (h' : Queues P ctx' ctx'') : Queues P ctx ctx'' := by
  obtain ⟨rs, hrs, hP⟩ := h
  obtain ⟨ss, hss, hP'⟩ := h'
  refine ⟨rs ++ ss, by rw [hss, hrs, List.append_assoc], fun r hr => ?_⟩
  exact (List.mem_append.mp hr).elim (hP r) (hP' r)

theorem submitChecked_queued (ctx : IouringCtx) :
    ctx.submitChecked.2.ring.queued = ctx.ring.queued := by
  unfold IouringCtx.submitChecked
  dsimp only
  split <;> rfl

theorem getSqe_queues {k : IouringCtx → IouringCtx} {sqe : IouringCtx → Sqe}
    (hk : ∀ mid, (k mid).ring = mid.ring) (hP : ∀ mid, P (sqe mid)) :
    Queues P ctx (match ctx.ioUringGetSqe with
      | (false, ctx) => (-1, ctx)
      | (true, ctx) => ((k ctx).ioUringPrep (sqe ctx)).submitChecked : Int × IouringCtx).2 := by
  cases hfree : ctx.ring.sqeFree 0 with
  | false =>
      refine .of_eq ?_
      simp [IouringCtx.ioUringGetSqe, hfree]
  | true =>
      have heq : ctx.ioUringGetSqe = (true, ctx.ioUringGetSqe.2) := Prod.ext hfree rfl
      rw [heq]
      refine ⟨[sqe ctx.ioUringGetSqe.2], ?_, by simpa using hP _⟩
      simp only [submitChecked_queued, IouringCtx.ioUringPrep, hk]
      rfl

theorem ioOpAlloc_ring (ctx : IouringCtx) (opType : OpType) (fd : Int) (isMulti : Bool) :
    (ctx.ioOpAlloc opType fd isMulti).2.ring = ctx.ring := by
  rcases ha : ctx.ioOpAlloc opType fd isMulti with ⟨_ | op, ctx'⟩
  · obtain ⟨ops, rfl, -⟩ := ioOpAlloc_none_eq ha
    rfl
  · cases isMulti with
    | false => obtain ⟨ops, b, bufs, -, -, rfl⟩ := ioOpAlloc_single_eq ha; rfl
    | true => obtain ⟨ops, -, rfl⟩ := ioOpAlloc_multi_eq ha; rfl

def Receives (r : Sqe) : Prop := r.opcode.outgoing = false

theorem iouringSubmitTunRead_queues (ctx : IouringCtx) (op : OpId) :
    Queues Receives ctx (ctx.iouringSubmitTunRead op).2 := by
  apply getSqe_queues (k := fun ctx => ctx.assert (decide ((ctx.ops op).opType = .tunRead)))
  · intro mid; rfl
  · intro mid; rfl

theorem iouringSubmitMultishotRecvmsgOp_queues (ctx : IouringCtx) (op : OpId) :
    Queues Receives ctx (ctx.iouringSubmitMultishotRecvmsgOp op).2 := by
  refine Queues.trans (.of_ring_eq (assert_ring ctx (ctx.ops op).isMulti)) ?_
  apply getSqe_queues (k := fun ctx => ctx)
  · intro mid; rfl
  · intro mid; rfl

theorem iouringSubmitUdpRecv_queues (ctx : IouringCtx) (op : OpId) :
    Queues Receives ctx (ctx.iouringSubmitUdpRecv op).2 := by
  refine Queues.trans (.of_ring_eq (assert_ring ctx (decide ((ctx.ops op).opType = .udpRecv)))) ?_
  refine Queues.trans (.of_ring_eq (assert_ring _ (!(ctx.ops op).isMulti))) ?_
  apply getSqe_queues (k := fun ctx => ctx.modOp op IouringCtx.recvMsghdr)
  · intro mid; rfl
  · intro mid; rfl

theorem iouringResubmitRecv_queues (ctx : IouringCtx) (op : OpId) :
    Queues Receives ctx (ctx.iouringResubmitRecv op).2 := by
  unfold IouringCtx.iouringResubmitRecv
  have hring := ioOpAlloc_ring ctx (ctx.ops op).opType (ctx.ops op).fd false
  rcases ha : ctx.ioOpAlloc (ctx.ops op).opType (ctx.ops op).fd false with ⟨_ | newOp, ctx1⟩
  · simp only [ha] at hring ⊢
    exact .of_ring_eq hring
  · simp only [ha] at hring ⊢
    refine Queues.trans (.of_ring_eq hring) ?_
    split
    · exact iouringSubmitTunRead_queues ctx1 newOp
    · exact iouringSubmitUdpRecv_queues ctx1 newOp
    · exact .of_eq rfl

theorem iouringMultishotRecvmsgOut_queues (ctx : IouringCtx) (op : OpId) (flags : CqeFlags) :
    Queues Receives ctx (ctx.iouringMultishotRecvmsgOut op flags).2 := by
  have hplaced : ∀ g, Queues Receives ctx (ctx.modOp op g) := fun g => .of_ring_eq rfl
  have harmed := (hplaced (present ctx op flags.bid)).trans
    (iouringSubmitMultishotRecvmsgOp_queues _ op)
  have hdec := iouringMultishotRecvmsgOut_decoded ctx op flags
  generalize ctx.iouringMultishotRecvmsgOut op flags = out at hdec ⊢
  cases hdec with
  | noBuffer => exact .of_eq rfl
  | rejected g => exact hplaced g
  | presented => exact hplaced _
  | rearmed _ _ _ hsub =>
      rw [hsub] at harmed
      exact harmed.trans (.of_ring_eq rfl)
  | stopped _ _ _ hsub =>
      rw [hsub] at harmed
      exact harmed

theorem iouringMultishotReadOut_queues (ctx : IouringCtx) (op : OpId) (flags : CqeFlags) :
    Queues Receives ctx (ctx.iouringMultishotReadOut op flags).2 := by
  unfold IouringCtx.iouringMultishotReadOut
  dsimp only
  repeat' split
  all_goals exact .of_eq rfl

theorem ioOpFree_queues (ctx : IouringCtx) (op : OpId) : Queues P ctx (ctx.ioOpFree op).2 :=
  .of_ring_eq (ioOpFree_ring ctx op).1

theorem waitForRecvDone_queues (op : OpId) {r : Int × IouringCtx} (h : Queues P ctx r.2) :
    Queues P ctx (IouringCtx.waitForRecvDone op r).2 := by
  unfold IouringCtx.waitForRecvDone
  split
  · exact h.trans (ioOpFree_queues r.2 op)
  · exact h

theorem waitForRecvBody_queues (ctx : IouringCtx) (c : Cqe) :
    Queues Receives ctx (ctx.waitForRecvBody c).2 := by
  unfold IouringCtx.waitForRecvBody
  dsimp only
  split
  · exact .of_eq rfl
  refine Queues.trans (.of_ring_eq (modOp_ring ctx c.req.userData
    (fun o => { o with dataLen := c.res }))) ?_
  generalize ctx.modOp c.req.userData (fun o => { o with dataLen := c.res }) = ctx1
  split
  · split
    · exact waitForRecvDone_queues _ (iouringMultishotRecvmsgOut_queues ctx1 _ _)
    · exact waitForRecvDone_queues _ (iouringResubmitRecv_queues ctx1 _)
  · exact Queues.trans (.of_ring_eq (assert_ring ctx1 _)) (ioOpFree_queues _ _)
  · split
    · exact waitForRecvDone_queues _ (Queues.trans (.of_ring_eq (assert_ring ctx1 _))
        (iouringMultishotReadOut_queues _ _ _))
    · exact waitForRecvDone_queues _ (iouringResubmitRecv_queues ctx1 _)
  · exact Queues.trans (.of_ring_eq (assert_ring ctx1 _)) (ioOpFree_queues _ _)
  · exact waitForRecvDone_queues _ (.of_eq rfl)

end Queues

/-! ## One flight -/

/-- The payloads of the datagrams that the requests `rs` send on the socket `fd`. -/
def datagrams (fd : Int) (rs : List Sqe) : List Bytes :=
  (rs.filter fun r => r.opcode == .sendmsg && r.fd == fd).map Sqe.data

theorem datagrams_append (fd : Int) (rs ss : List Sqe) :
    datagrams fd (rs ++ ss) = datagrams fd rs ++ datagrams fd ss := by
  simp [datagrams]

theorem datagrams_of_receives {rs : List Sqe} (h : ∀ r ∈ rs, Receives r) (fd : Int) :
    datagrams fd rs = [] := by
  rw [datagrams, List.map_eq_nil_iff, List.filter_eq_nil_iff]
  intro r hr hsend
  have hout := h r hr
  simp only [Bool.and_eq_true, beq_iff_eq] at hsend
  rw [Receives, hsend.1] at hout
  cases hout

variable {σ : Type}

theorem flight_pos {conn : Connection σ} (hne : conn.wbio ≠ []) :
    0 < (conn.wbio.take bufSize).length := by
  have hlen := List.length_pos_iff.mpr hne
  rw [List.length_take]
  exact Nat.lt_min.mpr ⟨by decide, hlen⟩

theorem sendFlight_none {ctx ctx1 : IouringCtx} {conn : Connection σ} (hne : conn.wbio ≠ [])
    (ha : ctx.ioOpAlloc .udpSend conn.udpFd false = (none, ctx1)) :
    sendFlight ctx conn =
      (-1, ctx1.assert false, { conn with wbio := conn.wbio.drop bufSize }) := by
  have hpos := flight_pos hne
  unfold sendFlight
  simp only [bioRead, if_neg hne]
  rw [decide_eq_true (by omega), assert_true, ha]
  rfl

theorem sendFlight_some {ctx ctx1 ctx2 : IouringCtx} {conn : Connection σ} {op : OpId} {ret : Int}
    (hne : conn.wbio ≠ [])
    (ha : ctx.ioOpAlloc .udpSend conn.udpFd false = (some op, ctx1))
    (hsub : ctx1.iouringSubmitUdpSend (some op) conn.addr conn.addrLen
      (some (conn.wbio.take bufSize)) (conn.wbio.take bufSize).length = (ret, ctx2)) :
    sendFlight ctx conn = (ret, ctx2, { conn with wbio := conn.wbio.drop bufSize }) := by
  have hpos := flight_pos hne
  unfold sendFlight
  simp only [bioRead, if_neg hne]
  rw [decide_eq_true (by omega), assert_true, ha]
  simp only [Option.isSome_some, assert_true, hsub]

/-- One datagram takes the first `BUF_SIZE` bytes out of the write BIO. -/
theorem sendFlight_spec {ctx ctx' : IouringCtx} {conn conn' : Connection σ} {ret : Int}
    (hne : conn.wbio ≠ []) (hres : sendFlight ctx conn = (ret, ctx', conn')) :
    conn' = { conn with wbio := conn.wbio.drop bufSize } ∧
      (ret < 0 ∨ ∃ r, ctx'.ring.queued = ctx.ring.queued ++ [r] ∧
        datagrams conn.udpFd [r] = [conn.wbio.take bufSize]) := by
  rcases ha : ctx.ioOpAlloc .udpSend conn.udpFd false with ⟨_ | op, ctx1⟩
  · rw [sendFlight_none hne ha] at hres
    cases hres
    exact ⟨rfl, Or.inl (by decide)⟩
  rcases hsub : ctx1.iouringSubmitUdpSend (some op) conn.addr conn.addrLen
    (some (conn.wbio.take bufSize)) (conn.wbio.take bufSize).length with ⟨ret', ctx2⟩
  rw [sendFlight_some hne ha hsub] at hres
  cases hres
  obtain ⟨ops, b, bufs, -, -, rfl⟩ := ioOpAlloc_single_eq ha
  refine ⟨rfl, ?_⟩
  generalize hctx1 : ({ ctx with
    ioOpPool := ops
    bufAddrPool := bufs
    ops := Function.update ctx.ops op (pooledOp .udpSend conn.udpFd b) } : IouringCtx) = ctx1 at *
  have hop : ctx1.ops op = pooledOp .udpSend conn.udpFd b := by rw [← hctx1]; simp
  have hqueued : ctx1.ring.queued = ctx.ring.queued := by rw [← hctx1]
  generalize hbytes : conn.wbio.take bufSize = bytes at *
  have hp : Pooled (ctx1.ops op) b := by rw [hop]; exact ⟨rfl, rfl, rfl, rfl, rfl⟩
  have hcopy := copyIn_op ctx1 op (some bytes) bytes.length
  have hpc : Pooled ((ctx1.copyIn op (some bytes) bytes.length).ops op) b := by
    rw [hcopy]; exact ⟨hp.1, hp.2, hp.3, hp.4, hp.5⟩
  have hs := iouringSubmitUdpSend_submitted conn.addr conn.addrLen (some bytes) bytes.length
    (show (ctx1.ops op).opType = .udpSend by rw [hop]; rfl) (by rw [hcopy]; rfl)
  rw [hsub] at hs
  cases hs with
  | refused f => exact Or.inl (by decide)
  | failed _ _ _ => exact Or.inl (by decide)
  | queued _ heff =>
      have hmid : (sendCtx (ctx1.copyIn op (some bytes) bytes.length) op conn.addr
          conn.addrLen).ring.queued = ctx.ring.queued := by
        simp [sendCtx, IouringCtx.copyIn, hqueued]
      have hfd : ((sendCtx (ctx1.copyIn op (some bytes) bytes.length) op conn.addr
          conn.addrLen).ops op).fd = conn.udpFd := by
        simp [sendCtx, IouringCtx.sendMsghdr, hcopy, hop, pooledOp, freshOp]
      have hload := (sendCtx_load hpc conn.addr conn.addrLen bytes.length).trans
        (copyIn_load hp bytes)
      rw [← hp.buffer] at hload
      refine Or.inr ⟨_, heff.queued.trans (by rw [hmid]), ?_⟩
      simp [datagrams, IouringCtx.mkSqe, Opcode.outgoing, hfd, hload]

/-- Nothing is in the way of a send on the socket `fd`: there are an op and a
buffer for it and a free queue entry, and `io_uring_submit` takes an entry. -/
structure FlightAccepted (ctx : IouringCtx) (fd : Int) : Prop where
  op : ctx.ioOpPool ≠ []
  buffer : ctx.bufAddrPool ≠ []
  fd : 0 ≤ fd
  entry : ctx.ring.sqeFree 0 = true
  submitted : 0 < ctx.ring.submits 0

theorem sendFlight_accepted (ctx : IouringCtx) {conn : Connection σ} (hne : conn.wbio ≠ []) :
    0 ≤ (sendFlight ctx conn).1 ↔ FlightAccepted ctx conn.udpFd := by
  have hnone : (ctx.ioOpAlloc .udpSend conn.udpFd false).1 = none ↔ _ := ioOpAlloc_none_iff
  have hpos := flight_pos hne
  have hle : (conn.wbio.take bufSize).length ≤ bufSize := List.length_take_le ..
  rcases ha : ctx.ioOpAlloc .udpSend conn.udpFd false with ⟨_ | op, ctx1⟩
  · rw [ha] at hnone
    rw [sendFlight_none hne ha]
    exact iff_of_false (by simp) fun h => (hnone.mp rfl).elim h.op h.buffer
  · rcases hsub : ctx1.iouringSubmitUdpSend (some op) conn.addr conn.addrLen
      (some (conn.wbio.take bufSize)) (conn.wbio.take bufSize).length with ⟨ret, ctx2⟩
    rw [sendFlight_some hne ha hsub]
    obtain ⟨ops, b, bufs, hops, hbufs, hctx1⟩ := ioOpAlloc_single_eq ha
    have hring : ctx1.ring = ctx.ring := by rw [hctx1]
    have hfd : (ctx1.ops op).fd = conn.udpFd := by
      rw [hctx1]
      simp [pooledOp, freshOp]
    have hcalls : Calls (.udpSend conn.addr conn.addrLen (some (conn.wbio.take bufSize))
        (conn.wbio.take bufSize).length) ctx1 op _ :=
      udpSend_calls conn.addr conn.addrLen (some (conn.wbio.take bufSize)) _
    rw [hsub] at hcalls
    rw [hcalls.succeeds_iff, hring]
    constructor
    · rintro ⟨⟨⟨-, hsocket⟩, -⟩, hfree, htakes⟩
      rw [hfd] at hsocket
      exact ⟨by simp [hops], by simp [hbufs], hsocket, hfree, htakes⟩
    · intro h
      exact ⟨⟨⟨by omega, by rw [hfd]; exact h.fd⟩, by omega⟩, h.entry, h.submitted⟩

/-! ## Rounds -/

section Rounds

variable {api : Ssl σ} {s : HandshakeState σ}

/-- The handshake waits, or it is done. -/
def Settled (s : HandshakeState σ) : Prop := s.pc = .waiting ∨ s.pc = .returned 0

theorem conclude_frame (s : HandshakeState σ) (ret : Int) (err : SslError) :
    (s.conclude ret err).uring = s.uring ∧ (s.conclude ret err).conn.wbio = s.conn.wbio ∧
      (s.conclude ret err).conn.udpFd = s.conn.udpFd ∧
      (s.conclude ret err).written = s.written ∧ (s.conclude ret err).sslSend = s.sslSend := by
  unfold HandshakeState.conclude
  repeat' split
  all_goals exact ⟨rfl, rfl, rfl, rfl, rfl⟩

/-- Which answers of SSL end a round in the wait or with success. -/
theorem conclude_settled (s : HandshakeState σ) (ret : Int) (err : SslError) :
    Settled (s.conclude ret err) ↔
      ret = 1 ∨ ret ≠ 0 ∧ err = .wantRead ∧ s.conn.rbio = [] := by
  unfold HandshakeState.conclude
  by_cases hone : ret = 1
  · simp [hone, Settled]
  by_cases hzero : ret = 0
  · simp [hzero, Settled]
  rw [if_neg hone, if_neg hzero]
  cases err with
  | wantRead => by_cases hrbio : s.conn.rbio = [] <;> simp [Settled, hone, hzero, hrbio]
  | wantWrite => by_cases hwbio : s.conn.wbio = [] <;> simp [Settled, hone, hwbio]
  | none => simp [Settled, hone]
  | zeroReturn => simp [Settled, hone]
  | other => simp [Settled, hone]

/-- What a round finds in the write BIO fits into one datagram, if SSL lets the
round go on to wait or to finish and nothing is in the way of the send. -/
def Fits (api : Ssl σ) (s : HandshakeState σ) : Prop :=
  let r := api.doHandshake s.conn.ssl s.conn.rbio
  (r.ret = 1 ∨ r.ret ≠ 0 ∧ r.err = .wantRead ∧ r.rbio = []) →
    FlightAccepted s.uring s.conn.udpFd → (s.conn.wbio ++ r.out).length ≤ bufSize

/-- A round leaves the write BIO empty exactly when its flight fits. -/
theorem call_settled (api : Ssl σ) (s : HandshakeState σ) :
    (Settled (s.call api) → (s.call api).conn.wbio = []) ↔ Fits api s := by
  unfold HandshakeState.call Fits
  dsimp only
  generalize api.doHandshake s.conn.ssl s.conn.rbio = r
  have hwbio : s.conn.wbio ++ r.out = (s.conn.after r).wbio := rfl
  rw [hwbio]
  by_cases hempty : (s.conn.after r).wbio = []
  · simp only [hempty, List.length_nil, if_true, (conclude_frame _ _ _).2.1]
    simp
  have hlen : (s.conn.after r).wbio.length ≠ 0 := by simpa using hempty
  have haccepted : 0 ≤ (sendFlight s.uring (s.conn.after r)).1 ↔
      FlightAccepted s.uring s.conn.udpFd := sendFlight_accepted s.uring hempty
  rw [if_neg hlen, ← haccepted]
  rcases hsend : sendFlight s.uring (s.conn.after r) with ⟨ret, ctx, conn⟩
  obtain ⟨rfl, -⟩ := sendFlight_spec hempty hsend
  by_cases hret : ret < 0
  · rw [if_pos hret]
    simp [Settled, show ¬ 0 ≤ ret by omega]
  · rw [if_neg hret, conclude_settled, (conclude_frame _ _ _).2.1]
    simp only [List.drop_eq_nil_iff, show 0 ≤ ret by omega, forall_const]
    rfl

structure Accounted (fd : Int) (base : List Sqe) (s : HandshakeState σ) : Prop where
  udpFd : s.conn.udpFd = fd
  sent : s.pc ≠ .returned (-1) → ∃ sent, s.uring.ring.queued = base ++ sent ∧
    (datagrams fd sent).flatten ++ s.conn.wbio = s.written

variable {fd : Int} {base : List Sqe}

theorem Accounted.call (h : Accounted fd base s) (hpc : s.pc = .calling) :
    Accounted fd base (s.call api) := by
  obtain ⟨sent, hqueued, hwritten⟩ := h.sent (by rw [hpc]; simp)
  have hfd := h.udpFd
  unfold HandshakeState.call
  dsimp only
  generalize api.doHandshake s.conn.ssl s.conn.rbio = r
  have hafter : (datagrams fd sent).flatten ++ (s.conn.after r).wbio = s.written ++ r.out := by
    rw [← hwritten, List.append_assoc]
    rfl
  split
  · obtain ⟨huring, hwbio, hudpFd, hwrit, -⟩ := conclude_frame { s with
      conn := s.conn.after r
      sslSend := (s.conn.after r).wbio.length
      written := s.written ++ r.out } r.ret r.err
    exact ⟨hudpFd.trans hfd, fun _ => ⟨sent, by rw [huring]; exact hqueued,
      by rw [hwbio, hwrit]; exact hafter⟩⟩
  rename_i hlen
  have hne : (s.conn.after r).wbio ≠ [] := by simpa using hlen
  rcases hsend : sendFlight s.uring (s.conn.after r) with ⟨ret, ctx, conn⟩
  obtain ⟨rfl, hsent⟩ := sendFlight_spec hne hsend
  split
  · exact ⟨hfd, fun hpc' => absurd rfl hpc'⟩
  rename_i hret
  obtain ⟨e, hctx, hdata⟩ := hsent.resolve_left hret
  have hfd' : (s.conn.after r).udpFd = fd := hfd
  obtain ⟨huring, hwbio, hudpFd, hwrit, -⟩ := conclude_frame { s with
    uring := ctx
    conn := { s.conn.after r with wbio := (s.conn.after r).wbio.drop bufSize }
    sslSend := (s.conn.after r).wbio.length
    written := s.written ++ r.out } r.ret r.err
  refine ⟨hudpFd.trans hfd, fun _ => ⟨sent ++ [e], ?_, ?_⟩⟩
  · rw [huring, hctx, hqueued, List.append_assoc]
  · rw [hfd'] at hdata
    rw [hwbio, hwrit, datagrams_append, hdata, ← hafter]
    simp only [List.flatten_append, List.flatten_cons, List.flatten_nil, List.append_nil,
      List.append_assoc, List.take_append_drop]

theorem Accounted.takeCqe (h : Accounted fd base s) (hpc : s.pc = .waiting) (c : Cqe)
    (cq : List Cqe) : Accounted fd base (s.takeCqe c cq) := by
  obtain ⟨sent, hqueued, hwritten⟩ := h.sent (by rw [hpc]; simp)
  have hwait := waitForRecvBody_queues (s.uring.iouringCqeSeen c cq) c
  -- every way on queues receives only and keeps the write BIO
  have hkeep : ∀ s' : HandshakeState σ, Queues Receives (s.uring.iouringCqeSeen c cq) s'.uring →
      s'.conn.udpFd = s.conn.udpFd → s'.conn.wbio = s.conn.wbio → s'.written = s.written →
      Accounted fd base s' := by
    intro s' hqueues hfd hwbio hwrit
    obtain ⟨rs, hrs, hin⟩ := hqueues
    refine ⟨hfd.trans h.udpFd, fun _ => ⟨sent ++ rs, ?_, ?_⟩⟩
    · rw [hrs, ← List.append_assoc, ← hqueued]
      rfl
    · rw [datagrams_append, datagrams_of_receives hin, List.append_nil, hwbio, hwrit, hwritten]
  unfold HandshakeState.takeCqe
  rcases hstep : (s.uring.iouringCqeSeen c cq).waitForRecvBody c with ⟨step, ctx⟩
  rw [hstep] at hwait
  cases step with
  | again => exact hkeep _ hwait rfl rfl rfl
  | null => exact hkeep _ hwait rfl rfl rfl
  | recv op =>
      dsimp only
      split
      · exact hkeep _ (hwait.trans (.of_ring_eq (assert_ring ctx _))) rfl rfl rfl
      · generalize hctx1 : ctx.assert (decide ((ctx.ops op).opType = .udpRecv)) = ctx1
        have hring1 : ctx1.ring = ctx.ring := by rw [← hctx1]; rfl
        have hlearn := learnAddr_ring ctx1 s.conn op
        refine hkeep _ ?_ (learnAddr_udpFd ctx1 s.conn op) (learnAddr_wbio ctx1 s.conn op) rfl
        exact (hwait.trans (.of_ring_eq (hlearn.trans hring1))).trans (ioOpFree_queues _ op)

theorem Accounted.step (h : Accounted fd base s) (e : HandshakeEvent) :
    Accounted fd base (s.step api e) := by
  cases e with
  | call =>
      simp only [HandshakeState.step]
      split
      · rename_i hpc; exact h.call hpc
      · exact h
  | kernel e =>
      refine ⟨h.udpFd, fun hpc => ?_⟩
      obtain ⟨sent, hqueued, hwritten⟩ := h.sent hpc
      exact ⟨sent, (kernel_histories s.uring e).2.trans hqueued, hwritten⟩
  | wake =>
      simp only [HandshakeState.step]
      split
      · rename_i hpc _; exact h.takeCqe hpc _ _
      · exact h
  | waitError =>
      simp only [HandshakeState.step]
      split
      · exact ⟨h.udpFd, fun hpc => absurd rfl hpc⟩
      · exact h

theorem takeCqe_settled (hs : Settled s → s.conn.wbio = []) (hpc : s.pc = .waiting) (c : Cqe)
    (cq : List Cqe) (h : Settled (s.takeCqe c cq)) : (s.takeCqe c cq).conn.wbio = [] := by
  unfold HandshakeState.takeCqe at h ⊢
  rcases hstep : (s.uring.iouringCqeSeen c cq).waitForRecvBody c with ⟨step, ctx⟩
  simp only [hstep] at h ⊢
  cases step with
  | again => exact hs (Or.inl hpc)
  | null => simp [Settled] at h
  | recv op =>
      dsimp only at h ⊢
      split at h <;> simp [Settled] at h

/-- While the flights fit, the write BIO is empty whenever the handshake is
settled. -/
theorem step_settled (hs : Settled s → s.conn.wbio = []) (e : HandshakeEvent) :
    (Settled (s.step api e) → (s.step api e).conn.wbio = []) ↔
      (e = .call → s.pc = .calling → Fits api s) := by
  cases e with
  | call =>
      simp only [HandshakeState.step, forall_const]
      by_cases hpc : s.pc = .calling
      · simpa [hpc] using call_settled api s
      · simpa [hpc] using hs
  | kernel e => simpa [HandshakeState.step, Settled] using hs
  | wake =>
      simp only [HandshakeState.step]
      split
      · rename_i hpc _; simpa using takeCqe_settled hs hpc _ _
      · simpa using hs
  | waitError =>
      simp only [HandshakeState.step]
      by_cases hpc : s.pc = .waiting
      · simp [hpc, Settled]
      · simpa [hpc] using hs

/-- Nothing that SSL wrote since `n` requests were queued is left behind where
the handshake waits or returns 0. -/
def SentAll (n : Nat) (s : HandshakeState σ) : Prop :=
  Settled s → s.conn.wbio = [] ∧
    (datagrams s.conn.udpFd (s.uring.ring.queued.drop n)).flatten = s.written

theorem Accounted.sentAll (h : Accounted fd base s) (hs : Settled s → s.conn.wbio = []) :
    SentAll base.length s := by
  intro hset
  have hpc : s.pc ≠ .returned (-1) := by
    rcases hset with hpc | hpc <;> rw [hpc] <;> simp
  obtain ⟨sent, hqueued, hwritten⟩ := h.sent hpc
  rw [hs hset, List.append_nil] at hwritten
  refine ⟨hs hset, ?_⟩
  rw [hqueued, List.drop_left, h.udpFd]
  exact hwritten

/-- Every run of `do_dtls_handshake` sends all that SSL wrote before it waits and
before it returns 0, if and only if every round that goes there finds at most
`BUF_SIZE` bytes in the write BIO. -/
theorem handshake_sentAll (api : Ssl σ) (uring : IouringCtx) (conn : Connection σ)
    (es : List HandshakeEvent) :
    Execution.Always (HandshakeState.step api) (SentAll uring.ring.queued.length)
        (HandshakeState.start uring conn) es ↔
      Execution.Steps (HandshakeState.step api)
        (fun s e => e = .call → s.pc = .calling → Fits api s)
        (HandshakeState.start uring conn) es := by
  apply Execution.always_iff_steps fun s =>
    Accounted conn.udpFd uring.ring.queued s ∧ (Settled s → s.conn.wbio = [])
  · intro s hs
    exact hs.1.sentAll hs.2
  · intro s e hs hc
    exact ⟨hs.1.step e, (step_settled hs.2 e).mpr hc⟩
  · intro s e hs hall
    exact (step_settled hs.2 e).mp fun hset => (hall hset).1
  · refine ⟨⟨rfl, fun _ => ⟨[], ?_, ?_⟩⟩, ?_⟩
    · simp [HandshakeState.start]
    · simp [HandshakeState.start, datagrams]
    · simp [HandshakeState.start, Settled]

end Rounds

/-! ## A flight of two datagrams -/

/-- A client whose first flight is one byte longer than `BUF_SIZE`. -/
def longFlightSsl : Ssl Unit where
  doHandshake := fun _ rbio => ⟨-1, .wantRead, [], rbio, List.replicate (bufSize + 1) 22, ()⟩
  read := fun _ rbio _ => ⟨-1, .wantRead, [], rbio, [], ()⟩
  write := fun _ rbio _ => ⟨-1, .other, [], rbio, [], ()⟩

def longFlightStart : HandshakeState Unit :=
  .start (IouringCtx.iouringInit ⟨8, 8, 1, 2, 2, 0, 0⟩ (fun _ => true) fun _ => 1)
    ⟨3, .client, (), [], [], [127, 0, 0, 1], 4, .handshaking⟩

set_option maxRecDepth 20000 in
/-- It waits for an answer while the last byte is still in the write BIO. -/
theorem longFlight_not_sentAll :
    ¬ Execution.Always (HandshakeState.step longFlightSsl) (SentAll 0) longFlightStart [.call] := by
  intro h
  have hwait : (HandshakeState.run longFlightSsl longFlightStart [.call]).pc = .waiting := rfl
  have hempty := (h.last (Or.inl hwait)).1
  have hfits := (call_settled longFlightSsl longFlightStart).mp (fun _ => hempty)
    (Or.inr ⟨by decide, rfl, rfl⟩) ⟨by decide, by decide, by decide, rfl, by decide⟩
  simp only [longFlightSsl, longFlightStart, HandshakeState.start, List.nil_append,
    List.length_replicate] at hfits
  omega

end Dataplane.Proofs
