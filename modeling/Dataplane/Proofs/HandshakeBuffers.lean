import Dataplane.Model.Handshake
import Dataplane.Proofs.Flights
import Dataplane.Proofs.Ownership

/-!
# The handshake gives every receive buffer back

The handshake keeps the ownership invariant with nothing in its hands, except
where it drops a datagram that came on another socket.
-/

namespace Dataplane.Proofs

open ProofSupport Model Ledger

variable {σ : Type} {api : Ssl σ} {ctx ctx' : IouringCtx} {held : Multiset OpId}
  {taken : Multiset Nat}

theorem kernel_config (ctx : IouringCtx) (e : KEvent) : (ctx.kernel e).config = ctx.config := by
  cases e with
  | complete op res data name tag =>
      simp only [IouringCtx.kernel]
      split
      · rfl
      · simp only [IouringCtx.post, IouringCtx.perform]
        split
        · rfl
        · split <;> simp
  | recv op bid res data more tag =>
      simp only [IouringCtx.kernel]
      split
      · rfl
      · split <;> rfl
  | fail op res =>
      simp only [IouringCtx.kernel]
      split
      · rfl
      · split <;> rfl

/-! ## Counting ring indices -/

def UdpRequest (r : Sqe) : Prop := r.opcode = .sendmsg ∨ r.opcode.opType = .udpRecv

theorem UdpRequest.not_write {r : Sqe} (h : UdpRequest r) : r.opcode ≠ .write := by
  rcases h with h | h <;> intro hw <;> rw [hw] at h <;> cases h

theorem Incoming.udpRequest {fd : Int} {r : Sqe} (h : Incoming .udpRecv fd r) : UdpRequest r :=
  Or.inr h.opType

theorem AllRequests.reqOk (h : AllRequests UdpRequest ctx.ring) (hinv : Inv ctx held taken)
    {op : OpId} (hop : op ∈ ctx.ring.requests) :
    ∃ r : Sqe, UdpRequest r ∧ ReqOk (ctx.ops op) r := by
  rw [requests_eq, Multiset.mem_add, Multiset.mem_coe, Multiset.mem_coe] at hop
  rcases hop with hop | hop
  · obtain ⟨r, hr, rfl⟩ := List.mem_map.mp hop
    exact ⟨r, h.inflight r hr, (hinv.inflight r hr).1⟩
  · obtain ⟨c, hc, rfl⟩ := List.mem_map.mp hop
    have hc' := (List.mem_filter.mp hc).1
    exact ⟨c.req, h.cq c hc', (hinv.cq c hc').2.req⟩

theorem AllRequests.slots_eq_zero (h : AllRequests UdpRequest ctx.ring)
    (hinv : Inv ctx held taken) {op : OpId} (hop : op ∈ ctx.ring.requests) :
    slots (ctx.ops op) = 0 := by
  obtain ⟨r, hudp, hok⟩ := h.reqOk hinv hop
  cases hok.place with
  | multi _ hm => exact hm.slots
  | pooled b _ hp _ _ => exact hp.slots
  | slotted i off hw _ _ _ => exact absurd hw hudp.not_write

/-- The ring indices are available, selected by a completion not yet taken, or
in the program's hands. -/
theorem Inv.br_length (hinv : Inv ctx 0 taken) (h : AllRequests UdpRequest ctx.ring) :
    ctx.br.length + ctx.ring.cq.countP (fun c => c.flags.buffer) + Multiset.card taken =
      ctx.config.brNBufs := by
  have hnone : owned (fun op => slots (ctx.ops op)) (0 + ctx.ring.requests) = 0 := by
    rw [zero_add, Multiset.eq_zero_iff_forall_notMem]
    intro i hi
    obtain ⟨op, hop, hslot⟩ := mem_owned.mp hi
    rw [h.slots_eq_zero hinv hop] at hslot
    exact Multiset.notMem_zero i hslot
  have hcard := congrArg Multiset.card hinv.slotLedger
  rw [hnone, Multiset.card_range, IoUring.selected] at hcard
  simp only [Multiset.card_add, Multiset.coe_card, List.length_map, Multiset.card_zero] at hcard
  rw [List.countP_eq_length_filter]
  omega

/-! ## Sending a flight -/

structure Flight (ctx ctx' : IouringCtx) (held : Multiset OpId) (taken : Multiset Nat)
    (conn : Connection σ) (ret : Int) (rs : List Sqe) : Prop where
  effect : Effect ctx ctx' rs
  single : rs.length ≤ 1
  entry : ∀ r ∈ rs, SendOn ctx conn (conn.wbio.take bufSize) r
  done : (ret = 0 ∧ rs ≠ [] ∧ Inv ctx' held taken) ∨ ret = -1

theorem Inv.sendFlight {conn conn' : Connection σ} {ret : Int} (h : Inv ctx held taken)
    (hne : conn.wbio ≠ []) (hres : sendFlight ctx conn = (ret, ctx', conn')) :
    conn' = { conn with wbio := conn.wbio.drop bufSize } ∧
      ∃ rs, Flight ctx ctx' held taken conn ret rs := by
  rcases ha : ctx.ioOpAlloc .udpSend conn.udpFd false with ⟨_ | op, ctx1⟩
  · rw [sendFlight_none hne ha] at hres
    cases hres
    obtain ⟨ops, rfl, -⟩ := ioOpAlloc_none_eq ha
    exact ⟨rfl, [], .of_ring_eq rfl rfl rfl, by simp, by simp, Or.inr rfl⟩
  rcases hsub : ctx1.iouringSubmitUdpSend (some op) conn.addr conn.addrLen
    (some (conn.wbio.take bufSize)) (conn.wbio.take bufSize).length with ⟨ret', ctx2⟩
  rw [sendFlight_some hne ha hsub] at hres
  cases hres
  have hinv := h.ioOpAlloc_single ha
  obtain ⟨ops, b, bufs, -, -, hctx1⟩ := ioOpAlloc_single_eq ha
  have hop : ctx1.ops op = pooledOp .udpSend conn.udpFd b := by rw [hctx1]; simp
  have heff0 : Effect ctx ctx1 [] := by rw [hctx1]; exact .of_ring_eq rfl rfl rfl
  have hp : Pooled (ctx1.ops op) b := by rw [hop]; exact ⟨rfl, rfl, rfl, rfl, rfl⟩
  generalize hbytes : conn.wbio.take bufSize = bytes at *
  obtain ⟨rs, heff, hsingle, hentry, -, -, -, hdone⟩ := hinv.submitUdpSend hp (by rw [hop]; rfl)
    (some bytes) (by rw [copyIn_op]; rfl) hsub
  refine ⟨rfl, rs, heff0.trans heff, hsingle, fun r hr => ?_, ?_⟩
  · obtain ⟨hcar, hnamelen, hname⟩ := hentry r hr
    refine ⟨⟨hcar.opcode, ?_, hcar.tag.trans heff0.tag, ?_⟩, hnamelen, hname⟩
    · rw [hcar.fd, hop]
      rfl
    · rw [hcar.data, Int.toNat_natCast, hbytes]
      exact copyIn_load hp bytes
  · rcases hdone with ⟨rfl, hrs, hinv'⟩ | ⟨rfl, -⟩
    · exact Or.inl ⟨rfl, hrs, hinv'⟩
    · exact Or.inr rfl

/-! ## The handshake -/

section Handshake

variable {s : HandshakeState σ}

/-- The handshake has not returned. -/
def Running (s : HandshakeState σ) : Prop := ∀ ret, s.pc ≠ .returned ret

/-- `wait_for_recv` is about to hand out a datagram of another socket. -/
def TakesForeign (s : HandshakeState σ) : Prop :=
  s.pc = .waiting ∧ ∃ c cq op ctx, s.uring.ring.cq = c :: cq ∧
    (s.uring.iouringCqeSeen c cq).waitForRecvBody c = (.recv op, ctx) ∧ c.req.fd ≠ s.conn.udpFd

structure AllBack (config : IouringConfig) (ctx : IouringCtx) : Prop where
  config : ctx.config = config
  inv : Inv ctx 0 0
  requests : AllRequests UdpRequest ctx.ring

/-- Everything that the handshake received has been given back: every op, pool
item and ring index has one owner, and the ring indices that are available or
selected by completions not yet taken are all there are. -/
def GivenBack (config : IouringConfig) (s : HandshakeState σ) : Prop :=
  Running s → s.uring.config = config ∧ OwnedOnce s.uring ∧
    s.uring.br.length + s.uring.ring.cq.countP (fun c => c.flags.buffer) = config.brNBufs

variable {config : IouringConfig}

theorem AllBack.givenBack (h : Running s → AllBack config s.uring) : GivenBack config s := by
  intro hrun
  obtain ⟨hconfig, hinv, hreqs⟩ := h hrun
  refine ⟨hconfig, hinv.ownedOnce, ?_⟩
  rw [← hconfig]
  simpa using hinv.br_length hreqs

theorem AllBack.call (h : AllBack config s.uring) :
    Running (s.call api) → AllBack config (s.call api).uring := by
  unfold HandshakeState.call
  dsimp only
  generalize api.doHandshake s.conn.ssl s.conn.rbio = r
  split
  · rw [(conclude_frame _ _ _).1]
    exact fun _ => h
  rename_i hlen
  have hne : (s.conn.after r).wbio ≠ [] := by simpa using hlen
  rcases hsend : sendFlight s.uring (s.conn.after r) with ⟨ret, ctx, conn⟩
  split
  · exact fun hrun => absurd rfl (hrun (-1))
  rename_i hret
  obtain ⟨-, rs, hflight⟩ := h.inv.sendFlight hne hsend
  rw [(conclude_frame _ _ _).1]
  rcases hflight.done with ⟨-, -, hinv⟩ | rfl
  · exact fun _ => ⟨hflight.effect.config.trans h.config, hinv,
      h.requests.effect hflight.effect fun r hr => Or.inl (hflight.entry r hr).carries.opcode⟩
  · exact absurd (by simp) hret

theorem AllBack.received (h : AllBack config ctx) {c : Cqe} {cq : List Cqe}
    (hcq : ctx.ring.cq = c :: cq)
    {op : OpId} (hstep : (ctx.iouringCqeSeen c cq).waitForRecvBody c = (.recv op, ctx')) :
    ∃ got idx, ctx'.config = config ∧ Inv ctx' got idx ∧ Received ctx' c op got idx ∧
      (ctx'.ops op).opType = .udpRecv ∧ AllRequests UdpRequest ctx'.ring := by
  obtain ⟨hudp, hseen⟩ := h.requests.seen hcq
  cases h.inv.wait hcq hstep with
  | recv rs got idx _ hin heff hrs hinv hrecv =>
      have htype : c.req.opcode.opType = .udpRecv := by
        refine hudp.resolve_left fun hsend => ?_
        rw [hsend] at hin
        cases hin
      refine ⟨got, idx, heff.config.trans h.config, by simpa using hinv, hrecv,
        hrecv.opType.trans htype, hseen.effect heff fun r hr => ?_⟩
      exact Or.inr ((hrs r hr).opType.trans htype)

theorem AllBack.takeCqe (h : AllBack config s.uring) (hpc : s.pc = .waiting) {c : Cqe}
    {cq : List Cqe}
    (hcq : s.uring.ring.cq = c :: cq) (hown : ¬ TakesForeign s) :
    Running (s.takeCqe c cq) → AllBack config (s.takeCqe c cq).uring := by
  unfold HandshakeState.takeCqe
  rcases hstep : (s.uring.iouringCqeSeen c cq).waitForRecvBody c with ⟨step, ctx⟩
  cases step with
  | null => exact fun hrun => absurd rfl (hrun (-1))
  | again =>
      cases h.inv.wait hcq hstep with
      | again _ _ heff hinv =>
          exact fun _ => ⟨heff.config.trans h.config, hinv,
            (h.requests.seen hcq).2.effect heff (by simp)⟩
  | recv op =>
      obtain ⟨got, idx, hconfig, hinv, hrecv, htype, hreqs⟩ := h.received hcq hstep
      have hfd : (ctx.ops op).fd = s.conn.udpFd := by
        rw [hrecv.fd]
        by_contra hne
        exact hown ⟨hpc, c, cq, op, ctx, hcq, hstep, hne⟩
      simp only [htype, decide_true, assert_true, hfd, ne_eq, not_true_eq_false, if_false,
        learnAddr_ctx s.conn (hrecv.addrLen htype)]
      intro _
      have hfree : Inv ctx (got + 0) (idx + 0) := by simpa using hinv
      have hring := ioOpFree_ring ctx op
      exact ⟨hring.2.2.trans hconfig, hfree.ioOpFree hrecv.freeable,
        hreqs.effect (.of_ring_eq hring.1 hring.2.1 hring.2.2) (by simp)⟩

theorem Received.not_back {c : Cqe} {op : OpId} {got : Multiset OpId} {idx : Multiset Nat}
    (h : Received ctx c op got idx) (hinv : Inv ctx got idx)
    (hreqs : AllRequests UdpRequest ctx.ring) :
    ¬ (OwnedOnce ctx ∧
      ctx.br.length + ctx.ring.cq.countP (fun c => c.flags.buffer) = ctx.config.brNBufs) := by
  rintro ⟨honce, hlength⟩
  cases h with
  | multi _ _ _ _ _ _ =>
      have hcount := hinv.br_length hreqs
      rw [Multiset.card_singleton] at hcount
      omega
  | single b _ _ _ _ _ _ _ =>
      have hheld : op ∈ ({op} : Multiset OpId) := Multiset.mem_singleton_self op
      have hmem : op ∈ {op} + ctx.ring.requests := Multiset.mem_add.mpr (Or.inl hheld)
      have hlt : op < ctx.config.nIoOps := by
        rw [← Multiset.mem_range, ← hinv.opLedger]
        exact Multiset.mem_add.mpr (Or.inr hmem)
      have hone := honce.op op hlt
      rw [List.count_eq_zero.mpr (hinv.not_mem_pool hmem), ← count_requests,
        Multiset.count_eq_zero.mpr (hinv.not_mem_requests hheld)] at hone
      omega

/-- Where a datagram of another socket is dropped, something is missing. -/
theorem AllBack.dropped (h : AllBack config s.uring) (hforeign : TakesForeign s) :
    ¬ GivenBack config (s.step api .wake) := by
  obtain ⟨hpc, c, cq, op, ctx, hcq, hstep, hne⟩ := hforeign
  obtain ⟨got, idx, hconfig, hinv, hrecv, htype, hreqs⟩ := h.received hcq hstep
  have hnext : s.step api .wake = { s with uring := ctx, pc := .calling } := by
    simp only [HandshakeState.step, hpc, hcq, HandshakeState.takeCqe, hstep, htype, decide_true,
      assert_true]
    rw [if_pos (by rw [hrecv.fd]; exact hne)]
  rw [hnext]
  intro hback
  obtain ⟨-, honce, hlength⟩ := hback (by intro ret; simp)
  exact hrecv.not_back hinv hreqs ⟨honce, by rw [hconfig]; exact hlength⟩

theorem AllBack.step (h : Running s → AllBack config s.uring) {e : HandshakeEvent}
    (hown : e = .wake → ¬ TakesForeign s) :
    Running (s.step api e) → AllBack config (s.step api e).uring := by
  cases e with
  | call =>
      simp only [HandshakeState.step]
      split
      · rename_i hpc
        exact AllBack.call (h (by intro ret; simp [hpc]))
      · exact h
  | kernel e =>
      exact fun hrun => ⟨(kernel_config s.uring e).trans (h hrun).config, (h hrun).inv.kernel e,
        (h hrun).requests.kernel e⟩
  | wake =>
      simp only [HandshakeState.step]
      split
      · rename_i hpc hcq
        exact AllBack.takeCqe (h (by intro ret; simp [hpc])) hpc hcq (hown rfl)
      · exact h
  | waitError =>
      simp only [HandshakeState.step]
      split
      · exact fun hrun => absurd rfl (hrun (-1))
      · exact h

end Handshake

/-! ## From the start -/

/-- The rule for the loop over the sockets: what holds with `fds` left to arm is
kept by arming the first of them. -/
theorem armReceives_rule {multi : Bool} {P : List Int → IouringCtx → Prop}
    (hstep : ∀ {fd : Int} {fds : List Int} {ctx ctx1 : IouringCtx},
      (if multi then ctx.iouringSubmitMultishotRecvmsg fd
        else IouringCtx.initialRecvs IouringCtx.iouringSubmitUdpRecv .udpRecv fd
          ctx.config.nInitialRecvOps ctx) = (0, ctx1) → P (fd :: fds) ctx → P fds ctx1)
    {fds : List Int} (hres : armReceives multi ctx fds = some ctx') (h : P fds ctx) :
    P [] ctx' := by
  induction fds generalizing ctx with
  | nil =>
      obtain rfl := Option.some.inj hres
      exact h
  | cons fd fds ih =>
      rw [Model.armReceives] at hres
      rcases hsub : (if multi then ctx.iouringSubmitMultishotRecvmsg fd
        else IouringCtx.initialRecvs IouringCtx.iouringSubmitUdpRecv .udpRecv fd
          ctx.config.nInitialRecvOps ctx) with ⟨ret, ctx1⟩
      rw [hsub] at hres
      dsimp only at hres
      split at hres
      · cases hres
      · rename_i hret
        rw [not_not.mp hret] at hsub
        exact ih hres (hstep hsub h)

theorem AllBack.armReceives {config : IouringConfig} {multi : Bool} {fds : List Int}
    (h : AllBack config ctx) (hres : armReceives multi ctx fds = some ctx') :
    AllBack config ctx' := by
  apply armReceives_rule (P := fun _ ctx => AllBack config ctx) _ hres h
  intro fd fds ctx ctx1 hsub h
  cases multi with
  | true =>
      obtain ⟨rs, heff, hin, hinv⟩ := h.inv.iouringSubmitMultishotRecvmsg hsub
      exact ⟨heff.config.trans h.config, hinv,
        h.requests.effect heff fun r hr => (hin r hr).udpRequest⟩
  | false =>
      obtain ⟨rs, heff, hin, hinv⟩ := h.inv.initialRecvs (Or.inr ⟨rfl, rfl⟩) hsub
      exact ⟨heff.config.trans h.config, hinv,
        h.requests.effect heff fun r hr => (hin r hr).udpRequest⟩

/-- A handshake that starts behind `iouring_init` with receives armed on any
sockets has given everything back whenever it calls `SSL_do_handshake` or waits,
if and only if it never takes a datagram of another socket. -/
theorem handshake_givenBack {σ : Type} (api : Ssl σ) (config : IouringConfig)
    (sqeFree : Nat → Bool) (submits : Nat → Int) (multi : Bool) (fds : List Int)
    {ctx : IouringCtx}
    (hstart : armReceives multi (IouringCtx.iouringInit config sqeFree submits) fds = some ctx)
    (conn : Connection σ) (es : List HandshakeEvent) :
    Execution.Always (HandshakeState.step api) (GivenBack config)
        (HandshakeState.start ctx conn) es ↔
      Execution.Steps (HandshakeState.step api) (fun s e => e = .wake → ¬ TakesForeign s)
        (HandshakeState.start ctx conn) es := by
  apply Execution.always_iff_steps fun s => Running s → AllBack config s.uring
  · exact fun s => AllBack.givenBack
  · exact fun s e hs hown => AllBack.step hs hown
  · rintro s e hs hback rfl hforeign
    exact (hs (by intro ret; simp [hforeign.1])).dropped hforeign hback
  · have hinit : AllBack config (IouringCtx.iouringInit config sqeFree submits) :=
      ⟨rfl, inv_iouringInit config sqeFree submits,
        by simp [IouringCtx.iouringInit, IoUring.inflight], by simp [IouringCtx.iouringInit]⟩
    exact fun _ => hinit.armReceives hstart

/-! ## A datagram for the other connection -/

/-- A client that sends nothing and waits for its server. -/
def patientSsl : Ssl Unit where
  doHandshake := fun _ _ => ⟨-1, .wantRead, [], [], [], ()⟩
  read := fun _ rbio _ => ⟨-1, .wantRead, [], rbio, [], ()⟩
  write := fun _ rbio _ => ⟨-1, .other, [], rbio, [], ()⟩

def forwarderConfig : IouringConfig := ⟨8, 8, 1, 2, 4, 0, 0⟩

def forwarderRing : IouringCtx :=
  ((armReceives true (IouringCtx.iouringInit forwarderConfig (fun _ => true) fun _ => 1)
    [3, 4]).getD (IouringCtx.iouringInit forwarderConfig (fun _ => true) fun _ => 1))

def inboundConn : Connection Unit :=
  ⟨3, .client, (), [], [], [127, 0, 0, 1], 4, .handshaking⟩

def oneDatagram (op : OpId) : List HandshakeEvent :=
  [.call, .kernel (.recv op 0 147
    (recvmsgOut 128 [127, 0, 0, 1] (List.replicate 124 0) [1, 2, 3]) true 0), .wake]

/-- A datagram on socket 4 costs a slot of the buffer ring. -/
theorem foreign_not_givenBack :
    ¬ Execution.Always (HandshakeState.step patientSsl) (GivenBack forwarderConfig)
      (HandshakeState.start forwarderRing inboundConn) (oneDatagram 1) := by
  intro h
  have hcalling : (HandshakeState.run patientSsl (HandshakeState.start forwarderRing inboundConn)
      (oneDatagram 1)).pc = .calling := rfl
  have hlength := (h.last (by intro ret hpc; exact absurd (hcalling.symm.trans hpc) (by simp))).2.2
  revert hlength
  decide

/-- A datagram on socket 3 is given back. -/
theorem handshake_givenBack_own :
    Execution.Always (HandshakeState.step patientSsl) (GivenBack forwarderConfig)
      (HandshakeState.start forwarderRing inboundConn) (oneDatagram 0) := by
  refine (handshake_givenBack patientSsl forwarderConfig (fun _ => true) (fun _ => 1) true [3, 4]
    rfl inboundConn (oneDatagram 0)).mpr ⟨by simp, by simp, ?_, trivial⟩
  rintro - ⟨-, c, cq, op, ctx, hcq, -, hne⟩
  have hfd : (List.head? (c :: cq)).map (fun c => c.req.fd) = some 3 := by
    rw [← hcq]
    rfl
  exact hne (Option.some.inj hfd)

end Dataplane.Proofs
