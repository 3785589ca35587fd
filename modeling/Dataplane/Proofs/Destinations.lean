import Dataplane.Proofs.Addresses
import Dataplane.Proofs.HandshakeGiveBack

/-!
# Datagrams without a destination

A server learns where to send from the first datagram that it takes.  The
handshake does not send before that, but `tun_udp_run_zero` sends a packet of
its TUN device to an empty address when that comes first.
-/

namespace Dataplane.Model

open ProofSupport

variable {σ : Type}

/-- The send `r` has an address: one that a connection of `prog` had at the
start, or the one that a datagram taken so far came from. -/
structure Destined (prog : Program σ) (ring : IoUring) (r : Sqe) : Prop where
  positive : 0 < r.msgNamelen
  origin : ∃ first ∈ prog.peers, 0 < first.addrLen ∧ first.Addresses r ∨
    first.addrLen = 0 ∧ r.fd = first.udpFd ∧ ∃ c ∈ ring.seen, c.Datagram first.udpFd ∧
      (c.Addressed → r.msgNamelen = c.source.length ∧ r.name = c.source)

def Session.Destined (prog : Program σ) (s : Session σ) : Prop :=
  ∀ r ∈ s.uring.ring.queued, r.opcode = .sendmsg → Model.Destined prog s.uring.ring r

/-- The completion of a TUN read brings a packet that can be sent: its buffer is
replaced and read into again, and an op and a queue entry are left for the
send. -/
structure CanSend (ctx : IouringCtx) (conn : Connection σ) (c : Cqe) : Prop where
  read : c.req.opcode = .read
  length : 0 < c.res ∧ c.res ≤ bufSize
  fd : 0 ≤ conn.udpFd
  ops : 2 ≤ ctx.ioOpPool.length
  items : ctx.bufAddrPool ≠ []
  ready : ctx.ring.Ready
  entry : ctx.ring.sqeFree 1 = true

/-- The event makes `tun_udp_run_zero` take such a packet before it has learnt an
address. -/
def Session.SendsBlind (s : Session σ) (e : SessionEvent) : Prop :=
  e = .wake ∧ ∃ ls conn tunFd c cq, s = .loop ls ∧ ls.prog = .tunUdpRunZero conn tunFd ∧
    conn.addrLen = 0 ∧ ls.status = .waiting ∧ ls.uring.ring.cq = c :: cq ∧ CanSend ls.uring conn c

/-! ## An SSL server that has read nothing -/

/-- `Fresh` says of an SSL object that it has not read a datagram.  As long as
there is none, it writes nothing and the handshake is not over. -/
structure Silent (api : Ssl σ) (Fresh : σ → Prop) : Prop where
  fresh : ∀ ssl, Fresh ssl → Fresh (api.doHandshake ssl []).ssl
  rbio : ∀ ssl, Fresh ssl → (api.doHandshake ssl []).rbio = []
  out : ∀ ssl, Fresh ssl → (api.doHandshake ssl []).out = []
  waits : ∀ ssl, Fresh ssl → (api.doHandshake ssl []).ret ≠ 1

structure Connection.Unread (Fresh : σ → Prop) (conn : Connection σ) : Prop where
  ssl : Fresh conn.ssl
  rbio : conn.rbio = []
  wbio : conn.wbio = []

def Program.handshakes : Program σ → List (Connection σ)
  | .tunUdpRun conn _ => [conn]
  | .tunUdpRunZero _ _ => []
  | .forwarderRun inbound outbound => [inbound, outbound]

/-- The connection that waits for its turn has read nothing or has an address,
and the one that has shaken hands has one. -/
def Stage.Led (Fresh : σ → Prop) : Stage σ → Prop
  | .edge _ => True
  | .inbound other => other.addrLen = 0 → other.Unread Fresh
  | .outbound other => 0 < other.addrLen

def Session.Led (Fresh : σ → Prop) : Session σ → Prop
  | .handshake stage s _ =>
      (s.conn.addrLen = 0 → s.conn.Unread Fresh ∧ s.pc ≠ .returned 0) ∧ stage.Led Fresh
  | .loop s =>
    (∃ conn tunFd, s.prog = .tunUdpRunZero conn tunFd) ∨ ∀ p ∈ s.prog.peers, 0 < p.addrLen
  | .returned _ => True

end Dataplane.Model

namespace Dataplane.Proofs

open ProofSupport Model Ledger

variable {σ : Type} {api : Ssl σ} {ctx ctx' : IouringCtx} {held : Multiset OpId}
  {taken : Multiset Nat} {sockets : List Int} {op : OpId}

/-! ## A packet of the TUN device -/

theorem submitTunRead_sqeFree (ctx : IouringCtx) (op : OpId) :
    (ctx.iouringSubmitTunRead op).2.ring.sqeFree = fun n => ctx.ring.sqeFree (n + 1) := by
  unfold IouringCtx.iouringSubmitTunRead IouringCtx.submitChecked
  dsimp only
  split
  · rename_i hget
    rw [← (Prod.mk.inj hget).2]
  · rename_i hget
    rw [← (Prod.mk.inj hget).2]
    split <;> rfl

theorem resubmitRead_spec (htype : (ctx.ops op).opType = .tunRead) :
    (0 ≤ (ctx.iouringResubmitRecv op).1 ↔
      ctx.ioOpPool ≠ [] ∧ ctx.bufAddrPool ≠ [] ∧ ctx.ring.Ready) ∧
    (0 ≤ (ctx.iouringResubmitRecv op).1 →
      ctx.ioOpPool.length = (ctx.iouringResubmitRecv op).2.ioOpPool.length + 1 ∧
      (ctx.iouringResubmitRecv op).2.ring.sqeFree 0 = ctx.ring.sqeFree 1) := by
  have hsqe : 0 ≤ (ctx.iouringResubmitRecv op).1 →
      (ctx.iouringResubmitRecv op).2.ring.sqeFree 0 = ctx.ring.sqeFree 1 := by
    simp only [IouringCtx.iouringResubmitRecv, htype]
    have hring := ioOpAlloc_ring ctx .tunRead (ctx.ops op).fd false
    generalize ctx.ioOpAlloc .tunRead (ctx.ops op).fd false = out at *
    obtain ⟨_ | new, ctx1⟩ := out
    · exact fun hret => absurd hret (by simp)
    · intro _
      simp only [submitTunRead_sqeFree]
      rw [show ctx1.ring = ctx.ring from hring]
  have hcases := iouringResubmitRecv_resubmitted ctx op
  generalize ctx.iouringResubmitRecv op = out at *
  cases hcases with
  | empty hempty _ =>
      refine ⟨⟨fun h => absurd h (by simp), fun ⟨hops, hitems, _⟩ => ?_⟩,
        fun h => absurd h (by simp)⟩
      rcases hempty with hempty | hempty
      · exact absurd hempty hops
      · exact absurd hempty hitems
  | taken new b hops hitems _ _ hfails =>
      rw [htype] at hfails
      simp only [true_or, true_and] at hfails
      have hready : 0 ≤ out.1 ↔ ctx.ring.Ready := by
        rw [← not_iff_not, ← hfails]
        omega
      refine ⟨?_, fun h => ⟨by rw [hops]; rfl, hsqe h⟩⟩
      rw [hready, hops, hitems]
      simp

theorem Calls.queues_iff {f : Submission} {out : Int × IouringCtx} (h : Calls f ctx op out)
    {rs : List Sqe} (hrs : out.2.ring.inflight = ctx.ring.inflight ++ rs) :
    rs ≠ [] ↔ f.Accepts ctx op ∧ ctx.ring.sqeFree 0 = true := by
  cases h with
  | refused hnot hsame =>
      have hnil : rs = [] := List.append_right_eq_self.mp (hrs.symm.trans hsame)
      exact ⟨fun hne => absurd hnil hne, fun hyes => absurd hyes hnot⟩
  | submitted r hacc hfree _ hin _ =>
      have hone : rs = [r] := List.append_cancel_left (hrs.symm.trans hin)
      exact ⟨fun _ => ⟨hacc, hfree⟩, fun _ => by simp [hone]⟩

theorem ioOpAllocBuf_none_iff {opType : OpType} {fd : Int} :
    (ctx.ioOpAllocBuf opType fd false (some op)).1 = none ↔ ctx.ioOpPool = [] := by
  unfold IouringCtx.ioOpAllocBuf IouringCtx.iouringGetIoOp
  cases hpool : ctx.ioOpPool with
  | nil => simp
  | cons new ops =>
      simp only [Bool.false_eq_true, if_false]
      split <;> simp

/-- `tun_to_udp` queues a send exactly when there is an op, the packet has a
length, the socket is valid and an entry is free. -/
theorem tunToUdp_sends_iff {conn : Connection σ} {b : BufId} (h : Inv ctx ({op} + held) taken)
    (hp : Pooled (ctx.ops op) b) {rs : List Sqe} (heff : Effect ctx (tunToUdp conn op ctx).2 rs) :
    rs ≠ [] ↔ ctx.ioOpPool ≠ [] ∧ ((0 < (ctx.ops op).dataLen ∧ 0 ≤ conn.udpFd) ∧
      (ctx.ops op).dataLen ≤ bufSize) ∧ ctx.ring.sqeFree 0 = true := by
  have hout : op ∉ ctx.ioOpPool := h.not_mem_pool
    (Multiset.mem_add.mpr (.inl (Multiset.mem_add.mpr (.inl (Multiset.mem_singleton_self op)))))
  have hnone := @ioOpAllocBuf_none_iff ctx op .udpSend conn.udpFd
  have hinflight := heff.inflight
  revert hinflight
  unfold Model.tunToUdp
  rcases ha : ctx.ioOpAllocBuf .udpSend conn.udpFd false (some op) with ⟨_ | new, ctx1⟩
  · rw [ha] at hnone
    obtain rfl := ioOpAllocBuf_none_eq ha
    intro hinflight
    have hnil : rs = [] := List.append_right_eq_self.mp hinflight.symm
    simp [hnil, hnone.mp rfl]
  · rw [ha] at hnone
    obtain ⟨-, -, -, hnew, -⟩ := h.inherit_item hp ha
    obtain ⟨ops, -, hctx1⟩ := ioOpAllocBuf_single_eq hp.single hout ha
    have hring : ctx1.ring = ctx.ring := by rw [hctx1]; rfl
    have hcalls : Calls _ ctx1 new _ :=
      udpSend_calls conn.addr conn.addrLen none (ctx1.ops new).dataLen
    dsimp only
    generalize ctx1.iouringSubmitUdpSend (some new) conn.addr conn.addrLen none
      (ctx1.ops new).dataLen = out at *
    have hfree : (if out.1 < 0 then (-1, (out.2.ioOpFree new).2) else (0, out.2) :
        Int × IouringCtx).2.ring = out.2.ring := by
      split
      · exact (ioOpFree_ring out.2 new).1
      · rfl
    rw [hfree, ← hring]
    intro hinflight
    rw [hcalls.queues_iff hinflight, hnew]
    have hpool : ctx.ioOpPool ≠ [] := fun hnil => by simpa using hnone.mpr hnil
    simp only [Submission.Accepts, hnew, itemHeir, ne_eq, hpool, not_false_eq_true, true_and]
    rfl

theorem waitRead_spec {c : Cqe} (hreq : ReqOk (ctx.ops c.req.userData) c.req)
    (hcode : c.req.opcode = .read) :
    ((ctx.waitForRecvBody c).1 = .recv c.req.userData ↔
      0 ≤ c.res ∧ ctx.ioOpPool ≠ [] ∧ ctx.bufAddrPool ≠ [] ∧ ctx.ring.Ready) ∧
    ((ctx.waitForRecvBody c).1 = .recv c.req.userData →
      ctx.ioOpPool.length = (ctx.waitForRecvBody c).2.ioOpPool.length + 1 ∧
      (ctx.waitForRecvBody c).2.ring.sqeFree 0 = ctx.ring.sqeFree 1) := by
  by_cases hres : 0 ≤ c.res
  · have htype : ((ctx.modOp c.req.userData fun o => { o with dataLen := c.res }).ops
        c.req.userData).opType = .tunRead := by
      rw [modOp_self, hreq.opType, hcode]
      rfl
    obtain ⟨hiff, hleft⟩ := resubmitRead_spec htype
    rw [hreq.body_single (.inl hcode) hres]
    obtain ⟨hdone, hctx⟩ := waitForRecvDone_iff c.req.userData ((ctx.modOp c.req.userData fun o =>
      { o with dataLen := c.res }).iouringResubmitRecv c.req.userData)
    rw [hdone, hiff]
    refine ⟨⟨fun h => ⟨hres, h⟩, And.right⟩, fun h => ?_⟩
    rw [hctx (hiff.mpr h)]
    exact hleft (hiff.mpr h)
  · rw [waitForRecvBody_error (by omega)]
    exact ⟨⟨fun h => (nomatch h), fun h => absurd h.1 hres⟩, fun h => (nomatch h)⟩

theorem Inv.zero_read_sends {b : BufId} (h : Inv ctx ({op} + held) taken)
    (hp : Pooled (ctx.ops op) b) (htype : (ctx.ops op).opType = .tunRead) (conn : Connection σ)
    (tunFd : Int) :
    ∃ rs, (tunUdpRunZeroBody ctx conn tunFd op).2.2.1.ring.queued = ctx.ring.queued ++ rs ∧
      ((∃ r ∈ rs, r.opcode = .sendmsg) ↔ ctx.ioOpPool ≠ [] ∧
        ((0 < (ctx.ops op).dataLen ∧ 0 ≤ conn.udpFd) ∧ (ctx.ops op).dataLen ≤ bufSize) ∧
        ctx.ring.sqeFree 0 = true) := by
  rcases hsend : Model.tunToUdp conn op ctx with ⟨ret, ctx1⟩
  obtain ⟨rs, hrel⟩ := h.tunToUdp hp hsend
  have heff : Effect ctx (Model.tunToUdp conn op ctx).2 rs := by
    rw [hsend]
    exact hrel.effect
  refine ⟨rs, ?_, ?_⟩
  · simp only [tunUdpRunZeroBody, htype, hsend, freeAndReturn]
    rw [(ioOpFree_ring ctx1 op).1, hrel.effect.queued]
  · rw [← tunToUdp_sends_iff h hp heff]
    constructor
    · rintro ⟨r, hr, -⟩
      exact List.ne_nil_of_mem hr
    · intro hne
      obtain ⟨r, hr⟩ := List.exists_mem_of_ne_nil rs hne
      exact ⟨r, hr, (hrel.entry r hr).carries.opcode⟩

/-- A turn of `tun_udp_run_zero` submits a datagram exactly when it takes a packet
that can be sent. -/
theorem Inv.zero_sends_iff {s : LoopState σ} {conn : Connection σ} {tunFd : Int}
    (h : Inv s.uring held taken) (hprog : s.prog = .tunUdpRunZero conn tunFd) {c : Cqe}
    {cq : List Cqe} (hcq : s.uring.ring.cq = c :: cq) {new : List Sqe}
    (hnew : (takeCqe api s c cq).uring.ring.queued = s.uring.ring.queued ++ new) :
    (∃ r ∈ new, r.opcode = .sendmsg) ↔ CanSend s.uring conn c := by
  have hok := (h.seen_cqeOk hcq).1
  have hread := fun hcode => waitRead_spec hok.req hcode
  revert hnew
  unfold Model.takeCqe
  rcases hstep : (s.uring.iouringCqeSeen c cq).waitForRecvBody c with ⟨step, ctx⟩
  rw [hstep] at hread
  cases h.wait hcq hstep with
  | again _ hout heff _ =>
      intro hnew
      have hnil : new = [] := List.append_cancel_left (hnew.symm.trans heff.queued)
      refine ⟨fun ⟨r, hr, _⟩ => by simp [hnil] at hr, fun hcan => ?_⟩
      rw [hcan.read] at hout
      cases hout
  | null rs heff hin _ =>
      intro hnew
      have hrs : new = rs := List.append_cancel_left (hnew.symm.trans heff.queued)
      refine ⟨fun ⟨r, hr, hsend⟩ => absurd hsend (not_sendmsg (hin r (hrs ▸ hr)).outgoing), ?_⟩
      intro hcan
      have hops : s.uring.ioOpPool ≠ [] := by
        intro hnil
        have htwo := hcan.ops
        rw [hnil] at htwo
        exact absurd htwo (by simp)
      have hrecv := (hread hcan.read).1.mpr ⟨by have := hcan.length; omega, hops, hcan.items,
        hcan.ready⟩
      cases hrecv
  | recv rs got idx hres hin heff hrs hinv hrecv =>
      have hmine : ∀ r ∈ rs, r.opcode ≠ .sendmsg := fun r hr => not_sendmsg (hrs r hr).outgoing
      rcases hbody : s.prog.body api ctx c.req.userData with ⟨ret, rest, ctx', prog'⟩
      simp only [hbody, atLoopHead_eq]
      rw [hprog, Program.body] at hbody
      -- only what the body queues can be a datagram
      have hsplit : ∀ {rs'}, ctx'.ring.queued = ctx.ring.queued ++ rs' →
          ctx'.ring.queued = s.uring.ring.queued ++ new →
          ((∃ r ∈ new, r.opcode = .sendmsg) ↔ ∃ r ∈ rs', r.opcode = .sendmsg) := by
        intro rs' hqueued hnew
        rw [hqueued, heff.queued, List.append_assoc] at hnew
        rw [← List.append_cancel_left hnew]
        constructor
        · rintro ⟨r, hr, hsend⟩
          exact ⟨r, (List.mem_append.mp hr).resolve_left fun hr => hmine r hr hsend, hsend⟩
        · rintro ⟨r, hr, hsend⟩
          exact ⟨r, List.mem_append_right rs hr, hsend⟩
      intro hnew
      rcases hrecv.opType_cases hin with htype | htype
      · have hcode : c.req.opcode = .read := by
          have heq := hrecv.opType
          rw [htype] at heq
          revert heq
          cases c.req.opcode <;> simp [Opcode.opType]
        obtain ⟨hiff, hleft⟩ := hread hcode
        obtain ⟨hlen, hsqe⟩ := hleft rfl
        obtain ⟨_, hops, hitems, hready⟩ := hiff.mp rfl
        cases hrecv with
        | multi _ _ hmulti _ _ _ => rw [hcode] at hmulti; cases hmulti
        | single b _ _ _ hp hdata _ _ =>
            rw [zero_add] at hinv
            obtain ⟨rs', hqueued, hsends⟩ := hinv.zero_read_sends hp htype conn tunFd
            rw [hbody] at hqueued
            rw [hsplit hqueued hnew, hsends, hdata, hsqe]
            have hpool : ctx.ioOpPool ≠ [] ↔ 2 ≤ s.uring.ioOpPool.length := by
              rw [← List.length_pos_iff_ne_nil]
              have hlen : s.uring.ioOpPool.length = ctx.ioOpPool.length + 1 := hlen
              omega
            rw [hpool]
            constructor
            · rintro ⟨htwo, ⟨⟨hpos, hfd⟩, hle⟩, hentry⟩
              exact ⟨hcode, ⟨hpos, hle⟩, hfd, htwo, hitems, hready, hentry⟩
            · intro hcan
              exact ⟨hcan.ops, ⟨⟨hcan.length.1, hcan.fd⟩, hcan.length.2⟩, hcan.entry⟩
      · obtain ⟨rs', -, hh⟩ := hinv.tunUdpRunZeroBody_recv hrecv htype rfl hbody
        rw [hsplit hh.effect.queued hnew]
        refine iff_of_false ?_ fun hcan => ?_
        · rintro ⟨r, hr, hsend⟩
          rw [(hh.entry r hr).opcode] at hsend
          cases hsend
        · have hudp := hrecv.opType
          rw [htype, hcan.read] at hudp
          cases hudp

/-! ## The handshake before the first datagram -/

variable {Fresh : σ → Prop}

/-- An SSL server that has read nothing sends nothing and goes on waiting. -/
theorem call_unread (hsilent : Silent api Fresh) {s : HandshakeState σ}
    (h : s.conn.Unread Fresh) : (s.call api).uring = s.uring ∧ (s.call api).conn.Unread Fresh ∧
      (s.call api).pc ≠ .returned 0 := by
  have hwaits := hsilent.waits _ h.ssl
  have hafter : (s.conn.after (api.doHandshake s.conn.ssl [])).Unread Fresh := by
    refine ⟨hsilent.fresh _ h.ssl, hsilent.rbio _ h.ssl, ?_⟩
    simp [Connection.after, h.wbio, hsilent.out _ h.ssl]
  unfold HandshakeState.call
  simp only [h.rbio, hafter.wbio, List.length_nil, if_true]
  unfold HandshakeState.conclude
  rw [if_neg hwaits]
  repeat' split
  all_goals exact ⟨rfl, hafter, by simp⟩

theorem HandshakeSound.led_step (hsilent : Silent api Fresh) {s : HandshakeState σ}
    (h : HandshakeSound s)
    (hled : s.conn.addrLen = 0 → s.conn.Unread Fresh ∧ s.pc ≠ .returned 0) (e : HandshakeEvent) :
    (s.step api e).conn.addrLen = 0 →
      (s.step api e).conn.Unread Fresh ∧ (s.step api e).pc ≠ .returned 0 := by
  cases e with
  | kernel e => exact hled
  | waitError =>
      simp only [HandshakeState.step]
      split
      · exact fun hzero => ⟨(hled hzero).1, by simp⟩
      · exact hled
  | call =>
      intro hzero
      have hpeer : (s.step api .call).conn.peer = s.conn.peer := HandshakeSound.peer h (by simp)
      have hbefore : s.conn.addrLen = 0 := (congrArg Peer.addrLen hpeer).symm.trans hzero
      obtain ⟨hunread, hpc⟩ := hled hbefore
      simp only [HandshakeState.step]
      split
      · exact (call_unread hsilent hunread).2
      · exact ⟨hunread, hpc⟩
  | wake =>
      simp only [HandshakeState.step]
      split
      · rename_i c cq hpc hcq
        obtain ⟨⟨held, taken, hinv⟩, hreqs⟩ := h (by rw [hpc]; simp)
        obtain ⟨ins, -, -, hconsumed⟩ := hinv.consume hreqs hpc hcq
        have hkept : (s.takeCqe c cq).conn = s.conn → (s.takeCqe c cq).pc ≠ .returned 0 →
            (s.takeCqe c cq).conn.addrLen = 0 → (s.takeCqe c cq).conn.Unread Fresh ∧
              (s.takeCqe c cq).pc ≠ .returned 0 := by
          intro hconn hpc' hzero
          rw [hconn] at hzero ⊢
          exact ⟨(hled hzero).1, hpc'⟩
        cases hconsumed with
        | sent _ hconn hpc' _ => exact hkept hconn (by rw [hpc']; simp)
        | stopped hconn hpc' => exact hkept hconn (by rw [hpc']; simp)
        | foreign _ _ _ _ _ hconn hpc' _ => exact hkept hconn (by rw [hpc']; simp)
        | own mid got idx _ hin _ hrecv hconn hpc' _ =>
            intro hzero
            have htype : (mid.ops c.req.userData).opType = .udpRecv := by
              rw [hrecv.opType]
              apply (hreqs.seen hcq).1.resolve_left
              intro hsend
              rw [hsend] at hin
              cases hin
            have hpos := hrecv.addrLen htype
            rw [hconn] at hzero
            simp only [learnAddr] at hzero
            split at hzero
            · have hnone : (mid.ops c.req.userData).addrLen = 0 := hzero
              omega
            · rename_i hne
              exact absurd hzero hne
      · exact hled

theorem takeCqe_zero {s : LoopState σ} {conn : Connection σ} {tunFd : Int}
    (hprog : s.prog = .tunUdpRunZero conn tunFd) (c : Cqe) (cq : List Cqe) :
    ∃ conn', (takeCqe api s c cq).prog = .tunUdpRunZero conn' tunFd := by
  unfold Model.takeCqe
  rcases (s.uring.iouringCqeSeen c cq).waitForRecvBody c with ⟨step, ctx⟩
  cases step with
  | again => exact ⟨conn, hprog⟩
  | null => exact ⟨conn, hprog⟩
  | recv op =>
      simp only [hprog, Program.body, tunUdpRunZeroBody, atLoopHead_eq]
      split <;> exact ⟨_, rfl⟩

theorem start_led {prog : Program σ} {ctx : IouringCtx} {running : Bool}
    (h : ∀ p ∈ prog.peers, 0 < p.addrLen) :
    (Session.loop (.start ctx prog running)).Led Fresh := by
  right
  rw [start_prog]
  exact h

theorem Wired.led_step (hsilent : Silent api Fresh) {s : Session σ} (h : s.Wired sockets)
    (hled : s.Led Fresh) (e : SessionEvent) : (s.step api e).Led Fresh := by
  cases s with
  | handshake stage s running =>
      obtain ⟨hconn, hstage⟩ := hled
      have hstep : ∀ e, (Session.handshake stage (s.step api e) running).Led Fresh :=
        fun e => ⟨HandshakeSound.led_step hsilent h.good hconn e, hstage⟩
      cases e with
      | stop => exact ⟨hconn, hstage⟩
      | proceed =>
          simp only [Session.step]
          split
          · rename_i hpc
            have hpos : 0 < s.conn.addrLen := by
              by_contra hnot
              exact (hconn (by omega)).2 hpc
            cases stage with
            | inbound other =>
                refine ⟨fun hzero => ⟨hstage hzero, by simp [HandshakeState.start]⟩, hpos⟩
            | outbound other =>
                apply start_led
                simp only [Program.peers, List.mem_cons, List.not_mem_nil, or_false]
                rintro p (rfl | rfl)
                · exact hstage
                · exact hpos
            | edge tunFd =>
                unfold Session.proceed
                dsimp only
                split
                · trivial
                · apply start_led
                  simp only [Program.peers, List.mem_singleton]
                  rintro p rfl
                  exact hpos
          · exact ⟨hconn, hstage⟩
      | call => exact hstep .call
      | kernel e => exact hstep (.kernel e)
      | wake => exact hstep .wake
      | waitError => exact hstep .waitError
  | loop s =>
      have hmoved : (Session.loop s).Moved e ((Session.loop s).step api e) := Wired.moved api h e
      simp only [Session.step] at hmoved ⊢
      cases he : e.loop with
      | none => exact hled
      | some e' =>
        simp only [he] at hmoved
        rcases hled with ⟨conn, tunFd, hprog⟩ | hpos
        · left
          cases e' with
          | kernel e => exact ⟨conn, tunFd, hprog⟩
          | stop => exact ⟨conn, tunFd, hprog⟩
          | waitError =>
              simp only [LoopState.step]
              split <;> exact ⟨conn, tunFd, hprog⟩
          | wake =>
              simp only [LoopState.step, LoopState.wake]
              split
              · obtain ⟨conn', hprog'⟩ := takeCqe_zero hprog _ _
                exact ⟨conn', tunFd, hprog'⟩
              · exact ⟨conn, tunFd, hprog⟩
        · right
          cases hmoved with
          | kept hpeers _ =>
              intro p hp
              have hp' : p ∈ (Session.loop s).peers := by
                rw [← hpeers]
                exact hp
              exact hpos p hp'
          | ended uring heq => cases heq
          | learnt i p _ _ _ _ _ hp hzero _ _ _ _ =>
              have hne := hpos p (List.mem_of_getElem? hp)
              omega
  | returned uring => cases e <;> trivial

/-! ## Where the addresses of a session come from -/

variable {prog : Program σ}

/-- Every peer is as it was at the start, or it has learnt its address from a
datagram taken since. -/
def Traced (prog : Program σ) (s : Session σ) : Prop :=
  ∀ (i : Nat) (p : Peer), s.peers[i]? = some p → ∃ first : Peer, prog.peers[i]? = some first ∧
    p.udpFd = first.udpFd ∧ (p = first ∨ first.addrLen = 0 ∧ 0 < p.addrLen ∧
      ∃ c ∈ s.uring.ring.seen, c.Datagram first.udpFd ∧ (c.Addressed → p = first.learn c.source))

theorem Traced.step {s : Session σ} (h : Traced prog s) (hs : s.Wired sockets)
    (e : SessionEvent) : Traced prog (s.step api e) := by
  obtain ⟨cs, hseen, htaken⟩ := Wired.seen api hs e
  intro i p' hp'
  obtain ⟨p, hp, hmoved⟩ := Moved.peer (Wired.moved api hs e) hp'
  obtain ⟨first, hfirst, hfd, hfrom⟩ := h i p hp
  refine ⟨first, hfirst, ?_⟩
  rw [hseen]
  cases hmoved with
  | kept heq _ =>
      subst heq
      refine ⟨hfd, hfrom.imp_right ?_⟩
      rintro ⟨hzero, hpos, c, hc, hrest⟩
      exact ⟨hzero, hpos, c, List.mem_append_left cs hc, hrest⟩
  | learnt c cq hcq htakes hd hzero hfd' hpos hlearn =>
      rcases hfrom with rfl | ⟨_, hpos', _⟩
      · have hc := List.mem_append_right s.uring.ring.seen (htaken i c cq htakes hcq)
        exact ⟨hfd', .inr ⟨hzero, hpos, c, hc, hd, hlearn⟩⟩
      · omega

theorem Traced.destined {s : Session σ} (h : Traced prog s) {p : Peer} (hp : p ∈ s.peers)
    (hpos : 0 < p.addrLen) {r : Sqe} (hr : p.Addresses r) :
    Model.Destined prog s.uring.ring r := by
  obtain ⟨i, hi⟩ := List.mem_iff_getElem?.mp hp
  obtain ⟨first, hfirst, hfd, hfrom⟩ := h i p hi
  refine ⟨by rw [hr.namelen]; exact hpos, first, List.mem_of_getElem? hfirst, ?_⟩
  rcases hfrom with rfl | ⟨hzero, _, c, hc, hd, hlearn⟩
  · exact .inl ⟨hpos, hr⟩
  · refine .inr ⟨hzero, hr.fd.trans hfd, c, hc, hd, fun haddressed => ?_⟩
    obtain rfl := hlearn haddressed
    refine ⟨hr.namelen, ?_⟩
    have hname := hr.name (by simp [Peer.learn])
    rw [hname]
    exact Bytes.take_overwrite first.addr c.source

theorem Destined.mono {ring ring' : IoUring} {r : Sqe} (h : Model.Destined prog ring r)
    {cs : List Cqe} (hseen : ring'.seen = ring.seen ++ cs) : Model.Destined prog ring' r := by
  obtain ⟨hpos, first, hfirst, hfrom⟩ := h
  refine ⟨hpos, first, hfirst, hfrom.imp_right ?_⟩
  rintro ⟨hzero, hfd, c, hc, hrest⟩
  exact ⟨hzero, hfd, c, by rw [hseen]; exact List.mem_append_left cs hc, hrest⟩

/-! ## A step -/

theorem Wired.addressed_sends (hsilent : Silent api Fresh) {s : Session σ} (hs : s.Wired sockets)
    (hled : s.Led Fresh) {e : SessionEvent} (hsighted : ¬ s.SendsBlind e) {new : List Sqe}
    (hnew : (s.step api e).uring.ring.queued = s.uring.ring.queued ++ new) {r : Sqe} (hr : r ∈ new)
    (hsend : r.opcode = .sendmsg) : ∃ p ∈ s.peers, 0 < p.addrLen ∧ p.Addresses r := by
  obtain ⟨new', hqueued, hpeers⟩ := Wired.sends api hs e
  obtain rfl : new = new' := List.append_cancel_left (hnew.symm.trans hqueued)
  obtain ⟨p, hp, haddr⟩ := hpeers r hr hsend
  refine ⟨p, senders_subset hp, ?_, haddr⟩
  rw [Nat.pos_iff_ne_zero]
  intro hzero
  cases s with
  | handshake stage s running =>
      cases e with
      | call =>
          rw [List.mem_singleton.mp hp] at hzero
          have hunread := (hled.1 hzero).1
          have hsame : (s.step api .call).uring = s.uring := by
            simp only [HandshakeState.step]
            split
            · exact (call_unread hsilent hunread).1
            · rfl
          have hnil : new = [] := by
            apply List.append_right_eq_self.mp
            rw [← hnew]
            exact congrArg (fun ctx => ctx.ring.queued) hsame
          rw [hnil] at hr
          cases hr
      | _ => cases hp
  | loop s =>
      cases e with
      | wake =>
          rcases hled with ⟨conn, tunFd, hprog⟩ | hpos
          · have hconn : p = conn.peer := by
              simpa [Session.senders, hprog, Program.peers] using hp
            rw [hconn] at hzero
            simp only [Session.step, SessionEvent.loop, LoopState.step, LoopState.wake] at hnew
            split at hnew
            · rename_i c cq hstatus hcq
              obtain ⟨held, taken, hinv⟩ := hs.good (by rw [hstatus]; rfl)
              have hcan := (hinv.zero_sends_iff hprog hcq hnew).mp ⟨r, hr, hsend⟩
              exact hsighted ⟨rfl, s, conn, tunFd, c, cq, rfl, hprog, hzero, hstatus, hcq, hcan⟩
            · have hnil : new = [] := List.append_right_eq_self.mp hnew.symm
              rw [hnil] at hr
              cases hr
          · have hne := hpos p hp
            omega
      | _ => cases hp
  | returned uring => cases e <;> cases hp

theorem Wired.blind_sends {s : Session σ} (hs : s.Wired sockets) {e : SessionEvent}
    (hblind : s.SendsBlind e) : ¬ (s.step api e).Destined prog := by
  obtain ⟨rfl, ls, conn, tunFd, c, cq, rfl, hprog, hzero, hstatus, hcq, hcan⟩ := hblind
  obtain ⟨new, hqueued, hpeers⟩ := Wired.sends api hs .wake
  have hstep : (Session.loop ls).step api .wake = .loop (takeCqe api ls c cq) := by
    simp only [Session.step, SessionEvent.loop, LoopState.step, LoopState.wake, hstatus, hcq]
  obtain ⟨held, taken, hinv⟩ := hs.good (by rw [hstatus]; rfl)
  have hnew : (takeCqe api ls c cq).uring.ring.queued = ls.uring.ring.queued ++ new := by
    rw [hstep] at hqueued
    exact hqueued
  obtain ⟨r, hr, hsend⟩ := (hinv.zero_sends_iff hprog hcq hnew).mpr hcan
  obtain ⟨p, hp, haddr⟩ := hpeers r hr hsend
  have hconn : p = conn.peer := by
    simpa [Session.senders, hprog, Program.peers] using hp
  intro hdestined
  have hmem : r ∈ ((Session.loop ls).step api .wake).uring.ring.queued := by
    rw [hqueued]
    exact List.mem_append_right _ hr
  have hpos := (hdestined r hmem hsend).positive
  rw [haddr.namelen, hconn] at hpos
  exact absurd hpos (by simp [Connection.peer, hzero])

/-! ## The start -/

theorem Inv.armReceives_queued {fds : List Int} (h : Inv ctx held taken)
    (hres : armReceives true ctx fds = some ctx')
    (hin : ∀ r ∈ ctx.ring.queued, r.opcode.outgoing = false) :
    ∀ r ∈ ctx'.ring.queued, r.opcode.outgoing = false := by
  have hall : Inv ctx' held taken ∧ ∀ r ∈ ctx'.ring.queued, r.opcode.outgoing = false := by
    apply armReceives_rule (P := fun _ mid => Inv mid held taken ∧
      ∀ r ∈ mid.ring.queued, r.opcode.outgoing = false) _ hres ⟨h, hin⟩
    rintro fd left mid mid1 hsub ⟨hinv, hmid⟩
    obtain ⟨rs, heff, hrs, hinv'⟩ := hinv.iouringSubmitMultishotRecvmsg hsub
    refine ⟨hinv', fun r hr => ?_⟩
    rw [heff.queued] at hr
    exact (List.mem_append.mp hr).elim (hmid r) fun hr => (hrs r hr).outgoing
  exact hall.2

theorem session_start_queued {config : IouringConfig} {sqeFree : Nat → Bool} {submits : Nat → Int}
    {running : Bool} {s : Session σ}
    (hstart : Session.start (IouringCtx.iouringInit config sqeFree submits) prog running = some s) :
    ∀ r ∈ s.uring.ring.queued, r.opcode.outgoing = false := by
  have hinit := inv_iouringInit config sqeFree submits
  have hnone : ∀ r ∈ (IouringCtx.iouringInit config sqeFree submits).ring.queued,
      r.opcode.outgoing = false := by
    intro r hr
    cases hr
  cases started_of_start hstart with
  | edge conn tunFd harm => exact hinit.armReceives_queued harm hnone
  | zero conn tunFd hsub =>
      obtain ⟨rs, heff, hrs, -⟩ := hinit.initialSubmissions hsub
      rw [Session.uring, start_uring, heff.queued]
      intro r hr
      rcases List.mem_append.mp hr with hr | hr
      · exact hnone r hr
      · obtain ⟨_, _, hin⟩ := hrs r hr
        exact hin.outgoing
  | forwarder inbound outbound harm => exact hinit.armReceives_queued harm hnone

theorem session_start_led {config : IouringConfig} {sqeFree : Nat → Bool} {submits : Nat → Int}
    {running : Bool} {s : Session σ}
    (hstart : Session.start (IouringCtx.iouringInit config sqeFree submits) prog running = some s)
    (hfresh : ∀ conn ∈ prog.handshakes, conn.addrLen = 0 → conn.Unread Fresh) : s.Led Fresh := by
  cases started_of_start hstart with
  | edge conn tunFd _ =>
      refine ⟨fun hzero => ⟨hfresh conn (by simp [Program.handshakes]) hzero, ?_⟩, trivial⟩
      simp [HandshakeState.start]
  | zero conn tunFd _ => exact .inl ⟨conn, tunFd, start_prog _ _ _⟩
  | forwarder inbound outbound _ =>
      refine ⟨fun hzero => ⟨hfresh inbound (by simp [Program.handshakes]) hzero, ?_⟩,
        hfresh outbound (by simp [Program.handshakes])⟩
      simp [HandshakeState.start]

/-! ## Every run -/

/-- With SSL servers that are silent until they have read a datagram, every
datagram that a session submits has an address, one known at the start or learnt
from a datagram taken, exactly when `tun_udp_run_zero` never takes a packet that
can be sent before it has learnt an address. -/
theorem sessions_destined_iff (api : Ssl σ) (config : IouringConfig) (sqeFree : Nat → Bool)
    (submits : Nat → Int) (prog : Program σ) (running : Bool) {start : Session σ}
    (hstart : Session.start (IouringCtx.iouringInit config sqeFree submits) prog running =
      some start) {Fresh : σ → Prop} (hsilent : Silent api Fresh)
    (hfresh : ∀ conn ∈ prog.handshakes, conn.addrLen = 0 → conn.Unread Fresh)
    (es : List SessionEvent) :
    Execution.Always (Session.step api) (Session.Destined prog) start es ↔
      Execution.Steps (Session.step api) (fun s e => ¬ s.SendsBlind e) start es := by
  apply Execution.always_iff_steps (fun s : Session σ =>
    s.Wired prog.sockets ∧ s.Led Fresh ∧ Traced prog s ∧ s.Destined prog)
  · exact fun s hs => hs.2.2.2
  · rintro s e ⟨hs, hled, htraced, hdestined⟩ hsighted
    refine ⟨Wired.step hs e, Wired.led_step hsilent hs hled e, htraced.step hs e, ?_⟩
    obtain ⟨new, hqueued, -⟩ := Wired.sends api hs e
    obtain ⟨cs, hseen, -⟩ := Wired.seen api hs e
    intro r hr hsend
    rw [hqueued] at hr
    rcases List.mem_append.mp hr with hr | hr
    · exact Destined.mono (hdestined r hr hsend) hseen
    · obtain ⟨p, hp, hpos, haddr⟩ :=
        Wired.addressed_sends hsilent hs hled hsighted hqueued hr hsend
      exact Destined.mono (htraced.destined hp hpos haddr) hseen
  · rintro s e ⟨hs, -, -, -⟩ hdestined hblind
    exact Wired.blind_sends hs hblind hdestined
  · refine ⟨wired_start config sqeFree submits hstart, session_start_led hstart hfresh, ?_, ?_⟩
    · intro i p hp
      rw [session_start_peers hstart] at hp
      exact ⟨p, hp, rfl, .inl rfl⟩
    · intro r hr hsend
      exact absurd hsend (not_sendmsg (session_start_queued hstart r hr))

def packetFirst : List SessionEvent := [.kernel (.complete 1 3 [1, 2, 3] [] 0), .wake]

/-- The server sends it to an empty address. -/
theorem packetFirst_not_destined : ∃ start,
    Session.start (IouringCtx.iouringInit smallConfig (fun _ => true) fun _ => 1)
      (.tunUdpRunZero smallServer 5) true = some start ∧
    ¬ Execution.Always (Session.step plainSsl) (Session.Destined (.tunUdpRunZero smallServer 5))
      start packetFirst := by
  refine ⟨_, rfl, fun h => ?_⟩
  have hpos := fun r hr hsend => (h.last r hr hsend).positive
  revert hpos
  decide

/-- An SSL server that waits for a datagram and answers it. -/
def answeringSsl : Ssl Unit where
  doHandshake := fun _ rbio =>
    if rbio = [] then ⟨-1, .wantRead, [], [], [], ()⟩ else ⟨1, .none, [], [], [20], ()⟩
  read := fun _ rbio _ => ⟨-1, .wantRead, [], rbio, [], ()⟩
  write := fun _ rbio _ => ⟨-1, .other, [], rbio, [], ()⟩

theorem answeringSsl_silent : Silent answeringSsl fun _ => True where
  fresh _ _ := trivial
  rbio _ _ := rfl
  out _ _ := rfl
  waits _ _ := by simp [answeringSsl]

def answered : List SessionEvent :=
  [.call, .kernel (.recv 0 1 147
      (recvmsgOut 128 [10, 0, 0, 1] (List.replicate 124 0) [1, 2, 3]) true 0), .wake, .call]

theorem sessions_destined_answered : ∃ start,
    Session.start (IouringCtx.iouringInit smallConfig (fun _ => true) fun _ => 1)
      (.tunUdpRun smallServer 5) true = some start ∧
    Execution.Always (Session.step answeringSsl) (Session.Destined (.tunUdpRun smallServer 5))
      start answered := by
  refine ⟨_, rfl, (sessions_destined_iff answeringSsl smallConfig (fun _ => true) (fun _ => 1)
    (.tunUdpRun smallServer 5) true rfl answeringSsl_silent ?_ answered).mpr ?_⟩
  · rintro conn hconn -
    rw [List.mem_singleton.mp hconn]
    exact ⟨trivial, rfl, rfl⟩
  · refine ⟨?_, ?_, ?_, ?_, trivial⟩
    all_goals
      rintro ⟨-, ls, _, _, _, _, heq, -⟩
      cases heq

end Dataplane.Proofs
