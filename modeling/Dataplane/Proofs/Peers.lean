import Dataplane.Proofs.Capacity
import Dataplane.Proofs.Datagram
import Dataplane.Proofs.Flights

/-!
# Peers

The peer of a connection is its socket with the address that its datagrams go
to.  A step of a session keeps the peers, or the connection that waits for
datagrams learns its address from the one that it takes.
-/

namespace Dataplane.Model

open ProofSupport Proofs

variable {σ : Type}

structure Peer where
  udpFd : Int
  addr : Bytes
  addrLen : Nat
  deriving DecidableEq

def Peer.learn (p : Peer) (source : Bytes) : Peer :=
  ⟨p.udpFd, Bytes.overwrite p.addr source, source.length⟩

structure Peer.Addresses (p : Peer) (r : Sqe) : Prop where
  fd : r.fd = p.udpFd
  namelen : r.msgNamelen = p.addrLen
  name : p.addrLen ≤ p.addr.length → r.name = p.addr.take p.addrLen

def Connection.peer (conn : Connection σ) : Peer := ⟨conn.udpFd, conn.addr, conn.addrLen⟩

def Program.peers : Program σ → List Peer
  | .tunUdpRun conn _ | .tunUdpRunZero conn _ => [conn.peer]
  | .forwarderRun inbound outbound => [inbound.peer, outbound.peer]

def Stage.peers (conn : Connection σ) : Stage σ → List Peer
  | .edge _ => [conn.peer]
  | .inbound other => [conn.peer, other.peer]
  | .outbound other => [other.peer, conn.peer]

def Stage.index : Stage σ → Nat
  | .edge _ | .inbound _ => 0
  | .outbound _ => 1

namespace Session

def peers : Session σ → List Peer
  | .handshake stage s _ => stage.peers s.conn
  | .loop s => s.prog.peers
  | .returned _ => []

def learner : Session σ → Option Nat
  | .handshake stage s _ => if s.pc = .waiting then some stage.index else none
  | .loop s =>
      match s.prog with
      | .tunUdpRunZero _ _ => if s.status = .waiting then some 0 else none
      | _ => none
  | .returned _ => none

def senders : Session σ → SessionEvent → List Peer
  | .handshake _ s _, .call => [s.conn.peer]
  | .loop s, .wake => s.prog.peers
  | _, _ => []

/-- The session takes nothing any more. -/
def Stuck : Session σ → Prop
  | .handshake _ s _ => s.pc = .returned (-1)
  | .loop s => s.status ≠ .waiting
  | .returned _ => True

end Session

namespace Cqe

/-- The source address that stands in front of the payload of a datagram. -/
def source (c : Cqe) : Bytes := (c.data.drop sizeofRecvmsgOut).take (Bytes.readLe32 c.data)

/-- The completion of a receive as the kernel reports it: the result is what it
put into memory, and the address fits its place there. -/
structure Addressed (c : Cqe) : Prop where
  honest : c.Honest
  namelen : Bytes.readLe32 c.data ≤ sizeofSockaddrStorage

def Datagram (c : Cqe) (fd : Int) : Prop :=
  c.req.opcode.opType = .udpRecv ∧ c.req.fd = fd ∧ (slotHeader : Int) < c.res

instance (c : Cqe) (fd : Int) : Decidable (c.Datagram fd) :=
  inferInstanceAs (Decidable (_ ∧ _))

end Cqe

/-- The event makes the session take a datagram with a payload for the peer `i`,
which would learn its address from it. -/
def Session.takes (i : Nat) (s : Session σ) : SessionEvent → Bool
  | .wake => decide (s.learner = some i) &&
      match s.peers[i]?, s.uring.ring.cq with
      | some p, c :: _ => decide (c.Datagram p.udpFd)
      | _, _ => false
  | _ => false

end Dataplane.Model

namespace Dataplane.Proofs

open ProofSupport Model Ledger

variable {σ : Type} {api : Ssl σ} {ctx ctx' : IouringCtx} {held got : Multiset OpId}
  {taken idx : Multiset Nat}

/-! ## The source of a datagram -/

theorem readLe32_take (bytes : Bytes) {n : Nat} (h : 4 ≤ n) :
    Bytes.readLe32 (bytes.take n) = Bytes.readLe32 bytes := by
  obtain ⟨m, rfl⟩ : ∃ m, n = m + 4 := ⟨n - 4, by omega⟩
  match bytes with
  | [] => rfl
  | [_] => rfl
  | [_, _] => rfl
  | [_, _, _] => rfl
  | _ :: _ :: _ :: _ :: _ => rfl

theorem Received.source {c : Cqe} {op : OpId} (h : Received ctx c op got idx)
    (hcode : c.req.opcode = .recvmsgMultishot) (hc : c.Addressed) :
    ctx.load (ctx.ops op).addr (ctx.ops op).addrLen = c.source ∧
      (ctx.ops op).addrLen = c.source.length := by
  cases h with
  | single _ _ _ hsingle _ _ _ _ => exact absurd hcode hsingle
  | multi _ _ _ hpres _ hslot =>
      have hpos := hpres.pos
      rw [hpres.dataLen, hc.honest] at hpos
      have hlong : slotHeader < c.data.length := by omega
      have hheader : slotHeader = sizeofRecvmsgOut + sizeofSockaddrStorage := rfl
      have hfour : 4 ≤ sizeofRecvmsgOut := by decide
      have hlen : (ctx.ops op).addrLen = Bytes.readLe32 c.data := by
        rw [hpres.addrLen, ← hslot, readLe32_take _ (by omega)]
      have hroom := hc.namelen
      have hload : ctx.load (ctx.ops op).addr (ctx.ops op).addrLen = c.source := by
        rw [hpres.addr, hlen, Cqe.source]
        calc ((ctx.brBufs c.flags.bid).drop sizeofRecvmsgOut).take (Bytes.readLe32 c.data)
            = (((ctx.brBufs c.flags.bid).take c.data.length).drop sizeofRecvmsgOut).take
                (Bytes.readLe32 c.data) := by
              rw [List.drop_take, List.take_take, Nat.min_eq_left (by omega)]
          _ = (c.data.drop sizeofRecvmsgOut).take (Bytes.readLe32 c.data) := by rw [hslot]
      refine ⟨hload, ?_⟩
      rw [hlen, Cqe.source, List.length_take, List.length_drop]
      omega

theorem Received.nonEmpty {c : Cqe} {op : OpId} (h : Received ctx c op got idx)
    (hcode : c.req.opcode = .recvmsgMultishot) : (slotHeader : Int) < c.res := by
  cases h with
  | single _ _ _ hsingle _ _ _ _ => exact absurd hcode hsingle
  | multi _ _ _ hpres _ _ =>
      have hpos := hpres.pos
      rw [hpres.dataLen] at hpos
      omega

theorem Received.learn {c : Cqe} {op : OpId} (h : Received ctx c op got idx)
    (hcode : c.req.opcode = .recvmsgMultishot) {conn : Connection σ} (hzero : conn.addrLen = 0) :
    (learnAddr ctx conn op).2.peer.udpFd = conn.udpFd ∧
      0 < (learnAddr ctx conn op).2.peer.addrLen ∧
      (c.Addressed → (learnAddr ctx conn op).2.peer = conn.peer.learn c.source) := by
  have htype : (ctx.ops op).opType = .udpRecv := by
    rw [h.opType, hcode]
    rfl
  have hpos := h.addrLen htype
  rw [learnAddr, if_pos hzero]
  refine ⟨rfl, hpos, fun hc => ?_⟩
  obtain ⟨hload, hlen⟩ := h.source hcode hc
  rw [hlen] at hload
  simp only [Connection.peer, Peer.learn, hlen, hload]

/-! ## The bodies -/

theorem SameConn.peer {conn conn' : Connection σ} (h : SameConn conn conn') :
    conn'.peer = conn.peer := by
  simp only [Connection.peer, h.udpFd, h.addr, h.addrLen]

theorem dtlsEncryptAndSendUdp_peer (api : Ssl σ) (conn : Connection σ) (data : Bytes)
    (ctx : IouringCtx) : (dtlsEncryptAndSendUdp api conn data ctx).2.2.peer = conn.peer := by
  have hsame := SameConn.peer (dtlsEncryptPacket_sameConn api conn data bufSize)
  unfold dtlsEncryptAndSendUdp
  dsimp only
  repeat' split
  all_goals first | rfl | exact hsame

theorem dtlsDecryptAndWriteTun_peer (api : Ssl σ) (conn : Connection σ) (tunFd : Int)
    (encrypted : Bytes) (len : Int) (ctx : IouringCtx) :
    (dtlsDecryptAndWriteTun api conn tunFd encrypted len ctx).2.2.peer = conn.peer := by
  have hsame := SameConn.peer (dtlsDecryptPacket_sameConn api conn encrypted len bufSize)
  unfold dtlsDecryptAndWriteTun
  dsimp only
  repeat' split
  all_goals first | rfl | exact hsame

theorem forwardBetween_peer (api : Ssl σ) (ctx : IouringCtx) (recvConn forwardConn : Connection σ)
    (data : Bytes) (len : Int) :
    (forwardBetween api ctx recvConn forwardConn data len).2.2.1.peer = recvConn.peer ∧
      (forwardBetween api ctx recvConn forwardConn data len).2.2.2.peer = forwardConn.peer := by
  have hdec := SameConn.peer (dtlsDecryptPacket_sameConn api recvConn data len bufSize)
  have hsend := dtlsEncryptAndSendUdp_peer api forwardConn
    (recvConn.dtlsDecryptPacket api data len bufSize).2.1 ctx
  unfold forwardBetween
  dsimp only
  split
  · exact ⟨hdec, rfl⟩
  · exact ⟨hdec, hsend⟩

theorem forwardUdpPacket_peer (api : Ssl σ) (ctx : IouringCtx) (inbound outbound : Connection σ)
    (op : OpId) : (forwardUdpPacket api ctx inbound outbound op).2.2.1.peer = inbound.peer ∧
      (forwardUdpPacket api ctx inbound outbound op).2.2.2.peer = outbound.peer := by
  unfold forwardUdpPacket
  dsimp only
  split
  · exact ⟨rfl, rfl⟩
  split
  · apply forwardBetween_peer
  · exact And.comm.mp (forwardBetween_peer api ctx outbound inbound _ _)

theorem tunUdpRunZeroBody_peers (ctx : IouringCtx) (conn : Connection σ) (tunFd : Int) {op : OpId}
    (htype : (ctx.ops op).opType = .udpRecv) :
    (tunUdpRunZeroBody ctx conn tunFd op).2.2.2.peers = [(learnAddr ctx conn op).2.peer] := by
  unfold tunUdpRunZeroBody
  simp only [htype]
  rfl

theorem body_peers (api : Ssl σ) (ctx : IouringCtx) (op : OpId) {prog : Program σ}
    (hother : ∀ conn tunFd, prog = .tunUdpRunZero conn tunFd → (ctx.ops op).opType ≠ .udpRecv) :
    (prog.body api ctx op).2.2.2.peers = prog.peers := by
  cases prog with
  | tunUdpRun conn tunFd =>
      simp only [Program.body, tunUdpRunBody]
      split
      · simp only [freeAndReturn, Program.peers, dtlsEncryptAndSendUdp_peer]
      · simp only [freeAndReturn, Program.peers, dtlsDecryptAndWriteTun_peer]
      · rfl
  | tunUdpRunZero conn tunFd =>
      simp only [Program.body, tunUdpRunZeroBody]
      split
      · rfl
      · rename_i htype
        exact absurd htype (hother conn tunFd rfl)
      · rfl
  | forwarderRun inbound outbound =>
      obtain ⟨hin, hout⟩ := forwardUdpPacket_peer api ctx inbound outbound op
      simp only [Program.body, forwarderRunBody]
      split
      · rfl
      · split <;> simp only [freeAndReturn, Program.peers, hin, hout]

/-! ## Where a datagram may come from -/

/-- With its receives armed a session takes datagrams from its own sockets only,
each out of a slot of the buffer ring. -/
theorem Inv.armed_datagram (h : Inv ctx held taken) {k : Nat} {fd : Int} {sockets : List Int}
    (harmed : receives ctx.ring.outstanding = Multiset.replicate k (.read, fd) + multishots sockets)
    {c : Cqe} (hc : c ∈ ctx.ring.cq) (htype : c.req.opcode.opType = .udpRecv) :
    c.req.opcode = .recvmsgMultishot ∧ c.req.fd ∈ sockets := by
  obtain ⟨hposted, hok⟩ := h.cq c hc
  have hreq := mem_requests_of_posted hposted
  rw [← outstanding_requests] at hreq
  obtain ⟨r, hr, huser⟩ := List.mem_map.mp (Multiset.mem_coe.mp hreq)
  have hrok := (h.outstanding_reqOk hr).2
  rw [huser] at hrok
  have hrtype : r.opcode.opType = .udpRecv := by
    rw [← hrok.opType, hok.req.opType, htype]
  have hin : r.opcode.outgoing = false := by
    revert hrtype
    cases r.opcode <;> simp [Opcode.opType, Opcode.outgoing]
  have hmem : (r.opcode, r.fd) ∈ receives ctx.ring.outstanding := by
    apply Multiset.mem_coe.mpr
    exact List.mem_map.mpr ⟨r, List.mem_filter.mpr ⟨hr, by simp [hin]⟩, rfl⟩
  rw [harmed] at hmem
  rcases Multiset.mem_add.mp hmem with hread | hmulti
  · have heq := Multiset.eq_of_mem_replicate hread
    rw [(Prod.mk.inj heq).1] at hrtype
    cases hrtype
  · obtain ⟨fd', hfd', heq⟩ := List.mem_map.mp (Multiset.mem_coe.mp hmulti)
    obtain ⟨hcode, rfl⟩ := Prod.mk.inj heq
    have hmultishot : Multi (ctx.ops c.req.userData) := hrok.multi hcode.symm
    refine ⟨?_, by rwa [← hok.req.fd, hrok.fd]⟩
    by_contra hne
    have hsingle := hok.req.single hne
    rw [hmultishot.multi] at hsingle
    cases hsingle

end Dataplane.Proofs

namespace Dataplane.Model

variable {σ : Type}

/-- What the event `e` does to the peers of a session: they stay, or the one
that waits for datagrams learns its address, or the session is over. -/
inductive Session.Moved (s : Session σ) (e : SessionEvent) (s' : Session σ) : Prop
  | kept : s'.peers = s.peers →
      (∀ i p, s.takes i e = true → s.peers[i]? = some p → p.addrLen = 0 → s'.Stuck) → Moved s e s'
  | learnt (i : Nat) (p p' : Peer) (c : Cqe) (cq : List Cqe) : s.uring.ring.cq = c :: cq →
      s.takes i e = true → s.peers[i]? = some p → p.addrLen = 0 → p'.udpFd = p.udpFd →
      0 < p'.addrLen → (c.Addressed → p' = p.learn c.source) → s'.peers = s.peers.set i p' →
      Moved s e s'
  | ended (uring : IouringCtx) : s' = .returned uring → Moved s e s'

structure Session.Wired (sockets : List Int) (s : Session σ) : Prop where
  good : s.Good
  armed : Proofs.Armed sockets s
  fds : s.peers = [] ∨ s.peers.map Peer.udpFd = sockets

end Dataplane.Model

namespace Dataplane.Proofs

open ProofSupport Model Ledger

variable {σ : Type} {api : Ssl σ} {ctx ctx' : IouringCtx} {held got : Multiset OpId}
  {taken idx : Multiset Nat} {sockets : List Int}

/-! ## Taking a datagram -/

theorem takes_eq_wake {i : Nat} {s : Session σ} {e : SessionEvent} (h : s.takes i e = true) :
    e = .wake := by
  cases e <;> simp_all [Session.takes]

theorem takes_wake {i : Nat} {s : Session σ} : s.takes i .wake = true ↔ s.learner = some i ∧
    ∃ p c cq, s.peers[i]? = some p ∧ s.uring.ring.cq = c :: cq ∧ c.Datagram p.udpFd := by
  rw [Session.takes, Bool.and_eq_true, decide_eq_true_eq]
  apply and_congr_right
  intro _
  rcases s.peers[i]? with _ | p <;> rcases s.uring.ring.cq with _ | ⟨c, cq⟩ <;> simp

theorem stage_peers_set (stage : Stage σ) (conn conn' : Connection σ) :
    stage.peers conn' = (stage.peers conn).set stage.index conn'.peer := by
  cases stage <;> rfl

theorem stage_peers_get (stage : Stage σ) (conn : Connection σ) :
    (stage.peers conn)[stage.index]? = some conn.peer := by
  cases stage <;> rfl

theorem stage_peers_eq (stage : Stage σ) {conn conn' : Connection σ} (h : conn'.peer = conn.peer) :
    stage.peers conn' = stage.peers conn := by
  cases stage <;> simp only [Stage.peers, h]

/-! ## The handshake -/

theorem HandshakeSound.peer {s : HandshakeState σ} (h : HandshakeSound s) {e : HandshakeEvent}
    (hwake : e ≠ .wake) : (s.step api e).conn.peer = s.conn.peer := by
  cases e with
  | wake => exact absurd rfl hwake
  | kernel e => rfl
  | waitError =>
      simp only [HandshakeState.step]
      split <;> rfl
  | call =>
      simp only [HandshakeState.step]
      split
      · rename_i hpc
        obtain ⟨⟨held, taken, hinv⟩, -⟩ := h (by rw [hpc]; simp)
        obtain ⟨outs, hcalled⟩ := hinv.call api
        obtain ⟨hfd, haddr, hlen⟩ := hcalled.conn
        simp only [Connection.peer, hfd, haddr, hlen]
      · rfl

theorem HandshakeSound.moved {s : HandshakeState σ} (h : HandshakeSound s)
    (harmed : s.pc ≠ .returned (-1) →
      Proofs.receives s.uring.ring.outstanding = multishots sockets) (stage : Stage σ)
        (running : Bool) :
    (Session.handshake stage s running).Moved .wake
      (.handshake stage (s.step api .wake) running) := by
  have hkept : ∀ s' : HandshakeState σ, s'.conn.peer = s.conn.peer →
      ((Session.handshake stage s running).takes stage.index .wake = true →
        s.conn.addrLen = 0 → s'.pc = .returned (-1)) →
      (Session.handshake stage s running).Moved .wake (.handshake stage s' running) := by
    intro s' hpeer hstuck
    refine .kept (stage_peers_eq stage hpeer) fun i p htakes hp hzero => ?_
    have hlearner := (takes_wake.mp htakes).1
    simp only [Session.learner] at hlearner
    split at hlearner
    · obtain rfl := Option.some.inj hlearner
      obtain rfl := Option.some.inj ((stage_peers_get stage s.conn).symm.trans hp)
      exact hstuck htakes hzero
    · cases hlearner
  simp only [HandshakeState.step]
  split
  · rename_i c cq hpc hcq
    obtain ⟨⟨held, taken, hinv⟩, hreqs⟩ := h (by rw [hpc]; simp)
    obtain ⟨ins, -, -, hconsumed⟩ := hinv.consume hreqs hpc hcq
    have hdatagram : (Session.handshake stage s running).takes stage.index .wake = true ↔
        c.Datagram s.conn.udpFd := by
      rw [takes_wake]
      constructor
      · rintro ⟨-, p, c', cq', hp, hcq', hd⟩
        obtain rfl := Option.some.inj ((stage_peers_get stage s.conn).symm.trans hp)
        obtain ⟨rfl, rfl⟩ := List.cons.inj (hcq.symm.trans hcq')
        exact hd
      · intro hd
        exact ⟨if_pos hpc, s.conn.peer, c, cq, stage_peers_get stage s.conn, hcq, hd⟩
    cases hconsumed with
    | sent hout hconn _ _ =>
        apply hkept _ (congrArg Connection.peer hconn)
        intro htakes
        have htype := (hdatagram.mp htakes).1
        revert hout htype
        cases c.req.opcode <;> simp [Opcode.outgoing, Opcode.opType]
    | stopped hconn hstop => exact hkept _ (congrArg Connection.peer hconn) fun _ _ => hstop
    | foreign _ _ _ _ hfd hconn _ _ =>
        apply hkept _ (congrArg Connection.peer hconn)
        intro htakes
        exact absurd (hdatagram.mp htakes).2.1 hfd
    | own mid got idx _ hin hfd hrecv hconn _ _ =>
        have hcmem : c ∈ s.uring.ring.cq := by
          rw [hcq]
          exact List.mem_cons_self
        have htype : c.req.opcode.opType = .udpRecv := by
          apply (hreqs.seen hcq).1.resolve_left
          intro hsend
          rw [hsend] at hin
          cases hin
        have hlisten : Proofs.receives s.uring.ring.outstanding =
            Multiset.replicate 0 (.read, 0) + multishots sockets := by
          rw [Multiset.replicate_zero, zero_add]
          exact harmed (by rw [hpc]; simp)
        obtain ⟨hcode, -⟩ := hinv.armed_datagram hlisten hcmem htype
        have hpeer : (s.takeCqe c cq).conn.peer = (learnAddr mid s.conn c.req.userData).2.peer := by
          rw [hconn]
          rfl
        by_cases hzero : s.conn.addrLen = 0
        · obtain ⟨hfd', hpos, hlearn⟩ := hrecv.learn hcode hzero
          refine .learnt stage.index s.conn.peer _ c cq hcq
            (hdatagram.mpr ⟨htype, hfd, hrecv.nonEmpty hcode⟩) (stage_peers_get stage s.conn) hzero
            hfd' hpos hlearn ?_
          rw [← hpeer]
          exact stage_peers_set stage s.conn _
        · apply hkept _ _ fun _ hzero' => absurd hzero' hzero
          rw [hpeer, learnAddr_of_pos _ _ hzero]
  · rename_i hnone
    apply hkept _ rfl
    intro htakes
    obtain ⟨hlearner, p, c, cq, -, hcq, -⟩ := takes_wake.mp htakes
    simp only [Session.learner] at hlearner
    split at hlearner
    · rename_i hpc
      exact absurd hcq (hnone c cq hpc)
    · cases hlearner

/-! ## The loops -/

theorem atLoopHead_prog (s : LoopState σ) (ret : Int) (op : Option OpId) :
    (atLoopHead s ret op).prog = s.prog := by
  rw [atLoopHead_eq]

theorem loop_learner {s : LoopState σ} {i : Nat} (h : (Session.loop s).learner = some i) :
    i = 0 ∧ s.status = .waiting ∧ ∃ conn tunFd, s.prog = .tunUdpRunZero conn tunFd := by
  simp only [Session.learner] at h
  split at h
  · rename_i conn tunFd hprog
    split at h
    · rename_i hstatus
      exact ⟨(Option.some.inj h).symm, hstatus, conn, tunFd, hprog⟩
    · cases h
  · cases h

theorem Inv.loop_moved {s : LoopState σ} (h : Inv s.uring held taken)
    (hstatus : s.status = .waiting) {k : Nat} {fd : Int}
    (harmed : receives s.uring.ring.outstanding =
      Multiset.replicate k (.read, fd) + multishots sockets)
    (hfds : s.prog.peers.map Peer.udpFd = sockets) {c : Cqe} {cq : List Cqe}
    (hcq : s.uring.ring.cq = c :: cq) :
    (Session.loop s).Moved .wake (.loop (takeCqe api s c cq)) := by
  have hkept : ∀ s' : LoopState σ, s'.prog.peers = s.prog.peers →
      (∀ conn tunFd, s.prog = .tunUdpRunZero conn tunFd → c.Datagram conn.udpFd →
        conn.addrLen = 0 → s'.status ≠ .waiting) →
      (Session.loop s).Moved .wake (.loop s') := by
    intro s' hpeers hstuck
    refine .kept hpeers fun i p htakes hp hzero => ?_
    obtain ⟨hlearner, p', c', cq', hp', hcq', hd⟩ := takes_wake.mp htakes
    obtain ⟨rfl, -, conn, tunFd, hprog⟩ := loop_learner hlearner
    obtain rfl := Option.some.inj (hp.symm.trans hp')
    obtain ⟨rfl, rfl⟩ := List.cons.inj (hcq.symm.trans hcq')
    simp only [Session.peers, hprog, Program.peers, List.getElem?_cons_zero,
      Option.some.injEq] at hp
    subst hp
    exact hstuck conn tunFd hprog hd hzero
  unfold Model.takeCqe
  rcases hstep : (s.uring.iouringCqeSeen c cq).waitForRecvBody c with ⟨step, ctx⟩
  cases h.wait hcq hstep with
  | again _ hout _ _ =>
      refine hkept { s with uring := ctx } rfl fun _ _ _ hd => ?_
      have htype := hd.1
      revert hout htype
      cases c.req.opcode <;> simp [Opcode.outgoing, Opcode.opType]
  | null rs _ _ _ =>
      exact hkept { s with uring := ctx, status := .exited (-1) none } rfl (by simp)
  | recv rs got idx _ hin _ _ hinv hrecv =>
      have hkept' : (∀ conn tunFd, s.prog = .tunUdpRunZero conn tunFd → c.Datagram conn.udpFd →
          conn.addrLen ≠ 0) → (s.prog.body api ctx c.req.userData).2.2.2.peers = s.prog.peers →
          (Session.loop s).Moved .wake (.loop (atLoopHead
            { s with uring := (s.prog.body api ctx c.req.userData).2.2.1,
                     prog := (s.prog.body api ctx c.req.userData).2.2.2 }
            (s.prog.body api ctx c.req.userData).1 (s.prog.body api ctx c.req.userData).2.1)) := by
        intro hne hsame
        apply hkept _ ((congrArg Program.peers (atLoopHead_prog _ _ _)).trans hsame)
        intro conn tunFd hprog hd hzero
        exact absurd hzero (hne conn tunFd hprog hd)
      by_cases hother : ∀ conn tunFd, s.prog = .tunUdpRunZero conn tunFd →
          (ctx.ops c.req.userData).opType ≠ .udpRecv
      · apply hkept' _ (body_peers api ctx c.req.userData hother)
        intro conn tunFd hprog hd
        have htype := hrecv.opType.trans hd.1
        exact absurd htype (hother conn tunFd hprog)
      · push Not at hother
        obtain ⟨conn, tunFd, hprog, htype⟩ := hother
        have hbody : (s.prog.body api ctx c.req.userData).2.2.2.peers =
            [(learnAddr ctx conn c.req.userData).2.peer] := by
          rw [hprog]
          exact tunUdpRunZeroBody_peers ctx conn tunFd htype
        have hpeers : s.prog.peers = [conn.peer] := by rw [hprog]; rfl
        have hcmem : c ∈ s.uring.ring.cq := by
          rw [hcq]
          exact List.mem_cons_self
        have hudp := hrecv.opType.symm.trans htype
        obtain ⟨hcode, hfd⟩ := h.armed_datagram harmed hcmem hudp
        rw [← hfds, hpeers] at hfd
        by_cases hzero : conn.addrLen = 0
        · obtain ⟨hfd', hpos, hlearn⟩ := hrecv.learn hcode hzero
          have hd : c.Datagram conn.udpFd :=
            ⟨hudp, List.mem_singleton.mp hfd, hrecv.nonEmpty hcode⟩
          have hget : (Session.loop s).peers[0]? = some conn.peer := by
            rw [Session.peers, hpeers]
            rfl
          have htakes : (Session.loop s).takes 0 .wake = true := by
            refine takes_wake.mpr ⟨?_, conn.peer, c, cq, hget, hcq, hd⟩
            simp only [Session.learner, hprog, hstatus, if_true]
          refine .learnt 0 conn.peer _ c cq hcq htakes hget hzero hfd' hpos hlearn ?_
          show (atLoopHead _ _ _).prog.peers = s.prog.peers.set 0 _
          rw [atLoopHead_prog, hpeers]
          exact hbody
        · apply hkept'
          · intro conn' tunFd' hprog' _
            rw [hprog] at hprog'
            cases hprog'
            exact hzero
          · rw [hbody, learnAddr_of_pos _ _ hzero, hpeers]

/-! ## A step -/

theorem start_peers (ctx : IouringCtx) (prog : Program σ) (running : Bool) :
    (Session.loop (.start ctx prog running)).peers = prog.peers := by
  rw [Session.peers, start_prog]

theorem Moved.of_peers {s s' : Session σ} {e : SessionEvent} (hwake : e ≠ .wake)
    (h : s'.peers = s.peers) : s.Moved e s' :=
  .kept h fun _ _ htakes _ _ => absurd (takes_eq_wake htakes) hwake

theorem Wired.moved (api : Ssl σ) {s : Session σ} (h : s.Wired sockets) (e : SessionEvent) :
    s.Moved e (s.step api e) := by
  obtain ⟨hgood, harmed, hfds⟩ := h
  cases s with
  | handshake stage s running =>
      cases e with
      | stop => exact Moved.of_peers (by simp) rfl
      | proceed =>
          simp only [Session.step]
          split
          · cases stage with
            | inbound outbound => exact Moved.of_peers (by simp) rfl
            | outbound inbound => exact Moved.of_peers (by simp) (start_peers _ _ _)
            | edge tunFd =>
                unfold Session.proceed
                dsimp only
                split
                · exact .ended _ rfl
                · exact Moved.of_peers (by simp) (start_peers _ _ _)
          · exact Moved.of_peers (by simp) rfl
      | call =>
          exact Moved.of_peers (by simp)
            (stage_peers_eq stage (HandshakeSound.peer hgood (by simp)))
      | kernel e =>
          exact Moved.of_peers (by simp) rfl
      | wake => exact HandshakeSound.moved hgood harmed stage running
      | waitError =>
          exact Moved.of_peers (by simp)
            (stage_peers_eq stage (HandshakeSound.peer hgood (by simp)))
  | loop s =>
      cases e with
      | wake =>
          simp only [Session.step, SessionEvent.loop, LoopState.step, LoopState.wake]
          split
          · rename_i c cq hstatus hcq
            have hok : s.status.ok = true := by rw [hstatus]; rfl
            obtain ⟨held, taken, hinv⟩ := hgood hok
            obtain ⟨k, fd, hk⟩ := harmed hok
            refine hinv.loop_moved hstatus hk (hfds.resolve_left ?_) hcq
            cases hprog : s.prog <;> simp [Session.peers, Program.peers, hprog]
          · rename_i hnone
            refine .kept rfl fun i p htakes _ _ => ?_
            obtain ⟨hlearner, _, c, cq, -, hcq, -⟩ := takes_wake.mp htakes
            exact absurd hcq (hnone c cq (loop_learner hlearner).2.1)
      | waitError =>
          apply Moved.of_peers (by simp)
          simp only [Session.step, SessionEvent.loop, LoopState.step]
          split <;> rfl
      | call => exact Moved.of_peers (by simp) rfl
      | proceed => exact Moved.of_peers (by simp) rfl
      | kernel e => exact Moved.of_peers (by simp) rfl
      | stop => exact Moved.of_peers (by simp) rfl
  | returned uring => cases e <;> exact .ended _ rfl

theorem peers_set_fds {ps : List Peer} {i : Nat} {p p' : Peer} (hp : ps[i]? = some p)
    (hfd : p'.udpFd = p.udpFd) : (ps.set i p').map Peer.udpFd = ps.map Peer.udpFd := by
  rw [List.map_set, hfd]
  apply List.ext_getElem?
  intro j
  rw [List.getElem?_set]
  split
  · rename_i heq
    subst heq
    split
    · rw [List.getElem?_map, hp, Option.map_some]
    · rename_i hlen
      rw [List.getElem?_eq_none (by omega)]
  · rfl

theorem Wired.step {s : Session σ} (h : s.Wired sockets) (e : SessionEvent) :
    (s.step api e).Wired sockets := by
  refine ⟨good_step h.good e, armed_step h.good h.armed e, ?_⟩
  cases Wired.moved api h e with
  | kept hpeers _ =>
      rw [hpeers]
      exact h.fds
  | learnt i p p' c cq _ _ hp _ hfd _ _ hpeers =>
      rw [hpeers, peers_set_fds hp hfd, List.set_eq_nil_iff]
      exact h.fds
  | ended uring heq =>
      rw [heq]
      exact Or.inl rfl

theorem Wired.run (api : Ssl σ) {s : Session σ} (h : s.Wired sockets) (es : List SessionEvent) :
    (s.run api es).Wired sockets :=
  Execution.run_invariant (fun _ => True) (Session.Wired sockets) (fun _ e _ hs => Wired.step hs e)
    (fun _ _ => trivial) h

theorem program_fds (prog : Program σ) : prog.peers.map Peer.udpFd = prog.sockets := by
  cases prog <;> rfl

theorem session_start_peers {config : IouringConfig} {sqeFree : Nat → Bool} {submits : Nat → Int}
    {prog : Program σ} {running : Bool} {s : Session σ}
    (hstart : Session.start (IouringCtx.iouringInit config sqeFree submits) prog running = some s) :
    s.peers = prog.peers := by
  cases started_of_start hstart with
  | edge conn tunFd _ => rfl
  | zero conn tunFd _ => exact start_peers _ _ _
  | forwarder inbound outbound _ => rfl

theorem wired_start (config : IouringConfig) (sqeFree : Nat → Bool) (submits : Nat → Int)
    {prog : Program σ} {running : Bool} {s : Session σ}
    (hstart : Session.start (IouringCtx.iouringInit config sqeFree submits) prog running = some s) :
    s.Wired prog.sockets where
  good := good_start config sqeFree submits hstart
  armed := armed_start config sqeFree submits hstart
  fds := by
    rw [session_start_peers hstart]
    exact Or.inr (program_fds prog)

/-! ## Where the datagrams of a step go -/

theorem SendOn.addresses {conn : Connection σ} {data : Bytes} {r : Sqe}
    (h : SendOn ctx conn data r) : conn.peer.Addresses r :=
  ⟨h.carries.fd, h.namelen, h.name⟩

theorem not_sendmsg {r : Sqe} (hin : r.opcode.outgoing = false) : r.opcode ≠ .sendmsg := by
  intro hsend
  rw [hsend] at hin
  cases hin

theorem HandshakeSound.sends {s : HandshakeState σ} (h : HandshakeSound s) (e : HandshakeEvent) :
    ∃ new, (s.step api e).uring.ring.queued = s.uring.ring.queued ++ new ∧
      ∀ r ∈ new, r.opcode = .sendmsg → e = .call ∧ s.conn.peer.Addresses r := by
  have hnone : ∀ s' : HandshakeState σ, s'.uring.ring.queued = s.uring.ring.queued →
      ∃ new, s'.uring.ring.queued = s.uring.ring.queued ++ new ∧
        ∀ r ∈ new, r.opcode = .sendmsg → e = .call ∧ s.conn.peer.Addresses r :=
    fun s' hsame => ⟨[], hsame.trans (List.append_nil _).symm, by simp⟩
  cases e with
  | kernel e => exact hnone _ (kernel_histories s.uring e).2
  | waitError =>
      apply hnone
      simp only [HandshakeState.step]
      split <;> rfl
  | call =>
      by_cases hpc : s.pc = .calling
      · obtain ⟨⟨held, taken, hinv⟩, -⟩ := h (by rw [hpc]; simp)
        obtain ⟨outs, hcalled⟩ := hinv.call api
        rw [HandshakeState.step, if_pos hpc]
        exact ⟨outs, hcalled.effect.queued, fun r hr _ => ⟨rfl, (hcalled.entry r hr).addresses⟩⟩
      · rw [HandshakeState.step, if_neg hpc]
        exact hnone s rfl
  | wake =>
      simp only [HandshakeState.step]
      split
      · rename_i c cq hpc hcq
        obtain ⟨⟨held, taken, hinv⟩, hreqs⟩ := h (by rw [hpc]; simp)
        obtain ⟨ins, heff, hin, -⟩ := hinv.consume hreqs hpc hcq
        exact ⟨ins, heff.queued, fun r hr hsend => absurd hsend (not_sendmsg (hin r hr).outgoing)⟩
      · exact hnone _ rfl

theorem body_addresses {c : Cqe} (hin : c.req.opcode.outgoing = false) (prog : Program σ) :
    BodySpec api prog c (fun r => r.opcode = .sendmsg → ∃ p ∈ prog.peers, p.Addresses r)
      fun _ => True := by
  intro ctx ctx' held got taken idx ret rest prog' hinv hrecv _ hres
  have hwrite : ∀ {r : Sqe}, r.opcode = .write → r.opcode = .sendmsg →
      ∃ p ∈ prog.peers, p.Addresses r := by
    intro r hw hs
    rw [hw] at hs
    cases hs
  cases prog with
  | tunUdpRun conn tunFd =>
      rcases hrecv.opType_cases hin with htype | htype
      · obtain ⟨rs, _, -, hh, -⟩ := hinv.tunUdpRunBody_read hrecv htype rfl hres
        exact ⟨rs, hh.mono fun r _ hsend _ => ⟨conn.peer, by simp [Program.peers],
          hsend.addresses⟩, fun _ => trivial⟩
      · obtain ⟨rs, _, -, hh, -⟩ := hinv.tunUdpRunBody_recv hrecv htype rfl rfl hres
        exact ⟨rs, hh.mono fun r _ hw => hwrite hw.1, fun _ => trivial⟩
  | tunUdpRunZero conn tunFd =>
      rcases hrecv.opType_cases hin with htype | htype
      · obtain ⟨rs, -, hh⟩ := hinv.tunUdpRunZeroBody_read hrecv htype rfl hres
        exact ⟨rs, hh.mono fun r _ hsend _ => ⟨conn.peer, by simp [Program.peers],
          hsend.addresses⟩, fun _ => trivial⟩
      · obtain ⟨rs, -, hh⟩ := hinv.tunUdpRunZeroBody_recv hrecv htype rfl hres
        exact ⟨rs, hh.mono fun r _ hw => hwrite hw.opcode, fun _ => trivial⟩
  | forwarderRun inbound outbound =>
      by_cases htype : (ctx.ops c.req.userData).opType = .udpRecv
      · by_cases hfd : (ctx.ops c.req.userData).fd = inbound.udpFd
        · obtain ⟨rs, _, _, -, hh, -⟩ := hinv.forwarderRunBody_inbound hrecv htype hfd rfl rfl hres
          exact ⟨rs, hh.mono fun r _ hsend _ => ⟨outbound.peer, by simp [Program.peers],
            hsend.addresses⟩, fun _ => trivial⟩
        · obtain ⟨rs, _, _, -, hh, -⟩ := hinv.forwarderRunBody_outbound hrecv htype hfd rfl rfl hres
          exact ⟨rs, hh.mono fun r _ hsend _ => ⟨inbound.peer, by simp [Program.peers],
            hsend.addresses⟩, fun _ => trivial⟩
      · obtain ⟨-, hh⟩ := hinv.forwarderRunBody_other htype hres
        exact ⟨[], hh.mono (by simp), fun _ => trivial⟩

/-- `iouring_initial_tun_reads` asks for packets only, also when it fails. -/
theorem initialTunReads_histories (fd : Int) (n : Nat) (ctx : IouringCtx) :
    (IouringCtx.initialRecvs IouringCtx.iouringSubmitTunRead .tunRead fd n ctx).2.ring.seen =
      ctx.ring.seen ∧ ∃ new,
    (IouringCtx.initialRecvs IouringCtx.iouringSubmitTunRead .tunRead fd n ctx).2.ring.queued =
      ctx.ring.queued ++ new ∧ ∀ r ∈ new, r.opcode = .read := by
  induction n generalizing ctx with
  | zero => exact ⟨rfl, [], (List.append_nil _).symm, by simp⟩
  | succ n ih =>
      rw [IouringCtx.initialRecvs]
      have hring := ioOpAlloc_ring ctx .tunRead fd false
      rcases ha : ctx.ioOpAlloc .tunRead fd false with ⟨_ | op, ctx1⟩
      · rw [ha] at hring
        dsimp only at hring ⊢
        rw [← hring]
        exact ih ctx1
      rw [ha] at hring
      obtain ⟨-, htype, -⟩ := ioOpAlloc_queued ha
      have hsub := iouringSubmitTunRead_submitted htype
      rcases hres : ctx1.iouringSubmitTunRead op with ⟨ret, ctx2⟩
      rw [hres] at hsub
      have honce : ctx2.ring.seen = ctx.ring.seen ∧ ∃ new,
          ctx2.ring.queued = ctx.ring.queued ++ new ∧ ∀ r ∈ new, r.opcode = .read := by
        dsimp only at hring
        rw [← hring]
        cases hsub with
        | refused f => exact ⟨rfl, [], (List.append_nil _).symm, by simp⟩
        | queued _ heff =>
            exact ⟨heff.seen, _, heff.queued, fun r hr => by rw [List.mem_singleton.mp hr]; rfl⟩
        | failed _ heff _ =>
            exact ⟨heff.seen, _, heff.queued, fun r hr => by rw [List.mem_singleton.mp hr]; rfl⟩
      simp only [hres]
      split
      · rw [(ioOpFree_ring ctx2 op).1]
        exact honce
      · obtain ⟨hseen, new, heq, hnew⟩ := honce
        obtain ⟨hseen', more, heq', hmore⟩ := ih ctx2
        refine ⟨hseen'.trans hseen, new ++ more, by rw [heq', heq, List.append_assoc], ?_⟩
        intro r hr
        exact (List.mem_append.mp hr).elim (hnew r) (hmore r)

theorem senders_subset {s : Session σ} {e : SessionEvent} {p : Peer} (hp : p ∈ s.senders e) :
    p ∈ s.peers := by
  cases s with
  | handshake stage s running =>
      cases e with
      | call =>
          rw [List.mem_singleton.mp hp]
          exact List.mem_of_getElem? (stage_peers_get stage s.conn)
      | _ => cases hp
  | loop s =>
      cases e with
      | wake => exact hp
      | _ => cases hp
  | returned uring => cases e <;> cases hp

/-- Whatever happens to a session, it sends datagrams to its peers only. -/
theorem Wired.sends (api : Ssl σ) {s : Session σ} (h : s.Wired sockets) (e : SessionEvent) :
    ∃ new, (s.step api e).uring.ring.queued = s.uring.ring.queued ++ new ∧
      ∀ r ∈ new, r.opcode = .sendmsg → ∃ p ∈ s.senders e, p.Addresses r := by
  have hnone : ∀ s' : Session σ, s'.uring.ring.queued = s.uring.ring.queued →
      ∃ new, s'.uring.ring.queued = s.uring.ring.queued ++ new ∧
        ∀ r ∈ new, r.opcode = .sendmsg → ∃ p ∈ s.senders e, p.Addresses r :=
    fun s' hsame => ⟨[], hsame.trans (List.append_nil _).symm, by simp⟩
  cases s with
  | handshake stage s running =>
      have hstep : ∀ e', (e' = .call → e = .call) → ∃ new,
          (s.step api e').uring.ring.queued = s.uring.ring.queued ++ new ∧
            ∀ r ∈ new, r.opcode = .sendmsg →
              ∃ p ∈ (Session.handshake stage s running).senders e, p.Addresses r := by
        intro e' hcall
        obtain ⟨new, hqueued, hnew⟩ :
            ∃ new, (s.step api e').uring.ring.queued = s.uring.ring.queued ++ new ∧ _ :=
          HandshakeSound.sends h.good e'
        refine ⟨new, hqueued, fun r hr hsend => ?_⟩
        obtain ⟨he, haddr⟩ := hnew r hr hsend
        rw [hcall he]
        exact ⟨s.conn.peer, List.mem_singleton_self _, haddr⟩
      cases e with
      | stop => exact hnone _ rfl
      | proceed =>
          simp only [Session.step]
          split
          · cases stage with
            | inbound outbound => exact hnone _ rfl
            | outbound inbound =>
                apply hnone
                simp only [Session.proceed, Session.uring, start_uring]
            | edge tunFd =>
                obtain ⟨-, new, hqueued, hnew⟩ :=
                  initialTunReads_histories tunFd s.uring.config.nInitialReadOps s.uring
                refine ⟨new, ?_, fun r hr hsend => ?_⟩
                · unfold Session.proceed
                  dsimp only
                  split
                  · exact hqueued
                  · simp only [Session.uring, start_uring]
                    exact hqueued
                · rw [hnew r hr] at hsend
                  cases hsend
          · exact hnone _ rfl
      | call => exact hstep .call fun _ => rfl
      | kernel e => exact hstep (.kernel e) (by simp)
      | wake => exact hstep .wake (by simp)
      | waitError => exact hstep .waitError (by simp)
  | loop s =>
      cases e with
      | wake =>
          simp only [Session.step, SessionEvent.loop, LoopState.step, LoopState.wake]
          split
          · rename_i c cq hstatus hcq
            obtain ⟨held, taken, hinv⟩ := h.good (by rw [hstatus]; rfl)
            obtain ⟨ins, outs, htook, hturn⟩ := hinv.turn api hcq fun hin =>
              body_addresses hin s.prog
            refine ⟨ins ++ outs, htook.queued, fun r hr => ?_⟩
            rcases List.mem_append.mp hr with hr | hr
            · exact fun hsend => absurd hsend (not_sendmsg (htook.incoming r hr))
            · exact hturn.entry r hr
          · exact hnone _ rfl
      | kernel e => exact hnone _ (kernel_histories s.uring e).2
      | waitError =>
          apply hnone
          simp only [Session.step, SessionEvent.loop, LoopState.step]
          split <;> rfl
      | call => exact hnone _ rfl
      | proceed => exact hnone _ rfl
      | stop => exact hnone _ rfl
  | returned uring =>
      cases e with
      | kernel e => exact hnone _ (kernel_histories uring e).2
      | _ => exact hnone _ rfl

theorem Wired.seen (api : Ssl σ) {s : Session σ} (h : s.Wired sockets) (e : SessionEvent) :
    ∃ cs, (s.step api e).uring.ring.seen = s.uring.ring.seen ++ cs ∧
      ∀ i c cq, s.takes i e = true → s.uring.ring.cq = c :: cq → c ∈ cs := by
  have hnone : ∀ s' : Session σ, e ≠ .wake → s'.uring.ring.seen = s.uring.ring.seen →
      ∃ cs, s'.uring.ring.seen = s.uring.ring.seen ++ cs ∧
        ∀ i c cq, s.takes i e = true → s.uring.ring.cq = c :: cq → c ∈ cs :=
    fun s' hwake hsame => ⟨[], hsame.trans (List.append_nil _).symm,
      fun i c cq htakes _ => absurd (takes_eq_wake htakes) hwake⟩
  have hidle : (∀ i, s.learner ≠ some i) → ∀ i c cq, s.takes i e = true →
      s.uring.ring.cq = c :: cq → c ∈ ([] : List Cqe) := by
    intro hlearner i c cq htakes
    obtain rfl := takes_eq_wake htakes
    exact absurd (takes_wake.mp htakes).1 (hlearner i)
  cases s with
  | handshake stage s running =>
      cases e with
      | stop => exact hnone _ (by simp) rfl
      | proceed =>
          apply hnone _ (by simp)
          simp only [Session.step]
          split
          · cases stage with
            | inbound outbound => rfl
            | outbound inbound => simp only [Session.proceed, Session.uring, start_uring]
            | edge tunFd =>
                have hseen := (initialTunReads_histories tunFd s.uring.config.nInitialReadOps
                  s.uring).1
                unfold Session.proceed
                dsimp only
                split
                · exact hseen
                · simp only [Session.uring, start_uring]
                  exact hseen
          · rfl
      | kernel e => exact hnone _ (by simp) (kernel_histories s.uring e).1
      | waitError =>
          apply hnone _ (by simp)
          simp only [Session.step, SessionEvent.handshake, HandshakeState.step, Session.uring]
          split <;> rfl
      | call =>
          apply hnone _ (by simp)
          simp only [Session.step, SessionEvent.handshake, HandshakeState.step, Session.uring]
          split
          · rename_i hpc
            obtain ⟨⟨held, taken, hinv⟩, -⟩ := h.good (by rw [hpc]; simp)
            obtain ⟨outs, hcalled⟩ := hinv.call api
            exact hcalled.effect.seen
          · rfl
      | wake =>
          simp only [Session.step, SessionEvent.handshake, HandshakeState.step]
          split
          · rename_i c cq hpc hcq
            obtain ⟨⟨held, taken, hinv⟩, hreqs⟩ := h.good (by rw [hpc]; simp)
            obtain ⟨ins, heff, -, -⟩ := hinv.consume hreqs hpc hcq
            refine ⟨[c], heff.seen, fun i c' cq' _ hcq' => ?_⟩
            obtain ⟨rfl, -⟩ := List.cons.inj (hcq.symm.trans hcq')
            exact List.mem_singleton_self c
          · rename_i hnowait
            refine ⟨[], (List.append_nil _).symm, fun i c cq htakes hcq => ?_⟩
            have hlearner := (takes_wake.mp htakes).1
            simp only [Session.learner] at hlearner
            split at hlearner
            · rename_i hpc
              exact absurd hcq (hnowait c cq hpc)
            · cases hlearner
  | loop s =>
      cases e with
      | wake =>
          simp only [Session.step, SessionEvent.loop, LoopState.step, LoopState.wake]
          split
          · rename_i c cq hstatus hcq
            obtain ⟨held, taken, hinv⟩ := h.good (by rw [hstatus]; rfl)
            obtain ⟨ins, outs, htook, -⟩ := hinv.turn api hcq fun hin => body_addresses hin s.prog
            refine ⟨[c], htook.seen, fun i c' cq' _ hcq' => ?_⟩
            obtain ⟨rfl, -⟩ := List.cons.inj (hcq.symm.trans hcq')
            exact List.mem_singleton_self c
          · rename_i hnowait
            refine ⟨[], (List.append_nil _).symm, fun i c cq htakes hcq => ?_⟩
            have hlearner := (takes_wake.mp htakes).1
            exact absurd hcq (hnowait c cq (loop_learner hlearner).2.1)
      | kernel e => exact hnone _ (by simp) (kernel_histories s.uring e).1
      | waitError =>
          apply hnone _ (by simp)
          simp only [Session.step, SessionEvent.loop, LoopState.step]
          split <;> rfl
      | call => exact hnone _ (by simp) rfl
      | proceed => exact hnone _ (by simp) rfl
      | stop => exact hnone _ (by simp) rfl
  | returned uring =>
      refine ⟨[], ?_, hidle (by simp [Session.learner])⟩
      cases e with
      | kernel e => exact (kernel_histories uring e).1.trans (List.append_nil _).symm
      | _ => exact (List.append_nil _).symm

end Dataplane.Proofs
