import Dataplane.Proofs.Destinations
import Dataplane.Proofs.Outcome
import Dataplane.Proofs.Traffic

/-!
# The two connections of the forwarder

Both connections of the forwarder are served from one ring, through two
handshakes and `forwarder_run`.  Each of them takes the datagrams of its own
socket and sends what its own SSL object has made, and what the one delivers
goes into the other.
-/

namespace Dataplane.Model

open ProofSupport Proofs

variable {σ : Type}

def received (fd : Int) (cs : List Cqe) : List Bytes :=
  (cs.filter fun c => c.Datagram fd).map Cqe.payload

/-- The kernel reports of every datagram how many bytes it has put into memory. -/
def HonestReceives (cs : List Cqe) : Prop :=
  ∀ c ∈ cs, c.req.opcode.opType = .udpRecv → 0 ≤ c.res → c.Honest

namespace Session

def connections : Session σ → Option (Connection σ × Connection σ)
  | .handshake (.inbound outbound) s _ => some (s.conn, outbound)
  | .handshake (.outbound inbound) s _ => some (inbound, s.conn)
  | .loop s =>
      match s.prog with
      | .forwarderRun inbound outbound => some (inbound, outbound)
      | _ => none
  | _ => none

def Goes : Session σ → Prop
  | .handshake _ s _ => s.pc ≠ .returned (-1)
  | .loop s => s.status.ok = true
  | .returned _ => False

/-- The session with an empty record of calls on each connection. -/
def watched (s : Session σ) : Session (σ × List SslCall) := s.map fun ssl => (ssl, [])

/-- How many datagrams from the socket `fd` the loop forwards in a step. -/
def forwards (s : Session σ) (e : SessionEvent) (fd : Int) : Nat :=
  match s, e with
  | .loop s, .wake =>
      match s.status, s.uring.ring.cq with
      | .waiting, c :: _ => if c.req.opcode.outgoing = false ∧ c.req.fd = fd then 1 else 0
      | _, _ => 0
  | _, _ => 0

end Session

/-- The datagrams in the read BIO of `conn`, which was `first` in the beginning,
are some of those from its own socket, and its own output is what was sent on
its socket, up to what waits in the write BIO as long as nothing has failed. -/
structure OwnTraffic (first : Connection σ) (conn : Connection (σ × List SslCall)) (ring : IoUring)
    (goes : Prop) : Prop where
  udpFd : conn.udpFd = first.udpFd
  fed : HonestReceives ring.seen → ∃ ds, BioWrites first.rbio conn.calls conn.rbio ds ∧
    ds.Sublist (received first.udpFd ring.seen)
  sent : (datagrams first.udpFd ring.queued).flatten <+: first.wbio ++ conn.output
  pending : goes →
    (datagrams first.udpFd ring.queued).flatten ++ conn.wbio = first.wbio ++ conn.output

/-- The plaintexts passed to `SSL_write` on the one connection are those obtained
from the other, in this order, all of them as long as nothing has failed. -/
structure Relayed (recvConn forwardConn : Connection (σ × List SslCall)) (goes : Prop) : Prop where
  written : forwardConn.written <+: recvConn.delivered
  all : goes → forwardConn.written = recvConn.delivered

/-- What went through the two connections, which were `inbound` and `outbound` in
the beginning. -/
def Session.Isolated (inbound outbound : Connection σ) (s : Session (σ × List SslCall)) : Prop :=
  ∃ conn conn', s.connections = some (conn, conn') ∧
    OwnTraffic inbound conn s.uring.ring s.Goes ∧ OwnTraffic outbound conn' s.uring.ring s.Goes ∧
    Relayed conn conn' s.Goes ∧ Relayed conn' conn s.Goes

/-- A step obtains plaintexts from the one connection and passes them to
`SSL_write` on the other, `n` of them unless something fails. -/
def HandsOver
    (recvConn forwardConn recvConn' forwardConn' : Connection (σ × List SslCall)) (n : Nat)
    (goes : Prop) : Prop :=
  ∃ ds ws, recvConn'.delivered = recvConn.delivered ++ ds ∧
    forwardConn'.written = forwardConn.written ++ ws ∧ ws <+: ds ∧ (goes → ws = ds ∧ ds.length = n)

/-- A step hands over one plaintext for each datagram that it forwards, from the
connection that received it to the other, and every datagram that it sends
carries socket and address of one of the connections. -/
def Session.Separates (api : Ssl σ) (s : Session (σ × List SslCall)) (e : SessionEvent) : Prop :=
  ∃ inbound outbound inbound' outbound' new, s.connections = some (inbound, outbound) ∧
    (s.step api.traced e).connections = some (inbound', outbound') ∧
    HandsOver inbound outbound inbound' outbound' (s.forwards e inbound.udpFd)
      (s.step api.traced e).Goes ∧
    HandsOver outbound inbound outbound' inbound' (s.forwards e outbound.udpFd)
      (s.step api.traced e).Goes ∧
    (s.step api.traced e).uring.ring.queued = s.uring.ring.queued ++ new ∧
    ∀ r ∈ new, r.opcode = .sendmsg → inbound.peer.Addresses r ∨ outbound.peer.Addresses r

end Dataplane.Model

namespace Dataplane.Proofs

open ProofSupport Model Ledger

variable {σ : Type} {api : Ssl σ} {ctx ctx' : IouringCtx} {held got : Multiset OpId}
  {taken idx : Multiset Nat} {conn conn' other : Connection (σ × List SslCall)} {cs : List Cqe}
  {new : List Sqe} {goes : Prop}

/-! ## One connection in a step -/

structure Moves (conn conn' : Connection (σ × List SslCall)) (cs : List Cqe) (new : List Sqe)
    (goes : Prop) : Prop where
  udpFd : conn'.udpFd = conn.udpFd
  fed : HonestReceives cs → ∀ base ws, BioWrites base conn.calls conn.rbio ws →
    ∃ ds, BioWrites base conn'.calls conn'.rbio (ws ++ ds) ∧ ds.Sublist (received conn.udpFd cs)
  sent : ∃ out, conn'.output = conn.output ++ out ∧
    (datagrams conn.udpFd new).flatten <+: conn.wbio ++ out ∧
    (goes → (datagrams conn.udpFd new).flatten ++ conn'.wbio = conn.wbio ++ out)

theorem Moves.same (cs : List Cqe) (goes : Prop) (hnew : datagrams conn.udpFd new = []) :
    Moves conn conn cs new goes where
  udpFd := rfl
  fed := fun _ base ws h => ⟨[], by rwa [List.append_nil], List.nil_sublist _⟩
  sent := ⟨[], (List.append_nil _).symm, by rw [hnew]; exact List.nil_prefix,
    fun _ => by rw [hnew, List.append_nil]; rfl⟩

theorem datagrams_other {fd fd' : Int} (hfds : fd ≠ fd') {rs : List Sqe}
    (h : ∀ r ∈ rs, r.opcode = .sendmsg → r.fd = fd') : datagrams fd rs = [] := by
  rw [datagrams, List.map_eq_nil_iff, List.filter_eq_nil_iff]
  intro r hr hsend
  simp only [Bool.and_eq_true, beq_iff_eq] at hsend
  exact hfds (hsend.2.symm.trans (h r hr hsend.1))

theorem OwnTraffic.moves {first : Connection σ} {ring ring' : IoUring} {went : Prop}
    (h : OwnTraffic first conn ring went) (hwent : went) (hmoves : Moves conn conn' cs new goes)
    (hseen : ring'.seen = ring.seen ++ cs) (hqueued : ring'.queued = ring.queued ++ new) :
    OwnTraffic first conn' ring' goes := by
  obtain ⟨out, hout, hpart, hall⟩ := hmoves.sent
  have hpending := h.pending hwent
  rw [h.udpFd] at hpart hall
  refine ⟨hmoves.udpFd.trans h.udpFd, fun hhonest => ?_, ?_, fun hgoes => ?_⟩
  · rw [hseen] at hhonest
    obtain ⟨ws, hws, hsub⟩ := h.fed fun c hc => hhonest c (List.mem_append_left cs hc)
    obtain ⟨ds, hds, hsub'⟩ :=
      hmoves.fed (fun c hc => hhonest c (List.mem_append_right ring.seen hc)) _ _ hws
    rw [h.udpFd] at hsub'
    refine ⟨ws ++ ds, hds, ?_⟩
    rw [hseen, received, List.filter_append, List.map_append]
    exact hsub.append hsub'
  · rw [hqueued, datagrams_append, List.flatten_append, hout, ← List.append_assoc, ← hpending,
      List.append_assoc]
    exact (List.prefix_append_right_inj _).mpr hpart
  · rw [hqueued, datagrams_append, List.flatten_append, hout, ← List.append_assoc, ← hpending,
      List.append_assoc, List.append_assoc, hall hgoes]

theorem Relayed.handsOver
    {recvConn forwardConn recvConn' forwardConn' : Connection (σ × List SslCall)}
    {went : Prop} {n : Nat} (h : Relayed recvConn forwardConn went) (hwent : went)
    (hover : HandsOver recvConn forwardConn recvConn' forwardConn' n goes) :
    Relayed recvConn' forwardConn' goes := by
  obtain ⟨ds, ws, hds, hws, hpart, hall⟩ := hover
  refine ⟨?_, fun hgoes => ?_⟩
  · rw [hds, hws, h.all hwent]
    exact (List.prefix_append_right_inj _).mpr hpart
  · rw [hds, hws, h.all hwent, (hall hgoes).1]

theorem Moves.mono {goes' : Prop} (h : Moves conn conn' cs new goes) (hgoes : goes' → goes) :
    Moves conn conn' cs new goes' := by
  obtain ⟨out, hout, hpart, hall⟩ := h.sent
  exact ⟨h.udpFd, h.fed, out, hout, hpart, fun hgoes' => hall (hgoes hgoes')⟩

/-! ## The handshake -/

theorem conclude_ssl (s : HandshakeState σ) (ret : Int) (err : SslError) :
    (s.conclude ret err).conn.ssl = s.conn.ssl := by
  unfold HandshakeState.conclude
  repeat' split
  all_goals rfl

theorem call_conn (api : Ssl σ) (s : HandshakeState σ) :
    (s.call api).conn.ssl = (s.answer api).ssl ∧ (s.call api).conn.rbio = (s.answer api).rbio ∧
      (s.call api).conn.wbio = (s.pending api).drop bufSize ∧
      ((s.call api).pc ≠ .returned (-1) → s.FlightSent api) := by
  obtain ⟨mid, hmid, ⟨hsent, hcall⟩ | ⟨-, hcall⟩⟩ := call_cases api s
  · rw [hcall]
    refine ⟨(conclude_ssl _ _ _).trans hmid.ssl, (conclude_state _ _ _).2.trans hmid.rbio,
      (conclude_frame _ _ _).2.1.trans hmid.wbio, fun _ => hsent⟩
  · rw [hcall]
    exact ⟨hmid.ssl, hmid.rbio, hmid.wbio, fun hpc => absurd rfl hpc⟩

theorem datagrams_sendOn {conn : Connection σ} {data : Bytes} {rs : List Sqe} (hlen : rs.length ≤ 1)
    (h : ∀ r ∈ rs, SendOn ctx conn data r) :
    (datagrams conn.udpFd rs).flatten = if rs = [] then [] else data := by
  match rs, hlen with
  | [], _ => rfl
  | [r], _ =>
      have hon := (h r (List.mem_singleton_self r)).carries
      simp [datagrams, hon.opcode, hon.fd, hon.data]

theorem Called.moves {s : HandshakeState (σ × List SslCall)}
    {outs : List Sqe} (h : Called api.traced held taken s (s.call api.traced) outs) :
    Moves s.conn (s.call api.traced).conn [] outs ((s.call api.traced).pc ≠ .returned (-1)) ∧
      (s.call api.traced).conn.written = s.conn.written ∧
      (s.call api.traced).conn.delivered = s.conn.delivered := by
  obtain ⟨hssl, hrbio, hwbio, hsent⟩ := call_conn api.traced s
  have hcalls : (s.call api.traced).conn.calls = s.conn.calls ++
      [.doHandshake s.conn.rbio (api.doHandshake s.conn.ssl.1 s.conn.rbio).rbio
        (api.doHandshake s.conn.ssl.1 s.conn.rbio).out] := by
    rw [Connection.calls, hssl]
    rfl
  have hflight := datagrams_sendOn h.single h.entry
  have hpending : (s.conn.after (api.traced.doHandshake s.conn.ssl s.conn.rbio)).wbio =
      s.pending api.traced := rfl
  rw [hpending] at hflight
  refine ⟨⟨h.conn.1, fun _ base ws hws => ⟨[], ?_, List.nil_sublist _⟩,
    (api.doHandshake s.conn.ssl.1 s.conn.rbio).out, ?_, ?_, fun hpc => ?_⟩, ?_, ?_⟩
  · rw [List.append_nil, hcalls, hrbio]
    exact hws.call (.doHandshake s.conn.rbio _ _)
  · rw [Connection.output, hcalls, List.map_append, List.flatten_append]
    simp [Connection.output, SslCall.out]
  · rw [hflight]
    split
    · exact List.nil_prefix
    · exact List.take_prefix _ _
  · show _ = s.pending api.traced
    rw [hflight, hwbio]
    split
    · rename_i hnone
      by_cases hempty : s.pending api.traced = []
      · rw [hempty]
        rfl
      · obtain ⟨q, hq, -⟩ := hsent hpc hempty
        rw [h.effect.queued, hnone] at hq
        simp at hq
    · exact List.take_append_drop _ _
  · rw [Connection.written, hcalls, List.filterMap_append]
    exact List.append_nil _
  · rw [Connection.delivered, hcalls, List.filterMap_append]
    exact List.append_nil _

theorem Moves.receives (hrs : ∀ r ∈ new, Receives r) (cs : List Cqe) (goes : Prop) :
    Moves conn conn cs new goes :=
  .same cs goes (datagrams_of_receives hrs conn.udpFd)

theorem Received.moves {s : HandshakeState (σ × List SslCall)} {mid : IouringCtx} {c : Cqe}
    (hrecv : Received mid c c.req.userData got idx) (hcode : c.req.opcode = .recvmsgMultishot)
    (hfd : c.req.fd = s.conn.udpFd)
    (hconn : conn' = { (learnAddr mid s.conn c.req.userData).2 with
        rbio := (bioWrite s.conn.rbio (mid.load (mid.ops c.req.userData).buffer
          (mid.ops c.req.userData).dataLen.toNat) (mid.ops c.req.userData).dataLen).2 })
    (hrs : ∀ r ∈ new, Receives r) (goes : Prop) :
    Moves s.conn conn' [c] new goes ∧ conn'.calls = s.conn.calls := by
  have hssl := learnAddr_ssl mid s.conn c.req.userData
  have hwbio := learnAddr_wbio mid s.conn c.req.userData
  have hudp := learnAddr_udpFd mid s.conn c.req.userData
  have htype : c.req.opcode.opType = .udpRecv := by
    rw [hcode]
    rfl
  have hnone := datagrams_of_receives hrs s.conn.udpFd
  have hcalls : conn'.calls = s.conn.calls := by
    rw [Connection.calls, hconn]
    exact congrArg Prod.snd hssl
  refine ⟨⟨by rw [hconn]; exact hudp, fun hhonest base ws hws => ?_, [], ?_, ?_, fun _ => ?_⟩,
    hcalls⟩
  · have hlong := hrecv.nonEmpty hcode
    have hdatagram : c.Datagram s.conn.udpFd := ⟨htype, hfd, hlong⟩
    obtain ⟨hload, hlen⟩ := hrecv.payload
      (hhonest c (List.mem_singleton_self c) htype (by omega))
    rw [hload, hlen, bioWrite_all] at hconn
    refine ⟨[c.payload], ?_, ?_⟩
    · rw [hcalls, hconn]
      exact hws.write c.payload
    · rw [received, List.filter_singleton, decide_eq_true hdatagram]
      exact List.Sublist.refl _
  · rw [Connection.output, hcalls]
    exact (List.append_nil _).symm
  · rw [hnone]
    exact List.nil_prefix
  · rw [hnone, hconn, List.append_nil]
    exact hwbio

structure Served (s s' : HandshakeState (σ × List SslCall)) (cs : List Cqe) (new : List Sqe) :
    Prop where
  seen : s'.uring.ring.seen = s.uring.ring.seen ++ cs
  queued : s'.uring.ring.queued = s.uring.ring.queued ++ new
  moves : Moves s.conn s'.conn cs new (s'.pc ≠ .returned (-1))
  written : s'.conn.written = s.conn.written
  delivered : s'.conn.delivered = s.conn.delivered
  sends : ∀ r ∈ new, r.opcode = .sendmsg → s.conn.peer.Addresses r
  stopped : s.pc = .returned (-1) → s'.conn = s.conn ∧ cs = [] ∧ new = []

theorem Served.idle {s s' : HandshakeState (σ × List SslCall)}
    (hseen : s'.uring.ring.seen = s.uring.ring.seen)
    (hqueued : s'.uring.ring.queued = s.uring.ring.queued) (hconn : s'.conn = s.conn) :
    Served s s' [] [] where
  seen := hseen.trans (List.append_nil _).symm
  queued := hqueued.trans (List.append_nil _).symm
  moves := by
    rw [hconn]
    exact .receives (by simp) [] _
  written := congrArg _ hconn
  delivered := congrArg _ hconn
  sends := by simp
  stopped := fun _ => ⟨hconn, rfl, rfl⟩

theorem HandshakeSound.served_call {s : HandshakeState (σ × List SslCall)} (h : HandshakeSound s)
    (hpc : s.pc = .calling) : ∃ new, Served s (s.call api.traced) [] new := by
  obtain ⟨⟨held, taken, hinv⟩, -⟩ := h (by rw [hpc]; simp)
  obtain ⟨outs, hcalled⟩ := hinv.call api.traced
  obtain ⟨hmoves, hwritten, hdelivered⟩ := hcalled.moves
  refine ⟨outs, ?_, hcalled.effect.queued, hmoves, hwritten, hdelivered,
    fun r hr _ => (hcalled.entry r hr).addresses, fun hstop => ?_⟩
  · rw [hcalled.effect.seen, List.append_nil]
  · rw [hpc] at hstop
    cases hstop

theorem HandshakeSound.served_takeCqe {s : HandshakeState (σ × List SslCall)}
    (h : HandshakeSound s) {sockets : List Int}
    (harmed : s.pc ≠ .returned (-1) →
      Proofs.receives s.uring.ring.outstanding = multishots sockets)
    (hpc : s.pc = .waiting) {c : Cqe} {cq : List Cqe} (hcq : s.uring.ring.cq = c :: cq) :
    ∃ new, Served s (s.takeCqe c cq) [c] new := by
  obtain ⟨⟨held, taken, hinv⟩, hreqs⟩ := h (by rw [hpc]; simp)
  obtain ⟨ins, heff, hin, hconsumed⟩ := hinv.consume hreqs hpc hcq
  have hreceives : ∀ r ∈ ins, Receives r := fun r hr => (hin r hr).outgoing
  have hstopped : s.pc = .returned (-1) →
      (s.takeCqe c cq).conn = s.conn ∧ [c] = [] ∧ ins = [] := by
    intro hstop
    rw [hpc] at hstop
    cases hstop
  have hserved : Moves s.conn (s.takeCqe c cq).conn [c] ins ((s.takeCqe c cq).pc ≠ .returned (-1)) →
      (s.takeCqe c cq).conn.calls = s.conn.calls → Served s (s.takeCqe c cq) [c] ins := by
    intro hmoves hcalls
    refine ⟨heff.seen, heff.queued, hmoves, ?_, ?_,
      fun r hr hsend => absurd hsend (not_sendmsg (hin r hr).outgoing), hstopped⟩
    · simp only [Connection.written, hcalls]
    · simp only [Connection.delivered, hcalls]
  have hsame : (s.takeCqe c cq).conn = s.conn → Served s (s.takeCqe c cq) [c] ins := by
    intro hconn
    apply hserved _ (congrArg _ hconn)
    rw [hconn]
    exact .receives hreceives [c] _
  refine ⟨ins, ?_⟩
  cases hconsumed with
  | sent _ hconn _ _ => exact hsame hconn
  | stopped hconn _ => exact hsame hconn
  | foreign _ _ _ _ _ hconn _ _ => exact hsame hconn
  | own mid got idx _ hinc hfd hrecv hconn _ _ =>
      have htype : c.req.opcode.opType = .udpRecv := by
        apply (hreqs.seen hcq).1.resolve_left
        intro hsend
        rw [hsend] at hinc
        cases hinc
      have hlisten : Proofs.receives s.uring.ring.outstanding =
          Multiset.replicate 0 (.read, 0) + multishots sockets := by
        rw [Multiset.replicate_zero, zero_add]
        exact harmed (by rw [hpc]; simp)
      have hcmem : c ∈ s.uring.ring.cq := by
        rw [hcq]
        exact List.mem_cons_self
      obtain ⟨hcode, -⟩ := hinv.armed_datagram hlisten hcmem htype
      obtain ⟨hmoves, hcalls⟩ := hrecv.moves hcode hfd hconn hreceives
        ((s.takeCqe c cq).pc ≠ .returned (-1))
      exact hserved hmoves hcalls

theorem HandshakeSound.served {s : HandshakeState (σ × List SslCall)} (h : HandshakeSound s)
    {sockets : List Int}
    (harmed : s.pc ≠ .returned (-1) →
      Proofs.receives s.uring.ring.outstanding = multishots sockets)
    (e : HandshakeEvent) : ∃ cs new, Served s (s.step api.traced e) cs new := by
  cases e with
  | kernel e =>
      obtain ⟨hseen, hqueued⟩ := kernel_histories s.uring e
      exact ⟨[], [], .idle hseen hqueued rfl⟩
  | waitError =>
      simp only [HandshakeState.step]
      split
      · exact ⟨[], [], .idle rfl rfl rfl⟩
      · exact ⟨[], [], .idle rfl rfl rfl⟩
  | call =>
      by_cases hpc : s.pc = .calling
      · rw [HandshakeState.step, if_pos hpc]
        exact ⟨[], h.served_call hpc⟩
      · rw [HandshakeState.step, if_neg hpc]
        exact ⟨[], [], .idle rfl rfl rfl⟩
  | wake =>
      simp only [HandshakeState.step]
      split
      · rename_i c cq hpc hcq
        exact ⟨[c], h.served_takeCqe harmed hpc hcq⟩
      · exact ⟨[], [], .idle rfl rfl rfl⟩

/-! ## A datagram in `forwarder_run` -/

theorem Serves.moves {calls : List SslCall} {ds : List Bytes} (h : Serves conn conn' calls ds)
    (hfd : conn'.udpFd = conn.udpFd) (hds : HonestReceives cs → ds.Sublist (received conn.udpFd cs))
    (hnew : datagrams conn.udpFd new = []) : Moves conn conn' cs new goes := by
  refine ⟨hfd, fun hhonest base ws hws => ⟨ds, h.fed base ws hws, hds hhonest⟩,
    (calls.map SslCall.out).flatten, ?_, ?_, fun _ => ?_⟩
  · rw [Connection.output, h.recorded, List.map_append, List.flatten_append]
    rfl
  · rw [hnew]
    exact List.nil_prefix
  · rw [hnew]
    exact h.wbio

theorem Serves.delivered {calls : List SslCall} {ds : List Bytes} (h : Serves conn conn' calls ds) :
    conn'.delivered = conn.delivered ++ calls.filterMap SslCall.delivered := by
  rw [Connection.delivered, h.recorded, List.filterMap_append]
  rfl

theorem Serves.written {calls : List SslCall} {ds : List Bytes} (h : Serves conn conn' calls ds) :
    conn'.written = conn.written ++ calls.filterMap SslCall.written := by
  rw [Connection.written, h.recorded, List.filterMap_append]
  rfl

theorem encrypt_moves (api : Ssl σ) (conn : Connection (σ × List SslCall)) (data : Bytes)
    {rs : List Sqe} (hlen : rs.length ≤ 1)
    (hentry : ∀ r ∈ rs, SendOn ctx conn (conn.dtlsEncryptPacket api.traced data bufSize).2.1 r)
    (hins : datagrams conn.udpFd new = [])
    (hgoes : goes → rs ≠ [] ∧ 0 ≤ (conn.dtlsEncryptPacket api.traced data bufSize).1) :
    Moves conn (conn.dtlsEncryptPacket api.traced data bufSize).2.2 cs (new ++ rs) goes ∧
      (conn.dtlsEncryptPacket api.traced data bufSize).2.2.written = conn.written ++ [data] ∧
      (conn.dtlsEncryptPacket api.traced data bufSize).2.2.delivered = conn.delivered := by
  obtain ⟨call, hwritten, hdelivered, hcalls, hfed, hpart, hall⟩ :=
    encrypt_serves api conn data bufSize
  have hsent : (datagrams conn.udpFd (new ++ rs)).flatten =
      if rs = [] then [] else (conn.dtlsEncryptPacket api.traced data bufSize).2.1 := by
    rw [datagrams_append, hins, List.nil_append]
    exact datagrams_sendOn hlen hentry
  refine ⟨⟨(dtlsEncryptPacket_sameConn api.traced conn data bufSize).udpFd,
    fun _ base ws hws => ⟨[], ?_, List.nil_sublist _⟩, call.out, ?_, ?_, fun h => ?_⟩, ?_, ?_⟩
  · rw [List.append_nil]
    exact hfed base ws hws
  · rw [Connection.output, hcalls, List.map_append, List.flatten_append]
    simp [Connection.output]
  · rw [hsent]
    split
    · exact List.nil_prefix
    · exact hpart
  · obtain ⟨hne, henc⟩ := hgoes h
    rw [hsent, if_neg hne]
    exact hall henc
  · rw [Connection.written, hcalls, List.filterMap_append, List.filterMap_cons_some hwritten]
    rfl
  · rw [Connection.delivered, hcalls, List.filterMap_append, List.filterMap_cons_none hdelivered]
    exact List.append_nil _

theorem handsOver_withheld
    {recvConn forwardConn recvConn' forwardConn' : Connection (σ × List SslCall)}
    {ds : List Bytes} {n : Nat} (hds : recvConn'.delivered = recvConn.delivered ++ ds)
    (hws : forwardConn'.written = forwardConn.written) (hgoes : goes → ds = [] ∧ n = 0) :
    HandsOver recvConn forwardConn recvConn' forwardConn' n goes := by
  refine ⟨ds, [], hds, hws.trans (List.append_nil _).symm, List.nil_prefix, fun h => ?_⟩
  obtain ⟨hnil, hzero⟩ := hgoes h
  exact ⟨hnil.symm, by rw [hnil, hzero]; rfl⟩

theorem Forwarded.moves
    {recvConn forwardConn recvConn' forwardConn' : Connection (σ × List SslCall)}
    {data : Bytes} {len ret : Int} {rs ins : List Sqe} {c : Cqe}
    (h : Forwarded api.traced recvConn forwardConn data len ret rs recvConn' forwardConn')
    (hlen : rs.length ≤ 1)
    (hentry : ∀ r ∈ rs, SendOn ctx forwardConn (forwardConn.dtlsEncryptPacket api.traced
      (recvConn.dtlsDecryptPacket api.traced data len bufSize).2.1 bufSize).2.1 r)
    (hdone : ret = 0 → rs ≠ []) (hfds : recvConn.udpFd ≠ forwardConn.udpFd)
    (hins : ∀ r ∈ ins, Receives r)
    (hfed : HonestReceives [c] → [data.take len.toNat].Sublist (received recvConn.udpFd [c])) :
    Moves recvConn recvConn' [c] (ins ++ rs) (ret = 0) ∧
      Moves forwardConn forwardConn' [c] (ins ++ rs) (ret = 0) ∧
      HandsOver recvConn forwardConn recvConn' forwardConn' 1 (ret = 0) ∧
      HandsOver forwardConn recvConn forwardConn' recvConn' 0 (ret = 0) := by
  have hown : datagrams recvConn.udpFd (ins ++ rs) = [] := by
    rw [datagrams_append, datagrams_of_receives hins, List.nil_append]
    exact datagrams_other hfds fun r hr _ => (hentry r hr).carries.fd
  obtain ⟨calls, ds, hserves, hds, hdelivered, hwritten⟩ :=
    decrypt_serves api recvConn data len bufSize
  have hrecv : Moves recvConn (recvConn.dtlsDecryptPacket api.traced data len bufSize).2.2.2 [c]
      (ins ++ rs) (ret = 0) :=
    hserves.moves (dtlsDecryptPacket_sameConn api.traced recvConn data len bufSize).udpFd
      (fun hhonest => hds.trans (hfed hhonest)) hown
  have hkept : (recvConn.dtlsDecryptPacket api.traced data len bufSize).2.2.2.written =
      recvConn.written := by
    rw [hserves.written, hwritten, List.append_nil]
  have hback : ∀ {forwardConn' recvConn' : Connection (σ × List SslCall)},
      forwardConn'.delivered = forwardConn.delivered → recvConn'.written = recvConn.written →
      HandsOver forwardConn recvConn forwardConn' recvConn' 0 (ret = 0) := fun hsame hsame' =>
    handsOver_withheld (hsame.trans (List.append_nil _).symm) hsame' fun _ => ⟨rfl, rfl⟩
  cases h with
  | unread hret hrs =>
      have hfail : ¬ ret = 0 := by omega
      rw [hrs, List.append_nil]
      exact ⟨.receives hins _ _, .receives hins _ _,
        handsOver_withheld (List.append_nil _).symm rfl fun hzero => absurd hzero hfail,
        hback rfl rfl⟩
  | unsent hret hrs =>
      have hfail : ¬ ret = 0 := by omega
      refine ⟨hrecv, ?_, handsOver_withheld hserves.delivered rfl fun hzero => absurd hzero hfail,
        hback rfl hkept⟩
      rw [hrs, List.append_nil]
      exact .receives hins _ _
  | sent hpos henc =>
      obtain ⟨hforward, hpassed, hsame⟩ : Moves forwardConn _ [c] (ins ++ rs) (ret = 0) ∧ _ ∧ _ :=
        encrypt_moves api forwardConn _ hlen hentry (datagrams_of_receives hins forwardConn.udpFd)
          fun hzero => ⟨hdone hzero, henc hzero⟩
      have hobtained := hserves.delivered
      rw [hdelivered hpos] at hobtained
      exact ⟨hrecv, hforward, ⟨_, _, hobtained, hpassed, List.prefix_rfl, fun _ => ⟨rfl, rfl⟩⟩,
        hback hsame hkept⟩

structure BothServed (ring ring' : IoUring)
    (conn other conn' other' : Connection (σ × List SslCall)) (cs : List Cqe) (new : List Sqe)
    (n n' : Nat) (goes : Prop) : Prop where
  seen : ring'.seen = ring.seen ++ cs
  queued : ring'.queued = ring.queued ++ new
  inbound : Moves conn conn' cs new goes
  outbound : Moves other other' cs new goes
  forth : HandsOver conn other conn' other' n goes
  back : HandsOver other conn other' conn' n' goes

variable {inbound outbound : Connection (σ × List SslCall)}

theorem BothServed.receives {ring ring' : IoUring} {n n' : Nat}
    (hseen : ring'.seen = ring.seen ++ cs) (hqueued : ring'.queued = ring.queued ++ new)
    (hnew : ∀ r ∈ new, Receives r) (hgoes : goes → n = 0 ∧ n' = 0) :
    BothServed ring ring' inbound outbound inbound outbound cs new n n' goes where
  seen := hseen
  queued := hqueued
  inbound := .receives hnew cs goes
  outbound := .receives hnew cs goes
  forth := handsOver_withheld (List.append_nil _).symm rfl fun h => ⟨rfl, (hgoes h).1⟩
  back := handsOver_withheld (List.append_nil _).symm rfl fun h => ⟨rfl, (hgoes h).2⟩

theorem BothServed.mono {ring ring' : IoUring}
    {inbound' outbound' : Connection (σ × List SslCall)} {n n' : Nat} {goes' : Prop}
    (h : BothServed ring ring' inbound outbound inbound' outbound' cs new n n' goes)
    (hgoes : goes' → goes) :
    BothServed ring ring' inbound outbound inbound' outbound' cs new n n' goes' := by
  have hover : ∀ {conn conn' other other' : Connection (σ × List SslCall)} {k : Nat},
      HandsOver conn other conn' other' k goes → HandsOver conn other conn' other' k goes' := by
    rintro _ _ _ _ _ ⟨ds, ws, hds, hws, hpart, hall⟩
    exact ⟨ds, ws, hds, hws, hpart, fun h => hall (hgoes h)⟩
  exact ⟨h.seen, h.queued, h.inbound.mono hgoes, h.outbound.mono hgoes, hover h.forth, hover h.back⟩

theorem Received.fed {c : Cqe} (hrecv : Received ctx c c.req.userData got idx)
    (hcode : c.req.opcode = .recvmsgMultishot) (hres : 0 ≤ c.res) {fd : Int} (hfd : c.req.fd = fd)
    (hhonest : HonestReceives [c]) :
    [(ctx.load (ctx.ops c.req.userData).buffer (ctx.ops c.req.userData).dataLen.toNat).take
      (ctx.ops c.req.userData).dataLen.toNat].Sublist (received fd [c]) := by
  have htype : c.req.opcode.opType = .udpRecv := by
    rw [hcode]
    rfl
  have hdatagram : c.Datagram fd := ⟨htype, hfd, hrecv.nonEmpty hcode⟩
  obtain ⟨hload, hlen⟩ := hrecv.payload (hhonest c (List.mem_singleton_self c) htype hres)
  rw [hload, hlen, Int.toNat_natCast, List.take_length, received, List.filter_singleton,
    decide_eq_true hdatagram]
  exact List.Sublist.refl _

/-- A turn of `forwarder_run`. -/
theorem Inv.forwarder_served (api : Ssl σ) {s : LoopState (σ × List SslCall)}
    (h : Inv s.uring held taken)
    (hprog : s.prog = .forwarderRun inbound outbound) (hfds : inbound.udpFd ≠ outbound.udpFd)
    {k : Nat} {fd : Int} (harmed : receives s.uring.ring.outstanding =
      Multiset.replicate k (.read, fd) + multishots [inbound.udpFd, outbound.udpFd]) {c : Cqe}
    {cq : List Cqe} (hcq : s.uring.ring.cq = c :: cq) :
    ∃ inbound' outbound' new,
      (takeCqe api.traced s c cq).prog = .forwarderRun inbound' outbound' ∧
      BothServed s.uring.ring (takeCqe api.traced s c cq).uring.ring inbound outbound inbound'
        outbound' [c] new
          (if c.req.opcode.outgoing = false ∧ c.req.fd = inbound.udpFd then 1 else 0)
        (if c.req.opcode.outgoing = false ∧ c.req.fd = outbound.udpFd then 1 else 0)
        ((takeCqe api.traced s c cq).status.ok = true) := by
  unfold Model.takeCqe
  rcases hstep : (s.uring.iouringCqeSeen c cq).waitForRecvBody c with ⟨step, ctx⟩
  cases h.wait hcq hstep with
  | again _ hout heff _ =>
      refine ⟨inbound, outbound, [], hprog, .receives heff.seen heff.queued (by simp) fun _ => ?_⟩
      rw [hout]
      exact ⟨if_neg (by simp), if_neg (by simp)⟩
  | null rs heff hrs _ =>
      refine ⟨inbound, outbound, rs, hprog, .receives heff.seen heff.queued
        (fun r hr => (hrs r hr).outgoing) fun hok => ?_⟩
      simp [Status.ok] at hok
  | recv rs got idx hres hin heff hrs hinv hrecv =>
      have hins : ∀ r ∈ rs, Receives r := fun r hr => (hrs r hr).outgoing
      rcases hbody : forwarderRunBody api.traced ctx inbound outbound c.req.userData with
        ⟨ret, rest, ctx', prog⟩
      simp only [hprog, Program.body, hbody, atLoopHead_eq]
      -- a body that fails ends the loop
      have hok : (ret = 0 ∨ ret = -1) →
          (headStatus prog s.running s.status ret rest).ok = true → ret = 0 := by
        rintro (rfl | rfl) hok
        · rfl
        · simp [headStatus, Status.ok] at hok
      by_cases htype : (ctx.ops c.req.userData).opType = .udpRecv
      · have hcmem : c ∈ s.uring.ring.cq := by
          rw [hcq]
          exact List.mem_cons_self
        obtain ⟨hcode, hmem⟩ := h.armed_datagram harmed hcmem (hrecv.opType.symm.trans htype)
        by_cases hfd : c.req.fd = inbound.udpFd
        · obtain ⟨rs', inbound', outbound', rfl, hh, hforwarded⟩ :=
            hinv.forwarderRunBody_inbound hrecv htype (hrecv.fd.trans hfd) rfl rfl hbody
          obtain ⟨hrecvd, hsent, hforth, hback⟩ :=
            hforwarded.moves hh.single hh.entry hh.queues hfds hins
            fun hhonest => hrecv.fed hcode hres hfd hhonest
          rw [if_pos ⟨hin, hfd⟩, if_neg (by rw [hfd]; exact fun hboth => hfds hboth.2)]
          exact ⟨inbound', outbound', rs ++ rs', rfl, BothServed.mono
            ⟨(heff.trans hh.effect).seen, (heff.trans hh.effect).queued, hrecvd, hsent, hforth,
              hback⟩ (hok hh.ret_cases)⟩
        · have hfd' : c.req.fd = outbound.udpFd := by
            rcases List.mem_cons.mp hmem with hmem | hmem
            · exact absurd hmem hfd
            · exact List.mem_singleton.mp hmem
          obtain ⟨rs', inbound', outbound', rfl, hh, hforwarded⟩ :=
            hinv.forwarderRunBody_outbound hrecv htype (fun heq => hfd (hrecv.fd.symm.trans heq))
              rfl rfl hbody
          obtain ⟨hrecvd, hsent, hback, hforth⟩ := hforwarded.moves hh.single hh.entry hh.queues
            hfds.symm hins fun hhonest => hrecv.fed hcode hres hfd' hhonest
          rw [if_neg fun hboth => hfd hboth.2, if_pos ⟨hin, hfd'⟩]
          exact ⟨inbound', outbound', rs ++ rs', rfl, BothServed.mono
            ⟨(heff.trans hh.effect).seen, (heff.trans hh.effect).queued, hsent, hrecvd, hforth,
              hback⟩ (hok hh.ret_cases)⟩
      · obtain ⟨rfl, hh⟩ := hinv.forwarderRunBody_other htype hbody
        have heff' := heff.trans hh.effect
        rw [List.append_nil] at heff'
        refine ⟨inbound, outbound, rs, rfl, .receives heff'.seen heff'.queued hins fun hgoes => ?_⟩
        exfalso
        rcases hh.done with ⟨-, hne, -⟩ | ⟨rfl, -⟩
        · exact hne rfl
        · simp [headStatus, Status.ok] at hgoes

/-! ## A step of the forwarder -/

theorem connections_peers {s : Session (σ × List SslCall)}
    (h : s.connections = some (inbound, outbound)) : s.peers = [inbound.peer, outbound.peer] := by
  cases s with
  | handshake stage s running =>
      cases stage with
      | edge tunFd => cases h
      | inbound other =>
          obtain ⟨rfl, rfl⟩ := Prod.mk.inj (Option.some.inj h)
          rfl
      | outbound other =>
          obtain ⟨rfl, rfl⟩ := Prod.mk.inj (Option.some.inj h)
          rfl
  | loop s =>
      simp only [Session.connections] at h
      split at h
      · rename_i hprog
        obtain ⟨rfl, rfl⟩ := Prod.mk.inj (Option.some.inj h)
        rw [Session.peers, hprog]
        rfl
      · cases h
  | returned uring => cases h

structure StepServes (api : Ssl σ) (s : Session (σ × List SslCall)) (e : SessionEvent)
    (conn other conn' other' : Connection (σ × List SslCall)) (cs : List Cqe) (new : List Sqe) :
    Prop where
  connections : (s.step api.traced e).connections = some (conn', other')
  served : BothServed s.uring.ring (s.step api.traced e).uring.ring conn other conn' other' cs new
    (s.forwards e conn.udpFd) (s.forwards e other.udpFd) (s.step api.traced e).Goes
  ended : ¬ s.Goes → conn' = conn ∧ other' = other ∧ cs = [] ∧ new = [] ∧
    ¬ (s.step api.traced e).Goes

theorem StepServes.quiet {s : Session (σ × List SslCall)} {e : SessionEvent}
    (hconns : s.connections = some (inbound, outbound))
    (hsame : (s.step api.traced e).connections = s.connections)
    (hseen : (s.step api.traced e).uring.ring.seen = s.uring.ring.seen)
    (hqueued : (s.step api.traced e).uring.ring.queued = s.uring.ring.queued)
    (hgoes : (s.step api.traced e).Goes → s.Goes) (hforwards : ∀ fd, s.forwards e fd = 0) :
    StepServes api s e inbound outbound inbound outbound [] [] where
  connections := hsame.trans hconns
  served := .receives (hseen.trans (List.append_nil _).symm)
    (hqueued.trans (List.append_nil _).symm)
    (by simp) fun _ => ⟨hforwards _, hforwards _⟩
  ended := fun hnot => ⟨rfl, rfl, rfl, rfl, fun h => hnot (hgoes h)⟩

theorem BothServed.swap {ring ring' : IoUring} {inbound' outbound' : Connection (σ × List SslCall)}
    {n n' : Nat} (h : BothServed ring ring' inbound outbound inbound' outbound' cs new n n' goes) :
    BothServed ring ring' outbound inbound outbound' inbound' cs new n' n goes :=
  ⟨h.seen, h.queued, h.outbound, h.inbound, h.back, h.forth⟩

theorem Served.both {s s' : HandshakeState (σ × List SslCall)} (h : Served s s' cs new)
    (hfds : s.conn.udpFd ≠ other.udpFd) :
    BothServed s.uring.ring s'.uring.ring s.conn other s'.conn other cs new 0 0
      (s'.pc ≠ .returned (-1)) where
  seen := h.seen
  queued := h.queued
  inbound := h.moves
  outbound := .same cs _ (datagrams_other hfds.symm fun r hr hsend => (h.sends r hr hsend).fd)
  forth := handsOver_withheld (h.delivered.trans (List.append_nil _).symm) rfl fun _ => ⟨rfl, rfl⟩
  back := handsOver_withheld (List.append_nil _).symm h.written fun _ => ⟨rfl, rfl⟩

theorem HandshakeSound.stepServes {s : HandshakeState (σ × List SslCall)} (h : HandshakeSound s)
    {sockets : List Int} (harmed : s.pc ≠ .returned (-1) →
      Proofs.receives s.uring.ring.outstanding = multishots sockets)
    {stage : Stage (σ × List SslCall)} {running : Bool}
    (hconns : (Session.handshake stage s running).connections = some (inbound, outbound))
    (hfds : inbound.udpFd ≠ outbound.udpFd) {e : SessionEvent} {e' : HandshakeEvent}
    (hstep : (Session.handshake stage s running).step api.traced e =
      .handshake stage (s.step api.traced e') running) :
    ∃ inbound' outbound' cs new, StepServes api (.handshake stage s running) e inbound outbound
      inbound' outbound' cs new := by
  obtain ⟨cs, new, hserved⟩ : ∃ cs new, Served s (s.step api.traced e') cs new :=
    h.served harmed e'
  have hended : s.pc = .returned (-1) → ¬ (s.step api.traced e').pc ≠ .returned (-1) :=
    fun hstop => not_not.mpr (step_returned hstop e')
  cases stage with
  | edge tunFd => cases hconns
  | inbound other =>
      obtain ⟨rfl, rfl⟩ := Prod.mk.inj (Option.some.inj hconns)
      refine ⟨(s.step api.traced e').conn, other, cs, new, ?_, ?_, fun hnot => ?_⟩
      · rw [hstep]
        rfl
      · rw [hstep]
        exact hserved.both hfds
      · rw [hstep]
        obtain ⟨hconn, hcs, hnew⟩ := hserved.stopped (not_not.mp hnot)
        exact ⟨hconn, rfl, hcs, hnew, hended (not_not.mp hnot)⟩
  | outbound other =>
      obtain ⟨rfl, rfl⟩ := Prod.mk.inj (Option.some.inj hconns)
      refine ⟨other, (s.step api.traced e').conn, cs, new, ?_, ?_, fun hnot => ?_⟩
      · rw [hstep]
        rfl
      · rw [hstep]
        exact (hserved.both hfds.symm).swap
      · rw [hstep]
        obtain ⟨hconn, hcs, hnew⟩ := hserved.stopped (not_not.mp hnot)
        exact ⟨rfl, hconn, hcs, hnew, hended (not_not.mp hnot)⟩

theorem proceed_connections {s : HandshakeState (σ × List SslCall)}
    {stage : Stage (σ × List SslCall)} {running : Bool}
    (hconns : (Session.handshake stage s running).connections = some (inbound, outbound)) :
    (Session.proceed s running stage).connections = some (inbound, outbound) ∧
      (Session.proceed s running stage).uring = s.uring := by
  cases stage with
  | edge tunFd => cases hconns
  | inbound other => exact ⟨hconns, rfl⟩
  | outbound other =>
      simp only [Session.proceed, Session.connections, Session.uring, start_prog, start_uring]
      exact ⟨hconns, trivial⟩

theorem Wired.serves (api : Ssl σ) {s : Session (σ × List SslCall)}
    (h : s.Wired [inbound.udpFd, outbound.udpFd]) (hfds : inbound.udpFd ≠ outbound.udpFd)
    (hconns : s.connections = some (inbound, outbound)) (e : SessionEvent) :
    ∃ inbound' outbound' cs new, StepServes api s e inbound outbound inbound' outbound' cs new := by
  cases s with
  | handshake stage s running =>
      have hquiet := @StepServes.quiet σ api inbound outbound (.handshake stage s running) e hconns
      have hserves : ∀ e', (Session.handshake stage s running).step api.traced e =
          .handshake stage (s.step api.traced e') running → _ :=
        fun e' => HandshakeSound.stepServes h.good h.armed hconns hfds
      cases e with
      | stop =>
          refine ⟨_, _, _, _, hquiet ?_ rfl rfl id fun _ => rfl⟩
          cases stage <;> rfl
      | proceed =>
          by_cases hpc : s.pc = .returned 0
          · obtain ⟨hsame, huring⟩ := proceed_connections hconns
            have hstep : (Session.handshake stage s running).step api.traced .proceed =
                Session.proceed s running stage := if_pos hpc
            have hgoes : s.pc ≠ .returned (-1) := by
              rw [hpc]
              simp
            rw [hstep] at hquiet
            exact ⟨_, _, _, _, hquiet (hsame.trans hconns.symm) (by rw [huring]; rfl)
              (by rw [huring]; rfl) (fun _ => hgoes) fun _ => rfl⟩
          · have hstep : (Session.handshake stage s running).step api.traced .proceed =
                .handshake stage s running := if_neg hpc
            rw [hstep] at hquiet
            exact ⟨_, _, _, _, hquiet rfl rfl rfl id fun _ => rfl⟩
      | call => exact hserves .call rfl
      | kernel e => exact hserves (.kernel e) rfl
      | wake => exact hserves .wake rfl
      | waitError => exact hserves .waitError rfl
  | loop s =>
      have hquiet := @StepServes.quiet σ api inbound outbound (.loop s) e hconns
      cases e with
      | call => exact ⟨_, _, _, _, hquiet rfl rfl rfl id fun _ => rfl⟩
      | proceed => exact ⟨_, _, _, _, hquiet rfl rfl rfl id fun _ => rfl⟩
      | stop => exact ⟨_, _, _, _, hquiet rfl rfl rfl id fun _ => rfl⟩
      | kernel e =>
          obtain ⟨hseen, hqueued⟩ := kernel_histories s.uring e
          exact ⟨_, _, _, _, hquiet rfl hseen hqueued id fun _ => rfl⟩
      | waitError =>
          simp only [Session.step, SessionEvent.loop, LoopState.step] at hquiet
          refine ⟨_, _, _, _, hquiet ?_ ?_ ?_ ?_ fun _ => rfl⟩
          · split <;> rfl
          · split <;> rfl
          · split <;> rfl
          · split
            · rename_i hstatus
              intro _
              simp [Session.Goes, hstatus, Status.ok]
            · exact id
      | wake =>
          by_cases hwait : ∃ c cq, s.status = .waiting ∧ s.uring.ring.cq = c :: cq
          · obtain ⟨c, cq, hstatus, hcq⟩ := hwait
            have hok : s.status.ok = true := by rw [hstatus]; rfl
            obtain ⟨held, taken, hinv⟩ := h.good hok
            obtain ⟨k, fd, harmed⟩ := h.armed hok
            have hprog : s.prog = .forwarderRun inbound outbound := by
              simp only [Session.connections] at hconns
              split at hconns
              · rename_i heq
                obtain ⟨rfl, rfl⟩ := Prod.mk.inj (Option.some.inj hconns)
                exact heq
              · cases hconns
            obtain ⟨inbound', outbound', new, hprog', hserved⟩ :=
              hinv.forwarder_served api hprog hfds harmed hcq
            have hstep : (Session.loop s).step api.traced .wake =
                .loop (takeCqe api.traced s c cq) := by
              simp only [Session.step, SessionEvent.loop, LoopState.step,
                LoopState.wake, hstatus, hcq]
            refine ⟨inbound', outbound', [c], new, ?_, ?_, fun hnot => absurd hok hnot⟩
            · rw [hstep, Session.connections, hprog']
            · rw [hstep]
              simp only [Session.forwards, hstatus, hcq]
              exact hserved
          · have hstep : (Session.loop s).step api.traced .wake = .loop s := by
              simp only [Session.step, SessionEvent.loop, LoopState.step, LoopState.wake]
              split
              · rename_i c cq hstatus hcq
                exact absurd ⟨c, cq, hstatus, hcq⟩ hwait
              · rfl
            rw [hstep] at hquiet
            refine ⟨_, _, _, _, hquiet rfl rfl rfl id fun fd => ?_⟩
            simp only [Session.forwards]
            split
            · rename_i c cq hstatus hcq
              exact absurd ⟨c, cq, hstatus, hcq⟩ hwait
            · rfl
  | returned uring => cases hconns

/-! ## Every run -/

theorem OwnTraffic.ended {first : Connection σ} {ring ring' : IoUring} {went : Prop}
    (h : OwnTraffic first conn ring went) (hseen : ring'.seen = ring.seen ++ [])
    (hqueued : ring'.queued = ring.queued ++ []) (hgoes : ¬ goes) :
    OwnTraffic first conn ring' goes := by
  rw [List.append_nil] at hseen hqueued
  refine ⟨h.udpFd, ?_, ?_, fun hg => absurd hg hgoes⟩
  · rw [hseen]
    exact h.fed
  · rw [hqueued]
    exact h.sent

theorem Wired.isolated {first first' : Connection σ} (hfds : first.udpFd ≠ first'.udpFd)
    {s : Session (σ × List SslCall)} (h : s.Wired [first.udpFd, first'.udpFd])
    (hs : s.Isolated first first') (e : SessionEvent) :
    (s.step api.traced e).Isolated first first' := by
  obtain ⟨conn, conn', hconns, hown, hown', hrelayed, hrelayed'⟩ := hs
  rw [← hown.udpFd, ← hown'.udpFd] at h hfds
  obtain ⟨next, next', cs, new, hserves⟩ := Wired.serves api h hfds hconns e
  have hserved := hserves.served
  refine ⟨next, next', hserves.connections, ?_⟩
  by_cases hgoes : s.Goes
  · exact ⟨OwnTraffic.moves hown hgoes hserved.inbound hserved.seen hserved.queued,
      OwnTraffic.moves hown' hgoes hserved.outbound hserved.seen hserved.queued,
      Relayed.handsOver hrelayed hgoes hserved.forth,
      Relayed.handsOver hrelayed' hgoes hserved.back⟩
  · obtain ⟨rfl, rfl, rfl, rfl, hnot⟩ := hserves.ended hgoes
    exact ⟨OwnTraffic.ended hown hserved.seen hserved.queued hnot,
      OwnTraffic.ended hown' hserved.seen hserved.queued hnot,
      ⟨hrelayed.written, fun hg => absurd hg hnot⟩, ⟨hrelayed'.written, fun hg => absurd hg hnot⟩⟩

theorem Wired.separates {first first' : Connection σ} (hfds : first.udpFd ≠ first'.udpFd)
    {s : Session (σ × List SslCall)} (h : s.Wired [first.udpFd, first'.udpFd])
    (hs : s.Isolated first first') (e : SessionEvent) : s.Separates api e := by
  obtain ⟨conn, conn', hconns, hown, hown', -, -⟩ := hs
  rw [← hown.udpFd, ← hown'.udpFd] at h hfds
  obtain ⟨next, next', cs, new, hserves⟩ := Wired.serves api h hfds hconns e
  obtain ⟨new', hqueued, haddr⟩ := Wired.sends api.traced h e
  have hsame : new = new' :=
    List.append_cancel_left (hserves.served.queued.symm.trans hqueued)
  refine ⟨conn, conn', next, next', new, hconns, hserves.connections, hserves.served.forth,
    hserves.served.back, hserves.served.queued, fun r hr hsend => ?_⟩
  rw [hsame] at hr
  obtain ⟨p, hp, hto⟩ := haddr r hr hsend
  have hmem := senders_subset hp
  rw [connections_peers hconns] at hmem
  rcases List.mem_cons.mp hmem with rfl | hmem
  · exact .inl hto
  · rw [List.mem_singleton.mp hmem] at hto
    exact .inr hto

theorem ownTraffic_start {first : Connection σ} {ring : IoUring}
    (hqueued : ∀ r ∈ ring.queued, r.opcode.outgoing = false) :
    OwnTraffic first first.watched ring goes := by
  have hnone : datagrams first.udpFd ring.queued = [] := datagrams_of_receives hqueued first.udpFd
  refine ⟨rfl, fun _ => ⟨[], .start, List.nil_sublist _⟩, ?_, fun _ => ?_⟩
  · rw [hnone]
    exact List.nil_prefix
  · rw [hnone]
    exact (List.append_nil _).symm

theorem watched_fst (s : Session σ) : s.watched.map Prod.fst = s := by
  cases s with
  | handshake stage s running => cases stage <;> rfl
  | loop s =>
      obtain ⟨uring, prog, running, status⟩ := s
      cases prog <;> rfl
  | returned uring => rfl

/-- In every session of the forwarder, over two sockets, each connection gets
datagrams of its own socket only and sends what its own SSL object has made, and
plaintexts go from the one connection to the other, in order and once each. -/
theorem connections_isolated (api : Ssl σ) (config : IouringConfig) (sqeFree : Nat → Bool)
    (submits : Nat → Int) {inbound outbound : Connection σ}
    (hfds : inbound.udpFd ≠ outbound.udpFd) {running : Bool} {start : Session σ}
    (hstart : Session.start (IouringCtx.iouringInit config sqeFree submits)
      (.forwarderRun inbound outbound) running = some start) (es : List SessionEvent) :
    (start.watched.run api.traced es).map Prod.fst = start.run api es ∧
      (start.watched.run api.traced es).Isolated inbound outbound ∧
      ∀ e, (start.watched.run api.traced es).Separates api e := by
  have hwatched : Session.start (IouringCtx.iouringInit config sqeFree submits)
      (.forwarderRun inbound.watched outbound.watched) running = some start.watched := by
    have hmap := start_map (f := fun ssl : σ => (ssl, ([] : List SslCall)))
      (IouringCtx.iouringInit config sqeFree submits) (.forwarderRun inbound outbound) running
    rw [hstart] at hmap
    exact hmap
  have hwired : start.watched.Wired [inbound.udpFd, outbound.udpFd] :=
    wired_start config sqeFree submits hwatched
  have hfirst : start.watched.Isolated inbound outbound := by
    have hqueued := session_start_queued hwatched
    refine ⟨inbound.watched, outbound.watched, ?_, ownTraffic_start hqueued,
      ownTraffic_start hqueued, ⟨List.prefix_rfl, fun _ => rfl⟩, ⟨List.prefix_rfl, fun _ => rfl⟩⟩
    generalize start.watched = s at hwatched
    cases started_of_start hwatched
    rfl
  have hrun : (start.watched.run api.traced es).Wired [inbound.udpFd, outbound.udpFd] ∧
      (start.watched.run api.traced es).Isolated inbound outbound :=
    Execution.run_invariant (fun _ => True)
      (fun t : Session (σ × List SslCall) =>
        t.Wired [inbound.udpFd, outbound.udpFd] ∧ t.Isolated inbound outbound)
      (fun _ e _ hs => ⟨Wired.step hs.1 e, Wired.isolated hfds hs.1 hs.2 e⟩) (fun _ _ => trivial)
      ⟨hwired, hfirst⟩
  refine ⟨?_, hrun.2, Wired.separates hfds hrun.1 hrun.2⟩
  rw [← lifts_run (traced_lifts api), watched_fst]

def outboundConn : Connection Unit :=
  ⟨4, .client, (), [], [], [10, 0, 0, 2] ++ List.replicate 124 0, 4, .handshaking⟩

def forwarderSession : Session Unit :=
  (Session.start (IouringCtx.iouringInit forwarderConfig (fun _ => true) fun _ => 1)
    (.forwarderRun inboundConn outboundConn) true).getD
      (.returned (IouringCtx.iouringInit forwarderConfig (fun _ => true) fun _ => 1))

def forwardOnce : List SessionEvent :=
  [.call, .proceed, .call, .proceed,
    .kernel (.recv 0 1 147 (recvmsgOut 128 [10, 0, 0, 1] (List.replicate 124 0) [4, 5, 6]) true 1),
    .wake]

/-- One datagram is forwarded. -/
theorem connections_isolated_once :
    (forwarderSession.watched.run plainSsl.traced forwardOnce).map Prod.fst =
        forwarderSession.run plainSsl forwardOnce ∧
      (forwarderSession.watched.run plainSsl.traced forwardOnce).Isolated inboundConn outboundConn ∧
      ∀ e, (forwarderSession.watched.run plainSsl.traced forwardOnce).Separates plainSsl e :=
  connections_isolated plainSsl forwarderConfig (fun _ => true) (fun _ => 1)
    (show (3 : Int) ≠ 4 by decide) rfl forwardOnce

end Dataplane.Proofs
