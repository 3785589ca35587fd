import Dataplane.Proofs.EdgeTraffic
import Dataplane.Proofs.Transparency

/-!
# From hop to hop to end to end

What DTLS guarantees between the two ends of one connection the tunnel guarantees
between its two TUN devices, whatever the network does and whichever connections
are established: an edge passes on what it reads, a forwarder what it is
delivered, and an edge writes what it is delivered.
-/

namespace Dataplane.Model

open ProofSupport

variable {σ : Type}

namespace Session

/-- The connection through which packets leave a session on a way.  They come in
through the connection of the way back. -/
def connection (s : Session σ) (w : Way) : Option (Connection σ) :=
  match s, w with
  | .handshake (.edge _) s _, _ => some s.conn
  | .handshake (.inbound outbound) _ _, .up => some outbound
  | .handshake (.inbound _) s _, .down => some s.conn
  | .handshake (.outbound _) s _, .up => some s.conn
  | .handshake (.outbound inbound) _ _, .down => some inbound
  | .loop s, w => match s.prog, w with
      | .tunUdpRun conn _, _ | .tunUdpRunZero conn _, _ => some conn
      | .forwarderRun _ outbound, .up => some outbound
      | .forwarderRun inbound _, .down => some inbound
  | .returned _, _ => none

def passed (s : Session (σ × List SslCall)) (w : Way) : List Bytes :=
  (s.connection w).elim [] Connection.written

def delivered (s : Session (σ × List SslCall)) (w : Way) : List Bytes :=
  (s.connection w.back).elim [] Connection.delivered

def readTun (prog : Program σ) (s : Session (σ × List SslCall)) : List Bytes :=
  prog.tun.elim [] fun fd => packetsRead fd s.uring.ring.seen

def wroteTun (prog : Program σ) (s : Session (σ × List SslCall)) : List Bytes :=
  prog.tun.elim [] fun fd => packetsWritten fd s.uring.ring.queued

/-- A session of `prog` that has come to `s`, with the record of its calls. -/
def Of (api : Ssl σ) (prog : Program σ) (s : Session (σ × List SslCall)) : Prop :=
  ∃ config sqeFree submits running start es,
    Session.start (IouringCtx.iouringInit config sqeFree submits) prog running = some start ∧
      s = start.watched.run api.traced es

end Session

/-- An edge client, `n` forwarders over two sockets each, and an edge server. -/
structure TunnelPrograms (n : Nat) (prog : Nat → Program σ) : Prop where
  client : ∃ conn tunFd, prog 0 = .tunUdpRun conn tunFd
  forwarder : ∀ i, 1 ≤ i → i ≤ n → ∃ inbound outbound,
    prog i = .forwarderRun inbound outbound ∧ inbound.udpFd ≠ outbound.udpFd
  server : ∃ conn tunFd, prog (n + 1) = .tunUdpRun conn tunFd

end Dataplane.Model

namespace Dataplane.Proofs

open ProofSupport Model Ledger

variable {σ : Type} {api : Ssl σ} {prog : Nat → Program σ}
  {s : Nat → Session (σ × List SslCall)} {chain : Chain} {w : Way}

/-! ## The sessions of a tunnel -/

theorem tunnels_of {first : Connection σ} {tunFd : Int} {s : Session (σ × List SslCall)}
    (hcounts : api.Counts) (h : s.Of api (.tunUdpRun first tunFd)) : s.Tunnels first tunFd := by
  obtain ⟨config, sqeFree, submits, running, start, es, hstart, rfl⟩ := h
  exact (edgeInv_run hcounts hstart es).tunnels

theorem isolated_of {inbound outbound : Connection σ} {s : Session (σ × List SslCall)}
    (hfds : inbound.udpFd ≠ outbound.udpFd) (h : s.Of api (.forwarderRun inbound outbound)) :
    s.Isolated inbound outbound := by
  obtain ⟨config, sqeFree, submits, running, start, es, hstart, rfl⟩ := h
  have hwatched := watched_start hstart
  have hwired : start.watched.Wired [inbound.udpFd, outbound.udpFd] :=
    wired_start config sqeFree submits hwatched
  have hfirst : start.watched.Isolated inbound outbound := by
    have hqueued := session_start_queued hwatched
    refine ⟨inbound.watched, outbound.watched, ?_, ownTraffic_start hqueued,
      ownTraffic_start hqueued, ⟨List.prefix_rfl, fun _ => rfl⟩, ⟨List.prefix_rfl, fun _ => rfl⟩⟩
    generalize start.watched = s at hwatched
    cases started_of_start hwatched
    rfl
  have hrun : (start.watched.run api.traced es).Wired [inbound.udpFd, outbound.udpFd] ∧
      (start.watched.run api.traced es).Isolated inbound outbound :=
    Execution.run_invariant (fun _ => True)
      (fun t : Session (σ × List SslCall) =>
        t.Wired [inbound.udpFd, outbound.udpFd] ∧ t.Isolated inbound outbound)
      (fun _ e _ hs => ⟨Wired.step hs.1 e, Wired.isolated hfds hs.1 hs.2 e⟩) (fun _ _ => trivial)
      ⟨hwired, hfirst⟩
  exact hrun.2

theorem Tunnels.reads {first : Connection σ} {tunFd : Int} {s : Session (σ × List SslCall)}
    (h : s.Tunnels first tunFd) (hhonest : HonestReads s.uring.ring.seen) (w : Way) :
    Follows (packetsRead tunFd s.uring.ring.seen) (s.passed w) s.Goes := by
  cases h with
  | handshake running huntouched hwritten hdelivered hown =>
      simp only [Session.uring, Session.passed, Session.connection, Option.elim, hwritten]
      rw [packetsRead_nil tunFd huntouched.seen]
      exact .same [] _
  | loop hprog htraffic =>
      simp only [Session.uring, Session.passed, Session.connection, hprog, Option.elim]
      exact htraffic.sent hhonest
  | returned huntouched =>
      simp only [Session.uring, Session.passed, Session.connection, Option.elim]
      rw [packetsRead_nil tunFd huntouched.seen]
      exact .same [] _

theorem Tunnels.writes {first : Connection σ} {tunFd : Int} {s : Session (σ × List SslCall)}
    (h : s.Tunnels first tunFd) (w : Way) :
    Follows (s.delivered w) (packetsWritten tunFd s.uring.ring.queued) s.Goes := by
  cases h with
  | handshake running huntouched hwritten hdelivered hown =>
      simp only [Session.uring, Session.delivered, Session.connection, Option.elim, hdelivered]
      rw [packetsWritten_nil tunFd huntouched.queued]
      exact .same [] _
  | loop hprog htraffic =>
      simp only [Session.uring, Session.delivered, Session.connection, hprog, Option.elim]
      exact htraffic.received
  | returned huntouched =>
      simp only [Session.uring, Session.delivered, Session.connection, Option.elim]
      rw [packetsWritten_nil tunFd huntouched.queued]
      exact .same [] _

theorem Isolated.relays {inbound outbound : Connection σ} {s : Session (σ × List SslCall)}
    (h : s.Isolated inbound outbound) (w : Way) : Follows (s.delivered w) (s.passed w) s.Goes := by
  obtain ⟨conn, conn', hconns, -, -, hforth, hback⟩ := h
  have hup : s.connection .up = some conn' ∧ s.connection .down = some conn := by
    cases s with
    | handshake stage s running =>
        cases stage with
        | edge tunFd => cases hconns
        | inbound other | outbound other =>
            obtain ⟨rfl, rfl⟩ := Prod.mk.inj (Option.some.inj hconns)
            exact ⟨rfl, rfl⟩
    | loop s =>
        simp only [Session.connections] at hconns
        split at hconns
        · rename_i hprog
          obtain ⟨rfl, rfl⟩ := Prod.mk.inj (Option.some.inj hconns)
          simp only [Session.connection, hprog, and_self]
        · cases hconns
    | returned uring => cases hconns
  cases w with
  | up =>
      simp only [Session.delivered, Session.passed, Way.back, hup, Option.elim]
      exact ⟨hforth.written, hforth.all⟩
  | down =>
      simp only [Session.delivered, Session.passed, Way.back, hup, Option.elim]
      exact ⟨hback.written, hback.all⟩

/-! ## A tunnel -/

def enters (chain : Chain) (prog : Nat → Program σ) (s : Nat → Session (σ × List SslCall)) (w : Way)
    (j : Nat) : List Bytes :=
  if j = 0 then (s (chain.hop w j)).readTun (prog (chain.hop w j)) else
    (s (chain.hop w j)).delivered w

def leaves (chain : Chain) (prog : Nat → Program σ) (s : Nat → Session (σ × List SslCall)) (w : Way)
    (j : Nat) : List Bytes :=
  if j = chain.forwarders + 1 then (s (chain.hop w j)).wroteTun (prog (chain.hop w j))
  else (s (chain.hop w j)).passed w

theorem TunnelPrograms.edge (h : TunnelPrograms chain.forwarders prog) (w : Way) {j : Nat}
    (hj : j = 0 ∨ j = chain.forwarders + 1) :
    ∃ conn tunFd, prog (chain.hop w j) = .tunUdpRun conn tunFd := by
  have hends : chain.hop w j = 0 ∨ chain.hop w j = chain.forwarders + 1 := by
    cases w <;> simp only [Chain.hop] <;> omega
  rcases hends with hend | hend
  · rw [hend]
    exact h.client
  · rw [hend]
    exact h.server

theorem TunnelPrograms.follows (hcounts : api.Counts) (h : TunnelPrograms chain.forwarders prog)
    (hs : ∀ i ≤ chain.forwarders + 1, (s i).Of api (prog i)) (w : Way)
    (hhonest : HonestReads (s (chain.hop w 0)).uring.ring.seen) {j : Nat}
    (hj : j ≤ chain.forwarders + 1) :
    Follows (enters chain prog s w j) (leaves chain prog s w j) (s (chain.hop w j)).Goes := by
  have hof := hs _ (hop_le chain w hj)
  by_cases hend : j = 0 ∨ j = chain.forwarders + 1
  · obtain ⟨conn, tunFd, hprog⟩ := TunnelPrograms.edge h w hend
    rw [hprog] at hof
    have htunnels := tunnels_of hcounts hof
    rcases hend with rfl | rfl
    · simp only [enters, leaves, hprog, Session.readTun, Program.tun, Option.elim, if_true]
      rw [if_neg (by omega)]
      exact Tunnels.reads htunnels hhonest w
    · simp only [enters, leaves, hprog, Session.wroteTun, Program.tun, Option.elim, if_true]
      rw [if_neg (by omega)]
      exact Tunnels.writes htunnels w
  · have hmiddle : 1 ≤ chain.hop w j ∧ chain.hop w j ≤ chain.forwarders := by
      cases w <;> simp only [Chain.hop] <;> omega
    obtain ⟨inbound, outbound, hprog, hfds⟩ := h.forwarder _ hmiddle.1 hmiddle.2
    rw [hprog] at hof
    rw [enters, leaves, if_neg fun hzero => hend (.inl hzero),
      if_neg fun hlast => hend (.inr hlast)]
    exact Isolated.relays (isolated_of hfds hof) w

/-- A tunnel of any number of forwarders gives between its TUN devices what DTLS
gives on each of its connections: of the packets read at one end the other end
writes some in order, or none more often than it was read, or none that was not
read, whichever is guaranteed hop by hop.  Nothing is lost that no connection
loses, as long as no session fails. -/
theorem tunnel_endToEnd (api : Ssl σ) (hcounts : api.Counts) {chain : Chain}
    {prog : Nat → Program σ} (hprogs : TunnelPrograms chain.forwarders prog)
    {s : Nat → Session (σ × List SslCall)}
    (hs : ∀ i ≤ chain.forwarders + 1, (s i).Of api (prog i)) (w : Way)
    (hhonest : HonestReads (s (chain.hop w 0)).uring.ring.seen)
    {R : List Bytes → List Bytes → Prop} (hR : Guarantee R)
    (hlink : ∀ j ≤ chain.forwarders,
      R ((s (chain.hop w (j + 1))).delivered w) ((s (chain.hop w j)).passed w)) :
    let first := chain.hop w 0
    let last := chain.hop w (chain.forwarders + 1)
    R ((s last).wroteTun (prog last)) ((s first).readTun (prog first)) ∧
      ((∀ i ≤ chain.forwarders + 1, (s i).Goes) →
        (∀ j ≤ chain.forwarders,
          (s (chain.hop w (j + 1))).delivered w = (s (chain.hop w j)).passed w) →
        (s last).wroteTun (prog last) = (s first).readTun (prog first)) := by
  have hnode : ∀ j ≤ chain.forwarders + 1, Follows (enters chain prog s w j)
      (leaves chain prog s w j) (s (chain.hop w j)).Goes :=
    fun j hj => TunnelPrograms.follows hcounts hprogs hs w hhonest hj
  have hfirst : enters chain prog s w 0 =
      (s (chain.hop w 0)).readTun (prog (chain.hop w 0)) := if_pos rfl
  have hlast : leaves chain prog s w (chain.forwarders + 1) =
      (s (chain.hop w (chain.forwarders + 1))).wroteTun
        (prog (chain.hop w (chain.forwarders + 1))) := if_pos rfl
  have henters : ∀ j, enters chain prog s w (j + 1) = (s (chain.hop w (j + 1))).delivered w :=
    fun j => if_neg (by omega)
  have hleaves : ∀ j < chain.forwarders + 1, leaves chain prog s w j =
      (s (chain.hop w j)).passed w := fun j hj => if_neg (by omega)
  refine ⟨?_, fun hgoes hall => ?_⟩
  · rw [← hfirst, ← hlast]
    apply hR.row hnode
    intro j hj
    rw [henters, hleaves j hj]
    exact hlink j (by omega)
  · rw [← hfirst, ← hlast]
    apply Guarantee.row_all hnode fun j hj => hgoes _ (hop_le chain w hj)
    intro j hj
    rw [henters, hleaves j hj]
    exact hall j (by omega)

/-! ## One forwarder -/

def oneForwarder : Chain := ⟨1, fun _ _ => []⟩

def tunnelProgram : Nat → Program Unit
  | 1 => .forwarderRun inboundConn outboundConn
  | _ => .tunUdpRun smallConn 5

def tunnelDatagram : SessionEvent :=
  .kernel (.recv 0 1 147 (recvmsgOut 128 [10, 0, 0, 1] (List.replicate 124 0) [4, 5, 6]) true 1)

def tunnelNode : Nat → Session (Unit × List SslCall)
  | 0 => edgeSession.watched.run plainSsl.traced
      [.call, .proceed, .kernel (.complete 1 3 [4, 5, 6] [] 0), .wake]
  | 1 => forwarderSession.watched.run plainSsl.traced
      [.call, .proceed, .call, .proceed, tunnelDatagram, .wake]
  | _ => edgeSession.watched.run plainSsl.traced [.call, .proceed, tunnelDatagram, .wake]

theorem tunnelPrograms_one : TunnelPrograms oneForwarder.forwarders tunnelProgram where
  client := ⟨smallConn, 5, rfl⟩
  forwarder := by
    intro i hi hn
    obtain rfl : i = 1 := Nat.le_antisymm hn hi
    exact ⟨inboundConn, outboundConn, rfl, by decide⟩
  server := ⟨smallConn, 5, rfl⟩

theorem tunnelNode_of {i : Nat} (hi : i ≤ 2) : (tunnelNode i).Of plainSsl (tunnelProgram i) := by
  have hnode : i = 0 ∨ i = 1 ∨ i = 2 := by omega
  rcases hnode with rfl | rfl | rfl
  · exact ⟨smallConfig, fun _ => true, fun _ => 1, true, edgeSession, _, rfl, rfl⟩
  · exact ⟨forwarderConfig, fun _ => true, fun _ => 1, true, forwarderSession, _, rfl, rfl⟩
  · exact ⟨smallConfig, fun _ => true, fun _ => 1, true, edgeSession, _, rfl, rfl⟩

/-- The server writes the packet that the client has read. -/
theorem tunnel_endToEnd_once :
    ((tunnelNode 2).wroteTun (tunnelProgram 2)).Sublist ((tunnelNode 0).readTun (tunnelProgram 0)) ∧
      (tunnelNode 2).wroteTun (tunnelProgram 2) = [[4, 5, 6]] := by
  have hlink : ∀ j ≤ 1, (tunnelNode (j + 1)).delivered .up = (tunnelNode j).passed .up := by
    intro j hj
    have hindex : j = 0 ∨ j = 1 := by omega
    rcases hindex with rfl | rfl <;> rfl
  obtain ⟨hpart, -⟩ := tunnel_endToEnd plainSsl plainSsl_counts tunnelPrograms_one
    (fun i hi => tunnelNode_of hi) .up (by decide) Guarantee.sublist fun j hj => by
      rw [Chain.hop, Chain.hop, hlink j hj]
  exact ⟨hpart, rfl⟩

end Dataplane.Proofs
