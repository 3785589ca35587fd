import Dataplane.Proofs.Peers

/-!
# The address of a peer is written once

A connection that has an address keeps it.  One that has none learns it from the
first datagram that is taken on its own socket while it waits for datagrams.
-/

namespace Dataplane.Model

open ProofSupport

variable {σ : Type}

/-- What the events `es` have made of the `i`th peer of a session over `prog`.
An address is never changed any more, and every datagram sent from that socket
from then on goes to it.  It is the address that the connection had at the
start or else the source of the first datagram taken. -/
structure WriteOnce (api : Ssl σ) (prog : Program σ) (start : Session σ)
    (es : List SessionEvent) (i : Nat) (peer : Peer) : Prop where
  kept : 0 < peer.addrLen → ∀ fs peer', (start.run api (es ++ fs)).peers[i]? = some peer' →
    peer' = peer
  sends : 0 < peer.addrLen → ∀ fs, ∃ new, (start.run api (es ++ fs)).uring.ring.queued =
      (start.run api es).uring.ring.queued ++ new ∧
    ∀ r ∈ new, r.opcode = .sendmsg → r.fd = peer.udpFd → peer.Addresses r
  origin : ∃ first, prog.peers[i]? = some first ∧ (0 < first.addrLen → peer = first) ∧
    (first.addrLen = 0 → 0 < peer.addrLen → ∃ s c cq,
      (Execution.visits (Session.step api) (Session.takes i) start es).head? = some s ∧
      s.uring.ring.cq = c :: cq ∧ c.Datagram first.udpFd ∧
      (c.Addressed → peer = first.learn c.source))

end Dataplane.Model

namespace Dataplane.Proofs

open ProofSupport Model

variable {σ : Type} {api : Ssl σ} {sockets : List Int} {s s' : Session σ} {e : SessionEvent}
  {i : Nat}

/-! ## One peer -/

/-- What an event makes of the peer `p` at place `i`. -/
inductive PeerMoved (s : Session σ) (e : SessionEvent) (s' : Session σ) (i : Nat) (p p' : Peer) :
    Prop
  | kept : p' = p → (s.takes i e = true → p.addrLen = 0 → s'.Stuck) → PeerMoved s e s' i p p'
  | learnt (c : Cqe) (cq : List Cqe) : s.uring.ring.cq = c :: cq → s.takes i e = true →
      c.Datagram p.udpFd → p.addrLen = 0 → p'.udpFd = p.udpFd → 0 < p'.addrLen →
      (c.Addressed → p' = p.learn c.source) → PeerMoved s e s' i p p'

theorem takes_learner (h : s.takes i e = true) : s.learner = some i := by
  obtain rfl := takes_eq_wake h
  exact (takes_wake.mp h).1

theorem Moved.peer (h : s.Moved e s') {p' : Peer} (hp' : s'.peers[i]? = some p') :
    ∃ p, s.peers[i]? = some p ∧ PeerMoved s e s' i p p' := by
  cases h with
  | kept hpeers hstuck =>
      rw [hpeers] at hp'
      exact ⟨p', hp', .kept rfl fun htakes => hstuck i p' htakes hp'⟩
  | ended uring heq =>
      rw [heq] at hp'
      cases hp'
  | learnt j p q c cq hcq htakes hp hzero hfd hpos hlearn hpeers =>
      rw [hpeers] at hp'
      by_cases hij : i = j
      · subst hij
        have hlt : i < s.peers.length := (List.getElem?_eq_some_iff.mp hp).1
        rw [List.getElem?_set_self hlt] at hp'
        obtain rfl := Option.some.inj hp'
        have hwake := htakes
        obtain rfl := takes_eq_wake hwake
        obtain ⟨-, p₀, c', cq', hp₀, hcq', hd⟩ := takes_wake.mp hwake
        obtain rfl := Option.some.inj (hp.symm.trans hp₀)
        obtain ⟨rfl, rfl⟩ := List.cons.inj (hcq.symm.trans hcq')
        exact ⟨p, hp, .learnt c cq hcq htakes hd hzero hfd hpos hlearn⟩
      · rw [List.getElem?_set_ne (Ne.symm hij)] at hp'
        refine ⟨p', hp', .kept rfl fun htakes' => ?_⟩
        have heq := (takes_learner htakes').symm.trans (takes_learner htakes)
        exact absurd (Option.some.inj heq) hij

theorem Stuck.step (h : s.Stuck) : (s.step api e).Stuck := by
  cases s with
  | handshake stage s running =>
      have hstep : ∀ e, (s.step api e).pc = .returned (-1) := fun e => step_returned h e
      cases e with
      | proceed =>
          have hpc : s.pc ≠ .returned 0 := by
            rw [show s.pc = .returned (-1) from h]
            simp
          rw [Session.step, if_neg hpc]
          exact h
      | stop => exact h
      | call => exact hstep .call
      | kernel e => exact hstep (.kernel e)
      | wake => exact hstep .wake
      | waitError => exact hstep .waitError
  | loop s =>
      have hstatus : s.status ≠ .waiting := h
      have hstep : ∀ e, (s.step api e).status ≠ .waiting := by
        intro e
        cases e with
        | kernel e => exact hstatus
        | stop => exact hstatus
        | waitError => rwa [LoopState.step, if_neg hstatus]
        | wake =>
            simp only [LoopState.step, LoopState.wake]
            split
            · rename_i hwaiting _
              exact absurd hwaiting hstatus
            · exact hstatus
      simp only [Session.step]
      split
      · exact h
      · exact hstep _
  | returned uring => cases e <;> trivial

theorem Stuck.learner (h : s.Stuck) : s.learner = none := by
  cases s with
  | handshake stage s running =>
      have hpc : s.pc = .returned (-1) := h
      rw [Session.learner, hpc, if_neg (by simp)]
  | loop s =>
      have hstatus : s.status ≠ .waiting := h
      simp only [Session.learner]
      split
      · rw [if_neg hstatus]
      · rfl
  | returned uring => rfl

/-! ## An address is kept -/

theorem Wired.addressed (hs : s.Wired sockets) (hnodup : sockets.Nodup) {peer : Peer}
    (hpeer : s.peers[i]? = some peer) (hpos : 0 < peer.addrLen) (fs : List SessionEvent) :
    (∀ peer', (s.run api fs).peers[i]? = some peer' → peer' = peer) ∧
      ∃ new, (s.run api fs).uring.ring.queued = s.uring.ring.queued ++ new ∧
        ∀ r ∈ new, r.opcode = .sendmsg → r.fd = peer.udpFd → peer.Addresses r := by
  have hfd : sockets[i]? = some peer.udpFd := by
    rcases hs.fds with hnil | hfds
    · rw [hnil] at hpeer
      cases hpeer
    · rw [← hfds, List.getElem?_map, hpeer]
      rfl
  suffices hrun : (s.run api fs).Wired sockets ∧
      (∀ peer', (s.run api fs).peers[i]? = some peer' → peer' = peer) ∧
      ∃ new, (s.run api fs).uring.ring.queued = s.uring.ring.queued ++ new ∧
        ∀ r ∈ new, r.opcode = .sendmsg → r.fd = peer.udpFd → peer.Addresses r from hrun.2
  apply Execution.run_invariant (fun _ => True) (fun t : Session σ => t.Wired sockets ∧
    (∀ peer', t.peers[i]? = some peer' → peer' = peer) ∧
    ∃ new, t.uring.ring.queued = s.uring.ring.queued ++ new ∧
      ∀ r ∈ new, r.opcode = .sendmsg → r.fd = peer.udpFd → peer.Addresses r) _
    (fun _ _ => trivial) ⟨hs, _, [], (List.append_nil _).symm, by simp⟩
  · rintro t e - ⟨ht, hkept, new, hqueued, hnew⟩
    refine ⟨Wired.step ht e, ?_, ?_⟩
    · intro peer' hpeer'
      obtain ⟨p, hp, hmoved⟩ := Moved.peer (Wired.moved api ht e) hpeer'
      cases hkept p hp
      cases hmoved with
      | kept heq _ => exact heq
      | learnt c cq _ _ _ hzero _ _ _ => omega
    · obtain ⟨more, hmore, hsends⟩ := Wired.sends api ht e
      refine ⟨new ++ more, by rw [hmore, hqueued, List.append_assoc], fun r hr hsend hr_fd => ?_⟩
      rcases List.mem_append.mp hr with hr | hr
      · exact hnew r hr hsend hr_fd
      · obtain ⟨p, hp, haddr⟩ := hsends r hr hsend
        have hfds : t.peers.map Peer.udpFd = sockets :=
          ht.fds.resolve_left (List.ne_nil_of_mem (senders_subset hp))
        rw [← hfds, List.getElem?_map, Option.map_eq_some_iff] at hfd
        obtain ⟨q, hq, hq_fd⟩ := hfd
        obtain rfl := hkept q hq
        rw [← hfds] at hnodup
        have heq := List.inj_on_of_nodup_map hnodup (senders_subset hp) (List.mem_of_getElem? hq)
          (haddr.fd.symm.trans hr_fd)
        rw [← heq]
        exact haddr
  · intro peer' hpeer'
    exact Option.some.inj (hpeer'.symm.trans hpeer)

/-! ## Where an address comes from -/

/-- How the peer `p` stems from `first`, after the datagrams taken in the states
`vs`. -/
structure Origin (first p : Peer) (vs : List (Session σ)) (s : Session σ) : Prop where
  resolved : 0 < first.addrLen → p = first
  untaken : vs = [] → p = first
  silent : vs ≠ [] → p.addrLen = 0 → s.Stuck
  learnt : first.addrLen = 0 → 0 < p.addrLen → ∃ t c cq, vs.head? = some t ∧
    t.uring.ring.cq = c :: cq ∧ c.Datagram first.udpFd ∧ (c.Addressed → p = first.learn c.source)

theorem Origin.step {first p p' : Peer} {vs : List (Session σ)} (h : Origin first p vs s)
    (hmoved : PeerMoved s e (s.step api e) i p p') :
    Origin first p' (vs ++ if s.takes i e then [s] else []) (s.step api e) := by
  cases hmoved with
  | kept heq hstuck =>
      subst heq
      refine ⟨h.resolved, fun hnil => h.untaken (List.append_eq_nil_iff.mp hnil).1, ?_, ?_⟩
      · intro hne hzero
        by_cases htakes : s.takes i e = true
        · exact hstuck htakes hzero
        · rw [if_neg htakes, List.append_nil] at hne
          exact Stuck.step (h.silent hne hzero)
      · intro hfirst hpos
        obtain ⟨t, c, cq, hhead, hrest⟩ := h.learnt hfirst hpos
        refine ⟨t, c, cq, ?_, hrest⟩
        rw [List.head?_append, hhead]
        rfl
  | learnt c cq hcq htakes hd hzero _ hpos hlearn =>
      have hnil : vs = [] := by
        by_contra hne
        have hnone := Stuck.learner (h.silent hne hzero)
        rw [takes_learner htakes] at hnone
        cases hnone
      obtain rfl := h.untaken hnil
      rw [hnil, if_pos htakes, List.nil_append]
      exact ⟨fun hfirst => by omega, by simp, fun _ hzero' => by omega,
        fun _ _ => ⟨s, c, cq, rfl, hcq, hd, hlearn⟩⟩

theorem Wired.origin (hs : s.Wired sockets) {first : Peer} (hfirst : s.peers[i]? = some first)
    (es : List SessionEvent) {peer : Peer} (hpeer : (s.run api es).peers[i]? = some peer) :
    Origin first peer (Execution.visits (Session.step api) (Session.takes i) s es)
      (s.run api es) := by
  suffices hrun : (s.run api es).Wired sockets ∧ ∀ p, (s.run api es).peers[i]? = some p →
      Origin first p (Execution.visits (Session.step api) (Session.takes i) s es)
        (s.run api es) from
    hrun.2 peer hpeer
  apply Execution.visits_invariant (fun vs (t : Session σ) =>
    t.Wired sockets ∧ ∀ p, t.peers[i]? = some p → Origin first p vs t) _ ⟨hs, _⟩ es
  · rintro vs t e ⟨ht, horigin⟩
    refine ⟨Wired.step ht e, fun p' hp' => ?_⟩
    obtain ⟨p, hp, hmoved⟩ := Moved.peer (Wired.moved api ht e) hp'
    exact (horigin p hp).step hmoved
  · intro p hp
    obtain rfl := Option.some.inj (hp.symm.trans hfirst)
    exact ⟨fun _ => rfl, fun _ => rfl, fun hne => absurd rfl hne, fun hzero hpos => by omega⟩

/-! ## Every run -/

/-- In every session the address of a peer is written once. -/
theorem sessions_writeOnce (api : Ssl σ) (config : IouringConfig) (sqeFree : Nat → Bool)
    (submits : Nat → Int) (prog : Program σ) (running : Bool) {start : Session σ}
    (hstart : Session.start (IouringCtx.iouringInit config sqeFree submits) prog running =
      some start) (hsockets : prog.sockets.Nodup) (es : List SessionEvent) {i : Nat} {peer : Peer}
    (hpeer : (start.run api es).peers[i]? = some peer) :
    WriteOnce api prog start es i peer := by
  have hwired := wired_start config sqeFree submits hstart
  have hend := Wired.run api hwired es
  refine ⟨fun hpos fs => ?_, fun hpos fs => ?_, ?_⟩
  · rw [Session.run, Execution.run_append]
    exact (Wired.addressed hend hsockets hpeer hpos fs).1
  · rw [Session.run, Execution.run_append]
    exact (Wired.addressed hend hsockets hpeer hpos fs).2
  · have hstarted := session_start_peers hstart
    obtain ⟨first, hfirst⟩ : ∃ first, prog.peers[i]? = some first := by
      have hfds : (start.run api es).peers.map Peer.udpFd = prog.sockets :=
        hend.fds.resolve_left (List.ne_nil_of_mem (List.mem_of_getElem? hpeer))
      rw [← program_fds] at hfds
      have hlength : (start.run api es).peers.length = prog.peers.length := by
        simpa using congrArg List.length hfds
      have hlt := (List.getElem?_eq_some_iff.mp hpeer).1
      exact ⟨_, List.getElem?_eq_getElem (hlength ▸ hlt)⟩
    have horigin := Wired.origin hwired (by rw [hstarted]; exact hfirst) es hpeer
    exact ⟨first, hfirst, horigin.resolved, horigin.learnt⟩

def smallServer : Connection Unit := ⟨3, .server, (), [], [], [0, 0, 0, 0], 0, .established⟩

def twoSources : List SessionEvent :=
  [.kernel (.recv 0 1 147 (recvmsgOut 128 [10, 0, 0, 1] (List.replicate 124 0) [4, 5, 6]) true 0),
    .wake,
    .kernel (.recv 0 0 147 (recvmsgOut 128 [10, 0, 0, 2] (List.replicate 124 0) [7, 8, 9]) true 1),
    .wake]

/-- The address is the one that the first of them came from. -/
theorem sessions_writeOnce_server : ∃ start,
    Session.start (IouringCtx.iouringInit smallConfig (fun _ => true) fun _ => 1)
      (.tunUdpRunZero smallServer 5) true = some start ∧
    WriteOnce plainSsl (.tunUdpRunZero smallServer 5) start twoSources 0
      ⟨3, [10, 0, 0, 1], 4⟩ :=
  ⟨_, rfl, sessions_writeOnce plainSsl smallConfig (fun _ => true) (fun _ => 1)
    (.tunUdpRunZero smallServer 5) true rfl (by decide) twoSources rfl⟩

end Dataplane.Proofs
