import Dataplane.Proofs.EdgeTraffic
import Dataplane.Proofs.Passing

/-!
# The loops are switches

Seen from outside a loop is a switch: it takes packets and passes each of them
on, to the file that the one it came from tells and nowhere else.  It neither
changes their order nor makes two out of one.
-/

namespace Dataplane.Model

variable {σ : Type}

/-- The kind of request that passes on a packet, and on which file. -/
structure Port where
  opcode : Opcode
  fd : Int
  deriving DecidableEq

/-- Where the packet that came with `c` is to go. -/
def Program.route (prog : Program σ) (c : Cqe) : Port :=
  match prog with
  | .tunUdpRun conn tunFd | .tunUdpRunZero conn tunFd =>
      if c.req.opcode = .read then ⟨.sendmsg, conn.udpFd⟩ else ⟨.write, tunFd⟩
  | .forwarderRun inbound outbound =>
      ⟨.sendmsg, if c.req.fd = inbound.udpFd then outbound.udpFd else inbound.udpFd⟩

def Cqe.isPacket (c : Cqe) : Bool := !c.req.opcode.outgoing && decide (0 ≤ c.res)

def entries (prog : Program σ) (cs : List Cqe) : List (Nat × Port) :=
  (cs.filter Cqe.isPacket).map fun c => (c.tag, prog.route c)

def departures (rs : List Sqe) : List (Nat × Port) :=
  (rs.filter fun r => r.opcode.outgoing).map fun r => (r.tag, ⟨r.opcode, r.fd⟩)

/-- From `s` to `s'` the loop has passed the packets that it took on, in order and
each once, and all of them as long as it goes on. -/
def LoopState.Switches (s s' : LoopState σ) : Prop :=
  ∃ later made, s'.uring.ring.seen = s.uring.ring.seen ++ later ∧
    s'.uring.ring.queued = s.uring.ring.queued ++ made ∧
    ProofSupport.Follows (entries s.prog later) (departures made) (s'.status.ok = true)

end Dataplane.Model

namespace Dataplane.Proofs

open ProofSupport Model Ledger

variable {σ : Type} {api : Ssl σ} {ctx ctx' : IouringCtx} {held : Multiset OpId}
  {taken : Multiset Nat}

theorem entries_append (prog : Program σ) (cs cs' : List Cqe) :
    entries prog (cs ++ cs') = entries prog cs ++ entries prog cs' := by
  simp [entries]

theorem departures_append (rs rs' : List Sqe) :
    departures (rs ++ rs') = departures rs ++ departures rs' := by
  simp [departures]

theorem departures_receives {rs : List Sqe} (h : ∀ r ∈ rs, r.opcode.outgoing = false) :
    departures rs = [] := by
  rw [departures, List.map_eq_nil_iff, List.filter_eq_nil_iff]
  intro r hr
  rw [h r hr]
  decide

theorem departures_outgoing {rs : List Sqe} (h : ∀ r ∈ rs, r.opcode.outgoing = true) :
    departures rs = rs.map fun r => (r.tag, ⟨r.opcode, r.fd⟩) := by
  rw [departures, List.filter_eq_self.mpr h]

theorem route_eq {prog prog' : Program σ} (hsocket : ∀ w, prog'.socket w = prog.socket w)
    (htun : prog'.tun = prog.tun) (c : Cqe) : prog'.route c = prog.route c := by
  have hup := hsocket .up
  have hdown := hsocket .down
  cases prog <;> cases prog' <;>
    simp_all [Program.socket, Program.tun, Program.route]

theorem entries_eq {prog prog' : Program σ} (hsocket : ∀ w, prog'.socket w = prog.socket w)
    (htun : prog'.tun = prog.tun) (cs : List Cqe) : entries prog' cs = entries prog cs := by
  rw [entries, entries]
  congr 1
  funext c
  rw [route_eq hsocket htun]

/-! ## A turn -/

section Turn

variable {got : Multiset OpId} {idx : Multiset Nat} {c : Cqe} {op : OpId}

def PassesOn (prog : Program σ) (c : Cqe) (r : Sqe) : Prop :=
  r.opcode.outgoing = true ∧ (r.tag, (⟨r.opcode, r.fd⟩ : Port)) = (c.tag, prog.route c)

theorem SendOn.passesOn {prog : Program σ} {conn : Connection σ} {data : Bytes} {r : Sqe}
    (h : SendOn ctx conn data r) (htag : ctx.tag = c.tag)
    (hroute : prog.route c = ⟨.sendmsg, conn.udpFd⟩) : PassesOn prog c r := by
  refine ⟨h.outgoing, ?_⟩
  rw [h.carries.tag, h.carries.opcode, h.carries.fd, htag, hroute]

theorem Carries.passesOn {prog : Program σ} {tunFd : Int} {data : Bytes} {r : Sqe}
    (h : Carries ctx r .write tunFd data) (htag : ctx.tag = c.tag)
    (hroute : prog.route c = ⟨.write, tunFd⟩) : PassesOn prog c r := by
  refine ⟨by rw [h.opcode]; rfl, ?_⟩
  rw [h.tag, h.opcode, h.fd, htag, hroute]

theorem Received.isRead (h : Received ctx c op got idx) (htype : (ctx.ops op).opType = .tunRead) :
    c.req.opcode = .read := by
  rw [h.opType] at htype
  revert htype
  cases c.req.opcode <;> simp [Opcode.opType]

theorem Received.notRead (h : Received ctx c op got idx) (htype : (ctx.ops op).opType = .udpRecv) :
    c.req.opcode ≠ .read := by
  intro hcode
  rw [h.opType, hcode] at htype
  cases htype

/-- A body passes its packet on, if it does not fail, and never more than
once. -/
theorem body_passesOn (hcounts : api.Counts) (hin : c.req.opcode.outgoing = false)
    (prog : Program σ) : BodySpec api prog c (PassesOn prog c) fun _ => True := by
  intro ctx ctx' held got taken idx ret rest prog' hinv hrecv htag hres
  cases prog with
  | tunUdpRun conn tunFd =>
      rcases hrecv.opType_cases hin with htype | htype
      · have hroute : (Program.tunUdpRun conn tunFd).route c = ⟨.sendmsg, conn.udpFd⟩ :=
          if_pos (hrecv.isRead htype)
        obtain ⟨rs, _, -, hh, -⟩ := hinv.tunUdpRunBody_read hrecv htype rfl hres
        exact ⟨rs, hh.mono fun _ _ hsend => hsend.passesOn htag hroute, fun _ => trivial⟩
      · have hroute : (Program.tunUdpRun conn tunFd).route c = ⟨.write, tunFd⟩ :=
          if_neg (hrecv.notRead htype)
        obtain ⟨rs, _, -, hh, -⟩ := hinv.tunUdpRunBody_recv hrecv htype rfl rfl hres
        obtain ⟨-, hring⟩ := tunUdpRunBody_wrote htype hres
        refine ⟨rs, hh.mono fun r hr hwrite => ?_, fun _ => trivial⟩
        refine (hwrite.2 (decrypt_counts hcounts _ _ _ _ ?_)).passesOn htag hroute
        -- without plaintext there is no request
        by_contra hneg
        have hqueued := hh.effect.queued
        rw [hring, decryptAndWrite_nothing tunFd (by omega) ctx] at hqueued
        rw [List.self_eq_append_right.mp hqueued] at hr
        cases hr
  | tunUdpRunZero conn tunFd =>
      rcases hrecv.opType_cases hin with htype | htype
      · have hroute : (Program.tunUdpRunZero conn tunFd).route c = ⟨.sendmsg, conn.udpFd⟩ :=
          if_pos (hrecv.isRead htype)
        obtain ⟨rs, -, hh⟩ := hinv.tunUdpRunZeroBody_read hrecv htype rfl hres
        exact ⟨rs, hh.mono fun _ _ hsend => hsend.passesOn htag hroute, fun _ => trivial⟩
      · have hroute : (Program.tunUdpRunZero conn tunFd).route c = ⟨.write, tunFd⟩ :=
          if_neg (hrecv.notRead htype)
        obtain ⟨rs, -, hh⟩ := hinv.tunUdpRunZeroBody_recv hrecv htype rfl hres
        exact ⟨rs, hh.mono fun _ _ hwrite => hwrite.passesOn htag hroute, fun _ => trivial⟩
  | forwarderRun inbound outbound =>
      by_cases htype : (ctx.ops c.req.userData).opType = .udpRecv
      · by_cases hfd : (ctx.ops c.req.userData).fd = inbound.udpFd
        · have hroute : (Program.forwarderRun inbound outbound).route c =
              ⟨.sendmsg, outbound.udpFd⟩ := by
            rw [Program.route, if_pos (hrecv.fd.symm.trans hfd)]
          obtain ⟨rs, _, _, -, hh, -⟩ := hinv.forwarderRunBody_inbound hrecv htype hfd rfl rfl hres
          exact ⟨rs, hh.mono fun _ _ hsend => hsend.passesOn htag hroute, fun _ => trivial⟩
        · have hroute : (Program.forwarderRun inbound outbound).route c =
              ⟨.sendmsg, inbound.udpFd⟩ := by
            rw [Program.route, if_neg fun h => hfd (hrecv.fd.trans h)]
          obtain ⟨rs, _, _, -, hh, -⟩ := hinv.forwarderRunBody_outbound hrecv htype hfd rfl rfl hres
          exact ⟨rs, hh.mono fun _ _ hsend => hsend.passesOn htag hroute, fun _ => trivial⟩
      · obtain ⟨-, hh⟩ := hinv.forwarderRunBody_other htype hres
        exact ⟨[], hh.mono (by simp), fun _ => trivial⟩

end Turn

theorem Inv.switches (hcounts : api.Counts) {s : LoopState σ} (h : Inv s.uring held taken) {c : Cqe}
    {cq : List Cqe} (hcq : s.uring.ring.cq = c :: cq) :
    s.Switches (takeCqe api s c cq) := by
  by_cases hres : c.res < 0
  · have hnone : entries s.prog [c] = [] := by
      simp [entries, Cqe.isPacket, Int.not_le.mpr hres]
    rw [takeCqe_failed api s cq hres]
    refine ⟨[c], [], rfl, (List.append_nil _).symm, ?_⟩
    rw [hnone]
    exact .same [] _
  obtain ⟨ins, outs, htook, hturn⟩ := h.turn api hcq fun hin => body_passesOn hcounts hin s.prog
  refine ⟨[c], ins ++ outs, htook.seen, htook.queued, ?_⟩
  rw [departures_append, departures_receives htook.incoming, List.nil_append]
  by_cases hout : c.req.opcode.outgoing = true
  · have hnone : entries s.prog [c] = [] := by
      simp [entries, Cqe.isPacket, hout]
    rw [hnone, (hturn.outgoing hout).1]
    exact .same [] _
  · have hin : c.req.opcode.outgoing = false := by simpa using hout
    have hone : entries s.prog [c] = (some (c.tag, s.prog.route c)).toList := by
      simp [entries, Cqe.isPacket, hin, Int.not_lt.mp hres]
    rw [hone, departures_outgoing fun r hr => (hturn.entry r hr).1]
    apply Follows.single
    · simpa using hturn.single
    · intro a ha
      obtain ⟨r, hr, rfl⟩ := List.mem_map.mp ha
      exact congrArg some (hturn.entry r hr).2.symm
    · intro hok
      left
      simpa using (hturn.done hok hin).1

/-! ## Runs -/

theorem Switches.refl (s : LoopState σ) : s.Switches s :=
  ⟨[], [], (List.append_nil _).symm, (List.append_nil _).symm, .same [] _⟩

theorem Switches.trans {s s' s'' : LoopState σ} (h : s.Switches s') (hok : s'.status.ok = true)
    (hsocket : ∀ w, s'.prog.socket w = s.prog.socket w) (htun : s'.prog.tun = s.prog.tun)
    (h' : s'.Switches s'') : s.Switches s'' := by
  obtain ⟨later, made, hseen, hqueued, hfollows⟩ := h
  obtain ⟨later', made', hseen', hqueued', hfollows'⟩ := h'
  refine ⟨later ++ later', made ++ made', ?_, ?_, ?_⟩
  · rw [hseen', hseen, List.append_assoc]
  · rw [hqueued', hqueued, List.append_assoc]
  · rw [entries_append, departures_append]
    rw [entries_eq hsocket htun] at hfollows'
    exact hfollows.append hok hfollows'

theorem Switches.quiet {s s' s'' : LoopState σ} (h : s.Switches s')
    (hseen : s''.uring.ring.seen = s'.uring.ring.seen)
    (hqueued : s''.uring.ring.queued = s'.uring.ring.queued)
    (hok : s''.status.ok = true → s'.status.ok = true) : s.Switches s'' := by
  obtain ⟨later, made, hseen', hqueued', hfollows⟩ := h
  exact ⟨later, made, hseen.trans hseen', hqueued.trans hqueued', hfollows.mono hok⟩

structure Switching (s t : LoopState σ) : Prop where
  switches : s.Switches t
  sound : t.status.ok = true → Sound t.uring
  socket : ∀ w, t.prog.socket w = s.prog.socket w
  tun : t.prog.tun = s.prog.tun

theorem Switching.step (hcounts : api.Counts) {s t : LoopState σ} (h : Switching s t)
    (e : LoopEvent) : Switching s (t.step api e) := by
  have hsound : (t.step api e).status.ok = true → Sound (t.step api e).uring := by
    intro hok
    obtain ⟨held, taken, hinv⟩ := h.sound (step_ok hok)
    exact ⟨held, taken, hinv.loop_step e hok⟩
  cases e with
  | kernel e =>
      obtain ⟨hseen, hqueued⟩ := kernel_histories t.uring e
      exact ⟨Switches.quiet h.switches hseen hqueued id, hsound, h.socket, h.tun⟩
  | stop => exact ⟨Switches.quiet h.switches rfl rfl id, hsound, h.socket, h.tun⟩
  | waitError =>
      refine ⟨Switches.quiet h.switches ?_ ?_ step_ok, hsound, ?_, ?_⟩
      all_goals
        simp only [LoopState.step]
        split
      all_goals first | rfl | exact h.socket | exact h.tun
  | wake =>
      revert hsound
      simp only [LoopState.step, LoopState.wake]
      split
      · rename_i hstatus hcq
        intro hsound
        have hok : t.status.ok = true := by rw [hstatus]; rfl
        obtain ⟨held, taken, hinv⟩ := h.sound hok
        refine ⟨Switches.trans h.switches hok h.socket h.tun (hinv.switches hcounts hcq), hsound,
          fun w => ?_, ?_⟩
        · exact (takeCqe_socket api t _ _ w).1.trans (h.socket w)
        · exact (takeCqe_socket api t _ _ .up).2.trans h.tun
      · exact fun _ => h

theorem loop_session_run (api : Ssl σ) (s : LoopState σ) (es : List SessionEvent) :
    Session.run api (.loop s) es = .loop (s.run api (es.filterMap SessionEvent.loop)) := by
  induction es generalizing s with
  | nil => rfl
  | cons e es ih =>
      have hstep : Session.run api (.loop s) (e :: es) =
          Session.run api (Session.step api (.loop s) e) es := rfl
      rw [hstep, Session.step]
      cases he : e.loop with
      | none =>
          rw [List.filterMap_cons_none he]
          exact ih s
      | some e' =>
          rw [List.filterMap_cons_some he]
          exact ih (s.step api e')

/-- Between any two points of a session at which it is in its loop, the requests
that go out are the packets taken, each passed on once and through the port that
its source tells, in the order in which they were taken; after a failure the
rest is missing. -/
theorem sessions_switch (api : Ssl σ) (hcounts : api.Counts) (config : IouringConfig)
    (sqeFree : Nat → Bool) (submits : Nat → Int) {prog : Program σ} {running : Bool}
    {start : Session σ} (hstart : Session.start (IouringCtx.iouringInit config sqeFree submits)
      prog running = some start) (es fs : List SessionEvent) {s s' : LoopState σ}
    (hs : start.run api es = .loop s) (hs' : start.run api (es ++ fs) = .loop s') :
    s.Switches s' := by
  have hgood := good_run api (good_start config sqeFree submits hstart) es
  rw [hs] at hgood
  have hrun : start.run api (es ++ fs) = Session.run api (.loop s) fs := by
    rw [← hs]
    exact Execution.run_append _ _ _ _
  rw [hrun, loop_session_run] at hs'
  obtain rfl := Session.loop.inj hs'
  have hinv : Switching s (s.run api (fs.filterMap SessionEvent.loop)) :=
    Execution.run_invariant (fun _ => True) (Switching s) (fun _ e _ ht => ht.step hcounts e)
      (fun _ _ => trivial) ⟨Switches.refl s, hgood, fun _ => rfl, rfl⟩
  exact hinv.switches

/-- A datagram from socket 3 leaves the forwarder on socket 4. -/
theorem sessions_switch_once : ∃ s s' : LoopState Unit,
    forwarderSession.run plainSsl (forwardOnce.take 4) = .loop s ∧
      forwarderSession.run plainSsl forwardOnce = .loop s' ∧ s.Switches s' ∧
      departures s'.uring.ring.queued = [(1, ⟨.sendmsg, 4⟩)] := by
  have hstart : Session.start (IouringCtx.iouringInit forwarderConfig (fun _ => true) fun _ => 1)
      (.forwarderRun inboundConn outboundConn) true = some forwarderSession := rfl
  exact ⟨_, _, rfl, rfl, sessions_switch plainSsl plainSsl_counts forwarderConfig (fun _ => true)
    (fun _ => 1) hstart (forwardOnce.take 4) (forwardOnce.drop 4) rfl rfl, rfl⟩

end Dataplane.Proofs
