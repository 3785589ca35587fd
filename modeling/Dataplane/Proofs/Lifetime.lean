import Dataplane.Proofs.Capacity
import Dataplane.Proofs.Switching
import Dataplane.Proofs.Wire

/-!
# How long a session lasts

A session that waits can be woken through each of its sockets.  A loop is left
with an error, or by the flag `running`; the flag is looked at only behind a
packet, and by the forwarder not at all.
-/

namespace Dataplane.Model

variable {σ : Type}

def Session.Waits : Session σ → Prop
  | .handshake _ s _ => s.pc = .waiting
  | .loop s => s.status = .waiting
  | .returned _ => False

/-- Every one of the sockets is listened to by one multishot receive: the kernel
has it, its entry is still in the submission queue, or its last completion waits to
be taken.  What arrives on one that the kernel has, and finds a slot, is posted as
a completion of this receive. -/
structure IouringCtx.Listens (ctx : IouringCtx) (sockets : List Int) : Prop where
  armed : ((ctx.ring.outstandingOf .recvmsgMultishot).map Sqe.fd).Perm sockets
  hears : ∀ r ∈ ctx.ring.active, r.opcode = .recvmsgMultishot → ∀ bid ∈ ctx.br,
    ∀ res data more tag, (ctx.kernel (.recv r.userData bid res data more tag)).ring.cq =
      ctx.ring.cq ++ [⟨r, res, ⟨true, more, bid⟩, data.take bufSize, tag⟩]

def Program.watches : Program σ → Bool
  | .forwarderRun _ _ => false
  | _ => true

def Cqe.Sent (c : Cqe) : Prop := c.req.opcode.outgoing = true ∧ 0 ≤ c.res

end Dataplane.Model

namespace Dataplane.Proofs

open ProofSupport Model Ledger

variable {σ : Type} {api : Ssl σ} {ctx ctx' : IouringCtx} {held : Multiset OpId}
  {taken : Multiset Nat} {c : Cqe} {cq : List Cqe}

/-! ## Waking up -/

theorem Inv.inFlight_multi (h : Inv ctx held taken) {r : Sqe} (hr : r ∈ ctx.ring.active)
    (hcode : r.opcode = .recvmsgMultishot) : ctx.inFlight r.userData true = some r := by
  have hnd := (Multiset.nodup_add.mp h.nodup).2.1
  rw [IoUring.requests, IoUring.posted, add_assoc, Multiset.nodup_add] at hnd
  have huser := Multiset.coe_nodup.mp hnd.1
  cases hfind : ctx.inFlight r.userData true with
  | none =>
      have hnone := List.find?_eq_none.mp hfind r hr
      simp [hcode] at hnone
  | some r' =>
      obtain ⟨hr', hsame, -⟩ := mem_of_inFlight hfind
      rw [List.inj_on_of_nodup_map huser hr' hr hsame]

theorem listens_of_receives (h : Inv ctx held taken) {k : Nat} {tunFd : Int} {sockets : List Int}
    (harmed : receives ctx.ring.outstanding =
      Multiset.replicate k (.read, tunFd) + multishots sockets) : ctx.Listens sockets := by
  obtain ⟨-, hmulti, -⟩ := outstandingOf_receives harmed
  refine ⟨hmulti, fun r hr hcode bid hbid res data more tag => ?_⟩
  exact (recv_posted (h.inFlight_multi hr hcode) hbid res data more tag).cq

/-- Whenever a session waits, in a handshake or in its loop, it listens on each of
its sockets. -/
theorem sessions_listen (api : Ssl σ) (config : IouringConfig) (sqeFree : Nat → Bool)
    (submits : Nat → Int) {prog : Program σ} {running : Bool} {start : Session σ}
    (hstart : Session.start (IouringCtx.iouringInit config sqeFree submits) prog running =
      some start) (es : List SessionEvent) (hwaits : (start.run api es).Waits) :
    (start.run api es).uring.Listens prog.sockets := by
  have hgood := good_start config sqeFree submits hstart
  have hsound := good_run api hgood es
  have harmed := armed_run api hgood (armed_start config sqeFree submits hstart) es
  generalize start.run api es = s at *
  cases s with
  | handshake stage s running =>
      have hpc : s.pc ≠ .returned (-1) := by
        rw [show s.pc = .waiting from hwaits]
        simp
      obtain ⟨⟨_, _, hinv⟩, -⟩ := hsound hpc
      have hreceives : receives s.uring.ring.outstanding =
          Multiset.replicate 0 (.read, 0) + multishots prog.sockets := by
        simpa using harmed hpc
      exact listens_of_receives hinv hreceives
  | loop s =>
      have hok : s.status.ok = true := by
        rw [show s.status = .waiting from hwaits]
        rfl
      obtain ⟨_, _, hinv⟩ := hsound hok
      obtain ⟨k, tunFd, hreceives⟩ := harmed hok
      exact listens_of_receives hinv hreceives
  | returned uring => cases hwaits

/-- The forwarder goes on listening on both of its sockets when it has taken a
datagram. -/
theorem sessions_listen_once :
    (forwarderSession.run plainSsl forwardOnce).uring.Listens [3, 4] := by
  have hstart : Session.start (IouringCtx.iouringInit forwarderConfig (fun _ => true) fun _ => 1)
      (.forwarderRun inboundConn outboundConn) true = some forwarderSession := rfl
  exact sessions_listen plainSsl forwarderConfig (fun _ => true) (fun _ => 1) hstart forwardOnce
    rfl

/-! ## Leaving the loop -/

theorem Inv.wait_sent (h : Inv ctx held taken) (hcq : ctx.ring.cq = c :: cq) (hsent : c.Sent) :
    ∃ ctx', (ctx.iouringCqeSeen c cq).waitForRecvBody c = (.again, ctx') :=
  ⟨_, (h.seen_cqeOk hcq).1.req.body_outgoing hsent.1 hsent.2⟩

theorem watches_eq (prog : Program σ) : prog.watches = prog.tun.isSome := by
  cases prog <;> rfl

theorem headStatus_stopped {prog : Program σ} (h : prog.watches = true) {running : Bool}
    (hrunning : running = false) (status : Status) (ret : Int) (op : Option OpId) :
    headStatus prog running status ret op = .exited ret op := by
  subst hrunning
  unfold headStatus
  cases prog with
  | forwarderRun inbound outbound => cases h
  | _ => split <;> rfl

/-- Whether a loop that watches the flag goes on when it has been cleared. -/
theorem Inv.stops (api : Ssl σ) (h : Inv ctx held taken) {s : LoopState σ} (huring : s.uring = ctx)
    (hcq : ctx.ring.cq = c :: cq) (hstatus : s.status = .waiting) (hrunning : s.running = false)
    (hwatches : s.prog.watches = true) :
    (takeCqe api s c cq).status = .waiting ↔ c.Sent := by
  subst huring
  constructor
  · intro hwaiting
    unfold takeCqe at hwaiting
    rcases hstep : (s.uring.iouringCqeSeen c cq).waitForRecvBody c with ⟨step, ctx⟩
    cases h.wait hcq hstep with
    | again hres hout _ _ => exact ⟨hout, hres⟩
    | null rs _ _ _ =>
        rw [hstep] at hwaiting
        cases hwaiting
    | recv rs got idx _ hin _ _ hinv hrecv =>
        rcases hbody : s.prog.body api ctx c.req.userData with ⟨ret, rest, ctx', prog⟩
        have hprog : prog.watches = true := by
          have htun := (body_socket api ctx c.req.userData s.prog .up).2
          rw [hbody] at htun
          rwa [watches_eq, htun, ← watches_eq]
        simp only [hstep, hbody, atLoopHead_eq] at hwaiting
        rw [headStatus_stopped hprog hrunning] at hwaiting
        cases hwaiting
  · intro hsent
    obtain ⟨ctx', hagain⟩ := h.wait_sent hcq hsent
    unfold takeCqe
    rw [hagain]
    exact hstatus

theorem left_run (api : Ssl σ) {s : LoopState σ} (h : s.status ≠ .waiting) (es : List LoopEvent) :
    (s.run api es).status = s.status ∧ (s.run api es).uring.ring.seen = s.uring.ring.seen := by
  apply Execution.run_invariant (fun _ => True) (fun t : LoopState σ =>
    t.status = s.status ∧ t.uring.ring.seen = s.uring.ring.seen)
  · rintro t e - ⟨hstatus, hseen⟩
    have hnot : t.status ≠ .waiting := by rwa [hstatus]
    cases e with
    | kernel e => exact ⟨hstatus, (kernel_histories t.uring e).1.trans hseen⟩
    | stop => exact ⟨hstatus, hseen⟩
    | waitError =>
        rw [LoopState.step, if_neg hnot]
        exact ⟨hstatus, hseen⟩
    | wake =>
        simp only [LoopState.step, LoopState.wake]
        split
        · rename_i hwaiting _
          exact absurd hwaiting hnot
        · exact ⟨hstatus, hseen⟩
  · exact fun _ _ => trivial
  · exact ⟨rfl, rfl⟩

theorem takeCqe_running (api : Ssl σ) (s : LoopState σ) (c : Cqe) (cq : List Cqe) :
    (takeCqe api s c cq).running = s.running := by
  unfold takeCqe
  rcases (s.uring.iouringCqeSeen c cq).waitForRecvBody c with ⟨_ | op | _, ctx⟩
  · rfl
  · simp only [atLoopHead_eq]
  · rfl

/-- What becomes of a loop behind `stop`: it takes one packet more at most. -/
structure Stopping (s s' : LoopState σ) (waitFails : Prop) (later : List Cqe) : Prop where
  seen : s'.uring.ring.seen = s.uring.ring.seen ++ later
  waits : s'.status = .waiting ↔ (∀ c ∈ later, c.Sent) ∧ ¬ waitFails
  packets : (later.filter Cqe.isPacket).length ≤ 1

theorem sent_not_packet (h : c.Sent) : c.isPacket = false := by
  simp [Cqe.isPacket, h.1]

structure Quitting (s : LoopState σ) : Prop where
  sound : Sound s.uring
  status : s.status = .waiting
  running : s.running = false
  watches : s.prog.watches = true

/-- What a step makes of such a loop: it goes on, with nothing taken or behind the
successful end of a request, or it is left, because of what it has taken or because
the wait has failed. -/
inductive QuitStep (s s' : LoopState σ) (e : LoopEvent) : Prop
  | quiet (next : Quitting s') (seen : s'.uring.ring.seen = s.uring.ring.seen)
      (kind : e ≠ .waitError)
  | sent (c : Cqe) (next : Quitting s') (seen : s'.uring.ring.seen = s.uring.ring.seen ++ [c])
      (sent : c.Sent) (kind : e ≠ .waitError)
  | left (c : Cqe) (status : s'.status ≠ .waiting)
      (seen : s'.uring.ring.seen = s.uring.ring.seen ++ [c]) (sent : ¬ c.Sent)
  | failed (status : s'.status ≠ .waiting) (seen : s'.uring.ring.seen = s.uring.ring.seen)
      (kind : e = .waitError)

theorem Quitting.takeCqe {s : LoopState σ} (h : Quitting s) (api : Ssl σ)
    (hcq : s.uring.ring.cq = c :: cq) : QuitStep s (takeCqe api s c cq) .wake := by
  obtain ⟨held, taken, hinv⟩ := h.sound
  obtain ⟨rs, heff⟩ := hinv.takeCqe_effect api hcq
  have hseen : (Model.takeCqe api s c cq).uring.ring.seen = s.uring.ring.seen ++ [c] := heff.seen
  have hstops := hinv.stops api rfl hcq h.status h.running h.watches
  by_cases hsent : c.Sent
  · have hwaits := hstops.mpr hsent
    refine .sent c ⟨?_, hwaits, ?_, ?_⟩ hseen hsent (by simp)
    · have hnext : (s.step api .wake).status.ok = true → Inv (s.step api .wake).uring held taken :=
        hinv.loop_step .wake
      simp only [LoopState.step, LoopState.wake, h.status, hcq] at hnext
      exact ⟨held, taken, hnext (by rw [hwaits]; rfl)⟩
    · rw [takeCqe_running, h.running]
    · rw [watches_eq, (takeCqe_socket api s c cq .up).2, ← watches_eq, h.watches]
  · exact .left c (fun hwaits => hsent (hstops.mp hwaits)) hseen hsent

theorem Quitting.step {s : LoopState σ} (h : Quitting s) (api : Ssl σ) (e : LoopEvent) :
    QuitStep s (s.step api e) e := by
  have hstatus := h.status
  obtain ⟨held, taken, hinv⟩ := h.sound
  cases e with
  | kernel e =>
      refine .quiet ⟨⟨held, taken, ?_⟩, hstatus, h.running, h.watches⟩
        (kernel_histories s.uring e).1 (by simp)
      exact hinv.kernel e
  | stop => exact .quiet ⟨h.sound, hstatus, rfl, h.watches⟩ rfl (by simp)
  | waitError =>
      simp only [LoopState.step, if_pos hstatus]
      exact .failed (by simp) rfl rfl
  | wake =>
      cases hcq : s.uring.ring.cq with
      | nil =>
          simp only [LoopState.step, LoopState.wake, hstatus, hcq]
          exact .quiet h rfl (by simp)
      | cons c cq =>
          simp only [LoopState.step, LoopState.wake, hstatus, hcq]
          exact h.takeCqe api hcq

theorem stopping_run {s : LoopState σ} (h : Quitting s) (es : List LoopEvent) :
    ∃ later, Stopping s (s.run api es) (LoopEvent.waitError ∈ es) later := by
  induction es generalizing s with
  | nil => exact ⟨[], (List.append_nil _).symm, by simp [LoopState.run, h.status], by simp⟩
  | cons e es ih =>
      have hrun : s.run api (e :: es) = (s.step api e).run api es := rfl
      rw [hrun]
      have hmem : e ≠ .waitError →
          (LoopEvent.waitError ∈ e :: es ↔ LoopEvent.waitError ∈ es) := by
        intro hne
        simp [hne.symm]
      cases h.step api e with
      | quiet next hseen hne =>
          obtain ⟨later, hstopping⟩ := ih next
          rw [hmem hne]
          exact ⟨later, hstopping.seen.trans (by rw [hseen]), hstopping.waits, hstopping.packets⟩
      | sent c next hseen hsent hne =>
          obtain ⟨later, hstopping⟩ := ih next
          rw [hmem hne]
          refine ⟨c :: later, ?_, ?_, ?_⟩
          · rw [hstopping.seen, hseen, List.append_assoc]
            rfl
          · rw [hstopping.waits]
            simp [hsent]
          · rw [List.filter_cons, sent_not_packet hsent]
            exact hstopping.packets
      | left c hleft hseen hsent =>
          obtain ⟨hend, hseen'⟩ := left_run api hleft es
          refine ⟨[c], hseen'.trans hseen, ?_, List.length_filter_le _ _⟩
          rw [hend]
          exact iff_of_false hleft fun h => hsent (h.1 c (List.mem_singleton_self c))
      | failed hleft hseen hfails =>
          obtain ⟨hend, hseen'⟩ := left_run api hleft es
          refine ⟨[], (hseen'.trans hseen).trans (List.append_nil _).symm, ?_, by simp⟩
          rw [hend]
          exact iff_of_false hleft fun h => h.2 (by simp [hfails])

theorem waitError_mem (es : List SessionEvent) :
    LoopEvent.waitError ∈ es.filterMap SessionEvent.loop ↔ SessionEvent.waitError ∈ es := by
  rw [List.mem_filterMap]
  constructor
  · rintro ⟨e, he, hloop⟩
    cases e <;> simp [SessionEvent.loop] at hloop
    exact he
  · exact fun he => ⟨.waitError, he, rfl⟩

/-- When the flag `running` has been cleared, an edge that waits goes on waiting
through the ends of its own requests, and leaves its loop with the first packet,
with a failed completion, or when the wait fails.  It does not take a second
packet. -/
theorem sessions_stop (api : Ssl σ) (config : IouringConfig) (sqeFree : Nat → Bool)
    (submits : Nat → Int) {prog : Program σ} {running : Bool} {start : Session σ}
    (hstart : Session.start (IouringCtx.iouringInit config sqeFree submits) prog running =
      some start) (es fs : List SessionEvent) {s s' : LoopState σ}
    (hs : start.run api es = .loop s) (hs' : start.run api (es ++ fs) = .loop s')
    (hwaits : s.status = .waiting) (hrunning : s.running = false)
    (hwatches : s.prog.watches = true) :
    ∃ later, Stopping s s' (SessionEvent.waitError ∈ fs) later := by
  have hgood := good_run api (good_start config sqeFree submits hstart) es
  rw [hs] at hgood
  have hrun : start.run api (es ++ fs) = Session.run api (.loop s) fs := by
    rw [← hs]
    exact Execution.run_append _ _ _ _
  rw [hrun, loop_session_run] at hs'
  obtain rfl := Session.loop.inj hs'
  rw [← waitError_mem]
  exact stopping_run ⟨hgood (by rw [hwaits]; rfl), hwaits, hrunning, hwatches⟩ _

def stopAndPacket : List SessionEvent :=
  [.stop, .kernel (.complete 1 3 [1, 2, 3] [] 0), .wake]

theorem sessions_stop_once : ∃ (s s' : LoopState Unit) (later : List Cqe),
    smallSession.run plainSsl [.stop] = .loop s ∧
      smallSession.run plainSsl stopAndPacket = .loop s' ∧
      Stopping s s' (SessionEvent.waitError ∈ stopAndPacket.drop 1) later ∧
      s'.status = .exited 0 none := by
  have hstart : Session.start (IouringCtx.iouringInit smallConfig (fun _ => true) fun _ => 1)
      (.tunUdpRunZero smallConn 5) true = some smallSession := rfl
  obtain ⟨later, hstopping⟩ := sessions_stop plainSsl smallConfig (fun _ => true) (fun _ => 1)
    hstart [.stop] (stopAndPacket.drop 1) rfl rfl rfl rfl rfl
  exact ⟨_, _, later, rfl, rfl, hstopping, rfl⟩

/-! ## What a loop is left with -/

def LeftWell (s : LoopState σ) : Prop :=
  ∀ ret op, s.status = .exited ret op →
    ret = -1 ∨ ret = 0 ∧ s.running = false ∧ s.prog.watches = true

theorem leftWell_head {prog : Program σ} {running : Bool} {ret ret' : Int} {op op' : Option OpId}
    (hret : ret' = 0 ∨ ret' = -1)
    (h : headStatus prog running .waiting ret' op' = .exited ret op) :
    ret = -1 ∨ ret = 0 ∧ running = false ∧ prog.watches = true := by
  unfold headStatus at h
  rcases hret with rfl | rfl
  · right
    rw [if_neg (by decide)] at h
    cases prog with
    | forwarderRun inbound outbound => cases h
    | _ =>
        cases running with
        | true => cases h
        | false =>
            injection h with hret
            exact ⟨hret.symm, rfl, rfl⟩
  · left
    rw [if_pos (by decide)] at h
    injection h with hret
    exact hret.symm

theorem LeftWell.takeCqe (h : Inv ctx held taken) {s : LoopState σ} (huring : s.uring = ctx)
    (hcq : ctx.ring.cq = c :: cq) (hstatus : s.status = .waiting) :
    LeftWell (takeCqe api s c cq) := by
  subst huring
  intro ret op hexited
  unfold Model.takeCqe at hexited ⊢
  rcases hstep : (s.uring.iouringCqeSeen c cq).waitForRecvBody c with ⟨step, ctx⟩
  simp only [hstep] at hexited
  cases h.wait hcq hstep with
  | again _ _ _ _ =>
      simp only [hstatus] at hexited
      cases hexited
  | null rs _ _ _ =>
      injection hexited with hret
      exact .inl hret.symm
  | recv rs got idx _ hin _ _ hinv hrecv =>
      rcases hbody : s.prog.body api ctx c.req.userData with ⟨ret', rest, ctx', prog⟩
      obtain ⟨rs', hh⟩ := hinv.body hrecv hin hbody
      simp only [hbody, atLoopHead_eq, hstatus] at hexited ⊢
      exact leftWell_head hh.ret_cases hexited

theorem LeftWell.step {s : LoopState σ} (h : LeftWell s)
    (hsound : s.status.ok = true → Sound s.uring) (e : LoopEvent) : LeftWell (s.step api e) := by
  cases e with
  | kernel e => exact h
  | stop =>
      intro ret op hexited
      exact (h ret op hexited).imp_right fun hok => ⟨hok.1, rfl, hok.2.2⟩
  | waitError =>
      simp only [LoopState.step]
      split
      · intro ret op hexited
        injection hexited with hret
        exact .inl hret.symm
      · exact h
  | wake =>
      simp only [LoopState.step, LoopState.wake]
      split
      · rename_i hstatus hcq
        obtain ⟨_, _, hinv⟩ := hsound (by rw [hstatus]; rfl)
        exact LeftWell.takeCqe hinv rfl hcq hstatus
      · exact h

theorem leftWell_start (ctx : IouringCtx) (prog : Program σ) (running : Bool) :
    LeftWell (LoopState.start ctx prog running) := by
  intro ret op hexited
  rw [LoopState.start, atLoopHead_eq] at hexited ⊢
  exact leftWell_head (.inl rfl) hexited

def LoopsWell : Session σ → Prop
  | .loop s => LeftWell s
  | _ => True

theorem LoopsWell.step {s : Session σ} (h : LoopsWell s) (hgood : s.Good) (e : SessionEvent) :
    LoopsWell (s.step api e) := by
  cases s with
  | handshake stage s running =>
      cases e with
      | proceed =>
          simp only [Session.step]
          split
          · cases stage with
            | edge tunFd =>
                simp only [Session.proceed]
                split
                · trivial
                · exact leftWell_start _ _ _
            | inbound outbound => trivial
            | outbound inbound => exact leftWell_start _ _ _
          · trivial
      | _ => trivial
  | loop s =>
      simp only [Session.step]
      split
      · exact h
      · exact LeftWell.step h hgood _
  | returned uring => cases e <;> trivial

/-- A loop returns -1, or 0 and then the flag `running` has been cleared and the
program is an edge. -/
theorem sessions_exit (api : Ssl σ) (config : IouringConfig) (sqeFree : Nat → Bool)
    (submits : Nat → Int) {prog : Program σ} {running : Bool} {start : Session σ}
    (hstart : Session.start (IouringCtx.iouringInit config sqeFree submits) prog running =
      some start) (es : List SessionEvent) {s : LoopState σ} (hs : start.run api es = .loop s)
    {ret : Int} {op : Option OpId} (hexited : s.status = .exited ret op) :
    ret = -1 ∨ ret = 0 ∧ s.running = false ∧ s.prog.watches = true := by
  have hrun : (start.run api es).Good ∧ LoopsWell (start.run api es) := by
    apply Execution.run_invariant (fun _ => True) (fun s : Session σ => s.Good ∧ LoopsWell s)
    · exact fun s e _ h => ⟨good_step h.1 e, LoopsWell.step h.2 h.1 e⟩
    · exact fun _ _ => trivial
    · refine ⟨good_start config sqeFree submits hstart, ?_⟩
      cases started_of_start hstart with
      | edge conn tunFd _ => trivial
      | zero conn tunFd _ => exact leftWell_start _ _ _
      | forwarder inbound outbound _ => trivial
  rw [hs] at hrun
  exact hrun.2 ret op hexited

/-- The edge that has relayed its last packet has left its loop because of the
flag. -/
theorem sessions_exit_once : ∃ s : LoopState Unit,
    smallSession.run plainSsl stopAndPacket = .loop s ∧ s.status = .exited 0 none ∧
      s.running = false ∧ s.prog.watches = true := by
  have hstart : Session.start (IouringCtx.iouringInit smallConfig (fun _ => true) fun _ => 1)
      (.tunUdpRunZero smallConn 5) true = some smallSession := rfl
  have hexit := sessions_exit plainSsl smallConfig (fun _ => true) (fun _ => 1) hstart
    stopAndPacket rfl rfl
  exact ⟨_, rfl, rfl, (hexit.resolve_left (by decide)).2⟩

end Dataplane.Proofs
