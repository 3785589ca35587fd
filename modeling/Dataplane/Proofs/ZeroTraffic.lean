import Dataplane.Proofs.EndToEnd

/-!
# What passes through an edge without DTLS

`edge_zero` sends the packets of its TUN device as they are and writes the
datagrams of its socket to it, so that two of them give between their TUN devices
what the network gives between their sockets.
-/

namespace Dataplane.Model

open ProofSupport Proofs

/-- The packets read from the TUN device are sent on the socket, and the
datagrams received there are written to the TUN device, in order and once each,
all of them as long as nothing has failed. -/
structure ZeroTraffic (udpFd tunFd : Int) (ring : IoUring) (goes : Prop) : Prop where
  sent : HonestReads ring.seen →
    Follows (packetsRead tunFd ring.seen) (datagrams udpFd ring.queued) goes
  received : HonestReads ring.seen →
    Follows (received udpFd ring.seen) (packetsWritten tunFd ring.queued) goes

variable {σ : Type}

structure ZeroInv (udpFd tunFd : Int) (s : Session σ) : Prop where
  wired : s.Wired [udpFd]
  reads : s.Reads udpFd tunFd
  traffic : ∃ ls conn, s = .loop ls ∧ ls.prog = .tunUdpRunZero conn tunFd ∧ conn.udpFd = udpFd ∧
    ZeroTraffic udpFd tunFd ls.uring.ring (ls.status.ok = true)

end Dataplane.Model

namespace Dataplane.Proofs

open ProofSupport Model Ledger

variable {σ : Type} {api : Ssl σ} {ctx ctx' : IouringCtx} {held got : Multiset OpId}
  {taken idx : Multiset Nat} {conn : Connection σ} {cs : List Cqe} {new : List Sqe} {goes : Prop}
  {udpFd tunFd : Int}

/-! ## A turn of `tun_udp_run_zero` -/

structure ZeroServed (ring ring' : IoUring) (udpFd tunFd : Int) (cs : List Cqe) (new : List Sqe)
    (goes : Prop) : Prop where
  seen : ring'.seen = ring.seen ++ cs
  queued : ring'.queued = ring.queued ++ new
  traffic : HonestReads cs → Follows (packetsRead tunFd cs) (datagrams udpFd new) goes ∧
    Follows (received udpFd cs) (packetsWritten tunFd new) goes

theorem received_nil (fd : Int) (h : ∀ c ∈ cs, c.req.opcode.opType ≠ .udpRecv) :
    received fd cs = [] := by
  rw [received, List.map_eq_nil_iff, List.filter_eq_nil_iff]
  intro c hc hdatagram
  exact h c hc (of_decide_eq_true hdatagram).1

theorem ZeroServed.receives {ring ring' : IoUring} (hseen : ring'.seen = ring.seen ++ cs)
    (hqueued : ring'.queued = ring.queued ++ new) (hnew : ∀ r ∈ new, Receives r)
    (hnone : goes → packetsRead tunFd cs = [] ∧ received udpFd cs = []) :
    ZeroServed ring ring' udpFd tunFd cs new goes where
  seen := hseen
  queued := hqueued
  traffic := fun _ => by
    rw [datagrams_of_receives hnew,
      packetsWritten_nil tunFd fun r hr => not_write_of_receives (hnew r hr)]
    exact ⟨⟨List.nil_prefix, fun hgoes => (hnone hgoes).1.symm⟩,
      ⟨List.nil_prefix, fun hgoes => (hnone hgoes).2.symm⟩⟩

theorem datagrams_of_writes {rs : List Sqe} (h : ∀ r ∈ rs, r.opcode = .write) (fd : Int) :
    datagrams fd rs = [] := by
  rw [datagrams, List.map_eq_nil_iff, List.filter_eq_nil_iff]
  intro r hr
  simp [h r hr]

theorem datagrams_carries {data : Bytes} {rs : List Sqe}
    (h : ∀ r ∈ rs, Carries ctx r .sendmsg udpFd data) : datagrams udpFd rs =
    rs.map fun _ => data := by
  have hall : rs.filter (fun r => r.opcode == .sendmsg && r.fd == udpFd) = rs := by
    apply List.filter_eq_self.mpr
    intro r hr
    simp [(h r hr).opcode, (h r hr).fd]
  rw [datagrams, hall]
  exact List.map_congr_left fun r hr => (h r hr).data

theorem follows_request {data : Bytes} {rs : List Sqe} (hlen : rs.length ≤ 1)
    (hne : goes → rs ≠ []) : Follows [data] (rs.map fun _ => data) goes := by
  apply Follows.single (o := some data) (by simpa using hlen)
  · intro a ha
    obtain ⟨r, -, rfl⟩ := List.mem_map.mp ha
    rfl
  · exact fun hgoes => .inl (by simpa using hne hgoes)

theorem Received.received_eq {mid : IouringCtx} {c : Cqe}
    (hrecv : Received mid c c.req.userData got idx) (hcode : c.req.opcode = .recvmsgMultishot)
    (hfd : c.req.fd = udpFd) : received udpFd [c] = [c.payload] := by
  have htype : c.req.opcode.opType = .udpRecv := by
    rw [hcode]
    rfl
  have hdatagram : c.Datagram udpFd := ⟨htype, hfd, hrecv.nonEmpty hcode⟩
  rw [received, List.filter_singleton, decide_eq_true hdatagram]
  rfl

theorem zero_sends {c : Cqe} {rs rs' : List Sqe} (hcode : c.req.opcode = .read)
    (hfd : c.req.fd = tunFd) (hres : 0 ≤ c.res) (hrs : ∀ r ∈ rs, Receives r)
    (hentry : ∀ r ∈ rs', Carries ctx r .sendmsg udpFd c.payload) (hlen : rs'.length ≤ 1)
    (hne : goes → rs' ≠ []) :
    Follows (packetsRead tunFd [c]) (datagrams udpFd (rs ++ rs')) goes ∧
      Follows (received udpFd [c]) (packetsWritten tunFd (rs ++ rs')) goes := by
  constructor
  · rw [packetsRead_single hcode hfd hres, datagrams_append, datagrams_of_receives hrs,
      List.nil_append, datagrams_carries hentry]
    exact follows_request hlen hne
  · rw [packetsWritten_append,
      packetsWritten_nil tunFd fun r hr => not_write_of_receives (hrs r hr),
      packetsWritten_nil tunFd fun r hr => by rw [(hentry r hr).opcode]; simp,
      received_nil udpFd fun c' hc' => by
        rw [List.mem_singleton.mp hc', hcode]
        simp [Opcode.opType]]
    exact .same [] _

theorem zero_writes {c : Cqe} {rs rs' : List Sqe} (hcode : c.req.opcode = .recvmsgMultishot)
    (hreceived : received udpFd [c] = [c.payload]) (hrs : ∀ r ∈ rs, Receives r)
    (hentry : ∀ r ∈ rs', Carries ctx r .write tunFd c.payload) (hlen : rs'.length ≤ 1)
    (hne : goes → rs' ≠ []) :
    Follows (packetsRead tunFd [c]) (datagrams udpFd (rs ++ rs')) goes ∧
      Follows (received udpFd [c]) (packetsWritten tunFd (rs ++ rs')) goes := by
  constructor
  · rw [datagrams_append, datagrams_of_receives hrs,
      datagrams_of_writes fun r hr => (hentry r hr).opcode,
      packetsRead_nil tunFd fun c' hc' => by
        rw [List.mem_singleton.mp hc', hcode]
        simp]
    exact .same [] _
  · rw [hreceived, packetsWritten_append,
      packetsWritten_nil tunFd fun r hr => not_write_of_receives (hrs r hr), List.nil_append,
      packetsWritten_carries hentry]
    exact follows_request hlen hne

theorem Inv.zero_served (api : Ssl σ) {s : LoopState σ} (h : Inv s.uring held taken)
    (hprog : s.prog = .tunUdpRunZero conn tunFd) {k : Nat}
    (harmed : receives s.uring.ring.outstanding =
      Multiset.replicate k (.read, tunFd) + multishots [conn.udpFd]) {c : Cqe}
    {cq : List Cqe} (hcq : s.uring.ring.cq = c :: cq) :
    ∃ conn' new, (takeCqe api s c cq).prog = .tunUdpRunZero conn' tunFd ∧
      conn'.udpFd = conn.udpFd ∧
      ZeroServed s.uring.ring (takeCqe api s c cq).uring.ring conn.udpFd tunFd [c] new
        ((takeCqe api s c cq).status.ok = true) := by
  have hcmem : c ∈ s.uring.ring.cq := by
    rw [hcq]
    exact List.mem_cons_self
  unfold Model.takeCqe
  rcases hstep : (s.uring.iouringCqeSeen c cq).waitForRecvBody c with ⟨step, ctx⟩
  cases h.wait hcq hstep with
  | again _ hout heff _ =>
      refine ⟨conn, [], hprog, rfl, .receives heff.seen heff.queued (by simp) fun _ => ⟨?_, ?_⟩⟩
      · apply packetsRead_nil
        intro c' hc' hcode
        rw [List.mem_singleton.mp hc'] at hcode
        rw [hcode] at hout
        cases hout
      · apply received_nil
        intro c' hc' htype
        rw [List.mem_singleton.mp hc'] at htype
        revert hout htype
        cases c.req.opcode <;> simp [Opcode.opType, Opcode.outgoing]
  | null rs heff hrs _ =>
      refine ⟨conn, rs, hprog, rfl, .receives heff.seen heff.queued
        (fun r hr => (hrs r hr).outgoing) fun hok => ?_⟩
      simp [Status.ok] at hok
  | recv rs got idx hres hin heff hrs hinv hrecv =>
      have hins : ∀ r ∈ rs, Receives r := fun r hr => (hrs r hr).outgoing
      rcases hbody : tunUdpRunZeroBody ctx conn tunFd c.req.userData with ⟨ret, rest, ctx', prog⟩
      simp only [hprog, Program.body, hbody, atLoopHead_eq]
      have hok : (ret = 0 ∨ ret = -1) →
          (headStatus prog s.running s.status ret rest).ok = true → ret = 0 := by
        rintro (rfl | rfl) hok
        · rfl
        · simp [headStatus, Status.ok] at hok
      have hhonest : HonestReads [c] → c.Honest := fun hc =>
        hc c (List.mem_singleton_self c) hin hres
      rcases hrecv.opType_cases hin with htype | htype
      · have hcode : c.req.opcode = .read := by
          rw [hrecv.opType] at htype
          revert htype
          cases c.req.opcode <;> simp [Opcode.opType]
        obtain ⟨rs', rfl, hh⟩ := hinv.tunUdpRunZeroBody_read hrecv htype rfl hbody
        have heff' := heff.trans hh.effect
        refine ⟨conn, rs ++ rs', rfl, rfl, heff'.seen, heff'.queued, fun hc => ?_⟩
        have hentry := fun r hr => (hh.entry r hr).carries
        rw [(hrecv.payload (hhonest hc)).1] at hentry
        exact zero_sends hcode (h.armed_read harmed hcmem hcode) hres hins hentry hh.single
          fun hgoes => hh.queues (hok hh.ret_cases hgoes)
      · obtain ⟨hcode, hmem⟩ := h.armed_datagram harmed hcmem (hrecv.opType.symm.trans htype)
        obtain ⟨rs', rfl, hh⟩ := hinv.tunUdpRunZeroBody_recv hrecv htype rfl hbody
        have heff' := heff.trans hh.effect
        refine ⟨_, rs ++ rs', rfl, learnAddr_udpFd ctx conn c.req.userData, heff'.seen,
          heff'.queued, fun hc => ?_⟩
        have hentry := hh.entry
        rw [(hrecv.payload (hhonest hc)).1] at hentry
        exact zero_writes hcode (hrecv.received_eq hcode (List.mem_singleton.mp hmem)) hins hentry
          hh.single fun hgoes => hh.queues (hok hh.ret_cases hgoes)

/-! ## A step of the edge -/

theorem received_append (fd : Int) (cs cs' : List Cqe) :
    received fd (cs ++ cs') = received fd cs ++ received fd cs' := by
  rw [received, List.filter_append, List.map_append]
  rfl

theorem ZeroTraffic.served {ring ring' : IoUring} {went : Prop}
    (h : ZeroTraffic udpFd tunFd ring went) (hwent : went)
    (hserved : ZeroServed ring ring' udpFd tunFd cs new goes) :
    ZeroTraffic udpFd tunFd ring' goes := by
  have hparts : HonestReads ring'.seen → HonestReads ring.seen ∧ HonestReads cs := by
    intro hhonest
    rw [hserved.seen] at hhonest
    exact ⟨fun c hc => hhonest c (List.mem_append_left cs hc),
      fun c hc => hhonest c (List.mem_append_right ring.seen hc)⟩
  constructor
  · intro hhonest
    obtain ⟨hbefore, hstep⟩ := hparts hhonest
    rw [hserved.seen, hserved.queued, packetsRead_append, datagrams_append]
    exact (h.sent hbefore).append hwent (hserved.traffic hstep).1
  · intro hhonest
    obtain ⟨hbefore, hstep⟩ := hparts hhonest
    rw [hserved.seen, hserved.queued, received_append, packetsWritten_append]
    exact (h.received hbefore).append hwent (hserved.traffic hstep).2

theorem ZeroTraffic.same {ring ring' : IoUring} {went : Prop}
    (h : ZeroTraffic udpFd tunFd ring went) (hseen : ring'.seen = ring.seen)
    (hqueued : ring'.queued = ring.queued) (hgoes : goes → went) :
    ZeroTraffic udpFd tunFd ring' goes := by
  constructor
  · rw [hseen, hqueued]
    exact fun hhonest => (h.sent hhonest).mono hgoes
  · rw [hseen, hqueued]
    exact fun hhonest => (h.received hhonest).mono hgoes

theorem ZeroInv.step {s : Session σ} (h : ZeroInv udpFd tunFd s) (e : SessionEvent) :
    ZeroInv udpFd tunFd (s.step api e) := by
  obtain ⟨hwired, hreads, ls, conn, rfl, hprog, rfl, htraffic⟩ := h
  have hreads' : ∀ e, (Session.loop (ls.step api e)).Reads conn.udpFd tunFd :=
    fun e => loop_reads hwired hreads e
  have hwired' : ((Session.loop ls).step api e).Wired [conn.udpFd] := Wired.step hwired e
  cases e with
  | call => exact ⟨hwired', hreads, ls, conn, rfl, hprog, rfl, htraffic⟩
  | proceed => exact ⟨hwired', hreads, ls, conn, rfl, hprog, rfl, htraffic⟩
  | stop => exact ⟨hwired', hreads, _, conn, rfl, hprog, rfl, htraffic⟩
  | kernel e =>
      obtain ⟨hseen, hqueued⟩ := kernel_histories ls.uring e
      exact ⟨hwired', hreads' (.kernel e), _, conn, rfl, hprog, rfl,
        ZeroTraffic.same htraffic hseen hqueued id⟩
  | waitError =>
      refine ⟨hwired', hreads' .waitError, ls.step api .waitError, conn, rfl, ?_, rfl, ?_⟩
      · simp only [LoopState.step]
        split
        · exact hprog
        · exact hprog
      · simp only [LoopState.step]
        split
        · exact ZeroTraffic.same htraffic rfl rfl fun hok => by simp [Status.ok] at hok
        · exact htraffic
  | wake =>
      by_cases hwait : ∃ c cq, ls.status = .waiting ∧ ls.uring.ring.cq = c :: cq
      · obtain ⟨c, cq, hstatus, hcq⟩ := hwait
        have hok : ls.status.ok = true := by
          rw [hstatus]
          rfl
        have hstep : ls.step api .wake = takeCqe api ls c cq := by
          simp only [LoopState.step, LoopState.wake, hstatus, hcq]
        obtain ⟨held, taken, hinv⟩ := hwired.good hok
        obtain ⟨k, harmed⟩ := hreads hok
        obtain ⟨conn', new, hprog', hfd, hserved⟩ := hinv.zero_served api hprog harmed hcq
        refine ⟨hwired', hreads' .wake, _, conn', congrArg Session.loop hstep, hprog', hfd, ?_⟩
        exact ZeroTraffic.served htraffic hok hserved
      · have hstep : ls.step api .wake = ls := by
          simp only [LoopState.step, LoopState.wake]
          split
          · rename_i c cq hstatus hcq
            exact absurd ⟨c, cq, hstatus, hcq⟩ hwait
          · rfl
        exact ⟨hwired', hreads' .wake, ls, conn, congrArg Session.loop hstep, hprog, rfl, htraffic⟩

/-! ## Every run -/

theorem zeroInv_start {config : IouringConfig} {sqeFree : Nat → Bool} {submits : Nat → Int}
    {conn : Connection σ} {running : Bool} {start : Session σ}
    (hstart : Session.start (IouringCtx.iouringInit config sqeFree submits)
      (.tunUdpRunZero conn tunFd) running = some start) : ZeroInv conn.udpFd tunFd start := by
  obtain ⟨rs, heff, hrs⟩ := session_start_effect hstart
  have hwired := wired_start config sqeFree submits hstart
  have hinit := inv_iouringInit config sqeFree submits
  have hseen : start.uring.ring.seen = [] := heff.seen
  have hqueued : start.uring.ring.queued = [] ++ rs := heff.queued
  have hnone : receives (IouringCtx.iouringInit config sqeFree submits).ring.outstanding = 0 := rfl
  generalize IouringCtx.iouringInit config sqeFree submits = ctx at *
  cases started_of_start hstart with
  | zero _ _ hsub =>
      rename_i ctx'
      refine ⟨hwired, ?_, _, conn, rfl, start_prog _ _ _, rfl, fun _ => ?_, fun _ => ?_⟩
      · unfold initialSubmissions at hsub
        dsimp only at hsub
        rcases hrecv : ctx.iouringInitialUdpRecvs conn.udpFd with ⟨ret, ctx1⟩
        rcases hread : ctx1.iouringInitialTunReads tunFd with ⟨ret', ctx2⟩
        simp only [hrecv, hread] at hsub
        split at hsub
        · cases hsub
        rename_i hret
        obtain rfl := not_not.mp hret
        split at hsub
        · cases hsub
        rename_i hret'
        obtain rfl := not_not.mp hret'
        obtain rfl := Option.some.inj hsub
        obtain ⟨-, -, -, hinv⟩ := hinit.iouringSubmitMultishotRecvmsg hrecv
        have harmed := submitMultishotRecvmsg_receives hinit hrecv
        obtain ⟨k, hk⟩ := initialTunReads_receives hinv hread
        rw [harmed, hnone, zero_add] at hk
        exact fun _ => ⟨k, by rw [start_uring]; exact hk⟩
      · rw [show (LoopState.start ctx' _ running).uring.ring.seen = [] from hseen,
          show (LoopState.start ctx' _ running).uring.ring.queued = [] ++ rs from hqueued,
          List.nil_append, datagrams_of_receives hrs]
        exact .same [] _
      · rw [show (LoopState.start ctx' _ running).uring.ring.seen = [] from hseen,
          show (LoopState.start ctx' _ running).uring.ring.queued = [] ++ rs from hqueued,
          List.nil_append, packetsWritten_nil tunFd fun r hr => not_write_of_receives (hrs r hr)]
        exact .same [] _

theorem zeroInv_run (api : Ssl σ) {config : IouringConfig} {sqeFree : Nat → Bool}
    {submits : Nat → Int} {conn : Connection σ} {running : Bool} {start : Session σ}
    (hstart : Session.start (IouringCtx.iouringInit config sqeFree submits)
      (.tunUdpRunZero conn tunFd) running = some start) (es : List SessionEvent) :
    ZeroInv conn.udpFd tunFd (start.run api es) :=
  Execution.run_invariant (fun _ => True) (ZeroInv conn.udpFd tunFd)
    (fun _ e _ hs => ZeroInv.step hs e) (fun _ _ => trivial) (zeroInv_start hstart)

/-- Two edges without DTLS give between their TUN devices what the network gives
between their sockets: the receiver writes some of the sender's packets in order,
or none more often than it was read, or none that was not read, whichever is
guaranteed of the datagrams, and all of them if all are received and no session
fails. -/
theorem zero_endToEnd (api : Ssl σ) {config config' : IouringConfig} {sqeFree sqeFree' : Nat → Bool}
    {submits submits' : Nat → Int} {conn conn' : Connection σ} {tunFd tunFd' : Int}
    {running running' : Bool} {sender receiver : Session σ}
    (hsender : Session.start (IouringCtx.iouringInit config sqeFree submits)
      (.tunUdpRunZero conn tunFd) running = some sender)
    (hreceiver : Session.start (IouringCtx.iouringInit config' sqeFree' submits')
      (.tunUdpRunZero conn' tunFd') running' = some receiver) (es es' : List SessionEvent)
    (hhonest : HonestReads (sender.run api es).uring.ring.seen)
    (hhonest' : HonestReads (receiver.run api es').uring.ring.seen)
    {R : List Bytes → List Bytes → Prop} (hR : Guarantee R)
    (hlink : R (received conn'.udpFd (receiver.run api es').uring.ring.seen)
      (datagrams conn.udpFd (sender.run api es).uring.ring.queued)) :
    R (packetsWritten tunFd' (receiver.run api es').uring.ring.queued)
        (packetsRead tunFd (sender.run api es).uring.ring.seen) ∧
      ((sender.run api es).Goes → (receiver.run api es').Goes →
        received conn'.udpFd (receiver.run api es').uring.ring.seen =
          datagrams conn.udpFd (sender.run api es).uring.ring.queued →
        packetsWritten tunFd' (receiver.run api es').uring.ring.queued =
          packetsRead tunFd (sender.run api es).uring.ring.seen) := by
  obtain ⟨-, -, ls, c, hs, -, -, htraffic⟩ := zeroInv_run api hsender es
  obtain ⟨-, -, ls', c', hs', -, -, htraffic'⟩ := zeroInv_run api hreceiver es'
  rw [hs] at hhonest hlink ⊢
  rw [hs'] at hhonest' hlink ⊢
  have hsent := htraffic.sent hhonest
  have hwritten := htraffic'.received hhonest'
  refine ⟨?_, fun hgoes hgoes' hall => ?_⟩
  · exact hR.trans (hR.part hwritten.part) (hR.trans hlink (hR.part hsent.part))
  · calc packetsWritten tunFd' ls'.uring.ring.queued
        = received conn'.udpFd ls'.uring.ring.seen := hwritten.all hgoes'
      _ = datagrams conn.udpFd ls.uring.ring.queued := hall
      _ = packetsRead tunFd ls.uring.ring.seen := hsent.all hgoes

set_option maxRecDepth 2000 in
/-- A packet goes from one edge to the other. -/
theorem zero_endToEnd_once :
    (packetsWritten 5 (smallSession.run plainSsl [tunnelDatagram, .wake]).uring.ring.queued).Sublist
        (packetsRead 5 (smallSession.run plainSsl
          [.kernel (.complete 1 3 [4, 5, 6] [] 0), .wake]).uring.ring.seen) ∧
      packetsWritten 5 (smallSession.run plainSsl [tunnelDatagram, .wake]).uring.ring.queued =
        [[4, 5, 6]] := by
  have hstart : Session.start (IouringCtx.iouringInit smallConfig (fun _ => true) fun _ => 1)
      (.tunUdpRunZero smallConn 5) true = some smallSession := rfl
  obtain ⟨hpart, -⟩ := zero_endToEnd plainSsl hstart hstart
    [.kernel (.complete 1 3 [4, 5, 6] [] 0), .wake] [tunnelDatagram, .wake] (by decide)
    (by decide) Guarantee.sublist (by decide)
  exact ⟨hpart, rfl⟩

end Dataplane.Proofs
