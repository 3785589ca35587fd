import Dataplane.Proofs.Relay
import Dataplane.ProofSupport.Channel

/-!
# What passes through a node

The packets that are in a node on a way stand in two queues, the requests that
are to take them out and the completions that have brought them in.  No step of
the loop or of its kernel changes their order, and none gets lost while the loop
goes on and all that it sends is sent.
-/

namespace Dataplane.Model

open ProofSupport

variable {σ κ : Type} {api : Ssl σ}

/-- The requests that are taking packets out through a door.  Behind the TUN
device nothing follows, so there they are all that were ever made. -/
def Door.outlet : Door κ → IoUring → List Sqe
  | .tun _, ring => ring.queued
  | .udp _ _ _ _, ring => ring.inflight

def Door.OpenedBy (prog : Program σ) (w : Way) : Door κ → Prop
  | .tun fd => prog.tun = some fd
  | .udp fd _ _ _ => prog.socket w = fd

namespace IdealDtls

variable (dtls : IdealDtls api κ) (door : Way → Door κ)

/-- The packets in a node on a way, the oldest first. -/
def inside (ring : IoUring) (w : Way) : List (Nat × Bytes) :=
  ((door w).outlet ring).filterMap (dtls.leaving (door w)) ++
    ring.cq.filterMap (dtls.entering (door w.back))

def passed (ctx ctx' : IouringCtx) : Door κ → List (Nat × Bytes)
  | .tun _ => []
  | .udp fd peer send _ => (sentBetween ctx ctx' fd peer).map fun x => (x.1, dtls.plain send x.2)

structure Passing (s : LoopState σ) : Prop where
  apart : ∀ w, (door w).Apart (door w.back)
  stopped : Proofs.Stopped s.uring
  sound : s.status.ok = true → Proofs.Sound s.uring ∧ dtls.Joins s.prog door
  opened : ∀ w, (door w).OpenedBy s.prog w
  leaves : ∀ r ∈ s.uring.ring.inflight, ∀ w, dtls.leaving (door w) r ≠ none → dtls.Leaves r (door w)
  lens : ∀ r ∈ s.uring.ring.queued, r.opcode = .write → r.len = r.data.length
  enters : ∀ c ∈ s.uring.ring.cq, c.req.opcode.outgoing = false → 0 ≤ c.res →
    c.Honest ∧ ∃ w : Way, dtls.Enters c (door w.back)

end IdealDtls

/-- The loop has not failed, and nothing that it sent has. -/
def LoopState.Clean (s : LoopState σ) : Prop :=
  s.status.ok = true ∧ ∀ c ∈ s.uring.ring.cq, c.req.opcode.outgoing = true → 0 ≤ c.res

namespace IdealDtls

variable (dtls : IdealDtls api κ) (door : Way → Door κ)

/-- Between two states of a ring the packets on a way stay in order, those that
are sent being records, and if `complete` none is missing. -/
structure Accounts (ctx ctx' : IouringCtx) (w : Way) (complete : Prop) : Prop where
  records : ∀ fd peer send recv, door w = .udp fd peer send recv →
    ∀ x ∈ sentBetween ctx ctx' fd peer, dtls.record send x.2
  keeps : (dtls.passed ctx ctx' (door w) ++ dtls.inside door ctx'.ring w).Sublist
    (dtls.inside door ctx.ring w)
  exact : complete →
    dtls.passed ctx ctx' (door w) ++ dtls.inside door ctx'.ring w = dtls.inside door ctx.ring w

structure Passes (s s' : LoopState σ) : Prop where
  passing : dtls.Passing door s'
  clean : s'.Clean → s.Clean
  accounts : ∀ w, dtls.Accounts door s.uring s'.uring w s'.Clean

end IdealDtls

end Dataplane.Model

namespace Dataplane.Proofs

open ProofSupport Model Ledger

variable {σ κ : Type} {api : Ssl σ} {dtls : IdealDtls api κ} {door : Way → Door κ}
  {s s' : LoopState σ} {ctx ctx' : IouringCtx} {c : Cqe} {cq : List Cqe} {w : Way}

/-! ## Sockets and devices stay -/

theorem body_socket (api : Ssl σ) (ctx : IouringCtx) (op : OpId) (prog : Program σ) (w : Way) :
    (prog.body api ctx op).2.2.2.socket w = prog.socket w ∧
      (prog.body api ctx op).2.2.2.tun = prog.tun := by
  cases prog with
  | tunUdpRun conn tunFd =>
      have hsend : ∀ data, (dtlsEncryptAndSendUdp api conn data ctx).2.2.udpFd = conn.udpFd :=
        fun data => congrArg Peer.udpFd (dtlsEncryptAndSendUdp_peer api conn data ctx)
      have hwrite : ∀ data len,
          (dtlsDecryptAndWriteTun api conn tunFd data len ctx).2.2.udpFd = conn.udpFd :=
        fun data len =>
          congrArg Peer.udpFd (dtlsDecryptAndWriteTun_peer api conn tunFd data len ctx)
      simp only [Program.body, tunUdpRunBody]
      split
      · exact ⟨hsend _, rfl⟩
      · exact ⟨hwrite _ _, rfl⟩
      · exact ⟨rfl, rfl⟩
  | tunUdpRunZero conn tunFd =>
      simp only [Program.body, tunUdpRunZeroBody]
      split
      · exact ⟨rfl, rfl⟩
      · exact ⟨learnAddr_udpFd ctx conn op, rfl⟩
      · exact ⟨rfl, rfl⟩
  | forwarderRun inbound outbound =>
      obtain ⟨hin, hout⟩ := forwardUdpPacket_peer api ctx inbound outbound op
      have hin' := congrArg Peer.udpFd hin
      have hout' := congrArg Peer.udpFd hout
      simp only [Program.body, forwarderRunBody]
      split
      · exact ⟨rfl, rfl⟩
      · split <;> refine ⟨?_, rfl⟩ <;> cases w <;> assumption

theorem takeCqe_socket (api : Ssl σ) (s : LoopState σ) (c : Cqe) (cq : List Cqe) (w : Way) :
    (takeCqe api s c cq).prog.socket w = s.prog.socket w ∧
      (takeCqe api s c cq).prog.tun = s.prog.tun := by
  unfold takeCqe
  rcases (s.uring.iouringCqeSeen c cq).waitForRecvBody c with ⟨_ | op | _, ctx⟩
  · exact ⟨rfl, rfl⟩
  · simp only [atLoopHead_eq]
    exact body_socket api ctx op s.prog w
  · exact ⟨rfl, rfl⟩

theorem OpenedBy.of_eq {prog prog' : Program σ} {d : Door κ} (h : d.OpenedBy prog w)
    (hsocket : prog'.socket w = prog.socket w ∧ prog'.tun = prog.tun) : d.OpenedBy prog' w := by
  cases d with
  | tun fd => exact hsocket.2.trans h
  | udp fd peer send recv => exact hsocket.1.trans h

/-! ## What is sent -/

theorem sentBetween_append {ts : List Transfer}
    (h : ctx'.ring.wire = ctx.ring.wire ++ ts) (fd : Int)
    (name : Bytes) : sentBetween ctx ctx' fd name = (ts.filter fun t =>
      t.req.opcode == .sendmsg && t.req.fd == fd && t.name == name).map fun t =>
        (t.req.tag, t.data) := by
  rw [sentBetween, h, List.drop_left]

theorem sentBetween_of_eq (h : ctx'.ring.wire = ctx.ring.wire) (fd : Int) (name : Bytes) :
    sentBetween ctx ctx' fd name = [] := by
  have hwire : ctx'.ring.wire = ctx.ring.wire ++ [] := by rw [h, List.append_nil]
  rw [sentBetween_append hwire]
  rfl

theorem passed_of_eq (h : ctx'.ring.wire = ctx.ring.wire) (d : Door κ) :
    dtls.passed ctx ctx' d = [] := by
  cases d with
  | tun fd => rfl
  | udp fd peer send recv => rw [IdealDtls.passed, sentBetween_of_eq h, List.map_nil]

/-! ## The kernel -/

theorem Posted.outlet (h : Posted ctx ctx' c) (hnone : ∀ fd peer send recv,
    door w = .udp fd peer send recv → dtls.leaving (door w) c.req = none) :
    ((door w).outlet ctx'.ring).filterMap (dtls.leaving (door w)) =
      ((door w).outlet ctx.ring).filterMap (dtls.leaving (door w)) := by
  cases hdoor : door w with
  | tun fd => rw [Door.outlet, Door.outlet, h.queued]
  | udp fd peer send recv =>
      have hreq := hnone fd peer send recv hdoor
      rw [hdoor] at hreq
      simp only [Door.outlet, IoUring.inflight, List.filterMap_append, h.sq, h.active]
      split
      · rfl
      · rw [filterMap_erase_of_none hreq]

theorem Posted.inside_incoming (h : Posted ctx ctx' c)
    (hin : c.req.opcode.outgoing = false) (w : Way) :
    dtls.inside door ctx'.ring w =
      dtls.inside door ctx.ring w ++ (dtls.entering (door w.back) c).toList := by
  rw [IdealDtls.inside, IdealDtls.inside, h.outlet fun _ _ _ _ _ => leaving_of_incoming hin _, h.cq,
    List.filterMap_append, List.append_assoc]
  congr 2

theorem Posted.inside_outgoing (h : Posted ctx ctx' c)
    (hout : c.req.opcode.outgoing = true) (w : Way) :
    dtls.inside door ctx'.ring w = ((door w).outlet ctx'.ring).filterMap (dtls.leaving (door w)) ++
      ctx.ring.cq.filterMap (dtls.entering (door w.back)) := by
  rw [IdealDtls.inside, h.cq, List.filterMap_append,
    List.filterMap_cons_none (entering_of_outgoing hout _), List.filterMap_nil, List.append_nil]

theorem Accounts.of_inside {complete : Prop} (hwire : ctx'.ring.wire = ctx.ring.wire)
    (hinside : dtls.inside door ctx'.ring w = dtls.inside door ctx.ring w) :
    dtls.Accounts door ctx ctx' w complete where
  records := fun _ _ _ _ _ x hx => by
    rw [sentBetween_of_eq hwire] at hx
    cases hx
  keeps := by rw [passed_of_eq hwire, List.nil_append, hinside]
  exact := fun _ => by rw [passed_of_eq hwire, List.nil_append, hinside]

theorem Posted.accounts_other (h : Posted ctx ctx' c) (hout : c.req.opcode.outgoing = true)
    (hother : ∀ fd peer send recv, door w = .udp fd peer send recv →
      ¬ (c.req.opcode = .sendmsg ∧ c.req.fd = fd)) (complete : Prop) :
    dtls.Accounts door ctx ctx' w complete := by
  have hsent : ∀ fd peer send recv, door w = .udp fd peer send recv →
      sentBetween ctx ctx' fd peer = [] := by
    intro fd peer send recv hdoor
    have hne := hother fd peer send recv hdoor
    rw [sentBetween_append h.wire]
    split
    · have hskip : (c.req.opcode == .sendmsg && c.req.fd == fd) = false := by
        simpa using hne
      simp [hskip]
    · rfl
  have hpassed : dtls.passed ctx ctx' (door w) = [] := by
    cases hdoor : door w with
    | tun fd => rfl
    | udp fd peer send recv => rw [IdealDtls.passed, hsent fd peer send recv hdoor, List.map_nil]
  have hinside : dtls.inside door ctx'.ring w = dtls.inside door ctx.ring w := by
    rw [h.inside_outgoing hout, h.outlet, IdealDtls.inside]
    intro fd peer send recv hdoor
    rw [hdoor, IdealDtls.leaving, if_neg (hother fd peer send recv hdoor)]
  refine ⟨fun fd peer send recv hdoor x hx => ?_, ?_, fun _ => ?_⟩
  · rw [hsent fd peer send recv hdoor] at hx
    cases hx
  all_goals rw [hpassed, List.nil_append, hinside]

theorem Posted.accounts_own (h : Posted ctx ctx' c) (hcode : c.req.opcode = .sendmsg)
    (holdest : ctx.ring.active.find?
      (fun r => r.opcode == .sendmsg && r.fd == c.req.fd) = some c.req)
    (hintact : Intact ctx c.req) {peer : Bytes} {send recv : κ}
    (hdoor : door w = .udp c.req.fd peer send recv) (hleaves : dtls.Leaves c.req (door w)) :
    dtls.Accounts door ctx ctx' w (0 ≤ c.res) := by
  have hout : c.req.opcode.outgoing = true := by rw [hcode]; rfl
  obtain ⟨hdata, hname⟩ := hintact hout
  have hleaving : dtls.leaving (door w) c.req = some (c.req.tag, dtls.plain send c.req.data) := by
    simp [hdoor, IdealDtls.leaving, hcode]
  have hhead : ctx.ring.active.filterMap (dtls.leaving (door w)) =
      (c.req.tag, dtls.plain send c.req.data) ::
        (ctx.ring.active.erase c.req).filterMap (dtls.leaving (door w)) := by
    refine filterMap_erase_oldest (fun r => ?_) holdest hleaving
    rw [hdoor, IdealDtls.leaving]
    by_cases hr : r.opcode = .sendmsg ∧ r.fd = c.req.fd
    · simp [hr]
    · rw [if_neg hr, Option.isSome_none]
      simpa using hr
  have hbefore : dtls.inside door ctx.ring w =
      (c.req.tag, dtls.plain send c.req.data) :: dtls.inside door ctx'.ring w := by
    rw [h.inside_outgoing hout, IdealDtls.inside, hdoor]
    rw [hdoor] at hhead
    simp only [Door.outlet, IoUring.inflight, List.filterMap_append, hhead, h.sq, h.active,
      h.last hout, Bool.false_eq_true, if_false, List.cons_append]
  rw [hdoor] at hleaves
  cases hleaves with
  | udp _ _ hrecord hpeer =>
      have hsent : sentBetween ctx ctx' c.req.fd peer =
          if 0 ≤ c.res then [(c.req.tag, c.req.data)] else [] := by
        rw [sentBetween_append h.wire]
        by_cases hres : 0 ≤ c.res
        · rw [if_pos ⟨hout, hres⟩, if_pos hres]
          simp [hcode, hname, hpeer, hdata]
        · rw [if_neg fun hsent => hres hsent.2, if_neg hres]
          rfl
      refine ⟨fun fd peer' send' recv' hdoor' x hx => ?_, ?_, fun hres => ?_⟩
      · rw [hdoor] at hdoor'
        cases hdoor'
        rw [hsent] at hx
        split at hx
        · rw [List.mem_singleton.mp hx]
          exact hrecord
        · cases hx
      · rw [hbefore, hdoor, IdealDtls.passed, hsent]
        split
        · exact List.Sublist.refl _
        · exact List.sublist_cons_self _ _
      · rw [hbefore, hdoor, IdealDtls.passed, hsent, if_pos hres]
        rfl

theorem Inv.takeCqe_stopped (api : Ssl σ) {held : Multiset OpId} {taken : Multiset Nat}
    (h : Inv s.uring held taken) (hcq : s.uring.ring.cq = c :: cq) :
    Stopped (takeCqe api s c cq).uring := by
  unfold takeCqe
  rcases hstep : (s.uring.iouringCqeSeen c cq).waitForRecvBody c with ⟨step, ctx⟩
  cases h.wait hcq hstep with
  | again _ _ _ hinv => exact hinv.stopped
  | null _ _ _ hstop => exact hstop
  | recv rs got idx _ hin _ _ hinv hrecv =>
      rcases hbody : s.prog.body api ctx c.req.userData with ⟨ret, rest, ctx', prog⟩
      obtain ⟨rs', hh⟩ := hinv.body hrecv hin hbody
      simp only [hbody, atLoopHead_eq]
      rcases hh.done with ⟨-, -, hinv'⟩ | ⟨-, hstop⟩
      · exact hinv'.stopped
      · exact hstop

/-! ## Steps of the kernel -/

theorem Passing.posted (h : dtls.Passing door s) {e : KEvent}
    (hpost : Posted s.uring (s.uring.kernel e) c)
    (henters : c.req.opcode.outgoing = false → 0 ≤ c.res →
      c.Honest ∧ ∃ w : Way, dtls.Enters c (door w.back)) :
    dtls.Passing door { s with uring := s.uring.kernel e } where
  apart := h.apart
  stopped := h.stopped.kernel e
  sound := fun hok => by
    obtain ⟨⟨held, taken, hinv⟩, hjoins⟩ := h.sound hok
    exact ⟨⟨held, taken, hinv.kernel e⟩, hjoins⟩
  opened := h.opened
  leaves := fun r hr => by
    refine h.leaves r ?_
    simp only [IoUring.inflight, hpost.active, hpost.sq, List.mem_append] at hr ⊢
    refine hr.imp_left fun hactive => ?_
    split at hactive
    · exact hactive
    · exact List.mem_of_mem_erase hactive
  lens := fun r hr => by
    rw [hpost.queued] at hr
    exact h.lens r hr
  enters := fun c' hc' => by
    rw [hpost.cq] at hc'
    rcases List.mem_append.mp hc' with hold | hnew
    · exact h.enters c' hold
    · rw [List.mem_singleton.mp hnew]
      exact henters

theorem Posted.clean {e : KEvent} (hpost : Posted s.uring (s.uring.kernel e) c)
    (h : LoopState.Clean { s with uring := s.uring.kernel e }) :
    s.Clean ∧ (c.req.opcode.outgoing = true → 0 ≤ c.res) := by
  obtain ⟨hok, hcq⟩ := h
  rw [hpost.cq] at hcq
  exact ⟨⟨hok, fun c' hc' => hcq c' (List.mem_append_left _ hc')⟩,
    hcq c (List.mem_append_right _ (List.mem_singleton_self c))⟩

theorem Passing.stays (h : dtls.Passing door s) : dtls.Passes door s s :=
  ⟨h, id, fun _ => Accounts.of_inside rfl rfl⟩

theorem Passing.posted_failed (h : dtls.Passing door s) {e : KEvent}
    (hpost : Posted s.uring (s.uring.kernel e) c) (hin : c.req.opcode.outgoing = false)
    (hres : c.res < 0) : dtls.Passes door s { s with uring := s.uring.kernel e } where
  passing := Passing.posted h hpost fun _ hpos => by omega
  clean := fun hclean => (hpost.clean hclean).1
  accounts := fun w => by
    apply Accounts.of_inside
    · rw [hpost.wire, hin]
      simp
    · rw [hpost.inside_incoming hin, entering_of_failed hres, Option.toList_none, List.append_nil]

theorem Passing.posted_outgoing (h : dtls.Passing door s) {e : KEvent}
    (hpost : Posted s.uring (s.uring.kernel e) c) (hout : c.req.opcode.outgoing = true)
    (holdest : c.req.opcode = .sendmsg → s.uring.ring.active.find?
      (fun r => r.opcode == .sendmsg && r.fd == c.req.fd) = some c.req) :
    dtls.Passes door s { s with uring := s.uring.kernel e } where
  passing := Passing.posted h hpost fun hin => by
    rw [hout] at hin
    cases hin
  clean := fun hclean => (hpost.clean hclean).1
  accounts := fun w => by
    obtain ⟨held, taken, hinv⟩ := h.stopped
    have hactive := List.mem_append_left (dropSq s.uring).ring.sq hpost.req
    have hintact : Intact s.uring c.req := (hinv.inflight c.req hactive).2
    by_cases hown : ∃ peer send recv, c.req.opcode = .sendmsg ∧
        door w = .udp c.req.fd peer send recv
    · obtain ⟨peer, send, recv, hcode, hdoor⟩ := hown
      have hleaving : dtls.leaving (door w) c.req ≠ none := by
        simp [hdoor, IdealDtls.leaving, hcode]
      have hleaves := h.leaves c.req (List.mem_append_left _ hpost.req) w hleaving
      have hacc := hpost.accounts_own hcode (holdest hcode) hintact hdoor hleaves
      exact ⟨hacc.records, hacc.keeps, fun hclean => hacc.exact ((hpost.clean hclean).2 hout)⟩
    · apply hpost.accounts_other hout
      rintro fd peer send recv hdoor ⟨hcode, rfl⟩
      exact hown ⟨peer, send, recv, hcode, hdoor⟩

theorem Passing.kernel (h : dtls.Passing door s) {e : KEvent}
    (hallows : s.uring.allows (.kernel e) = true) :
    dtls.Passes door s { s with uring := s.uring.kernel e } := by
  have hnone : s.uring.kernel e = s.uring →
      dtls.Passes door s { s with uring := s.uring.kernel e } := fun heq => by
    rw [heq]
    exact Passing.stays h
  cases e with
  | recv op bid res data more tag => cases hallows
  | fail op res =>
      cases hr : s.uring.inFlight op true with
      | none => exact hnone (by simp [IouringCtx.kernel, hr])
      | some r =>
          by_cases hres : res < 0
          · obtain ⟨-, -, hmulti⟩ := mem_of_inFlight hr
            have hcode : r.opcode = .recvmsgMultishot := by simpa using hmulti
            exact Passing.posted_failed h (fail_posted hr hres) (by simp [hcode, Opcode.outgoing])
              hres
          · exact hnone (by simp [IouringCtx.kernel, hr, hres])
  | complete op res data name tag =>
      cases hr : s.uring.inFlight op false with
      | none => exact hnone (by simp [IouringCtx.kernel, hr])
      | some r =>
          have hpost := complete_posted hr res data name tag
          simp only [IouringCtx.allows, hr] at hallows
          cases hcode : r.opcode with
          | write =>
              refine Passing.posted_outgoing h hpost (by simp [hcode, Opcode.outgoing]) ?_
              intro hsend
              rw [hcode] at hsend
              cases hsend
          | sendmsg =>
              simp only [hcode, beq_iff_eq] at hallows
              exact Passing.posted_outgoing h hpost (by simp [hcode, Opcode.outgoing])
                fun _ => hallows
          | read | recvmsg | recvmsgMultishot =>
              simp only [hcode, decide_eq_true_eq] at hallows
              exact Passing.posted_failed h hpost (by simp [hcode, Opcode.outgoing]) hallows

/-! ## Arrivals -/

structure Arrives (dtls : IdealDtls api κ) (door : Way → Door κ) (s s' : LoopState σ) (w : Way)
    (x : Nat × Bytes) : Prop where
  passing : dtls.Passing door s'
  clean : s'.Clean → s.Clean
  wire : s'.uring.ring.wire = s.uring.ring.wire
  inside : dtls.inside door s'.uring.ring w = dtls.inside door s.uring.ring w ++ [x]
  other : dtls.inside door s'.uring.ring w.back = dtls.inside door s.uring.ring w.back

theorem Passing.arrives (h : dtls.Passing door s) {e : KEvent}
    (hpost : Posted s.uring (s.uring.kernel e) c) (hin : c.req.opcode.outgoing = false)
    (hhonest : c.Honest) (henter : dtls.Enters c (door w.back)) {x : Nat × Bytes}
    (hx : dtls.entering (door w.back) c = some x) :
    Arrives dtls door s { s with uring := s.uring.kernel e } w x where
  passing := Passing.posted h hpost fun _ _ => ⟨hhonest, w, henter⟩
  clean := fun hclean => (hpost.clean hclean).1
  wire := by
    show (s.uring.kernel e).ring.wire = _
    rw [hpost.wire, hin]
    simp
  inside := by
    show dtls.inside door (s.uring.kernel e).ring w = _
    rw [hpost.inside_incoming hin, hx, Option.toList_some]
  other := by
    have hnone : dtls.entering (door w.back.back) c = none := entering_of_apart (h.apart _) henter
    show dtls.inside door (s.uring.kernel e).ring w.back = _
    rw [hpost.inside_incoming hin, hnone, Option.toList_none, List.append_nil]

/-! ## Turns of the loop -/

theorem Took.inside {ins outs : List Sqe} (h : Took s s' c cq ins outs) (w : Way) :
    dtls.inside door s'.uring.ring w =
      ((door w).outlet s.uring.ring).filterMap (dtls.leaving (door w)) ++
        (outs.filterMap (dtls.leaving (door w)) ++ cq.filterMap (dtls.entering (door w.back))) := by
  have hins : ins.filterMap (dtls.leaving (door w)) = [] :=
    List.filterMap_eq_nil_iff.mpr fun r hr => leaving_of_incoming (h.incoming r hr) _
  have houtlet : (door w).outlet s'.uring.ring = (door w).outlet s.uring.ring ++ (ins ++ outs) := by
    cases door w with
    | tun fd => exact h.queued
    | udp fd peer send recv => exact h.inflight
  rw [IdealDtls.inside, houtlet, h.cq, List.filterMap_append, List.filterMap_append, hins,
    List.nil_append, List.append_assoc]

theorem inside_of_cq (hcq : s.uring.ring.cq = c :: cq) (w : Way) : dtls.inside door s.uring.ring w =
    ((door w).outlet s.uring.ring).filterMap (dtls.leaving (door w)) ++
      ((dtls.entering (door w.back) c).toList ++ cq.filterMap (dtls.entering (door w.back))) := by
  rw [IdealDtls.inside, hcq, List.filterMap_cons]
  cases dtls.entering (door w.back) c <;> rfl

/-- What a turn makes of a completion, as far as the requests that it makes take
out what the completion has brought in. -/
theorem Passing.took (h : dtls.Passing door s) (hok : s.status.ok = true)
    (hcq : s.uring.ring.cq = c :: cq) {ins outs : List Sqe} (htook : Took s s' c cq ins outs)
    (hstopped : Stopped s'.uring) (hsocket : ∀ w, s'.prog.socket w = s.prog.socket w ∧
      s'.prog.tun = s.prog.tun)
    (hres : s'.status.ok = true → 0 ≤ c.res)
    (hsound : s'.status.ok = true → Sound s'.uring ∧ dtls.Joins s'.prog door)
    (houts : ∀ r ∈ outs, ∀ w, dtls.leaving (door w) r ≠ none → dtls.Leaves r (door w))
    (hlens : ∀ r ∈ outs, r.opcode = .write → r.len = r.data.length)
    (hkeeps : ∀ w, (outs.filterMap (dtls.leaving (door w))).Sublist
      (dtls.entering (door w.back) c).toList)
    (hexact : s'.status.ok = true → ∀ w, outs.filterMap (dtls.leaving (door w)) =
      (dtls.entering (door w.back) c).toList) : dtls.Passes door s s' where
  passing :=
    { apart := h.apart
      stopped := hstopped
      sound := hsound
      opened := fun w => OpenedBy.of_eq (h.opened w) (hsocket w)
      leaves := fun r hr w hleaving => by
        rw [htook.inflight] at hr
        rcases List.mem_append.mp hr with hr | hr
        · exact h.leaves r hr w hleaving
        rcases List.mem_append.mp hr with hr | hr
        · exact absurd (leaving_of_incoming (htook.incoming r hr) _) hleaving
        · exact houts r hr w hleaving
      lens := fun r hr hcode => by
        rw [htook.queued] at hr
        rcases List.mem_append.mp hr with hr | hr
        · exact h.lens r hr hcode
        rcases List.mem_append.mp hr with hr | hr
        · have hin := htook.incoming r hr
          rw [hcode] at hin
          cases hin
        · exact hlens r hr hcode
      enters := fun c' hc' => by
        rw [htook.cq] at hc'
        exact h.enters c' (by rw [hcq]; exact List.mem_cons_of_mem c hc') }
  clean := fun hclean => by
    refine ⟨hok, fun c' hc' hout => ?_⟩
    rw [hcq] at hc'
    rcases List.mem_cons.mp hc' with rfl | hc'
    · exact hres hclean.1
    · exact hclean.2 c' (by rw [htook.cq]; exact hc') hout
  accounts := fun w => by
    refine ⟨fun fd peer send recv _ x hx => ?_, ?_, fun hclean => ?_⟩
    · rw [sentBetween_of_eq htook.wire] at hx
      cases hx
    · rw [passed_of_eq htook.wire, List.nil_append, htook.inside, inside_of_cq hcq]
      exact ((hkeeps w).append_right _).append_left _
    · rw [passed_of_eq htook.wire, List.nil_append, htook.inside, inside_of_cq hcq,
        hexact hclean.1]

theorem Leaves.len {r : Sqe} {d : Door κ} (h : dtls.Leaves r d) (hcode : r.opcode = .write) :
    r.len = r.data.length := by
  cases h with
  | tun _ _ hlen => exact hlen
  | udp hsend _ _ _ =>
      rw [hcode] at hsend
      cases hsend

section Single

variable {α β : Type*} {f : α → Option β} {o : Option β} {l : List α}

theorem single_eq (hsingle : l.length ≤ 1) (hne : l ≠ []) (h : ∀ a ∈ l, f a = o) :
    l.filterMap f = o.toList := by
  obtain ⟨a, rfl⟩ := List.length_eq_one_iff.mp
    (Nat.le_antisymm hsingle (List.length_pos_iff.mpr hne))
  rw [List.filterMap_cons, h a (List.mem_singleton_self a)]
  cases o <;> rfl

theorem single_sublist (hsingle : l.length ≤ 1) (h : ∀ a ∈ l, f a = o) :
    (l.filterMap f).Sublist o.toList := by
  by_cases hne : l = []
  · rw [hne]
    exact List.nil_sublist _
  · rw [single_eq hsingle hne h]

end Single

theorem takeCqe_failed (api : Ssl σ) (s : LoopState σ) (cq : List Cqe) (hres : c.res < 0) :
    takeCqe api s c cq =
      { s with uring := s.uring.iouringCqeSeen c cq, status := .exited (-1) none } := by
  simp [takeCqe, IouringCtx.waitForRecvBody, hres]

theorem Passing.takeCqe (h : dtls.Passing door s) (hstatus : s.status = .waiting)
    (hcq : s.uring.ring.cq = c :: cq) : dtls.Passes door s (Model.takeCqe api s c cq) := by
  have hok : s.status.ok = true := by
    rw [hstatus]
    rfl
  obtain ⟨⟨held, taken, hinv⟩, hjoins⟩ := h.sound hok
  have hstopped := hinv.takeCqe_stopped api hcq
  have hsocket := takeCqe_socket api s c cq
  have hc : c ∈ s.uring.ring.cq := by
    rw [hcq]
    exact List.mem_cons_self
  cases hout : c.req.opcode.outgoing with
  | true =>
      obtain ⟨ins, outs, htook, hturn⟩ := hinv.turn api hcq (P := fun _ => True)
        (Q := fun _ => True) fun hin => by
          rw [hout] at hin
          cases hin
      obtain ⟨rfl, hprog⟩ := hturn.outgoing hout
      refine Passing.took h hok hcq htook hstopped hsocket hturn.ok (fun hok' => ?_) (by simp)
        (by simp) (fun w => ?_) fun _ w => ?_
      · rw [hprog]
        exact ⟨⟨held, taken, hturn.inv hok'⟩, hjoins⟩
      all_goals rw [entering_of_outgoing hout]
      · exact List.Sublist.refl _
      · rfl
  | false =>
      by_cases hres : c.res < 0
      · have hfailed := takeCqe_failed api s cq hres
        have htook : Took s (Model.takeCqe api s c cq) c cq [] [] := by
          rw [hfailed]
          exact ⟨rfl, rfl, (List.append_nil _).symm, (List.append_nil _).symm, rfl, by simp⟩
        have hnot : ¬ (Model.takeCqe api s c cq).status.ok = true := by
          rw [hfailed]
          simp [Status.ok]
        refine Passing.took h hok hcq htook hstopped hsocket (fun hok' => absurd hok' hnot)
          (fun hok' => absurd hok' hnot) (by simp) (by simp) (fun w => ?_) fun hok' =>
          absurd hok' hnot
        exact List.nil_sublist _
      · obtain ⟨hhonest, w, henter⟩ := h.enters c hc hout (by omega)
        obtain ⟨ins, outs, htook, hturn⟩ :=
          hinv.turn api hcq fun _ => joins_bodySpec hjoins hhonest henter
        have hother : ∀ r ∈ outs, dtls.leaving (door w.back) r = none := fun r hr =>
          leaving_of_apart (h.apart w) (hturn.entry r hr).1
        have hnothing : dtls.entering (door w) c = none := by
          have hnone := entering_of_apart (h.apart w.back) henter
          rwa [back_back] at hnone
        refine Passing.took h hok hcq htook hstopped hsocket hturn.ok
          (fun hok' => ⟨⟨held, taken, hturn.inv hok'⟩, (hturn.done hok' hout).2⟩)
          (fun r hr v hleaving => ?_) (fun r hr hcode => Leaves.len (hturn.entry r hr).1 hcode)
          (fun v => ?_) fun hok' v => ?_
        all_goals obtain rfl | rfl := eq_or_eq_back v w
        · exact (hturn.entry r hr).1
        · exact absurd (hother r hr) hleaving
        · exact single_sublist hturn.single fun r hr => (hturn.entry r hr).2
        · rw [List.filterMap_eq_nil_iff.mpr hother]
          exact List.nil_sublist _
        · exact single_eq hturn.single (hturn.done hok' hout).1 fun r hr => (hturn.entry r hr).2
        · rw [List.filterMap_eq_nil_iff.mpr hother, back_back, hnothing, Option.toList_none]

theorem Passing.wake (h : dtls.Passing door s) : dtls.Passes door s (s.wake api) := by
  unfold LoopState.wake
  split
  · rename_i hstatus hcq
    exact Passing.takeCqe h hstatus hcq
  · exact Passing.stays h

/-- Whatever a loop and its kernel do, as long as no packet comes in, the packets
in the node stay in order. -/
theorem Passing.step (h : dtls.Passing door s) {e : LoopEvent} (hallows : s.uring.allows e = true) :
    dtls.Passes door s (s.step api e) := by
  cases e with
  | kernel e => exact Passing.kernel h hallows
  | wake => exact Passing.wake h
  | stop =>
      refine ⟨⟨h.apart, h.stopped, h.sound, h.opened, h.leaves, h.lens, h.enters⟩, id, fun _ => ?_⟩
      exact Accounts.of_inside rfl rfl
  | waitError =>
      simp only [LoopState.step]
      split
      · rename_i hstatus
        have hnot : ¬ (Status.exited (-1) none).ok = true := by simp [Status.ok]
        refine ⟨⟨h.apart, h.stopped, fun hok => absurd hok hnot, h.opened, h.leaves, h.lens,
          h.enters⟩, fun hclean => absurd hclean.1 hnot, fun _ => Accounts.of_inside rfl rfl⟩
      · exact Passing.stays h

end Dataplane.Proofs
