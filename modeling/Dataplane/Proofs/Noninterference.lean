import Dataplane.ProofSupport.TwoRuns
import Dataplane.Proofs.Ownership
import Dataplane.Proofs.Turns
import Dataplane.Proofs.View

/-!
# Inserted datagrams

A run with inserted datagrams next to the run without them.  As long as the loop
has not taken one of them, the two runs have the same completions in front of
it, and what is behind is out of the program's view.
-/

namespace Dataplane.Model

/-- The datagram is one of the inserted ones, which are told by their tags. -/
def KEvent.inserted (ins : Nat → Bool) : KEvent → Bool
  | .recv _ _ _ _ _ tag => ins tag
  | _ => false

def Cqe.inserted (ins : Nat → Bool) (c : Cqe) : Bool := c.flags.buffer && ins c.tag

variable {σ : Type}

def LoopState.takesInserted (ins : Nat → Bool) (s : LoopState σ) : LoopEvent → Bool
  | .wake => decide (s.status = .waiting) && s.uring.ring.cq.head?.any fun c => c.inserted ins
  | _ => false

def LoopState.insertedStep (ins : Nat → Bool) (s : LoopState σ) : LoopEvent → Bool
  | .kernel e => e.inserted ins
  | e => s.takesInserted ins e

/-- What the runs are compared in: the TUN writes and UDP sends so far, and
whether the loop goes on. -/
structure SameSends (s s' : LoopState σ) : Prop where
  sends : s.uring.ring.queued.filter (fun r => r.opcode.outgoing) =
    s'.uring.ring.queued.filter fun r => r.opcode.outgoing
  status : s.status = s'.status

def Program.encrypts : Program σ → Bool
  | .tunUdpRunZero .. => false
  | _ => true

def Program.session (fd : Int) : Program σ → Connection σ
  | .tunUdpRun conn _ | .tunUdpRunZero conn _ => conn
  | .forwarderRun inbound outbound => if fd = inbound.udpFd then inbound else outbound

/-- The SSL object discards the datagram: `SSL_read` delivers nothing and asks
for more, and so it does on the empty read BIO that it leaves. -/
structure Discards (api : Ssl σ) (conn : Connection σ) (d : ProofSupport.Bytes) : Prop where
  first : ∀ n, ∃ ret, api.read conn.ssl (conn.rbio ++ d) n = ⟨ret, .wantRead, [], [], [], conn.ssl⟩
  again : ∀ n, ∃ ret, api.read conn.ssl [] n = ⟨ret, .wantRead, [], [], [], conn.ssl⟩

end Dataplane.Model

namespace Dataplane.Proofs

open ProofSupport Model Ledger TwoRuns

variable {σ : Type} {api : Ssl σ} {ins : Nat → Bool}

/-- The payload is empty, or the session discards it. -/
structure Junk (api : Ssl σ) (prog : Program σ) (c : Cqe) : Prop where
  honest : c.Honest
  payload : c.payload = [] ∨ Discards api (prog.session c.req.fd) c.payload

/-! ## What happens to a discarded datagram -/

theorem sslReadAgain_discards (api : Ssl σ) (conn : Connection σ)
    (hagain : ∀ n, ∃ ret, api.read conn.ssl [] n = ⟨ret, .wantRead, [], [], [], conn.ssl⟩)
    (hrbio : conn.rbio = []) (n k : Nat) (r : SslRet σ) (hr : r.err = .wantRead) :
    (Connection.sslReadAgain api n k (r, conn)).1.err = .wantRead := by
  induction k generalizing r conn with
  | zero => exact hr
  | succ k ih =>
      rw [Connection.sslReadAgain, if_pos hr]
      obtain ⟨ret, hread⟩ := hagain n
      have hagain' : (conn.sslRead api n) =
          (⟨ret, .wantRead, [], [], [], conn.ssl⟩,
            { conn with rbio := [], wbio := conn.wbio ++ [] }) := by
        simp only [Connection.sslRead, hrbio, hread, Connection.after]
      rw [hagain']
      exact ih { conn with rbio := [], wbio := conn.wbio ++ [] } hagain rfl
        ⟨ret, .wantRead, [], [], [], conn.ssl⟩ rfl

/-- `dtls_decrypt_packet` takes a discarded datagram for an error. -/
theorem dtlsDecryptPacket_discards {conn : Connection σ} {d : Bytes} (h : Discards api conn d)
    (size : Int) {len : Int} (hlen : len = d.length) :
    (conn.dtlsDecryptPacket api d len size).1 = -1 := by
  subst hlen
  obtain ⟨ret, hread⟩ := h.first (d.length : Int).toNat
  have hfirst : ({ conn with rbio := conn.rbio ++ d } : Connection σ).sslRead api
      (d.length : Int).toNat = (⟨ret, .wantRead, [], [], [], conn.ssl⟩,
        { conn with rbio := [], wbio := conn.wbio ++ [] }) := by
    simp only [Connection.sslRead, hread, Connection.after]
  have herr := sslReadAgain_discards api
    { conn with rbio := [], wbio := conn.wbio ++ [] } h.again rfl
    (d.length : Int).toNat 4 ⟨ret, .wantRead, [], [], [], conn.ssl⟩ rfl
  rw [dtlsDecryptPacket_eq api conn d d.length size rfl, Int.toNat_natCast, List.take_length]
  rw [Int.toNat_natCast] at hfirst herr
  rw [hfirst]
  split
  · rfl
  · rw [if_pos (by rw [herr]; simp)]

theorem dtlsDecryptAndWriteTun_failed {conn : Connection σ} (tunFd : Int) {encrypted : Bytes}
    {len : Int} (h : (conn.dtlsDecryptPacket api encrypted len bufSize).1 < 0) (ctx : IouringCtx) :
    (dtlsDecryptAndWriteTun api conn tunFd encrypted len ctx).1 = -1 := by
  unfold dtlsDecryptAndWriteTun
  rcases ctx.ioOpAlloc .tunWrite tunFd false with ⟨_ | op, ctx'⟩
  · rfl
  · rcases hpacket : conn.dtlsDecryptPacket api encrypted len bufSize with ⟨n, decrypted, ok, conn'⟩
    rw [hpacket] at h
    dsimp only
    rw [if_pos h]

theorem forwardBetween_failed {recvConn forwardConn : Connection σ} {data : Bytes} {len : Int}
    (h : (recvConn.dtlsDecryptPacket api data len bufSize).1 < 0) (ctx : IouringCtx) :
    (forwardBetween api ctx recvConn forwardConn data len).1 = -1 := by
  unfold forwardBetween
  rcases hpacket : recvConn.dtlsDecryptPacket api data len bufSize with ⟨n, decrypted, ok, conn'⟩
  rw [hpacket] at h
  dsimp only
  rw [if_pos (le_of_lt h)]

theorem body_discards {ctx : IouringCtx} {op : OpId} {prog : Program σ}
    (hprog : prog.encrypts = true) (htype : (ctx.ops op).opType = .udpRecv) {d : Bytes}
    (hdata : ctx.load (ctx.ops op).buffer (ctx.ops op).dataLen.toNat = d)
    (hlen : (ctx.ops op).dataLen = d.length) (hpos : 0 < (ctx.ops op).dataLen)
    (h : Discards api (prog.session (ctx.ops op).fd) d) : (prog.body api ctx op).1 = -1 := by
  have hfail := dtlsDecryptPacket_discards h bufSize hlen
  cases prog with
  | tunUdpRunZero conn tunFd => cases hprog
  | tunUdpRun conn tunFd =>
      have hwrite := dtlsDecryptAndWriteTun_failed tunFd
        (show (conn.dtlsDecryptPacket api d (ctx.ops op).dataLen bufSize).1 < 0 from
          lt_of_eq_of_lt hfail (by decide)) ctx
      unfold Program.body tunUdpRunBody
      simp only [htype, hdata]
      rcases hres : dtlsDecryptAndWriteTun api conn tunFd d (ctx.ops op).dataLen ctx with
        ⟨ret, ctx', conn'⟩
      rw [hres] at hwrite
      exact hwrite
  | forwarderRun inbound outbound =>
      have hforward : (forwardUdpPacket api ctx inbound outbound op).1 = -1 := by
        unfold forwardUdpPacket
        simp only [hdata]
        rw [if_neg (by omega)]
        by_cases hfd : (ctx.ops op).fd = inbound.udpFd
        · simp only [Program.session, hfd, if_true] at hfail
          rw [if_pos hfd]
          exact forwardBetween_failed (lt_of_eq_of_lt hfail (by decide)) ctx
        · simp only [Program.session, hfd, if_false] at hfail
          rw [if_neg hfd]
          exact forwardBetween_failed (lt_of_eq_of_lt hfail (by decide)) ctx
      show (forwarderRunBody api ctx inbound outbound op).1 = -1
      unfold forwarderRunBody
      rw [if_neg (not_not.mpr htype)]
      rcases hres : forwardUdpPacket api ctx inbound outbound op with
        ⟨ret, ctx', inbound', outbound'⟩
      rw [hres] at hforward
      simp only at hforward ⊢
      rw [if_pos (by omega)]
      exact hforward

theorem takeCqe_junk {s : LoopState σ} (hinv : Inv s.uring 0 0) (hprog : s.prog.encrypts = true)
    {c : Cqe} {cq : List Cqe} (hcq : s.uring.ring.cq = c :: cq) (hbuffer : c.flags.buffer = true)
    (hjunk : Junk api s.prog c) : (takeCqe api s c cq).status ≠ .waiting := by
  have hcode : c.req.opcode = .recvmsgMultishot := by
    by_contra hcode
    have hok := (hinv.cq c (by rw [hcq]; exact List.mem_cons_self)).2
    rw [(hok.single hcode).1] at hbuffer
    cases hbuffer
  unfold takeCqe
  rcases hstep : (s.uring.iouringCqeSeen c cq).waitForRecvBody c with ⟨step, ctx⟩
  have hwaited := hinv.wait hcq hstep
  cases hwaited with
  | again _ hout _ _ => rw [hcode] at hout; cases hout
  | null _ _ _ _ => simp
  | recv rs got idx _ hin _ _ hinv' hrecv =>
      obtain ⟨hload, hlen⟩ := hrecv.payload hjunk.honest
      have htype : (ctx.ops c.req.userData).opType = .udpRecv := by
        rw [hrecv.opType, hcode]
        rfl
      have hpos : 0 < (ctx.ops c.req.userData).dataLen := by
        cases hrecv with
        | single _ _ _ hne _ _ _ _ => exact absurd hcode hne
        | multi _ _ _ hpres _ _ => exact hpres.pos
      rcases hjunk.payload with hempty | hdiscards
      · rw [hlen, hempty] at hpos
        simp at hpos
      · rw [← hrecv.fd] at hdiscards
        have hret := body_discards hprog htype hload hlen hpos hdiscards
        rcases hbody : s.prog.body api ctx c.req.userData with ⟨ret, rest, ctx', prog⟩
        rw [hbody] at hret
        have hneg : ret < 0 := lt_of_eq_of_lt hret (by decide)
        simp only [hbody]
        unfold atLoopHead
        rw [if_pos hneg]
        simp

/-! ## One step of both runs -/

def slotsOf (cq : List Cqe) (i : Nat) : Bool := cq.any fun c => c.flags.buffer && c.flags.bid == i

theorem Inv.slotsOf_not_mem_br {ctx : IouringCtx} (h : Inv ctx 0 0) {front rest : List Cqe}
    (hcq : ctx.ring.cq = front ++ rest) {i : Nat} (hi : slotsOf front i = true) : i ∉ ctx.br := by
  intro hbr
  refine not_mem_right_of_stock (Multiset.nodup_range _) h.slotLedger (Multiset.mem_coe.mpr hbr) ?_
  obtain ⟨c, hc, hsel⟩ := List.any_eq_true.mp hi
  rw [Bool.and_eq_true, beq_iff_eq] at hsel
  refine Multiset.mem_add.mpr (.inl (Multiset.mem_coe.mpr (List.mem_map.mpr ⟨c, ?_, hsel.2⟩)))
  rw [hcq, List.mem_filter]
  exact ⟨List.mem_append_left _ hc, hsel.1⟩

theorem iouringCqeSeen_of_view {S : Nat → Bool} {x b : IouringCtx} (h : x.view S = b.view S)
    (c : Cqe) (qx qb : List Cqe) :
    (x.iouringCqeSeen c qx).view S = (b.iouringCqeSeen c qb).view S := by
  have hseen : ∀ (ctx : IouringCtx) q, (ctx.iouringCqeSeen c q).view S =
      { ctx.view S with
        ring := { (ctx.view S).ring with seen := (ctx.view S).ring.seen ++ [c] }
        tag := c.tag } := fun _ _ => rfl
  rw [hseen, hseen, h]

theorem Received.visible {ctx : IouringCtx} {c : Cqe} {op : OpId} {got : Multiset OpId}
    {idx : Multiset Nat} (h : Received ctx c op got idx) {S : Nat → Bool}
    (hslot : c.req.opcode = .recvmsgMultishot → S c.flags.bid = true) :
    Visible S (ctx.ops op).buffer := by
  intro i off hbuffer
  cases h with
  | single b _ _ _ hp _ _ _ =>
      rw [hp.buffer] at hbuffer
      cases hbuffer
  | multi _ _ hcode hpres _ _ =>
      rw [hpres.buffer] at hbuffer
      cases hbuffer
      exact hslot hcode

theorem body_of_view (api : Ssl σ) {S : Nat → Bool} {x b : IouringCtx} (h : x.view S = b.view S)
    {prog : Program σ} (hprog : prog.encrypts = true) {op : OpId}
    (hbuffer : Visible S (b.ops op).buffer) :
    SameBody S (prog.body api x op) (prog.body api b op) := by
  cases prog with
  | tunUdpRun conn tunFd => exact tunUdpRunBody_of_view h conn tunFd op hbuffer
  | tunUdpRunZero conn tunFd => cases hprog
  | forwarderRun inbound outbound => exact forwarderRunBody_of_view h inbound outbound op hbuffer

theorem body_encrypts (api : Ssl σ) (ctx : IouringCtx) (op : OpId) {prog : Program σ}
    (hprog : prog.encrypts = true) : (prog.body api ctx op).2.2.2.encrypts = true := by
  cases prog with
  | tunUdpRun conn tunFd =>
      show (tunUdpRunBody api ctx conn tunFd op).2.2.2.encrypts = true
      unfold tunUdpRunBody
      dsimp only
      split <;> rfl
  | tunUdpRunZero conn tunFd => cases hprog
  | forwarderRun inbound outbound =>
      show (forwarderRunBody api ctx inbound outbound op).2.2.2.encrypts = true
      unfold forwarderRunBody
      split
      · rfl
      · dsimp only
        split <;> rfl

structure SameLoop (S : Nat → Bool) (x b : LoopState σ) : Prop where
  view : x.uring.view S = b.uring.view S
  prog : x.prog = b.prog
  encrypts : b.prog.encrypts = true
  running : x.running = b.running
  status : x.status = b.status

theorem SameLoop.sameSends {S : Nat → Bool} {x b : LoopState σ} (h : SameLoop S x b) :
    SameSends x b := by
  refine ⟨?_, h.status⟩
  have hqueued : x.uring.ring.queued = b.uring.ring.queued :=
    show (x.uring.view S).ring.queued = (b.uring.view S).ring.queued by rw [h.view]
  rw [hqueued]

theorem SameLoop.atLoopHead {S : Nat → Bool} {x b : LoopState σ} (h : SameLoop S x b) (ret : Int)
    (op : Option OpId) : SameLoop S (atLoopHead x ret op) (atLoopHead b ret op) := by
  rw [atLoopHead_eq, atLoopHead_eq]
  exact ⟨h.view, h.prog, h.encrypts, h.running, by rw [h.prog, h.running, h.status]⟩

/-- Both loops take the same completion. -/
theorem SameLoop.takeCqe (api : Ssl σ) {x b : LoopState σ} {c : Cqe} {front : List Cqe}
    (qx : List Cqe) {qb : List Cqe}
    (h : SameLoop (slotsOf (c :: front)) x b) (hinv : Inv b.uring 0 0)
    (hcq : b.uring.ring.cq = c :: qb) :
    SameLoop (slotsOf (c :: front)) (Model.takeCqe api x c qx) (Model.takeCqe api b c qb) := by
  have hslot : c.flags.buffer = true → slotsOf (c :: front) c.flags.bid = true := by
    intro hbuffer
    simp [slotsOf, hbuffer]
  unfold Model.takeCqe
  obtain ⟨step, x1, b1, hx, hb, h1⟩ :=
    (waitForRecvBody_of_view (iouringCqeSeen_of_view h.view c qx qb) c hslot).cases
  rw [hx, hb]
  have hwaited := hinv.wait hcq hb
  cases hwaited with
  | again _ _ _ _ => exact ⟨h1, h.prog, h.encrypts, h.running, h.status⟩
  | null _ _ _ _ => exact ⟨h1, h.prog, h.encrypts, h.running, rfl⟩
  | recv rs got idx hres hin _ _ hinv' hrecv =>
      have hvisible := hrecv.visible fun hcode => hslot <| by
        have hok := (hinv.cq c (by rw [hcq]; exact List.mem_cons_self)).2
        by_contra hbuffer
        exact absurd (hok.multi hcode (by simpa using hbuffer)) (not_lt.mpr hres)
      dsimp only
      rw [h.prog]
      obtain ⟨ret, rest, x2, b2, prog, hx2, hb2, h2⟩ :=
        body_of_view api h1 h.encrypts hvisible
      have hencrypts : prog.encrypts = true := by
        have hkeep := body_encrypts api b1 c.req.userData h.encrypts
        rwa [hb2] at hkeep
      rw [hx2, hb2]
      exact SameLoop.atLoopHead (x := { x with uring := x2, prog := prog })
        (b := { b with uring := b2, prog := prog })
        ⟨h2, rfl, hencrypts, h.running, h.status⟩ ret rest

theorem takeCqe_cq {s : LoopState σ} (hinv : Inv s.uring 0 0) {c : Cqe} {cq : List Cqe}
    (hcq : s.uring.ring.cq = c :: cq) : (takeCqe api s c cq).uring.ring.cq = cq := by
  unfold takeCqe
  rcases hstep : (s.uring.iouringCqeSeen c cq).waitForRecvBody c with ⟨step, ctx⟩
  have hwaited := hinv.wait hcq hstep
  cases hwaited with
  | again _ _ heff _ => exact heff.cq
  | null _ heff _ _ => exact heff.cq
  | recv rs got idx _ hin heff _ hinv' hrecv =>
      rcases hbody : s.prog.body api ctx c.req.userData with ⟨ret, rest, ctx', prog⟩
      obtain ⟨rs', hh⟩ := hinv'.body hrecv hin hbody
      simp only [hbody, atLoopHead_eq]
      exact hh.effect.cq.trans heff.cq

/-! ## The relation between the runs -/

/-- The run with the inserted datagrams and the run without them: they have not
come apart, or an inserted datagram waits behind what they have in common, or
both loops were left. -/
inductive Beside (ins : Nat → Bool) : LoopState σ → LoopState σ → Prop
  | same (s : LoopState σ) (h : s.prog.encrypts = true) : Beside ins s s
  | apart {x b : LoopState σ} (front : List Cqe) (c : Cqe) (tx tb : List Cqe)
      (hins : c.inserted ins = true) (hx : x.uring.ring.cq = front ++ c :: tx)
      (hb : b.uring.ring.cq = front ++ tb) (h : SameLoop (slotsOf front) x b) : Beside ins x b
  | ended {x b : LoopState σ} (hx : x.status ≠ .waiting) (h : SameSends x b) : Beside ins x b

theorem Beside.sameSends {x b : LoopState σ} (h : Beside ins x b) : SameSends x b := by
  cases h with
  | same _ => exact ⟨rfl, rfl⟩
  | apart front c tx tb _ _ _ h => exact h.sameSends
  | ended _ h => exact h

theorem Beside.encrypts {x b : LoopState σ} (h : Beside ins x b) (hx : x.status = .waiting) :
    x.prog.encrypts = true := by
  cases h with
  | same h => exact h
  | apart front c tx tb _ _ _ h => exact h.prog ▸ h.encrypts
  | ended hne _ => exact absurd hx hne

theorem kernel_inserted (ctx : IouringCtx) {e : KEvent} (he : e.inserted ins = true) :
    KEvent.multishot e = true ∧ (ctx.kernel e = ctx ∨
      ∃ c, c.inserted ins = true ∧ (ctx.kernel e).ring.cq = ctx.ring.cq ++ [c]) := by
  cases e with
  | complete op res data name tag => cases he
  | fail op res => cases he
  | recv op bid res data more tag =>
      refine ⟨rfl, ?_⟩
      simp only [IouringCtx.kernel]
      split
      · exact .inl rfl
      · split
        · refine .inr ⟨_, ?_, rfl⟩
          exact he
        · exact .inl rfl

theorem Beside.kernel_left {x b : LoopState σ} (h : Beside ins x b) (hx : LoopInv x) {e : KEvent}
    (he : e.inserted ins = true) : Beside ins { x with uring := x.uring.kernel e } b := by
  by_cases hs : x.status = .waiting
  · have hinv := hx.of_waiting hs
    obtain ⟨hmulti, hkernel⟩ := kernel_inserted x.uring he
    cases h with
    | same h =>
        rcases hkernel with hidle | ⟨c, hc, hcq⟩
        · rw [hidle]
          exact .same x h
        · refine .apart x.uring.ring.cq c [] [] hc hcq (List.append_nil _).symm
            ⟨?_, rfl, h, rfl, rfl⟩
          exact kernel_multishot_view (fun i hi =>
            hinv.slotsOf_not_mem_br (List.append_nil _).symm hi) hmulti
    | apart front c tx tb hins hxcq hbcq h =>
        obtain ⟨t, ht⟩ := kernel_cq x.uring e
        refine .apart front c (tx ++ t) tb hins ?_ hbcq
          ⟨?_, h.prog, h.encrypts, h.running, h.status⟩
        · rw [ht, hxcq, List.append_assoc, List.cons_append]
        · have hhidden := kernel_multishot_view
            (fun i hi => hinv.slotsOf_not_mem_br hxcq hi) hmulti
          exact hhidden.trans h.view
    | ended hne _ => exact absurd hs hne
  · obtain ⟨hsends, hstatus⟩ := h.sameSends
    exact .ended hs ⟨by rw [(kernel_histories _ _).2]; exact hsends, hstatus⟩

theorem Beside.kernel {x b : LoopState σ} (h : Beside ins x b) (hx : LoopInv x) (hb : LoopInv b)
    (e : KEvent) :
    Beside ins { x with uring := x.uring.kernel e } { b with uring := b.uring.kernel e } := by
  by_cases hs : x.status = .waiting
  · have hinvx := hx.of_waiting hs
    have hinvb := hb.of_waiting (h.sameSends.status ▸ hs)
    cases h with
    | same h => exact .same _ h
    | apart front c tx tb hins hxcq hbcq h =>
        obtain ⟨t, ht⟩ := kernel_cq x.uring e
        obtain ⟨t', ht'⟩ := kernel_cq b.uring e
        refine .apart front c (tx ++ t) (tb ++ t') hins ?_ ?_
          ⟨?_, h.prog, h.encrypts, h.running, h.status⟩
        · rw [ht, hxcq, List.append_assoc, List.cons_append]
        · rw [ht', hbcq, List.append_assoc]
        · exact kernel_of_view h.view (fun i hi => hinvx.slotsOf_not_mem_br hxcq hi)
            (fun i hi => hinvb.slotsOf_not_mem_br hbcq hi) e
    | ended hne _ => exact absurd hs hne
  · obtain ⟨hsends, hstatus⟩ := h.sameSends
    exact .ended hs
      ⟨by rw [(kernel_histories _ _).2, (kernel_histories _ _).2]; exact hsends, hstatus⟩

theorem Beside.wake {x b : LoopState σ} (h : Beside ins x b) (hx : LoopInv x) (hb : LoopInv b)
    (hnot : x.takesInserted ins .wake = false) : Beside ins (x.wake api) (b.wake api) := by
  by_cases hs : x.status = .waiting
  · have hinvx := hx.of_waiting hs
    have hsb : b.status = .waiting := h.sameSends.status ▸ hs
    have hinvb := hb.of_waiting hsb
    have hwake : ∀ (s : LoopState σ) c cq, s.status = .waiting → s.uring.ring.cq = c :: cq →
        s.wake api = takeCqe api s c cq := by
      intro s c cq hs hcq
      simp only [LoopState.wake, hs, hcq]
    cases h with
    | same h =>
        cases hcq : x.uring.ring.cq with
        | nil =>
            have hidle : x.wake api = x := by simp only [LoopState.wake, hs, hcq]
            rw [hidle]
            exact .same x h
        | cons c cq =>
            rw [hwake x c cq hs hcq]
            have hsame : SameLoop (slotsOf [c]) x x := ⟨rfl, rfl, h, rfl, rfl⟩
            exact .same _ (hsame.takeCqe api cq hinvx hcq).encrypts
    | apart front c tx tb hins hxcq hbcq h =>
        cases front with
        | nil =>
            rw [List.nil_append] at hxcq
            simp [LoopState.takesInserted, hs, hxcq, hins] at hnot
        | cons c₀ front =>
            rw [List.cons_append] at hxcq hbcq
            rw [hwake x c₀ _ hs hxcq, hwake b c₀ _ hsb hbcq]
            obtain ⟨hview, hprog, hencrypts, hrunning, hstatus⟩ :=
              h.takeCqe api (front ++ c :: tx) hinvb hbcq
            refine .apart front c tx tb hins (takeCqe_cq hinvx hxcq) (takeCqe_cq hinvb hbcq)
              ⟨view_mono ?_ hview, hprog, hencrypts, hrunning, hstatus⟩
            intro i hi
            rw [slotsOf, List.any_cons, Bool.or_eq_true]
            exact .inr hi
    | ended hne _ => exact absurd hs hne
  · have hidle : ∀ s : LoopState σ, s.status ≠ .waiting → s.wake api = s := by
      intro s hs
      unfold LoopState.wake
      split
      · rename_i hwaiting _
        exact absurd hwaiting hs
      · rfl
    have hsb : b.status ≠ .waiting := h.sameSends.status ▸ hs
    rw [hidle x hs, hidle b hsb]
    exact h

theorem Beside.other {x b : LoopState σ} (h : Beside ins x b) :
    Beside ins (x.step api .waitError) (b.step api .waitError) ∧
      Beside ins (x.step api .stop) (b.step api .stop) := by
  obtain ⟨hsends, hstatus⟩ := h.sameSends
  constructor
  · by_cases hs : x.status = .waiting
    · simp only [LoopState.step, if_pos hs, if_pos (hstatus ▸ hs : b.status = .waiting)]
      exact .ended (by simp) ⟨hsends, rfl⟩
    · simp only [LoopState.step, if_neg hs, if_neg (hstatus ▸ hs : ¬ b.status = .waiting)]
      exact h
  · cases h with
    | same h => exact .same _ h
    | apart front c tx tb hins hx hb h =>
        exact .apart front c tx tb hins hx hb ⟨h.view, h.prog, h.encrypts, rfl, h.status⟩
    | ended hne h => exact .ended hne ⟨h.sends, h.status⟩

/-! ## Runs -/

/-- Every inserted datagram that the step takes is junk. -/
def TakesJunk (api : Ssl σ) (ins : Nat → Bool) (s : LoopState σ) (e : LoopEvent) : Prop :=
  s.takesInserted ins e = true → ∀ c ∈ s.uring.ring.cq.head?, Junk api s.prog c

theorem simulates_inserted (api : Ssl σ) (ins : Nat → Bool) :
    Simulates (LoopState.step api) (LoopState.insertedStep ins) SameSends
      (fun s e => s.takesInserted ins e = false) (TakesJunk api ins)
      (fun x b => LoopInv x ∧ LoopInv b ∧ Beside ins x b) where
  same := fun x b h => h.2.2.sameSends
  left := by
    rintro x b e ⟨hx, hb, h⟩ hnot hins
    refine ⟨hx.step e, hb, ?_⟩
    cases e with
    | kernel e => exact h.kernel_left hx hins
    | wake => exact absurd (hins.symm.trans hnot) (by decide)
    | waitError => cases hins
    | stop => cases hins
  both := by
    rintro x b e ⟨hx, hb, h⟩ hnot hins
    refine ⟨hx.step e, hb.step e, ?_⟩
    cases e with
    | kernel e => exact h.kernel hx hb e
    | wake => exact h.wake hx hb hnot
    | waitError => exact h.other.1
    | stop => exact h.other.2
  need := by
    rintro x b e ⟨hx, hb, h⟩ hjunk hins hsame
    by_contra htakes
    have htakes : x.takesInserted ins e = true := by simpa using htakes
    cases e with
    | wake =>
        have hs : x.status = .waiting := by
          by_contra hs
          simp [LoopState.takesInserted, hs] at htakes
        cases hcq : x.uring.ring.cq with
        | nil => simp [LoopState.takesInserted, hcq] at htakes
        | cons c cq =>
            have hins : c.flags.buffer = true ∧ ins c.tag = true := by
              simpa [LoopState.takesInserted, hs, hcq, Cqe.inserted] using htakes
            have hstop := takeCqe_junk (hx.of_waiting hs) (h.encrypts hs) hcq hins.1
              (hjunk htakes c (by rw [hcq]; rfl))
            have hstatus := hsame.status
            simp only [LoopState.step, LoopState.wake, hs, hcq] at hstatus
            exact hstop (hstatus.trans (h.sameSends.status ▸ hs))
    | kernel e => cases htakes
    | waitError => cases htakes
    | stop => cases htakes
  free := by
    rintro x b e - hins
    cases e with
    | kernel e => rfl
    | wake => exact hins
    | waitError => rfl
    | stop => rfl

/-- In a run of `tun_udp_run` or `forwarder_run` with inserted datagrams that are
empty or that the session discards, the sends and the status of the loop are
those of the run without them, if and only if the loop takes none of them. -/
theorem unaffected_iff_none_taken (api : Ssl σ) (config : IouringConfig) (sqeFree : Nat → Bool)
    (submits : Nat → Int) (prog : Program σ) (hprog : prog.encrypts = true) (running : Bool)
    {ctx : IouringCtx}
    (hstart : initialSubmissions (IouringCtx.iouringInit config sqeFree submits) prog = some ctx)
    (ins : Nat → Bool) (es : List LoopEvent)
    (hjunk : Execution.Steps (LoopState.step api) (TakesJunk api ins)
      (LoopState.start ctx prog running) es) :
    Unaffected (LoopState.step api) (LoopState.insertedStep ins) SameSends
        (LoopState.start ctx prog running) (LoopState.start ctx prog running) es ↔
      Execution.Steps (LoopState.step api) (fun s e => s.takesInserted ins e = false)
        (LoopState.start ctx prog running) es := by
  obtain ⟨-, -, -, hinv⟩ := (inv_iouringInit config sqeFree submits).initialSubmissions hstart
  have hloop := loopInv_start hinv prog running
  have hencrypts : (LoopState.start ctx prog running).prog.encrypts = true := by
    rw [LoopState.start, atLoopHead_eq]
    exact hprog
  exact (simulates_inserted api ins).unaffected_iff ⟨hloop, hloop, .same _ hencrypts⟩ hjunk

/-! ## A stray datagram -/

/-- A session that takes what starts with 23 for a record and discards the rest. -/
def guardedSsl : Ssl Unit where
  doHandshake := fun _ rbio => ⟨1, .none, [], rbio, [], ()⟩
  read := fun _ rbio n =>
    match rbio with
    | 23 :: record => ⟨(record.take n).length, .none, record.take n, [], [], ()⟩
    | _ => ⟨-1, .wantRead, [], [], [], ()⟩
  write := fun _ rbio data => ⟨data.length, .none, [], rbio, 23 :: data, ()⟩

def guardedEdge : LoopState Unit :=
  .start ((initialSubmissions (IouringCtx.iouringInit smallConfig (fun _ => true) fun _ => 1)
    (.tunUdpRun smallConn 5)).getD (IouringCtx.iouringInit smallConfig (fun _ => true) fun _ => 1))
    (.tunUdpRun smallConn 5) true

def strayDatagram : LoopEvent :=
  .kernel (.recv 0 1 147 (recvmsgOut 128 [10, 9, 9, 9] (List.replicate 124 0) [1, 2, 3]) true 7)

/-- A datagram that the session discards stops the tunnel. -/
theorem stray_not_unaffected :
    Execution.Steps (LoopState.step guardedSsl) (TakesJunk guardedSsl (· == 7)) guardedEdge
        [strayDatagram, .wake] ∧
      ¬ Unaffected (LoopState.step guardedSsl) (LoopState.insertedStep (· == 7)) SameSends
        guardedEdge guardedEdge [strayDatagram, .wake] := by
  constructor
  · refine ⟨fun htakes => absurd htakes (by simp [LoopState.takesInserted, strayDatagram]),
      ?_, trivial⟩
    intro _ c hc
    have hc : c = ⟨⟨.recvmsgMultishot, 3, 0, none, 0, none, 128, [], [], 0⟩, 147, ⟨true, true, 1⟩,
        recvmsgOut 128 [10, 9, 9, 9] (List.replicate 124 0) [1, 2, 3], 7⟩ :=
      (Option.some.inj hc).symm
    subst hc
    refine ⟨rfl, .inr ⟨fun n => ⟨-1, rfl⟩, fun n => ⟨-1, rfl⟩⟩⟩
  · intro h
    have hstatus := (h 2).status
    revert hstatus
    decide

/-- A stray datagram that the loop has not come to is no trouble. -/
theorem unaffected_behind :
    Unaffected (LoopState.step guardedSsl) (LoopState.insertedStep (· == 7)) SameSends guardedEdge
      guardedEdge [.kernel (.complete 1 2 [4, 5] [] 0), strayDatagram, .wake] := by
  refine (unaffected_iff_none_taken guardedSsl smallConfig (fun _ => true) (fun _ => 1)
    (.tunUdpRun smallConn 5) rfl true rfl (· == 7) _ ?_).mpr ⟨rfl, rfl, rfl, trivial⟩
  refine ⟨?_, ?_, ?_, trivial⟩ <;> intro htakes <;> cases htakes

end Dataplane.Proofs
