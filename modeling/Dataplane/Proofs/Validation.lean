import Dataplane.Model.Utils
import Dataplane.Proofs.Noninterference
import Dataplane.Proofs.Sessions
import Dataplane.Proofs.Traffic

/-!
# Packets that are not IP packets

`validate_ip_packet` of `src/utils.c` is there, but nobody calls it.  So the
loops pass on only IP packets exactly as long as they get nothing else.
-/

namespace Dataplane.Model

open ProofSupport

variable {σ : Type}

def WellFormed (payload : Bytes) : Prop := validateIpPacket payload payload.length = true

instance (payload : Bytes) : Decidable (WellFormed payload) :=
    inferInstanceAs (Decidable (_ = true))

def Connection.decrypted (api : Ssl σ) (conn : Connection σ) (d : Bytes) : Option Bytes :=
  match conn.dtlsDecryptPacket api d d.length bufSize with
  | (len, decrypted, _, _) => if len < 0 then none else some decrypted

/-- The payload that a loop gets with the datagram `c`, decrypted if the loop
has DTLS sessions and else as it was received. -/
def Program.payload (api : Ssl σ) (prog : Program σ) (c : Cqe) : Option Bytes :=
  if prog.encrypts then (prog.session c.req.fd).decrypted api c.payload else some c.payload

/-- `SSL_read` returns the number of bytes that it delivers. -/
def Ssl.Counts (api : Ssl σ) : Prop :=
  ∀ ssl rbio n, (api.read ssl rbio n).err = .none →
    (api.read ssl rbio n).ret = (api.read ssl rbio n).data.length

/-- From `s` to `s'` the loop takes the completion `c` and lets nothing but IP
packets pass.  Another payload leaves no request behind that goes out, what the
program held before is all that it holds, and the loop goes on. -/
structure Screens (api : Ssl σ) (s s' : LoopState (σ × List SslCall)) (c : Cqe) : Prop where
  writes : ∀ r ∈ s'.uring.ring.queued.drop s.uring.ring.queued.length, r.opcode = .write →
    WellFormed r.data
  forwards : ∀ {inbound outbound inbound' outbound' : Connection (σ × List SslCall)},
    s.prog = .forwarderRun inbound outbound → s'.prog = .forwarderRun inbound' outbound' →
    ∀ call ∈ inbound'.calls.drop inbound.calls.length ++ outbound'.calls.drop outbound.calls.length,
      ∀ data, call.written = some data → WellFormed data
  drops : ∀ d, c.req.opcode.opType = .udpRecv → s.prog.payload api.traced c = some d →
    ¬ WellFormed d →
    (∀ r ∈ s'.uring.ring.queued.drop s.uring.ring.queued.length, r.opcode.outgoing = false) ∧
      s'.status.ok = true ∧
      ∀ held taken, Proofs.Inv s.uring held taken → Proofs.Inv s'.uring held taken

/-- The event makes a loop take the completion `c`, which is what the kernel
says if it is one of a receive. -/
structure Session.TakesInLoop (s : Session σ) (e : SessionEvent) (ls : LoopState σ) (c : Cqe)
    (cq : List Cqe) : Prop where
  event : e = .wake
  loop : s = .loop ls
  waiting : ls.status = .waiting
  cq : ls.uring.ring.cq = c :: cq
  honest : c.req.opcode.outgoing = false → c.Honest

def Session.Screens (api : Ssl σ) (s : Session (σ × List SslCall)) (e : SessionEvent) : Prop :=
  ∀ ls c cq, s.TakesInLoop e ls c cq → Model.Screens api ls (takeCqe api.traced ls c cq) c

def Session.GetsWellFormed (api : Ssl σ) (s : Session (σ × List SslCall))
    (e : SessionEvent) : Prop :=
  ∀ ls c cq, s.TakesInLoop e ls c cq → c.req.opcode.opType = .udpRecv →
    ∀ d, ls.prog.payload api.traced c = some d → WellFormed d

end Dataplane.Model

namespace Dataplane.Proofs

open ProofSupport Model Ledger

variable {σ : Type} {api : Ssl σ} {ctx ctx' : IouringCtx} {held : Multiset OpId}
  {taken : Multiset Nat}

/-! ## What is decrypted -/

theorem sslReadAgain_counts (hcounts : api.Counts) (n k : Nat) {last : SslRet σ × Connection σ}
    (h : last.1.err = .none → last.1.ret = last.1.data.length)
    (herr : (Connection.sslReadAgain api n k last).1.err = .none) :
    (Connection.sslReadAgain api n k last).1.ret =
      (Connection.sslReadAgain api n k last).1.data.length := by
  induction k generalizing last with
  | zero => exact h herr
  | succ k ih =>
      rw [Connection.sslReadAgain] at herr ⊢
      split at herr
      · rename_i hwant
        rw [if_pos hwant]
        exact ih (hcounts last.2.ssl last.2.rbio n) herr
      · rename_i hwant
        rw [if_neg hwant]
        exact h herr

theorem decrypt_counts (hcounts : api.Counts) (conn : Connection σ) (encrypted : Bytes)
    (len size : Int) (h : 0 ≤ (conn.dtlsDecryptPacket api encrypted len size).1) :
    (conn.dtlsDecryptPacket api encrypted len size).1 =
      (conn.dtlsDecryptPacket api encrypted len size).2.1.length := by
  rw [dtlsDecryptPacket_eq api conn encrypted len size rfl] at h ⊢
  split_ifs at h ⊢ with hlen herr
  · simp at h
  · simp at h
  · exact sslReadAgain_counts hcounts _ _ (hcounts conn.ssl _ _) (not_not.mp herr)

theorem traced_counts (hcounts : api.Counts) : api.traced.Counts :=
  fun ssl rbio n herr => hcounts ssl.1 rbio n herr

theorem decrypted_some {conn : Connection σ} {d : Bytes}
    (h : 0 ≤ (conn.dtlsDecryptPacket api d d.length bufSize).1) :
    conn.decrypted api d = some (conn.dtlsDecryptPacket api d d.length bufSize).2.1 := by
  unfold Connection.decrypted
  generalize conn.dtlsDecryptPacket api d d.length bufSize = out at *
  exact if_neg (not_lt.mpr h)

theorem decryptAndWrite_ring {conn : Connection σ} (tunFd : Int) {encrypted : Bytes} {len : Int}
    (h : (conn.dtlsDecryptPacket api encrypted len bufSize).1 < 0) (ctx : IouringCtx) :
    (dtlsDecryptAndWriteTun api conn tunFd encrypted len ctx).2.1.ring = ctx.ring := by
  have hring := ioOpAlloc_ring ctx .tunWrite tunFd false
  unfold dtlsDecryptAndWriteTun
  generalize ctx.ioOpAlloc .tunWrite tunFd false = out at *
  rcases out with ⟨_ | op, ctx1⟩
  · exact hring
  · rcases hdec : conn.dtlsDecryptPacket api encrypted len bufSize with ⟨n, decrypted, ok, conn'⟩
    rw [hdec] at h
    dsimp only at hring ⊢
    rw [if_pos h]
    dsimp only
    rw [(ioOpFree_ring _ op).1, modOp_ring]
    exact (store_ring ctx1 _ _).trans hring

/-! ## A turn -/

/-- What a body writes to the TUN device is the payload. -/
theorem body_writes (hcounts : api.Counts) {c : Cqe} (hin : c.req.opcode.outgoing = false)
    (hc : c.Honest) (prog : Program σ) :
    BodySpec api prog c (fun r => r.opcode = .write →
      c.req.opcode.opType = .udpRecv ∧ prog.payload api c = some r.data) fun _ => True := by
  intro ctx ctx' held got taken idx ret rest prog' hinv hrecv _ hres
  obtain ⟨hload, hlen⟩ := hrecv.payload hc
  have hsend : ∀ {conn : Connection σ} {data : Bytes} {r : Sqe}, SendOn ctx conn data r →
      r.opcode = .write → c.req.opcode.opType = .udpRecv ∧
        prog.payload api c = some r.data := by
    intro conn data r hon hwrite
    rw [hon.carries.opcode] at hwrite
    cases hwrite
  cases prog with
  | tunUdpRun conn tunFd =>
      rcases hrecv.opType_cases hin with htype | htype
      · obtain ⟨rs, _, -, hh, -⟩ := hinv.tunUdpRunBody_read hrecv htype rfl hres
        exact ⟨rs, hh.mono fun r _ => hsend, fun _ => trivial⟩
      · obtain ⟨rs, _, -, hh, -⟩ := hinv.tunUdpRunBody_recv hrecv htype hload hlen hres
        refine ⟨rs, hh.mono fun r hr hwritten _ => ?_, fun _ => trivial⟩
        by_cases hdec : (conn.dtlsDecryptPacket api c.payload c.payload.length bufSize).1 < 0
        · have hring := decryptAndWrite_ring tunFd hdec ctx
          rw [hlen] at hload
          have hsame : ctx'.ring = ctx.ring := by
            unfold Program.body Model.tunUdpRunBody at hres
            simp only [htype, hload, hlen, freeAndReturn, Prod.mk.injEq] at hres
            rw [← hres.2.2.1, (ioOpFree_ring _ _).1, hring]
          have hqueued := hh.effect.queued
          rw [hsame] at hqueued
          rw [List.append_right_eq_self.mp hqueued.symm] at hr
          cases hr
        · have hpos := not_lt.mp hdec
          have hdata := (hwritten.2 (decrypt_counts hcounts conn _ _ _ hpos)).data
          rw [hdata]
          exact ⟨hrecv.opType.symm.trans htype, decrypted_some hpos⟩
  | tunUdpRunZero conn tunFd =>
      rcases hrecv.opType_cases hin with htype | htype
      · obtain ⟨rs, -, hh⟩ := hinv.tunUdpRunZeroBody_read hrecv htype rfl hres
        exact ⟨rs, hh.mono fun r _ => hsend, fun _ => trivial⟩
      · obtain ⟨rs, -, hh⟩ := hinv.tunUdpRunZeroBody_recv hrecv htype hload hres
        refine ⟨rs, hh.mono fun r _ hwritten _ => ?_, fun _ => trivial⟩
        rw [hwritten.data]
        exact ⟨hrecv.opType.symm.trans htype, rfl⟩
  | forwarderRun inbound outbound =>
      by_cases htype : (ctx.ops c.req.userData).opType = .udpRecv
      · by_cases hfd : (ctx.ops c.req.userData).fd = inbound.udpFd
        · obtain ⟨rs, _, _, -, hh, -⟩ := hinv.forwarderRunBody_inbound hrecv htype hfd rfl rfl hres
          exact ⟨rs, hh.mono fun r _ => hsend, fun _ => trivial⟩
        · obtain ⟨rs, _, _, -, hh, -⟩ := hinv.forwarderRunBody_outbound hrecv htype hfd rfl rfl hres
          exact ⟨rs, hh.mono fun r _ => hsend, fun _ => trivial⟩
      · obtain ⟨-, hh⟩ := hinv.forwarderRunBody_other htype hres
        exact ⟨[], hh.mono (by simp), fun _ => trivial⟩

theorem Forwarded.writes
    {recvConn forwardConn recvConn' forwardConn' : Connection (σ × List SslCall)}
    {d : Bytes} {ret : Int} {rs : List Sqe}
    (h : Forwarded api.traced recvConn forwardConn d d.length ret rs recvConn' forwardConn') :
    ∃ more more', recvConn'.calls = recvConn.calls ++ more ∧
      forwardConn'.calls = forwardConn.calls ++ more' ∧
      (∀ call ∈ more, call.written = none) ∧ ∀ call ∈ more', ∀ data, call.written = some data →
        recvConn.decrypted api.traced d = some data := by
  obtain ⟨more, ds, hserves, -, -, hread⟩ := decrypt_serves api recvConn d d.length bufSize
  rw [List.filterMap_eq_nil_iff] at hread
  cases h with
  | unread _ _ =>
    exact ⟨[], [], (List.append_nil _).symm, (List.append_nil _).symm, by simp, by simp⟩
  | unsent _ _ => exact ⟨more, [], hserves.recorded, (List.append_nil _).symm, hread, by simp⟩
  | sent hpos _ =>
      obtain ⟨call, hwritten, -, hcalls, -⟩ := encrypt_serves api forwardConn
        (recvConn.dtlsDecryptPacket api.traced d d.length bufSize).2.1 bufSize
      refine ⟨more, [call], hserves.recorded, hcalls, hread, fun call' hcall data hdata => ?_⟩
      rw [List.mem_singleton.mp hcall, hwritten] at hdata
      rw [decrypted_some (le_of_lt hpos)]
      exact hdata

theorem Inv.turn_forwards (api : Ssl σ) {s : LoopState (σ × List SslCall)}
    (h : Inv s.uring held taken) {c : Cqe} {cq : List Cqe} (hcq : s.uring.ring.cq = c :: cq)
    (hc : c.req.opcode.outgoing = false → c.Honest)
    {inbound outbound : Connection (σ × List SslCall)}
    (hprog : s.prog = .forwarderRun inbound outbound) :
    ∃ inbound' outbound' more more',
      (takeCqe api.traced s c cq).prog = .forwarderRun inbound' outbound' ∧
      inbound'.calls = inbound.calls ++ more ∧ outbound'.calls = outbound.calls ++ more' ∧
      ∀ call ∈ more ++ more', ∀ data, call.written = some data →
        c.req.opcode.opType = .udpRecv ∧ s.prog.payload api.traced c = some data := by
  have hnone : ∀ t : LoopState (σ × List SslCall), t.prog = s.prog →
      ∃ inbound' outbound' more more', t.prog = .forwarderRun inbound' outbound' ∧
        inbound'.calls = inbound.calls ++ more ∧ outbound'.calls = outbound.calls ++ more' ∧
        ∀ call ∈ more ++ more', ∀ data, call.written = some data →
          c.req.opcode.opType = .udpRecv ∧ s.prog.payload api.traced c = some data :=
    fun t hsame => ⟨inbound, outbound, [], [], hsame.trans hprog, (List.append_nil _).symm,
      (List.append_nil _).symm, by simp⟩
  unfold takeCqe
  rcases hstep : (s.uring.iouringCqeSeen c cq).waitForRecvBody c with ⟨step, ctx⟩
  cases h.wait hcq hstep with
  | again => exact hnone _ rfl
  | null => exact hnone _ rfl
  | recv rs got idx _ hin _ _ hinv hrecv =>
      obtain ⟨hload, hlen⟩ := hrecv.payload (hc hin)
      rcases hbody : forwarderRunBody api.traced ctx inbound outbound c.req.userData with
        ⟨ret, rest, ctx', prog⟩
      simp only [atLoopHead_eq, hprog, Program.body, hbody]
      have hpayload : (Program.forwarderRun inbound outbound).payload api.traced c =
          (if c.req.fd = inbound.udpFd then inbound else outbound).decrypted api.traced c.payload :=
        rfl
      by_cases htype : (ctx.ops c.req.userData).opType = .udpRecv
      · have hrecvd : c.req.opcode.opType = .udpRecv := hrecv.opType.symm.trans htype
        by_cases hfd : c.req.fd = inbound.udpFd
        · obtain ⟨rs', inbound', outbound', rfl, -, hforwarded⟩ :=
            hinv.forwarderRunBody_inbound hrecv htype (hrecv.fd.trans hfd) hload hlen hbody
          obtain ⟨more, more', hmore, hmore', hread, hwrite⟩ := hforwarded.writes
          refine ⟨inbound', outbound', more, more', rfl, hmore, hmore',
            fun call hcall data hdata => ?_⟩
          rw [hpayload, if_pos hfd]
          rcases List.mem_append.mp hcall with hcall | hcall
          · rw [hread call hcall] at hdata
            cases hdata
          · exact ⟨hrecvd, hwrite call hcall data hdata⟩
        · obtain ⟨rs', inbound', outbound', rfl, -, hforwarded⟩ :=
            hinv.forwarderRunBody_outbound hrecv htype (fun heq => hfd (hrecv.fd.symm.trans heq))
              hload hlen hbody
          obtain ⟨more, more', hmore, hmore', hread, hwrite⟩ := hforwarded.writes
          refine ⟨inbound', outbound', more', more, rfl, hmore', hmore,
            fun call hcall data hdata => ?_⟩
          rw [hpayload, if_neg hfd]
          rcases List.mem_append.mp hcall with hcall | hcall
          · exact ⟨hrecvd, hwrite call hcall data hdata⟩
          · rw [hread call hcall] at hdata
            cases hdata
      · obtain ⟨rfl, -⟩ := hinv.forwarderRunBody_other htype hbody
        exact ⟨inbound, outbound, [], [], rfl, (List.append_nil _).symm, (List.append_nil _).symm,
          by simp⟩

theorem Inv.screens_iff (hcounts : api.Counts) {s : LoopState (σ × List SslCall)}
    (h : Inv s.uring held taken) {c : Cqe} {cq : List Cqe} (hcq : s.uring.ring.cq = c :: cq)
    (hc : c.req.opcode.outgoing = false → c.Honest) :
    Model.Screens api s (takeCqe api.traced s c cq) c ↔
      (c.req.opcode.opType = .udpRecv → ∀ d,
        s.prog.payload api.traced c = some d → WellFormed d) := by
  constructor
  · intro hscreens htype d hd
    by_contra hbad
    have hin : c.req.opcode.outgoing = false := by
      revert htype
      cases c.req.opcode <;> simp [Opcode.opType, Opcode.outgoing]
    obtain ⟨hnone, hok, -⟩ := hscreens.drops d htype hd hbad
    -- a loop that goes on has passed the payload on
    obtain ⟨ins, outs, htook, hturn⟩ := h.turn api.traced hcq fun hin => body_bodySpec hin s.prog
    obtain ⟨r, hr⟩ := List.exists_mem_of_ne_nil outs (hturn.done hok hin).1
    have hnew : r ∈ (takeCqe api.traced s c cq).uring.ring.queued.drop
        s.uring.ring.queued.length := by
      rw [htook.queued, List.drop_left]
      exact List.mem_append_right ins hr
    have hout := hturn.entry r hr
    rw [hnone r hnew] at hout
    cases hout
  · intro hgood
    refine ⟨fun r hr hwrite => ?_, fun hprog hprog' call hcall data hdata => ?_,
      fun d htype hd hbad => absurd (hgood htype d hd) hbad⟩
    · obtain ⟨ins, outs, htook, hturn⟩ := h.turn api.traced hcq fun hin =>
        body_writes (traced_counts hcounts) hin (hc hin) s.prog
      rw [htook.queued, List.drop_left] at hr
      rcases List.mem_append.mp hr with hr | hr
      · have hin := htook.incoming r hr
        rw [hwrite] at hin
        cases hin
      · obtain ⟨htype, hd⟩ := hturn.entry r hr hwrite
        exact hgood htype r.data hd
    · obtain ⟨inbound', outbound', more, more', hsame, hmore, hmore', hwritten⟩ :=
        h.turn_forwards api hcq hc hprog
      rw [hprog', Program.forwarderRun.injEq] at hsame
      obtain ⟨rfl, rfl⟩ := hsame
      rw [hmore, hmore', List.drop_left, List.drop_left] at hcall
      obtain ⟨htype, hd⟩ := hwritten call hcall data hdata
      exact hgood htype data hd

/-! ## Every run -/

/-- In every session the loops let only IP packets pass, and drop everything
else, exactly when they get nothing else. -/
theorem sessions_screen_iff (api : Ssl σ) (hcounts : api.Counts) (config : IouringConfig)
    (sqeFree : Nat → Bool) (submits : Nat → Int) (prog : Program (σ × List SslCall))
    (running : Bool) {start : Session (σ × List SslCall)}
    (hstart : Session.start (IouringCtx.iouringInit config sqeFree submits) prog running =
      some start) (es : List SessionEvent) :
    Execution.Steps (Session.step api.traced) (Session.Screens api) start es ↔
      Execution.Steps (Session.step api.traced) (Session.GetsWellFormed api) start es := by
  apply Execution.steps_iff Session.Good (fun s e hs => good_step hs e) _
    (good_start config sqeFree submits hstart)
  intro s e hgood
  refine forall_congr' fun ls => forall_congr' fun c => forall_congr' fun cq =>
    forall_congr' fun htakes => ?_
  have hloop : ls.status.ok = true → Sound ls.uring := by
    rw [htakes.loop] at hgood
    exact hgood
  obtain ⟨held, taken, hinv⟩ := hloop (by rw [htakes.waiting]; rfl)
  exact hinv.screens_iff hcounts htakes.cq htakes.honest

def recordedProg : Program (Unit × List SslCall) :=
  .tunUdpRunZero ⟨3, .client, ((), []), [], [], [127, 0, 0, 1], 4, .established⟩ 5

def recordedSession : Session (Unit × List SslCall) :=
  (Session.start (IouringCtx.iouringInit smallConfig (fun _ => true) fun _ => 1)
    recordedProg true).getD
      (.returned (IouringCtx.iouringInit smallConfig (fun _ => true) fun _ => 1))

def brings (payload : Bytes) : List SessionEvent :=
  [.kernel (.recv 0 1 (slotHeader + payload.length)
    (recvmsgOut 128 [127, 0, 0, 1] (List.replicate 124 0) payload) true 0), .wake]

theorem plainSsl_counts : plainSsl.Counts := by
  intro ssl rbio n herr
  simp only [plainSsl] at herr ⊢
  split at herr
  · cases herr
  · rename_i hne
    rw [if_neg hne]

set_option maxRecDepth 20000 in
/-- Three bytes are written to the TUN device. -/
theorem threeBytes_not_screened :
    ¬ Execution.Steps (Session.step plainSsl.traced) (Session.Screens plainSsl) recordedSession
      (brings [1, 2, 3]) := by
  rintro ⟨-, h, -⟩
  have hwrites := (h _ _ _ ⟨rfl, rfl, rfl, rfl, fun _ => rfl⟩).writes
  revert hwrites
  decide

/-- An IPv4 header is a packet. -/
theorem header_screened :
    Execution.Steps (Session.step plainSsl.traced) (Session.Screens plainSsl) recordedSession
      (brings [0x45, 0, 0, 20, 0, 0, 0, 0, 64, 17, 0, 0, 10, 0, 0, 1, 10, 0, 0, 2]) := by
  refine (sessions_screen_iff plainSsl plainSsl_counts smallConfig (fun _ => true) (fun _ => 1)
    recordedProg true rfl _).mpr ⟨fun ls c cq htakes => (nomatch htakes.event), ?_, trivial⟩
  intro ls c cq htakes _ d hd
  obtain rfl := Session.loop.inj htakes.loop
  obtain ⟨rfl, -⟩ := List.cons.inj htakes.cq
  obtain rfl := Option.some.inj hd
  decide

end Dataplane.Proofs
