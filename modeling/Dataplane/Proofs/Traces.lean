import Dataplane.Model.Session
import Dataplane.Proofs.Specs

/-!
# The calls of OpenSSL

The program hands its SSL objects to OpenSSL and never looks into them.  An SSL
object may therefore carry a record of the calls made on it, and the program
does the same with and without it (`lifts_run`).
-/

namespace Dataplane.Model

open ProofSupport

variable {σ τ : Type}

/-! ## SSL objects that carry more -/

def SslRet.map (f : σ → τ) (r : SslRet σ) : SslRet τ :=
  ⟨r.ret, r.err, r.data, r.rbio, r.out, f r.ssl⟩

def Connection.map (f : σ → τ) (conn : Connection σ) : Connection τ :=
  ⟨conn.udpFd, conn.role, f conn.ssl, conn.rbio, conn.wbio, conn.addr, conn.addrLen, conn.state⟩

def Program.map (f : σ → τ) : Program σ → Program τ
  | .tunUdpRun conn tunFd => .tunUdpRun (conn.map f) tunFd
  | .tunUdpRunZero conn tunFd => .tunUdpRunZero (conn.map f) tunFd
  | .forwarderRun inbound outbound => .forwarderRun (inbound.map f) (outbound.map f)

def LoopState.map (f : σ → τ) (s : LoopState σ) : LoopState τ :=
  ⟨s.uring, s.prog.map f, s.running, s.status⟩

def HandshakeState.map (f : σ → τ) (s : HandshakeState σ) : HandshakeState τ :=
  ⟨s.uring, s.conn.map f, s.pc, s.sslSend, s.written⟩

def Stage.map (f : σ → τ) : Stage σ → Stage τ
  | .edge tunFd => .edge tunFd
  | .inbound other => .inbound (other.map f)
  | .outbound other => .outbound (other.map f)

def Session.map (f : σ → τ) : Session σ → Session τ
  | .handshake stage s running => .handshake (stage.map f) (s.map f) running
  | .loop s => .loop (s.map f)
  | .returned uring => .returned uring

/-! ## Records -/

/-- A call with the read BIO before and behind it, what it added to the write
BIO, and the plaintext that it was given or delivered. -/
inductive SslCall
  | doHandshake (rbio left out : Bytes)
  | read (rbio left out : Bytes) (data : Option Bytes)
  | write (rbio left out data : Bytes)
  deriving DecidableEq

def SslCall.written : SslCall → Option Bytes
  | .write _ _ _ data => some data
  | _ => none

/-- OpenSSL with a record of the calls. -/
def Ssl.traced (api : Ssl σ) : Ssl (σ × List SslCall) where
  doHandshake s rbio :=
    let r := api.doHandshake s.1 rbio
    r.map fun ssl => (ssl, s.2 ++ [.doHandshake rbio r.rbio r.out])
  read s rbio n :=
    let r := api.read s.1 rbio n
    r.map fun ssl => (ssl, s.2 ++
      [.read rbio r.rbio r.out (if r.err = .none then some r.data else none)])
  write s rbio data :=
    let r := api.write s.1 rbio data
    r.map fun ssl => (ssl, s.2 ++ [.write rbio r.rbio r.out data])

def Connection.calls (conn : Connection (σ × List SslCall)) : List SslCall := conn.ssl.2

end Dataplane.Model

namespace Dataplane.Proofs

open ProofSupport Model

variable {σ τ : Type} {api : Ssl σ} {api' : Ssl τ} {f : τ → σ}

/-- On an object of `api'`, which carries the object that `f` finds in it, every
call is answered as `api` answers it on that object. -/
structure Lifts (api : Ssl σ) (api' : Ssl τ) (f : τ → σ) : Prop where
  doHandshake : ∀ ssl rbio, (api'.doHandshake ssl rbio).map f = api.doHandshake (f ssl) rbio
  read : ∀ ssl rbio n, (api'.read ssl rbio n).map f = api.read (f ssl) rbio n
  write : ∀ ssl rbio data, (api'.write ssl rbio data).map f = api.write (f ssl) rbio data

theorem traced_lifts (api : Ssl σ) : Lifts api api.traced Prod.fst :=
  ⟨fun _ _ => rfl, fun _ _ _ => rfl, fun _ _ _ => rfl⟩

/-! ## The program does the same -/

theorem Lifts.encrypt (h : Lifts api api' f) (conn : Connection τ) (data : Bytes) (size : Nat) :
    (conn.map f).dtlsEncryptPacket api data size =
      ((conn.dtlsEncryptPacket api' data size).1, (conn.dtlsEncryptPacket api' data size).2.1,
        (conn.dtlsEncryptPacket api' data size).2.2.map f) := by
  have hwrite := h.write conn.ssl conn.rbio data
  rw [dtlsEncryptPacket_eq api (conn.map f) data size hwrite.symm,
    dtlsEncryptPacket_eq api' conn data size rfl]
  generalize api'.write conn.ssl conn.rbio data = r
  by_cases hret : r.ret ≤ 0
  · rw [if_pos hret, if_pos (show (r.map f).ret ≤ 0 from hret)]
    rfl
  · rw [if_neg hret, if_neg (show ¬ (r.map f).ret ≤ 0 from hret)]
    rfl

theorem Lifts.sslRead (h : Lifts api api' f) (conn : Connection τ) (n : Nat) :
    (conn.map f).sslRead api n =
      ((conn.sslRead api' n).1.map f, (conn.sslRead api' n).2.map f) := by
  simp only [Connection.sslRead, Connection.map, ← h.read]
  rfl

theorem Lifts.sslReadAgain (h : Lifts api api' f) (n k : Nat) (last : SslRet τ × Connection τ) :
    Connection.sslReadAgain api n k (last.1.map f, last.2.map f) =
      ((Connection.sslReadAgain api' n k last).1.map f,
        (Connection.sslReadAgain api' n k last).2.map f) := by
  induction k generalizing last with
  | zero => rfl
  | succ k ih =>
      rw [Connection.sslReadAgain, Connection.sslReadAgain, h.sslRead]
      by_cases hwant : last.1.err = .wantRead
      · rw [if_pos hwant, if_pos (show (last.1.map f).err = .wantRead from hwant)]
        exact ih _
      · rw [if_neg hwant, if_neg (show ¬ (last.1.map f).err = .wantRead from hwant)]

theorem Lifts.decrypt (h : Lifts api api' f) (conn : Connection τ) (encrypted : Bytes)
    (len size : Int) :
    (conn.map f).dtlsDecryptPacket api encrypted len size =
      ((conn.dtlsDecryptPacket api' encrypted len size).1,
        (conn.dtlsDecryptPacket api' encrypted len size).2.1,
        (conn.dtlsDecryptPacket api' encrypted len size).2.2.1,
        (conn.dtlsDecryptPacket api' encrypted len size).2.2.2.map f) := by
  have hagain := h.sslReadAgain len.toNat 4 (({ conn with
    rbio := conn.rbio ++ encrypted.take len.toNat } : Connection τ).sslRead api' len.toNat)
  rw [← h.sslRead] at hagain
  rw [dtlsDecryptPacket_eq api (conn.map f) encrypted len size hagain,
    dtlsDecryptPacket_eq api' conn encrypted len size rfl]
  generalize Connection.sslReadAgain api' len.toNat 4 _ = last
  by_cases hlen : len ≤ 0
  · rw [if_pos hlen, if_pos hlen]
  rw [if_neg hlen, if_neg hlen]
  by_cases herr : last.1.err ≠ .none
  · rw [if_pos herr, if_pos (show (last.1.map f).err ≠ .none from herr)]
  · rw [if_neg herr, if_neg (show ¬ (last.1.map f).err ≠ .none from herr)]
    rfl

theorem Lifts.encryptAndSend (h : Lifts api api' f) (conn : Connection τ) (data : Bytes)
    (ctx : IouringCtx) :
    dtlsEncryptAndSendUdp api (conn.map f) data ctx =
      ((dtlsEncryptAndSendUdp api' conn data ctx).1,
        (dtlsEncryptAndSendUdp api' conn data ctx).2.1,
        (dtlsEncryptAndSendUdp api' conn data ctx).2.2.map f) := by
  unfold dtlsEncryptAndSendUdp
  rw [h.encrypt]
  rcases conn.dtlsEncryptPacket api' data bufSize with ⟨len, result, conn'⟩
  have hfd : (conn.map f).udpFd = conn.udpFd := rfl
  rw [hfd]
  rcases ctx.ioOpAlloc .udpSend conn.udpFd false with ⟨_ | op, ctx1⟩
  · rfl
  · dsimp only
    by_cases hlen : len < 0
    · simp only [if_pos hlen]
    · rw [if_neg hlen, if_neg hlen, show (conn'.map f).addr = conn'.addr from rfl,
        show (conn'.map f).addrLen = conn'.addrLen from rfl]
      generalize IouringCtx.iouringSubmitUdpSend _ _ _ _ _ _ = out
      by_cases hret : out.1 < 0
      · simp only [if_pos hret]
      · simp only [if_neg hret]

theorem Lifts.decryptAndWrite (h : Lifts api api' f) (conn : Connection τ) (tunFd : Int)
    (encrypted : Bytes) (len : Int) (ctx : IouringCtx) :
    dtlsDecryptAndWriteTun api (conn.map f) tunFd encrypted len ctx =
      ((dtlsDecryptAndWriteTun api' conn tunFd encrypted len ctx).1,
        (dtlsDecryptAndWriteTun api' conn tunFd encrypted len ctx).2.1,
        (dtlsDecryptAndWriteTun api' conn tunFd encrypted len ctx).2.2.map f) := by
  unfold dtlsDecryptAndWriteTun
  rw [h.decrypt]
  rcases conn.dtlsDecryptPacket api' encrypted len bufSize with ⟨n, decrypted, ok, conn'⟩
  rcases ctx.ioOpAlloc .tunWrite tunFd false with ⟨_ | op, ctx1⟩
  · rfl
  · dsimp only
    by_cases hlen : n < 0
    · simp only [if_pos hlen]
    · rw [if_neg hlen, if_neg hlen]
      generalize IouringCtx.iouringSubmitTunWrite _ _ _ _ = out
      by_cases hret : out.1 < 0
      · simp only [if_pos hret]
      · simp only [if_neg hret]

theorem Lifts.forward (h : Lifts api api' f) (ctx : IouringCtx)
    (recvConn forwardConn : Connection τ)
    (data : Bytes) (len : Int) :
    forwardBetween api ctx (recvConn.map f) (forwardConn.map f) data len =
      ((forwardBetween api' ctx recvConn forwardConn data len).1,
        (forwardBetween api' ctx recvConn forwardConn data len).2.1,
        (forwardBetween api' ctx recvConn forwardConn data len).2.2.1.map f,
        (forwardBetween api' ctx recvConn forwardConn data len).2.2.2.map f) := by
  unfold forwardBetween
  rw [h.decrypt]
  rcases recvConn.dtlsDecryptPacket api' data len bufSize with ⟨n, decrypted, ok, recvConn'⟩
  dsimp only
  by_cases hlen : n ≤ 0
  · simp only [if_pos hlen]
  · simp only [if_neg hlen, h.encryptAndSend]

theorem Lifts.forwardUdp (h : Lifts api api' f) (ctx : IouringCtx) (inbound outbound : Connection τ)
    (op : OpId) :
    forwardUdpPacket api ctx (inbound.map f) (outbound.map f) op =
      ((forwardUdpPacket api' ctx inbound outbound op).1,
        (forwardUdpPacket api' ctx inbound outbound op).2.1,
        (forwardUdpPacket api' ctx inbound outbound op).2.2.1.map f,
        (forwardUdpPacket api' ctx inbound outbound op).2.2.2.map f) := by
  unfold forwardUdpPacket
  rw [show (inbound.map f).udpFd = inbound.udpFd from rfl]
  dsimp only
  by_cases hlen : (ctx.ops op).dataLen ≤ 0
  · simp only [if_pos hlen]
  by_cases hfd : (ctx.ops op).fd = inbound.udpFd
  · simp only [if_neg hlen, if_pos hfd, h.forward]
  · simp only [if_neg hlen, if_neg hfd, h.forward]

theorem learnAddr_map (ctx : IouringCtx) (conn : Connection τ) (op : OpId) :
    learnAddr ctx (conn.map f) op =
      ((learnAddr ctx conn op).1, (learnAddr ctx conn op).2.map f) := by
  unfold learnAddr
  by_cases hzero : conn.addrLen = 0
  · rw [if_pos hzero, if_pos (show (conn.map f).addrLen = 0 from hzero)]
    rfl
  · rw [if_neg hzero, if_neg (show ¬ (conn.map f).addrLen = 0 from hzero)]

theorem Lifts.body (h : Lifts api api' f) (prog : Program τ) (ctx : IouringCtx) (op : OpId) :
    (prog.map f).body api ctx op =
      ((prog.body api' ctx op).1, (prog.body api' ctx op).2.1, (prog.body api' ctx op).2.2.1,
        (prog.body api' ctx op).2.2.2.map f) := by
  cases prog with
  | tunUdpRun conn tunFd =>
      simp only [Program.map, Program.body, tunUdpRunBody, h.encryptAndSend, h.decryptAndWrite]
      cases (ctx.ops op).opType <;> rfl
  | tunUdpRunZero conn tunFd =>
      simp only [Program.map, Program.body, tunUdpRunZeroBody, learnAddr_map]
      cases (ctx.ops op).opType <;> rfl
  | forwarderRun inbound outbound =>
      simp only [Program.map, Program.body, forwarderRunBody, h.forwardUdp]
      by_cases htype : (ctx.ops op).opType ≠ .udpRecv
      · simp only [if_pos htype]
      · simp only [if_neg htype]
        by_cases hret : (forwardUdpPacket api' ctx inbound outbound op).1 < 0
        · simp only [if_pos hret]
        · simp only [if_neg hret]
          rfl

/-! ## The loops, the handshake and the session do the same -/

theorem lifts_head (s : LoopState τ) (ret : Int) (op : Option OpId) :
    atLoopHead (s.map f) ret op = (atLoopHead s ret op).map f := by
  obtain ⟨uring, prog, running, status⟩ := s
  unfold atLoopHead
  by_cases hret : ret < 0
  · simp only [if_pos hret]
    rfl
  · simp only [if_neg hret]
    cases prog <;> cases running <;> rfl

theorem loopStart_map (ctx : IouringCtx) (prog : Program τ) (running : Bool) :
    LoopState.start ctx (prog.map f) running = (LoopState.start ctx prog running).map f := by
  rw [LoopState.start, LoopState.start, ← lifts_head]
  rfl

theorem Lifts.loop (h : Lifts api api' f) (s : LoopState τ) (e : LoopEvent) :
    (s.map f).step api e = (s.step api' e).map f := by
  cases e with
  | kernel e => rfl
  | stop => rfl
  | waitError =>
      simp only [LoopState.step]
      rw [show (s.map f).status = s.status from rfl]
      split <;> rfl
  | wake =>
      simp only [LoopState.step, LoopState.wake]
      rw [show (s.map f).status = s.status from rfl, show (s.map f).uring = s.uring from rfl]
      split
      · rename_i c cq _ _
        unfold takeCqe
        rw [show (s.map f).uring = s.uring from rfl, show (s.map f).prog = s.prog.map f from rfl]
        rcases (s.uring.iouringCqeSeen c cq).waitForRecvBody c with ⟨_ | op | _, ctx⟩
        · rfl
        · dsimp only
          rw [h.body, ← lifts_head]
          rfl
        · rfl
      · rfl

theorem conclude_map (s : HandshakeState τ) (ret : Int) (err : SslError) :
    (s.map f).conclude ret err = (s.conclude ret err).map f := by
  unfold HandshakeState.conclude
  rw [show (s.map f).conn.rbio = s.conn.rbio from rfl,
    show (s.map f).conn.wbio = s.conn.wbio from rfl]
  by_cases hone : ret = 1
  · simp only [if_pos hone]
    rfl
  by_cases hzero : ret = 0
  · simp only [if_neg hone, if_pos hzero]
    rfl
  simp only [if_neg hone, if_neg hzero]
  cases err with
  | wantRead =>
      by_cases hrbio : s.conn.rbio ≠ []
      · rw [if_pos hrbio, if_pos hrbio]
        rfl
      · rw [if_neg hrbio, if_neg hrbio]
        rfl
  | wantWrite =>
      by_cases hwbio : s.conn.wbio ≠ []
      · rw [if_pos hwbio, if_pos hwbio]
        rfl
      · rw [if_neg hwbio, if_neg hwbio]
        rfl
  | none => rfl
  | zeroReturn => rfl
  | other => rfl

theorem sendFlight_map (ctx : IouringCtx) (conn : Connection τ) :
    sendFlight ctx (conn.map f) =
      ((sendFlight ctx conn).1, (sendFlight ctx conn).2.1, (sendFlight ctx conn).2.2.map f) := rfl

theorem Lifts.call (h : Lifts api api' f) (s : HandshakeState τ) :
    (s.map f).call api = (s.call api').map f := by
  have hanswer := h.doHandshake s.conn.ssl s.conn.rbio
  unfold HandshakeState.call
  rw [show api.doHandshake (s.map f).conn.ssl (s.map f).conn.rbio = _ from hanswer.symm]
  generalize api'.doHandshake s.conn.ssl s.conn.rbio = r
  dsimp only
  by_cases hnone : (s.conn.after r).wbio.length = 0
  · rw [if_pos hnone, if_pos (show ((s.map f).conn.after (r.map f)).wbio.length = 0 from hnone),
      ← conclude_map]
    rfl
  · rw [if_neg hnone, if_neg (show ¬ ((s.map f).conn.after (r.map f)).wbio.length = 0 from hnone),
      show sendFlight (s.map f).uring ((s.map f).conn.after (r.map f)) = _ from
        sendFlight_map s.uring (s.conn.after r)]
    rcases sendFlight s.uring (s.conn.after r) with ⟨ret, ctx, conn⟩
    dsimp only
    by_cases hret : ret < 0
    · rw [if_pos hret, if_pos hret]
      rfl
    · rw [if_neg hret, if_neg hret, ← conclude_map]
      rfl

theorem takeCqe_map (s : HandshakeState τ) (c : Cqe) (cq : List Cqe) :
    (s.map f).takeCqe c cq = (s.takeCqe c cq).map f := by
  unfold HandshakeState.takeCqe
  rw [show (s.map f).uring = s.uring from rfl]
  rcases (s.uring.iouringCqeSeen c cq).waitForRecvBody c with ⟨_ | op | _, ctx⟩
  · rfl
  · rw [show (s.map f).conn = s.conn.map f from rfl]
    dsimp only
    by_cases hfd : ((ctx.assert (decide ((ctx.ops op).opType = .udpRecv))).ops op).fd ≠ s.conn.udpFd
    · rw [if_pos hfd, if_pos (show _ ≠ (s.conn.map f).udpFd from hfd)]
      rfl
    · rw [if_neg hfd, if_neg (show ¬ _ ≠ (s.conn.map f).udpFd from hfd)]
      rw [learnAddr_map]
      rfl
  · rfl

theorem Lifts.handshake (h : Lifts api api' f) (s : HandshakeState τ) (e : HandshakeEvent) :
    (s.map f).step api e = (s.step api' e).map f := by
  cases e with
  | kernel e => rfl
  | call =>
      simp only [HandshakeState.step]
      rw [show (s.map f).pc = s.pc from rfl, h.call]
      split <;> rfl
  | waitError =>
      simp only [HandshakeState.step]
      rw [show (s.map f).pc = s.pc from rfl]
      split <;> rfl
  | wake =>
      simp only [HandshakeState.step]
      rw [show (s.map f).pc = s.pc from rfl, show (s.map f).uring = s.uring from rfl]
      split
      · exact takeCqe_map s _ _
      · rfl

theorem proceed_map (s : HandshakeState τ) (running : Bool) (stage : Stage τ) :
    Session.proceed (s.map f) running (stage.map f) = (Session.proceed s running stage).map f := by
  cases stage with
  | inbound other => rfl
  | outbound other =>
      exact congrArg Session.loop (loopStart_map s.uring (.forwarderRun other s.conn) running)
  | edge tunFd =>
      simp only [Stage.map, Session.proceed]
      rw [show (s.map f).uring = s.uring from rfl]
      rcases s.uring.iouringInitialTunReads tunFd with ⟨ret, ctx⟩
      dsimp only
      by_cases hret : ret ≠ 0
      · rw [if_pos hret, if_pos hret]
        rfl
      · rw [if_neg hret, if_neg hret]
        exact congrArg Session.loop (loopStart_map ctx (.tunUdpRun s.conn tunFd) running)

theorem Lifts.step (h : Lifts api api' f) (s : Session τ) (e : SessionEvent) :
    (s.map f).step api e = (s.step api' e).map f := by
  cases s with
  | returned uring => cases e <;> rfl
  | loop s =>
      simp only [Session.map, Session.step]
      cases he : e.loop with
      | none => rfl
      | some e' => exact congrArg Session.loop (h.loop s e')
  | handshake stage s running =>
      have hstep : ∀ e', (Session.handshake (stage.map f) ((s.map f).step api e') running) =
          (Session.handshake stage (s.step api' e') running).map f := by
        intro e'
        rw [h.handshake]
        rfl
      cases e with
      | stop => rfl
      | proceed =>
          simp only [Session.map, Session.step]
          rw [show (s.map f).pc = s.pc from rfl]
          by_cases hpc : s.pc = .returned 0
          · rw [if_pos hpc, if_pos hpc, proceed_map]
            rfl
          · rw [if_neg hpc, if_neg hpc]
      | call => exact hstep .call
      | kernel e => exact hstep (.kernel e)
      | wake => exact hstep .wake
      | waitError => exact hstep .waitError

/-- What the SSL objects carry changes nothing. -/
theorem lifts_run (h : Lifts api api' f) (s : Session τ) (es : List SessionEvent) :
    (s.map f).run api es = (s.run api' es).map f := by
  induction es generalizing s with
  | nil => rfl
  | cons e es ih =>
      show ((s.map f).step api e).run api es = ((s.step api' e).run api' es).map f
      rw [h.step, ih]

theorem start_map (ctx : IouringCtx) (prog : Program τ) (running : Bool) :
    Session.start ctx (prog.map f) running =
      (Session.start ctx prog running).map (Session.map f) := by
  cases prog with
  | tunUdpRun conn tunFd =>
      simp only [Program.map, Session.start]
      rw [show (conn.map f).udpFd = conn.udpFd from rfl]
      cases armReceives useMultiRecv ctx [conn.udpFd] <;> rfl
  | tunUdpRunZero conn tunFd =>
      simp only [Program.map, Session.start]
      rw [show initialSubmissions ctx (.tunUdpRunZero (conn.map f) tunFd) =
        initialSubmissions ctx (.tunUdpRunZero conn tunFd) from rfl]
      cases initialSubmissions ctx (.tunUdpRunZero conn tunFd) with
      | none => rfl
      | some ctx =>
          exact congrArg some (congrArg Session.loop
            (loopStart_map ctx (.tunUdpRunZero conn tunFd) running))
  | forwarderRun inbound outbound =>
      simp only [Program.map, Session.start]
      rw [show (inbound.map f).udpFd = inbound.udpFd from rfl,
        show (outbound.map f).udpFd = outbound.udpFd from rfl]
      cases armReceives useMultiRecv ctx [inbound.udpFd, outbound.udpFd] <;> rfl

end Dataplane.Proofs
