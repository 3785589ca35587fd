import Dataplane.Proofs.Sessions
import Dataplane.Proofs.Submissions
import Mathlib.Data.List.Chain

/-!
# The outcome of the handshake

A run of the handshake is told by the states in which it calls
`SSL_do_handshake`.  What the last of these calls answered decides the result
and the state of the connection, and between two calls there is one datagram.
-/

namespace Dataplane.Model

open ProofSupport

variable {σ : Type}

namespace HandshakeState

def calls (s : HandshakeState σ) : HandshakeEvent → Bool
  | .call => decide (s.pc = .calling)
  | _ => false

def answer (api : Ssl σ) (s : HandshakeState σ) : SslRet σ :=
  api.doHandshake s.conn.ssl s.conn.rbio

/-- What is pending in the write BIO behind the call. -/
def pending (api : Ssl σ) (s : HandshakeState σ) : Bytes := s.conn.wbio ++ (s.answer api).out

/-- A send of the first `BUF_SIZE` bytes that are pending is queued, and
`io_uring_submit` takes an entry. -/
def FlightSent (api : Ssl σ) (s : HandshakeState σ) : Prop :=
  s.pending api ≠ [] → ∃ q, (s.call api).uring.ring.queued = s.uring.ring.queued ++ [q] ∧
    q.opcode = .sendmsg ∧ q.fd = s.conn.udpFd ∧ q.data = (s.pending api).take bufSize ∧
    0 < s.uring.ring.submits 0

/-- The call completes the handshake, and its output goes out while the
connection is still handshaking. -/
def Completes (api : Ssl σ) (s : HandshakeState σ) : Prop :=
  (s.answer api).ret = 1 ∧ s.conn.state = .handshaking ∧ s.FlightSent api

/-- The call ends with `SSL_ERROR_WANT_READ`. -/
def WantsRead (api : Ssl σ) (s : HandshakeState σ) : Prop :=
  (s.answer api).ret ≠ 1 ∧ (s.answer api).ret ≠ 0 ∧ (s.answer api).err = .wantRead

/-- From the call in `p` to the call in `q` one datagram is consumed: whole into
the read BIO if it came on the socket of the connection, and else not at all. -/
def OneDatagram (api : Ssl σ) (p q : HandshakeState σ) : Prop :=
  ∃ ends c, q.uring.ring.seen = p.uring.ring.seen ++ ends ++ [c] ∧
    (∀ e ∈ ends, e.req.opcode.outgoing = true) ∧ c.req.opcode.outgoing = false ∧ 0 ≤ c.res ∧
    (c.Honest → q.conn.rbio =
      (p.answer api).rbio ++ if c.req.fd = p.conn.udpFd then c.payload else [])

end HandshakeState

/-- How a handshake that starts in `s` and goes through `es` comes out. -/
structure Outcome (api : Ssl σ) (s : HandshakeState σ) (es : List HandshakeEvent) : Prop where
  zero : ∀ ret, (s.run api es).pc = .returned ret → (ret = 0 ↔
    ∃ p, (Execution.visits (HandshakeState.step api) HandshakeState.calls s es).getLast? = some p ∧
      p.Completes api)
  established : ∀ ret, (s.run api es).pc = .returned ret →
    (ret = 0 ↔ (s.run api es).conn.state = .established)
  handshaking : ∀ ret, (s.run api es).pc = .returned ret → ret ≠ 0 →
    (s.run api es).conn.state = .handshaking
  between : (Execution.visits (HandshakeState.step api) HandshakeState.calls s es).IsChain
    fun p q => p.WantsRead api → p.OneDatagram api q

end Dataplane.Model

namespace Dataplane.Proofs

open ProofSupport Model Ledger

variable {σ : Type} {api : Ssl σ} {ctx ctx' : IouringCtx}

/-! ## The send of a round -/

/-- The send succeeds exactly when its entry is queued and `io_uring_submit`
takes an entry. -/
theorem udpSend_success {op : OpId} {addr : Bytes} {addrLen : Nat} {data : Option Bytes}
    {len ret : Int} (htype : (ctx.ops op).opType = .udpSend)
    (hlen : ((ctx.copyIn op data len).ops op).dataLen = len)
    (hres : ctx.iouringSubmitUdpSend (some op) addr addrLen data len = (ret, ctx')) :
    0 ≤ ret ↔ ctx'.ring.queued ≠ ctx.ring.queued ∧ 0 < ctx.ring.submits 0 := by
  have hs := iouringSubmitUdpSend_submitted addr addrLen data len htype hlen
  have hcalls : Calls (.udpSend addr addrLen data len) ctx op _ :=
    udpSend_calls addr addrLen data len
  rw [hres] at hs hcalls
  have hmid : (sendCtx (ctx.copyIn op data len) op addr addrLen).ring = ctx.ring := by
    simp [sendCtx, copyIn_ring]
  cases hcalls with
  | refused _ hinflight =>
      refine ⟨fun h => absurd h (by decide), fun h => absurd ?_ h.1⟩
      cases hs with
      | refused f => rfl
      | failed _ heff _ =>
          have hlong := heff.inflight
          rw [hinflight, IoUring.inflight, hmid] at hlong
          simp [IoUring.inflight] at hlong
  | submitted r _ _ _ hinflight hans =>
      cases hs with
      | refused f =>
          simp [IoUring.inflight] at hinflight
      | queued _ heff =>
          have hqueued := heff.queued
          rw [hmid] at hqueued
          refine ⟨fun _ => ⟨by rw [hqueued]; simp, ?_⟩, fun _ => le_rfl⟩
          rcases hans with ⟨-, htakes⟩ | ⟨hret, -⟩
          · exact htakes
          · cases hret
      | failed _ _ _ =>
          refine ⟨fun h => absurd h (by decide), fun h => ?_⟩
          rcases hans with ⟨hret, -⟩ | ⟨-, hnot⟩
          · cases hret
          · exact absurd h.2 hnot

/-- The block behind `if (ssl_send)` succeeds exactly when the entry with the
flight is queued and `io_uring_submit` takes an entry. -/
theorem sendFlight_success (ctx : IouringCtx) {conn : Connection σ} (hne : conn.wbio ≠ []) :
    0 ≤ (sendFlight ctx conn).1 ↔
      ∃ q, (sendFlight ctx conn).2.1.ring.queued = ctx.ring.queued ++ [q] ∧
        q.opcode = .sendmsg ∧ q.fd = conn.udpFd ∧ q.data = conn.wbio.take bufSize ∧
        0 < ctx.ring.submits 0 := by
  rcases hsend : sendFlight ctx conn with ⟨ret, ctx', conn'⟩
  have hspec := (sendFlight_spec hne hsend).2
  dsimp only
  have hiff : 0 ≤ ret ↔ ctx'.ring.queued ≠ ctx.ring.queued ∧ 0 < ctx.ring.submits 0 := by
    rcases ha : ctx.ioOpAlloc .udpSend conn.udpFd false with ⟨_ | op, ctx1⟩
    · rw [sendFlight_none hne ha] at hsend
      cases hsend
      obtain ⟨ops, rfl, -⟩ := ioOpAlloc_none_eq ha
      simp
    · rcases hsub : ctx1.iouringSubmitUdpSend (some op) conn.addr conn.addrLen
        (some (conn.wbio.take bufSize)) (conn.wbio.take bufSize).length with ⟨ret', ctx2⟩
      rw [sendFlight_some hne ha hsub] at hsend
      cases hsend
      obtain ⟨ops, b, bufs, -, -, hctx1⟩ := ioOpAlloc_single_eq ha
      have hring : ctx1.ring = ctx.ring := by rw [hctx1]
      rw [← hring]
      exact udpSend_success (by rw [hctx1]; simp [pooledOp, freshOp]) (by rw [copyIn_op]; rfl) hsub
  constructor
  · intro hret
    obtain ⟨q, hqueued, hdata⟩ := hspec.resolve_left (by omega)
    have hq : q.opcode = .sendmsg ∧ q.fd = conn.udpFd := by
      by_contra hnot
      have hbeq : (q.opcode == .sendmsg && q.fd == conn.udpFd) = false := by
        simpa [Bool.and_eq_false_iff] using hnot
      rw [datagrams, List.filter_cons, hbeq] at hdata
      simp at hdata
    rw [datagrams, List.filter_cons, hq.1, hq.2] at hdata
    exact ⟨q, hqueued, hq.1, hq.2, by simpa using hdata, (hiff.mp hret).2⟩
  · rintro ⟨q, hqueued, -, -, -, hpos⟩
    exact hiff.mpr ⟨by rw [hqueued]; simp, hpos⟩

/-! ## A call -/

theorem conclude_pc (s : HandshakeState σ) (ret : Int) (err : SslError) :
    ((s.conclude ret err).pc = .returned 0 ↔ ret = 1) ∧
      ((s.conclude ret err).pc = .waiting → ret ≠ 1 ∧ ret ≠ 0 ∧ err = .wantRead) ∧
      ((s.conclude ret err).pc = .calling → err = .wantWrite) := by
  unfold HandshakeState.conclude
  by_cases hone : ret = 1
  · simp [hone]
  by_cases hzero : ret = 0
  · simp [hzero]
  rw [if_neg hone, if_neg hzero]
  cases err with
  | wantRead => by_cases hrbio : s.conn.rbio = [] <;> simp [hone, hzero, hrbio]
  | wantWrite => by_cases hwbio : s.conn.wbio = [] <;> simp [hone, hwbio]
  | none => simp [hone]
  | zeroReturn => simp [hone]
  | other => simp [hone]

theorem conclude_state (s : HandshakeState σ) (ret : Int) (err : SslError) :
    (s.conclude ret err).conn.state = (if ret = 1 then .established else s.conn.state) ∧
      (s.conclude ret err).conn.rbio = s.conn.rbio := by
  unfold HandshakeState.conclude
  repeat' split
  all_goals exact ⟨rfl, rfl⟩

theorem call_eq (api : Ssl σ) (s : HandshakeState σ) :
    s.call api = if (s.pending api).length = 0
      then HandshakeState.conclude { s with
        conn := s.conn.after (s.answer api)
        sslSend := (s.pending api).length
        written := s.written ++ (s.answer api).out } (s.answer api).ret (s.answer api).err
      else match sendFlight s.uring (s.conn.after (s.answer api)) with
        | (ret, ctx, conn) =>
            if ret < 0 then { s with
              uring := ctx
              conn := conn
              sslSend := (s.pending api).length
              written := s.written ++ (s.answer api).out
              pc := .returned (-1) }
            else HandshakeState.conclude { s with
              uring := ctx
              conn := conn
              sslSend := (s.pending api).length
              written := s.written ++ (s.answer api).out } (s.answer api).ret (s.answer api).err :=
  rfl

structure Answered (api : Ssl σ) (s mid : HandshakeState σ) : Prop where
  state : mid.conn.state = s.conn.state
  ssl : mid.conn.ssl = (s.answer api).ssl
  rbio : mid.conn.rbio = (s.answer api).rbio
  wbio : mid.conn.wbio = (s.pending api).drop bufSize
  written : mid.written = s.written ++ (s.answer api).out

/-- A call either fails because its output does not go out, or it ends as the
answer says. -/
theorem call_cases (api : Ssl σ) (s : HandshakeState σ) :
    ∃ mid : HandshakeState σ, Answered api s mid ∧
      (s.FlightSent api ∧ s.call api = mid.conclude (s.answer api).ret (s.answer api).err ∨
        ¬ s.FlightSent api ∧ s.call api = { mid with pc := .returned (-1) }) := by
  have hcall := call_eq api s
  by_cases hempty : s.pending api = []
  · rw [if_pos (by simp [hempty])] at hcall
    refine ⟨_, ⟨?_, ?_, ?_, ?_, ?_⟩, .inl ⟨fun hne => absurd hempty hne, hcall⟩⟩
    · rfl
    · rfl
    · rfl
    · rw [hempty, List.drop_nil]
      exact hempty
    · rfl
  have hlen : (s.pending api).length ≠ 0 := by simpa using hempty
  rw [if_neg hlen] at hcall
  have hne : (s.conn.after (s.answer api)).wbio ≠ [] := hempty
  have hsuccess := sendFlight_success s.uring hne
  rcases hsend : sendFlight s.uring (s.conn.after (s.answer api)) with ⟨ret, ctx, conn⟩
  obtain ⟨rfl, -⟩ := sendFlight_spec hne hsend
  rw [hsend] at hcall hsuccess
  dsimp only at hcall hsuccess
  have hring : (s.call api).uring.ring = ctx.ring := by
    rw [hcall]
    split
    · rfl
    · rw [(conclude_frame _ _ _).1]
  have hsent : s.FlightSent api ↔ 0 ≤ ret := by
    rw [hsuccess, HandshakeState.FlightSent, hring]
    exact ⟨fun h => h hempty, fun h _ => h⟩
  by_cases hret : ret < 0
  · rw [if_pos hret] at hcall
    have hnot : ¬ s.FlightSent api := fun h => absurd (hsent.mp h) (by omega)
    refine ⟨{ s with
      uring := ctx
      conn := _
      sslSend := _
      written := _ }, ⟨?_, ?_, ?_, ?_, ?_⟩, .inr ⟨hnot, hcall⟩⟩
    all_goals rfl
  · rw [if_neg hret] at hcall
    refine ⟨_, ⟨?_, ?_, ?_, ?_, ?_⟩, .inl ⟨hsent.mpr (by omega), hcall⟩⟩
    all_goals rfl

/-! ## Since the last call -/

structure Since (api : Ssl σ) (p s : HandshakeState σ) : Prop where
  completes : s.pc = .returned 0 ↔ p.Completes api
  state : s.conn.state = if s.pc = .returned 0 then .established else .handshaking
  waiting : s.pc = .waiting → p.WantsRead api ∧ s.conn.udpFd = p.conn.udpFd ∧
    s.conn.rbio = (p.answer api).rbio ∧ ∃ ends, s.uring.ring.seen = p.uring.ring.seen ++ ends ∧
      ∀ e ∈ ends, e.req.opcode.outgoing = true
  calling : s.pc = .calling → p.WantsRead api → p.OneDatagram api s

theorem call_since {p : HandshakeState σ} (hsound : HandshakeSound p) (hpc : p.pc = .calling)
    (hstate : p.conn.state = .handshaking) : Since api p (p.call api) := by
  obtain ⟨⟨held, taken, hinv⟩, -⟩ := hsound (by rw [hpc]; simp)
  obtain ⟨outs, hcalled⟩ := hinv.call api
  obtain ⟨mid, hmid, ⟨hsent, hcall⟩ | ⟨hnot, hcall⟩⟩ := call_cases api p
  · obtain ⟨hzero, hwait, hagain⟩ := conclude_pc mid (p.answer api).ret (p.answer api).err
    obtain ⟨hend, hkeep⟩ := conclude_state mid (p.answer api).ret (p.answer api).err
    rw [← hcall] at hzero hwait hagain hend hkeep
    refine ⟨?_, ?_, fun hw => ?_, fun hc hwants => ?_⟩
    · exact hzero.trans ⟨fun hone => ⟨hone, hstate, hsent⟩, fun hdone => hdone.1⟩
    · rw [hend, hmid.state, hstate]
      simp only [hzero]
    · exact ⟨hwait hw, hcalled.conn.1, hkeep.trans hmid.rbio, [],
        by rw [hcalled.effect.seen, List.append_nil], by simp⟩
    · have herr := hwants.2.2
      rw [hagain hc] at herr
      cases herr
  · have hstop : (p.call api).pc = .returned (-1) := by rw [hcall]
    refine ⟨?_, ?_, ?_, ?_⟩
    · rw [hstop]
      exact ⟨fun h => by simp at h, fun hdone => absurd hdone.2.2 hnot⟩
    · rw [hstop, if_neg (by simp), hcall]
      exact hmid.state.trans hstate
    · rw [hstop]
      simp
    · rw [hstop]
      simp

theorem Since.kernel {p s : HandshakeState σ} (h : Since api p s) (e : KEvent) :
    Since api p { s with uring := s.uring.kernel e } := by
  have hseen := (kernel_histories s.uring e).1
  refine ⟨h.completes, h.state, fun hw => ?_, fun hc hwants => ?_⟩
  · obtain ⟨hwants, hfd, hrbio, ends, hends, hout⟩ := h.waiting hw
    exact ⟨hwants, hfd, hrbio, ends, hseen.trans hends, hout⟩
  · obtain ⟨ends, c, hends, hrest⟩ := h.calling hc hwants
    exact ⟨ends, c, hseen.trans hends, hrest⟩

theorem Since.stop {p s s' : HandshakeState σ} (h : Since api p s) (hpc : s.pc = .waiting)
    (hconn : s'.conn = s.conn) (hstop : s'.pc = .returned (-1)) : Since api p s' := by
  have hnot : ¬ p.Completes api := by
    rw [← h.completes, hpc]
    simp
  refine ⟨?_, ?_, ?_, ?_⟩
  · rw [hstop]
    exact ⟨fun hzero => by simp at hzero, fun hdone => absurd hdone hnot⟩
  · have hstate := h.state
    rw [hpc, if_neg (by simp)] at hstate
    rw [hstop, if_neg (by simp), hconn, hstate]
  · rw [hstop]
    simp
  · rw [hstop]
    simp

theorem Since.datagram {p s s' : HandshakeState σ} (h : Since api p s) (hpc : s.pc = .waiting)
    {c : Cqe} (hseen : s'.uring.ring.seen = s.uring.ring.seen ++ [c])
    (hin : c.req.opcode.outgoing = false) (hres : 0 ≤ c.res) (hcalling : s'.pc = .calling)
    (hstate : s'.conn.state = s.conn.state)
    (hrbio : c.Honest →
      s'.conn.rbio = s.conn.rbio ++ if c.req.fd = s.conn.udpFd then c.payload else []) :
    Since api p s' := by
  obtain ⟨hwants, hfd, hleft, ends, hends, hout⟩ := h.waiting hpc
  refine ⟨?_, ?_, ?_, fun _ _ => ?_⟩
  · rw [hcalling, ← h.completes, hpc]
    simp
  · have hbefore := h.state
    rw [hpc, if_neg (by simp)] at hbefore
    rw [hcalling, if_neg (by simp), hstate, hbefore]
  · rw [hcalling]
    simp
  · refine ⟨ends, c, by rw [hseen, hends], hout, hin, hres, fun hhonest => ?_⟩
    rw [hrbio hhonest, hleft, hfd]

theorem bioWrite_all (bio data : Bytes) : (bioWrite bio data data.length).2 = bio ++ data := by
  unfold bioWrite
  split
  · rename_i hlen
    have hnil : data = [] := List.length_eq_zero_iff.mp (by omega)
    rw [hnil, List.append_nil]
  · rw [Int.toNat_natCast, List.take_length]

theorem Since.takeCqe {p s : HandshakeState σ} (h : Since api p s) (hsound : HandshakeSound s)
    (hpc : s.pc = .waiting) {c : Cqe} {cq : List Cqe} (hcq : s.uring.ring.cq = c :: cq) :
    Since api p (s.takeCqe c cq) := by
  obtain ⟨⟨held, taken, hinv⟩, hreqs⟩ := hsound (by rw [hpc]; simp)
  obtain ⟨ins, heff, -, hconsumed⟩ := hinv.consume hreqs hpc hcq
  have hseen : (s.takeCqe c cq).uring.ring.seen = s.uring.ring.seen ++ [c] := heff.seen
  generalize s.takeCqe c cq = s' at *
  cases hconsumed with
  | stopped hconn hstop => exact h.stop hpc hconn hstop
  | sent hout hconn hwait _ =>
      obtain ⟨hwants, hfd, hrbio, ends, hends, hall⟩ := h.waiting hpc
      refine ⟨?_, ?_, fun _ => ?_, ?_⟩
      · rw [hwait, ← h.completes, hpc]
      · rw [hwait, hconn, h.state, hpc]
      · refine ⟨hwants, by rw [hconn, hfd], by rw [hconn, hrbio], ends ++ [c], ?_, ?_⟩
        · rw [hseen, hends, List.append_assoc]
        · intro e he
          rcases List.mem_append.mp he with he | he
          · exact hall e he
          · rw [List.mem_singleton.mp he]
            exact hout
      · rw [hwait]
        simp
  | foreign got idx hres hin hfd hconn hcalling _ =>
      apply h.datagram hpc hseen hin hres hcalling (by rw [hconn])
      intro _
      rw [hconn, if_neg hfd, List.append_nil]
  | own mid got idx hres hin hfd hrecv hconn hcalling _ =>
      apply h.datagram hpc hseen hin hres hcalling
      · rw [hconn]
        exact learnAddr_state mid s.conn c.req.userData
      · intro hhonest
        obtain ⟨hload, hlen⟩ := hrecv.payload hhonest
        rw [hconn, if_pos hfd, hload, hlen]
        exact bioWrite_all s.conn.rbio c.payload

/-! ## Runs -/

/-- What a run has come to: the states `ps` of its calls and its state `s`. -/
structure Story (api : Ssl σ) (ps : List (HandshakeState σ)) (s : HandshakeState σ) : Prop where
  sound : HandshakeSound s
  between : ps.IsChain fun p q => p.WantsRead api → p.OneDatagram api q
  first : ps = [] → s.pc = .calling ∧ s.conn.state = .handshaking
  last : ∀ p, ps.getLast? = some p → Since api p s

theorem Story.state {ps : List (HandshakeState σ)} {s : HandshakeState σ} (h : Story api ps s)
    (hpc : s.pc = .calling) : s.conn.state = .handshaking := by
  cases hlast : ps.getLast? with
  | none => exact (h.first (List.getLast?_eq_none_iff.mp hlast)).2
  | some p =>
      rw [(h.last p hlast).state, hpc]
      simp

theorem Story.call {ps : List (HandshakeState σ)} {s : HandshakeState σ} (h : Story api ps s)
    (hpc : s.pc = .calling) : Story api (ps ++ [s]) (s.step api .call) := by
  refine ⟨h.sound.step .call, ?_, fun hnil => by simp at hnil, fun p hp => ?_⟩
  · apply h.between.append (List.isChain_singleton s)
    intro p hp q hq
    rw [List.head?_cons, Option.mem_def, Option.some.injEq] at hq
    subst hq
    exact (h.last p hp).calling hpc
  · rw [List.getLast?_concat, Option.some.injEq] at hp
    subst hp
    simp only [HandshakeState.step, if_pos hpc]
    exact call_since h.sound hpc (h.state hpc)

theorem Story.step {ps : List (HandshakeState σ)} {s : HandshakeState σ} (h : Story api ps s)
    {e : HandshakeEvent} (he : s.calls e = false) : Story api ps (s.step api e) := by
  refine ⟨h.sound.step e, h.between, fun hnil => ?_, fun p hp => ?_⟩
  · obtain ⟨hpc, hstate⟩ := h.first hnil
    cases e with
    | call => simp [HandshakeState.calls, hpc] at he
    | kernel e => exact ⟨hpc, hstate⟩
    | wake => simpa only [HandshakeState.step, hpc, true_and] using hstate
    | waitError => simpa [HandshakeState.step, hpc] using hstate
  · have hsince := h.last p hp
    cases e with
    | call =>
        simp only [HandshakeState.calls, decide_eq_false_iff_not] at he
        simp only [HandshakeState.step, if_neg he]
        exact hsince
    | kernel e => exact hsince.kernel e
    | wake =>
        simp only [HandshakeState.step]
        split
        · rename_i hpc hcq
          exact hsince.takeCqe h.sound hpc hcq
        · exact hsince
    | waitError =>
        simp only [HandshakeState.step]
        split
        · rename_i hpc
          exact hsince.stop hpc rfl rfl
        · exact hsince

theorem story_run (api : Ssl σ) {s : HandshakeState σ} (hsound : HandshakeSound s)
    (hpc : s.pc = .calling) (hstate : s.conn.state = .handshaking) (es : List HandshakeEvent) :
    Story api (Execution.visits (HandshakeState.step api) HandshakeState.calls s es)
      (s.run api es) := by
  apply Execution.visits_invariant (Story api)
  · intro ps t e h
    cases he : t.calls e with
    | false =>
        rw [if_neg (by simp), List.append_nil]
        exact h.step he
    | true =>
        rw [if_pos rfl]
        cases e with
        | call => exact h.call (by simpa [HandshakeState.calls] using he)
        | kernel e => simp [HandshakeState.calls] at he
        | wake => simp [HandshakeState.calls] at he
        | waitError => simp [HandshakeState.calls] at he
  · exact ⟨hsound, List.isChain_nil, fun _ => ⟨hpc, hstate⟩, by simp⟩

theorem Story.outcome {s : HandshakeState σ} {es : List HandshakeEvent}
    (h : Story api (Execution.visits (HandshakeState.step api) HandshakeState.calls s es)
      (s.run api es)) : Outcome api s es := by
  have hcalled : ∀ {ret}, (s.run api es).pc = .returned ret → ∃ p,
      (Execution.visits (HandshakeState.step api) HandshakeState.calls s es).getLast? = some p ∧
      Since api p (s.run api es) := by
    intro ret hret
    cases hlast : (Execution.visits (HandshakeState.step api) HandshakeState.calls s es).getLast?
      with
    | none =>
        have hpc := (h.first (List.getLast?_eq_none_iff.mp hlast)).1
        rw [hret] at hpc
        cases hpc
    | some p => exact ⟨p, rfl, h.last p hlast⟩
  have hzero : ∀ {ret}, (s.run api es).pc = .returned ret →
      (ret = 0 ↔ (s.run api es).pc = .returned 0) := by
    intro ret hret
    rw [hret, HandshakePc.returned.injEq]
  refine ⟨fun ret hret => ?_, fun ret hret => ?_, fun ret hret hne => ?_, h.between⟩
  · obtain ⟨p, hlast, hsince⟩ := hcalled hret
    rw [hzero hret, hsince.completes]
    constructor
    · intro hdone
      exact ⟨p, hlast, hdone⟩
    · rintro ⟨p', hlast', hdone⟩
      rw [hlast, Option.some.injEq] at hlast'
      rw [hlast']
      exact hdone
  · obtain ⟨p, -, hsince⟩ := hcalled hret
    rw [hzero hret, hsince.state]
    split <;> simp_all
  · obtain ⟨p, -, hsince⟩ := hcalled hret
    rw [hsince.state, if_neg]
    rwa [← hzero hret]

/-- In every session, whatever SSL answers, what completes and which submissions
are accepted, a handshake that starts on a connection that is handshaking comes
out as `Outcome` says. -/
theorem handshake_outcome (api : Ssl σ) (config : IouringConfig) (sqeFree : Nat → Bool)
    (submits : Nat → Int) (prog : Program σ) (running : Bool) {start : Session σ}
    (hstart : Session.start (IouringCtx.iouringInit config sqeFree submits) prog running =
      some start) (es : List SessionEvent) {stage : Stage σ} {uring : IouringCtx}
    {conn : Connection σ} {running' : Bool}
    (hs : start.run api es = .handshake stage (.start uring conn) running')
    (hconn : conn.state = .handshaking) (fs : List HandshakeEvent) :
    Outcome api (.start uring conn) fs := by
  have hgood := good_run api (good_start config sqeFree submits hstart) es
  rw [hs] at hgood
  exact (story_run api hgood rfl hconn fs).outcome

/-- An SSL object that greets, waits for an answer and is done. -/
def greetingSsl : Ssl Unit where
  doHandshake := fun _ rbio =>
    if rbio = [] then ⟨-1, .wantRead, [], [], [22], ()⟩ else ⟨1, .none, [], [], [20], ()⟩
  read := fun _ rbio _ => ⟨-1, .wantRead, [], rbio, [], ()⟩
  write := fun _ rbio _ => ⟨-1, .other, [], rbio, [], ()⟩

def greeted : List HandshakeEvent :=
  [.call, .kernel (.complete 1 1 [] [] 0), .wake,
    .kernel (.recv 0 0 147 (recvmsgOut 128 [127, 0, 0, 1] (List.replicate 124 0) [1, 2, 3]) true 1),
    .wake, .call]

theorem handshake_outcome_greeted : ∃ uring,
    Outcome greetingSsl (.start uring inboundConn) greeted ∧
    (HandshakeState.run greetingSsl (.start uring inboundConn) greeted).pc = .returned 0 :=
  ⟨_, handshake_outcome greetingSsl smallConfig (fun _ => true) (fun _ => 1)
    (.tunUdpRun inboundConn 5) true rfl [] rfl rfl greeted, rfl⟩

end Dataplane.Proofs
