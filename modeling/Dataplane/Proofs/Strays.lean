import Dataplane.ProofSupport.Feeding
import Dataplane.Proofs.Destinations
import Dataplane.Proofs.Outcome
import Mathlib.Data.Set.Basic

/-!
# Stray datagrams in the handshake

Without its ring a handshake is a machine that is fed with the datagrams it
takes.  A datagram that SSL discards leaves no trace in this machine.  In the
handshake it does: the address is the source of the first datagram, whatever SSL
makes of it.
-/

namespace Dataplane.Model

open ProofSupport

variable {σ : Type}

/-- A datagram that is taken, from the socket of the connection with its source
and its payload, or from another socket. -/
inductive Arrival
  | own (source payload : Bytes)
  | foreign
  deriving DecidableEq

def Arrival.source : Arrival → Option Bytes
  | .own source _ => some source
  | .foreign => none

def Cqe.arrival (fd : Int) (c : Cqe) : Arrival :=
  if c.req.fd = fd then .own c.source c.payload else .foreign

def arrivals (fd : Int) (cs : List Cqe) : List Arrival :=
  (cs.filter fun c => !c.req.opcode.outgoing).map (Cqe.arrival fd)

/-- The source of the first datagram on the socket of the connection. -/
def firstSource (as : List Arrival) : Option Bytes := as.findSome? Arrival.source

def Peer.learnFirst (p : Peer) (as : List Arrival) : Peer := (firstSource as).elim p p.learn

def destinations (rs : List Sqe) : Set Bytes :=
    {name | ∃ r ∈ rs, r.opcode = .sendmsg ∧ r.name = name}

namespace HandshakeState

def taken (first s : HandshakeState σ) : List Cqe :=
  s.uring.ring.seen.drop first.uring.ring.seen.length

def arrived (first s : HandshakeState σ) : List Arrival :=
  arrivals first.conn.udpFd (first.taken s)

def destinations (first s : HandshakeState σ) : Set Bytes :=
  Model.destinations (s.uring.ring.queued.drop first.uring.ring.queued.length)

end HandshakeState

/-! ## The handshake without its ring -/

/-- Where the handshake goes from the call that was answered with `r`, if its
output is sent and nothing of it is left. -/
def SslRet.next (r : SslRet σ) : HandshakePc :=
  if r.ret = 1 then .returned 0
  else if r.ret = 0 then .returned (-1)
  else match r.err with
    | .wantRead => if r.rbio ≠ [] then .returned (-1) else .waiting
    | .wantWrite => .calling
    | _ => .returned (-1)

/-- The SSL object with its read BIO, where the handshake stands, and whether
SSL has written anything so far. -/
structure Shake (σ : Type) where
  ssl : σ
  rbio : Bytes
  pc : HandshakePc
  spoke : Bool

def Shake.call (api : Ssl σ) (s : Shake σ) : Shake σ :=
  let r := api.doHandshake s.ssl s.rbio
  ⟨r.ssl, r.rbio, r.next, s.spoke || decide (r.out ≠ [])⟩

def Shake.take (s : Shake σ) : Arrival → Shake σ
  | .own _ payload => { s with rbio := s.rbio ++ payload, pc := .calling }
  | .foreign => { s with pc := .calling }

/-- The machine calls SSL until it has to wait for a datagram. -/
def Shake.machine (api : Ssl σ) : Feeding.Machine (Shake σ) Arrival where
  busy s := s.pc = .calling
  ready s := s.pc = .waiting
  apart s hready := by rw [hready]; simp
  work := Shake.call api
  read := Shake.take

def HandshakeState.shake (s : HandshakeState σ) : Shake σ :=
  ⟨s.conn.ssl, s.conn.rbio, s.pc, decide (s.written ≠ [])⟩

/-! ## Datagrams without effect -/

/-- The SSL objects that a handshake which starts with `first` calls while it is
not over. -/
inductive Shaking (api : Ssl σ) (first : σ) : σ → Prop
  | first : Shaking api first first
  | again (ssl : σ) (rbio : Bytes) : Shaking api first ssl →
      (∀ ret, (api.doHandshake ssl rbio).next ≠ .returned ret) →
      Shaking api first (api.doHandshake ssl rbio).ssl

/-- Whenever it comes in the handshake, SSL discards the datagram `d` without any
effect. -/
def Ignores (api : Ssl σ) (first : σ) (d : Bytes) : Prop :=
  ∀ ssl, Shaking api first ssl → ∃ ret, ret ≠ 1 ∧ ret ≠ 0 ∧
    api.doHandshake ssl d = ⟨ret, .wantRead, [], [], [], ssl⟩

/-- In a session `do_dtls_handshake` is called in the state `first` and has come
to `s`.  What it has received on the way is what the kernel says. -/
structure Handshakes (api : Ssl σ) (first s : HandshakeState σ) : Prop where
  entered : ∃ (config : IouringConfig) (sqeFree : Nat → Bool) (submits : Nat → Int)
    (prog : Program σ) (running : Bool) (start : Session σ) (es : List SessionEvent)
    (stage : Stage σ) (running' : Bool),
    Session.start (IouringCtx.iouringInit config sqeFree submits) prog running = some start ∧
      start.run api es = .handshake stage first running'
  called : first = .start first.uring first.conn
  reached : ∃ fs, s = first.run api fs
  addressed : ∀ c ∈ first.taken s, c.req.opcode.outgoing = false → c.Addressed

/-- The handshake in `s` since `first` has taken what the one in `s'` since
`first'` has taken, and datagrams that SSL discards. -/
def Strays (api : Ssl σ) (first s first' s' : HandshakeState σ) : Prop :=
  ∃ keep : Arrival → Bool, first'.arrived s' = (first.arrived s).filter keep ∧
    ∀ a ∈ first.arrived s, keep a = false → ∃ source payload, a = .own source payload ∧
      Ignores api first.conn.ssl payload

/-- Both handshakes send to the same addresses, and both end with the same
one. -/
structure Unaffected (first s first' s' : HandshakeState σ) : Prop where
  names : ∀ name ∈ first.destinations s, ∀ name' ∈ first'.destinations s', name' = name
  address : s.pc = .returned 0 → s'.pc = .returned 0 → s'.conn.peer = s.conn.peer
  settled : Proofs.Settled s → Proofs.Settled s' →
    s'.pc = s.pc ∧ first'.destinations s' = first.destinations s

end Dataplane.Model

namespace Dataplane.Proofs

open ProofSupport Model Ledger

variable {σ : Type} {api : Ssl σ} {ssl : σ}

/-! ## The machine -/

theorem next_waiting {r : SslRet σ} (h : r.next = .waiting) : r.rbio = [] := by
  unfold SslRet.next at h
  repeat' split at h
  all_goals first | exact not_not.mp ‹¬ r.rbio ≠ []› | cases h

/-- The state `s` of the machine beside the state `t` of one that does not get
the strays: it is the same, or it is about to read a stray. -/
inductive Shadow (api : Ssl σ) (ssl : σ) : Shake σ → Shake σ → Prop
  | same (s : Shake σ) : ((∀ ret, s.pc ≠ .returned ret) → Shaking api ssl s.ssl) →
      (s.pc = .waiting → s.rbio = []) → Shadow api ssl s s
  | stray (s : Shake σ) (payload : Bytes) : Shaking api ssl s.ssl → s.pc = .waiting →
      s.rbio = [] → Ignores api ssl payload →
      Shadow api ssl { s with rbio := payload, pc := .calling } s

theorem Shadow.work {s t : Shake σ} (h : Shadow api ssl s t) (hpc : s.pc = .calling) :
    t.pc = .calling ∧ Shadow api ssl (s.call api) (t.call api) ∨ Shadow api ssl (s.call api) t := by
  cases h with
  | same _ hopen _ =>
      have hssl := hopen (by rw [hpc]; simp)
      exact .inl ⟨hpc, .same _ (fun hnext => .again _ _ hssl hnext) next_waiting⟩
  | stray _ payload hssl hwait hrbio hignores =>
      obtain ⟨ret, hone, hzero, hanswer⟩ := hignores t.ssl hssl
      have hcall : Shake.call api { t with rbio := payload, pc := .calling } = t := by
        obtain ⟨ssl', rbio, pc, spoke⟩ := t
        obtain rfl : rbio = [] := hrbio
        obtain rfl : pc = .waiting := hwait
        simp [Shake.call, hanswer, SslRet.next, hone, hzero]
      right
      rw [hcall]
      exact .same t (fun _ => hssl) fun _ => hrbio

theorem Shadow.kept {s t : Shake σ} (h : Shadow api ssl s t) (hpc : s.pc = .waiting) (a : Arrival) :
    t.pc = .waiting ∧ Shadow api ssl (s.take a) (t.take a) := by
  cases h with
  | same _ hopen _ =>
      refine ⟨hpc, ?_⟩
      have hssl := hopen (by rw [hpc]; simp)
      cases a <;> exact .same _ (fun _ => hssl) (by simp [Shake.take])
  | stray => cases hpc

theorem Shadow.left {s t : Shake σ} (h : Shadow api ssl s t) (hpc : s.pc = .waiting)
    {payload : Bytes} (hignores : Ignores api ssl payload) (source : Bytes) :
    Shadow api ssl (s.take (.own source payload)) t := by
  cases h with
  | same _ hopen hrbio =>
      have hssl := hopen (by rw [hpc]; simp)
      have htake := Shadow.stray s payload hssl hpc (hrbio hpc) hignores
      rw [Shake.take, hrbio hpc]
      exact htake
  | stray => cases hpc

/-- What the machine has come to when it waits or is done does not depend on the
strays. -/
theorem fed_unaffected {s s' start : Shake σ} {as : List Arrival} {keep : Arrival → Bool}
    (h : Feeding.Fed (Shake.machine api) start as s)
    (h' : Feeding.Fed (Shake.machine api) start (as.filter keep) s') (hstart : start.pc = .calling)
    (hstrays : ∀ a ∈ as, keep a = false → ∃ source payload, a = .own source payload ∧
      Ignores api start.ssl payload)
    (hs : s.pc ≠ .calling) (hs' : s'.pc ≠ .calling) : s' = s := by
  obtain ⟨t, ht, hshadow⟩ := h.filter keep (fun a => keep a = false → ∃ source payload,
    a = .own source payload ∧ Ignores api start.ssl payload) (Shadow api start.ssl)
    (.same start (fun _ => .first) (by rw [hstart]; simp)) (fun s t hst => hst.work)
    (fun s t a hst hready _ => hst.kept hready a)
    (fun s t a hst ha hready hkeep => by
      obtain ⟨source, payload, rfl, hignores⟩ := ha hkeep
      exact hst.left hready hignores source) hstrays
  cases hshadow with
  | same => exact h'.unique ht hs' hs
  | stray => exact absurd rfl hs

/-! ## The handshake is the machine -/

variable {s : HandshakeState σ}

theorem conclude_next {mid : HandshakeState σ} {r : SslRet σ} (hrbio : mid.conn.rbio = r.rbio)
    (hpc : (mid.conclude r.ret r.err).pc ≠ .returned (-1)) :
    (mid.conclude r.ret r.err).shake = { mid.shake with pc := r.next } := by
  unfold SslRet.next
  unfold HandshakeState.conclude at hpc ⊢
  rw [← hrbio]
  repeat' split at hpc
  all_goals first | exact absurd rfl hpc | simp_all [HandshakeState.shake]

/-- A call that does not fail is a call of the machine. -/
theorem call_shake (hpc : (s.call api).pc ≠ .returned (-1)) :
    (s.call api).shake = s.shake.call api := by
  obtain ⟨mid, hmid, ⟨-, hcall⟩ | ⟨-, hcall⟩⟩ := call_cases api s
  · rw [hcall] at hpc ⊢
    rw [conclude_next hmid.rbio hpc]
    simp only [HandshakeState.shake, Shake.call, hmid.ssl, hmid.rbio, hmid.written, ne_eq,
      List.append_eq_nil_iff, not_and_or, Bool.decide_or]
    rfl
  · rw [hcall] at hpc
    exact absurd rfl hpc

theorem takeCqe_written (s : HandshakeState σ) (c : Cqe) (cq : List Cqe) :
    (s.takeCqe c cq).written = s.written := by
  unfold HandshakeState.takeCqe
  rcases (s.uring.iouringCqeSeen c cq).waitForRecvBody c with ⟨_ | op | _, ctx⟩
  · rfl
  · dsimp only
    split <;> rfl
  · rfl

/-! ## Histories -/

theorem arrivals_append (fd : Int) (cs ds : List Cqe) :
    arrivals fd (cs ++ ds) = arrivals fd cs ++ arrivals fd ds := by
  simp [arrivals]

theorem arrivals_outgoing {c : Cqe} (h : c.req.opcode.outgoing = true) (fd : Int) :
    arrivals fd [c] = [] := by
  simp [arrivals, h]

theorem arrivals_incoming {c : Cqe} (h : c.req.opcode.outgoing = false) (fd : Int) :
    arrivals fd [c] = [c.arrival fd] := by
  simp [arrivals, h]

theorem firstSource_append (as bs : List Arrival) :
    firstSource (as ++ bs) = (firstSource as).or (firstSource bs) :=
  List.findSome?_append

theorem destinations_append (rs ss : List Sqe) :
    destinations (rs ++ ss) = destinations rs ∪ destinations ss := by
  ext name
  simp only [destinations, Set.mem_union, Set.mem_ofPred_eq, List.mem_append, or_and_right,
    exists_or]

theorem destinations_none {rs : List Sqe} (h : ∀ r ∈ rs, r.opcode ≠ .sendmsg) :
    destinations rs = ∅ := by
  apply Set.eq_empty_of_forall_notMem
  rintro name ⟨r, hr, hsend, -⟩
  exact h r hr hsend

/-! ## A run -/

structure Going (api : Ssl σ) (first : HandshakeState σ) (as : List Arrival) (names : Set Bytes)
    (s : HandshakeState σ) : Prop where
  peer : s.conn.peer = first.conn.peer.learnFirst as
  sourced : ∀ source, firstSource as = some source → 0 < source.length
  fed : Feeding.Fed (Shake.machine api) first.shake as s.shake
  quiet : s.written = [] → s.conn.wbio = []
  spoke : s.written ≠ [] ↔ names.Nonempty

/-- What was sent went to the first source, also when the handshake has failed. -/
structure Tale (api : Ssl σ) (first : HandshakeState σ) (as : List Arrival) (names : Set Bytes)
    (s : HandshakeState σ) : Prop where
  named : ∀ name ∈ names, firstSource as = some name
  going : s.pc ≠ .returned (-1) → Going api first as names s

variable {first : HandshakeState σ} {as : List Arrival} {names : Set Bytes} {Fresh : σ → Prop}

theorem learnFirst_none (h : firstSource as = none) (p : Peer) : p.learnFirst as = p := by
  rw [Peer.learnFirst, h]
  rfl

theorem learnFirst_some {source : Bytes} (h : firstSource as = some source) (p : Peer) :
    p.learnFirst as = p.learn source := by
  rw [Peer.learnFirst, h]
  rfl

theorem Going.firstSource (h : Going api first as names s) (hserver : first.conn.addrLen = 0) :
    s.conn.addrLen = 0 ↔ firstSource as = none := by
  have hlen : s.conn.addrLen = (first.conn.peer.learnFirst as).addrLen :=
    congrArg Peer.addrLen h.peer
  rw [hlen]
  cases hsource : Model.firstSource as with
  | none => simpa [learnFirst_none hsource, Connection.peer] using hserver
  | some source =>
      have hpos := h.sourced source hsource
      rw [learnFirst_some hsource, Peer.learn]
      simp only [reduceCtorEq, iff_false]
      omega

theorem call_silent (h : s.pending api = []) : (s.call api).uring = s.uring := by
  have hcall := call_eq api s
  rw [if_pos (by rw [h, List.length_nil])] at hcall
  rw [hcall, (conclude_frame _ _ _).1]

/-- A call that does not fail says something exactly when it sends something. -/
theorem Going.call_spoke (h : Going api first as names s)
    (hpc : (s.call api).pc ≠ .returned (-1)) {outs : List Sqe}
    (houts : (s.call api).uring.ring.queued = s.uring.ring.queued ++ outs) :
    ((s.call api).written = [] → (s.call api).conn.wbio = []) ∧
      ((s.call api).written ≠ [] ↔ (names ∪ destinations outs).Nonempty) := by
  obtain ⟨mid, hmid, ⟨hsent, hcall⟩ | ⟨-, hcall⟩⟩ := call_cases api s
  · obtain ⟨-, hwbio, -, hwritten, -⟩ :=
      conclude_frame mid (s.answer api).ret (s.answer api).err
    rw [← hcall, hmid.wbio] at hwbio
    rw [← hcall, hmid.written] at hwritten
    rw [hwbio, hwritten]
    by_cases hpending : s.pending api = []
    · obtain ⟨-, hout⟩ := List.append_eq_nil_iff.mp hpending
      rw [call_silent hpending] at houts
      have hnil : outs = [] := List.append_right_eq_self.mp houts.symm
      rw [hpending, hout, hnil, List.append_nil, destinations_none (by simp), Set.union_empty]
      exact ⟨fun _ => List.drop_nil, h.spoke⟩
    · obtain ⟨q, hq, hsend, -⟩ := hsent hpending
      have hone : outs = [q] := List.append_cancel_left (houts.symm.trans hq)
      have hne : s.written ++ (s.answer api).out ≠ [] := by
        intro hnil
        obtain ⟨hbefore, hout⟩ := List.append_eq_nil_iff.mp hnil
        apply hpending
        rw [HandshakeState.pending, h.quiet hbefore, hout, List.append_nil]
      refine ⟨fun hnil => absurd hnil hne, fun _ => ?_, fun _ => hne⟩
      exact ⟨q.name, Or.inr ⟨q, by rw [hone]; simp, hsend, rfl⟩⟩
  · rw [hcall] at hpc
    exact absurd rfl hpc

theorem Tale.call (hsilent : Silent api Fresh) (hserver : first.conn.addrLen = 0)
    (h : Tale api first as names s) (hsound : HandshakeSound s)
    (hled : s.conn.addrLen = 0 → s.conn.Unread Fresh) (hpc : s.pc = .calling) {outs : List Sqe}
    (houts : (s.call api).uring.ring.queued = s.uring.ring.queued ++ outs) :
    Tale api first as (names ∪ destinations outs) (s.call api) := by
  have hgoing := h.going (by rw [hpc]; simp)
  obtain ⟨⟨held, taken, hinv⟩, -⟩ := hsound (by rw [hpc]; simp)
  obtain ⟨outs', hcalled⟩ := hinv.call api
  obtain rfl : outs = outs' := List.append_cancel_left (houts.symm.trans hcalled.effect.queued)
  refine ⟨fun name hname => ?_, fun hpc' => ?_⟩
  · rcases hname with hname | ⟨r, hr, -, rfl⟩
    · exact h.named name hname
    cases hsource : Model.firstSource as with
    | none =>
        have hunread := hled ((hgoing.firstSource hserver).mpr hsource)
        rw [(call_unread hsilent hunread).1] at houts
        have hnil : outs = [] := List.append_right_eq_self.mp houts.symm
        rw [hnil] at hr
        cases hr
    | some source =>
        have haddr := (hcalled.entry r hr).addresses
        rw [hgoing.peer, learnFirst_some hsource] at haddr
        have hname := haddr.name (by simp [Peer.learn])
        rw [hname]
        exact congrArg some (Bytes.take_overwrite first.conn.addr source).symm
  · obtain ⟨hquiet, hspoke⟩ := hgoing.call_spoke hpc' houts
    obtain ⟨hfd, haddr, hlen⟩ := hcalled.conn
    have hpeer : (s.call api).conn.peer = s.conn.peer := by
      simp only [Connection.peer, hfd, haddr, hlen]
    refine ⟨hpeer.trans hgoing.peer, hgoing.sourced, ?_, hquiet, hspoke⟩
    rw [call_shake hpc']
    exact hgoing.fed.work hpc

theorem Tale.failed (h : Tale api first as names s) {s' : HandshakeState σ}
    (hpc : s'.pc = .returned (-1)) (bs : List Arrival) : Tale api first (as ++ bs) names s' := by
  refine ⟨fun name hname => ?_, fun hgoes => absurd hpc hgoes⟩
  rw [firstSource_append, h.named name hname]
  rfl

theorem Going.own (h : Going api first as names s) (hserver : first.conn.addrLen = 0)
    (hpc : s.pc = .waiting) {c : Cqe} {mid : IouringCtx} {got : Multiset OpId} {idx : Multiset Nat}
    (hrecv : Received mid c c.req.userData got idx) (hcode : c.req.opcode = .recvmsgMultishot)
    (hc : c.Addressed) {s' : HandshakeState σ}
    (hconn : s'.conn = { (learnAddr mid s.conn c.req.userData).2 with
        rbio := (bioWrite s.conn.rbio (mid.load (mid.ops c.req.userData).buffer
          (mid.ops c.req.userData).dataLen.toNat) (mid.ops c.req.userData).dataLen).2 })
    (hpc' : s'.pc = .calling) (hwritten : s'.written = s.written) :
    Going api first (as ++ [.own c.source c.payload]) names s' := by
  obtain ⟨hload, hlen⟩ := hrecv.payload hc.honest
  rw [hload, hlen, bioWrite_all] at hconn
  have hssl := learnAddr_ssl mid s.conn c.req.userData
  have hwbio := learnAddr_wbio mid s.conn c.req.userData
  have hpeer : s'.conn.peer = (learnAddr mid s.conn c.req.userData).2.peer := by
    rw [hconn]
    rfl
  have htype : (mid.ops c.req.userData).opType = .udpRecv := by
    rw [hrecv.opType, hcode]
    rfl
  have hsource : 0 < c.source.length := by
    rw [← (hrecv.source hcode hc).2]
    exact hrecv.addrLen htype
  refine ⟨?_, fun source hfirst => ?_, ?_, fun hnil => ?_, ?_⟩
  · rw [hpeer]
    by_cases hzero : s.conn.addrLen = 0
    · have hnone := (h.firstSource hserver).mp hzero
      have hnew : Model.firstSource (as ++ [.own c.source c.payload]) = some c.source := by
        rw [firstSource_append, hnone]
        rfl
      rw [(hrecv.learn hcode hzero).2.2 hc, h.peer, learnFirst_none hnone, learnFirst_some hnew]
    · rw [learnAddr_of_pos _ _ hzero, h.peer]
      have hsome : Model.firstSource as ≠ none := fun hnone =>
        hzero ((h.firstSource hserver).mpr hnone)
      obtain ⟨source, hfirst⟩ := Option.ne_none_iff_exists'.mp hsome
      have hsame : Model.firstSource (as ++ [.own c.source c.payload]) = some source := by
        rw [firstSource_append, hfirst]
        rfl
      rw [learnFirst_some hfirst, learnFirst_some hsame]
  · rw [firstSource_append, Option.or_eq_some_iff] at hfirst
    rcases hfirst with hfirst | ⟨-, hfirst⟩
    · exact h.sourced source hfirst
    · obtain rfl := Option.some.inj hfirst
      exact hsource
  · have hshake : s'.shake = s.shake.take (.own c.source c.payload) := by
      simp only [HandshakeState.shake, Shake.take, hconn, hssl, hpc', hwritten]
    rw [hshake]
    exact h.fed.read _ hpc
  · rw [hconn]
    exact hwbio.trans (h.quiet (hwritten.symm.trans hnil))
  · rw [hwritten]
    exact h.spoke

theorem Tale.takeCqe (hserver : first.conn.addrLen = 0) (h : Tale api first as names s)
    (hsound : HandshakeSound s) {sockets : List Int}
    (harmed : receives s.uring.ring.outstanding = multishots sockets)
    (hfd : s.conn.udpFd = first.conn.udpFd) (hpc : s.pc = .waiting) {c : Cqe} {cq : List Cqe}
    (hcq : s.uring.ring.cq = c :: cq) (hc : c.req.opcode.outgoing = false → c.Addressed) :
    Tale api first (as ++ arrivals first.conn.udpFd [c]) names (s.takeCqe c cq) := by
  have hgoing := h.going (by rw [hpc]; simp)
  have hwritten := takeCqe_written s c cq
  obtain ⟨⟨held, taken, hinv⟩, hreqs⟩ := hsound (by rw [hpc]; simp)
  obtain ⟨ins, -, -, hconsumed⟩ := hinv.consume hreqs hpc hcq
  generalize s.takeCqe c cq = s' at *
  -- a datagram leaves the addresses that were sent to
  have hgoes : Going api first (as ++ arrivals first.conn.udpFd [c]) names s' →
      Tale api first (as ++ arrivals first.conn.udpFd [c]) names s' := by
    intro hnew
    refine ⟨fun name hname => ?_, fun _ => hnew⟩
    rw [firstSource_append, h.named name hname]
    rfl
  cases hconsumed with
  | stopped _ hstop => exact h.failed hstop _
  | sent hout hconn hwait _ =>
      apply hgoes
      have hshake : s'.shake = s.shake := by
        simp only [HandshakeState.shake, hconn, hwait, hpc, hwritten]
      rw [arrivals_outgoing hout, List.append_nil]
      exact ⟨by rw [hconn, hgoing.peer], hgoing.sourced, by rw [hshake]; exact hgoing.fed,
        by rw [hconn, hwritten]; exact hgoing.quiet, by rw [hwritten]; exact hgoing.spoke⟩
  | foreign got idx _ hin hforeign hconn hcalling _ =>
      apply hgoes
      have harrival : c.arrival first.conn.udpFd = .foreign := by
        rw [Cqe.arrival, if_neg (hfd ▸ hforeign)]
      have hsame : Model.firstSource (as ++ [.foreign]) = Model.firstSource as := by
        rw [firstSource_append]
        exact Option.or_none
      have hshake : s'.shake = s.shake.take .foreign := by
        simp only [HandshakeState.shake, Shake.take, hconn, hcalling, hwritten]
      rw [arrivals_incoming hin, harrival]
      refine ⟨?_, ?_, ?_, by rw [hconn, hwritten]; exact hgoing.quiet,
        by rw [hwritten]; exact hgoing.spoke⟩
      · rw [hconn, hgoing.peer, Peer.learnFirst, Peer.learnFirst, hsame]
      · rw [hsame]
        exact hgoing.sourced
      · rw [hshake]
        exact hgoing.fed.read _ hpc
  | own mid got idx _ hin hown hrecv hconn hcalling _ =>
      apply hgoes
      have harrival : c.arrival first.conn.udpFd = .own c.source c.payload := by
        rw [Cqe.arrival, if_pos (hfd ▸ hown)]
      have htype : c.req.opcode.opType = .udpRecv := by
        apply (hreqs.seen hcq).1.resolve_left
        intro hsend
        rw [hsend] at hin
        cases hin
      have hlisten : receives s.uring.ring.outstanding =
          Multiset.replicate 0 (.read, 0) + multishots sockets := by
        rw [Multiset.replicate_zero, zero_add]
        exact harmed
      have hcode := (hinv.armed_datagram hlisten (by rw [hcq]; exact List.mem_cons_self) htype).1
      rw [arrivals_incoming hin, harrival]
      exact hgoing.own hserver hpc hrecv hcode (hc hin) hconn hcalling hwritten

structure Course (api : Ssl σ) (Fresh : σ → Prop) (sockets : List Int) (first : HandshakeState σ)
    (cs : List Cqe) (rs : List Sqe) (s : HandshakeState σ) : Prop where
  sound : HandshakeSound s
  armed : s.pc ≠ .returned (-1) → receives s.uring.ring.outstanding = multishots sockets
  seen : s.uring.ring.seen = first.uring.ring.seen ++ cs
  queued : s.uring.ring.queued = first.uring.ring.queued ++ rs
  udpFd : s.conn.udpFd = first.conn.udpFd
  led : s.conn.addrLen = 0 → s.conn.Unread Fresh ∧ s.pc ≠ .returned 0
  tale : (∀ c ∈ cs, c.req.opcode.outgoing = false → c.Addressed) →
    Tale api first (arrivals first.conn.udpFd cs) (destinations rs) s

variable {sockets : List Int} {cs : List Cqe} {rs : List Sqe}

theorem Course.extend (hsilent : Silent api Fresh) (h : Course api Fresh sockets first cs rs s)
    (e : HandshakeEvent) {ds : List Cqe} {ss : List Sqe}
    (hseen : (s.step api e).uring.ring.seen = s.uring.ring.seen ++ ds)
    (hqueued : (s.step api e).uring.ring.queued = s.uring.ring.queued ++ ss)
    (hfd : (s.step api e).conn.udpFd = s.conn.udpFd)
    (htale : Tale api first (arrivals first.conn.udpFd cs) (destinations rs) s →
      (∀ c ∈ ds, c.req.opcode.outgoing = false → c.Addressed) →
      Tale api first (arrivals first.conn.udpFd (cs ++ ds)) (destinations (rs ++ ss))
        (s.step api e)) :
    Course api Fresh sockets first (cs ++ ds) (rs ++ ss) (s.step api e) where
  sound := h.sound.step e
  armed := by
    intro hpc
    have hbefore : s.pc ≠ .returned (-1) := fun hstop => hpc (step_returned hstop e)
    rw [h.sound.receives e hpc]
    exact h.armed hbefore
  seen := by rw [hseen, h.seen, List.append_assoc]
  queued := by rw [hqueued, h.queued, List.append_assoc]
  udpFd := hfd.trans h.udpFd
  led := HandshakeSound.led_step hsilent h.sound h.led e
  tale := by
    intro hc
    exact htale (h.tale fun c hmem => hc c (List.mem_append_left ds hmem))
      fun c hmem => hc c (List.mem_append_right cs hmem)

theorem Course.idle (hsilent : Silent api Fresh) (h : Course api Fresh sockets first cs rs s)
    (e : HandshakeEvent) (hseen : (s.step api e).uring.ring.seen = s.uring.ring.seen)
    (hqueued : (s.step api e).uring.ring.queued = s.uring.ring.queued)
    (hfd : (s.step api e).conn.udpFd = s.conn.udpFd)
    (htale : Tale api first (arrivals first.conn.udpFd cs) (destinations rs) s →
      Tale api first (arrivals first.conn.udpFd cs) (destinations rs) (s.step api e)) :
    ∃ ds ss, Course api Fresh sockets first (cs ++ ds) (rs ++ ss) (s.step api e) := by
  refine ⟨[], [], h.extend hsilent e (by rw [hseen, List.append_nil])
    (by rw [hqueued, List.append_nil]) hfd fun hbefore _ => ?_⟩
  rw [List.append_nil, List.append_nil]
  exact htale hbefore

theorem Course.step (hsilent : Silent api Fresh) (hserver : first.conn.addrLen = 0)
    (h : Course api Fresh sockets first cs rs s) (e : HandshakeEvent) :
    ∃ ds ss, Course api Fresh sockets first (cs ++ ds) (rs ++ ss) (s.step api e) := by
  cases e with
  | kernel e =>
      obtain ⟨hseen, hqueued⟩ := kernel_histories s.uring e
      apply h.idle hsilent (.kernel e) hseen hqueued rfl
      intro htale
      exact ⟨htale.named, fun hpc =>
        have hgoing := htale.going hpc
        ⟨hgoing.peer, hgoing.sourced, hgoing.fed, hgoing.quiet, hgoing.spoke⟩⟩
  | waitError =>
      by_cases hpc : s.pc = .waiting
      · have hstep : s.step api .waitError = { s with pc := .returned (-1) } := by
          simp only [HandshakeState.step, if_pos hpc]
        apply h.idle hsilent _ (by rw [hstep]) (by rw [hstep]) (by rw [hstep])
        intro htale
        have hpc' : (s.step api .waitError).pc = .returned (-1) := by rw [hstep]
        have hfailed := htale.failed hpc' []
        rwa [List.append_nil] at hfailed
      · have hstep : s.step api .waitError = s := by
          simp only [HandshakeState.step, if_neg hpc]
        apply h.idle hsilent _ (by rw [hstep]) (by rw [hstep]) (by rw [hstep])
        rw [hstep]
        exact id
  | call =>
      by_cases hpc : s.pc = .calling
      · have hstep : s.step api .call = s.call api := by
          rw [HandshakeState.step, if_pos hpc]
        obtain ⟨⟨held, taken, hinv⟩, -⟩ := h.sound (by rw [hpc]; simp)
        obtain ⟨outs, hcalled⟩ := hinv.call api
        refine ⟨[], outs, h.extend hsilent .call ?_ ?_ ?_ fun htale _ => ?_⟩
        · rw [hstep, hcalled.effect.seen, List.append_nil]
        · rw [hstep, hcalled.effect.queued]
        · rw [hstep, hcalled.conn.1]
        · rw [hstep, List.append_nil, destinations_append]
          exact htale.call hsilent hserver h.sound (fun hzero => (h.led hzero).1) hpc
            hcalled.effect.queued
      · have hstep : s.step api .call = s := by
          rw [HandshakeState.step, if_neg hpc]
        apply h.idle hsilent _ (by rw [hstep]) (by rw [hstep]) (by rw [hstep])
        rw [hstep]
        exact id
  | wake =>
      by_cases hwait : s.pc = .waiting ∧ s.uring.ring.cq ≠ []
      · obtain ⟨hpc, hne⟩ := hwait
        obtain ⟨c, cq, hcq⟩ := List.exists_cons_of_ne_nil hne
        have hstep : s.step api .wake = s.takeCqe c cq := by
          simp only [HandshakeState.step, hpc, hcq]
        obtain ⟨⟨held, taken, hinv⟩, hreqs⟩ := h.sound (by rw [hpc]; simp)
        obtain ⟨ins, heff, hin, hconsumed⟩ := hinv.consume hreqs hpc hcq
        refine ⟨[c], ins, h.extend hsilent .wake ?_ ?_ ?_ fun htale hc => ?_⟩
        · rw [hstep]
          exact heff.seen
        · rw [hstep]
          exact heff.queued
        · rw [hstep]
          cases hconsumed with
          | sent _ hconn _ _ => rw [hconn]
          | stopped hconn _ => rw [hconn]
          | foreign _ _ _ _ _ hconn _ _ => rw [hconn]
          | own mid _ _ _ _ _ _ hconn _ _ =>
              rw [hconn]
              exact learnAddr_udpFd mid s.conn c.req.userData
        · rw [hstep, arrivals_append, destinations_append,
            destinations_none fun r hr => not_sendmsg (hin r hr).outgoing, Set.union_empty]
          exact htale.takeCqe hserver h.sound (h.armed (by rw [hpc]; simp)) h.udpFd hpc hcq
            (hc c (List.mem_singleton_self c))
      · have hstep : s.step api .wake = s := by
          simp only [HandshakeState.step]
          split
          · rename_i hpc hcq
            exact absurd ⟨hpc, by rw [hcq]; simp⟩ hwait
          · rfl
        apply h.idle hsilent _ (by rw [hstep]) (by rw [hstep]) (by rw [hstep])
        rw [hstep]
        exact id

theorem Handshakes.course (hsilent : Silent api Fresh) (h : Handshakes api first s)
    (hserver : first.conn.addrLen = 0) (hunread : first.conn.Unread Fresh) :
    Tale api first (first.arrived s) (first.destinations s) s ∧
      (s.conn.addrLen = 0 → s.pc ≠ .returned 0) := by
  obtain ⟨config, sqeFree, submits, prog, running, start, es, stage, running', hstart, hs⟩ :=
    h.entered
  have hwired := Wired.run api (wired_start config sqeFree submits hstart) es
  rw [hs] at hwired
  have hpc : first.pc = .calling := by
    rw [h.called]
    rfl
  have hquiet : first.written = [] := by
    rw [h.called]
    exact hunread.wbio
  obtain ⟨fs, hreached⟩ := h.reached
  obtain ⟨cs, rs, hcourse⟩ : ∃ cs rs, Course api Fresh prog.sockets first cs rs
      (first.run api fs) := by
    apply Execution.run_invariant (fun _ => True)
      (fun t => ∃ cs rs, Course api Fresh prog.sockets first cs rs t) _ (fun _ _ => trivial)
    · refine ⟨[], [], hwired.good, hwired.armed, (List.append_nil _).symm,
        (List.append_nil _).symm, rfl, fun _ => ⟨hunread, by rw [hpc]; simp⟩, fun _ => ?_⟩
      rw [destinations_none (by simp)]
      refine ⟨by simp, fun _ => ⟨rfl, fun source hsource => (nomatch hsource), .start,
        fun _ => hunread.wbio, ?_⟩⟩
      simp [hquiet]
    · rintro t e - ⟨cs, rs, ht⟩
      obtain ⟨ds, ss, ht'⟩ := ht.step hsilent hserver e
      exact ⟨cs ++ ds, rs ++ ss, ht'⟩
  rw [← hreached] at hcourse
  have htaken : first.taken s = cs := by
    rw [HandshakeState.taken, hcourse.seen, List.drop_left]
  have hsent : first.destinations s = destinations rs := by
    rw [HandshakeState.destinations, hcourse.queued, List.drop_left]
  have haddressed := h.addressed
  rw [htaken] at haddressed
  refine ⟨?_, fun hzero => (hcourse.led hzero).2⟩
  rw [HandshakeState.arrived, htaken, hsent]
  exact hcourse.tale haddressed

/-- A server that shakes hands with an SSL server which is silent until it has
read a datagram sends to the source of the first datagram on its socket.  The
datagrams that SSL discards change neither that nor the address in the end if
the first datagram comes from where the first one comes from that is left when
they are removed; once there is a destination or an end, only then. -/
theorem handshake_unaffected (api : Ssl σ) {Fresh : σ → Prop} (hsilent : Silent api Fresh)
    {first s first' s' : HandshakeState σ} (h : Handshakes api first s)
    (h' : Handshakes api first' s') (hconn : first'.conn = first.conn)
    (hserver : first.conn.addrLen = 0) (hunread : first.conn.Unread Fresh)
    (hstrays : Strays api first s first' s') :
    (s.pc = .returned 0 → s.conn.peer = first.conn.peer.learnFirst (first.arrived s)) ∧
    (firstSource (first.arrived s) = firstSource (first'.arrived s') →
      Unaffected first s first' s') ∧
    (Settled s → Settled s' → s.pc = .returned 0 ∨ (first.destinations s).Nonempty →
      Unaffected first s first' s' →
      firstSource (first.arrived s) = firstSource (first'.arrived s')) := by
  obtain ⟨htale, hled⟩ := Handshakes.course hsilent h hserver hunread
  obtain ⟨htale', hled'⟩ := Handshakes.course hsilent h' (by rw [hconn]; exact hserver)
    (by rw [hconn]; exact hunread)
  have hgoes : ∀ {t : HandshakeState σ}, Settled t → t.pc ≠ .returned (-1) ∧ t.pc ≠ .calling := by
    rintro t (hpc | hpc) <;> rw [hpc] <;> simp
  have hshake : Settled s → Settled s' → s'.shake = s.shake := by
    intro hs hs'
    obtain ⟨keep, hkept, hignored⟩ := hstrays
    have hstart : first'.shake = first.shake := by
      rw [h.called, h'.called, hconn]
      rfl
    have hfed := (htale.going (hgoes hs).1).fed
    have hfed' := (htale'.going (hgoes hs').1).fed
    rw [hkept, hstart] at hfed'
    exact fed_unaffected hfed hfed' (by rw [h.called]; rfl) hignored (hgoes hs).2 (hgoes hs').2
  have hspoke : Settled s → Settled s' →
      ((first'.destinations s').Nonempty ↔ (first.destinations s).Nonempty) := by
    intro hs hs'
    have hsame : decide (s'.written ≠ []) = decide (s.written ≠ []) :=
      congrArg Shake.spoke (hshake hs hs')
    rw [← (htale.going (hgoes hs).1).spoke, ← (htale'.going (hgoes hs').1).spoke]
    exact decide_eq_decide.mp hsame
  refine ⟨fun hpc => (htale.going (by rw [hpc]; simp)).peer, ?_, ?_⟩
  · intro hsource
    have hnames : ∀ name ∈ first.destinations s, ∀ name' ∈ first'.destinations s',
      name' = name := by
      intro name hname name' hname'
      have heq := htale'.named name' hname'
      rw [← hsource, htale.named name hname] at heq
      exact (Option.some.inj heq).symm
    refine ⟨hnames, fun hpc hpc' => ?_, fun hs hs' => ⟨congrArg Shake.pc (hshake hs hs'), ?_⟩⟩
    · rw [(htale.going (by rw [hpc]; simp)).peer, (htale'.going (by rw [hpc']; simp)).peer, hconn,
        Peer.learnFirst, Peer.learnFirst, hsource]
    · ext name
      constructor
      · intro hname
        obtain ⟨other, hother⟩ := (hspoke hs hs').mp ⟨name, hname⟩
        rw [hnames other hother name hname]
        exact hother
      · intro hname
        obtain ⟨other, hother⟩ := (hspoke hs hs').mpr ⟨name, hname⟩
        rw [← hnames name hname other hother]
        exact hother
  · rintro hs hs' (hpc | ⟨name, hname⟩) hsame
    · have hpc' : s'.pc = .returned 0 := (congrArg Shake.pc (hshake hs hs')).trans hpc
      have hgoing := htale.going (hgoes hs).1
      have hgoing' := htale'.going (hgoes hs').1
      have hserver' : first'.conn.addrLen = 0 := by
        rw [hconn]
        exact hserver
      have hsome : firstSource (first.arrived s) ≠ none := fun hnone =>
        hled ((hgoing.firstSource hserver).mpr hnone) hpc
      have hsome' : firstSource (first'.arrived s') ≠ none := fun hnone =>
        hled' ((hgoing'.firstSource hserver').mpr hnone) hpc'
      obtain ⟨source, hsource⟩ := Option.ne_none_iff_exists'.mp hsome
      obtain ⟨source', hsource'⟩ := Option.ne_none_iff_exists'.mp hsome'
      have hpeer := hsame.address hpc hpc'
      rw [hgoing.peer, hgoing'.peer, learnFirst_some hsource, learnFirst_some hsource', hconn]
        at hpeer
      have hlen : source'.length = source.length := congrArg Peer.addrLen hpeer
      have haddr : Bytes.overwrite first.conn.addr source' =
        Bytes.overwrite first.conn.addr source :=
        congrArg Peer.addr hpeer
      rw [hsource, hsource', ← Bytes.take_overwrite first.conn.addr source, ← haddr, ← hlen,
        Bytes.take_overwrite]
    · have hname' : name ∈ first'.destinations s' := by
        rw [(hsame.settled hs hs').2]
        exact hname
      rw [htale.named name hname, htale'.named name hname']

/-! ## A stray datagram before and behind the first one of the client -/

instance (c : Cqe) : Decidable c.Addressed :=
  decidable_of_iff (c.Honest ∧ Bytes.readLe32 c.data ≤ sizeofSockaddrStorage)
    ⟨fun h => ⟨h.1, h.2⟩, fun h => ⟨h.honest, h.namelen⟩⟩

/-- An SSL server that shakes hands with the datagrams `1` and `2` of its client
and discards any other. -/
def pickySsl : Ssl Unit where
  doHandshake := fun _ rbio =>
    if rbio = [1] then ⟨-1, .wantRead, [], [], [20], ()⟩
    else if rbio = [2] then ⟨1, .none, [], [], [21], ()⟩
    else ⟨-1, .wantRead, [], [], [], ()⟩
  read := fun _ rbio _ => ⟨-1, .wantRead, [], rbio, [], ()⟩
  write := fun _ rbio _ => ⟨-1, .other, [], rbio, [], ()⟩

theorem pickySsl_silent : Silent pickySsl fun _ => True where
  fresh _ _ := trivial
  rbio _ _ := rfl
  out _ _ := rfl
  waits _ _ := by simp [pickySsl]

def pickyFirst : HandshakeState Unit :=
  .start ((armReceives true (IouringCtx.iouringInit smallConfig (fun _ => true) fun _ => 1)
      [3]).getD
    (IouringCtx.iouringInit smallConfig (fun _ => true) fun _ => 1)) smallServer

def comes (host byte : UInt8) : List HandshakeEvent :=
  [.kernel (.recv 0 1 145 (recvmsgOut 128 [10, 0, 0, host] (List.replicate 124 0) [byte]) true 0),
    .wake, .call]

theorem picky_handshakes (fs : List HandshakeEvent)
    (h : ∀ c ∈ pickyFirst.taken (pickyFirst.run pickySsl fs), c.req.opcode.outgoing = false →
      c.Addressed) : Handshakes pickySsl pickyFirst (pickyFirst.run pickySsl fs) where
  entered := ⟨smallConfig, fun _ => true, fun _ => 1, .tunUdpRun smallServer 5, true, _, [],
    .edge 5, true, rfl, rfl⟩
  called := rfl
  reached := ⟨fs, rfl⟩
  addressed := h

theorem pickySsl_ignores {d : Bytes} (hone : d ≠ [1]) (htwo : d ≠ [2]) (ssl : Unit) :
    Ignores pickySsl ssl d := by
  intro ssl _
  refine ⟨-1, by decide, by decide, ?_⟩
  simp only [pickySsl, if_neg hone, if_neg htwo]

/-- A stray datagram in front of the client's first one takes the handshake
along. -/
theorem strayFirst_not_unaffected : ∃ s s', pickyFirst.conn.addrLen = 0 ∧
    Handshakes pickySsl pickyFirst s ∧ Handshakes pickySsl pickyFirst s' ∧
    Strays pickySsl pickyFirst s pickyFirst s' ∧ ¬ Unaffected pickyFirst s pickyFirst s' := by
  refine ⟨pickyFirst.run pickySsl (.call :: comes 66 0 ++ comes 1 1 ++ comes 1 2),
    pickyFirst.run pickySsl (.call :: comes 1 1 ++ comes 1 2), rfl,
      picky_handshakes _ (by decide +kernel),
    picky_handshakes _ (by decide +kernel),
      ⟨fun a => decide (a ≠ .own [10, 0, 0, 66] [0]), by decide +kernel, ?_⟩,
    fun h => ?_⟩
  · intro a _ hstray
    obtain rfl : a = .own [10, 0, 0, 66] [0] := by simpa using hstray
    exact ⟨_, _, rfl, pickySsl_ignores (by decide) (by decide) ()⟩
  · have hpeer := h.address (by decide) (by decide)
    revert hpeer
    decide

/-- Behind the client's first datagram it does not. -/
theorem handshake_unaffected_behind :
    Unaffected pickyFirst (pickyFirst.run pickySsl (.call :: comes 1 1 ++ comes 66 0 ++ comes 1 2))
      pickyFirst (pickyFirst.run pickySsl (.call :: comes 1 1 ++ comes 1 2)) := by
  refine (handshake_unaffected pickySsl pickySsl_silent (picky_handshakes _ (by decide +kernel))
    (picky_handshakes _ (by decide +kernel)) rfl rfl ⟨trivial, rfl, rfl⟩
    ⟨fun a => decide (a ≠ .own [10, 0, 0, 66] [0]), by decide +kernel, ?_⟩).2.1 (by decide)
  intro a _ hstray
  obtain rfl : a = .own [10, 0, 0, 66] [0] := by simpa using hstray
  exact ⟨_, _, rfl, pickySsl_ignores (by decide) (by decide) ()⟩

end Dataplane.Proofs
