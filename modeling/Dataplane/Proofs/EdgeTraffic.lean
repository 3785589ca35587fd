import Dataplane.ProofSupport.Relaying
import Dataplane.Proofs.Isolation
import Dataplane.Proofs.Validation

/-!
# What passes through an edge

`edge` takes packets from its TUN device and passes them to `SSL_write`, and it
writes to its TUN device what `SSL_read` delivers.  In the handshake in front of
the loop there is no traffic on the TUN device.
-/

namespace Dataplane.Model

open ProofSupport

variable {σ : Type}

def packetsRead (fd : Int) (cs : List Cqe) : List Bytes :=
  (cs.filter fun c => c.req.opcode == .read && c.req.fd == fd && decide (0 ≤ c.res)).map Cqe.payload

def packetsWritten (fd : Int) (rs : List Sqe) : List Bytes :=
  (rs.filter fun r => r.opcode == .write && r.fd == fd).map Sqe.data

/-- The kernel says of everything that it receives how much it is. -/
def HonestReads (cs : List Cqe) : Prop :=
  ∀ c ∈ cs, c.req.opcode.outgoing = false → 0 ≤ c.res → c.Honest

instance (cs : List Cqe) : Decidable (HonestReads cs) :=
  inferInstanceAs (Decidable (∀ c ∈ cs, c.req.opcode.outgoing = false → 0 ≤ c.res →
    c.res = c.data.length))

structure IoUring.Untouched (ring : IoUring) : Prop where
  seen : ∀ c ∈ ring.seen, c.req.opcode ≠ .read
  queued : ∀ r ∈ ring.queued, r.opcode ≠ .write

/-- The connection, which was `first` in the beginning, carries what was read
from the TUN device, and what it has delivered was written to it, in order and
once each, everything as long as nothing has failed. -/
structure EdgeTraffic (first : Connection σ) (tunFd : Int) (conn : Connection (σ × List SslCall))
    (ring : IoUring) (goes : Prop) : Prop where
  own : OwnTraffic first conn ring goes
  sent : HonestReads ring.seen → Follows (packetsRead tunFd ring.seen) conn.written goes
  received : Follows conn.delivered (packetsWritten tunFd ring.queued) goes

inductive Session.Tunnels (first : Connection σ) (tunFd : Int) : Session (σ × List SslCall) → Prop
  | handshake {s : HandshakeState (σ × List SslCall)} (running : Bool) : s.uring.ring.Untouched →
      s.conn.written = [] → s.conn.delivered = [] →
      OwnTraffic first s.conn s.uring.ring (s.pc ≠ .returned (-1)) →
      Tunnels first tunFd (.handshake (.edge tunFd) s running)
  | loop {s : LoopState (σ × List SslCall)} {conn : Connection (σ × List SslCall)} :
      s.prog = .tunUdpRun conn tunFd →
      EdgeTraffic first tunFd conn s.uring.ring (s.status.ok = true) →
      Tunnels first tunFd (.loop s)
  | returned {uring : IouringCtx} : uring.ring.Untouched → Tunnels first tunFd (.returned uring)

def Session.Reads (udpFd tunFd : Int) : Session σ → Prop
  | .loop s => s.status.ok = true → ∃ k, Proofs.receives s.uring.ring.outstanding =
      Multiset.replicate k (.read, tunFd) + Proofs.multishots [udpFd]
  | _ => True

end Dataplane.Model

namespace Dataplane.Proofs

open ProofSupport Model Ledger

variable {σ : Type} {api : Ssl σ} {ctx ctx' : IouringCtx} {held got : Multiset OpId}
  {taken idx : Multiset Nat} {conn conn' : Connection (σ × List SslCall)} {cs : List Cqe}
  {new : List Sqe} {goes : Prop} {tunFd : Int}

/-! ## Traffic on the TUN device -/

theorem packetsRead_append (fd : Int) (cs cs' : List Cqe) :
    packetsRead fd (cs ++ cs') = packetsRead fd cs ++ packetsRead fd cs' := by
  rw [packetsRead, List.filter_append, List.map_append]
  rfl

theorem packetsWritten_append (fd : Int) (rs rs' : List Sqe) :
    packetsWritten fd (rs ++ rs') = packetsWritten fd rs ++ packetsWritten fd rs' := by
  rw [packetsWritten, List.filter_append, List.map_append]
  rfl

theorem packetsRead_nil (fd : Int) (h : ∀ c ∈ cs, c.req.opcode ≠ .read) :
    packetsRead fd cs = [] := by
  rw [packetsRead, List.map_eq_nil_iff, List.filter_eq_nil_iff]
  intro c hc hread
  simp only [Bool.and_eq_true, beq_iff_eq] at hread
  exact h c hc hread.1.1

theorem packetsWritten_nil (fd : Int) (h : ∀ r ∈ new, r.opcode ≠ .write) :
    packetsWritten fd new = [] := by
  rw [packetsWritten, List.map_eq_nil_iff, List.filter_eq_nil_iff]
  intro r hr hwrite
  simp only [Bool.and_eq_true, beq_iff_eq] at hwrite
  exact h r hr hwrite.1

theorem not_write_of_receives {r : Sqe} (h : Receives r) : r.opcode ≠ .write := by
  intro hwrite
  have hin : r.opcode.outgoing = false := h
  rw [hwrite] at hin
  cases hin

theorem packetsRead_single {c : Cqe} (hcode : c.req.opcode = .read) (hfd : c.req.fd = tunFd)
    (hres : 0 ≤ c.res) : packetsRead tunFd [c] = [c.payload] := by
  simp [packetsRead, hcode, hfd, hres]

theorem packetsWritten_carries {data : Bytes} {rs : List Sqe}
    (h : ∀ r ∈ rs, Carries ctx r .write tunFd data) :
    packetsWritten tunFd rs = rs.map fun _ => data := by
  have hall : rs.filter (fun r => r.opcode == .write && r.fd == tunFd) = rs := by
    apply List.filter_eq_self.mpr
    intro r hr
    simp [(h r hr).opcode, (h r hr).fd]
  rw [packetsWritten, hall]
  exact List.map_congr_left fun r hr => (h r hr).data

/-! ## A completed read -/

/-- With its receives armed an edge reads packets from its TUN device only. -/
theorem Inv.armed_read (h : Inv ctx held taken) {k : Nat} {fd : Int} {sockets : List Int}
    (harmed : receives ctx.ring.outstanding = Multiset.replicate k (.read, fd) + multishots sockets)
    {c : Cqe} (hc : c ∈ ctx.ring.cq) (hcode : c.req.opcode = .read) : c.req.fd = fd := by
  obtain ⟨hposted, hok⟩ := h.cq c hc
  have hreq := mem_requests_of_posted hposted
  rw [← outstanding_requests] at hreq
  obtain ⟨r, hr, huser⟩ := List.mem_map.mp (Multiset.mem_coe.mp hreq)
  have hrok := (h.outstanding_reqOk hr).2
  rw [huser] at hrok
  have hrtype : r.opcode.opType = .tunRead := by
    rw [← hrok.opType, hok.req.opType, hcode]
    rfl
  have hin : r.opcode.outgoing = false := by
    revert hrtype
    cases r.opcode <;> simp [Opcode.opType, Opcode.outgoing]
  have hmem : (r.opcode, r.fd) ∈ receives ctx.ring.outstanding := by
    apply Multiset.mem_coe.mpr
    exact List.mem_map.mpr ⟨r, List.mem_filter.mpr ⟨hr, by simp [hin]⟩, rfl⟩
  rw [harmed] at hmem
  rcases Multiset.mem_add.mp hmem with hread | hmulti
  · have heq := Multiset.eq_of_mem_replicate hread
    rw [← hok.req.fd, hrok.fd]
    exact (Prod.mk.inj heq).2
  · obtain ⟨fd', -, heq⟩ := List.mem_map.mp (Multiset.mem_coe.mp hmulti)
    rw [← (Prod.mk.inj heq).1] at hrtype
    cases hrtype

/-! ## Writing what was decrypted -/

theorem decryptAndWrite_cases (api : Ssl σ) (conn : Connection σ) (tunFd : Int) (encrypted : Bytes)
    (len : Int) (ctx : IouringCtx) :
    let out := dtlsDecryptAndWriteTun api conn tunFd encrypted len ctx
    (out.2.2 = conn ∧ out.2.1.ring = ctx.ring) ∨
      out.2.2 = (conn.dtlsDecryptPacket api encrypted len bufSize).2.2.2 := by
  have hring := ioOpAlloc_ring ctx .tunWrite tunFd false
  unfold dtlsDecryptAndWriteTun
  generalize ctx.ioOpAlloc .tunWrite tunFd false = alloc at *
  rcases alloc with ⟨_ | op, ctx1⟩
  · exact .inl ⟨rfl, hring⟩
  · right
    rcases conn.dtlsDecryptPacket api encrypted len bufSize with ⟨n, decrypted, ok, conn'⟩
    dsimp only
    split
    · rfl
    · split <;> rfl

theorem decryptAndWrite_nothing {conn : Connection σ} (tunFd : Int) {encrypted : Bytes} {len : Int}
    (h : (conn.dtlsDecryptPacket api encrypted len bufSize).1 ≤ 0) (ctx : IouringCtx) :
    (dtlsDecryptAndWriteTun api conn tunFd encrypted len ctx).2.1.ring = ctx.ring := by
  have hring := ioOpAlloc_ring ctx .tunWrite tunFd false
  unfold dtlsDecryptAndWriteTun
  generalize ctx.ioOpAlloc .tunWrite tunFd false = alloc at *
  rcases alloc with ⟨_ | op, ctx1⟩
  · exact hring
  · rcases hdec : conn.dtlsDecryptPacket api encrypted len bufSize with ⟨n, decrypted, ok, conn'⟩
    rw [hdec] at h
    dsimp only at h hring ⊢
    split
    · dsimp only
      rw [(ioOpFree_ring _ op).1, modOp_ring]
      exact (store_ring ctx1 _ _).trans hring
    · have hsubmit : ∀ mid : IouringCtx, mid.iouringSubmitTunWrite op none n = (-1, mid) :=
        fun mid => if_pos (Or.inl h)
      rw [hsubmit]
      dsimp only
      rw [if_pos (by decide)]
      dsimp only
      rw [(ioOpFree_ring _ op).1, modOp_ring, modOp_ring]
      exact (store_ring ctx1 _ _).trans hring

theorem tunUdpRunBody_wrote {mid mid' : IouringCtx} {conn : Connection σ} {op : OpId} {ret : Int}
    {rest : Option OpId} {prog : Program σ} (htype : (mid.ops op).opType = .udpRecv)
    (hbody : tunUdpRunBody api mid conn tunFd op = (ret, rest, mid', prog)) :
    let out := dtlsDecryptAndWriteTun api conn tunFd
      (mid.load (mid.ops op).buffer (mid.ops op).dataLen.toNat) (mid.ops op).dataLen mid
    prog = .tunUdpRun out.2.2 tunFd ∧ mid'.ring = out.2.1.ring := by
  simp only [tunUdpRunBody, htype, freeAndReturn, Prod.mk.injEq] at hbody
  obtain ⟨-, -, rfl, rfl⟩ := hbody
  exact ⟨rfl, (ioOpFree_ring _ op).1⟩

/-! ## A turn of `tun_udp_run` -/

structure EdgeServed (ring ring' : IoUring) (tunFd : Int)
    (conn conn' : Connection (σ × List SslCall)) (cs : List Cqe) (new : List Sqe) (goes : Prop) :
    Prop where
  seen : ring'.seen = ring.seen ++ cs
  queued : ring'.queued = ring.queued ++ new
  moves : Moves conn conn' cs new goes
  sent : ∃ ws, conn'.written = conn.written ++ ws ∧
    (HonestReads cs → Follows (packetsRead tunFd cs) ws goes)
  received : ∃ ds, conn'.delivered = conn.delivered ++ ds ∧
    Follows ds (packetsWritten tunFd new) goes

theorem EdgeServed.mono {ring ring' : IoUring} {goes' : Prop}
    (h : EdgeServed ring ring' tunFd conn conn' cs new goes) (hgoes : goes' → goes) :
    EdgeServed ring ring' tunFd conn conn' cs new goes' := by
  obtain ⟨ws, hws, hsent⟩ := h.sent
  obtain ⟨ds, hds, hreceived⟩ := h.received
  exact ⟨h.seen, h.queued, h.moves.mono hgoes, ⟨ws, hws, fun hc => (hsent hc).mono hgoes⟩,
    ds, hds, hreceived.mono hgoes⟩

theorem EdgeServed.receives {ring ring' : IoUring} (hseen : ring'.seen = ring.seen ++ cs)
    (hqueued : ring'.queued = ring.queued ++ new) (hnew : ∀ r ∈ new, Receives r)
    (hread : goes → packetsRead tunFd cs = []) :
    EdgeServed ring ring' tunFd conn conn cs new goes where
  seen := hseen
  queued := hqueued
  moves := .receives hnew cs goes
  sent := ⟨[], (List.append_nil _).symm, fun _ =>
    ⟨List.nil_prefix, fun hgoes => (hread hgoes).symm⟩⟩
  received := ⟨[], (List.append_nil _).symm, by
    rw [packetsWritten_nil tunFd fun r hr => not_write_of_receives (hnew r hr)]
    exact .same [] goes⟩

section Bodies

variable {ring : IoUring} {mid mid' : IouringCtx} {c : Cqe} {ins : List Sqe}
    {prog : Program (σ × List SslCall)}
  {ret : Int} {rest : Option OpId}

theorem Inv.edge_read (h : Inv mid (got + held) (idx + taken))
    (hrecv : Received mid c c.req.userData got idx) (hcode : c.req.opcode = .read)
    (hfd : c.req.fd = tunFd) (hres : 0 ≤ c.res) (hins : ∀ r ∈ ins, Receives r)
    (hseen : mid.ring.seen = ring.seen ++ [c]) (hqueued : mid.ring.queued = ring.queued ++ ins)
    (hbody : tunUdpRunBody api.traced mid conn tunFd c.req.userData = (ret, rest, mid', prog)) :
    ∃ conn' new, prog = .tunUdpRun conn' tunFd ∧ (ret = 0 ∨ ret = -1) ∧
      EdgeServed ring mid'.ring tunFd conn conn' [c] new (ret = 0) := by
  have htype : (mid.ops c.req.userData).opType = .tunRead := by
    rw [hrecv.opType, hcode]
    rfl
  obtain ⟨rs, conn', rfl, hh, hconn⟩ := h.tunUdpRunBody_read hrecv htype rfl hbody
  have hcases := hh.ret_cases
  have hdata : HonestReads [c] →
      mid.load (mid.ops c.req.userData).buffer (mid.ops c.req.userData).dataLen.toNat =
        c.payload := by
    intro hhonest
    have hc : c.Honest := hhonest c (List.mem_singleton_self c) (by rw [hcode]; rfl) hres
    exact (hrecv.payload hc).1
  have hnone : packetsWritten tunFd (ins ++ rs) = [] := by
    apply packetsWritten_nil
    intro r hr
    rcases List.mem_append.mp hr with hr | hr
    · exact not_write_of_receives (hins r hr)
    · rw [(hh.entry r hr).carries.opcode]
      simp
  have hseen' := hh.effect.seen.trans hseen
  have hqueued' : mid'.ring.queued = ring.queued ++ (ins ++ rs) := by
    rw [hh.effect.queued, hqueued, List.append_assoc]
  rcases hconn with ⟨rfl, rfl, rfl⟩ | ⟨rfl, henc⟩
  · rw [List.append_nil] at hqueued'
    exact ⟨conn', ins, rfl, hcases, .receives hseen' hqueued' hins fun hgoes => by omega⟩
  · generalize mid.load (mid.ops c.req.userData).buffer
      (mid.ops c.req.userData).dataLen.toNat = data at *
    obtain ⟨hmoves, hwritten, hdelivered⟩ : Moves conn _ [c] (ins ++ rs) (ret = 0) ∧ _ ∧ _ :=
      encrypt_moves api conn data hh.single hh.entry (datagrams_of_receives hins conn.udpFd)
        fun hret => ⟨hh.queues hret, henc hret⟩
    refine ⟨_, ins ++ rs, rfl, hcases, hseen', hqueued', hmoves, ⟨_, hwritten, fun hhonest => ?_⟩,
      [], by rw [hdelivered, List.append_nil], ?_⟩
    · rw [packetsRead_single hcode hfd hres, hdata hhonest]
      exact .same _ _
    · rw [hnone]
      exact .same [] _

theorem Inv.edge_recv (hcounts : api.Counts) (h : Inv mid (got + held) (idx + taken))
    (hrecv : Received mid c c.req.userData got idx) (hcode : c.req.opcode = .recvmsgMultishot)
    (hfd : c.req.fd = conn.udpFd) (hres : 0 ≤ c.res) (hins : ∀ r ∈ ins, Receives r)
    (hseen : mid.ring.seen = ring.seen ++ [c]) (hqueued : mid.ring.queued = ring.queued ++ ins)
    (hbody : tunUdpRunBody api.traced mid conn tunFd c.req.userData = (ret, rest, mid', prog)) :
    ∃ conn' new, prog = .tunUdpRun conn' tunFd ∧ (ret = 0 ∨ ret = -1) ∧
      EdgeServed ring mid'.ring tunFd conn conn' [c] new (ret = 0) := by
  have htype : (mid.ops c.req.userData).opType = .udpRecv := by
    rw [hrecv.opType, hcode]
    rfl
  have hread : packetsRead tunFd [c] = [] := by
    apply packetsRead_nil
    intro c' hc'
    rw [List.mem_singleton.mp hc', hcode]
    simp
  have hfed : HonestReceives [c] → [(mid.load (mid.ops c.req.userData).buffer
      (mid.ops c.req.userData).dataLen.toNat).take (mid.ops c.req.userData).dataLen.toNat].Sublist
        (received conn.udpFd [c]) := hrecv.fed hcode hres hfd
  obtain ⟨rs, conn', hprog, hh, -⟩ := h.tunUdpRunBody_recv hrecv htype rfl rfl hbody
  obtain ⟨hprog', hring⟩ := tunUdpRunBody_wrote htype hbody
  generalize mid.load (mid.ops c.req.userData).buffer
    (mid.ops c.req.userData).dataLen.toNat = data at *
  generalize (mid.ops c.req.userData).dataLen = len at *
  obtain rfl : conn' = (Model.dtlsDecryptAndWriteTun api.traced conn tunFd data len mid).2.2 := by
    rw [hprog] at hprog'
    injection hprog'
  have hseen' := hh.effect.seen.trans hseen
  have hqueued' : mid'.ring.queued = ring.queued ++ (ins ++ rs) := by
    rw [hh.effect.queued, hqueued, List.append_assoc]
  have hnothing :
    (Model.dtlsDecryptAndWriteTun api.traced conn tunFd data len mid).2.1.ring = mid.ring →
      rs = [] := by
    intro hsame
    have hrs := hh.effect.queued
    rw [hring, hsame] at hrs
    simpa using hrs
  have hnone : ∀ r ∈ ins, r.opcode ≠ .write := fun r hr => not_write_of_receives (hins r hr)
  refine ⟨_, ins ++ rs, hprog, hh.ret_cases, ?_⟩
  rcases decryptAndWrite_cases api.traced conn tunFd data len mid with ⟨hconn, hsame⟩ | hconn
  · rw [hconn]
    obtain rfl := hnothing hsame
    rw [List.append_nil] at hqueued' ⊢
    exact .receives hseen' hqueued' hins fun _ => hread
  · rw [hconn]
    obtain ⟨calls, ds, hserves, hds, hdelivered, hwritten⟩ :=
      decrypt_serves api conn data len bufSize
    have hsilent : datagrams conn.udpFd (ins ++ rs) = [] := by
      rw [datagrams_append, datagrams_of_receives hins, List.nil_append, datagrams,
        List.map_eq_nil_iff, List.filter_eq_nil_iff]
      intro r hr
      simp [(hh.entry r hr).1]
    refine ⟨hseen', hqueued', hserves.moves (dtlsDecryptPacket_sameConn _ _ _ _ _).udpFd
      (fun hhonest => hds.trans (hfed hhonest)) hsilent, ⟨[], ?_, fun _ => ?_⟩,
      _, hserves.delivered, ?_⟩
    · rw [hserves.written, hwritten]
    · rw [hread]
      exact .same [] _
    · rw [packetsWritten_append, packetsWritten_nil tunFd hnone, List.nil_append]
      by_cases hpos : 0 < (conn.dtlsDecryptPacket api.traced data len bufSize).1
      · have hlen := decrypt_counts (traced_counts hcounts) conn data len bufSize (by omega)
        rw [hdelivered hpos, packetsWritten_carries fun r hr => (hh.entry r hr).2 hlen]
        have hpassed : ∀ a ∈ rs.map (fun _ =>
            (conn.dtlsDecryptPacket api.traced data len bufSize).2.1),
            some (conn.dtlsDecryptPacket api.traced data len bufSize).2.1 = some a := by
          intro a ha
          obtain ⟨r, -, rfl⟩ := List.mem_map.mp ha
          rfl
        exact Follows.single (by simpa using hh.single) hpassed fun hret =>
          .inl (by simpa using hh.queues hret)
      · obtain rfl := hnothing (decryptAndWrite_nothing tunFd (by omega) mid)
        exact .withheld fun hret => hh.queues hret rfl

end Bodies

theorem Inv.edge_served (hcounts : api.Counts) {s : LoopState (σ × List SslCall)}
    (h : Inv s.uring held taken) (hprog : s.prog = .tunUdpRun conn tunFd) {k : Nat}
    (harmed : receives s.uring.ring.outstanding =
      Multiset.replicate k (.read, tunFd) + multishots [conn.udpFd]) {c : Cqe}
    {cq : List Cqe} (hcq : s.uring.ring.cq = c :: cq) :
    ∃ conn' new, (takeCqe api.traced s c cq).prog = .tunUdpRun conn' tunFd ∧
      EdgeServed s.uring.ring (takeCqe api.traced s c cq).uring.ring tunFd conn conn' [c] new
        ((takeCqe api.traced s c cq).status.ok = true) := by
  have hcmem : c ∈ s.uring.ring.cq := by
    rw [hcq]
    exact List.mem_cons_self
  unfold Model.takeCqe
  rcases hstep : (s.uring.iouringCqeSeen c cq).waitForRecvBody c with ⟨step, ctx⟩
  cases h.wait hcq hstep with
  | again _ hout heff _ =>
      refine ⟨conn, [], hprog, .receives heff.seen heff.queued (by simp) fun _ => ?_⟩
      apply packetsRead_nil
      intro c' hc' hcode
      rw [List.mem_singleton.mp hc'] at hcode
      rw [hcode] at hout
      cases hout
  | null rs heff hrs _ =>
      refine ⟨conn, rs, hprog, .receives heff.seen heff.queued
        (fun r hr => (hrs r hr).outgoing) fun hok => ?_⟩
      simp [Status.ok] at hok
  | recv rs got idx hres hin heff hrs hinv hrecv =>
      have hins : ∀ r ∈ rs, Receives r := fun r hr => (hrs r hr).outgoing
      rcases hbody : tunUdpRunBody api.traced ctx conn tunFd c.req.userData with
        ⟨ret, rest, ctx', prog⟩
      simp only [hprog, Program.body, hbody, atLoopHead_eq]
      have hok : (ret = 0 ∨ ret = -1) →
          (headStatus prog s.running s.status ret rest).ok = true → ret = 0 := by
        rintro (rfl | rfl) hok
        · rfl
        · simp [headStatus, Status.ok] at hok
      suffices hserved : ∃ conn' new, prog = .tunUdpRun conn' tunFd ∧ (ret = 0 ∨ ret = -1) ∧
          EdgeServed s.uring.ring ctx'.ring tunFd conn conn' [c] new (ret = 0) by
        obtain ⟨conn', new, rfl, hret, hserved⟩ := hserved
        exact ⟨conn', new, rfl, hserved.mono (hok hret)⟩
      rcases hrecv.opType_cases hin with htype | htype
      · have hcode : c.req.opcode = .read := by
          rw [hrecv.opType] at htype
          revert htype
          cases c.req.opcode <;> simp [Opcode.opType]
        exact hinv.edge_read hrecv hcode (h.armed_read harmed hcmem hcode) hres hins heff.seen
          heff.queued hbody
      · obtain ⟨hcode, hmem⟩ := h.armed_datagram harmed hcmem (hrecv.opType.symm.trans htype)
        exact hinv.edge_recv hcounts hrecv hcode (List.mem_singleton.mp hmem) hres hins heff.seen
          heff.queued hbody

/-! ## A step of the edge -/

theorem EdgeTraffic.served {first : Connection σ} {ring ring' : IoUring} {went : Prop}
    (h : EdgeTraffic first tunFd conn ring went) (hwent : went)
    (hserved : EdgeServed ring ring' tunFd conn conn' cs new goes) :
    EdgeTraffic first tunFd conn' ring' goes := by
  obtain ⟨ws, hws, hsent⟩ := hserved.sent
  obtain ⟨ds, hds, hreceived⟩ := hserved.received
  refine ⟨OwnTraffic.moves h.own hwent hserved.moves hserved.seen hserved.queued,
    fun hhonest => ?_, ?_⟩
  · rw [hserved.seen] at hhonest ⊢
    rw [packetsRead_append, hws]
    exact (h.sent fun c hc => hhonest c (List.mem_append_left cs hc)).append hwent
      (hsent fun c hc => hhonest c (List.mem_append_right ring.seen hc))
  · rw [hserved.queued, packetsWritten_append, hds]
    exact h.received.append hwent hreceived

theorem EdgeTraffic.ended {first : Connection σ} {ring ring' : IoUring} {went : Prop}
    (h : EdgeTraffic first tunFd conn ring went) (hseen : ring'.seen = ring.seen)
    (hqueued : ring'.queued = ring.queued) (hgoes : goes → went) :
    EdgeTraffic first tunFd conn ring' goes := by
  obtain ⟨⟨hfd, hfed, hown, hpending⟩, hsent, hreceived⟩ := h
  refine ⟨⟨hfd, ?_, ?_, fun hg => ?_⟩, fun hhonest => ?_, ?_⟩
  · rw [hseen]
    exact hfed
  · rw [hqueued]
    exact hown
  · rw [hqueued]
    exact hpending (hgoes hg)
  · rw [hseen] at hhonest ⊢
    exact (hsent hhonest).mono hgoes
  · rw [hqueued]
    exact hreceived.mono hgoes

theorem Untouched.of_eq {ring ring' : IoUring} (h : ring.Untouched) (hseen : ring'.seen = ring.seen)
    (hqueued : ring'.queued = ring.queued) : ring'.Untouched := by
  refine ⟨fun c hc => h.seen c ?_, fun r hr => h.queued r ?_⟩
  · rwa [← hseen]
  · rwa [← hqueued]

theorem HandshakeSound.untouched {s : HandshakeState σ} (h : HandshakeSound s)
    (hs : s.uring.ring.Untouched) (e : HandshakeEvent) : (s.step api e).uring.ring.Untouched := by
  cases e with
  | kernel e =>
      obtain ⟨hseen, hqueued⟩ := kernel_histories s.uring e
      exact Untouched.of_eq hs hseen hqueued
  | waitError =>
      simp only [HandshakeState.step]
      split
      · exact hs
      · exact hs
  | call =>
      simp only [HandshakeState.step]
      split
      · rename_i hpc
        obtain ⟨⟨held, taken, hinv⟩, -⟩ := h (by rw [hpc]; simp)
        obtain ⟨outs, hcalled⟩ := hinv.call api
        refine ⟨?_, fun r hr => ?_⟩
        · rw [hcalled.effect.seen]
          exact hs.seen
        rw [hcalled.effect.queued] at hr
        rcases List.mem_append.mp hr with hr | hr
        · exact hs.queued r hr
        · rw [(hcalled.entry r hr).carries.opcode]
          simp
      · exact hs
  | wake =>
      simp only [HandshakeState.step]
      split
      · rename_i c cq hpc hcq
        obtain ⟨⟨held, taken, hinv⟩, hreqs⟩ := h (by rw [hpc]; simp)
        obtain ⟨ins, heff, hin, -⟩ := hinv.consume hreqs hpc hcq
        refine ⟨fun c' hc' => ?_, fun r hr => ?_⟩
        · rw [heff.seen] at hc'
          rcases List.mem_append.mp hc' with hc' | hc'
          · exact hs.seen c' hc'
          rw [List.mem_singleton.mp hc']
          intro hcode
          rcases (hreqs.seen hcq).1 with hsend | hrecv
          · rw [hcode] at hsend
            cases hsend
          · rw [hcode] at hrecv
            cases hrecv
        · rw [heff.queued] at hr
          rcases List.mem_append.mp hr with hr | hr
          · exact hs.queued r hr
          · exact not_write_of_receives (hin r hr).outgoing
      · exact hs

structure EdgeInv (first : Connection σ) (tunFd : Int) (s : Session (σ × List SslCall)) : Prop where
  wired : s.Wired [first.udpFd]
  reads : s.Reads first.udpFd tunFd
  tunnels : s.Tunnels first tunFd

theorem HandshakeSound.tunnels {first : Connection σ} {s : HandshakeState (σ × List SslCall)}
    (h : HandshakeSound s) (harmed : s.pc ≠ .returned (-1) →
      Proofs.receives s.uring.ring.outstanding = multishots [first.udpFd])
    (huntouched : s.uring.ring.Untouched) (hwritten : s.conn.written = [])
    (hdelivered : s.conn.delivered = [])
    (hown : OwnTraffic first s.conn s.uring.ring (s.pc ≠ .returned (-1))) (running : Bool)
    (e : HandshakeEvent) :
    (Session.handshake (.edge tunFd) (s.step api.traced e) running).Tunnels first tunFd := by
  obtain ⟨cs, new, hserved⟩ : ∃ cs new, Served s (s.step api.traced e) cs new :=
    h.served harmed e
  refine .handshake running (h.untouched huntouched e) (hserved.written.trans hwritten)
    (hserved.delivered.trans hdelivered) ?_
  by_cases hpc : s.pc = .returned (-1)
  · obtain ⟨hconn, rfl, rfl⟩ := hserved.stopped hpc
    rw [hconn]
    exact OwnTraffic.ended hown hserved.seen hserved.queued
      (not_not.mpr (step_returned hpc e))
  · exact OwnTraffic.moves hown hpc hserved.moves hserved.seen hserved.queued

theorem proceed_tunnels {first : Connection σ} {s : HandshakeState (σ × List SslCall)}
    (hsound : HandshakeSound s) (hpc : s.pc = .returned 0)
    (harmed : Proofs.receives s.uring.ring.outstanding = multishots [first.udpFd])
    (huntouched : s.uring.ring.Untouched) (hwritten : s.conn.written = [])
    (hdelivered : s.conn.delivered = [])
    (hown : OwnTraffic first s.conn s.uring.ring (s.pc ≠ .returned (-1))) (running : Bool) :
    (Session.proceed s running (.edge tunFd)).Tunnels first tunFd ∧
      (Session.proceed s running (.edge tunFd)).Reads first.udpFd tunFd := by
  have hgoes : s.pc ≠ .returned (-1) := by
    rw [hpc]
    simp
  obtain ⟨hseen, new, hqueued, hnew⟩ :=
    initialTunReads_histories tunFd s.uring.config.nInitialReadOps s.uring
  have huntouched' : (s.uring.iouringInitialTunReads tunFd).2.ring.Untouched := by
    refine ⟨fun c hc => huntouched.seen c ?_, fun r hr => ?_⟩
    · rw [IouringCtx.iouringInitialTunReads, hseen] at hc
      exact hc
    · rw [IouringCtx.iouringInitialTunReads, hqueued] at hr
      rcases List.mem_append.mp hr with hr | hr
      · exact huntouched.queued r hr
      · rw [hnew r hr]
        simp
  unfold Session.proceed
  dsimp only
  split
  · exact ⟨.returned huntouched', trivial⟩
  rename_i hret
  have hread : s.uring.iouringInitialTunReads tunFd =
      (0, (s.uring.iouringInitialTunReads tunFd).2) := Prod.ext (not_not.mp hret) rfl
  obtain ⟨⟨held, taken, hinv⟩, -⟩ := hsound hgoes
  obtain ⟨k, hk⟩ := initialTunReads_receives hinv hread
  rw [harmed] at hk
  refine ⟨.loop (start_prog _ _ _) ?_, fun _ => ⟨k, by rwa [start_uring]⟩⟩
  have hreads : ∀ r ∈ new, Receives r := fun r hr => by
    rw [Receives, hnew r hr]
    rfl
  simp only [start_uring]
  refine ⟨OwnTraffic.moves hown hgoes (.receives hreads [] _) (hseen.trans (List.append_nil _).symm)
    hqueued, fun _ => ?_, ?_⟩
  · rw [packetsRead_nil tunFd huntouched'.seen, hwritten]
    exact .same [] _
  · rw [packetsWritten_nil tunFd huntouched'.queued, hdelivered]
    exact .same [] _

theorem loop_reads {sockets : List Int} {udpFd : Int} {s : LoopState σ}
    (hwired : (Session.loop s).Wired sockets) (hreads : (Session.loop s).Reads udpFd tunFd)
    (e : LoopEvent) : (Session.loop (s.step api e)).Reads udpFd tunFd := by
  intro hok
  obtain ⟨held, taken, hinv⟩ := hwired.good (step_ok hok)
  rw [hinv.loop_receives e hok]
  exact hreads (step_ok hok)

theorem handshake_tunnels {first : Connection σ} {s : HandshakeState (σ × List SslCall)}
    {running : Bool} (hwired : (Session.handshake (.edge tunFd) s running).Wired [first.udpFd])
    (huntouched : s.uring.ring.Untouched) (hwritten : s.conn.written = [])
    (hdelivered : s.conn.delivered = [])
    (hown : OwnTraffic first s.conn s.uring.ring (s.pc ≠ .returned (-1))) (e : SessionEvent) :
    ((Session.handshake (.edge tunFd) s running).step api.traced e).Tunnels first tunFd ∧
      ((Session.handshake (.edge tunFd) s running).step api.traced e).Reads first.udpFd tunFd := by
  have hsame : ∀ running, (Session.handshake (.edge tunFd) s running).Tunnels first tunFd :=
    fun running => .handshake running huntouched hwritten hdelivered hown
  have hshakes : ∀ e, (Session.handshake (.edge tunFd) (s.step api.traced e) running).Tunnels
      first tunFd :=
    HandshakeSound.tunnels hwired.good hwired.armed huntouched hwritten hdelivered hown running
  cases e with
  | stop => exact ⟨hsame false, trivial⟩
  | proceed =>
      simp only [Session.step]
      split
      · rename_i hpc
        exact proceed_tunnels hwired.good hpc (hwired.armed (by rw [hpc]; simp)) huntouched
          hwritten hdelivered hown running
      · exact ⟨hsame running, trivial⟩
  | call => exact ⟨hshakes .call, trivial⟩
  | kernel e => exact ⟨hshakes (.kernel e), trivial⟩
  | wake => exact ⟨hshakes .wake, trivial⟩
  | waitError => exact ⟨hshakes .waitError, trivial⟩

theorem loop_tunnels (hcounts : api.Counts) {first : Connection σ}
    {conn : Connection (σ × List SslCall)} {s : LoopState (σ × List SslCall)}
    (hwired : (Session.loop s).Wired [first.udpFd])
    (hreads : (Session.loop s).Reads first.udpFd tunFd) (hprog : s.prog = .tunUdpRun conn tunFd)
    (htraffic : EdgeTraffic first tunFd conn s.uring.ring (s.status.ok = true)) (e : LoopEvent) :
    (Session.loop (s.step api.traced e)).Tunnels first tunFd := by
  cases e with
  | stop => exact .loop hprog htraffic
  | kernel e =>
      obtain ⟨hseen, hqueued⟩ := kernel_histories s.uring e
      exact .loop hprog (EdgeTraffic.ended htraffic hseen hqueued id)
  | waitError =>
      simp only [LoopState.step]
      split
      · exact .loop hprog (EdgeTraffic.ended htraffic rfl rfl fun hok => by simp [Status.ok] at hok)
      · exact .loop hprog htraffic
  | wake =>
      simp only [LoopState.step, LoopState.wake]
      split
      · rename_i c cq hstatus hcq
        have hok : s.status.ok = true := by
          rw [hstatus]
          rfl
        obtain ⟨held, taken, hinv⟩ := hwired.good hok
        obtain ⟨k, harmed⟩ := hreads hok
        rw [← htraffic.own.udpFd] at harmed
        obtain ⟨conn', new, hprog', hserved⟩ := hinv.edge_served hcounts hprog harmed hcq
        exact .loop hprog' (EdgeTraffic.served htraffic hok hserved)
      · exact .loop hprog htraffic

theorem EdgeInv.step (hcounts : api.Counts) {first : Connection σ} {s : Session (σ × List SslCall)}
    (h : EdgeInv first tunFd s) (e : SessionEvent) : EdgeInv first tunFd (s.step api.traced e) := by
  obtain ⟨hwired, hreads, htunnels⟩ := h
  suffices hstep : (s.step api.traced e).Tunnels first tunFd ∧
      (s.step api.traced e).Reads first.udpFd tunFd from
    ⟨Wired.step hwired e, hstep.2, hstep.1⟩
  cases htunnels with
  | returned huntouched =>
      cases e with
      | kernel e =>
          obtain ⟨hseen, hqueued⟩ := kernel_histories _ e
          exact ⟨.returned (Untouched.of_eq huntouched hseen hqueued), trivial⟩
      | call | wake | waitError | stop | proceed => exact ⟨.returned huntouched, trivial⟩
  | handshake running huntouched hwritten hdelivered hown =>
      exact handshake_tunnels hwired huntouched hwritten hdelivered hown e
  | loop hprog htraffic =>
      have htunnels := loop_tunnels hcounts hwired hreads hprog htraffic
      have hreads' : ∀ e, (Session.loop (LoopState.step api.traced _ e)).Reads first.udpFd tunFd :=
        fun e => loop_reads hwired hreads e
      cases e with
      | call => exact ⟨.loop hprog htraffic, hreads⟩
      | proceed => exact ⟨.loop hprog htraffic, hreads⟩
      | stop => exact ⟨htunnels .stop, hreads' .stop⟩
      | kernel e => exact ⟨htunnels (.kernel e), hreads' (.kernel e)⟩
      | waitError => exact ⟨htunnels .waitError, hreads' .waitError⟩
      | wake => exact ⟨htunnels .wake, hreads' .wake⟩

/-! ## Every run -/

theorem session_start_effect {config : IouringConfig} {sqeFree : Nat → Bool} {submits : Nat → Int}
    {prog : Program σ} {running : Bool} {s : Session σ}
    (hstart : Session.start (IouringCtx.iouringInit config sqeFree submits) prog running = some s) :
    ∃ rs, Effect (IouringCtx.iouringInit config sqeFree submits) s.uring rs ∧
      ∀ r ∈ rs, r.opcode.outgoing = false := by
  have hinit := inv_iouringInit config sqeFree submits
  generalize IouringCtx.iouringInit config sqeFree submits = ctx at *
  have harmed : ∀ {fds : List Int} {ctx' : IouringCtx}, armReceives true ctx fds = some ctx' →
      ∃ rs, Effect ctx ctx' rs ∧ ∀ r ∈ rs, r.opcode.outgoing = false := by
    intro fds ctx' harm
    have hall : Inv ctx' 0 0 ∧ ∃ rs, Effect ctx ctx' rs ∧ ∀ r ∈ rs, r.opcode.outgoing = false := by
      apply armReceives_rule (P := fun _ mid => Inv mid 0 0 ∧ ∃ rs, Effect ctx mid rs ∧
        ∀ r ∈ rs, r.opcode.outgoing = false) _ harm ⟨hinit, [], .of_ring_eq rfl rfl rfl, by simp⟩
      rintro fd left mid mid1 hsub ⟨hinv, rs, heff, hrs⟩
      obtain ⟨rs', heff', hrs', hinv'⟩ := hinv.iouringSubmitMultishotRecvmsg hsub
      refine ⟨hinv', rs ++ rs', heff.trans heff', fun r hr => ?_⟩
      exact (List.mem_append.mp hr).elim (hrs r) fun hr => (hrs' r hr).outgoing
    exact hall.2
  cases started_of_start hstart with
  | edge conn tunFd harm => exact harmed harm
  | forwarder inbound outbound harm => exact harmed harm
  | zero conn tunFd hsub =>
      obtain ⟨rs, heff, hrs, -⟩ := hinit.initialSubmissions hsub
      refine ⟨rs, ?_, fun r hr => ?_⟩
      · rwa [Session.uring, start_uring]
      · obtain ⟨_, _, hin⟩ := hrs r hr
        exact hin.outgoing

theorem watched_start {ctx : IouringCtx} {prog : Program σ} {running : Bool} {start : Session σ}
    (hstart : Session.start ctx prog running = some start) :
    Session.start ctx (prog.map fun ssl : σ => (ssl, ([] : List SslCall))) running =
      some start.watched := by
  have hmap := start_map (f := fun ssl : σ => (ssl, ([] : List SslCall))) ctx prog running
  rw [hstart] at hmap
  exact hmap

theorem edgeInv_start {config : IouringConfig} {sqeFree : Nat → Bool} {submits : Nat → Int}
    {first : Connection σ} {running : Bool} {start : Session σ}
    (hstart : Session.start (IouringCtx.iouringInit config sqeFree submits)
      (.tunUdpRun first tunFd) running = some start) : EdgeInv first tunFd start.watched := by
  have hwatched : Session.start (IouringCtx.iouringInit config sqeFree submits)
      (.tunUdpRun first.watched tunFd) running = some start.watched := watched_start hstart
  obtain ⟨rs, heff, hrs⟩ := session_start_effect hwatched
  have hqueued := session_start_queued hwatched
  refine ⟨wired_start config sqeFree submits hwatched, ?_, ?_⟩
  all_goals
    generalize start.watched = s at hwatched heff hqueued
    cases started_of_start hwatched
  · trivial
  · refine .handshake running ⟨fun c hc => ?_, fun r hr => not_write_of_receives (hqueued r hr)⟩
      rfl rfl (ownTraffic_start hqueued)
    have hseen := heff.seen
    simp only [Session.uring] at hseen
    rw [hseen] at hc
    cases hc

theorem edgeInv_run (hcounts : api.Counts) {config : IouringConfig} {sqeFree : Nat → Bool}
    {submits : Nat → Int} {first : Connection σ} {running : Bool} {start : Session σ}
    (hstart : Session.start (IouringCtx.iouringInit config sqeFree submits)
      (.tunUdpRun first tunFd) running = some start) (es : List SessionEvent) :
    EdgeInv first tunFd (start.watched.run api.traced es) :=
  Execution.run_invariant (fun _ => True) (EdgeInv first tunFd)
    (fun _ e _ hs => EdgeInv.step hcounts hs e) (fun _ _ => trivial) (edgeInv_start hstart)

/-- In every session of `edge` the packets passed to `SSL_write` are the first of
those that came from the TUN device, and the packets written to the TUN device the
first of those that `SSL_read` delivered, in order, and all of them as long as
nothing has failed.  Nothing is sent on the socket but what the SSL object has
made. -/
theorem edge_tunnels (api : Ssl σ) (hcounts : api.Counts) (config : IouringConfig)
    (sqeFree : Nat → Bool) (submits : Nat → Int) {first : Connection σ} {tunFd : Int}
    {running : Bool} {start : Session σ}
    (hstart : Session.start (IouringCtx.iouringInit config sqeFree submits)
      (.tunUdpRun first tunFd) running = some start) (es : List SessionEvent) :
    (start.watched.run api.traced es).map Prod.fst = start.run api es ∧
      (start.watched.run api.traced es).Tunnels first tunFd := by
  refine ⟨?_, (edgeInv_run hcounts hstart es).tunnels⟩
  rw [← lifts_run (traced_lifts api), watched_fst]

/-! ## A run -/

def edgeSession : Session Unit :=
  (Session.start (IouringCtx.iouringInit smallConfig (fun _ => true) fun _ => 1)
    (.tunUdpRun smallConn 5) true).getD
      (.returned (IouringCtx.iouringInit smallConfig (fun _ => true) fun _ => 1))

def edgeOnce : List SessionEvent :=
  [.call, .proceed, .kernel (.complete 1 3 [1, 2, 3] [] 0), .wake,
    .kernel (.recv 0 1 147 (recvmsgOut 128 [10, 0, 0, 1] (List.replicate 124 0) [4, 5, 6]) true 1),
    .wake]

theorem edge_tunnels_once :
    (edgeSession.watched.run plainSsl.traced edgeOnce).map Prod.fst =
        edgeSession.run plainSsl edgeOnce ∧
      (edgeSession.watched.run plainSsl.traced edgeOnce).Tunnels smallConn 5 ∧
      packetsWritten 5 (edgeSession.run plainSsl edgeOnce).uring.ring.queued = [[4, 5, 6]] := by
  have htunnels := edge_tunnels plainSsl plainSsl_counts smallConfig (fun _ => true) (fun _ => 1)
    (rfl : Session.start _ (.tunUdpRun smallConn 5) true = some edgeSession) edgeOnce
  exact ⟨htunnels.1, htunnels.2, rfl⟩

end Dataplane.Proofs
