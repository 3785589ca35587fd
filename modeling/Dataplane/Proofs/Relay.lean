import Dataplane.Proofs.IdealDtls
import Dataplane.Proofs.Peers

/-!
# A node between two doors

A packet comes into a node through one door and goes out through the other, a
door being the TUN device or the socket of a connection.  What a turn of a loop
makes of a packet that comes in is a request that takes the same packet out.
-/

namespace Dataplane.Model

open ProofSupport

/-- The TUN device, or a socket with the address of the other end and the keys
of the connection. -/
inductive Door (κ : Type)
  | tun (fd : Int)
  | udp (fd : Int) (peer : Bytes) (send recv : κ)

/-- What comes through one door does not come through the other. -/
def Door.Apart {κ : Type} : Door κ → Door κ → Prop
  | .tun _, .tun _ => False
  | .udp fd _ _ _, .udp fd' _ _ _ => fd ≠ fd'
  | _, _ => True

variable {σ κ : Type} {api : Ssl σ}

namespace IdealDtls

variable (dtls : IdealDtls api κ)

def entering : Door κ → Cqe → Option (Nat × Bytes)
  | .tun fd, c =>
      if c.req.opcode = .read ∧ c.req.fd = fd ∧ 0 ≤ c.res then some (c.tag, c.data) else none
  | .udp fd _ _ recv, c =>
      if c.req.opcode = .recvmsgMultishot ∧ c.req.fd = fd ∧ 0 ≤ c.res then
        some (c.tag, dtls.plain recv c.payload)
      else none

def leaving : Door κ → Sqe → Option (Nat × Bytes)
  | .tun fd, r => if r.opcode = .write ∧ r.fd = fd then some (r.tag, r.data) else none
  | .udp fd _ send _, r =>
      if r.opcode = .sendmsg ∧ r.fd = fd then some (r.tag, dtls.plain send r.data) else none

/-- A completion that brings a packet through a door, from there a whole record. -/
inductive Enters (c : Cqe) : Door κ → Prop
  | tun {fd : Int} : c.req.opcode = .read → c.req.fd = fd → 1 ≤ c.data.length →
      c.data.length ≤ 1400 → Enters c (.tun fd)
  | udp {fd : Int} {peer : Bytes} {send recv : κ} : c.req.opcode = .recvmsgMultishot →
      c.req.fd = fd → dtls.record recv c.payload → Enters c (.udp fd peer send recv)

/-- A request that takes a packet out through a door, there as a record for the
other end. -/
inductive Leaves (r : Sqe) : Door κ → Prop
  | tun {fd : Int} : r.opcode = .write → r.fd = fd → r.len = r.data.length → Leaves r (.tun fd)
  | udp {fd : Int} {peer : Bytes} {send recv : κ} : r.opcode = .sendmsg → r.fd = fd →
      dtls.record send r.data → r.name = peer → Leaves r (.udp fd peer send recv)

/-- The loop passes packets on, those of each way through the door of that way. -/
inductive Joins : Program σ → (Way → Door κ) → Prop
  | edge {door : Way → Door κ} {conn : Connection σ} {tunFd fd : Int} {peer : Bytes}
      {send recv : κ} (w : Way) : door w = .udp fd peer send recv → door w.back = .tun tunFd →
      dtls.Ready conn fd peer send recv → Joins (.tunUdpRun conn tunFd) door
  | forwarder {door : Way → Door κ} {inbound outbound : Connection σ} {fd fd' : Int}
      {peer peer' : Bytes} {send recv send' recv' : κ} : door .down = .udp fd peer send recv →
      door .up = .udp fd' peer' send' recv' → fd' ≠ fd →
      dtls.Ready inbound fd peer send recv → dtls.Ready outbound fd' peer' send' recv' →
      Joins (.forwarderRun inbound outbound) door

end IdealDtls

end Dataplane.Model

namespace Dataplane.Proofs

open ProofSupport Model Ledger

variable {σ κ : Type} {api : Ssl σ} {dtls : IdealDtls api κ} {door : Way → Door κ}
  {prog : Program σ} {c : Cqe} {r : Sqe} {w : Way}

/-! ## Two doors -/

@[simp] theorem back_back (w : Way) : w.back.back = w := by
  cases w <;> rfl

theorem eq_or_eq_back (w v : Way) : w = v ∨ w = v.back := by
  cases w <;> cases v <;> simp [Way.back]

theorem entering_of_apart {a b : Door κ} (h : a.Apart b) (hc : dtls.Enters c a) :
    dtls.entering b c = none := by
  cases hc with
  | tun hcode _ _ _ =>
      cases b with
      | tun fd => exact h.elim
      | udp fd peer send recv => simp [IdealDtls.entering, hcode]
  | udp hcode hfd _ =>
      cases b with
      | tun fd => simp [IdealDtls.entering, hcode]
      | udp fd peer send recv =>
          have hne : c.req.fd ≠ fd := by rwa [hfd]
          simp [IdealDtls.entering, hne]

theorem leaving_of_apart {a b : Door κ} (h : a.Apart b) (hr : dtls.Leaves r a) :
    dtls.leaving b r = none := by
  cases hr with
  | tun hcode _ _ =>
      cases b with
      | tun fd => exact h.elim
      | udp fd peer send recv => simp [IdealDtls.leaving, hcode]
  | udp hcode hfd _ _ =>
      cases b with
      | tun fd => simp [IdealDtls.leaving, hcode]
      | udp fd peer send recv =>
          have hne : r.fd ≠ fd := by rwa [hfd]
          simp [IdealDtls.leaving, hne]

theorem leaving_of_incoming (h : r.opcode.outgoing = false) (d : Door κ) :
    dtls.leaving d r = none := by
  cases d <;> cases hcode : r.opcode <;> simp_all [IdealDtls.leaving, Opcode.outgoing]

theorem entering_of_outgoing (h : c.req.opcode.outgoing = true) (d : Door κ) :
    dtls.entering d c = none := by
  cases d <;> cases hcode : c.req.opcode <;> simp_all [IdealDtls.entering, Opcode.outgoing]

theorem entering_of_failed (h : c.res < 0) (d : Door κ) : dtls.entering d c = none := by
  have hneg : ¬ 0 ≤ c.res := by omega
  cases d <;> simp [IdealDtls.entering, hneg]

/-! ## Turns -/

theorem SendOn.leaves {ctx : IouringCtx} {conn : Connection σ} {d : Bytes} {fd : Int} {peer : Bytes}
    {send recv : κ} (h : SendOn ctx conn d r) (hready : dtls.Ready conn fd peer send recv)
    (hrecord : dtls.record send d) : dtls.Leaves r (.udp fd peer send recv) ∧
      dtls.leaving (.udp fd peer send recv) r = some (ctx.tag, dtls.plain send d) := by
  have hcode := h.carries.opcode
  have hfd : r.fd = fd := h.carries.fd.trans hready.udpFd
  have hdata := h.carries.data
  constructor
  · exact .udp hcode hfd (hdata ▸ hrecord) ((h.name hready.addrLen).trans hready.addr)
  · simp [IdealDtls.leaving, hcode, hfd, hdata, h.carries.tag]

theorem tunUdpRunBody_writes (api : Ssl σ) {ctx : IouringCtx} (conn : Connection σ) (tunFd : Int)
    {op : OpId} (htype : (ctx.ops op).opType = .udpRecv) {data : Bytes} {len : Int}
    (hdata : ctx.load (ctx.ops op).buffer (ctx.ops op).dataLen.toNat = data)
    (hlen : (ctx.ops op).dataLen = len) :
    Queues (fun r => r.len = (conn.dtlsDecryptPacket api data len bufSize).1.toNat) ctx
      (tunUdpRunBody api ctx conn tunFd op).2.2.1 := by
  rw [hlen] at hdata
  unfold tunUdpRunBody freeAndReturn
  simp only [htype, hdata, hlen]
  exact (dtlsDecryptAndWriteTun_len api conn tunFd data len ctx).trans (ioOpFree_queues _ _)

theorem Effect.of_queues {ctx ctx' : IouringCtx} {rs : List Sqe} {P : Sqe → Prop}
    (heff : Effect ctx ctx' rs) (h : Queues P ctx ctx') : ∀ r ∈ rs, P r := by
  obtain ⟨rs', hqueued, hrs⟩ := h
  rw [heff.queued] at hqueued
  rw [List.append_cancel_left hqueued]
  exact hrs

section Bodies

variable {fd fd' : Int} {peer peer' : Bytes} {send recv send' recv' : κ}

theorem Enters.entering_tun (h : dtls.Enters c (.tun fd)) (hhonest : c.Honest) :
    c.req.opcode = .read ∧ c.payload = c.data ∧ 1 ≤ c.payload.length ∧ c.payload.length ≤ 1400 ∧
      dtls.entering (.tun fd) c = some (c.tag, c.payload) := by
  rw [Cqe.Honest] at hhonest
  cases h with
  | tun hcode hfd hpos hle =>
      have hpayload : c.payload = c.data := by simp [Cqe.payload, hcode]
      have hres : 0 ≤ c.res := by omega
      rw [hpayload]
      exact ⟨hcode, rfl, hpos, hle, by simp [IdealDtls.entering, hcode, hfd, hres]⟩

theorem Enters.entering_udp (h : dtls.Enters c (.udp fd peer send recv)) (hhonest : c.Honest) :
    c.req.opcode = .recvmsgMultishot ∧ c.req.fd = fd ∧ dtls.record recv c.payload ∧
      dtls.entering (.udp fd peer send recv) c = some (c.tag, dtls.plain recv c.payload) := by
  rw [Cqe.Honest] at hhonest
  cases h with
  | udp hcode hfd hrecord =>
      have hres : 0 ≤ c.res := by omega
      exact ⟨hcode, hfd, hrecord, by simp [IdealDtls.entering, hcode, hfd, hres]⟩

theorem edge_read_bodySpec {conn : Connection σ} {tunFd : Int} (hhonest : c.Honest)
    (hudp : door w = .udp fd peer send recv) (htun : door w.back = .tun tunFd)
    (hready : dtls.Ready conn fd peer send recv) (henter : dtls.Enters c (door w.back)) :
    BodySpec api (.tunUdpRun conn tunFd) c
      (fun r => dtls.Leaves r (door w) ∧ dtls.leaving (door w) r = dtls.entering (door w.back) c)
      fun prog => dtls.Joins prog door := by
  intro ctx ctx' held got taken idx ret rest prog' hinv hrecv htag hres
  rw [htun] at henter
  obtain ⟨hcode, -, hpos, hle, hentering⟩ := Enters.entering_tun henter hhonest
  have htype : (ctx.ops c.req.userData).opType = .tunRead := by
    rw [hrecv.opType, hcode]
    rfl
  obtain ⟨rs, conn', rfl, hh, hconn⟩ :=
    hinv.tunUdpRunBody_read hrecv htype (hrecv.payload hhonest).1 hres
  obtain ⟨-, hrecord, hplain, hready'⟩ := ready_encrypt hready hpos hle
  refine ⟨rs, hh.mono fun r _ hsend => ?_, fun hret => ?_⟩
  · obtain ⟨hleaves, hleaving⟩ := SendOn.leaves hsend hready hrecord
    rw [hudp, htun, hentering, hleaving, hplain, htag]
    exact ⟨hleaves, rfl⟩
  · rcases hconn with ⟨-, hfail, -⟩ | ⟨rfl, -⟩
    · omega
    · exact .edge w hudp htun hready'

theorem edge_recv_bodySpec {conn : Connection σ} {tunFd : Int} (hhonest : c.Honest)
    (hudp : door w.back = .udp fd peer send recv) (htun : door w = .tun tunFd)
    (hready : dtls.Ready conn fd peer send recv) (henter : dtls.Enters c (door w.back)) :
    BodySpec api (.tunUdpRun conn tunFd) c
      (fun r => dtls.Leaves r (door w) ∧ dtls.leaving (door w) r = dtls.entering (door w.back) c)
      fun prog => dtls.Joins prog door := by
  intro ctx ctx' held got taken idx ret rest prog' hinv hrecv htag hres
  rw [hudp] at henter
  obtain ⟨hcode, -, hrecord, hentering⟩ := Enters.entering_udp henter hhonest
  have htype : (ctx.ops c.req.userData).opType = .udpRecv := by
    rw [hrecv.opType, hcode]
    rfl
  obtain ⟨hdata, hlen⟩ := hrecv.payload hhonest
  have hwrites := tunUdpRunBody_writes api conn tunFd htype hdata hlen
  obtain ⟨rs, conn', rfl, hh, hconn⟩ := hinv.tunUdpRunBody_recv hrecv htype hdata hlen hres
  obtain ⟨hret, hplain, hready'⟩ := ready_decrypt hready hrecord
  rw [Program.body] at hres
  rw [hres] at hwrites
  have hlens := Effect.of_queues hh.effect hwrites
  refine ⟨rs, hh.mono fun r hr hwrite => ?_, fun hzero => ?_⟩
  · have hcarries := hwrite.2 hret
    have hlen : r.len = r.data.length := by
      rw [hlens r hr, hret, hcarries.data, Int.toNat_natCast]
    rw [hudp, htun, hentering]
    refine ⟨.tun hcarries.opcode hcarries.fd hlen, ?_⟩
    simp [IdealDtls.leaving, hcarries.opcode, hcarries.fd, hcarries.tag,
      hcarries.data, htag, hplain]
  · rcases hconn with ⟨-, hfail⟩ | rfl
    · omega
    · exact .edge w.back hudp (by rw [back_back]; exact htun) hready'

theorem Forwarded.leaves {ctx : IouringCtx}
    {recvConn forwardConn recvConn' forwardConn' : Connection σ}
    {data : Bytes} {ret : Int} {rs : List Sqe}
    (h : Forwarded api recvConn forwardConn data data.length ret rs recvConn' forwardConn')
    (hrecv : dtls.Ready recvConn fd peer send recv)
    (hforward : dtls.Ready forwardConn fd' peer' send' recv') (hrecord : dtls.record recv data)
    (hrs : ∀ r ∈ rs, SendOn ctx forwardConn (forwardConn.dtlsEncryptPacket api
      (recvConn.dtlsDecryptPacket api data data.length bufSize).2.1 bufSize).2.1 r) :
    (∀ r ∈ rs, dtls.Leaves r (.udp fd' peer' send' recv') ∧
      dtls.leaving (.udp fd' peer' send' recv') r = some (ctx.tag, dtls.plain recv data)) ∧
    (ret = 0 → dtls.Ready recvConn' fd peer send recv ∧
      dtls.Ready forwardConn' fd' peer' send' recv') := by
  obtain ⟨-, hplain, hrecv'⟩ := ready_decrypt hrecv hrecord
  have hpos : 1 ≤ (recvConn.dtlsDecryptPacket api data data.length bufSize).2.1.length := by
    rw [hplain]
    exact dtls.pos hrecord
  have hle : (recvConn.dtlsDecryptPacket api data data.length bufSize).2.1.length ≤ 1400 := by
    rw [hplain]
    exact dtls.le hrecord
  obtain ⟨-, hrecord', hplain', hforward'⟩ := ready_encrypt hforward hpos hle
  constructor
  · intro r hr
    obtain ⟨hleaves, hleaving⟩ := SendOn.leaves (hrs r hr) hforward hrecord'
    rw [hleaving, hplain', hplain]
    exact ⟨hleaves, rfl⟩
  · intro hret
    cases h with
    | unread hfail => omega
    | unsent hfail => omega
    | sent _ _ => exact ⟨hrecv', hforward'⟩

theorem forwarder_bodySpec {inbound outbound : Connection σ} (hhonest : c.Honest)
    (hdown : door .down = .udp fd peer send recv) (hup : door .up = .udp fd' peer' send' recv')
    (hfds : fd' ≠ fd) (hin : dtls.Ready inbound fd peer send recv)
    (hout : dtls.Ready outbound fd' peer' send' recv') (henter : dtls.Enters c (door w.back)) :
    BodySpec api (.forwarderRun inbound outbound) c
      (fun r => dtls.Leaves r (door w) ∧ dtls.leaving (door w) r = dtls.entering (door w.back) c)
      fun prog => dtls.Joins prog door := by
  intro ctx ctx' held got taken idx ret rest prog' hinv hrecv htag hres
  obtain ⟨hdata, hlen⟩ := hrecv.payload hhonest
  cases w with
  | up =>
      rw [Way.back, hdown] at henter
      obtain ⟨hcode, hfd, hrecord, hentering⟩ := Enters.entering_udp henter hhonest
      have htype : (ctx.ops c.req.userData).opType = .udpRecv := by
        rw [hrecv.opType, hcode]
        rfl
      have hown : (ctx.ops c.req.userData).fd = inbound.udpFd := by
        rw [hrecv.fd, hfd, hin.udpFd]
      obtain ⟨rs, inbound', outbound', rfl, hh, hfwd⟩ :=
        hinv.forwarderRunBody_inbound hrecv htype hown hdata hlen hres
      obtain ⟨hleaves, hkept⟩ := Forwarded.leaves hfwd hin hout hrecord hh.entry
      refine ⟨rs, hh.mono fun r hr _ => ?_, fun hret => ?_⟩
      · rw [Way.back, hup, hdown, hentering, ← htag]
        exact hleaves r hr
      · obtain ⟨hin', hout'⟩ := hkept hret
        exact .forwarder hdown hup hfds hin' hout'
  | down =>
      rw [Way.back, hup] at henter
      obtain ⟨hcode, hfd, hrecord, hentering⟩ := Enters.entering_udp henter hhonest
      have htype : (ctx.ops c.req.userData).opType = .udpRecv := by
        rw [hrecv.opType, hcode]
        rfl
      have hother : (ctx.ops c.req.userData).fd ≠ inbound.udpFd := by
        rwa [hrecv.fd, hfd, hin.udpFd]
      obtain ⟨rs, inbound', outbound', rfl, hh, hfwd⟩ :=
        hinv.forwarderRunBody_outbound hrecv htype hother hdata hlen hres
      obtain ⟨hleaves, hkept⟩ := Forwarded.leaves hfwd hout hin hrecord hh.entry
      refine ⟨rs, hh.mono fun r hr _ => ?_, fun hret => ?_⟩
      · rw [Way.back, hup, hdown, hentering, ← htag]
        exact hleaves r hr
      · obtain ⟨hout', hin'⟩ := hkept hret
        exact .forwarder hdown hup hfds hin' hout'

/-- What comes in on a way goes out on it. -/
theorem joins_bodySpec (hjoins : dtls.Joins prog door) (hhonest : c.Honest)
    (henter : dtls.Enters c (door w.back)) : BodySpec api prog c
      (fun r => dtls.Leaves r (door w) ∧ dtls.leaving (door w) r = dtls.entering (door w.back) c)
      fun prog => dtls.Joins prog door := by
  cases hjoins with
  | edge v hudp htun hready =>
      rcases eq_or_eq_back w v with rfl | rfl
      · exact edge_read_bodySpec hhonest hudp htun hready henter
      · exact edge_recv_bodySpec hhonest (by rw [back_back]; exact hudp) htun hready henter
  | forwarder hdown hup hfds hin hout =>
      exact forwarder_bodySpec hhonest hdown hup hfds hin hout henter

end Bodies

end Dataplane.Proofs
