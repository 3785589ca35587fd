import Dataplane.Model.Startup
import Dataplane.ProofSupport.Ledger
import Mathlib.Algebra.Order.Group.Multiset

/-!
# Start-up goes on on success and fails cleanly: when it does

A ledger follows the start-up: what was released and what is still held are
together everything that was ever acquired.  Every function is described by
what it adds to the held objects; an object is leaked when it is held and the
caller cannot reach it.
-/

namespace Dataplane.Model.Startup

/-! ## When the external calls let a function succeed -/

def UringOutcomes.RingCreated (o : UringOutcomes) : Prop := o.ctx = true ∧ 0 ≤ o.queueInit

structure UringOutcomes.Succeeds (c : IouringConfig) (o : UringOutcomes) : Prop where
  ring : o.RingCreated
  ioOps : ∀ i < c.nIoOps, o.ioOp i = true
  bufAddrs : ∀ i < c.nIoOps, o.bufAddr i = true
  brBufs : o.posixMemalign = 0
  br : o.setupBufRing = true

structure ConnOutcomes.Succeeds (role : ConnRole) (remoteHost : Option String)
    (remotePort localPort : UInt16) (o : ConnOutcomes) : Prop where
  remote : role = .client → remoteHost ≠ none ∧ remotePort ≠ 0 ∧ o.getaddrinfo = 0
  conn : o.conn = true
  socket : 0 ≤ o.socket
  bound : localPort > 0 → 0 ≤ o.bind

structure DtlsOutcomes.ContextCreated (role : ConnRole) (files : Files) (o : DtlsOutcomes) :
    Prop where
  dtlsCtx : o.dtlsCtx = true
  sslCtx : o.sslCtx = true
  cipherList : o.cipherList = 1
  client : role = .client → files.caFile ≠ none → o.verifyLocations = 1
  server : role = .server → files.certFile ≠ none ∧ files.keyFile ≠ none ∧
    o.certificateFile = 1 ∧ o.privateKeyFile = 1 ∧ o.checkPrivateKey = 1

def DtlsOutcomes.BiosCreated (o : DtlsOutcomes) : Prop := o.rbio = true ∧ o.wbio = true

structure DtlsOutcomes.Succeeds (role : ConnRole) (files : Files) (o : DtlsOutcomes) : Prop where
  context : o.ContextCreated role files
  ssl : o.ssl = true
  bios : o.BiosCreated

structure ForwarderOutcomes.Succeeds (c : IouringConfig) (args : ForwarderArgs)
    (o : ForwarderOutcomes) : Prop where
  ctx : o.ctx = true
  uring : o.uring.Succeeds c
  inbound : o.inbound.Succeeds .server none 0 args.inboundPort
  inboundDtls : o.inboundDtls.Succeeds .server ⟨args.certFile, args.keyFile, none⟩
  outbound : o.outbound.Succeeds .client args.remoteHost args.remotePort args.outboundPort
  outboundDtls : o.outboundDtls.Succeeds .client ⟨none, none, args.caFile⟩

def EdgeOutcomes.Connects (args : EdgeArgs) (o : EdgeOutcomes) : Prop :=
  o.conn.Succeeds args.role args.remoteHost args.remotePort args.localPort

structure EdgeOutcomes.Succeeds (c : IouringConfig) (args : EdgeArgs) (o : EdgeOutcomes) :
    Prop where
  conn : o.Connects args
  dtls : o.dtls.Succeeds args.role args.files
  uring : o.uring.Succeeds c

/-! ## What a pointer reaches -/

def ptr (o : Option Obj) : Multiset Obj := o.elim 0 fun o => {o}

@[simp] theorem ptr_none : ptr none = 0 := rfl
@[simp] theorem ptr_some (o : Obj) : ptr (some o) = {o} := rfl

def Buffers.objects (b : Buffers) : Multiset Obj :=
  (b.ioOpPool : Multiset Obj) + b.bufAddrPool + ptr b.brBufs + ptr b.br

def Uring.objects (u : Uring) : Multiset Obj := u.self ::ₘ u.ring ::ₘ u.buffers.objects

def DtlsCtx.objects (d : DtlsCtx) : Multiset Obj := {d.self, d.ctx}

def Connection.objects (conn : Connection) : Multiset Obj :=
  conn.self ::ₘ conn.socket ::ₘ
    (conn.dtlsCtx.elim 0 DtlsCtx.objects + ptr conn.ssl + ptr conn.rbio + ptr conn.wbio)

/-- What the handshake needs of a connection. -/
structure Connection.Ready (conn : Connection) : Prop where
  ssl : conn.ssl ≠ none
  rbio : conn.rbio ≠ none
  wbio : conn.wbio ≠ none
  state : conn.state = .handshaking

end Dataplane.Model.Startup

namespace Dataplane.Proofs.Startup

open Dataplane.Model Dataplane.Model.Startup
open Dataplane.ProofSupport Dataplane.ProofSupport.Ledger

/-! ## The ledger of a heap -/

/-- `live` is what was acquired and not released. -/
def Holds (h : Heap) (live : Multiset Obj) : Prop :=
  h.released + live = Multiset.range h.next

theorem holds_empty : Holds Heap.empty 0 := rfl

namespace Holds

variable {h : Heap} {live : Multiset Obj} {o : Obj}

theorem acquire (hh : Holds h live) : Holds { h with next := h.next + 1 } (h.next ::ₘ live) := by
  show h.released + h.next ::ₘ live = Multiset.range (h.next + 1)
  rw [Multiset.add_cons, hh, Multiset.range_succ]

theorem release (hh : Holds h (o ::ₘ live)) : Holds (h.release o) live := by
  show o ::ₘ h.released + live = Multiset.range h.next
  rw [← hh, Multiset.cons_add, Multiset.add_cons]

theorem congr {live' : Multiset Obj} (hh : Holds h live) (heq : live = live') : Holds h live' :=
  heq ▸ hh

theorem not_released (hh : Holds h live) (ho : o ∈ live) : o ∉ h.released := by
  intro hr
  exact not_mem_right_of_stock (Multiset.nodup_range _) hh hr ho

theorem lt_next (hh : Holds h live) (ho : o ∈ live) : o < h.next := by
  rw [← Multiset.mem_range, ← hh]
  exact Multiset.mem_add.mpr (.inr ho)

theorem released_once (hh : Holds h live) (ho : o < h.next) (hl : o ∉ live) :
    h.released.count o = 1 := by
  have hcount := count_add_of_range hh ho
  rwa [Multiset.count_eq_zero.mpr hl] at hcount

end Holds

theorem acquire_cases (h : Heap) (ok : Bool) :
    (ok = true ∧ h.acquire ok = (some h.next, { h with next := h.next + 1 })) ∨
      (ok = false ∧ h.acquire ok = (none, h)) := by
  cases ok
  · exact .inr ⟨rfl, rfl⟩
  · exact .inl ⟨rfl, rfl⟩

/-! ## `iouring_init` -/

theorem allocPool_spec (calloc : Nat → Bool) (n : Nat) {h : Heap} {live : Multiset Obj}
    (hh : Holds h live) :
    ((allocPool calloc n h).1 = 0 ↔ ∀ i < n, calloc i = true) ∧
      Holds (allocPool calloc n h).2.2 ((allocPool calloc n h).2.1 + live) := by
  induction n with
  | zero => exact ⟨by simp [allocPool], hh.congr (zero_add live).symm⟩
  | succ n ih =>
      rw [allocPool]
      generalize allocPool calloc n h = r at ih
      obtain ⟨ret, pool, h'⟩ := r
      obtain ⟨hret, hpool⟩ := ih
      simp only [Nat.forall_lt_succ_right]
      by_cases h0 : ret = 0
      · rw [if_neg (by simpa using h0)]
        rcases acquire_cases h' (calloc n) with ⟨hok, hacq⟩ | ⟨hok, hacq⟩
        · rw [hacq]
          refine ⟨by simpa [hok] using hret.mp h0, hpool.acquire.congr ?_⟩
          rw [← Multiset.coe_add, Multiset.coe_singleton, add_assoc, Multiset.singleton_add,
            Multiset.add_cons]
        · rw [hacq]
          exact ⟨by simp [hok], hpool⟩
      · rw [if_pos h0]
        refine ⟨⟨fun h => absurd h h0, fun h => absurd (hret.mpr h.1) h0⟩, hpool⟩

theorem iouringAllocMultishotBuffers_spec (o : UringOutcomes) {h : Heap} {live : Multiset Obj}
    (hh : Holds h live) :
    let r := iouringAllocMultishotBuffers o h
    (r.1 = 0 ↔ o.posixMemalign = 0 ∧ o.setupBufRing = true) ∧
      Holds r.2.2.2 (ptr r.2.1 + ptr r.2.2.1 + live) := by
  unfold iouringAllocMultishotBuffers
  rcases acquire_cases h (decide (o.posixMemalign = 0)) with ⟨hok, hacq⟩ | ⟨hok, hacq⟩
  · have hmem : o.posixMemalign = 0 := of_decide_eq_true hok
    rw [hacq]
    simp only
    rcases acquire_cases { h with next := h.next + 1 } o.setupBufRing with
      ⟨hring, hacq'⟩ | ⟨hring, hacq'⟩
    · rw [hacq']
      refine ⟨by simp [hmem, hring], hh.acquire.acquire.congr ?_⟩
      rw [ptr_some, ptr_some, add_assoc, Multiset.singleton_add, Multiset.singleton_add,
        Multiset.cons_swap]
    · rw [hacq']
      refine ⟨by simp [hring], hh.acquire.congr ?_⟩
      rw [ptr_some, ptr_none, add_zero, Multiset.singleton_add]
  · have hmem : ¬ o.posixMemalign = 0 := of_decide_eq_false hok
    rw [hacq]
    exact ⟨by simp [hmem], hh.congr (by simp)⟩

theorem iouringAllocBuffers_spec (c : IouringConfig) (o : UringOutcomes) {h : Heap}
    {live : Multiset Obj} (hh : Holds h live) :
    let r := iouringAllocBuffers c o h
    (r.1 = 0 ↔ (∀ i < c.nIoOps, o.ioOp i = true) ∧ (∀ i < c.nIoOps, o.bufAddr i = true) ∧
        o.posixMemalign = 0 ∧ o.setupBufRing = true) ∧
      Holds r.2.2 (r.2.1.objects + live) := by
  unfold iouringAllocBuffers
  have hops := allocPool_spec o.ioOp c.nIoOps hh
  generalize allocPool o.ioOp c.nIoOps h = ops at hops
  obtain ⟨ret, ioOpPool, h₁⟩ := ops
  obtain ⟨hret, hops⟩ := hops
  simp only at hret hops ⊢
  by_cases h0 : ret = 0
  · have hbufs := allocPool_spec o.bufAddr c.nIoOps hops
    generalize allocPool o.bufAddr c.nIoOps h₁ = bufs at hbufs
    obtain ⟨ret', bufAddrPool, h₂⟩ := bufs
    obtain ⟨hret', hbufs⟩ := hbufs
    simp only [if_neg (not_not.mpr h0)] at hret' hbufs ⊢
    by_cases h0' : ret' = 0
    · have hring := iouringAllocMultishotBuffers_spec o hbufs
      generalize iouringAllocMultishotBuffers o h₂ = ring at hring
      obtain ⟨ret'', brBufs, br, h₃⟩ := ring
      obtain ⟨hret'', hring⟩ := hring
      simp only [if_neg (not_not.mpr h0')] at hret'' hring ⊢
      refine ⟨?_, hring.congr (by simp only [Buffers.objects]; ac_rfl)⟩
      have hops : ∀ i < c.nIoOps, o.ioOp i = true := hret.mp h0
      have hbufAddrs : ∀ i < c.nIoOps, o.bufAddr i = true := hret'.mp h0'
      rw [and_iff_right hops, and_iff_right hbufAddrs, ← hret'']
      by_cases h0'' : ret'' = 0 <;> simp [h0'']
    · rw [if_pos h0']
      refine ⟨⟨fun h => by simp at h, fun h => absurd (hret'.mpr h.2.1) h0'⟩, ?_⟩
      exact hbufs.congr (by simp only [Buffers.objects, ptr_none, add_zero]; ac_rfl)
  · rw [if_pos h0]
    refine ⟨⟨fun h => by simp at h, fun h => absurd (hret.mpr h.1) h0⟩, ?_⟩
    exact hops.congr (by simp [Buffers.objects])

/-- How `iouring_init` can end: without a ring and cleanly, with a ring that is
leaked, or well. -/
inductive IouringInit (c : IouringConfig) (o : UringOutcomes) (h : Heap) (live : Multiset Obj) :
    Option Uring × Heap → Prop
  | clean (h' : Heap) (hring : ¬ o.RingCreated)
    (hh : Holds h' live) : IouringInit c o h live (none, h')
  | leaky (h' : Heap) (leaked : Multiset Obj) (hring : o.RingCreated) (hfail : ¬ o.Succeeds c)
      (hself : h.next ∈ leaked) (hh : Holds h' (leaked + live)) : IouringInit c o h live (none, h')
  | done (h' : Heap) (u : Uring) (hok : o.Succeeds c) (hself : u.self = h.next)
      (hh : Holds h' (u.objects + live)) : IouringInit c o h live (some u, h')

theorem iouringInit_cases (c : IouringConfig) (o : UringOutcomes) {h : Heap} {live : Multiset Obj}
    (hh : Holds h live) : IouringInit c o h live (iouringInit c o h) := by
  unfold iouringInit
  rcases acquire_cases h o.ctx with ⟨hctx, hacq⟩ | ⟨hctx, hacq⟩
  · rw [hacq]
    simp only
    rcases acquire_cases { h with next := h.next + 1 } (decide (0 ≤ o.queueInit)) with
      ⟨hqueue, hacq'⟩ | ⟨hqueue, hacq'⟩
    · rw [hacq']
      simp only
      have hring : o.RingCreated := ⟨hctx, of_decide_eq_true hqueue⟩
      obtain ⟨hret, hbufs⟩ := iouringAllocBuffers_spec c o hh.acquire.acquire
      generalize iouringAllocBuffers c o _ = r at hret hbufs
      obtain ⟨ret, buffers, h'⟩ := r
      simp only at hret hbufs ⊢
      by_cases h0 : ret = 0
      · obtain ⟨hops, hbufAddrs, hmem, hbr⟩ := hret.mp h0
        rw [if_neg (not_not.mpr h0)]
        refine .done _ _ ⟨hring, hops, hbufAddrs, hmem, hbr⟩ rfl (hbufs.congr ?_)
        simp only [Uring.objects, Multiset.add_cons, Multiset.cons_add]
        rw [Multiset.cons_swap]
      · rw [if_pos h0]
        refine .leaky _ (h.next ::ₘ (h.next + 1) ::ₘ buffers.objects) hring ?_
          (Multiset.mem_cons_self _ _) (hbufs.congr ?_)
        · intro hok
          exact h0 (hret.mpr ⟨hok.ioOps, hok.bufAddrs, hok.brBufs, hok.br⟩)
        · simp only [Multiset.add_cons, Multiset.cons_add]
          rw [Multiset.cons_swap]
    · rw [hacq']
      exact .clean _ (fun hring => of_decide_eq_false hqueue hring.2) hh.acquire.release
  · rw [hacq]
    exact .clean _ (fun hring => Bool.false_ne_true (hctx.symm.trans hring.1)) hh

theorem iouringInit_isSome (c : IouringConfig) (o : UringOutcomes) {h : Heap}
    {live : Multiset Obj} (hh : Holds h live) :
    (iouringInit c o h).1.isSome ↔ o.Succeeds c := by
  have hcases := iouringInit_cases c o hh
  generalize iouringInit c o h = r at hcases
  cases hcases with
  | clean h' hring _ => exact iff_of_false (by simp) fun hok => hring hok.ring
  | leaky h' leaked _ hfail _ _ => exact iff_of_false (by simp) hfail
  | done h' u hok _ _ => exact iff_of_true rfl hok

/-! ## `create_connection` -/

/-- How `create_connection` can end; it leaks nothing. -/
inductive CreateConnection (role : ConnRole) (ok : Prop) (live : Multiset Obj) :
    Option Connection × Heap → Prop
  | failed (h' : Heap) (hfail : ¬ ok) (hh : Holds h' live) :
      CreateConnection role ok live (none, h')
  | done (h' : Heap) (conn : Connection) (hok : ok) (hrole : conn.role = role)
      (hh : Holds h' (conn.objects + live)) : CreateConnection role ok live (some conn, h')

theorem openSocket_cases (role : ConnRole) (localPort : UInt16) (o : ConnOutcomes) (self : Obj)
    (addr : Bytes) {h : Heap} {live : Multiset Obj} (hh : Holds h (self ::ₘ live)) :
    CreateConnection role (0 ≤ o.socket ∧ (localPort > 0 → 0 ≤ o.bind)) live
      (openSocket role localPort o self addr h) := by
  unfold openSocket
  rcases acquire_cases h (decide (0 ≤ o.socket)) with ⟨hsocket, hacq⟩ | ⟨hsocket, hacq⟩
  · rw [hacq]
    simp only
    by_cases hbind : localPort > 0 ∧ o.bind < 0
    · rw [if_pos hbind]
      refine .failed _ ?_ hh.acquire.release.release
      intro hok
      exact absurd (hok.2 hbind.1) (not_le.mpr hbind.2)
    · rw [if_neg hbind]
      refine .done _ _ ⟨of_decide_eq_true hsocket, ?_⟩ rfl (hh.acquire.congr ?_)
      · intro hport
        exact not_lt.mp fun hlt => hbind ⟨hport, hlt⟩
      · simp [Connection.objects, Multiset.cons_swap]
  · rw [hacq]
    exact .failed _ (fun hok => of_decide_eq_false hsocket hok.1) hh.release

theorem CreateConnection.congr {role : ConnRole} {ok ok' : Prop} {live : Multiset Obj}
    {r : Option Connection × Heap} (hr : CreateConnection role ok live r) (hiff : ok ↔ ok') :
    CreateConnection role ok' live r :=
  propext hiff ▸ hr

theorem resolveHostname_spec (o : ConnOutcomes) {h : Heap} {live : Multiset Obj}
    (hh : Holds h live) :
    ((resolveHostname o h).1 < 0 ↔ o.getaddrinfo ≠ 0) ∧ Holds (resolveHostname o h).2.2 live := by
  unfold resolveHostname
  by_cases hinfo : o.getaddrinfo ≠ 0
  · rw [if_pos hinfo]
    exact ⟨by simp [hinfo], hh⟩
  · rw [if_neg hinfo]
    exact ⟨by simpa using hinfo, hh.acquire.release⟩

theorem createConnection_cases (role : ConnRole) (remoteHost : Option String)
    (remotePort localPort : UInt16) (o : ConnOutcomes) {h : Heap} {live : Multiset Obj}
    (hh : Holds h live) :
    CreateConnection role (o.Succeeds role remoteHost remotePort localPort) live
      (createConnection role remoteHost remotePort localPort o h) := by
  unfold createConnection
  by_cases hargs : role = .client ∧ (remoteHost = none ∨ remotePort = 0)
  · rw [if_pos hargs]
    refine .failed _ (fun hok => ?_) hh
    obtain ⟨hhost, hport, -⟩ := hok.remote hargs.1
    exact hargs.2.elim hhost hport
  · rw [if_neg hargs]
    rcases acquire_cases h o.conn with ⟨hconn, hacq⟩ | ⟨hconn, hacq⟩
    · rw [hacq]
      simp only
      by_cases hclient : role = .client
      · have hremote : remoteHost ≠ none ∧ remotePort ≠ 0 := by simpa [hclient] using hargs
        rw [if_pos hclient]
        obtain ⟨hret, hresolved⟩ := resolveHostname_spec o hh.acquire
        generalize resolveHostname o _ = resolved at hret hresolved
        obtain ⟨ret, addr, h'⟩ := resolved
        simp only at hret hresolved ⊢
        by_cases hlt : ret < 0
        · rw [if_pos hlt]
          refine .failed _ (fun hok => ?_) hresolved.release
          exact hret.mp hlt (hok.remote hclient).2.2
        · rw [if_neg hlt]
          have hinfo : o.getaddrinfo = 0 := not_not.mp (mt hret.mpr hlt)
          refine (openSocket_cases role localPort o h.next addr hresolved).congr ?_
          constructor
          · intro hok
            exact ⟨fun _ => ⟨hremote.1, hremote.2, hinfo⟩, hconn, hok.1, hok.2⟩
          · intro hok
            exact ⟨hok.socket, hok.bound⟩
      · rw [if_neg hclient]
        refine (openSocket_cases role localPort o h.next [] hh.acquire).congr ?_
        constructor
        · intro hok
          exact ⟨fun hrole => absurd hrole hclient, hconn, hok.1, hok.2⟩
        · intro hok
          exact ⟨hok.socket, hok.bound⟩
    · rw [hacq]
      exact .failed _ (fun hok => Bool.false_ne_true (hconn.symm.trans hok.conn)) hh

/-! ## `init_dtls_connection` -/

/-- How `dtls_client_context_init` and `dtls_server_context_init` can end;
they leak nothing. -/
inductive ContextInit (ok : Prop) (live : Multiset Obj) : Option DtlsCtx × Heap → Prop
  | failed (h' : Heap) (hfail : ¬ ok) (hh : Holds h' live) : ContextInit ok live (none, h')
  | done (h' : Heap) (d : DtlsCtx) (hok : ok) (hh : Holds h' (d.objects + live)) :
      ContextInit ok live (some d, h')

theorem dtlsClientContextInit_cases (files : Files) (o : DtlsOutcomes) {h : Heap}
    {live : Multiset Obj} (hh : Holds h live) :
    ContextInit (o.ContextCreated .client files) live (dtlsClientContextInit files.caFile o h) := by
  unfold dtlsClientContextInit
  rcases acquire_cases h o.dtlsCtx with ⟨hctx, hacq⟩ | ⟨hctx, hacq⟩
  · rw [hacq]
    simp only
    rcases acquire_cases { h with next := h.next + 1 } o.sslCtx with ⟨hssl, hacq'⟩ | ⟨hssl, hacq'⟩
    · rw [hacq']
      simp only
      have hfreed := hh.acquire.acquire.release.release
      by_cases hca : files.caFile ≠ none ∧ o.verifyLocations ≠ 1
      · rw [if_pos hca]
        exact .failed _ (fun hok => hca.2 (hok.client rfl hca.1)) hfreed
      · rw [if_neg hca]
        by_cases hcipher : o.cipherList = 1
        · rw [if_neg (not_not.mpr hcipher)]
          refine .done _ _ ⟨hctx, hssl, hcipher, fun _ hfile => ?_, by simp⟩ ?_
          · exact not_not.mp fun hne => hca ⟨hfile, hne⟩
          · exact hh.acquire.acquire.congr (by simp [DtlsCtx.objects, Multiset.cons_swap])
        · rw [if_pos hcipher]
          exact .failed _ (fun hok => hcipher hok.cipherList) hfreed
    · rw [hacq']
      exact .failed _ (fun hok => Bool.false_ne_true (hssl.symm.trans hok.sslCtx))
        hh.acquire.release
  · rw [hacq]
    exact .failed _ (fun hok => Bool.false_ne_true (hctx.symm.trans hok.dtlsCtx)) hh

theorem dtlsServerContextInit_cases (files : Files) (o : DtlsOutcomes) {h : Heap}
    {live : Multiset Obj} (hh : Holds h live) :
    ContextInit (o.ContextCreated .server files) live
      (dtlsServerContextInit files.certFile files.keyFile o h) := by
  unfold dtlsServerContextInit
  by_cases hfiles : files.certFile = none ∨ files.keyFile = none
  · rw [if_pos hfiles]
    refine .failed _ (fun hok => ?_) hh
    obtain ⟨hcert, hkey, -⟩ := hok.server rfl
    exact hfiles.elim hcert hkey
  · rw [if_neg hfiles]
    obtain ⟨hcert, hkey⟩ := not_or.mp hfiles
    rcases acquire_cases h o.dtlsCtx with ⟨hctx, hacq⟩ | ⟨hctx, hacq⟩
    · rw [hacq]
      simp only
      rcases acquire_cases { h with next := h.next + 1 } o.sslCtx with
        ⟨hssl, hacq'⟩ | ⟨hssl, hacq'⟩
      · rw [hacq']
        simp only
        have hfreed := hh.acquire.acquire.release.release
        -- the four checks fail alike
        by_cases hcertificate : o.certificateFile = 1
        · rw [if_neg (not_not.mpr hcertificate)]
          by_cases hprivate : o.privateKeyFile = 1
          · rw [if_neg (not_not.mpr hprivate)]
            by_cases hcheck : o.checkPrivateKey = 1
            · rw [if_neg (not_not.mpr hcheck)]
              by_cases hcipher : o.cipherList = 1
              · rw [if_neg (not_not.mpr hcipher)]
                refine .done _ _ ⟨hctx, hssl, hcipher, by simp, fun _ => ?_⟩ ?_
                · exact ⟨hcert, hkey, hcertificate, hprivate, hcheck⟩
                · exact hh.acquire.acquire.congr (by simp [DtlsCtx.objects, Multiset.cons_swap])
              · rw [if_pos hcipher]
                exact .failed _ (fun hok => hcipher hok.cipherList) hfreed
            · rw [if_pos hcheck]
              exact .failed _ (fun hok => hcheck (hok.server rfl).2.2.2.2) hfreed
          · rw [if_pos hprivate]
            exact .failed _ (fun hok => hprivate (hok.server rfl).2.2.2.1) hfreed
        · rw [if_pos hcertificate]
          exact .failed _ (fun hok => hcertificate (hok.server rfl).2.2.1) hfreed
      · rw [hacq']
        exact .failed _ (fun hok => Bool.false_ne_true (hssl.symm.trans hok.sslCtx))
          hh.acquire.release
    · rw [hacq]
      exact .failed _ (fun hok => Bool.false_ne_true (hctx.symm.trans hok.dtlsCtx)) hh

/-- How `init_dtls_connection` can end: without a context, without an SSL
object, with an SSL object that was freed under `conn->ssl`, or well. -/
inductive InitDtls (conn : Connection) (files : Files) (o : DtlsOutcomes) (live : Multiset Obj) :
    Int × Connection × Heap → Prop
  | noContext (h' : Heap) (hfail : ¬ o.ContextCreated conn.role files) (hh : Holds h' live) :
      InitDtls conn files o live (-1, { conn with dtlsCtx := none }, h')
  | noSsl (h' : Heap) (d : DtlsCtx) (hfail : o.ssl = false) (hh : Holds h' (d.objects + live)) :
      InitDtls conn files o live (-1, { conn with dtlsCtx := some d, ssl := none }, h')
  | dangling (h' : Heap) (d : DtlsCtx) (ssl : Obj) (hcontext : o.ContextCreated conn.role files)
      (hssl : o.ssl = true) (hfail : ¬ o.BiosCreated) (hfreed : ssl ∈ h'.released)
      (hh : Holds h' (d.objects + live)) :
      InitDtls conn files o live (-1, { conn with dtlsCtx := some d, ssl := some ssl }, h')
  | done (h' : Heap) (d : DtlsCtx) (ssl rbio wbio : Obj) (hok : o.Succeeds conn.role files)
      (hh : Holds h' (wbio ::ₘ rbio ::ₘ ssl ::ₘ (d.objects + live))) :
      InitDtls conn files o live (0,
        { conn with
          dtlsCtx := some d
          ssl := some ssl
          rbio := some rbio
          wbio := some wbio
          state := .handshaking }, h')

theorem dtlsSetupBioPair_spec (o : DtlsOutcomes) (conn : Connection) {h : Heap}
    {live : Multiset Obj} (hh : Holds h live) :
    (¬ o.BiosCreated ∧ ∃ h', dtlsSetupBioPair o conn h = (-1, conn, h') ∧ Holds h' live) ∨
      (o.BiosCreated ∧ ∃ h' rbio wbio, dtlsSetupBioPair o conn h =
          (0, { conn with rbio := some rbio, wbio := some wbio }, h') ∧
        Holds h' (wbio ::ₘ rbio ::ₘ live)) := by
  unfold dtlsSetupBioPair
  rcases acquire_cases h o.rbio with ⟨hr, hacq⟩ | ⟨hr, hacq⟩
  · have hfirst := hh.acquire
    rcases acquire_cases { h with next := h.next + 1 } o.wbio with ⟨hw, hacq'⟩ | ⟨hw, hacq'⟩
    · exact .inr ⟨⟨hr, hw⟩, _, _, _, by simp [hacq, hacq'], hfirst.acquire⟩
    · exact .inl ⟨fun hok => Bool.false_ne_true (hw.symm.trans hok.2), _,
        by simp [hacq, hacq']; rfl, hfirst.release⟩
  · have hfail : ¬ o.BiosCreated := fun hok => Bool.false_ne_true (hr.symm.trans hok.1)
    rcases acquire_cases h o.wbio with ⟨hw, hacq'⟩ | ⟨hw, hacq'⟩
    · exact .inl ⟨hfail, _, by simp [hacq, hacq']; rfl, hh.acquire.release⟩
    · exact .inl ⟨hfail, _, by simp [hacq, hacq']; rfl, hh⟩

theorem initDtlsConnection_cases (conn : Connection) (files : Files) (o : DtlsOutcomes) {h : Heap}
    {live : Multiset Obj} (hh : Holds h live) :
    InitDtls conn files o live (initDtlsConnection conn files o h) := by
  have hcontext : ContextInit (o.ContextCreated conn.role files) live
      (if conn.role = .client then dtlsClientContextInit files.caFile o h
        else dtlsServerContextInit files.certFile files.keyFile o h) := by
    cases hrole : conn.role with
    | client => exact dtlsClientContextInit_cases files o hh
    | server => exact dtlsServerContextInit_cases files o hh
  unfold initDtlsConnection
  generalize (if conn.role = .client then _ else _ : Option DtlsCtx × Heap) = r at hcontext ⊢
  cases hcontext with
  | failed h' hfail hh' => exact .noContext h' hfail hh'
  | done h' d hok hh' =>
      simp only
      rcases acquire_cases h' o.ssl with ⟨hssl, hacq⟩ | ⟨hssl, hacq⟩
      · rw [hacq]
        simp only
        rcases dtlsSetupBioPair_spec o
            { conn with dtlsCtx := some d, ssl := some h'.next } hh'.acquire with
          ⟨hbios, h'', hsetup, hh''⟩ | ⟨hbios, h'', rbio, wbio, hsetup, hh''⟩
        · rw [hsetup]
          exact .dangling _ d h'.next hok hssl hbios (Multiset.mem_cons_self _ _) hh''.release
        · rw [hsetup]
          exact .done _ d h'.next rbio wbio ⟨hok, hssl, hbios⟩ hh''
      · rw [hacq]
        exact .noSsl _ d hssl hh'

/-- The test behind `init_dtls_connection` holds when the call succeeded. -/
theorem notRetNeZero_iff {conn : Connection} {files : Files} {o : DtlsOutcomes}
    {live : Multiset Obj} {r : Int × Connection × Heap} (hr : InitDtls conn files o live r) :
    notRetNeZero r.1 = true ↔ o.Succeeds conn.role files := by
  cases hr with
  | noContext h' hfail _ => exact iff_of_false (by simp [notRetNeZero]) fun hok => hfail hok.context
  | noSsl h' d hfail _ =>
      exact iff_of_false (by simp [notRetNeZero]) fun hok =>
        Bool.false_ne_true (hfail.symm.trans hok.ssl)
  | dangling h' d ssl _ _ hfail _ _ =>
      exact iff_of_false (by simp [notRetNeZero]) fun hok => hfail hok.bios
  | done h' d ssl rbio wbio hok _ => exact iff_of_true (by simp [notRetNeZero]) hok

/-! ## Clean failures -/

/-- What was acquired between `h` and `h'` was released once or is among the
objects `reach` a caller can still reach, and no pointer to these dangles. -/
structure Clean (h h' : Heap) (reach : Multiset Obj) : Prop where
  settled : ∀ o, h.next ≤ o → o < h'.next → h'.released.count o = 1 ∨ o ∈ reach
  valid : ∀ o ∈ reach, o ∉ h'.released

theorem Clean.of_holds {h h' : Heap} {live new reach : Multiset Obj} (hh : Holds h live)
    (hh' : Holds h' (new + live)) (hnew : new ≤ reach) (hreach : ∀ o ∈ reach, o ∈ new + live) :
    Clean h h' reach := by
  constructor
  · intro o hge hlt
    by_cases ho : o ∈ new + live
    · rcases Multiset.mem_add.mp ho with ho | ho
      · exact .inr (Multiset.mem_of_le hnew ho)
      · exact absurd (hh.lt_next ho) (not_lt.mpr hge)
    · exact .inl (hh'.released_once hlt ho)
  · intro o ho
    exact hh'.not_released (hreach o ho)

/-- An object that is held and out of reach is leaked. -/
theorem Clean.reach_of_live {h h' : Heap} {live reach : Multiset Obj} {o : Obj}
    (hclean : Clean h h' reach) (hh' : Holds h' live) (ho : o ∈ live) (hge : h.next ≤ o) :
    o ∈ reach := by
  rcases hclean.settled o hge (hh'.lt_next ho) with hreleased | hreach
  · exact absurd (Multiset.count_pos.mp (by omega)) (hh'.not_released ho)
  · exact hreach

/-- A process at some point of its start-up. -/
structure Process where
  heap : Heap
  live : Multiset Obj
  ledger : Holds heap live

/-- A process with a connection whose pointers are valid. -/
structure Connected extends Process where
  conn : Connection
  valid : ∀ o ∈ conn.objects, o ∈ live

/-! ## When the start-up does what it should -/

/-- `init_dtls_connection` sets a connection up or fails cleanly. -/
structure InitRight (files : Files) (o : DtlsOutcomes) (p : Connected) : Prop where
  ready : (initDtlsConnection p.conn files o p.heap).1 = 0 →
    (initDtlsConnection p.conn files o p.heap).2.1.Ready
  clean : (initDtlsConnection p.conn files o p.heap).1 ≠ 0 →
    Clean p.heap (initDtlsConnection p.conn files o p.heap).2.2
      (initDtlsConnection p.conn files o p.heap).2.1.objects

/-- `forwarder_create` goes on exactly on success and fails cleanly. -/
structure ForwarderRight (c : IouringConfig) (args : ForwarderArgs) (o : ForwarderOutcomes)
    (p : Process) : Prop where
  goesOn : (forwarderCreate c args o p.heap).1.isSome ↔ o.Succeeds c args
  ready : ∀ ctx, (forwarderCreate c args o p.heap).1 = some ctx →
    ctx.inbound.Ready ∧ ctx.outbound.Ready
  clean : (forwarderCreate c args o p.heap).1 = none →
    Clean p.heap (forwarderCreate c args o p.heap).2 0

/-- The `main` of `edge.c` goes on exactly on success. -/
structure EdgeRight (c : IouringConfig) (args : EdgeArgs) (o : EdgeOutcomes) (p : Process) :
    Prop where
  goesOn : (∃ conn u, (edgeMain c args o p.heap).1 = .submits conn u) ↔ o.Succeeds c args
  ready : ∀ conn u, (edgeMain c args o p.heap).1 = .submits conn u →
    ∃ conn', conn = some conn' ∧ conn'.Ready

/-- The `main` of `edge_zero.c`, which sets up no DTLS connection, goes on
exactly on success. -/
def EdgeZeroRight (c : IouringConfig) (args : EdgeArgs) (o : EdgeOutcomes) (p : Process) : Prop :=
  (∃ conn u, (edgeZeroMain c args o p.heap).1 = .submits conn u) ↔
    o.Connects args ∧ o.uring.Succeeds c

theorem mem_objects_of_update {conn : Connection} {d : Option DtlsCtx} {ssl : Option Obj} {x : Obj}
    (hx : x ∈ Connection.objects { conn with dtlsCtx := d, ssl := ssl })
    (hssl : ssl = none ∨ ssl = conn.ssl) :
    x ∈ d.elim 0 DtlsCtx.objects ∨ x ∈ conn.objects := by
  have hptr : x ∈ ptr ssl → x ∈ ptr conn.ssl := by
    rcases hssl with rfl | rfl
    · exact fun h => absurd h (Multiset.notMem_zero x)
    · exact id
  simp only [Connection.objects, Multiset.mem_cons, Multiset.mem_add] at hx ⊢
  tauto

theorem le_dtlsCtx_objects {conn : Connection} {d : DtlsCtx} (hd : conn.dtlsCtx = some d) :
    d.objects ≤ conn.objects := by
  rw [Connection.objects, hd]
  refine le_trans ?_ ((Multiset.le_cons_self _ _).trans (Multiset.le_cons_self _ _))
  rw [Option.elim_some, add_assoc, add_assoc]
  exact Multiset.le_add_right _ _

theorem initRight_iff (files : Files) (o : DtlsOutcomes) (p : Connected) :
    InitRight files o p ↔
      ¬ (o.ContextCreated p.conn.role files ∧ o.ssl = true ∧ ¬ o.BiosCreated) := by
  constructor
  · rintro hright ⟨hcontext, hssl, hbios⟩
    have hclean := hright.clean
    have hcases := initDtlsConnection_cases p.conn files o p.ledger
    generalize initDtlsConnection p.conn files o p.heap = r at hclean hcases
    cases hcases with
    | noContext h' hfail _ => exact hfail hcontext
    | noSsl h' d hfail _ => exact Bool.false_ne_true (hfail.symm.trans hssl)
    | dangling h' d ssl _ _ _ hfreed _ =>
        exact (hclean (by simp)).valid ssl (by simp [Connection.objects]) hfreed
    | done h' d ssl rbio wbio hok _ => exact hbios hok.bios
  · intro hcond
    suffices hr : ∀ r, InitDtls p.conn files o p.live r →
        (r.1 = 0 → r.2.1.Ready) ∧ (r.1 ≠ 0 → Clean p.heap r.2.2 r.2.1.objects) by
      have hboth := hr _ (initDtlsConnection_cases p.conn files o p.ledger)
      exact ⟨hboth.1, hboth.2⟩
    intro r hcases
    cases hcases with
    | noContext h' hfail hh' =>
        refine ⟨by simp, fun _ => .of_holds p.ledger (hh'.congr (zero_add _).symm)
          (Multiset.zero_le _) fun x hx => ?_⟩
        rw [zero_add]
        exact p.valid x
          ((mem_objects_of_update hx (.inr rfl)).resolve_left (Multiset.notMem_zero x))
    | noSsl h' d hfail hh' =>
        refine ⟨by simp, fun _ => .of_holds p.ledger hh' ?_ fun x hx => ?_⟩
        · exact le_dtlsCtx_objects rfl
        · rw [Multiset.mem_add]
          exact (mem_objects_of_update hx (.inl rfl)).imp_right (p.valid x)
    | dangling h' d ssl hcontext hssl hfail _ _ => exact absurd ⟨hcontext, hssl, hfail⟩ hcond
    | done h' d ssl rbio wbio hok _ =>
        exact ⟨fun _ => ⟨by simp, by simp, by simp, rfl⟩, fun h => absurd rfl h⟩

/-! ## `forwarder_create` -/

theorem InitDtls.holds {conn : Connection} {files : Files} {o : DtlsOutcomes} {live : Multiset Obj}
    {r : Int × Connection × Heap} (hr : InitDtls conn files o live r) :
    ∃ new, Holds r.2.2 (new + live) := by
  cases hr with
  | noContext h' _ hh => exact ⟨0, hh.congr (zero_add live).symm⟩
  | noSsl h' d _ hh => exact ⟨d.objects, hh⟩
  | dangling h' d ssl _ _ _ _ hh => exact ⟨d.objects, hh⟩
  | done h' d ssl rbio wbio _ hh =>
      exact ⟨wbio ::ₘ rbio ::ₘ ssl ::ₘ d.objects, hh.congr (by simp)⟩

/-- Once `iouring_init` has succeeded, `forwarder_create` goes on although a
call failed, or returns NULL and keeps the ring. -/
theorem forwarderCreate_of_uring {c : IouringConfig} (args : ForwarderArgs) {o : ForwarderOutcomes}
    (p : Process) (hctx : o.ctx = true) (huring : o.uring.Succeeds c) :
    let r := forwarderCreate c args o p.heap
    (r.1.isSome ∧ ¬ o.Succeeds c args) ∨
      (r.1 = none ∧ ∃ live, Holds r.2 live ∧ p.heap.next + 1 ∈ live) := by
  -- `free(ctx)` leaves everything else held
  have hfree : ∀ {h : Heap} (u : Uring) (new : Multiset Obj), u.self = p.heap.next + 1 →
      Holds h (new + (u.objects + p.heap.next ::ₘ p.live)) →
      ∃ live, Holds (h.release p.heap.next) live ∧ p.heap.next + 1 ∈ live := by
    intro h u new hself hh
    refine ⟨new + (u.objects + p.live), Holds.release (hh.congr ?_), ?_⟩
    · rw [Multiset.add_cons, Multiset.add_cons]
    · rw [← hself]
      simp [Uring.objects]
  unfold forwarderCreate
  rcases acquire_cases p.heap o.ctx with ⟨-, hacq⟩ | ⟨hno, -⟩
  · rw [hacq]
    simp only
    have hinit := iouringInit_cases c o.uring p.ledger.acquire
    generalize iouringInit c o.uring _ = r at hinit ⊢
    cases hinit with
    | clean h' hring _ => exact absurd huring.ring hring
    | leaky h' leaked _ hfail _ _ => exact absurd huring hfail
    | done h₁ u _ hself hu =>
        have hself : u.self = p.heap.next + 1 := hself
        simp only
        have hinbound := createConnection_cases .server none 0 args.inboundPort o.inbound hu
        generalize createConnection .server none 0 args.inboundPort o.inbound h₁ = r at hinbound ⊢
        cases hinbound with
        | failed h₂ _ hh₂ =>
            exact .inr ⟨rfl, hfree u 0 hself (hh₂.congr (zero_add _).symm)⟩
        | done h₂ inbound _ hrole hh₂ =>
            simp only
            have hdtls := initDtlsConnection_cases inbound ⟨args.certFile, args.keyFile, none⟩
              o.inboundDtls hh₂
            generalize initDtlsConnection inbound _ o.inboundDtls h₂ = r at hdtls ⊢
            obtain ⟨ret, inbound', h₃⟩ := r
            have htest := notRetNeZero_iff hdtls
            obtain ⟨new, hh₃⟩ := hdtls.holds
            rw [hrole] at htest
            rw [← add_assoc] at hh₃
            simp only at htest hh₃ ⊢
            by_cases hgo : notRetNeZero ret = true
            · rw [if_pos hgo]
              exact .inr ⟨rfl, hfree u _ hself hh₃⟩
            · rw [if_neg hgo]
              have hfail : ¬ o.Succeeds c args := fun hok => hgo (htest.mpr hok.inboundDtls)
              have houtbound := createConnection_cases .client args.remoteHost args.remotePort
                args.outboundPort o.outbound hh₃
              generalize createConnection .client args.remoteHost args.remotePort
                args.outboundPort o.outbound h₃ = r at houtbound ⊢
              cases houtbound with
              | failed h₄ _ hh₄ =>
                  refine .inr ⟨rfl, _, hh₄, ?_⟩
                  rw [← hself]
                  simp [Uring.objects]
              | done h₄ outbound _ _ hh₄ =>
                  simp only
                  obtain ⟨new', hh₅⟩ := (initDtlsConnection_cases outbound
                    ⟨none, none, args.caFile⟩ o.outboundDtls hh₄).holds
                  by_cases hgo' : notRetNeZero (initDtlsConnection outbound
                      ⟨none, none, args.caFile⟩ o.outboundDtls h₄).1 = true
                  · rw [if_pos hgo']
                    rw [← add_assoc, ← add_assoc] at hh₅
                    exact .inr ⟨rfl, hfree u _ hself hh₅⟩
                  · rw [if_neg hgo']
                    exact .inl ⟨rfl, hfail⟩
  · exact absurd (hno.symm.trans hctx) Bool.false_ne_true

theorem forwarderCreate_of_no_ring (c : IouringConfig) (args : ForwarderArgs)
    {o : ForwarderOutcomes} (p : Process) (hring : ¬ (o.ctx = true ∧ o.uring.RingCreated)) :
    (forwarderCreate c args o p.heap).1 = none ∧
      Clean p.heap (forwarderCreate c args o p.heap).2 0 := by
  unfold forwarderCreate
  rcases acquire_cases p.heap o.ctx with ⟨hctx, hacq⟩ | ⟨hctx, hacq⟩
  · rw [hacq]
    simp only
    have hinit := iouringInit_cases c o.uring p.ledger.acquire
    generalize iouringInit c o.uring _ = r at hinit ⊢
    cases hinit with
    | clean h' _ hh' =>
        refine ⟨rfl, .of_holds p.ledger (hh'.release.congr (zero_add _).symm) le_rfl ?_⟩
        simp
    | leaky h' leaked hcreated _ _ _ => exact absurd ⟨hctx, hcreated⟩ hring
    | done h' u hok _ _ => exact absurd ⟨hctx, hok.ring⟩ hring
  · rw [hacq]
    exact ⟨rfl, .of_holds p.ledger (p.ledger.congr (zero_add _).symm) le_rfl (by simp)⟩

/-- When `iouring_init` fails with a ring, the ring is leaked. -/
theorem forwarderCreate_of_uring_leaky {c : IouringConfig} (args : ForwarderArgs)
    {o : ForwarderOutcomes} (p : Process) (hctx : o.ctx = true) (hring : o.uring.RingCreated)
    (hfail : ¬ o.uring.Succeeds c) :
    let r := forwarderCreate c args o p.heap
    r.1 = none ∧ ∃ live, Holds r.2 live ∧ p.heap.next + 1 ∈ live := by
  unfold forwarderCreate
  rcases acquire_cases p.heap o.ctx with ⟨-, hacq⟩ | ⟨hno, -⟩
  · rw [hacq]
    simp only
    have hinit := iouringInit_cases c o.uring p.ledger.acquire
    generalize iouringInit c o.uring _ = r at hinit ⊢
    cases hinit with
    | clean h' hno _ => exact absurd hring hno
    | leaky h' leaked _ _ hself hh' =>
        refine ⟨rfl, leaked + p.live, Holds.release (hh'.congr ?_), ?_⟩
        · rw [Multiset.add_cons]
        · exact Multiset.mem_add.mpr (.inl hself)
    | done h' u hok _ _ => exact absurd hok hfail
  · exact absurd (hno.symm.trans hctx) Bool.false_ne_true

theorem forwarderRight_iff (c : IouringConfig) (args : ForwarderArgs) (o : ForwarderOutcomes)
    (p : Process) : ForwarderRight c args o p ↔ ¬ (o.ctx = true ∧ o.uring.RingCreated) := by
  constructor
  · rintro hright ⟨hctx, hring⟩
    have hleak : (forwarderCreate c args o p.heap).1 = none →
        ¬ ∃ live, Holds (forwarderCreate c args o p.heap).2 live ∧ p.heap.next + 1 ∈ live := by
      rintro hnone ⟨live, hh, hmem⟩
      exact Multiset.notMem_zero _ ((hright.clean hnone).reach_of_live hh hmem (by omega))
    by_cases huring : o.uring.Succeeds c
    · rcases forwarderCreate_of_uring args p hctx huring with
        ⟨hsome, hfail⟩ | ⟨hnone, hlive⟩
      · exact hfail (hright.goesOn.mp hsome)
      · exact hleak hnone hlive
    · obtain ⟨hnone, hlive⟩ := forwarderCreate_of_uring_leaky args p hctx hring huring
      exact hleak hnone hlive
  · intro hcond
    obtain ⟨hnone, hclean⟩ := forwarderCreate_of_no_ring c args p hcond
    refine ⟨?_, ?_, fun _ => hclean⟩
    · rw [hnone]
      exact iff_of_false (by simp) fun hok => hcond ⟨hok.ctx, hok.uring.ring⟩
    · intro ctx hctx
      rw [hnone] at hctx
      exact absurd hctx (by simp)

/-! ## The `main`s -/

theorem edgeMain_submits (c : IouringConfig) (args : EdgeArgs) (o : EdgeOutcomes) (p : Process) :
    (∃ conn u, (edgeMain c args o p.heap).1 = .submits conn u) ↔
      o.Connects args ∧ ¬ o.dtls.Succeeds args.role args.files ∧ o.uring.Succeeds c := by
  unfold edgeMain
  have hconn := createConnection_cases args.role args.remoteHost args.remotePort args.localPort
    o.conn p.ledger
  generalize createConnection args.role _ _ _ o.conn p.heap = r at hconn ⊢
  cases hconn with
  | failed h₁ hfail _ => exact iff_of_false (by simp) fun hok => hfail hok.1
  | done h₁ conn hok hrole hh₁ =>
      simp only
      have hdtls := initDtlsConnection_cases conn args.files o.dtls hh₁
      generalize initDtlsConnection conn args.files o.dtls h₁ = r at hdtls ⊢
      obtain ⟨ret, conn', h₂⟩ := r
      have htest := notRetNeZero_iff hdtls
      obtain ⟨new, hh₂⟩ := hdtls.holds
      rw [hrole] at htest
      simp only at htest hh₂ ⊢
      by_cases hgo : notRetNeZero ret = true
      · rw [if_pos hgo]
        exact iff_of_false (by simp) fun hok => hok.2.1 (htest.mp hgo)
      · rw [if_neg hgo, ← iouringInit_isSome c o.uring hh₂]
        have hdtlsFail : ¬ o.dtls.Succeeds args.role args.files := mt htest.mpr hgo
        rcases iouringInit c o.uring h₂ with ⟨_ | u, h₃⟩
        · exact iff_of_false (by simp) (by simp)
        · exact iff_of_true ⟨_, _, rfl⟩ ⟨hok, hdtlsFail, rfl⟩

theorem edgeRight_iff (c : IouringConfig) (args : EdgeArgs) (o : EdgeOutcomes) (p : Process) :
    EdgeRight c args o p ↔ ¬ (o.Connects args ∧ o.uring.Succeeds c) := by
  have hsubmits := edgeMain_submits c args o p
  constructor
  · rintro hright ⟨hconn, huring⟩
    by_cases hdtls : o.dtls.Succeeds args.role args.files
    · exact (hsubmits.mp (hright.goesOn.mpr ⟨hconn, hdtls, huring⟩)).2.1 hdtls
    · exact hdtls (hright.goesOn.mp (hsubmits.mpr ⟨hconn, hdtls, huring⟩)).dtls
  · intro hcond
    have hstop : ¬ ∃ conn u, (edgeMain c args o p.heap).1 = .submits conn u := by
      intro hgo
      obtain ⟨hconn, -, huring⟩ := hsubmits.mp hgo
      exact hcond ⟨hconn, huring⟩
    refine ⟨iff_of_false hstop fun hok => hcond ⟨hok.conn, hok.uring⟩, ?_⟩
    intro conn u hgo
    exact absurd ⟨conn, u, hgo⟩ hstop

theorem edgeZeroMain_submits (c : IouringConfig) (args : EdgeArgs) (o : EdgeOutcomes)
    (p : Process) :
    (∃ conn u, (edgeZeroMain c args o p.heap).1 = .submits conn u) ↔ o.uring.Succeeds c := by
  unfold edgeZeroMain
  have hconn := createConnection_cases args.role args.remoteHost args.remotePort args.localPort
    o.conn p.ledger
  generalize createConnection args.role _ _ _ o.conn p.heap = r at hconn ⊢
  obtain ⟨conn, h₁⟩ := r
  have hlive : ∃ live, Holds h₁ live := by
    cases hconn with
    | failed _ _ hh => exact ⟨_, hh⟩
    | done _ _ _ _ hh => exact ⟨_, hh⟩
  obtain ⟨live, hh₁⟩ := hlive
  rw [← iouringInit_isSome c o.uring hh₁]
  simp only
  rcases iouringInit c o.uring h₁ with ⟨_ | u, h₂⟩
  · cases conn with
    | none => exact iff_of_false (by simp) (by simp)
    | some conn => exact iff_of_false (by simp) (by simp)
  · exact iff_of_true ⟨_, _, rfl⟩ rfl

theorem edgeZeroRight_iff (c : IouringConfig) (args : EdgeArgs) (o : EdgeOutcomes) (p : Process) :
    EdgeZeroRight c args o p ↔ ¬ (¬ o.Connects args ∧ o.uring.Succeeds c) := by
  rw [EdgeZeroRight, edgeZeroMain_submits]
  tauto

/-- The start-up goes on exactly on success and fails cleanly when

* `forwarder_create` fails before it has a ring,
* `init_dtls_connection` does not free the SSL object it has made,
* the `main` of `edge.c` cannot connect or has no ring context, and
* the `main` of `edge_zero.c` can connect or has no ring context,

and on no other outcomes. -/
theorem startup_right_iff (c : IouringConfig) (forwarderArgs : ForwarderArgs) (edgeArgs : EdgeArgs)
    (files : Files) (forwarder : ForwarderOutcomes) (dtls : DtlsOutcomes) (edge : EdgeOutcomes)
    (p : Process) (connected : Connected) :
    (ForwarderRight c forwarderArgs forwarder p ↔
        ¬ (forwarder.ctx = true ∧ forwarder.uring.RingCreated)) ∧
      (InitRight files dtls connected ↔ ¬ (dtls.ContextCreated connected.conn.role files ∧
        dtls.ssl = true ∧ ¬ dtls.BiosCreated)) ∧
      (EdgeRight c edgeArgs edge p ↔ ¬ (edge.Connects edgeArgs ∧ edge.uring.Succeeds c)) ∧
      (EdgeZeroRight c edgeArgs edge p ↔ ¬ (¬ edge.Connects edgeArgs ∧ edge.uring.Succeeds c)) :=
  ⟨forwarderRight_iff c forwarderArgs forwarder p, initRight_iff files dtls connected,
    edgeRight_iff c edgeArgs edge p, edgeZeroRight_iff c edgeArgs edge p⟩

def iouringParams : IouringConfig := ⟨8, 1024, 1, 2048, 1024, 0, 0⟩

def relayArgs : ForwarderArgs :=
  ⟨some "relay", 4433, 4433, 0, some "cert.pem", some "key.pem", none⟩

def allWell : ForwarderOutcomes :=
  let uring : UringOutcomes := ⟨true, 0, fun _ => true, fun _ => true, 0, true⟩
  let dtls : DtlsOutcomes := ⟨true, true, 1, 1, 1, 1, 1, true, true, true⟩
  ⟨true, uring, ⟨true, 0, [], 5, 0⟩, dtls, ⟨true, 0, [10, 0, 0, 1], 6, 0⟩, dtls⟩

/-- When everything succeeds `forwarder_create` returns NULL. -/
theorem allWell_not_forwarderRight :
    allWell.Succeeds iouringParams relayArgs ∧
      (forwarderCreate iouringParams relayArgs allWell Heap.empty).1 = none ∧
      ¬ ForwarderRight iouringParams relayArgs allWell ⟨Heap.empty, 0, holds_empty⟩ := by
  have hring : allWell.uring.RingCreated := ⟨rfl, by decide⟩
  have huring : allWell.uring.Succeeds iouringParams :=
    ⟨hring, fun _ _ => rfl, fun _ _ => rfl, rfl, rfl⟩
  have hok : allWell.Succeeds iouringParams relayArgs := by
    refine ⟨rfl, huring, ⟨by simp, rfl, by decide, fun _ => by decide⟩, ?_,
      ⟨fun _ => ⟨by simp [relayArgs], by decide, rfl⟩, rfl, by decide, fun _ => by decide⟩, ?_⟩
    · exact ⟨⟨rfl, rfl, rfl, by simp, fun _ => ⟨by simp [relayArgs], by simp [relayArgs], rfl,
        rfl, rfl⟩⟩, rfl, rfl, rfl⟩
    · exact ⟨⟨rfl, rfl, rfl, fun _ _ => rfl, by simp⟩, rfl, rfl, rfl⟩
  refine ⟨hok, ?_, fun h => (forwarderRight_iff _ _ _ _).mp h ⟨rfl, hring⟩⟩
  rcases forwarderCreate_of_uring relayArgs ⟨Heap.empty, 0, holds_empty⟩ rfl huring with
    ⟨-, hfail⟩ | ⟨hnone, -⟩
  · exact absurd hok hfail
  · exact hnone

def relayFiles : Files := ⟨some "cert.pem", some "key.pem", none⟩

def accepted : Connected where
  heap := ⟨2, 0⟩
  live := {0, 1}
  ledger := rfl
  conn := ⟨0, 5, 1, .server, none, none, none, none, [], 0, .handshaking⟩
  valid := by decide

example : createConnection .server none 0 4433 allWell.inbound Heap.empty =
    (some accepted.conn, accepted.heap) := rfl

/-- `init_dtls_connection` does what it should when every call succeeds, and not
when the second BIO cannot be created. -/
theorem startup_right_accepted :
    InitRight relayFiles allWell.inboundDtls accepted ∧
      ¬ InitRight relayFiles { allWell.inboundDtls with wbio := false } accepted := by
  have hiff : ∀ dtls : DtlsOutcomes, InitRight relayFiles dtls accepted ↔
      ¬ (dtls.ContextCreated .server relayFiles ∧ dtls.ssl = true ∧ ¬ dtls.BiosCreated) := by
    intro dtls
    exact (startup_right_iff iouringParams relayArgs (.client 4433 "relay")
      relayFiles allWell dtls ⟨allWell.outbound, dtls, allWell.uring⟩
      ⟨Heap.empty, 0, holds_empty⟩ accepted).2.1
  constructor
  · rw [hiff]
    rintro ⟨-, -, hbios⟩
    exact hbios ⟨rfl, rfl⟩
  · rw [hiff, not_not]
    refine ⟨⟨rfl, rfl, rfl, by simp, fun _ => ⟨by simp [relayFiles], by simp [relayFiles], rfl, rfl,
      rfl⟩⟩, rfl, ?_⟩
    intro hbios
    cases hbios.2

end Dataplane.Proofs.Startup
