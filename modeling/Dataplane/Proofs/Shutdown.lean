import Dataplane.Model.Shutdown
import Dataplane.Proofs.TunDevice

/-!
# The end of a process releases what the start-up has acquired

The ledger of the start-up is followed to the end.  An SSL object that
`init_dtls_connection` has freed itself is released a second time there.
-/

namespace Dataplane.Model.Startup

open ProofSupport

/-- `init_dtls_connection` frees the SSL object that it has made, and
`conn->ssl` keeps pointing to it. -/
def DtlsOutcomes.Dangles (role : ConnRole) (files : Files) (o : DtlsOutcomes) : Prop :=
  o.ContextCreated role files ∧ o.ssl = true ∧ ¬ o.BiosCreated

structure Connection.Fresh (conn : Connection) : Prop where
  udpFd : 0 ≤ conn.udpFd
  dtlsCtx : conn.dtlsCtx = none
  ssl : conn.ssl = none
  rbio : conn.rbio = none
  wbio : conn.wbio = none

def Connection.sslObjects (conn : Connection) : Multiset Obj :=
  conn.ssl.elim 0 fun ssl => {ssl} + ptr conn.rbio + ptr conn.wbio

def Connection.tlsObjects (conn : Connection) : Multiset Obj :=
  conn.dtlsCtx.elim 0 DtlsCtx.objects + conn.sslObjects

def Uring.cleaned (u : Uring) (ret : Int) : Multiset Obj :=
  (u.buffers.ioOpPool : Multiset Obj) + u.buffers.bufAddrPool +
    (if ret ≠ 0 then 0 else ptr u.buffers.br + ptr u.buffers.brBufs) + {u.ring} + {u.self}

/-- The op and the items that the pools have lost, and the buffer ring if it
cannot be freed. -/
def Buffers.lost (b : Buffers) (freedOp : Option Obj) (ioOpPool bufAddrPool : List Obj)
    (ret : Int) : Multiset Obj :=
  ((b.ioOpPool : Multiset Obj) - (ptr freedOp + ioOpPool)) +
    ((b.bufAddrPool : Multiset Obj) - bufAddrPool) +
    if ret ≠ 0 then ptr b.brBufs + ptr b.br else 0

/-- What the loop frees and leaves in the pools comes from the pools, and each item
once. -/
def EdgeRest.Fits (rest : EdgeRest) (u : Uring) : Prop :=
  ptr rest.freedOp + rest.ioOpPool ≤ u.buffers.ioOpPool ∧
    (rest.bufAddrPool : Multiset Obj) ≤ u.buffers.bufAddrPool

def EdgeRest.TunReady (rest : EdgeRest) (tunIp : Text) : Prop :=
  rest.tun.Succeeds (some tunIp) (some "255.255.255.0".toList) ∧ rest.tunReads = 0

end Dataplane.Model.Startup

namespace Dataplane.Proofs.Startup

open Dataplane.Model Dataplane.Model.Startup
open Dataplane.ProofSupport Dataplane.ProofSupport.Ledger

/-! ## Releasing -/

/-- From `h` to `h'` the objects `x` are released and none is acquired. -/
structure Frees (h : Heap) (x : Multiset Obj) (h' : Heap) : Prop where
  released : h'.released = x + h.released
  next : h'.next = h.next

namespace Frees

variable {h h' h'' : Heap} {x y live : Multiset Obj}

theorem refl (h : Heap) : Frees h 0 h := ⟨(zero_add _).symm, rfl⟩

theorem trans (h₁ : Frees h x h') (h₂ : Frees h' y h'') : Frees h (x + y) h'' where
  released := by rw [h₂.released, h₁.released, ← add_assoc, add_comm y]
  next := h₂.next.trans h₁.next

theorem release (h : Heap) (o : Obj) : Frees h {o} (h.release o) :=
  ⟨(Multiset.singleton_add _ _).symm, rfl⟩

theorem releaseIf (h : Heap) (o : Option Obj) : Frees h (ptr o) (h.releaseIf o) := by
  cases o with
  | none => exact refl h
  | some o => exact release h o

theorem congr (hx : Frees h x h') (heq : x = y) : Frees h y h' := heq ▸ hx

theorem holds (hx : Frees h x h') (hh : Holds h (x + live)) : Holds h' live := by
  show h'.released + live = Multiset.range h'.next
  rw [hx.released, hx.next, add_comm x, add_assoc]
  exact hh

end Frees

theorem Holds.released_le_one {h : Heap} {live : Multiset Obj} (hh : Holds h live) (x : Obj) :
    h.released.count x ≤ 1 := by
  have hle : h.released ≤ Multiset.range h.next := by
    rw [← hh]
    exact Multiset.le_add_right _ _
  exact Multiset.nodup_iff_count_le_one.mp (Multiset.nodup_of_le hle (Multiset.nodup_range _)) x

theorem Frees.twice {h h' : Heap} {x : Multiset Obj} {o : Obj} (hx : Frees h x h') (ho : o ∈ x)
    (hreleased : o ∈ h.released) : 2 ≤ h'.released.count o := by
  have hnow := Multiset.count_pos.mpr ho
  have hbefore := Multiset.count_pos.mpr hreleased
  rw [hx.released, Multiset.count_add]
  omega

theorem sslFree_frees (conn : Connection) (h : Heap) :
    Frees h conn.sslObjects (sslFree conn h) := by
  unfold sslFree Connection.sslObjects
  cases conn.ssl with
  | none => exact .refl h
  | some ssl =>
      exact ((Frees.release h ssl).trans (.releaseIf _ conn.rbio)).trans (.releaseIf _ conn.wbio)

theorem dtlsContextCleanup_frees (d : Option DtlsCtx) (h : Heap) :
    Frees h (d.elim 0 DtlsCtx.objects) (dtlsContextCleanup d h) := by
  cases d with
  | none => exact .refl h
  | some d =>
      apply ((Frees.release h d.ctx).trans (.release _ d.self)).congr
      rw [add_comm]
      rfl

theorem cleanTls_frees (conn : Connection) (h : Heap) :
    Frees h conn.tlsObjects (dtlsContextCleanup conn.dtlsCtx (sslFree conn h)) :=
  ((sslFree_frees conn h).trans (dtlsContextCleanup_frees conn.dtlsCtx _)).congr (add_comm _ _)

theorem freePool_frees (pool : List Obj) (h : Heap) : Frees h pool (freePool pool h) := by
  induction pool generalizing h with
  | nil => exact .refl h
  | cons o pool ih => exact ((Frees.release h o).trans (ih (h.release o))).congr (by simp)

theorem iouringCleanup_frees (u : Uring) (ret : Int) (h : Heap) :
    Frees h (u.cleaned ret) (iouringCleanup u ret h) := by
  have hbuffers : Frees h ((u.buffers.ioOpPool : Multiset Obj) + u.buffers.bufAddrPool +
      (if ret ≠ 0 then 0 else ptr u.buffers.br + ptr u.buffers.brBufs))
      (iouringFreeBuffers u.buffers ret h) := by
    have hpools := (freePool_frees u.buffers.ioOpPool h).trans
      (freePool_frees u.buffers.bufAddrPool _)
    unfold iouringFreeBuffers
    by_cases hret : ret ≠ 0
    · rw [if_pos hret, if_pos hret, add_zero]
      exact hpools
    · rw [if_neg hret, if_neg hret]
      exact hpools.trans ((Frees.releaseIf _ _).trans (.releaseIf _ _))
  exact (hbuffers.trans (.release _ u.ring)).trans (.release _ u.self)

theorem cleaned_leave (u : Uring) (ops bufs : List Obj) (ret : Int) :
    (u.leave ops bufs).cleaned ret = (ops : Multiset Obj) + bufs +
      (if ret ≠ 0 then 0 else ptr u.buffers.br + ptr u.buffers.brBufs) + {u.ring} + {u.self} := rfl

theorem released_add_lost {u : Uring} {freedOp : Option Obj} {ops bufs : List Obj} (ret : Int)
    (hops : ptr freedOp + ops ≤ u.buffers.ioOpPool)
    (hbufs : (bufs : Multiset Obj) ≤ u.buffers.bufAddrPool) :
    ptr freedOp + (u.leave ops bufs).cleaned ret + u.buffers.lost freedOp ops bufs ret =
      u.objects := by
  obtain ⟨lostOps, hlostOps⟩ := Multiset.le_iff_exists_add.mp hops
  obtain ⟨lostBufs, hlostBufs⟩ := Multiset.le_iff_exists_add.mp hbufs
  unfold Buffers.lost Uring.objects Buffers.objects
  rw [cleaned_leave, hlostOps, hlostBufs, add_tsub_cancel_left, add_tsub_cancel_left,
    ← Multiset.singleton_add u.self, ← Multiset.singleton_add u.ring]
  by_cases hret : ret ≠ 0
  · rw [if_pos hret, if_pos hret]
    ac_rfl
  · rw [if_neg hret, if_neg hret]
    ac_rfl

/-! ## Connections -/

theorem openSocket_fresh {role : ConnRole} {localPort : UInt16} {o : ConnOutcomes} {self : Obj}
    {addr : Bytes} {h h' : Heap} {conn : Connection}
    (hopen : openSocket role localPort o self addr h = (some conn, h')) : conn.Fresh := by
  unfold openSocket at hopen
  rcases acquire_cases h (decide (0 ≤ o.socket)) with ⟨hsocket, hacq⟩ | ⟨-, hacq⟩
  · rw [hacq] at hopen
    dsimp only at hopen
    split at hopen
    · cases hopen
    · obtain rfl := Option.some.inj (Prod.mk.inj hopen).1
      exact ⟨of_decide_eq_true hsocket, rfl, rfl, rfl, rfl⟩
  · rw [hacq] at hopen
    cases hopen

theorem createConnection_fresh {role : ConnRole} {remoteHost : Option String}
    {remotePort localPort : UInt16} {o : ConnOutcomes} {h h' : Heap} {conn : Connection}
    (hcreate : createConnection role remoteHost remotePort localPort o h = (some conn, h')) :
    conn.Fresh := by
  unfold createConnection at hcreate
  split at hcreate
  · cases hcreate
  · rcases acquire_cases h o.conn with ⟨-, hacq⟩ | ⟨-, hacq⟩
    · rw [hacq] at hcreate
      dsimp only at hcreate
      split at hcreate
      · split at hcreate
        · cases hcreate
        · exact openSocket_fresh hcreate
      · exact openSocket_fresh hcreate
    · rw [hacq] at hcreate
      cases hcreate

def Grows (h h' : Heap) : Prop := ∀ o ∈ h.released, o ∈ h'.released

theorem createConnection_grows (role : ConnRole) (remoteHost : Option String)
    (remotePort localPort : UInt16) (o : ConnOutcomes) (h : Heap) :
    Grows h (createConnection role remoteHost remotePort localPort o h).2 := by
  unfold createConnection openSocket resolveHostname Heap.acquire Grows
  grind [Heap.release, Heap.releaseIf]

theorem contextInit_grows (conn : Connection) (files : Files) (o : DtlsOutcomes) (h : Heap) :
    Grows h (if conn.role = .client then dtlsClientContextInit files.caFile o h
      else dtlsServerContextInit files.certFile files.keyFile o h).2 := by
  split
  · unfold dtlsClientContextInit Heap.acquire Grows
    grind [Heap.release]
  · unfold dtlsServerContextInit Heap.acquire Grows
    grind [Heap.release]

theorem dtlsSetupBioPair_grows (o : DtlsOutcomes) (conn : Connection) (h : Heap) :
    Grows h (dtlsSetupBioPair o conn h).2.2 := by
  unfold dtlsSetupBioPair Heap.acquire Grows
  grind [Heap.release, Heap.releaseIf]

theorem initDtlsConnection_grows (conn : Connection) (files : Files) (o : DtlsOutcomes)
    (h : Heap) : Grows h (initDtlsConnection conn files o h).2.2 := by
  have hcontext := contextInit_grows conn files o h
  unfold initDtlsConnection
  generalize (if conn.role = .client then _ else _ : Option DtlsCtx × Heap) = r at hcontext ⊢
  obtain ⟨_ | d, h'⟩ := r
  · exact hcontext
  · dsimp only
    rcases acquire_cases h' o.ssl with ⟨-, hacq⟩ | ⟨-, hacq⟩
    · rw [hacq]
      dsimp only
      have hbios := dtlsSetupBioPair_grows o { conn with dtlsCtx := some d, ssl := some h'.next }
        { h' with next := h'.next + 1 }
      generalize dtlsSetupBioPair o _ _ = r at hbios ⊢
      intro x hx
      have hx' := hbios x (hcontext x hx)
      split
      · exact Multiset.mem_cons_of_mem hx'
      · exact hx'
    · rw [hacq]
      exact hcontext

/-- `init_dtls_connection` leaves the pointers to be released at the end, or one of
them dangles. -/
theorem InitDtls.tls {conn : Connection} {files : Files} {o : DtlsOutcomes} {live : Multiset Obj}
    {r : Int × Connection × Heap} (hfresh : conn.Fresh) (hr : InitDtls conn files o live r) :
    ∃ held, Holds r.2.2 (held + live) ∧
      (¬ o.Dangles conn.role files → held = r.2.1.tlsObjects) ∧
      (o.Dangles conn.role files → ∃ ssl ∈ r.2.2.released, r.2.1.ssl = some ssl) := by
  cases hr with
  | noContext h' hfail hh =>
      refine ⟨0, hh.congr (zero_add live).symm, fun _ => ?_, fun hd => absurd hd.1 hfail⟩
      simp [Connection.tlsObjects, Connection.sslObjects, hfresh.ssl]
  | noSsl h' d hfail hh =>
      refine ⟨d.objects, hh, fun _ => ?_, fun hd => ?_⟩
      · simp [Connection.tlsObjects, Connection.sslObjects]
      · exact absurd (hfail.symm.trans hd.2.1) Bool.false_ne_true
  | dangling h' d ssl hcontext hssl hfail hfreed hh =>
      refine ⟨d.objects, hh, fun hd => absurd ⟨hcontext, hssl, hfail⟩ hd, fun _ => ?_⟩
      exact ⟨ssl, hfreed, rfl⟩
  | done h' d ssl rbio wbio hok hh =>
      refine ⟨wbio ::ₘ rbio ::ₘ ssl ::ₘ d.objects, hh.congr (by simp), fun _ => ?_,
        fun hd => absurd hok.bios hd.2.2⟩
      simp only [Connection.tlsObjects, Connection.sslObjects, Option.elim_some, ptr_some,
        ← Multiset.singleton_add]
      ac_rfl

theorem InitDtls.socket {conn : Connection} {files : Files} {o : DtlsOutcomes}
    {live : Multiset Obj} {r : Int × Connection × Heap} (hr : InitDtls conn files o live r) :
    r.2.1.udpFd = conn.udpFd ∧ r.2.1.self = conn.self ∧ r.2.1.socket = conn.socket := by
  cases hr <;> exact ⟨rfl, rfl, rfl⟩

theorem fresh_objects {conn : Connection} (h : conn.Fresh) :
    conn.objects = {conn.socket} + {conn.self} := by
  simp only [Connection.objects, h.dtlsCtx, h.ssl, h.rbio, h.wbio, Option.elim_none, ptr_none,
    ← Multiset.singleton_add]
  ac_rfl

theorem closeAndFree_frees {conn : Connection} (hopen : 0 ≤ conn.udpFd) (h : Heap) :
    Frees h ({conn.socket} + {conn.self}) (closeAndFree conn h) := by
  rw [closeAndFree, if_pos hopen]
  exact (Frees.release h _).trans (.release _ _)

theorem udpSocketClose_frees {conn : Connection} (hopen : 0 ≤ conn.udpFd) (h : Heap) :
    Frees h {conn.socket} (udpSocketClose conn h) := by
  rw [udpSocketClose, if_pos hopen]
  exact .release h _

/-! ## The forwarder -/

structure Side (role : ConnRole) (files : Files) (o : DtlsOutcomes) (conn : Connection) (h : Heap)
    (tls : Multiset Obj) : Prop where
  udpFd : 0 ≤ conn.udpFd
  tls : ¬ o.Dangles role files → tls = conn.tlsObjects
  dangles : o.Dangles role files → ∃ ssl ∈ h.released, conn.ssl = some ssl

theorem Side.grows {role : ConnRole} {files : Files} {o : DtlsOutcomes} {conn : Connection}
    {h h' : Heap} {tls : Multiset Obj} (hside : Side role files o conn h tls)
    (hgrows : Grows h h') :
    Side role files o conn h' tls := by
  refine ⟨hside.udpFd, hside.tls, fun hd => ?_⟩
  obtain ⟨ssl, hfreed, hssl⟩ := hside.dangles hd
  exact ⟨ssl, hgrows ssl hfreed, hssl⟩

theorem side_created {role : ConnRole} {remoteHost : Option String} {remotePort localPort : UInt16}
    {connOutcomes : ConnOutcomes} {h h₁ : Heap} {live : Multiset Obj} {conn : Connection}
    (files : Files) (o : DtlsOutcomes) (hh : Holds h live)
    (hcreate : createConnection role remoteHost remotePort localPort connOutcomes h =
      (some conn, h₁)) :
    let r := initDtlsConnection conn files o h₁
    Grows h r.2.2 ∧ ∃ tls, Side role files o r.2.1 r.2.2 tls ∧
      Holds r.2.2 (tls + ({r.2.1.socket} + {r.2.1.self}) + live) := by
  have hconn := createConnection_cases role remoteHost remotePort localPort connOutcomes hh
  have hgrows := createConnection_grows role remoteHost remotePort localPort connOutcomes h
  have hfresh := createConnection_fresh hcreate
  rw [hcreate] at hconn hgrows
  cases hconn with
  | done _ _ _ hrole hh₁ =>
      have hdtls := initDtlsConnection_cases conn files o hh₁
      have hgrows' := initDtlsConnection_grows conn files o h₁
      dsimp only
      generalize initDtlsConnection conn files o h₁ = r at hdtls hgrows' ⊢
      obtain ⟨tls, hholds, htls, hdangles⟩ := hdtls.tls hfresh
      obtain ⟨hfd, hself, hsocket⟩ := hdtls.socket
      rw [hrole] at htls hdangles
      refine ⟨fun x hx => hgrows' x (hgrows x hx), tls, ⟨hfd ▸ hfresh.udpFd, htls, hdangles⟩, ?_⟩
      rw [hself, hsocket, add_assoc, ← fresh_objects hfresh]
      exact hholds

structure Created (o : ForwarderOutcomes) (args : ForwarderArgs) (ctx : ForwarderCtx) (h : Heap)
    (live inboundTls outboundTls : Multiset Obj) : Prop where
  holds : Holds h (outboundTls + ({ctx.outbound.socket} + {ctx.outbound.self}) + (inboundTls +
    ({ctx.inbound.socket} + {ctx.inbound.self})) + (ctx.uringCtx.objects + {ctx.self}) + live)
  inbound : Side .server ⟨args.certFile, args.keyFile, none⟩ o.inboundDtls ctx.inbound h inboundTls
  outbound : Side .client ⟨none, none, args.caFile⟩ o.outboundDtls ctx.outbound h outboundTls

theorem forwarderCreate_created {c : IouringConfig} {args : ForwarderArgs} {o : ForwarderOutcomes}
    {h h' : Heap} {live : Multiset Obj} {ctx : ForwarderCtx} (hh : Holds h live)
    (hcreate : forwarderCreate c args o h = (some ctx, h')) :
    ∃ inboundTls outboundTls, Created o args ctx h' live inboundTls outboundTls := by
  unfold forwarderCreate at hcreate
  rcases acquire_cases h o.ctx with ⟨-, hacq⟩ | ⟨-, hacq⟩
  · rw [hacq] at hcreate
    dsimp only at hcreate
    have hinit := iouringInit_cases c o.uring hh.acquire
    generalize iouringInit c o.uring _ = r at hinit hcreate
    cases hinit with
    | clean => cases hcreate
    | leaky => cases hcreate
    | done h₁ u _ _ hu =>
        dsimp only at hcreate
        rcases hin : createConnection .server none 0 args.inboundPort o.inbound h₁ with
          ⟨_ | inbound, h₂⟩
        · simp [hin] at hcreate
        obtain ⟨-, tls, hside, hh₃⟩ := side_created ⟨args.certFile, args.keyFile, none⟩
          o.inboundDtls hu hin
        rw [hin] at hcreate
        dsimp only at hcreate
        generalize initDtlsConnection inbound _ o.inboundDtls h₂ = r at hside hh₃ hcreate
        obtain ⟨ret, inbound', h₃⟩ := r
        dsimp only at hside hh₃ hcreate
        split at hcreate
        · cases hcreate
        rcases hout : createConnection .client args.remoteHost args.remotePort args.outboundPort
          o.outbound h₃ with ⟨_ | outbound, h₄⟩
        · simp [hout] at hcreate
        obtain ⟨hgrows, tls', hside', hh₅⟩ := side_created ⟨none, none, args.caFile⟩
          o.outboundDtls hh₃ hout
        rw [hout] at hcreate
        dsimp only at hcreate
        generalize initDtlsConnection outbound _ o.outboundDtls h₄ = r
          at hgrows hside' hh₅ hcreate
        obtain ⟨ret', outbound', h₅⟩ := r
        dsimp only at hgrows hside' hh₅ hcreate
        split at hcreate
        · cases hcreate
        · obtain ⟨hctx, rfl⟩ := Prod.mk.inj hcreate
          obtain rfl := Option.some.inj hctx
          refine ⟨tls, tls', hh₅.congr ?_, hside.grows hgrows, hside'⟩
          rw [← Multiset.singleton_add]
          ac_rfl
  · rw [hacq] at hcreate
    cases hcreate

theorem forwarderDestroy_frees (ctx : ForwarderCtx) (hin : 0 ≤ ctx.inbound.udpFd)
    (hout : 0 ≤ ctx.outbound.udpFd) (ret : Int) (h : Heap) :
    Frees h (ctx.outbound.tlsObjects + ctx.inbound.tlsObjects + ctx.uringCtx.cleaned ret +
        (({ctx.inbound.socket} + {ctx.inbound.self}) +
          ({ctx.outbound.socket} + {ctx.outbound.self})) + {ctx.self})
      (forwarderDestroy ctx ret h) :=
  ((((cleanTls_frees ctx.outbound h).trans (cleanTls_frees ctx.inbound _)).trans
    (iouringCleanup_frees ctx.uringCtx ret _)).trans
      ((closeAndFree_frees hin _).trans (closeAndFree_frees hout _))).trans (.release _ _)

/-- An SSL object that was freed already is freed again with its connection. -/
theorem Side.freed_twice {role : ConnRole} {files : Files} {o : DtlsOutcomes} {conn : Connection}
    {h h' : Heap} {tls x : Multiset Obj} (hside : Side role files o conn h tls)
    (hfrees : Frees h x h') (hsub : conn.tlsObjects ⊆ x) (hdangles : o.Dangles role files) :
    ∃ ssl, conn.ssl = some ssl ∧ 2 ≤ h'.released.count ssl := by
  obtain ⟨ssl, hfreed, hssl⟩ := hside.dangles hdangles
  have hmem : ssl ∈ conn.tlsObjects := by
    simp [Connection.tlsObjects, Connection.sslObjects, hssl]
  exact ⟨ssl, hssl, hfrees.twice (hsub hmem) hfreed⟩

/-- Everything that a forwarder has acquired is released once when it is destroyed,
what the pools have lost apart, as long as both DTLS connections could get their
BIOs; the SSL object of a connection that could not is freed twice. -/
theorem forwarder_lifecycle (c : IouringConfig) (args : ForwarderArgs) (o : ForwarderOutcomes)
    (p : Process) {ctx : ForwarderCtx} {h : Heap}
    (hcreate : forwarderCreate c args o p.heap = (some ctx, h)) {ops bufs : List Obj}
    (hops : (ops : Multiset Obj) ≤ ctx.uringCtx.buffers.ioOpPool)
    (hbufs : (bufs : Multiset Obj) ≤ ctx.uringCtx.buffers.bufAddrPool) (ret : Int) :
    let h' := forwarderDestroy (ctx.leave ops bufs) ret h
    let inboundDangles := o.inboundDtls.Dangles .server ⟨args.certFile, args.keyFile, none⟩
    let outboundDangles := o.outboundDtls.Dangles .client ⟨none, none, args.caFile⟩
    ((∀ x, h'.released.count x ≤ 1) ↔ ¬ (inboundDangles ∨ outboundDangles)) ∧
      (¬ (inboundDangles ∨ outboundDangles) →
        Holds h' (ctx.uringCtx.buffers.lost none ops bufs ret + p.live)) ∧
      (inboundDangles → ∃ ssl, ctx.inbound.ssl = some ssl ∧ 2 ≤ h'.released.count ssl) ∧
      (outboundDangles → ∃ ssl, ctx.outbound.ssl = some ssl ∧ 2 ≤ h'.released.count ssl) := by
  obtain ⟨inboundTls, outboundTls, hcreated⟩ := forwarderCreate_created p.ledger hcreate
  have hfrees := forwarderDestroy_frees (ctx.leave ops bufs) hcreated.inbound.udpFd
    hcreated.outbound.udpFd ret h
  have hnone : ptr none + (ops : Multiset Obj) ≤ ctx.uringCtx.buffers.ioOpPool := by
    rwa [ptr_none, zero_add]
  have hring := released_add_lost ret hnone hbufs
  have hclean : ¬ (o.inboundDtls.Dangles .server ⟨args.certFile, args.keyFile, none⟩ ∨
      o.outboundDtls.Dangles .client ⟨none, none, args.caFile⟩) →
      Holds (forwarderDestroy (ctx.leave ops bufs) ret h)
        (ctx.uringCtx.buffers.lost none ops bufs ret + p.live) := by
    intro hnot
    rw [not_or] at hnot
    apply hfrees.holds (hcreated.holds.congr ?_)
    rw [hcreated.inbound.tls hnot.1, hcreated.outbound.tls hnot.2, ← hring, ptr_none, zero_add]
    show _ = _ + _ + (ctx.uringCtx.leave ops bufs).cleaned ret + _ + _ + _
    ac_rfl
  have hinbound := hcreated.inbound.freed_twice hfrees fun x hx => by
    simp [ForwarderCtx.leave, hx]
  have houtbound := hcreated.outbound.freed_twice hfrees fun x hx => by
    simp [ForwarderCtx.leave, hx]
  refine ⟨⟨?_, fun hnot => (hclean hnot).released_le_one⟩, hclean, hinbound, houtbound⟩
  rintro hone (hdangles | hdangles)
  · obtain ⟨ssl, -, htwice⟩ := hinbound hdangles
    have honce := hone ssl
    omega
  · obtain ⟨ssl, -, htwice⟩ := houtbound hdangles
    have honce := hone ssl
    omega

def oneOp : IouringConfig := ⟨8, 1024, 1, 2048, 1, 0, 0⟩

def noBios : ForwarderOutcomes :=
  { allWell with
    inboundDtls := { allWell.inboundDtls with rbio := false }
    outboundDtls := { allWell.outboundDtls with wbio := false } }

/-- Both SSL objects are freed twice. -/
theorem forwarder_lifecycle_noBios :
    ∃ ctx h, forwarderCreate oneOp relayArgs noBios Heap.empty = (some ctx, h) ∧
      (∃ ssl, ctx.inbound.ssl = some ssl ∧ 2 ≤ (forwarderDestroy ctx 0 h).released.count ssl) ∧
      ∃ ssl, ctx.outbound.ssl = some ssl ∧ 2 ≤ (forwarderDestroy ctx 0 h).released.count ssl := by
  obtain ⟨ctx, h, hcreate⟩ : ∃ ctx h,
      forwarderCreate oneOp relayArgs noBios Heap.empty = (some ctx, h) := ⟨_, _, rfl⟩
  obtain ⟨-, -, hinbound, houtbound⟩ := @forwarder_lifecycle oneOp relayArgs noBios
    ⟨Heap.empty, 0, holds_empty⟩ ctx h hcreate ctx.uringCtx.buffers.ioOpPool
    ctx.uringCtx.buffers.bufAddrPool le_rfl le_rfl 0
  refine ⟨ctx, h, hcreate, hinbound ?_, houtbound ?_⟩
  · refine ⟨⟨rfl, rfl, rfl, by simp, fun _ => ?_⟩, rfl, fun hbios => ?_⟩
    · exact ⟨by simp [relayArgs], by simp [relayArgs], rfl, rfl, rfl⟩
    · exact Bool.false_ne_true hbios.1
  · refine ⟨⟨rfl, rfl, rfl, fun _ _ => rfl, by simp⟩, rfl, fun hbios => ?_⟩
    exact Bool.false_ne_true hbios.2

/-! ## The edges -/

/-- How a `main` ends that has come from `start` to `r`.  It returns 0 exactly on
`ok`, and then the connection is all that it has not released, what the pools have
lost apart; otherwise it has released nothing twice and nothing that is not its own. -/
structure EndsWell (ok : Prop) (start : MainResult) (rest : EdgeRest) (live : Multiset Obj)
    (r : Exit × Host) : Prop where
  code : r.1 = .returned 0 ↔ ok
  settled : r.1 = .returned 0 → ∃ conn u, start = .submits (some conn) u ∧
    Holds r.2.heap ({conn.self} +
      u.buffers.lost rest.freedOp rest.ioOpPool rest.bufAddrPool rest.freeBufRing + live)
  careful : r.1 ≠ .returned 0 → ∃ held, Holds r.2.heap (held + live)

theorem EndsWell.early {ok : Prop} {start : MainResult} {rest : EdgeRest} {live held : Multiset Obj}
    {result : Exit} {s : Host} (hfail : ¬ ok) (hcode : result ≠ .returned 0)
    (hh : Holds s.heap (held + live)) : EndsWell ok start rest live (result, s) :=
  ⟨iff_of_false hcode hfail, fun h => absurd h hcode, fun _ => ⟨held, hh⟩⟩

theorem EndsWell.congr {ok ok' : Prop} {start : MainResult} {rest : EdgeRest}
    {live : Multiset Obj} {r : Exit × Host} (h : EndsWell ok start rest live r) (hiff : ok ↔ ok') :
    EndsWell ok' start rest live r :=
  ⟨h.code.trans hiff, h.settled, h.careful⟩

/-- From `new_tun_device` on the exit code is 0 exactly when the device is set up and
read from; nothing of the ring context, the device and the socket remains then but
what is lost, and before that nothing is released. -/
theorem edgeFromTun_spec (args : EdgeArgs) (tunIp : Text) {rest : EdgeRest} {conn : Connection}
    {u : Uring} {cleanTls : Heap → Heap} {tls live : Multiset Obj} {s : Host}
    (hopen : 0 ≤ conn.udpFd) (htls : ∀ h, Frees h tls (cleanTls h)) (hfits : rest.Fits u)
    (hh : Holds s.heap (tls + ({conn.socket} + u.objects) + live)) :
    let r := edgeFromTun args tunIp rest conn u cleanTls s
    (r.1 = .returned 0 ↔ rest.TunReady tunIp) ∧
      (r.1 = .returned 0 → Holds r.2.heap
        (u.buffers.lost rest.freedOp rest.ioOpPool rest.bufAddrPool rest.freeBufRing + live)) ∧
      (r.1 ≠ .returned 0 → ∃ held,
        Holds r.2.heap (held + (tls + ({conn.socket} + u.objects) + live))) := by
  have hcases := newTunDevice_cases (some args.tunIfname) (some tunIp)
    (some "255.255.255.0".toList) 1400 rest.tun s
  dsimp only
  unfold edgeFromTun
  generalize newTunDevice (some args.tunIfname) (some tunIp) (some "255.255.255.0".toList) 1400
    rest.tun s = r at *
  cases hcases with
  | failed hfail hdid =>
      have hheld := hdid.holds _ (hh.congr (zero_add _).symm)
      exact ⟨iff_of_false (by simp) fun hok => hfail hok.1, by simp, fun _ => ⟨0, hheld⟩⟩
  | @done s' tun hok hsetUp hdid =>
      have hheld := hdid.holds _ (hh.congr (zero_add _).symm)
      dsimp only
      by_cases hreads : rest.tunReads = 0
      · rw [if_neg (not_not.mpr hreads)]
        refine ⟨iff_of_true rfl ⟨hok, hreads⟩, fun _ => ?_, fun h => absurd rfl h⟩
        have hfrees := (((Frees.releaseIf s'.heap rest.freedOp).trans (htls _)).trans
          (iouringCleanup_frees (u.leave rest.ioOpPool rest.bufAddrPool) rest.freeBufRing _)).trans
            (udpSocketClose_frees hopen _)
        have hfd : 0 ≤ tun.fd := hsetUp.fd ▸ hok.create.openTun
        apply tunDevice_end_holds hfd
        apply hfrees.holds (hheld.congr ?_)
        rw [← released_add_lost rest.freeBufRing hfits.1 hfits.2]
        ac_rfl
      · rw [if_pos hreads]
        exact ⟨iff_of_false (by simp [hreads]) fun h => hreads h.2, fun h => by simp_all,
          fun _ => ⟨_, hheld⟩⟩

inductive Starts (ok : Prop) (tls : Connection → Multiset Obj → Prop)
    (fails : MainResult → Prop) (live : Multiset Obj) : MainResult × Heap → Prop
  | submits {h : Heap} (conn : Connection) (u : Uring) (held : Multiset Obj) (hok : ok)
      (hopen : 0 ≤ conn.udpFd) (htls : tls conn held)
      (hh : Holds h (held + ({conn.socket} + {conn.self}) + u.objects + live)) :
      Starts ok tls fails live (.submits (some conn) u, h)
  | stops {h : Heap} (result : MainResult) (held : Multiset Obj) (hfail : ¬ ok)
      (hresult : fails result) (hh : Holds h (held + live)) :
      Starts ok tls fails live (result, h)

theorem iouringInit_failed {c : IouringConfig} {o : UringOutcomes} {h h' : Heap} {socket : Obj}
    {live : Multiset Obj} (hh : Holds h (socket ::ₘ live))
    (hinit : iouringInit c o h = (none, h')) :
    ∃ held, Holds (h'.release socket) (held + live) := by
  have hcases := iouringInit_cases c o hh
  rw [hinit] at hcases
  cases hcases with
  | clean _ _ hh' => exact ⟨0, (Holds.release hh').congr (zero_add live).symm⟩
  | leaky _ leaked _ _ _ hh' => exact ⟨leaked, Holds.release (hh'.congr (Multiset.add_cons _ _ _))⟩

theorem edgeZeroMain_starts (c : IouringConfig) (args : EdgeArgs) (o : EdgeOutcomes) {h : Heap}
    {live : Multiset Obj} (hh : Holds h live) :
    Starts (o.Connects args ∧ o.uring.Succeeds c) (fun _ held => held = 0)
      (fun result => o.Connects args ∧ result = .returned 1 ∨
        ¬ o.Connects args ∧ (result = .nullRead ∨ ∃ u, result = .submits none u))
      live (edgeZeroMain c args o h) := by
  unfold edgeZeroMain
  have hconn := createConnection_cases args.role args.remoteHost args.remotePort args.localPort
    o.conn hh
  generalize hcreate : createConnection args.role args.remoteHost args.remotePort args.localPort
    o.conn h = r at hconn ⊢
  cases hconn with
  | failed h₁ hfail hh₁ =>
      have hinit := iouringInit_cases c o.uring hh₁
      dsimp only
      generalize iouringInit c o.uring h₁ = r at hinit ⊢
      have hstop : ¬ (o.Connects args ∧ o.uring.Succeeds c) := fun h => hfail h.1
      cases hinit with
      | clean h₂ _ hh₂ =>
          exact .stops _ 0 hstop (.inr ⟨hfail, .inl rfl⟩) (hh₂.congr (zero_add live).symm)
      | leaky h₂ leaked _ _ _ hh₂ => exact .stops _ leaked hstop (.inr ⟨hfail, .inl rfl⟩) hh₂
      | done h₂ u _ _ hh₂ => exact .stops _ u.objects hstop (.inr ⟨hfail, .inr ⟨u, rfl⟩⟩) hh₂
  | done h₁ conn hok _ hh₁ =>
      have hfresh := createConnection_fresh hcreate
      have hsome := iouringInit_isSome c o.uring hh₁
      rw [fresh_objects hfresh, add_assoc, Multiset.singleton_add] at hh₁
      dsimp only
      generalize hinit : iouringInit c o.uring h₁ = r at hsome ⊢
      obtain ⟨_ | u, h₂⟩ := r
      · obtain ⟨held, hh₂⟩ := iouringInit_failed hh₁ hinit
        have hfail : ¬ o.uring.Succeeds c := fun h => by simpa using hsome.mpr h
        exact .stops _ (held + {conn.self}) (fun h => hfail h.2) (.inl ⟨hok, rfl⟩)
          (hh₂.congr (add_assoc _ _ _).symm)
      · have hcases := iouringInit_cases c o.uring hh₁
        rw [hinit] at hcases
        cases hcases with
        | done _ _ huring _ hh₂ =>
            refine .submits conn u 0 ⟨hok, huring⟩ hfresh.udpFd rfl (hh₂.congr ?_)
            rw [← Multiset.singleton_add, zero_add]
            ac_rfl

theorem edgeMain_starts (c : IouringConfig) (args : EdgeArgs) (o : EdgeOutcomes) {h : Heap}
    {live : Multiset Obj} (hh : Holds h live) :
    Starts (o.Connects args ∧ ¬ o.dtls.Succeeds args.role args.files ∧ o.uring.Succeeds c)
      (fun conn held => ¬ o.dtls.Dangles args.role args.files → held = conn.tlsObjects)
      (fun result => result = .returned (-1) ∨ result = .returned 1) live
      (edgeMain c args o h) := by
  unfold edgeMain
  have hconn := createConnection_cases args.role args.remoteHost args.remotePort args.localPort
    o.conn hh
  generalize hcreate : createConnection args.role args.remoteHost args.remotePort args.localPort
    o.conn h = r at hconn ⊢
  cases hconn with
  | failed h₁ hfail hh₁ =>
      exact .stops _ 0 (fun h => hfail h.1) (.inl rfl) (hh₁.congr (zero_add live).symm)
  | done h₁ conn hok hrole hh₁ =>
      have hfresh := createConnection_fresh hcreate
      have hdtls := initDtlsConnection_cases conn args.files o.dtls hh₁
      dsimp only
      generalize initDtlsConnection conn args.files o.dtls h₁ = r at hdtls ⊢
      have htest := notRetNeZero_iff hdtls
      obtain ⟨tls, hh₂, hholds, -⟩ := hdtls.tls hfresh
      obtain ⟨hfd, hself, hsocket⟩ := hdtls.socket
      obtain ⟨ret, conn', h₂⟩ := r
      rw [hrole] at htest hholds
      dsimp only at htest hh₂ hholds hfd hself hsocket ⊢
      rw [fresh_objects hfresh, ← hself, ← hsocket] at hh₂
      by_cases hgo : notRetNeZero ret = true
      · rw [if_pos hgo]
        exact .stops _ (tls + ({conn'.socket} + {conn'.self})) (fun h => h.2.1 (htest.mp hgo))
          (.inl rfl) (hh₂.congr (by ac_rfl))
      · rw [if_neg hgo]
        have hdtlsFail : ¬ o.dtls.Succeeds args.role args.files := mt htest.mpr hgo
        have hsome := iouringInit_isSome c o.uring hh₂
        generalize hinit : iouringInit c o.uring h₂ = r at hsome ⊢
        obtain ⟨_ | u, h₃⟩ := r
        · have hfail : ¬ o.uring.Succeeds c := fun h => by simpa using hsome.mpr h
          have hsocketFirst : tls + ({conn'.socket} + {conn'.self} + live) =
              conn'.socket ::ₘ (tls + {conn'.self} + live) := by
            rw [← Multiset.singleton_add]
            ac_rfl
          obtain ⟨held, hh₃⟩ := iouringInit_failed (hh₂.congr hsocketFirst) hinit
          exact .stops _ (held + (tls + {conn'.self})) (fun h => hfail h.2.2) (.inr rfl)
            (hh₃.congr (by ac_rfl))
        · have hcases := iouringInit_cases c o.uring hh₂
          rw [hinit] at hcases
          cases hcases with
          | done _ _ huring _ hh₃ =>
              exact .submits conn' u tls ⟨hok, hdtlsFail, huring⟩ (hfd ▸ hfresh.udpFd) hholds
                (hh₃.congr (by ac_rfl))

theorem edgeFromTun_endsWell (args : EdgeArgs) (tunIp : Text) {rest : EdgeRest}
    {conn : Connection} {u : Uring} {cleanTls : Heap → Heap} {tls live : Multiset Obj} {s : Host}
    (hopen : 0 ≤ conn.udpFd) (htls : ∀ h, Frees h tls (cleanTls h)) (hfits : rest.Fits u)
    (hh : Holds s.heap (tls + ({conn.socket} + {conn.self}) + u.objects + live)) :
    EndsWell (rest.TunReady tunIp) (.submits (some conn) u) rest live
      (edgeFromTun args tunIp rest conn u cleanTls s) := by
  have horder : tls + ({conn.socket} + {conn.self}) + u.objects + live =
      tls + ({conn.socket} + u.objects) + ({conn.self} + live) := by
    ac_rfl
  obtain ⟨hcode, hsettled, hcareful⟩ :=
    edgeFromTun_spec args tunIp hopen htls hfits (hh.congr horder)
  refine ⟨hcode, fun h0 => ⟨conn, u, rfl, ?_⟩, fun h0 => ?_⟩
  · exact (hsettled h0).congr (by ac_rfl)
  · obtain ⟨held, hheld⟩ := hcareful h0
    exact ⟨held + (tls + ({conn.socket} + u.objects) + {conn.self}), hheld.congr (by ac_rfl)⟩

theorem edgeFromTun_returns (args : EdgeArgs) (tunIp : Text) (rest : EdgeRest) (conn : Connection)
    (u : Uring) (cleanTls : Heap → Heap) (s : Host) :
    ∃ code, (edgeFromTun args tunIp rest conn u cleanTls s).1 = .returned code := by
  unfold edgeFromTun
  split
  · exact ⟨1, rfl⟩
  · split
    · exact ⟨_, rfl⟩
    · exact ⟨0, rfl⟩

theorem edgeZeroMain_endsWell (c : IouringConfig) (args : EdgeArgs) (tunIp : Text)
    (o : EdgeOutcomes) (rest : EdgeRest) {s : Host} {live : Multiset Obj} (hh : Holds s.heap live)
    (hfits : ∀ conn u, (edgeZeroMain c args o s.heap).1 = .submits (some conn) u → rest.Fits u) :
    EndsWell (o.Connects args ∧ o.uring.Succeeds c ∧ rest.udpRecvs = 0 ∧ rest.TunReady tunIp)
        (edgeZeroMain c args o s.heap).1 rest live (edgeZeroMainToEnd c args tunIp o rest s) ∧
      ((edgeZeroMainToEnd c args tunIp o rest s).1 = .nullRead ↔ ¬ o.Connects args) := by
  have hstarts := edgeZeroMain_starts c args o hh
  unfold edgeZeroMainToEnd
  generalize edgeZeroMain c args o s.heap = start at *
  cases hstarts with
  | @submits h conn u tls hok hopen htls hh₁ =>
      dsimp only
      by_cases hrecvs : rest.udpRecvs = 0
      · rw [if_neg (not_not.mpr hrecvs)]
        subst htls
        have hends := edgeFromTun_endsWell args tunIp (s := { s with heap := h }) hopen
          (fun h => Frees.refl h) (hfits conn u rfl) hh₁
        obtain ⟨code, hcode⟩ := edgeFromTun_returns args tunIp rest conn u id { s with heap := h }
        refine ⟨hends.congr (by tauto), iff_of_false (fun hnull => ?_) (not_not.mpr hok.1)⟩
        cases hcode.symm.trans hnull
      · rw [if_pos hrecvs]
        exact ⟨.early (fun h => hrecvs h.2.2.1) (by simp) hh₁,
          iff_of_false (by simp) (not_not.mpr hok.1)⟩
  | stops result held hfail hresult hh₁ =>
      rcases hresult with ⟨hconn, rfl⟩ | ⟨hconn, rfl | ⟨u, rfl⟩⟩
      · exact ⟨.early (fun h => hfail ⟨h.1, h.2.1⟩) (by simp) hh₁,
          iff_of_false (by simp) (not_not.mpr hconn)⟩
      · exact ⟨.early (fun h => hconn h.1) (by simp) hh₁, iff_of_true rfl hconn⟩
      · exact ⟨.early (fun h => hconn h.1) (by simp) hh₁, iff_of_true rfl hconn⟩

theorem edgeMain_endsWell (c : IouringConfig) (args : EdgeArgs) (tunIp : Text)
    (o : EdgeOutcomes) (rest : EdgeRest) {s : Host} {live : Multiset Obj} (hh : Holds s.heap live)
    (hfits : ∀ conn u, (edgeMain c args o s.heap).1 = .submits (some conn) u → rest.Fits u)
    (hdangles : ¬ o.dtls.Dangles args.role args.files) :
    EndsWell (o.Connects args ∧ ¬ o.dtls.Succeeds args.role args.files ∧ o.uring.Succeeds c ∧
        rest.udpRecvs = 0 ∧ rest.handshake = 0 ∧ rest.TunReady tunIp)
      (edgeMain c args o s.heap).1 rest live (edgeMainToEnd c args tunIp o rest s) := by
  have hstarts := edgeMain_starts c args o hh
  unfold edgeMainToEnd
  generalize edgeMain c args o s.heap = start at *
  cases hstarts with
  | @submits h conn u tls hok hopen htls hh₁ =>
      dsimp only
      obtain rfl := htls hdangles
      by_cases hrecvs : rest.udpRecvs = 0
      · rw [if_neg (not_not.mpr hrecvs)]
        by_cases hshake : rest.handshake = 0
        · rw [if_neg (not_not.mpr hshake)]
          have hends := edgeFromTun_endsWell args tunIp (s := { s with heap := h }) hopen
            (cleanTls_frees conn) (hfits conn u rfl) hh₁
          exact hends.congr (by tauto)
        · rw [if_pos hshake]
          exact .early (fun h => hshake h.2.2.2.2.1) (by simp) hh₁
      · rw [if_pos hrecvs]
        exact .early (fun h => hrecvs h.2.2.2.1) (by simp) hh₁
  | stops result held hfail hresult hh₁ =>
      rcases hresult with rfl | rfl
      · exact .early (fun h => hfail ⟨h.1, h.2.1, h.2.2.1⟩) (by simp) hh₁
      · exact .early (fun h => hfail ⟨h.1, h.2.1, h.2.2.1⟩) (by simp) hh₁

/-- Both `main`s return 0 exactly when everything up to the first read of the TUN
device has succeeded, however the loop ended, except that the one of `edge.c` does
so when its DTLS set-up has failed.  Then only the connection is not released; a
`main` that returns early has released nothing twice.  Without a connection the
`main` of `edge_zero.c` crashes.  For `edge.c` the DTLS set-up must not have left a
pointer to the SSL object that it has freed. -/
theorem edges_lifecycle (c : IouringConfig) (args : EdgeArgs) (tunIp : Text) (o : EdgeOutcomes)
    (rest : EdgeRest) {s : Host} {live : Multiset Obj} (hh : Holds s.heap live)
    (hfits : ∀ conn u, (edgeMain c args o s.heap).1 = .submits (some conn) u ∨
      (edgeZeroMain c args o s.heap).1 = .submits (some conn) u → rest.Fits u) :
    (¬ o.dtls.Dangles args.role args.files →
        EndsWell (o.Connects args ∧ ¬ o.dtls.Succeeds args.role args.files ∧ o.uring.Succeeds c ∧
            rest.udpRecvs = 0 ∧ rest.handshake = 0 ∧ rest.TunReady tunIp)
          (edgeMain c args o s.heap).1 rest live (edgeMainToEnd c args tunIp o rest s)) ∧
      EndsWell (o.Connects args ∧ o.uring.Succeeds c ∧ rest.udpRecvs = 0 ∧ rest.TunReady tunIp)
        (edgeZeroMain c args o s.heap).1 rest live (edgeZeroMainToEnd c args tunIp o rest s) ∧
      ((edgeZeroMainToEnd c args tunIp o rest s).1 = .nullRead ↔ ¬ o.Connects args) :=
  ⟨edgeMain_endsWell c args tunIp o rest hh fun conn u h => hfits conn u (.inl h),
    edgeZeroMain_endsWell c args tunIp o rest hh fun conn u h => hfits conn u (.inr h)⟩

/-- A client of `relay` to whom everything is granted but the release of the buffer
ring, and who has lost its op. -/
def oneRest : EdgeRest := ⟨0, 0, tunOutcomes, 0, none, [], [], -1, ⟨-1, 0, 0, 0⟩⟩

def relayClient : EdgeArgs := .client 4433 "relay"

def relayOutcomes : EdgeOutcomes := ⟨allWell.outbound, allWell.outboundDtls, allWell.uring⟩

theorem edges_lifecycle_client :
    (edgeZeroMainToEnd oneOp relayClient "10.8.0.1".toList relayOutcomes oneRest
      ⟨Heap.empty, [], []⟩).1 = .returned 0 := by
  have hlifecycle := edges_lifecycle oneOp relayClient "10.8.0.1".toList relayOutcomes oneRest
    (s := ⟨Heap.empty, [], []⟩) holds_empty
    fun _ _ _ => ⟨Multiset.zero_le _, Multiset.zero_le _⟩
  refine hlifecycle.2.1.code.mpr ⟨?_, ?_, rfl, ?_, rfl⟩
  · exact ⟨fun _ => ⟨by simp [relayClient, EdgeArgs.remoteHost], by decide, rfl⟩, rfl, by decide,
      fun _ => by decide⟩
  · exact ⟨⟨rfl, by decide⟩, fun _ _ => rfl, fun _ _ => rfl, rfl, rfl⟩
  · exact ⟨⟨rfl, by decide, by decide⟩, ⟨⟨[10, 8, 0, 1], rfl, rfl⟩, ⟨[255, 255, 255, 0], rfl, rfl⟩,
      by decide, by decide, by decide, by decide⟩, ⟨by decide, by decide, by decide⟩⟩

end Dataplane.Proofs.Startup
