import Dataplane.Model.TunDevice

/-!
# The end of a process: `forwarder_destroy` and the whole `main`s of the edges

The numbers of the objects are those of the start-up.  What happens between the
start-up and the end is known by its results: what the calls answer, what the loop
frees and what it has left in the two pools.
-/

namespace Dataplane.Model.Startup

/-! ## What both ends release -/

/-- `SSL_free(conn->ssl)`; the BIOs belong to the SSL object. -/
def sslFree (conn : Connection) (h : Heap) : Heap :=
  match conn.ssl with
  | none => h
  | some ssl => ((h.release ssl).releaseIf conn.rbio).releaseIf conn.wbio

def dtlsContextCleanup (dtlsCtx : Option DtlsCtx) (h : Heap) : Heap :=
  match dtlsCtx with
  | none => h
  | some dtlsCtx => (h.release dtlsCtx.ctx).release dtlsCtx.self

/-- `iouring_free_io_op_pool` and `iouring_free_buf_addr_pool` -/
def freePool (pool : List Obj) (h : Heap) : Heap := pool.foldl Heap.release h

/-- `iouring_free_buffers`; `ret` is what `io_uring_free_buf_ring` answers. -/
def iouringFreeBuffers (b : Buffers) (ret : Int) (h : Heap) : Heap :=
  let h := freePool b.bufAddrPool (freePool b.ioOpPool h)
  if ret ≠ 0 then h else (h.releaseIf b.br).releaseIf b.brBufs

def iouringCleanup (u : Uring) (ret : Int) (h : Heap) : Heap :=
  ((iouringFreeBuffers u.buffers ret h).release u.ring).release u.self

def Uring.leave (u : Uring) (ioOpPool bufAddrPool : List Obj) : Uring :=
  { u with buffers := { u.buffers with ioOpPool, bufAddrPool } }

/-! ## `forwarder_destroy` -/

def ForwarderCtx.leave (ctx : ForwarderCtx) (ioOpPool bufAddrPool : List Obj) : ForwarderCtx :=
  { ctx with uringCtx := ctx.uringCtx.leave ioOpPool bufAddrPool }

/-- `close` and `free` of a connection whose socket is open. -/
def closeAndFree (conn : Connection) (h : Heap) : Heap :=
  if conn.udpFd ≥ 0 then (h.release conn.socket).release conn.self else h

def forwarderDestroy (ctx : ForwarderCtx) (ret : Int) (h : Heap) : Heap :=
  let h := dtlsContextCleanup ctx.outbound.dtlsCtx (sslFree ctx.outbound h)
  let h := dtlsContextCleanup ctx.inbound.dtlsCtx (sslFree ctx.inbound h)
  let h := iouringCleanup ctx.uringCtx ret h
  let h := closeAndFree ctx.outbound (closeAndFree ctx.inbound h)
  h.release ctx.self

/-! ## The `main`s of `edge.c` and `edge_zero.c` -/

/-- What the calls behind the start-up answer, the op that the loop frees at its
end, and what is in the two pools then. -/
structure EdgeRest where
  udpRecvs : Int
  handshake : Int
  tun : TunOutcomes
  tunReads : Int
  freedOp : Option Obj
  ioOpPool : List Obj
  bufAddrPool : List Obj
  freeBufRing : Int
  down : TunFlagsOutcomes

/-- How a `main` ends; one that reads a field of a NULL connection crashes. -/
inductive Exit
  | returned (code : Int)
  | nullRead
  deriving DecidableEq

def EdgeArgs.tunIfname : EdgeArgs → Text
  | client .. => "tun0".toList
  | server .. => "tun1".toList

/-- `udp_socket_close(conn->udp_fd)` -/
def udpSocketClose (conn : Connection) (h : Heap) : Heap :=
  if conn.udpFd ≥ 0 then h.release conn.socket else h

/-- From `new_tun_device` to the end, with what is cleaned up in front of the ring
context. -/
def edgeFromTun (args : EdgeArgs) (tunIp : Text) (rest : EdgeRest) (conn : Connection) (u : Uring)
    (cleanTls : Heap → Heap) (s : Host) : Exit × Host :=
  match newTunDevice (some args.tunIfname) (some tunIp) (some "255.255.255.0".toList) 1400
      rest.tun s with
  | (none, s) => (.returned 1, s)
  | (some tun, s) =>
      if rest.tunReads ≠ 0 then (.returned rest.tunReads, s)
      else
        let h := cleanTls (s.heap.releaseIf rest.freedOp)
        let u := u.leave rest.ioOpPool rest.bufAddrPool
        let h := udpSocketClose conn (iouringCleanup u rest.freeBufRing h)
        (.returned 0, tunDeviceDestroy tun (tunDeviceDown tun rest.down { s with heap := h }).2)

/-- The `main` of `edge.c`; it returns 0 also when the loop was left with an error. -/
def edgeMainToEnd (c : IouringConfig) (args : EdgeArgs) (tunIp : Text) (o : EdgeOutcomes)
    (rest : EdgeRest) (s : Host) : Exit × Host :=
  match edgeMain c args o s.heap with
  | (.returned code, h) => (.returned code, { s with heap := h })
  | (.nullRead, h) => (.nullRead, { s with heap := h })
  | (.submits none _, h) => (.nullRead, { s with heap := h })
  | (.submits (some conn) u, h) =>
      if rest.udpRecvs ≠ 0 then (.returned (-1), { s with heap := h })
      else if rest.handshake ≠ 0 then (.returned 1, { s with heap := h })
      else edgeFromTun args tunIp rest conn u
        (fun h => dtlsContextCleanup conn.dtlsCtx (sslFree conn h)) { s with heap := h }

/-- The `main` of `edge_zero.c`; it returns 0 also when the loop was left with an
error. -/
def edgeZeroMainToEnd (c : IouringConfig) (args : EdgeArgs) (tunIp : Text) (o : EdgeOutcomes)
    (rest : EdgeRest) (s : Host) : Exit × Host :=
  match edgeZeroMain c args o s.heap with
  | (.returned code, h) => (.returned code, { s with heap := h })
  | (.nullRead, h) => (.nullRead, { s with heap := h })
  | (.submits none _, h) => (.nullRead, { s with heap := h })
  | (.submits (some conn) u, h) =>
      if rest.udpRecvs ≠ 0 then (.returned (-1), { s with heap := h })
      else edgeFromTun args tunIp rest conn u id { s with heap := h }

end Dataplane.Model.Startup
