import Dataplane.Model.Connection
import Mathlib.Data.Multiset.Count

/-!
# Start-up: `forwarder_create`, the two `main`s and what they call

What the start-up acquires (memory, the ring, sockets, OpenSSL objects) is
numbered in the order of acquisition; a `Heap` knows how many objects there
have been and which of them were released.  The external calls are parameters:
the `Outcomes` structures hold what each of them is going to return.
-/

namespace Dataplane.Model.Startup

open ProofSupport

/-! ## Objects -/

abbrev Obj := Nat

structure Heap where
  next : Nat
  released : Multiset Obj

namespace Heap

def empty : Heap := ⟨0, 0⟩

/-- An allocation or another call that creates an object, when it succeeds. -/
def acquire (h : Heap) (ok : Bool) : Option Obj × Heap :=
  if ok then (some h.next, { h with next := h.next + 1 }) else (none, h)

/-- `free(o)`, `close(o)`, `SSL_CTX_free(o)`, `SSL_free(o)`, `BIO_free(o)` -/
def release (h : Heap) (o : Obj) : Heap := { h with released := o ::ₘ h.released }

/-- `if (o) BIO_free(o)` -/
def releaseIf (h : Heap) (o : Option Obj) : Heap :=
  match o with
  | none => h
  | some o => h.release o

end Heap

/-! ## `iouring_init` -/

/-- `calloc` of the context, `io_uring_queue_init_params`, the `calloc`s of the
two pools, `posix_memalign` and `io_uring_setup_buf_ring`. -/
structure UringOutcomes where
  ctx : Bool
  queueInit : Int
  ioOp : Nat → Bool
  bufAddr : Nat → Bool
  posixMemalign : Int
  setupBufRing : Bool

/-- What `iouring_alloc_buffers` puts into the context. -/
structure Buffers where
  ioOpPool : List Obj
  bufAddrPool : List Obj
  brBufs : Option Obj
  br : Option Obj

/-- `iouring_ctx_t` with the objects it holds. -/
structure Uring where
  self : Obj
  ring : Obj
  buffers : Buffers

/-- `iouring_alloc_io_op_pool` and `iouring_alloc_buf_addr_pool`, which differ
in what they allocate: the result and the pool. -/
def allocPool (calloc : Nat → Bool) : Nat → Heap → Int × List Obj × Heap
  | 0, h => (0, [], h)
  | n + 1, h =>
      match allocPool calloc n h with
      | (ret, pool, h) =>
          if ret ≠ 0 then (ret, pool, h)
          else match h.acquire (calloc n) with
            | (none, h) => (-1, pool, h)
            | (some item, h) => (0, pool ++ [item], h)

/-- `iouring_alloc_multishot_buffers`: the result, `br_bufs` and `br`. -/
def iouringAllocMultishotBuffers (o : UringOutcomes) (h : Heap) :
    Int × Option Obj × Option Obj × Heap :=
  match h.acquire (decide (o.posixMemalign = 0)) with
  | (none, h) => (-1, none, none, h)
  | (some brBufs, h) =>
      match h.acquire o.setupBufRing with
      | (none, h) => (-1, some brBufs, none, h)
      | (some br, h) => (0, some brBufs, some br, h)

def iouringAllocBuffers (c : IouringConfig) (o : UringOutcomes) (h : Heap) : Int × Buffers × Heap :=
  match allocPool o.ioOp c.nIoOps h with
  | (ret, ioOpPool, h) =>
      if ret ≠ 0 then (-1, ⟨ioOpPool, [], none, none⟩, h)
      else match allocPool o.bufAddr c.nIoOps h with
        | (ret, bufAddrPool, h) =>
            if ret ≠ 0 then (-1, ⟨ioOpPool, bufAddrPool, none, none⟩, h)
            else match iouringAllocMultishotBuffers o h with
              | (ret, brBufs, br, h) =>
                  (if ret ≠ 0 then -1 else 0, ⟨ioOpPool, bufAddrPool, brBufs, br⟩, h)

/-- `iouring_init`.  When `iouring_alloc_buffers` fails it returns NULL without
releasing anything. -/
def iouringInit (c : IouringConfig) (o : UringOutcomes) (h : Heap) : Option Uring × Heap :=
  match h.acquire o.ctx with
  | (none, h) => (none, h)
  | (some self, h) =>
      match h.acquire (decide (0 ≤ o.queueInit)) with
      | (none, h) => (none, h.release self)
      | (some ring, h) =>
          match iouringAllocBuffers c o h with
          | (ret, buffers, h) =>
              if ret ≠ 0 then (none, h) else (some ⟨self, ring, buffers⟩, h)

/-! ## `create_connection` -/

/-- `calloc` of the connection, `getaddrinfo` with the address it finds,
`socket` and `bind`. -/
structure ConnOutcomes where
  conn : Bool
  getaddrinfo : Int
  aiAddr : Bytes
  socket : Int
  bind : Int

/-- `dtls_ctx_t` without the copies of the file names, which nothing reads. -/
structure DtlsCtx where
  self : Obj
  ctx : Obj

/-- `connection_t` with the objects it points to; `socket` is the one behind
`udp_fd`. -/
structure Connection where
  self : Obj
  udpFd : Int
  socket : Obj
  role : ConnRole
  dtlsCtx : Option DtlsCtx
  ssl : Option Obj
  rbio : Option Obj
  wbio : Option Obj
  addr : Bytes
  addrLen : Nat
  state : ConnState

/-- `resolve_hostname`: the result and the address. -/
def resolveHostname (o : ConnOutcomes) (h : Heap) : Int × Bytes × Heap :=
  if o.getaddrinfo ≠ 0 then (-1, [], h)
  else match h.acquire true with
    | (result, h) => (0, o.aiAddr, h.releaseIf result)

/-- `create_connection` from `udp_socket_create` on. -/
def openSocket (role : ConnRole) (localPort : UInt16) (o : ConnOutcomes) (conn : Obj)
    (addr : Bytes) (h : Heap) : Option Connection × Heap :=
  match h.acquire (decide (0 ≤ o.socket)) with
  | (none, h) => (none, h.release conn)
  | (some socket, h) =>
      if localPort > 0 ∧ o.bind < 0 then (none, (h.release socket).release conn)
      else (some ⟨conn, o.socket, socket, role, none, none, none, none, addr, addr.length,
        .handshaking⟩, h)

def createConnection (role : ConnRole) (remoteHost : Option String) (remotePort localPort : UInt16)
    (o : ConnOutcomes) (h : Heap) : Option Connection × Heap :=
  if role = .client ∧ (remoteHost = none ∨ remotePort = 0) then (none, h)
  else match h.acquire o.conn with
    | (none, h) => (none, h)
    | (some conn, h) =>
        if role = .client then
          match resolveHostname o h with
          | (ret, addr, h) =>
              if ret < 0 then (none, h.release conn)
              else openSocket role localPort o conn addr h
        else openSocket role localPort o conn [] h

/-! ## `init_dtls_connection` -/

/-- `calloc` of the context, `SSL_CTX_new`, `SSL_CTX_use_certificate_file`,
`SSL_CTX_use_PrivateKey_file`, `SSL_CTX_check_private_key`,
`SSL_CTX_load_verify_locations`, `SSL_CTX_set_cipher_list`, `SSL_new` and the
two `BIO_new`. -/
structure DtlsOutcomes where
  dtlsCtx : Bool
  sslCtx : Bool
  certificateFile : Int
  privateKeyFile : Int
  checkPrivateKey : Int
  verifyLocations : Int
  cipherList : Int
  ssl : Bool
  rbio : Bool
  wbio : Bool

def dtlsServerContextInit (certFile keyFile : Option String) (o : DtlsOutcomes) (h : Heap) :
    Option DtlsCtx × Heap :=
  if certFile = none ∨ keyFile = none then (none, h)
  else match h.acquire o.dtlsCtx with
    | (none, h) => (none, h)
    | (some dtlsCtx, h) =>
        match h.acquire o.sslCtx with
        | (none, h) => (none, h.release dtlsCtx)
        | (some ctx, h) =>
            if o.certificateFile ≠ 1 then (none, (h.release ctx).release dtlsCtx)
            else if o.privateKeyFile ≠ 1 then (none, (h.release ctx).release dtlsCtx)
            else if o.checkPrivateKey ≠ 1 then (none, (h.release ctx).release dtlsCtx)
            else if o.cipherList ≠ 1 then (none, (h.release ctx).release dtlsCtx)
            else (some ⟨dtlsCtx, ctx⟩, h)

def dtlsClientContextInit (caFile : Option String) (o : DtlsOutcomes) (h : Heap) :
    Option DtlsCtx × Heap :=
  match h.acquire o.dtlsCtx with
  | (none, h) => (none, h)
  | (some dtlsCtx, h) =>
      match h.acquire o.sslCtx with
      | (none, h) => (none, h.release dtlsCtx)
      | (some ctx, h) =>
          if caFile ≠ none ∧ o.verifyLocations ≠ 1 then (none, (h.release ctx).release dtlsCtx)
          else if o.cipherList ≠ 1 then (none, (h.release ctx).release dtlsCtx)
          else (some ⟨dtlsCtx, ctx⟩, h)

/-- `dtls_setup_bio_pair`: the result and the two BIOs, with the values of
`*rbio_ptr` and `*wbio_ptr` it leaves alone when it fails. -/
def dtlsSetupBioPair (o : DtlsOutcomes) (conn : Connection) (h : Heap) : Int × Connection × Heap :=
  match h.acquire o.rbio with
  | (rbio, h) =>
      match h.acquire o.wbio with
      | (wbio, h) =>
          if rbio = none ∨ wbio = none then (-1, conn, (h.releaseIf rbio).releaseIf wbio)
          else (0, { conn with rbio := rbio, wbio := wbio }, h)

/-- The three files an `init_dtls_connection` is called with. -/
structure Files where
  certFile : Option String
  keyFile : Option String
  caFile : Option String

/-- `init_dtls_connection`.  When the BIOs fail, `conn->ssl` keeps pointing to
the freed SSL object. -/
def initDtlsConnection (conn : Connection) (files : Files) (o : DtlsOutcomes) (h : Heap) :
    Int × Connection × Heap :=
  match if conn.role = .client then dtlsClientContextInit files.caFile o h
    else dtlsServerContextInit files.certFile files.keyFile o h with
  | (none, h) => (-1, { conn with dtlsCtx := none }, h)
  | (some dtlsCtx, h) =>
      match h.acquire o.ssl with
      | (none, h) => (-1, { conn with dtlsCtx := some dtlsCtx, ssl := none }, h)
      | (some ssl, h) =>
          match dtlsSetupBioPair o { conn with dtlsCtx := some dtlsCtx, ssl := some ssl } h with
          | (ret, conn, h) =>
              if ret < 0 then (-1, conn, h.release ssl)
              else (0, { conn with state := .handshaking }, h)

/-! ## `forwarder_create` -/

structure ForwarderArgs where
  remoteHost : Option String
  remotePort : UInt16
  inboundPort : UInt16
  outboundPort : UInt16
  certFile : Option String
  keyFile : Option String
  caFile : Option String

structure ForwarderOutcomes where
  ctx : Bool
  uring : UringOutcomes
  inbound : ConnOutcomes
  inboundDtls : DtlsOutcomes
  outbound : ConnOutcomes
  outboundDtls : DtlsOutcomes

structure ForwarderCtx where
  self : Obj
  uringCtx : Uring
  inbound : Connection
  outbound : Connection

/-- `!ret != 0`, the test behind both calls of `init_dtls_connection` in
`forwarder_create` and the one in the `main` of `edge.c`. -/
def notRetNeZero (ret : Int) : Bool := decide ((if ret = 0 then (1 : Int) else 0) ≠ 0)

def forwarderCreate (c : IouringConfig) (args : ForwarderArgs) (o : ForwarderOutcomes) (h : Heap) :
    Option ForwarderCtx × Heap :=
  match h.acquire o.ctx with
  | (none, h) => (none, h)
  | (some self, h) =>
      match iouringInit c o.uring h with
      | (none, h) => (none, h.release self)
      | (some uringCtx, h) =>
          match createConnection .server none 0 args.inboundPort o.inbound h with
          | (none, h) => (none, h.release self)
          | (some inbound, h) =>
              match initDtlsConnection inbound ⟨args.certFile, args.keyFile, none⟩
                  o.inboundDtls h with
              | (ret, inbound, h) =>
                  if notRetNeZero ret then (none, h.release self)
                  else match createConnection .client args.remoteHost args.remotePort
                      args.outboundPort o.outbound h with
                    | (none, h) => (none, h)
                    | (some outbound, h) =>
                        match initDtlsConnection outbound ⟨none, none, args.caFile⟩
                            o.outboundDtls h with
                        | (ret, outbound, h) =>
                            if notRetNeZero ret then (none, h.release self)
                            else (some ⟨self, uringCtx, inbound, outbound⟩, h)

/-! ## The `main`s of `edge.c` and `edge_zero.c` -/

/-- What a `main` makes of `argv`.  The `main` of `edge_zero.c` takes no files. -/
inductive EdgeArgs
  | server (serverPort : UInt16) (certFile keyFile : Option String)
  | client (serverPort : UInt16) (serverIp : String)

namespace EdgeArgs

def role : EdgeArgs → ConnRole
  | server .. => .server
  | client .. => .client

def remoteHost : EdgeArgs → Option String
  | server .. => none
  | client _ serverIp => some serverIp

def remotePort : EdgeArgs → UInt16
  | server .. => 0
  | client serverPort _ => serverPort

def localPort : EdgeArgs → UInt16
  | server serverPort .. => serverPort
  | client .. => 0

def files : EdgeArgs → Files
  | server _ certFile keyFile => ⟨certFile, keyFile, none⟩
  | client .. => ⟨none, none, none⟩

end EdgeArgs

structure EdgeOutcomes where
  conn : ConnOutcomes
  dtls : DtlsOutcomes
  uring : UringOutcomes

/-- How far a `main` comes: it returns before, it reads a field of a NULL
connection before, or it reaches the call of `iouring_initial_udp_recvs` with
these values of `conn` and `uring_ctx`. -/
inductive MainResult
  | returned (code : Int)
  | nullRead
  | submits (conn : Option Connection) (uringCtx : Uring)

/-- `main` of `edge.c` up to `iouring_initial_udp_recvs` -/
def edgeMain (c : IouringConfig) (args : EdgeArgs) (o : EdgeOutcomes) (h : Heap) :
    MainResult × Heap :=
  match createConnection args.role args.remoteHost args.remotePort args.localPort o.conn h with
  | (none, h) => (.returned (-1), h)
  | (some conn, h) =>
      match initDtlsConnection conn args.files o.dtls h with
      | (ret, conn, h) =>
          if notRetNeZero ret then (.returned (-1), h)
          else match iouringInit c o.uring h with
            | (none, h) => (.returned 1, h.release conn.socket)
            | (some uringCtx, h) => (.submits (some conn) uringCtx, h)

/-- `main` of `edge_zero.c` up to `iouring_initial_udp_recvs`; the result of
`create_connection` is not looked at. -/
def edgeZeroMain (c : IouringConfig) (args : EdgeArgs) (o : EdgeOutcomes) (h : Heap) :
    MainResult × Heap :=
  match createConnection args.role args.remoteHost args.remotePort args.localPort o.conn h with
  | (conn, h) =>
      match iouringInit c o.uring h, conn with
      | (none, h), none => (.nullRead, h)
      | (none, h), some conn => (.returned 1, h.release conn.socket)
      | (some uringCtx, h), conn => (.submits conn uringCtx, h)

end Dataplane.Model.Startup
