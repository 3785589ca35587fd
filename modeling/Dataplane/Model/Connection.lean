import Dataplane.Model.Iouring

/-!
# `src/connection.c`: the data path

OpenSSL is a parameter: `Ssl σ` says what each call returns, what it leaves in
the read BIO and what it appends to the write BIO, as a function of the SSL
object (a value of `σ`) and of the bytes in the read BIO.  The memory BIOs are
byte FIFOs.
-/

namespace Dataplane.Model

open ProofSupport

/-- The `SSL_ERROR_*` values that the program tells apart. -/
inductive SslError
  | none
  | zeroReturn
  | wantRead
  | wantWrite
  | other
  deriving DecidableEq, Repr

/-- The outcome of an OpenSSL call: its result, what `SSL_get_error` says about
it, the plaintext it delivered, what is left in the read BIO, what it appended
to the write BIO, and the SSL object afterwards. -/
structure SslRet (σ : Type) where
  ret : Int
  err : SslError
  data : Bytes
  rbio : Bytes
  out : Bytes
  ssl : σ

structure Ssl (σ : Type) where
  doHandshake : σ → Bytes → SslRet σ
  read : σ → Bytes → Nat → SslRet σ
  write : σ → Bytes → Bytes → SslRet σ

inductive ConnRole
  | client
  | server
  deriving DecidableEq, Repr

inductive ConnState
  | handshaking
  | established
  | closing
  deriving DecidableEq, Repr

/-- The part of `connection_t` that carries traffic. -/
structure Connection (σ : Type) where
  udpFd : Int
  role : ConnRole
  ssl : σ
  rbio : Bytes
  wbio : Bytes
  addr : Bytes
  addrLen : Nat
  state : ConnState

/-! ## Memory BIOs -/

/-- `BIO_write` on a memory BIO: the result and the new content. -/
def bioWrite (bio data : Bytes) (len : Int) : Int × Bytes :=
  if len ≤ 0 then (0, bio) else (len, bio ++ data.take len.toNat)

/-- `BIO_read` on a memory BIO: the result, the bytes read and the bytes left.
An empty BIO answers -1, as `BIO_set_mem_eof_return` has set it. -/
def bioRead (bio : Bytes) (size : Nat) : Int × Bytes × Bytes :=
  if bio = [] then (-1, [], []) else ((bio.take size).length, bio.take size, bio.drop size)

namespace Connection

variable {σ : Type}

/-- The connection after an OpenSSL call. -/
def after (conn : Connection σ) (r : SslRet σ) : Connection σ :=
  { conn with ssl := r.ssl, rbio := r.rbio, wbio := conn.wbio ++ r.out }

/-! ## Encrypting and decrypting -/

/-- `dtls_encrypt_packet`: the result and the bytes put into `result`. -/
def dtlsEncryptPacket (api : Ssl σ) (dtls : Connection σ) (data : Bytes) (resultSize : Nat) :
    Int × Bytes × Connection σ :=
  let r := api.write dtls.ssl dtls.rbio data
  let dtls := dtls.after r
  if r.ret ≤ 0 then (-1, [], dtls)
  else match bioRead dtls.wbio resultSize with
    | (read, result, rest) =>
        let dtls := { dtls with wbio := rest }
        if read ≤ 0 then (-1, result, dtls) else (read, result, dtls)

/-- `SSL_read(dtls->ssl, decrypted, n)` -/
def sslRead (api : Ssl σ) (dtls : Connection σ) (n : Nat) : SslRet σ × Connection σ :=
  let r := api.read dtls.ssl dtls.rbio n
  (r, dtls.after r)

/-- The loop that calls `SSL_read` again, up to `k` times, as long as it asks
for more data. -/
def sslReadAgain (api : Ssl σ) (n : Nat) : Nat → SslRet σ × Connection σ → SslRet σ × Connection σ
  | 0, last => last
  | k + 1, last =>
      if last.1.err = .wantRead then sslReadAgain api n k (last.2.sslRead api n) else last

/-- `dtls_decrypt_packet`: the result, the plaintext put into `decrypted`,
whether its assertion held, and the connection. -/
def dtlsDecryptPacket (api : Ssl σ) (dtls : Connection σ) (encrypted : Bytes) (encryptedLen : Int)
    (decryptedSize : Int) : Int × Bytes × Bool × Connection σ :=
  match bioWrite dtls.rbio encrypted encryptedLen with
  | (written, rbio) =>
      let dtls := { dtls with rbio := rbio }
      if written ≤ 0 then (-1, [], true, dtls)
      else if written ≠ encryptedLen then (-1, [], true, dtls)
      else
        let ok := decide (encryptedLen < decryptedSize)
        match sslReadAgain api encryptedLen.toNat 4 (dtls.sslRead api encryptedLen.toNat) with
        | (r, dtls) =>
            if r.err ≠ .none then (-1, [], ok, dtls) else (r.ret, r.data, ok, dtls)

end Connection

end Dataplane.Model
