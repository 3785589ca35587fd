import Dataplane.Model.Chain
import Dataplane.Proofs.Lengths
import Dataplane.Proofs.Turns

/-!
# Established connections

Where OpenSSL makes one record of a packet and gets the packet back from the
record, `dtls_encrypt_packet` and `dtls_decrypt_packet` are inverse to each
other, and leave both BIOs empty.
-/

namespace Dataplane.Model

open ProofSupport

variable {σ κ : Type} {api : Ssl σ}

/-- OpenSSL on established connections, as far as packets of ordinary size go.
`established k k' ssl` says that `ssl` sends under the key `k` and receives under
`k'`, and a `record` under a key is a datagram that stands for the packet
`plain`. -/
structure IdealDtls (api : Ssl σ) (κ : Type) where
  established : κ → κ → σ → Prop
  record : κ → Bytes → Prop
  plain : κ → Bytes → Bytes
  pos : ∀ {k d}, record k d → 1 ≤ (plain k d).length
  le : ∀ {k d}, record k d → (plain k d).length ≤ 1400
  shorter : ∀ {k d}, record k d → (plain k d).length ≤ d.length
  overhead : ∀ {k d}, record k d → d.length ≤ (plain k d).length + 45
  write : ∀ {k k' ssl data}, established k k' ssl → 1 ≤ data.length → data.length ≤ 1400 →
    let r := api.write ssl [] data
    0 < r.ret ∧ r.rbio = [] ∧ record k r.out ∧ plain k r.out = data ∧ established k k' r.ssl
  read : ∀ {k k' ssl d n}, established k k' ssl → record k' d → (plain k' d).length ≤ n →
    let r := api.read ssl d n
    r.ret = (plain k' d).length ∧ r.err = .none ∧ r.data = plain k' d ∧ r.rbio = [] ∧
      r.out = [] ∧ established k k' r.ssl

/-- A connection to `peer` on the socket `fd` that is ready for packets. -/
structure IdealDtls.Ready (dtls : IdealDtls api κ) (conn : Connection σ) (fd : Int) (peer : Bytes)
    (send recv : κ) : Prop where
  udpFd : conn.udpFd = fd
  ssl : dtls.established send recv conn.ssl
  rbio : conn.rbio = []
  wbio : conn.wbio = []
  addrLen : conn.addrLen ≤ conn.addr.length
  addr : conn.addr.take conn.addrLen = peer

end Dataplane.Model

namespace Dataplane.Proofs

open ProofSupport Model

variable {σ κ : Type} {api : Ssl σ} {dtls : IdealDtls api κ} {conn : Connection σ} {fd : Int}
  {peer : Bytes} {send recv : κ}

theorem record_lt_bufSize {k : κ} {d : Bytes} (h : dtls.record k d) :
    0 < d.length ∧ d.length < bufSize := by
  have hpos := dtls.pos h
  have hle := dtls.le h
  have hshort := dtls.shorter h
  have hover := dtls.overhead h
  have hsize : bufSize = 1600 := rfl
  omega

theorem ready_encrypt (h : dtls.Ready conn fd peer send recv) {data : Bytes}
    (hpos : 1 ≤ data.length)
    (hle : data.length ≤ 1400) :
    let out := conn.dtlsEncryptPacket api data bufSize
    0 < out.1 ∧ dtls.record send out.2.1 ∧ dtls.plain send out.2.1 = data ∧
      dtls.Ready out.2.2 fd peer send recv := by
  obtain ⟨hret, hrbio, hrecord, hplain, hest⟩ := dtls.write h.ssl hpos hle
  obtain ⟨hlen, hfits⟩ := record_lt_bufSize hrecord
  have hne : (api.write conn.ssl [] data).out ≠ [] := List.length_pos_iff.mp hlen
  have htake : (api.write conn.ssl [] data).out.take bufSize = (api.write conn.ssl [] data).out :=
    List.take_of_length_le (by omega)
  have hdrop : (api.write conn.ssl [] data).out.drop bufSize = [] :=
    List.drop_eq_nil_of_le (by omega)
  rw [dtlsEncryptPacket_eq api conn data bufSize rfl, h.rbio, h.wbio, List.nil_append, htake,
    hdrop, if_neg (by omega), if_neg hne]
  exact ⟨by simpa using hlen, hrecord, hplain, h.udpFd, hest, hrbio, rfl, h.addrLen, h.addr⟩

theorem ready_decrypt (h : dtls.Ready conn fd peer send recv) {d : Bytes}
    (hrecord : dtls.record recv d) :
    let out := conn.dtlsDecryptPacket api d d.length bufSize
    out.1 = out.2.1.length ∧ out.2.1 = dtls.plain recv d ∧
      dtls.Ready out.2.2.2 fd peer send recv := by
  obtain ⟨hret, herr, hdata, hrbio, hout, hest⟩ := dtls.read h.ssl hrecord (dtls.shorter hrecord)
  obtain ⟨hlen, -⟩ := record_lt_bufSize hrecord
  have hlast : Connection.sslReadAgain api d.length 4
      (({ conn with rbio := d } : Connection σ).sslRead api d.length) =
      (api.read conn.ssl d d.length, conn.after (api.read conn.ssl d d.length)) := by
    rw [Connection.sslReadAgain, Connection.sslRead, herr, if_neg (by simp)]
    rfl
  rw [dtlsDecryptPacket_eq api conn d d.length bufSize rfl, Int.toNat_natCast, List.take_length,
    h.rbio, List.nil_append, hlast, if_neg (by omega), if_neg (by simp [herr])]
  refine ⟨by rw [hret, hdata], hdata, h.udpFd, hest, hrbio, ?_, h.addrLen, h.addr⟩
  simp [Connection.after, h.wbio, hout]

end Dataplane.Proofs
