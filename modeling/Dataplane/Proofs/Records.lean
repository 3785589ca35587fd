import Dataplane.Proofs.Specs

/-!
# One datagram, one `SSL_read`

`dtls_decrypt_packet` delivers one record a call.  It keeps up with the sender as
long as every datagram holds one record, which is what `dtls_encrypt_packet`
makes.
-/

namespace Dataplane.Proofs

open ProofSupport Model

/-! ## A session of records -/

/-- A session whose SSL object is the queue of the records not yet delivered;
`decode` says which plaintexts the records of a datagram hold.  `SSL_read` gives
out at most `n` bytes of the oldest record and keeps the rest of it. -/
def recordSsl (decode : Bytes → List Bytes) : Ssl (List Bytes) where
  doHandshake := fun backlog rbio => ⟨1, .none, [], rbio, [], backlog⟩
  read := fun backlog rbio n =>
    match backlog ++ decode rbio with
    | [] => ⟨-1, .wantRead, [], [], [], []⟩
    | record :: rest => ⟨(record.take n).length, .none, record.take n, [], [],
        if record.length ≤ n then rest else record.drop n :: rest⟩
  write := fun backlog rbio data => ⟨data.length, .none, [], rbio, data, backlog⟩

/-- A datagram with records that carry data. -/
structure ValidDatagram (decode : Bytes → List Bytes) (d : Bytes) : Prop where
  some : decode d ≠ []
  bytes : ∀ record ∈ decode d, record ≠ []
  fits : ∀ record ∈ decode d, record.length ≤ d.length

variable {decode : Bytes → List Bytes} {conn : Connection (List Bytes)} {d : Bytes}

def decryptDatagram (decode : Bytes → List Bytes) (conn : Connection (List Bytes)) (d : Bytes) :
    Int × Bytes × Bool × Connection (List Bytes) :=
  conn.dtlsDecryptPacket (recordSsl decode) d d.length bufSize

theorem decryptDatagram_eq (hrbio : conn.rbio = []) (hd : d ≠ []) {record : Bytes}
    {rest : List Bytes} (hqueue : conn.ssl ++ decode d = record :: rest) :
    (decryptDatagram decode conn d).1 = (record.take d.length).length ∧
      (decryptDatagram decode conn d).2.1 = record.take d.length ∧
      (decryptDatagram decode conn d).2.2.2.rbio = [] ∧
      (decryptDatagram decode conn d).2.2.2.ssl =
        if record.length ≤ d.length then rest else record.drop d.length :: rest := by
  have hpos := List.length_pos_iff.mpr hd
  have hread : (recordSsl decode).read conn.ssl d d.length =
      ⟨(record.take d.length).length, .none, record.take d.length, [], [],
        if record.length ≤ d.length then rest else record.drop d.length :: rest⟩ := by
    simp [recordSsl, hqueue]
  unfold decryptDatagram
  rw [dtlsDecryptPacket_eq (recordSsl decode) conn d d.length bufSize rfl, Int.toNat_natCast,
    List.take_length, hrbio, List.nil_append, if_neg (by omega)]
  simp [Connection.sslRead, Connection.sslReadAgain, hread, Connection.after]

/-! ## Sequences of datagrams -/

def handedOn (decode : Bytes → List Bytes) (conn : Connection (List Bytes)) :
    List Bytes → List Bytes
  | [] => []
  | d :: ds =>
      (if 0 < (decryptDatagram decode conn d).1 then [(decryptDatagram decode conn d).2.1]
        else []) ++ handedOn decode (decryptDatagram decode conn d).2.2.2 ds

/-- The plaintexts of all records are handed on, one by one, and no call leaves a
record undelivered. -/
structure AllDelivered (decode : Bytes → List Bytes) (conn : Connection (List Bytes))
    (ds : List Bytes) : Prop where
  handedOn : handedOn decode conn ds = (ds.map decode).flatten
  undelivered : Execution.Steps (fun conn d => (decryptDatagram decode conn d).2.2.2)
    (fun conn d => (decryptDatagram decode conn d).2.2.2.ssl = []) conn ds

theorem decryptDatagram_single (hrbio : conn.rbio = []) (hssl : conn.ssl = [])
    (hd : ValidDatagram decode d) {record : Bytes} (hrecord : decode d = [record]) :
    0 < (decryptDatagram decode conn d).1 ∧ (decryptDatagram decode conn d).2.1 = record ∧
      (decryptDatagram decode conn d).2.2.2.rbio = [] ∧
      (decryptDatagram decode conn d).2.2.2.ssl = [] := by
  have hmem : record ∈ decode d := by rw [hrecord]; exact List.mem_singleton_self record
  have hfits := hd.fits record hmem
  have hpos := List.length_pos_iff.mpr (hd.bytes record hmem)
  have hne : d ≠ [] := List.length_pos_iff.mp (by omega)
  obtain ⟨hlen, hdata, hrest, hleft⟩ := decryptDatagram_eq hrbio hne
    (show conn.ssl ++ decode d = [record] by rw [hssl, hrecord]; rfl)
  rw [List.take_of_length_le hfits] at hlen hdata
  rw [if_pos hfits] at hleft
  exact ⟨by omega, hdata, hrest, hleft⟩

/-- With nothing undelivered before and after a call, its datagram held a single
record. -/
theorem single_of_undelivered (hrbio : conn.rbio = []) (hssl : conn.ssl = [])
    (hd : ValidDatagram decode d) (hleft : (decryptDatagram decode conn d).2.2.2.ssl = []) :
    ∃ record, decode d = [record] := by
  cases hdecode : decode d with
  | nil => exact absurd hdecode hd.some
  | cons record rest =>
      have hmem : record ∈ decode d := by rw [hdecode]; exact List.mem_cons_self
      have hfits := hd.fits record hmem
      have hpos := List.length_pos_iff.mpr (hd.bytes record hmem)
      have hne : d ≠ [] := List.length_pos_iff.mp (by omega)
      obtain ⟨-, -, -, hssl'⟩ := decryptDatagram_eq hrbio hne
        (show conn.ssl ++ decode d = record :: rest by rw [hssl, hdecode]; rfl)
      rw [if_pos hfits, hleft] at hssl'
      exact ⟨record, by rw [← hssl']⟩

/-- Successive calls deliver all records of a sequence of datagrams, one packet a
record and in order, and leave none behind, if and only if every datagram holds
exactly one record. -/
theorem allDelivered_iff (decode : Bytes → List Bytes) (conn : Connection (List Bytes))
    (hrbio : conn.rbio = []) (hssl : conn.ssl = []) (ds : List Bytes)
    (hds : ∀ d ∈ ds, ValidDatagram decode d) :
    AllDelivered decode conn ds ↔ ∀ d ∈ ds, (decode d).length = 1 := by
  induction ds generalizing conn with
  | nil => exact ⟨fun _ => by simp, fun _ => ⟨rfl, trivial⟩⟩
  | cons d ds ih =>
      have hd := hds d List.mem_cons_self
      have hrest := fun d' hd' => hds d' (List.mem_cons_of_mem d hd')
      rw [List.forall_mem_cons]
      constructor
      · rintro ⟨hhanded, hleft, hsteps⟩
        obtain ⟨record, hrecord⟩ := single_of_undelivered hrbio hssl hd hleft
        obtain ⟨hlen, hdata, hrbio', hssl'⟩ := decryptDatagram_single hrbio hssl hd hrecord
        refine ⟨by rw [hrecord]; rfl, (ih _ hrbio' hssl' hrest).mp ⟨?_, hsteps⟩⟩
        rw [handedOn, if_pos hlen, hdata, List.map_cons, List.flatten_cons, hrecord] at hhanded
        exact List.append_cancel_left hhanded
      · rintro ⟨hone, hall⟩
        obtain ⟨record, hrecord⟩ := List.length_eq_one_iff.mp hone
        obtain ⟨hlen, hdata, hrbio', hssl'⟩ := decryptDatagram_single hrbio hssl hd hrecord
        obtain ⟨hhanded, hsteps⟩ := (ih _ hrbio' hssl' hrest).mpr hall
        refine ⟨?_, hssl', hsteps⟩
        rw [handedOn, if_pos hlen, hdata, List.map_cons, List.flatten_cons, hrecord, hhanded]

/-! ## Two records in a datagram -/

/-- Records of two bytes each, the first of which is no data. -/
def pairs : Bytes → List Bytes
  | _ :: byte :: rest => [byte] :: pairs rest
  | _ => []

def emptyConn : Connection (List Bytes) :=
  ⟨3, .client, [], [], [], [127, 0, 0, 1], 4, .established⟩

/-- The second record of a datagram stays undelivered. -/
theorem coalesced_not_allDelivered :
    ValidDatagram pairs [23, 1, 23, 2] ∧ ¬ AllDelivered pairs emptyConn [[23, 1, 23, 2]] := by
  refine ⟨⟨by decide, by decide, by decide⟩, fun h => ?_⟩
  have hhanded := h.handedOn
  revert hhanded
  decide

/-- Two datagrams of a record each. -/
theorem allDelivered_pairs : AllDelivered pairs emptyConn [[23, 1], [23, 2]] := by
  refine (allDelivered_iff pairs emptyConn rfl rfl [[23, 1], [23, 2]] ?_).mpr (by decide)
  intro d hd
  have hcases : d = [23, 1] ∨ d = [23, 2] := by simpa using hd
  rcases hcases with rfl | rfl <;> exact ⟨by decide, by decide, by decide⟩

end Dataplane.Proofs
