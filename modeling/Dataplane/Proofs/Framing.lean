import Dataplane.Proofs.Outcome

/-!
# One record, one datagram

`dtls_encrypt_packet` takes what it finds in the write BIO for the record it has
just made.  That is right as long as no earlier call has left anything there.
-/

namespace Dataplane.Model

open ProofSupport

inductive PacketCall
  | encrypt (data : Bytes) (resultSize : Nat)
  | decrypt (encrypted : Bytes) (encryptedLen decryptedSize : Int)

variable {σ : Type}

def PacketCall.apply (api : Ssl σ) (conn : Connection σ) : PacketCall → Connection σ
  | .encrypt data size => (conn.dtlsEncryptPacket api data size).2.2
  | .decrypt encrypted len size => (conn.dtlsDecryptPacket api encrypted len size).2.2.2

/-- What `SSL_read` answers, asked for `n` bytes up to `k` times, and again only
as long as it wants more data. -/
def sslReads (api : Ssl σ) (n : Nat) : Nat → σ → Bytes → List (SslRet σ)
  | 0, _, _ => []
  | k + 1, ssl, rbio =>
      let r := api.read ssl rbio n
      r :: if r.err = .wantRead then sslReads api n k r.ssl r.rbio else []

/-- How many bytes stay in a write BIO that starts with `bytes` of them when the
calls of `SSL_do_handshake` in `ps` write to it and `BUF_SIZE` bytes are taken out
behind every one. -/
def backlog (api : Ssl σ) (bytes : Nat) (ps : List (HandshakeState σ)) : Nat :=
  ps.foldl (fun bytes p => bytes + (p.answer api).out.length - bufSize) bytes

end Dataplane.Model

namespace Dataplane.Proofs

open ProofSupport Model

variable {σ : Type} {api : Ssl σ} {conn : Connection σ}

/-! ## What a call does to the write BIO -/

/-- A packet is encrypted: `SSL_write` makes a record of it that the result has
room for. -/
def Encrypts (api : Ssl σ) (conn : Connection σ) : PacketCall → Prop
  | .encrypt data size =>
      let r := api.write conn.ssl conn.rbio data
      0 < r.ret ∧ r.out.length ≤ size ∧ 0 < size
  | .decrypt _ _ _ => False

/-- The result of a successful encryption, for a record of at most `result_size`
bytes, is the record of its own `SSL_write`, and nothing stays behind. -/
def OwnRecord (api : Ssl σ) (conn : Connection σ) : PacketCall → Prop
  | .encrypt data size =>
      0 < (conn.dtlsEncryptPacket api data size).1 →
        (api.write conn.ssl conn.rbio data).out.length ≤ size →
          (conn.dtlsEncryptPacket api data size).2.1 =
              (api.write conn.ssl conn.rbio data).out ∧
            (conn.dtlsEncryptPacket api data size).2.2.wbio = []
  | .decrypt _ _ _ => True

/-- The SSL calls behind the call write nothing that it does not take out of the
write BIO: no `SSL_read` writes anything, no `SSL_write` that fails does, and a
record is no longer than the result it is put into. -/
def Tidy (api : Ssl σ) (conn : Connection σ) : PacketCall → Prop
  | .encrypt data size =>
      let r := api.write conn.ssl conn.rbio data
      if r.ret ≤ 0 then r.out = [] else r.out.length ≤ size
  | .decrypt encrypted len _ =>
      0 < len → ∀ r ∈ sslReads api len.toNat 5 conn.ssl (conn.rbio ++ encrypted.take len.toNat),
        r.out = []

theorem sslReadAgain_wbio (api : Ssl σ) (n k : Nat) (conn : Connection σ) (r : SslRet σ) :
    (Connection.sslReadAgain api n k (r, conn.after r)).2.wbio = conn.wbio ++
      (r.out ++ ((if r.err = .wantRead then sslReads api n k r.ssl r.rbio else []).map
        SslRet.out).flatten) := by
  induction k generalizing conn r with
  | zero => simp [Connection.sslReadAgain, sslReads, Connection.after]
  | succ k ih =>
      rw [Connection.sslReadAgain]
      by_cases hagain : r.err = .wantRead
      · rw [if_pos hagain, if_pos hagain, sslReads, List.map_cons, List.flatten_cons,
          ← List.append_assoc]
        exact ih (conn.after r) (api.read r.ssl r.rbio n)
      · simp [hagain, Connection.after]

theorem dtlsDecryptPacket_wbio (api : Ssl σ) (conn : Connection σ) (encrypted : Bytes)
    (len size : Int) :
    (conn.dtlsDecryptPacket api encrypted len size).2.2.2.wbio =
      conn.wbio ++ if 0 < len then ((sslReads api len.toNat 5 conn.ssl
        (conn.rbio ++ encrypted.take len.toNat)).map SslRet.out).flatten else [] := by
  rw [dtlsDecryptPacket_eq api conn encrypted len size rfl]
  by_cases hlen : len ≤ 0
  · rw [if_pos hlen, if_neg (by omega), List.append_nil]
  · have hreads := sslReadAgain_wbio api len.toNat 4
      ({ conn with rbio := conn.rbio ++ encrypted.take len.toNat } : Connection σ)
      (api.read conn.ssl (conn.rbio ++ encrypted.take len.toNat) len.toNat)
    rw [if_neg hlen, if_pos (show 0 < len by omega), sslReads, List.map_cons, List.flatten_cons]
    split <;> exact hreads

theorem dtlsEncryptPacket_wbio (api : Ssl σ) (conn : Connection σ) (data : Bytes) (size : Nat) :
    (conn.dtlsEncryptPacket api data size).2.2.wbio =
      if (api.write conn.ssl conn.rbio data).ret ≤ 0 then
        conn.wbio ++ (api.write conn.ssl conn.rbio data).out
      else (conn.wbio ++ (api.write conn.ssl conn.rbio data).out).drop size := by
  rw [dtlsEncryptPacket_eq api conn data size rfl]
  split <;> rfl

theorem dtlsEncryptPacket_result (api : Ssl σ) (conn : Connection σ) (data : Bytes) (size : Nat) :
    (0 < (conn.dtlsEncryptPacket api data size).1 ↔
      0 < (api.write conn.ssl conn.rbio data).ret ∧ 0 < size ∧
        conn.wbio ++ (api.write conn.ssl conn.rbio data).out ≠ []) ∧
    (0 < (api.write conn.ssl conn.rbio data).ret →
      (conn.dtlsEncryptPacket api data size).2.1 =
        (conn.wbio ++ (api.write conn.ssl conn.rbio data).out).take size) := by
  rw [dtlsEncryptPacket_eq api conn data size rfl]
  by_cases hret : (api.write conn.ssl conn.rbio data).ret ≤ 0
  · rw [if_pos hret]
    exact ⟨iff_of_false (by simp) fun h => by omega, fun h => by omega⟩
  · rw [if_neg hret]
    refine ⟨?_, fun _ => rfl⟩
    dsimp only
    rw [Nat.pos_iff_ne_zero, ← not_or, ← List.take_eq_nil_iff]
    split
    · rename_i hfront
      exact iff_of_false (by simp) fun h => h.2 hfront
    · rename_i hfront
      have hpos := List.length_pos_iff.mpr hfront
      exact iff_of_true (by omega) ⟨by omega, hfront⟩

theorem apply_of_empty (hwbio : conn.wbio = []) (call : PacketCall) :
    (call.apply api conn).wbio = [] ↔ Tidy api conn call := by
  cases call with
  | encrypt data size =>
      simp only [PacketCall.apply, Tidy, dtlsEncryptPacket_wbio, hwbio, List.nil_append]
      split
      · rfl
      · exact List.drop_eq_nil_iff
  | decrypt encrypted len size =>
      rw [PacketCall.apply, Tidy, dtlsDecryptPacket_wbio, hwbio, List.nil_append]
      split
      · rename_i hlen
        simp [hlen]
      · rename_i hlen
        simp [hlen]

theorem apply_of_nonempty (hwbio : conn.wbio ≠ []) {call : PacketCall}
    (hcall : ¬ Encrypts api conn call) : (call.apply api conn).wbio ≠ [] := by
  cases call with
  | decrypt encrypted len size =>
      rw [PacketCall.apply, dtlsDecryptPacket_wbio]
      exact fun hnil => hwbio (List.append_eq_nil_iff.mp hnil).1
  | encrypt data size =>
      have hpos := List.length_pos_iff.mpr hwbio
      rw [PacketCall.apply, dtlsEncryptPacket_wbio]
      split
      · exact fun hnil => hwbio (List.append_eq_nil_iff.mp hnil).1
      · rename_i hret
        intro hnil
        rw [List.drop_eq_nil_iff, List.length_append] at hnil
        exact hcall ⟨by omega, by omega, by omega⟩

/-- A packet that is encrypted is sent as its own record exactly when the write
BIO is found empty. -/
theorem ownRecord_iff (api : Ssl σ) (conn : Connection σ) (call : PacketCall) :
    OwnRecord api conn call ↔ (Encrypts api conn call → conn.wbio = []) := by
  cases call with
  | decrypt _ _ _ => exact iff_of_true trivial False.elim
  | encrypt data size =>
      obtain ⟨hsuccess, hresult⟩ := dtlsEncryptPacket_result api conn data size
      have hwbio := dtlsEncryptPacket_wbio api conn data size
      rw [OwnRecord, Encrypts, hsuccess]
      constructor
      · rintro hown ⟨hret, hfits, hsize⟩
        by_contra hne
        obtain ⟨hrecord, hleft⟩ := hown ⟨hret, hsize, fun hnil =>
          hne (List.append_eq_nil_iff.mp hnil).1⟩ hfits
        -- the front is the record and nothing is behind it, so nothing was before it
        have hall := List.take_append_drop size
          (conn.wbio ++ (api.write conn.ssl conn.rbio data).out)
        rw [if_neg (by omega)] at hwbio
        rw [← hresult hret, ← hwbio, hrecord, hleft, List.append_nil] at hall
        exact hne (List.append_left_eq_self.mp hall.symm)
      · rintro hempty ⟨hret, hsize, -⟩ hfits
        rw [hresult hret, hwbio, if_neg (by omega), hempty ⟨hret, hfits, hsize⟩, List.nil_append]
        exact ⟨List.take_of_length_le hfits, List.drop_eq_nil_iff.mpr hfits⟩

/-! ## Runs of calls -/

/-- Every encryption in `calls` comes after nothing but tidy calls; `tidy` says
whether nothing was left behind before. -/
def TidyBefore (api : Ssl σ) (conn : Connection σ) (tidy : Prop) : List PacketCall → Prop
  | [] => True
  | call :: calls => (Encrypts api conn call → tidy) ∧
      TidyBefore api (call.apply api conn) (tidy ∧ Tidy api conn call) calls

/-- Records are handed on one by one exactly when every encryption comes after
nothing but tidy calls. -/
theorem ownRecords_iff (calls : List PacketCall) {tidy : Prop} (h : tidy ↔ conn.wbio = []) :
    Execution.Steps (fun conn call => call.apply api conn) (OwnRecord api) conn calls ↔
      TidyBefore api conn tidy calls := by
  induction calls generalizing conn tidy with
  | nil => exact Iff.rfl
  | cons call calls ih =>
      rw [Execution.Steps, TidyBefore, ownRecord_iff, h]
      refine and_congr_right fun hfirst => ih ?_
      by_cases hwbio : conn.wbio = []
      · rw [apply_of_empty hwbio]
        exact and_iff_right hwbio
      · constructor
        · rintro ⟨hempty, -⟩
          exact absurd hempty hwbio
        · intro hnil
          exact absurd hnil (apply_of_nonempty hwbio fun hcall => hwbio (hfirst hcall))

/-! ## After the handshake -/

theorem call_wbio (api : Ssl σ) (s : HandshakeState σ) :
    (s.call api).conn.wbio = (s.pending api).drop bufSize := by
  obtain ⟨mid, hmid, ⟨-, hcall⟩ | ⟨-, hcall⟩⟩ := call_cases api s
  · rw [hcall, (conclude_frame mid _ _).2.1, hmid.wbio]
  · rw [hcall]
    exact hmid.wbio

theorem takeCqe_wbio (s : HandshakeState σ) (c : Cqe) (cq : List Cqe) :
    (s.takeCqe c cq).conn.wbio = s.conn.wbio := by
  unfold HandshakeState.takeCqe
  rcases (s.uring.iouringCqeSeen c cq).waitForRecvBody c with ⟨_ | op | _, ctx⟩
  · rfl
  · dsimp only
    split
    · rfl
    · exact learnAddr_wbio _ s.conn op
  · rfl

theorem step_wbio {s : HandshakeState σ} {e : HandshakeEvent} (he : s.calls e = false) :
    (s.step api e).conn.wbio = s.conn.wbio := by
  cases e with
  | call =>
      simp only [HandshakeState.calls, decide_eq_false_iff_not] at he
      simp only [HandshakeState.step, if_neg he]
  | kernel e => rfl
  | wake =>
      simp only [HandshakeState.step]
      split
      · exact takeCqe_wbio s _ _
      · rfl
  | waitError =>
      simp only [HandshakeState.step]
      split <;> rfl

/-- What a handshake has in its write BIO is what its calls have left there. -/
theorem backlog_run (api : Ssl σ) (s : HandshakeState σ) (es : List HandshakeEvent) :
    (s.run api es).conn.wbio.length = backlog api s.conn.wbio.length
      (Execution.visits (HandshakeState.step api) HandshakeState.calls s es) := by
  apply Execution.visits_invariant fun ps t =>
    t.conn.wbio.length = backlog api s.conn.wbio.length ps
  · intro ps t e h
    cases he : t.calls e with
    | false => rw [if_neg (by simp), List.append_nil, step_wbio he, h]
    | true =>
        cases e with
        | call =>
            have hpc : t.pc = .calling := by simpa [HandshakeState.calls] using he
            simp only [HandshakeState.step, if_pos hpc, if_true]
            rw [call_wbio, List.length_drop, HandshakeState.pending, List.length_append, h]
            simp [backlog]
        | kernel e => simp [HandshakeState.calls] at he
        | wake => simp [HandshakeState.calls] at he
        | waitError => simp [HandshakeState.calls] at he
  · rfl

/-- On the connection of a handshake, in particular of one that has returned 0,
every successful `dtls_encrypt_packet` in a run of calls returns exactly its own
record and leaves the write BIO empty, if and only if the handshake has left
nothing in the write BIO and every encryption comes after nothing but tidy
calls. -/
theorem encrypt_ownRecord (api : Ssl σ) (uring : IouringCtx) (conn : Connection σ)
    (es : List HandshakeEvent) (calls : List PacketCall) :
    Execution.Steps (fun conn call => call.apply api conn) (OwnRecord api)
        ((HandshakeState.start uring conn).run api es).conn calls ↔
      TidyBefore api ((HandshakeState.start uring conn).run api es).conn
        (backlog api conn.wbio.length (Execution.visits (HandshakeState.step api)
          HandshakeState.calls (.start uring conn) es) = 0) calls := by
  apply ownRecords_iff
  rw [← List.length_eq_zero_iff, backlog_run]
  rfl

/-! ## An alert in front of a record -/

/-- A server that is done after one flight of a byte and answers every datagram
that is no application data with a byte of its own. -/
def chattySsl : Ssl Unit where
  doHandshake := fun _ rbio => ⟨1, .none, [], rbio, [22], ()⟩
  read := fun _ rbio n => ⟨(rbio.take n).length, .none, rbio.take n, rbio.drop n,
    if rbio.head? = some 23 then [] else [21], ()⟩
  write := fun _ rbio data => ⟨data.length, .none, [], rbio, 23 :: data, ()⟩

def chattyStart : HandshakeState Unit :=
  .start (IouringCtx.iouringInit ⟨8, 8, 1, 2, 2, 0, 0⟩ (fun _ => true) fun _ => 1)
    ⟨3, .server, (), [], [], [127, 0, 0, 1], 4, .handshaking⟩

/-- After a stray datagram has been decrypted, the record of the next packet goes
out behind the bytes that SSL wrote in answer to it. -/
theorem chatty_not_ownRecord :
    (chattyStart.run chattySsl [.call]).pc = .returned 0 ∧
      ¬ Execution.Steps (fun conn call => PacketCall.apply chattySsl conn call)
        (OwnRecord chattySsl) (chattyStart.run chattySsl [.call]).conn
        [.decrypt [22, 7] 2 bufSize, .encrypt [1, 2] bufSize] := by
  refine ⟨rfl, fun h => ?_⟩
  have hresult := (h.2.1 (by decide) (by decide)).1
  revert hresult
  decide

/-- Traffic both ways: every packet has a datagram of its own as long as no stray
datagram comes before it. -/
theorem encrypt_ownRecord_quiet :
    (chattyStart.run chattySsl [.call]).pc = .returned 0 ∧
      Execution.Steps (fun conn call => PacketCall.apply chattySsl conn call)
        (OwnRecord chattySsl) (chattyStart.run chattySsl [.call]).conn
        [.encrypt [1, 2] bufSize, .decrypt [23, 7] 2 bufSize, .encrypt [3] bufSize,
          .decrypt [22, 7] 2 bufSize] :=
  ⟨rfl, (encrypt_ownRecord chattySsl _ _ [.call] _).mpr
    ⟨fun _ => by decide, fun h => h.elim,
      fun _ => ⟨⟨by decide, by unfold Tidy; decide⟩, by unfold Tidy; decide⟩,
      fun h => h.elim, trivial⟩⟩

end Dataplane.Proofs
