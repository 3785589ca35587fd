import Dataplane.Proofs.Traces

/-!
# What passes through a connection

Datagrams go into the read BIO, OpenSSL makes plaintext of them and datagrams of
plaintext, and what it puts into the write BIO is sent.  All of it can be told
from the record of the calls.
-/

namespace Dataplane.Model

open ProofSupport

variable {σ : Type}

namespace SslCall

def rbio : SslCall → Bytes
  | .doHandshake rbio _ _ | .read rbio _ _ _ | .write rbio _ _ _ => rbio

def left : SslCall → Bytes
  | .doHandshake _ left _ | .read _ left _ _ | .write _ left _ _ => left

def out : SslCall → Bytes
  | .doHandshake _ _ out | .read _ _ out _ | .write _ _ out _ => out

def delivered : SslCall → Option Bytes
  | .read _ _ _ data => data
  | _ => none

end SslCall

/-- A read BIO that held `base` holds `rbio`, the datagrams `ds` having been
written to it and the calls having been made on it. -/
inductive BioWrites (base : Bytes) : List SslCall → Bytes → List Bytes → Prop
  | start : BioWrites base [] base []
  | write {calls : List SslCall} {rbio : Bytes} {ds : List Bytes} (d : Bytes) :
      BioWrites base calls rbio ds → BioWrites base calls (rbio ++ d) (ds ++ [d])
  | call {calls : List SslCall} {ds : List Bytes} (call : SslCall) :
      BioWrites base calls call.rbio ds → BioWrites base (calls ++ [call]) call.left ds

namespace Connection

def watched (conn : Connection σ) : Connection (σ × List SslCall) := conn.map fun ssl => (ssl, [])

def delivered (conn : Connection (σ × List SslCall)) : List Bytes :=
  conn.calls.filterMap SslCall.delivered

def written (conn : Connection (σ × List SslCall)) : List Bytes :=
  conn.calls.filterMap SslCall.written

def output (conn : Connection (σ × List SslCall)) : Bytes := (conn.calls.map SslCall.out).flatten

end Connection

end Dataplane.Model

namespace Dataplane.Proofs

open ProofSupport Model

variable {σ : Type} {api : Ssl σ} {conn conn' conn'' : Connection (σ × List SslCall)}

/-! ## Calls on a connection -/

/-- From `conn` to `conn'` the datagrams `ds` are written to the read BIO, the
calls `calls` are made, and nothing is taken out of the write BIO. -/
structure Serves (conn conn' : Connection (σ × List SslCall)) (calls : List SslCall)
    (ds : List Bytes) : Prop where
  recorded : conn'.calls = conn.calls ++ calls
  fed : ∀ base ws, BioWrites base conn.calls conn.rbio ws →
    BioWrites base conn'.calls conn'.rbio (ws ++ ds)
  wbio : conn'.wbio = conn.wbio ++ (calls.map SslCall.out).flatten

theorem Serves.refl (conn : Connection (σ × List SslCall)) : Serves conn conn [] [] where
  recorded := (List.append_nil _).symm
  fed := fun base ws h => by rwa [List.append_nil]
  wbio := (List.append_nil _).symm

theorem Serves.trans {calls calls' : List SslCall} {ds ds' : List Bytes}
    (h : Serves conn conn' calls ds) (h' : Serves conn' conn'' calls' ds') :
    Serves conn conn'' (calls ++ calls') (ds ++ ds') where
  recorded := by rw [h'.recorded, h.recorded, List.append_assoc]
  fed := fun base ws hws => by
    rw [← List.append_assoc]
    exact h'.fed base _ (h.fed base ws hws)
  wbio := by
    rw [h'.wbio, h.wbio, List.append_assoc, List.map_append, List.flatten_append]

theorem after_serves (call : SslCall) {r : SslRet (σ × List SslCall)}
    (hssl : r.ssl.2 = conn.calls ++ [call]) (hrbio : call.rbio = conn.rbio)
    (hleft : r.rbio = call.left) (hout : r.out = call.out) :
    Serves conn (conn.after r) [call] [] where
  recorded := hssl
  fed := fun base ws h => by
    rw [← hrbio] at h
    show BioWrites base r.ssl.2 r.rbio (ws ++ [])
    rw [hssl, hleft, List.append_nil]
    exact h.call call
  wbio := by
    show conn.wbio ++ r.out = _
    rw [hout]
    simp

theorem write_serves (conn : Connection (σ × List SslCall)) (d : Bytes) :
    Serves conn { conn with rbio := conn.rbio ++ d } [] [d] where
  recorded := (List.append_nil _).symm
  fed := fun _ _ h => h.write d
  wbio := (List.append_nil _).symm

/-! ## Decrypting -/

theorem sslReads_serves (api : Ssl σ) (n k : Nat) (conn : Connection (σ × List SslCall)) :
    let out := Connection.sslReadAgain api.traced n k (conn.sslRead api.traced n)
    ∃ calls, Serves conn out.2 calls [] ∧
      calls.filterMap SslCall.delivered = (if out.1.err = .none then [out.1.data] else []) ∧
      calls.filterMap SslCall.written = [] := by
  have hfirst : ∀ conn : Connection (σ × List SslCall),
      Serves conn (conn.sslRead api.traced n).2 [.read conn.rbio (conn.sslRead api.traced n).1.rbio
        (conn.sslRead api.traced n).1.out (if (conn.sslRead api.traced n).1.err = .none
          then some (conn.sslRead api.traced n).1.data else none)] [] :=
    fun conn => after_serves _ rfl rfl rfl rfl
  have hone : ∀ r : SslRet (σ × List SslCall), ∀ rbio : Bytes,
      [SslCall.read rbio r.rbio r.out (if r.err = .none then some r.data else none)].filterMap
        SslCall.delivered = if r.err = .none then [r.data] else [] := by
    intro r rbio
    split <;> rfl
  induction k generalizing conn with
  | zero => exact ⟨_, hfirst conn, hone _ _, rfl⟩
  | succ k ih =>
      dsimp only
      rw [Connection.sslReadAgain]
      split
      · rename_i hwant
        obtain ⟨calls, hserves, hdelivered, hwritten⟩ := ih (conn.sslRead api.traced n).2
        refine ⟨_, (hfirst conn).trans hserves, ?_, ?_⟩
        · rw [List.filterMap_append, hone, hwant, if_neg (by simp), List.nil_append]
          exact hdelivered
        · rw [List.filterMap_append, hwritten]
          rfl
      · exact ⟨_, hfirst conn, hone _ _, rfl⟩

/-- `dtls_decrypt_packet` writes the datagram to the read BIO at most once, and
the plaintext that it returns is the only one that it has obtained. -/
theorem decrypt_serves (api : Ssl σ) (conn : Connection (σ × List SslCall)) (d : Bytes)
    (len size : Int) :
    let out := conn.dtlsDecryptPacket api.traced d len size
    ∃ calls ds, Serves conn out.2.2.2 calls ds ∧ ds.Sublist [d.take len.toNat] ∧
      (0 < out.1 → calls.filterMap SslCall.delivered = [out.2.1]) ∧
      calls.filterMap SslCall.written = [] := by
  rw [dtlsDecryptPacket_eq api.traced conn d len size rfl]
  by_cases hlen : len ≤ 0
  · rw [if_pos hlen]
    exact ⟨[], [], .refl conn, by simp, by simp, rfl⟩
  · obtain ⟨calls, hserves, hdelivered, hwritten⟩ := sslReads_serves api len.toNat 4
      { conn with rbio := conn.rbio ++ d.take len.toNat }
    have hall := (write_serves conn (d.take len.toNat)).trans hserves
    rw [List.nil_append, List.append_nil] at hall
    rw [if_neg hlen]
    refine ⟨calls, [d.take len.toNat], ?_, List.Sublist.refl _, ?_, hwritten⟩
    · split <;> exact hall
    · split
      · intro hpos
        cases hpos
      · rename_i herr
        intro _
        rw [hdelivered, if_pos (not_not.mp herr)]

/-! ## Encrypting -/

theorem encrypt_serves (api : Ssl σ) (conn : Connection (σ × List SslCall)) (data : Bytes)
    (size : Nat) :
    let out := conn.dtlsEncryptPacket api.traced data size
    ∃ call : SslCall, call.written = some data ∧ call.delivered = none ∧
      out.2.2.calls = conn.calls ++ [call] ∧
      (∀ base ws, BioWrites base conn.calls conn.rbio ws →
        BioWrites base out.2.2.calls out.2.2.rbio ws) ∧
      out.2.1 <+: conn.wbio ++ call.out ∧
      (0 ≤ out.1 → out.2.1 ++ out.2.2.wbio = conn.wbio ++ call.out) := by
  have hserves : Serves conn (conn.after (api.traced.write conn.ssl conn.rbio data))
      [.write conn.rbio (api.write conn.ssl.1 conn.rbio data).rbio
        (api.write conn.ssl.1 conn.rbio data).out data] [] := after_serves _ rfl rfl rfl rfl
  have hcalls := hserves.recorded
  have hfed := hserves.fed
  simp only [List.append_nil] at hfed
  rw [dtlsEncryptPacket_eq api.traced conn data size rfl]
  split
  · exact ⟨_, rfl, rfl, hcalls, hfed, List.nil_prefix, fun h => by cases h⟩
  · exact ⟨_, rfl, rfl, hcalls, hfed, List.take_prefix _ _, fun _ => List.take_append_drop _ _⟩

end Dataplane.Proofs
