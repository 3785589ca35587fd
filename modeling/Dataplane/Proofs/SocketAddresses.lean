import Dataplane.Model.Utils

/-!
# Comparing and hashing socket addresses

`addr_compare` returns the difference of two `uint32_t` as an `int`.  On
addresses that are at most half of the address space apart it is an order, and
further apart the sign turns around.
-/

namespace Dataplane.Model

open ProofSupport

structure SameAddress (a b : Bytes) : Prop where
  family : saFamily a = saFamily b
  port : sinPort a = sinPort b
  addr : saFamily a = afInet → sinAddr a = sinAddr b
  addr6 : saFamily a = afInet6 → sin6Addr a = sin6Addr b

def Inet (addr : Bytes) : Prop := saFamily addr = afInet ∨ saFamily addr = afInet6

/-- `addr_compare` does with `a`, `b` and `c` what an order does. -/
structure Ordered (a b c : Bytes) : Prop where
  zero : addrCompare a b = 0 ↔ SameAddress a b
  flip : addrCompare a b < 0 ↔ 0 < addrCompare b a
  trans : addrCompare a b < 0 → addrCompare b c < 0 → addrCompare a c < 0

/-- How far one has to count up from the number of `a`, around the end of the
32-bit numbers if need be, to get to the number of `b`. -/
def ahead (a b : Bytes) : Nat :=
  if sinAddr a ≤ sinAddr b then sinAddr b - sinAddr a else 2 ^ 32 - (sinAddr a - sinAddr b)

end Dataplane.Model

namespace Dataplane.Proofs

open ProofSupport Model

variable {a b c : Bytes}

/-! ## Fields -/

theorem field16_lt (buf : Bytes) (off : Nat) : field16 buf off < 2 ^ 16 := by
  have hlow := (buf.getD off 0).toNat_lt
  have hhigh := (buf.getD (off + 1) 0).toNat_lt
  unfold field16
  omega

theorem field32_lt (buf : Bytes) (off : Nat) : field32 buf off < 2 ^ 32 := by
  have hlow := field16_lt buf off
  have hhigh := field16_lt buf (off + 2)
  unfold field32
  omega

theorem sinAddr_lt (addr : Bytes) : sinAddr addr < 2 ^ 32 := field32_lt addr 4

theorem length_sin6Addr (addr : Bytes) : (sin6Addr addr).length = 16 := by
  simp [sin6Addr, fieldBytes]

/-! ## `memcmp` -/

theorem memcmp_eq_zero_iff {x y : Bytes} (h : x.length = y.length) : memcmp x y = 0 ↔ x = y := by
  induction x generalizing y with
  | nil =>
      have hy : y = [] := List.length_eq_zero_iff.mp h.symm
      simp [hy, memcmp]
  | cons u x ih =>
      cases y with
      | nil => simp at h
      | cons v y =>
          have hlen : x.length = y.length := by simpa using h
          rw [memcmp]
          split
          · rename_i huv
            rw [ih hlen, huv]
            simp
          · rename_i huv
            have hne : u.toNat ≠ v.toNat := fun heq => huv (UInt8.toNat_inj.mp heq)
            simp only [List.cons.injEq, huv, false_and, iff_false]
            omega

theorem memcmp_flip (x y : Bytes) : memcmp y x = -memcmp x y := by
  induction x generalizing y with
  | nil => cases y <;> rfl
  | cons u x ih =>
      cases y with
      | nil => rfl
      | cons v y =>
          rw [memcmp, memcmp]
          by_cases huv : u = v
          · rw [if_pos huv, if_pos huv.symm, ih]
          · rw [if_neg huv, if_neg (Ne.symm huv)]
            omega

theorem memcmp_trans {x y z : Bytes} (hxy : x.length = y.length) (hyz : y.length = z.length)
    (h : memcmp x y < 0) (h' : memcmp y z < 0) : memcmp x z < 0 := by
  induction x generalizing y z with
  | nil =>
      rw [List.length_eq_zero_iff.mp hxy.symm] at h
      simp [memcmp] at h
  | cons u x ih =>
      cases y with
      | nil => simp at hxy
      | cons v y =>
          cases z with
          | nil => simp at hyz
          | cons w z =>
              rw [memcmp] at h h' ⊢
              by_cases huv : u = v
              · subst huv
                rw [if_pos rfl] at h
                by_cases huw : u = w
                · rw [if_pos huw] at h' ⊢
                  exact ih (by simpa using hxy) (by simpa using hyz) h h'
                · rw [if_neg huw] at h' ⊢
                  exact h'
              · rw [if_neg huv] at h
                by_cases hvw : v = w
                · subst hvw
                  rw [if_neg huv]
                  exact h
                · rw [if_neg hvw] at h'
                  have huw : u ≠ w := by
                    intro heq
                    subst heq
                    omega
                  rw [if_neg huw]
                  omega

/-! ## `addr_compare` on one family -/

/-- The difference of two IPv4 addresses, read as an `int`. -/
theorem sub32_neg_iff (a b : Bytes) :
    toInt32 (sub32 (sinAddr a) (sinAddr b)) < 0 ↔ 0 < ahead a b ∧ ahead a b ≤ 2 ^ 31 := by
  have ha := sinAddr_lt a
  have hb := sinAddr_lt b
  unfold toInt32 sub32 ahead
  split <;> split <;> omega

theorem sub32_pos_iff (a b : Bytes) :
    0 < toInt32 (sub32 (sinAddr a) (sinAddr b)) ↔ 2 ^ 31 < ahead a b := by
  have ha := sinAddr_lt a
  have hb := sinAddr_lt b
  unfold toInt32 sub32 ahead
  split <;> split <;> omega

theorem addrCompare_inet (ha : saFamily a = afInet) (hb : saFamily b = afInet) :
    addrCompare a b = if sinAddr a ≠ sinAddr b then toInt32 (sub32 (sinAddr a) (sinAddr b))
      else (sinPort a : Int) - sinPort b := by
  rw [addrCompare, if_neg (by rw [ha, hb]; exact not_not.mpr rfl), if_pos ha]

theorem addrCompare_inet6 (ha : saFamily a = afInet6) (hb : saFamily b = afInet6) :
    addrCompare a b = if memcmp (sin6Addr a) (sin6Addr b) ≠ 0
      then memcmp (sin6Addr a) (sin6Addr b) else (sinPort a : Int) - sinPort b := by
  have hne : saFamily a ≠ afInet := by
    rw [ha]
    decide
  rw [addrCompare, if_neg (by rw [ha, hb]; exact not_not.mpr rfl), if_neg hne, if_pos ha]

theorem addrCompare_families (h : saFamily a ≠ saFamily b) :
    addrCompare a b = (saFamily a : Int) - saFamily b := by
  rw [addrCompare, if_pos h]

/-- The order on IPv4 addresses as it is: by the shorter way around, then by
port. -/
theorem addrCompare_inet_neg_iff (ha : saFamily a = afInet) (hb : saFamily b = afInet) :
    addrCompare a b < 0 ↔ (0 < ahead a b ∧ ahead a b ≤ 2 ^ 31) ∨
      (ahead a b = 0 ∧ sinPort a < sinPort b) := by
  have hlt := sinAddr_lt a
  have hlt' := sinAddr_lt b
  have hzero : ahead a b = 0 ↔ sinAddr a = sinAddr b := by
    unfold ahead
    split <;> omega
  rw [addrCompare_inet ha hb]
  split
  · rw [sub32_neg_iff]
    omega
  · omega

theorem addrCompare_inet_pos_iff (ha : saFamily a = afInet) (hb : saFamily b = afInet) :
    0 < addrCompare a b ↔ 2 ^ 31 < ahead a b ∨ (ahead a b = 0 ∧ sinPort b < sinPort a) := by
  have hlt := sinAddr_lt a
  have hlt' := sinAddr_lt b
  have hzero : ahead a b = 0 ↔ sinAddr a = sinAddr b := by
    unfold ahead
    split <;> omega
  rw [addrCompare_inet ha hb]
  split
  · rw [sub32_pos_iff]
    omega
  · omega

theorem ahead_flip (a b : Bytes) : ahead b a = (2 ^ 32 - ahead a b) % 2 ^ 32 := by
  have ha := sinAddr_lt a
  have hb := sinAddr_lt b
  unfold ahead
  split <;> split <;> omega

theorem ahead_add (a b c : Bytes) : ahead a c = (ahead a b + ahead b c) % 2 ^ 32 := by
  have ha := sinAddr_lt a
  have hb := sinAddr_lt b
  have hc := sinAddr_lt c
  unfold ahead
  split <;> split <;> split <;> omega

theorem ahead_lt (a b : Bytes) : ahead a b < 2 ^ 32 := by
  have ha := sinAddr_lt a
  have hb := sinAddr_lt b
  unfold ahead
  split <;> omega

/-! ## The order -/

theorem afInet_ne : afInet ≠ afInet6 := by decide

theorem addrCompare_inet_inet6 (ha : saFamily a = afInet) (hb : saFamily b = afInet6) :
    addrCompare a b = -8 ∧ addrCompare b a = 8 := by
  have hne : saFamily a ≠ saFamily b := by
    rw [ha, hb]
    exact afInet_ne
  rw [addrCompare_families hne, addrCompare_families hne.symm, ha, hb]
  decide

theorem addrCompare_eq_zero (ha : Inet a) (hb : Inet b) :
    addrCompare a b = 0 ↔ SameAddress a b := by
  rcases ha with ha | ha <;> rcases hb with hb | hb
  · have hneg := addrCompare_inet_neg_iff ha hb
    have hpos := addrCompare_inet_pos_iff ha hb
    have hlt := sinAddr_lt a
    have hlt' := sinAddr_lt b
    have hzero : ahead a b = 0 ↔ sinAddr a = sinAddr b := by
      unfold ahead
      split <;> omega
    constructor
    · intro hcmp
      rw [hcmp] at hneg hpos
      refine ⟨ha.trans hb.symm, by omega, fun _ => hzero.mp (by omega), fun h6 => ?_⟩
      exact absurd (ha.symm.trans h6) afInet_ne
    · intro hsame
      have haddr := hzero.mpr (hsame.addr ha)
      have hport := hsame.port
      omega
  · rw [(addrCompare_inet_inet6 ha hb).1]
    refine ⟨fun h => by omega, fun hsame => ?_⟩
    exact absurd (ha.symm.trans (hsame.family.trans hb)) afInet_ne
  · rw [(addrCompare_inet_inet6 hb ha).2]
    refine ⟨fun h => by omega, fun hsame => ?_⟩
    exact absurd (hb.symm.trans (hsame.family.symm.trans ha)) afInet_ne
  · have hmem := memcmp_eq_zero_iff ((length_sin6Addr a).trans (length_sin6Addr b).symm)
    rw [addrCompare_inet6 ha hb]
    constructor
    · intro hcmp
      split at hcmp
      · contradiction
      · rename_i heq
        refine ⟨ha.trans hb.symm, by omega, fun h4 => ?_, fun _ => hmem.mp (not_not.mp heq)⟩
        exact absurd (h4.symm.trans ha) afInet_ne
    · intro hsame
      have hport := hsame.port
      rw [if_neg (not_not.mpr (hmem.mpr (hsame.addr6 ha)))]
      omega

/-- Two IPv4 addresses half of the address space apart are both smaller than
the other one. -/
theorem addrCompare_flip_iff (ha : Inet a) (hb : Inet b) :
    (addrCompare a b < 0 ↔ 0 < addrCompare b a) ↔
      ¬ (saFamily a = afInet ∧ saFamily b = afInet ∧ ahead a b = 2 ^ 31) := by
  rcases ha with ha | ha <;> rcases hb with hb | hb
  · have hflip := ahead_flip a b
    have hlt := ahead_lt a b
    rw [addrCompare_inet_neg_iff ha hb, addrCompare_inet_pos_iff hb ha]
    simp only [ha, hb, true_and]
    omega
  · obtain ⟨hneg, hpos⟩ := addrCompare_inet_inet6 ha hb
    rw [hneg, hpos, hb]
    simp [afInet_ne.symm]
  · obtain ⟨hneg, hpos⟩ := addrCompare_inet_inet6 hb ha
    rw [hneg, hpos, ha]
    simp [afInet_ne.symm]
  · have hmem := memcmp_flip (sin6Addr a) (sin6Addr b)
    rw [addrCompare_inet6 ha hb, addrCompare_inet6 hb ha, hmem, ha]
    simp only [afInet_ne.symm, false_and, not_false_eq_true, iff_true]
    split <;> split <;> omega

/-- Three IPv4 addresses, each of which comes after the one before by the
shorter way around, and the last one in front of the first. -/
theorem addrCompare_trans_iff (ha : Inet a) (hb : Inet b) (hc : Inet c)
    (hhalf : ¬ (saFamily a = afInet ∧ saFamily b = afInet ∧ ahead a b = 2 ^ 31)) :
    (addrCompare a b < 0 → addrCompare b c < 0 → addrCompare a c < 0) ↔
      ¬ (saFamily a = afInet ∧ saFamily b = afInet ∧ saFamily c = afInet ∧ 0 < ahead a b ∧
        ahead a b ≤ 2 ^ 31 ∧ 0 < ahead b c ∧ ahead b c ≤ 2 ^ 31 ∧
        2 ^ 31 < ahead a b + ahead b c) := by
  by_cases hall : saFamily a = afInet ∧ saFamily b = afInet ∧ saFamily c = afInet
  · obtain ⟨ha, hb, hc⟩ := hall
    have hadd := ahead_add a b c
    have hlt := ahead_lt a b
    have hlt' := ahead_lt b c
    rw [addrCompare_inet_neg_iff ha hb, addrCompare_inet_neg_iff hb hc,
      addrCompare_inet_neg_iff ha hc]
    simp only [ha, hb, hc, true_and] at hhalf ⊢
    omega
  refine iff_of_true ?_ fun h => hall ⟨h.1, h.2.1, h.2.2.1⟩
  intro hab hbc
  rcases hb with hb | hb
  · rcases ha with ha | ha
    · have hc6 := hc.resolve_left fun hc => hall ⟨ha, hb, hc⟩
      rw [(addrCompare_inet_inet6 ha hc6).1]
      decide
    · rw [(addrCompare_inet_inet6 hb ha).2] at hab
      omega
  · have hc6 : saFamily c = afInet6 := by
      rcases hc with hc | hc
      · rw [(addrCompare_inet_inet6 hc hb).2] at hbc
        omega
      · exact hc
    rcases ha with ha | ha
    · rw [(addrCompare_inet_inet6 ha hc6).1]
      decide
    · have hlen : ∀ x y, (sin6Addr x).length = (sin6Addr y).length :=
        fun x y => (length_sin6Addr x).trans (length_sin6Addr y).symm
      have hab0 := memcmp_eq_zero_iff (hlen a b)
      have hbc0 := memcmp_eq_zero_iff (hlen b c)
      have htrans := memcmp_trans (hlen a b) (hlen b c)
      rw [addrCompare_inet6 ha hb] at hab
      rw [addrCompare_inet6 hb hc6] at hbc
      rw [addrCompare_inet6 ha hc6]
      by_cases heq : memcmp (sin6Addr a) (sin6Addr b) = 0
      · rw [if_neg (not_not.mpr heq)] at hab
        rw [hab0.mp heq]
        split at hbc
        · rename_i hne
          rw [if_pos hne]
          exact hbc
        · rename_i hne
          rw [if_neg hne]
          omega
      · rw [if_pos heq] at hab
        by_cases heq' : memcmp (sin6Addr b) (sin6Addr c) = 0
        · rw [← hbc0.mp heq', if_pos heq]
          exact hab
        · rw [if_pos heq'] at hbc
          have hac := htrans hab hbc
          rw [if_pos (by omega)]
          exact hac

/-- `addr_compare` orders three addresses unless the first two are IPv4
addresses that lie half of the address space apart, or all are IPv4 addresses
and the way from the first over the second to the third is longer than half of
it, though neither part is. -/
theorem addrCompare_ordered_iff (ha : Inet a) (hb : Inet b) (hc : Inet c) :
    Ordered a b c ↔
      ¬ (saFamily a = afInet ∧ saFamily b = afInet ∧ ahead a b = 2 ^ 31) ∧
      ¬ (saFamily a = afInet ∧ saFamily b = afInet ∧ saFamily c = afInet ∧ 0 < ahead a b ∧
        ahead a b ≤ 2 ^ 31 ∧ 0 < ahead b c ∧ ahead b c ≤ 2 ^ 31 ∧
        2 ^ 31 < ahead a b + ahead b c) := by
  constructor
  · intro h
    have hhalf := (addrCompare_flip_iff ha hb).mp h.flip
    exact ⟨hhalf, (addrCompare_trans_iff ha hb hc hhalf).mp h.trans⟩
  · rintro ⟨hhalf, haround⟩
    exact ⟨addrCompare_eq_zero ha hb, (addrCompare_flip_iff ha hb).mpr hhalf,
      (addrCompare_trans_iff ha hb hc hhalf).mpr haround⟩

/-- The IPv4 address whose number is `n * 2 ^ 24`, with port 0. -/
def inetAddr (n : UInt8) : Bytes := [2, 0, 0, 0, 0, 0, 0, n]

/-- 0.0.0.0 and 0.0.0.128 are both smaller than the other one. -/
theorem addrCompare_not_ordered :
    ¬ ∀ a b c, Inet a → Inet b → Inet c → Ordered a b c := by
  intro h
  have hflip := (h (inetAddr 0) (inetAddr 128) (inetAddr 0) (.inl rfl) (.inl rfl) (.inl rfl)).flip
  revert hflip
  decide

/-- Close to each other three addresses are in order. -/
theorem addrCompare_ordered_close : Ordered (inetAddr 1) (inetAddr 2) (inetAddr 3) :=
  (addrCompare_ordered_iff (.inl rfl) (.inl rfl) (.inl rfl)).mpr (by decide)

/-! ## The hash -/

/-- Addresses that compare equal hash equally, and the hash is a bucket. -/
theorem addrHash_respects (a b : Bytes) (bucketCount : Nat) (hpos : 0 < bucketCount) :
    (addrCompare a b = 0 → addrHash a bucketCount = addrHash b bucketCount) ∧
      addrHash a bucketCount < bucketCount := by
  constructor
  · intro hcmp
    have hfamily : saFamily a = saFamily b := by
      by_contra hne
      rw [addrCompare_families hne] at hcmp
      omega
    unfold addrHash
    by_cases h4 : saFamily a = afInet
    · have hsame := (addrCompare_eq_zero (.inl h4) (.inl (hfamily.symm.trans h4))).mp hcmp
      rw [← hfamily, hsame.port, hsame.addr h4, if_pos h4, if_pos h4]
    by_cases h6 : saFamily a = afInet6
    · have hsame := (addrCompare_eq_zero (.inr h6) (.inr (hfamily.symm.trans h6))).mp hcmp
      rw [← hfamily, hsame.port, hsame.addr6 h6, if_neg h4, if_pos h6, if_neg h4]
    · rw [← hfamily, if_neg h4, if_neg h6, if_neg h4, if_neg h6]
  · unfold addrHash
    dsimp only
    exact Nat.lt_of_le_of_lt (Nat.mod_le _ _) (Nat.mod_lt _ hpos)

def scopedAddr (flow scope : UInt8) : Bytes :=
  [10, 0, 17, 81, flow, 0, 0, 0] ++ List.replicate 16 7 ++ [scope, 0, 0, 0]

/-- Flow label and scope are not looked at. -/
theorem addrHash_respects_scoped :
    addrHash (scopedAddr 1 2) 16 = addrHash (scopedAddr 3 4) 16 ∧
      addrHash (scopedAddr 1 2) 16 < 16 :=
  have h := addrHash_respects (scopedAddr 1 2) (scopedAddr 3 4) 16 (by decide)
  ⟨h.1 (by decide), h.2⟩

end Dataplane.Proofs
