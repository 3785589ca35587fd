import Dataplane.Model.Utils
import Mathlib.Data.List.GetD

/-!
# IP packets

Which layouts `validate_ip_packet` accepts, and how far into a packet the
functions of `src/utils.c` look.
-/

namespace Dataplane.Model

open ProofSupport

def ipHeaderLen (packet : Bytes) : Nat := 4 * ((packet.getD 0 0).toNat % 16)

def ipTotalLen (packet : Bytes) : Nat := ntohs16 packet 2

def ipv6PayloadLen (packet : Bytes) : Nat := ntohs16 packet 4

/-- The layout that the header declares fits into `len` bytes. -/
def LayoutFits (packet : Bytes) (len : Nat) : Prop :=
  (ipVersion packet = 4 ∧ 20 ≤ ipHeaderLen packet ∧ ipHeaderLen packet ≤ ipTotalLen packet ∧
    ipTotalLen packet ≤ len) ∨
  (ipVersion packet = 6 ∧ 40 ≤ len ∧ 40 + ipv6PayloadLen packet ≤ len)

/-- The first `len` bytes of the buffers are the same. -/
def Agree (len : Nat) (packet other : Bytes) : Prop :=
  ∀ i < len, packet.getD i 0 = other.getD i 0

/-- The functions on packets cannot tell the buffers apart. -/
structure SameReading (len : Nat) (packet other : Bytes) : Prop where
  valid : validateIpPacket packet len = validateIpPacket other len
  log : ∀ current msg, printIpPacketInfo current packet len msg =
    printIpPacketInfo current other len msg
  source : getIpv4Source packet len = getIpv4Source other len
  destination : getIpv4Destination packet len = getIpv4Destination other len

end Dataplane.Model

namespace Dataplane.Proofs

open ProofSupport Model

variable {packet other : Bytes} {len : Nat}

/-! ## What is accepted -/

theorem validateIpPacket_iff (packet : Bytes) (len : Nat) :
    validateIpPacket packet len = true ↔
      (ipVersion packet = 4 ∧ 20 ≤ ipHeaderLen packet ∧ 20 ≤ ipTotalLen packet ∧
        ipTotalLen packet ≤ len) ∨ (ipVersion packet = 6 ∧ 40 ≤ len) := by
  have htotal : (packet.getD 2 0).toNat * 256 + (packet.getD 3 0).toNat = ipTotalLen packet := rfl
  have hversion : (packet.getD 0 0).toNat >>> 4 = ipVersion packet := rfl
  unfold validateIpPacket
  dsimp only
  rw [htotal, hversion]
  generalize ipTotalLen packet = total
  by_cases hfour : ipVersion packet = 4
  · unfold ipHeaderLen
    rw [if_pos hfour]
    repeat' split
    all_goals simp only [hfour, Bool.false_eq_true, eq_self, false_iff, true_iff, true_and,
      Nat.reduceEqDiff, false_and, or_false]
    all_goals omega
  · rw [if_neg hfour]
    repeat' split
    all_goals simp only [hfour, Bool.false_eq_true, eq_self, false_iff, true_iff, false_and,
      false_or]
    all_goals omega

/-- `validate_ip_packet` accepts exactly the packets whose layout fits, unless
the header of an IPv4 packet is longer than the packet says it is, or the
payload of an IPv6 packet is cut off. -/
theorem validateIpPacket_layoutFits_iff (packet : Bytes) (len : Nat) :
    (validateIpPacket packet len = true ↔ LayoutFits packet len) ↔
      ¬ (ipVersion packet = 4 ∧ 20 ≤ ipHeaderLen packet ∧ 20 ≤ ipTotalLen packet ∧
          ipTotalLen packet ≤ len ∧ ipTotalLen packet < ipHeaderLen packet) ∧
        ¬ (ipVersion packet = 6 ∧ 40 ≤ len ∧ len < 40 + ipv6PayloadLen packet) := by
  rw [validateIpPacket_iff, LayoutFits]
  by_cases hfour : ipVersion packet = 4
  · simp only [hfour, true_and, Nat.reduceEqDiff, false_and, or_false, not_false_eq_true, and_true]
    omega
  · by_cases hsix : ipVersion packet = 6
    · simp only [hsix, true_and, Nat.reduceEqDiff, false_and, false_or, not_false_eq_true]
      omega
    · simp [hfour, hsix]

/-- Sixty bytes of header in a packet of twenty. -/
theorem longHeader_not_layoutFits :
    ¬ ∀ packet len, validateIpPacket packet len = true ↔ LayoutFits packet len := by
  intro h
  have hlong := h (0x4f :: 0 :: 0 :: 20 :: List.replicate 16 0) 20
  unfold LayoutFits at hlong
  revert hlong
  decide

/-! ## What is looked at -/

theorem Agree.mono {n : Nat} (h : Agree len packet other) (hn : n ≤ len) :
    Agree n packet other :=
  fun i hi => h i (by omega)

theorem Agree.fieldBytes (h : Agree len packet other) {off n : Nat} (hn : off + n ≤ len) :
    fieldBytes packet off n = fieldBytes other off n := by
  apply List.map_congr_left
  intro i hi
  have hlt := List.mem_range.mp hi
  exact h (off + i) (by omega)

theorem Agree.ntohs16 (h : Agree len packet other) {off : Nat} (hoff : off + 2 ≤ len) :
    ntohs16 packet off = ntohs16 other off := by
  rw [Model.ntohs16, Model.ntohs16, h off (by omega), h (off + 1) (by omega)]

theorem Agree.field32 (h : Agree len packet other) {off : Nat} (hoff : off + 4 ≤ len) :
    field32 packet off = field32 other off := by
  unfold Model.field32 field16
  rw [h off (by omega), h (off + 1) (by omega), h (off + 2) (by omega), h (off + 2 + 1) (by omega)]

theorem Agree.version (h : Agree len packet other) (hlen : 0 < len) :
    ipVersion packet = ipVersion other := by
  rw [ipVersion, ipVersion, h 0 hlen]

theorem Agree.valid (h : Agree len packet other) :
    validateIpPacket packet len = validateIpPacket other len := by
  by_cases hlen : len < 20
  · rw [validateIpPacket, validateIpPacket, if_pos hlen, if_pos hlen]
  · unfold validateIpPacket
    rw [h 0 (by omega), h 2 (by omega), h 3 (by omega)]

theorem Agree.address (h : Agree len packet other) {off : Nat} (hoff : off + 4 ≤ 20) :
    (if len < 20 then 0 else if ipVersion packet ≠ 4 then 0 else Model.field32 packet off) =
      if len < 20 then 0 else if ipVersion other ≠ 4 then 0 else Model.field32 other off := by
  by_cases hlen : len < 20
  · rw [if_pos hlen, if_pos hlen]
  · rw [Agree.version h (by omega), Agree.field32 h (by omega)]

/-- The text is about the first 20 bytes, or the first 40 for an IPv6 packet. -/
theorem Agree.info (h : Agree len packet other)
    (hshort : ¬ (ipVersion packet = 6 ∧ 20 ≤ len ∧ len < 40)) (msg : String) :
    ipPacketInfo packet len msg = ipPacketInfo other len msg := by
  unfold ipPacketInfo
  by_cases hlen : len < 20
  · rw [if_pos hlen, if_pos hlen]
  rw [if_neg hlen, if_neg hlen, ← Agree.version h (by omega)]
  dsimp only
  by_cases hfour : ipVersion packet = 4
  · rw [if_pos hfour, if_pos hfour, Agree.fieldBytes h (by omega), Agree.fieldBytes h (by omega),
      h 9 (by omega), Agree.ntohs16 h (by omega)]
  rw [if_neg hfour, if_neg hfour]
  by_cases hsix : ipVersion packet = 6
  · rw [if_pos hsix, if_pos hsix, Agree.fieldBytes h (by omega), Agree.fieldBytes h (by omega),
      h 6 (by omega), Agree.ntohs16 h (by omega)]
  · rw [if_neg hsix, if_neg hsix]

/-! ## The last byte of an address -/

theorem getLast_toDigits {b : Nat} (hb : 1 < b) (n : Nat) :
    (Nat.toDigits b n).getLast? = some (Nat.digitChar (n % b)) := by
  rw [Nat.toDigits_eq_if hb]
  split
  · rename_i hlt
    rw [Nat.mod_eq_of_lt hlt]
    rfl
  · rw [List.getLast?_append]
    rfl

theorem toList_last {front back : String} {c : Char} (h : back.toList.getLast? = some c) :
    (front ++ back).toList.getLast? = some c := by
  rw [String.toList_append, List.getLast?_append, h]
  rfl

theorem better_le {best cur : Option ZeroRun} {n : Nat} (hbest : ∀ r ∈ best, r.base + r.len ≤ n)
    (hcur : ∀ r ∈ cur, r.base + r.len ≤ n) :
    ∀ r ∈ ZeroRun.better best cur, r.base + r.len ≤ n := by
  rcases best with _ | b <;> rcases cur with _ | c
  · exact hbest
  · exact hcur
  · exact hbest
  · simp only [ZeroRun.better]
    split
    · exact hcur
    · exact hbest

theorem zeroRun_le {best cur : Option ZeroRun} {i w : Nat} {ws : List Nat} (hw : w ≠ 0)
    (hbest : ∀ r ∈ best, r.base + r.len ≤ i) (hcur : ∀ r ∈ cur, r.base + r.len ≤ i) :
    ∀ r ∈ zeroRun best cur i (ws ++ [w]), r.base + r.len ≤ i + ws.length := by
  induction ws generalizing best cur i with
  | nil =>
      simp only [List.nil_append, zeroRun, if_neg hw]
      exact better_le (better_le hbest hcur) (by simp)
  | cons v ws ih =>
      have hnext : ∀ n, n + 1 + ws.length = n + (v :: ws).length := by
        intro n
        rw [List.length_cons]
        omega
      rw [← hnext]
      simp only [List.cons_append, zeroRun]
      split
      · apply ih
        · exact fun r hr => Nat.le_succ_of_le (hbest r hr)
        · intro r hr
          obtain rfl := Option.some.inj hr
          rcases cur with _ | c
          · exact Nat.le_refl _
          · have hc := hcur c rfl
            show c.base + (c.len + 1) ≤ i + 1
            omega
      · apply ih
        · exact fun r hr => Nat.le_succ_of_le (better_le hbest hcur r hr)
        · simp

theorem ntopWords_last {src : Bytes} {run : Option ZeroRun} {disguised : Bool} {i w : Nat}
    {ws : List Nat} {c : Char} (hrun : ∀ r ∈ run, r.base + r.len ≤ i + ws.length)
    (hhex : (Nat.toDigits 16 w).getLast? = some c)
    (hdotted : (inetNtop4 (fieldBytes src 12 4)).toList.getLast? = some c) :
    (ntopWords src run disguised i (ws ++ [w])).toList.getLast? = some c := by
  induction ws generalizing i with
  | nil =>
      have houtside : (run.any fun r => decide (r.base ≤ i ∧ i < r.base + r.len)) = false := by
        rcases run with _ | r
        · rfl
        · have hr := hrun r rfl
          rw [List.length_nil] at hr
          simp only [Option.any_some, decide_eq_false_iff_not]
          omega
      rw [List.nil_append, ntopWords, houtside, if_neg (by simp)]
      apply toList_last
      split
      · exact hdotted
      · rw [ntopWords, String.append_empty, String.toList_ofList]
        exact hhex
  | cons v ws ih =>
      have hrest : (ntopWords src run disguised (i + 1) (ws ++ [w])).toList.getLast? = some c := by
        apply ih
        intro r hr
        have hle := hrun r hr
        rw [List.length_cons] at hle
        omega
      rw [List.cons_append, ntopWords]
      split
      · exact toList_last hrest
      · apply toList_last
        split
        · exact hdotted
        · exact toList_last hrest

theorem inetNtop4_last (src : Bytes) :
    (inetNtop4 src).toList.getLast? = some (Nat.digitChar ((src.getD 3 0).toNat % 10)) := by
  unfold inetNtop4
  apply toList_last
  exact (congrArg List.getLast? Nat.toList_repr).trans (getLast_toDigits (by decide) _)

theorem inetNtop6_last (src : Bytes) (hpos : 0 < (src.getD 15 0).toNat)
    (hsmall : (src.getD 15 0).toNat < 10) :
    (inetNtop6 src).toList.getLast? = some (Nat.digitChar (src.getD 15 0).toNat) := by
  have hwords : ((List.range 8).map fun i => Model.ntohs16 src (2 * i)) =
      ((List.range 7).map fun i => Model.ntohs16 src (2 * i)) ++ [Model.ntohs16 src 14] := rfl
  have hlast : Model.ntohs16 src 14 = (src.getD 14 0).toNat * 2 ^ 8 + (src.getD 15 0).toNat := rfl
  have hne : Model.ntohs16 src 14 ≠ 0 := by omega
  have hrun : ∀ r ∈ compressed ((List.range 8).map fun i => Model.ntohs16 src (2 * i)),
      r.base + r.len ≤ 7 := by
    intro r hr
    rw [hwords, compressed, Option.mem_filter_iff] at hr
    exact Nat.le_trans (zeroRun_le hne (by simp) (by simp) r hr.1) (by simp)
  have htrailing : ((compressed ((List.range 8).map fun i => Model.ntohs16 src (2 * i))).any
      fun r => decide (r.base + r.len = 8)) = false := by
    rcases hc : compressed ((List.range 8).map fun i => Model.ntohs16 src (2 * i)) with _ | r
    · rfl
    · have hle := hrun r hc
      simp only [Option.any_some, decide_eq_false_iff_not]
      omega
  unfold inetNtop6
  dsimp only
  rw [htrailing, if_neg (by simp), String.append_empty]
  generalize compressed _ = run at *
  rw [hwords]
  apply ntopWords_last
  · intro r hr
    exact Nat.le_trans (hrun r hr) (by simp)
  · rw [getLast_toDigits (by decide), hlast]
    congr 2
    omega
  · rw [inetNtop4_last, show (fieldBytes src 12 4).getD 3 0 = src.getD 15 0 from rfl,
      Nat.mod_eq_of_lt hsmall]

/-! ## Short IPv6 packets -/

def endsIn (packet : Bytes) (c : UInt8) : Bytes := fieldBytes packet 0 39 ++ [c]

theorem endsIn_agree (packet : Bytes) (c : UInt8) : Agree 39 packet (endsIn packet c) := by
  intro i hi
  have hlen : (fieldBytes packet 0 39).length = 39 := by simp [fieldBytes]
  rw [endsIn, List.getD_append _ _ _ _ (by omega), fieldBytes]
  simp [hi]

/-- An IPv6 packet of less than 40 bytes is printed with what stands behind it. -/
theorem ipPacketInfo_endsIn_ne (hsix : ipVersion packet = 6) (hlen : 20 ≤ len) (msg : String) :
    ipPacketInfo (endsIn packet 1) len msg ≠ ipPacketInfo (endsIn packet 2) len msg := by
  have hagree : Agree 39 (endsIn packet 1) (endsIn packet 2) :=
    fun i hi => (endsIn_agree packet 1 i hi).symm.trans (endsIn_agree packet 2 i hi)
  have hone : ipVersion (endsIn packet 1) = 6 :=
    (Agree.version (endsIn_agree packet 1) (by omega)).symm.trans hsix
  have htwo : ipVersion (endsIn packet 2) = 6 := (Agree.version hagree (by omega)).symm.trans hone
  have hlast : ∀ c : UInt8, 0 < c.toNat → c.toNat < 10 →
      (inetNtop6 (fieldBytes (endsIn packet c) 24 16)).toList.getLast? =
        some (Nat.digitChar c.toNat) := by
    intro c hpos hsmall
    exact inetNtop6_last _ hpos hsmall
  have hne : inetNtop6 (fieldBytes (endsIn packet 1) 24 16) ≠
      inetNtop6 (fieldBytes (endsIn packet 2) 24 16) := by
    intro heq
    have hdigit := (hlast 1 (by decide) (by decide)).symm.trans
      ((congrArg (fun s : String => s.toList.getLast?) heq).trans
        (hlast 2 (by decide) (by decide)))
    revert hdigit
    decide
  have hlong : ¬ len < 20 := by omega
  intro heq
  unfold ipPacketInfo at heq
  rw [if_neg hlong, if_neg hlong, hone, htwo] at heq
  simp only [show ¬ (6 : Nat) = 4 by decide, if_false, if_true] at heq
  rw [Agree.fieldBytes hagree (show 8 + 16 ≤ 39 by omega), hagree 6 (by omega),
    Agree.ntohs16 hagree (show 4 + 2 ≤ 39 by omega)] at heq
  have hsame : toString (inetNtop6 (fieldBytes (endsIn packet 1) 24 16)) =
      toString (inetNtop6 (fieldBytes (endsIn packet 2) 24 16)) := by simpa using heq
  exact hne hsame

/-- The functions on packets look at nothing behind the packet, unless it is an
IPv6 packet of less than 40 bytes. -/
theorem sameReading_iff (packet : Bytes) (len : Nat) :
    (∀ other, Agree len packet other → SameReading len packet other) ↔
      ¬ (ipVersion packet = 6 ∧ 20 ≤ len ∧ len < 40) := by
  constructor
  · rintro hall ⟨hsix, hlen, hshort⟩
    have hsame : ∀ c, ipPacketInfo packet len "" = ipPacketInfo (endsIn packet c) len "" := by
      intro c
      have hlog := (hall _ (Agree.mono (endsIn_agree packet c) (by omega))).log .debug ""
      simpa [printIpPacketInfo, logDebug, LogLevel.value] using hlog
    exact ipPacketInfo_endsIn_ne hsix hlen "" ((hsame 1).symm.trans (hsame 2))
  · intro hshort other hagree
    refine ⟨Agree.valid hagree, fun current msg => ?_, ?_, ?_⟩
    · rw [printIpPacketInfo, printIpPacketInfo, Agree.info hagree hshort]
    · exact Agree.address hagree (by omega)
    · exact Agree.address hagree (by omega)

/-- The header of an IPv6 packet, cut off behind 20 bytes. -/
theorem shortPacket_not_sameReading :
    ¬ ∀ len packet other, Agree len packet other → SameReading len packet other := by
  intro hall
  have hsix : ipVersion [0x60] = 6 := rfl
  have hagree : Agree 20 (endsIn [0x60] 1) (endsIn [0x60] 2) := fun i hi =>
    (endsIn_agree [0x60] 1 i (by omega)).symm.trans (endsIn_agree [0x60] 2 i (by omega))
  have hlog := (hall 20 _ _ hagree).log .debug ""
  apply ipPacketInfo_endsIn_ne hsix (Nat.le_refl 20) ""
  simpa [printIpPacketInfo, logDebug, LogLevel.value] using hlog

end Dataplane.Proofs
