import Mathlib.Data.List.Induction
import Mathlib.Algebra.Group.Nat.Defs

/-!
# Readers and decimal numerals

A reader takes a text character by character and may refuse it.  When it can be
said behind which texts it is in which state, it can be said what it accepts.
-/

namespace Dataplane.ProofSupport

/-- The reader that starts in `start` is in the state `s` exactly behind the texts
`l` with `behind l s`. -/
structure Tracks {α σ : Type*} (step : σ → α → Option σ) (start : σ) (behind : List α → σ → Prop) :
    Prop where
  nil : ∀ s, behind [] s ↔ s = start
  snoc : ∀ l a s, behind (l ++ [a]) s ↔ ∃ t, behind l t ∧ step t a = some s

theorem Tracks.foldlM_iff {α σ : Type*} {step : σ → α → Option σ} {start : σ}
    {behind : List α → σ → Prop} (h : Tracks step start behind) (l : List α) (s : σ) :
    l.foldlM step start = some s ↔ behind l s := by
  induction l using List.reverseRecOn generalizing s with
  | nil =>
      rw [h.nil, List.foldlM_nil]
      exact Option.some_inj.trans eq_comm
  | append_singleton l a ih =>
      rw [h.snoc, List.foldlM_append]
      simp [Option.bind_eq_some_iff, ih]

/-! ## Decimal numerals -/

def numeral (n : Nat) : List Char := Nat.toDigits 10 n

def digitValue (c : Char) : Nat := c.toNat - '0'.toNat

theorem digitValue_lt {c : Char} (h : c.isDigit = true) : digitValue c < 10 := by
  rw [Char.isDigit_iff_toNat] at h
  have hzero : '0'.toNat = 48 := rfl
  have hnine : '9'.toNat = 57 := rfl
  unfold digitValue
  omega

theorem digitChar_digitValue {c : Char} (h : c.isDigit = true) :
    Nat.digitChar (digitValue c) = c := by
  have hvalue := Nat.toNat_digitChar_of_lt_ten (digitValue_lt h)
  have hzero : '0'.toNat ≤ c.toNat := (Char.isDigit_iff_toNat.mp h).1
  apply Char.toNat_inj.mp
  rw [hvalue]
  exact Nat.add_sub_of_le hzero

theorem digitValue_digitChar {d : Nat} (h : d < 10) : digitValue (Nat.digitChar d) = d :=
  Nat.toNat_digitChar_sub_48_of_lt_ten h

theorem isDigit_digitChar {d : Nat} (h : d < 10) : (Nat.digitChar d).isDigit = true := by
  rw [Nat.isDigit_digitChar, decide_eq_true h]

theorem numeral_snoc {n d : Nat} (hn : 0 < n) (hd : d < 10) :
    numeral (n * 10 + d) = numeral n ++ [Nat.digitChar d] := by
  rw [numeral, numeral, Nat.mul_comm, ← Nat.toDigits_append_toDigits (by omega) hn hd,
    Nat.toDigits_of_lt_base hd]

theorem numeral_digit {d : Nat} (hd : d < 10) : numeral d = [Nat.digitChar d] :=
  Nat.toDigits_of_lt_base hd

theorem numeral_length_le {n k : Nat} (hk : 0 < k) (hn : n < 10 ^ k) : (numeral n).length ≤ k :=
  (Nat.length_toDigits_le_iff (by omega) hk).mpr hn

end Dataplane.ProofSupport
