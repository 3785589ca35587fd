import Mathlib.Algebra.Group.Int.Defs
import Mathlib.Algebra.Group.Nat.Defs
import Mathlib.Data.List.Basic

/-!
# Byte buffers

Buffers are lists of bytes.  `overwrite` is `memcpy` to the beginning of a
buffer, and `le32`/`readLe32` are the 32-bit little-endian words that kernel
structures are made of.
-/

namespace Dataplane.ProofSupport

abbrev Bytes := List UInt8

namespace Bytes

/-- `memcpy(dst, src, |src|)`: the bytes of `dst` behind the copy stay. -/
def overwrite (dst src : Bytes) : Bytes := src ++ dst.drop src.length

@[simp] theorem take_overwrite (dst src : Bytes) :
    (overwrite dst src).take src.length = src := by
  simp [overwrite]

@[simp] theorem length_overwrite (dst src : Bytes) :
    (overwrite dst src).length = max src.length dst.length := by
  simp [overwrite]
  omega

def le32 (n : Nat) : Bytes :=
  [UInt8.ofNat n, UInt8.ofNat (n / 2 ^ 8), UInt8.ofNat (n / 2 ^ 16), UInt8.ofNat (n / 2 ^ 24)]

def readLe32 : Bytes → Nat
  | a :: b :: c :: d :: _ => a.toNat + b.toNat * 2 ^ 8 + c.toNat * 2 ^ 16 + d.toNat * 2 ^ 24
  | _ => 0

@[simp] theorem length_le32 (n : Nat) : (le32 n).length = 4 := rfl

theorem readLe32_le32 {n : Nat} (h : n < 2 ^ 32) (rest : Bytes) :
    readLe32 (le32 n ++ rest) = n := by
  simp only [le32, readLe32, List.cons_append, UInt8.toNat_ofNat']
  omega

end Bytes

end Dataplane.ProofSupport
