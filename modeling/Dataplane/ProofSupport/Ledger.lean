import Mathlib.Data.Multiset.Bind
import Mathlib.Data.Multiset.Range

/-!
# Resource ledgers

A fixed stock of resources is accounted for by a multiset equation: what is
free plus what the holders own is the whole stock.  When the stock has no
duplicates the equation says that every resource is in exactly one place.
`owned f s` is what the holders in `s` own together, `f a` being what the
holder `a` owns.
-/

namespace Dataplane.ProofSupport.Ledger

variable {α β : Type*}

def owned (f : α → Multiset β) (s : Multiset α) : Multiset β := s.bind f

@[simp] theorem owned_zero (f : α → Multiset β) : owned f 0 = 0 := by
  simp [owned]

@[simp] theorem owned_cons (f : α → Multiset β) (a : α) (s : Multiset α) :
    owned f (a ::ₘ s) = f a + owned f s := by
  simp [owned]

@[simp] theorem owned_singleton (f : α → Multiset β) (a : α) : owned f {a} = f a := by
  simp [owned]

@[simp] theorem owned_add (f : α → Multiset β) (s t : Multiset α) :
    owned f (s + t) = owned f s + owned f t := by
  simp [owned]

theorem mem_owned {f : α → Multiset β} {s : Multiset α} {b : β} :
    b ∈ owned f s ↔ ∃ a ∈ s, b ∈ f a := by
  simp [owned]

theorem owned_congr {f g : α → Multiset β} {s : Multiset α} (h : ∀ a ∈ s, f a = g a) :
    owned f s = owned g s :=
  Multiset.bind_congr h

theorem owned_update_of_notMem [DecidableEq α] {γ : Type*} {g : γ → Multiset β} {f : α → γ}
    {s : Multiset α} {a : α} (v : γ) (h : a ∉ s) :
    owned (fun x => g (Function.update f a v x)) s = owned (fun x => g (f x)) s := by
  apply owned_congr
  intro b hb
  rw [Function.update_of_ne]
  rintro rfl
  exact h hb

theorem count_owned [DecidableEq β] {f : α → Multiset β} (hf : ∀ a, (f a).Nodup)
    (s : Multiset α) (b : β) : (owned f s).count b = s.countP fun a => b ∈ f a := by
  induction s using Multiset.induction with
  | empty => simp
  | cons a s ih =>
      rw [owned_cons, Multiset.count_add, ih, Multiset.countP_cons,
        Multiset.count_eq_of_nodup (hf a), add_comm]

/-- Holders of at most one resource each own no more resources than they are. -/
theorem card_owned_le {f : α → Multiset β} (hf : ∀ a, (f a).card ≤ 1) (s : Multiset α) :
    (owned f s).card ≤ s.card := by
  induction s using Multiset.induction with
  | empty => simp
  | cons a s ih =>
      rw [owned_cons, Multiset.card_add, Multiset.card_cons]
      have ha := hf a
      omega

/-- In a duplicate-free ledger two holders never own the same thing. -/
theorem not_mem_of_nodup_owned {f : α → Multiset β} {s : Multiset α} {a a' : α} {b : β}
    (hnd : (owned f (a ::ₘ s)).Nodup) (hb : b ∈ f a) (ha' : a' ∈ s) : b ∉ f a' := by
  rw [owned_cons, Multiset.nodup_add] at hnd
  intro hb'
  exact Multiset.disjoint_left.mp hnd.2.2 hb (mem_owned.mpr ⟨a', ha', hb'⟩)

theorem eq_of_nodup_owned [DecidableEq α] {f : α → Multiset β} {s : Multiset α} {a a' : α}
    {b : β} (hnd : (owned f s).Nodup) (ha : a ∈ s) (ha' : a' ∈ s) (hb : b ∈ f a)
    (hb' : b ∈ f a') : a = a' := by
  by_contra hne
  have hrest : a' ∈ s.erase a := (Multiset.mem_erase_of_ne (Ne.symm hne)).mpr ha'
  rw [← Multiset.cons_erase ha] at hnd
  exact not_mem_of_nodup_owned hnd hb hrest hb'

/-- One place in a duplicate-free stock: what is in the first part of the
ledger is not in the rest. -/
theorem not_mem_right_of_stock {s t u : Multiset β} (hnd : u.Nodup) (hstock : s + t = u)
    {b : β} (hb : b ∈ s) : b ∉ t := by
  rw [← hstock, Multiset.nodup_add] at hnd
  exact fun hb' => Multiset.disjoint_left.mp hnd.2.2 hb hb'

/-- The ledger of the first `n` numbers counts every one of them once. -/
theorem count_add_of_range {s t : Multiset Nat} {n x : Nat}
    (hstock : s + t = Multiset.range n) (hx : x < n) : s.count x + t.count x = 1 := by
  rw [← Multiset.count_add, hstock]
  exact Multiset.count_eq_one_of_mem (Multiset.nodup_range n) (Multiset.mem_range.mpr hx)

end Dataplane.ProofSupport.Ledger
