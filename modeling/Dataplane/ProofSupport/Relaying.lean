import Mathlib.Data.List.Infix
import Mathlib.Data.List.Perm.Subperm

/-!
# Passing items on

A machine that passes items on has passed a part of what came in, from the
beginning, and all of it as long as it goes on.  Between two machines is a
network, and what it guarantees of one step is guaranteed of a row of steps if
the guarantee is transitive and does not mind that something is missing at the
end.
-/

namespace Dataplane.ProofSupport

variable {α : Type*}

/-- Of the items `ins` the machine has passed on `outs`, and all of them while it
`goes`. -/
structure Follows (ins outs : List α) (goes : Prop) : Prop where
  part : outs <+: ins
  all : goes → outs = ins

namespace Follows

variable {ins outs more passed : List α} {went goes : Prop}

theorem same (l : List α) (goes : Prop) : Follows l l goes := ⟨List.prefix_rfl, fun _ => rfl⟩

theorem withheld (h : ¬ goes) : Follows ins [] goes :=
  ⟨List.nil_prefix, fun hgoes => absurd hgoes h⟩

theorem mono (h : Follows ins outs went) (hgoes : goes → went) : Follows ins outs goes :=
  ⟨h.part, fun hg => h.all (hgoes hg)⟩

theorem append (h : Follows ins outs went) (hwent : went) (hstep : Follows more passed goes) :
    Follows (ins ++ more) (outs ++ passed) goes := by
  have houts := h.all hwent
  refine ⟨?_, fun hgoes => by rw [houts, hstep.all hgoes]⟩
  rw [houts]
  exact (List.prefix_append_right_inj _).mpr hstep.part

theorem single {o : Option α} {l : List α} (hlen : l.length ≤ 1) (hitem : ∀ a ∈ l, o = some a)
    (hall : goes → l ≠ [] ∨ o = none) : Follows o.toList l goes := by
  match l, hlen with
  | [], _ =>
      refine ⟨List.nil_prefix, fun hgoes => ?_⟩
      rw [(hall hgoes).resolve_left fun hne => hne rfl]
      rfl
  | [a], _ =>
      rw [hitem a (List.mem_singleton_self a)]
      exact same [a] goes

end Follows

/-! ## Machines in a row -/

/-- What a network may guarantee of the items that it delivers, given those that
were sent. -/
structure Guarantee (R : List α → List α → Prop) : Prop where
  part : ∀ {delivered sent}, delivered <+: sent → R delivered sent
  trans : ∀ {a b c}, R a b → R b c → R a c

namespace Guarantee

/-- Items may be lost, but they stay in order. -/
theorem sublist : Guarantee (α := α) List.Sublist := ⟨List.IsPrefix.sublist, List.Sublist.trans⟩

/-- Items may be lost and change places, but none is delivered more often than it
was sent. -/
theorem subperm : Guarantee (α := α) List.Subperm :=
  ⟨fun h => h.sublist.subperm, List.Subperm.trans⟩

theorem subset : Guarantee (α := α) fun delivered sent => delivered ⊆ sent :=
  ⟨fun h => h.subset, fun h h' => List.Subset.trans h h'⟩

variable {R : List α → List α → Prop} {ins outs : Nat → List α} {goes : Nat → Prop} {n : Nat}

/-- What is guaranteed of every link is guaranteed of the row. -/
theorem row (hR : Guarantee R) (hnode : ∀ j ≤ n, Follows (ins j) (outs j) (goes j))
    (hlink : ∀ j < n, R (ins (j + 1)) (outs j)) : R (outs n) (ins 0) := by
  induction n with
  | zero => exact hR.part (hnode 0 (Nat.le_refl 0)).part
  | succ n ih =>
      have hbefore : R (outs n) (ins 0) :=
        ih (fun j hj => hnode j (by omega)) fun j hj => hlink j (by omega)
      have hlast : R (outs (n + 1)) (ins (n + 1)) :=
        hR.part (hnode (n + 1) (Nat.le_refl _)).part
      exact hR.trans hlast (hR.trans (hlink n (by omega)) hbefore)

theorem row_all (hnode : ∀ j ≤ n, Follows (ins j) (outs j) (goes j)) (hgoes : ∀ j ≤ n, goes j)
    (hlink : ∀ j < n, ins (j + 1) = outs j) : outs n = ins 0 := by
  induction n with
  | zero => exact (hnode 0 (Nat.le_refl 0)).all (hgoes 0 (Nat.le_refl 0))
  | succ n ih =>
      have hbefore : outs n = ins 0 := ih (fun j hj => hnode j (by omega))
        (fun j hj => hgoes j (by omega)) fun j hj => hlink j (by omega)
      calc outs (n + 1)
          = ins (n + 1) := (hnode (n + 1) (Nat.le_refl _)).all (hgoes (n + 1) (Nat.le_refl _))
        _ = outs n := hlink n (by omega)
        _ = ins 0 := hbefore

end Guarantee

end Dataplane.ProofSupport
