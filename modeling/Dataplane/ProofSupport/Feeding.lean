import Mathlib.Data.List.Induction

/-!
# Machines that are fed

A machine works by itself while it is busy, and reads one more input when it is
ready.  Where it comes to rest is decided by its inputs (`Fed.unique`), and
`Fed.filter` is the induction for inputs that leave no trace.
-/

namespace Dataplane.ProofSupport.Feeding

structure Machine (S I : Type*) where
  busy : S → Prop
  ready : S → Prop
  apart : ∀ s, ready s → ¬ busy s
  work : S → S
  read : S → I → S

variable {S I : Type*} {m : Machine S I} {start s s' t : S} {is : List I}

/-- The machine gets from `start` to a state while it reads these inputs. -/
inductive Fed (m : Machine S I) (start : S) : List I → S → Prop
  | start : Fed m start [] start
  | work {is : List I} {s : S} : Fed m start is s → m.busy s → Fed m start is (m.work s)
  | read {is : List I} {s : S} (i : I) : Fed m start is s → m.ready s →
      Fed m start (is ++ [i]) (m.read s i)

/-- From `s` the machine gets to `s'` without an input. -/
inductive Later (m : Machine S I) : S → S → Prop
  | refl (s : S) : Later m s s
  | work {s s' : S} : m.busy s → Later m (m.work s) s' → Later m s s'

theorem Later.snoc (h : Later m s s') (hbusy : m.busy s') : Later m s (m.work s') := by
  induction h with
  | refl s => exact .work hbusy (.refl _)
  | work hs _ ih => exact .work hs (ih hbusy)

/-- Work is done in one order only. -/
theorem Later.linear (h : Later m s s') (h' : Later m s t) : Later m s' t ∨ Later m t s' := by
  induction h with
  | refl s => exact .inl h'
  | work hs hrest ih =>
      cases h' with
      | refl => exact .inr (.work hs hrest)
      | work _ hrest' => exact ih hrest'

theorem Later.eq_of_rest (h : Later m s s') (hs : ¬ m.busy s) : s = s' := by
  cases h with
  | refl => rfl
  | work hbusy _ => exact absurd hbusy hs

theorem eq_of_rest (h : Later m s t ∨ Later m t s) (hs : ¬ m.busy s) (ht : ¬ m.busy t) : s = t :=
  h.elim (fun h => h.eq_of_rest hs) fun h => (h.eq_of_rest ht).symm

theorem Fed.of_nil (h : Fed m start [] s) : Later m start s := by
  generalize hnil : ([] : List I) = is at h
  induction h with
  | start => exact .refl start
  | work _ hbusy ih => exact (ih hnil).snoc hbusy
  | read i _ _ _ => simp at hnil

theorem Fed.of_concat {i : I} (h : Fed m start (is ++ [i]) s) :
    ∃ t, Fed m start is t ∧ m.ready t ∧ Later m (m.read t i) s := by
  generalize hlist : is ++ [i] = js at h
  induction h with
  | start => simp at hlist
  | work _ hbusy ih =>
      obtain ⟨t, hfed, hready, hlater⟩ := ih hlist
      exact ⟨t, hfed, hready, hlater.snoc hbusy⟩
  | @read js t j hfed hready _ =>
      obtain ⟨rfl, hj⟩ := List.append_inj' hlist rfl
      obtain rfl := List.singleton_inj.mp hj
      exact ⟨t, hfed, hready, .refl _⟩

theorem Fed.linear (h : Fed m start is s) (h' : Fed m start is t) :
    Later m s t ∨ Later m t s := by
  induction is using List.reverseRecOn generalizing s t with
  | nil => exact h.of_nil.linear h'.of_nil
  | append_singleton is i ih =>
      obtain ⟨p, hp, hready, hlater⟩ := h.of_concat
      obtain ⟨q, hq, hready', hlater'⟩ := h'.of_concat
      obtain rfl := eq_of_rest (ih hp hq) (m.apart p hready) (m.apart q hready')
      exact hlater.linear hlater'

/-- The inputs decide where the machine comes to rest. -/
theorem Fed.unique (h : Fed m start is s) (h' : Fed m start is t) (hs : ¬ m.busy s)
    (ht : ¬ m.busy t) : s = t :=
  eq_of_rest (h.linear h') hs ht

/-- Among inputs like `P` some may be left out when the machine keeps `R` to one
that does not get them.  The other one may have less work to do. -/
theorem Fed.filter (keep : I → Bool) (P : I → Prop) (R : S → S → Prop) (hstart : R start start)
    (hwork : ∀ s t, R s t → m.busy s → m.busy t ∧ R (m.work s) (m.work t) ∨ R (m.work s) t)
    (hkept : ∀ s t i, R s t → m.ready s → keep i = true →
      m.ready t ∧ R (m.read s i) (m.read t i))
    (hleft : ∀ s t i, R s t → P i → m.ready s → keep i = false → R (m.read s i) t)
    (h : Fed m start is s) (his : ∀ i ∈ is, P i) :
    ∃ t, Fed m start (is.filter keep) t ∧ R s t := by
  induction h with
  | start => exact ⟨start, .start, hstart⟩
  | work _ hbusy ih =>
      obtain ⟨t, hfed, hrel⟩ := ih his
      rcases hwork _ t hrel hbusy with ⟨hbusy', hboth⟩ | hone
      · exact ⟨m.work t, .work hfed hbusy', hboth⟩
      · exact ⟨t, hfed, hone⟩
  | @read is s i _ hready ih =>
      obtain ⟨t, hfed, hrel⟩ := ih fun j hj => his j (List.mem_append_left _ hj)
      rw [List.filter_append]
      cases hkeep : keep i with
      | true =>
          obtain ⟨hready', hboth⟩ := hkept s t i hrel hready hkeep
          refine ⟨m.read t i, ?_, hboth⟩
          rw [List.filter_cons_of_pos hkeep]
          exact .read i hfed hready'
      | false =>
          have hi := his i (List.mem_append_right _ (List.mem_singleton_self i))
          refine ⟨t, ?_, hleft s t i hrel hi hready hkeep⟩
          rw [List.filter_cons_of_neg (by simp [hkeep]), List.filter_nil, List.append_nil]
          exact hfed

end Dataplane.ProofSupport.Feeding
