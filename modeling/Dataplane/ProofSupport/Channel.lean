import Mathlib.Data.List.Nodup

/-!
# Lossy channels

A channel numbers the items it accepts.  Its content are the items that are
under way or have come out, oldest first, and an item may be lost on its way.
A channel that is made of queues in a row has as its content what stands in the
queues, read from the exit to the entrance (`line`).
-/

namespace Dataplane.ProofSupport

variable {α β : Type*}

structure Channel (α : Type*) where
  accepted : List (Nat × α)
  lost : List Nat
  content : List (Nat × α)

namespace Channel

/-- Items are numbered as they come, and the content is some of them, in order. -/
structure Sound (ch : Channel α) : Prop where
  numbered : ch.accepted.map Prod.fst = List.range ch.accepted.length
  lost : ∀ n ∈ ch.lost, n < ch.accepted.length
  content : ch.content.Sublist ch.accepted

/-- The content is everything but what was lost. -/
def Exact (ch : Channel α) : Prop := ch.content = ch.accepted.filter fun x => x.1 ∉ ch.lost

def empty : Channel α := ⟨[], [], []⟩

/-- A step of a channel that accounts for every item. -/
inductive Moves (ch : Channel α) : Channel α → Prop
  | keep : Moves ch ch
  | accept (a : α) : Moves ch ⟨ch.accepted ++ [(ch.accepted.length, a)], ch.lost,
      ch.content ++ [(ch.accepted.length, a)]⟩
  | lose (front back : List (Nat × α)) (x : Nat × α) : ch.content = front ++ x :: back →
      Moves ch ⟨ch.accepted, ch.lost ++ [x.1], front ++ back⟩

variable {ch ch' : Channel α}

theorem sound_empty : (empty : Channel α).Sound := ⟨rfl, by simp [empty], List.Sublist.refl _⟩

theorem exact_empty : (empty : Channel α).Exact := rfl

theorem Sound.number_lt (h : ch.Sound) {x : Nat × α} (hx : x ∈ ch.accepted) :
    x.1 < ch.accepted.length := by
  have hmem : x.1 ∈ ch.accepted.map Prod.fst := List.mem_map_of_mem hx
  rw [h.numbered] at hmem
  exact List.mem_range.mp hmem

theorem Sound.nodup (h : ch.Sound) : (ch.accepted.map Prod.fst).Nodup := by
  rw [h.numbered]
  exact List.nodup_range

theorem Sound.leak (h : ch.Sound) {content : List (Nat × α)} (hsub : content.Sublist ch.content) :
    (⟨ch.accepted, ch.lost, content⟩ : Channel α).Sound :=
  ⟨h.numbered, h.lost, hsub.trans h.content⟩

theorem Moves.sound (hmove : Moves ch ch') (h : ch.Sound) : ch'.Sound := by
  cases hmove with
  | keep => exact h
  | accept a =>
      refine ⟨?_, fun n hn => ?_, h.content.append_right _⟩
      · simp [h.numbered, List.range_succ]
      · have hlt := h.lost n hn
        simp only [List.length_append, List.length_singleton]
        omega
  | lose front back x hcontent =>
      have hsub : (front ++ back).Sublist ch.content := by
        rw [hcontent]
        exact (List.sublist_cons_self x back).append_left front
      have hx : x ∈ ch.content := by simp [hcontent]
      refine ⟨h.numbered, fun n hn => ?_, hsub.trans h.content⟩
      rcases List.mem_append.mp hn with hn | hn
      · exact h.lost n hn
      · rw [List.mem_singleton.mp hn]
        exact h.number_lt (h.content.subset hx)

theorem Sound.content_nodup (h : ch.Sound) : (ch.content.map Prod.fst).Nodup :=
  h.nodup.sublist (h.content.map Prod.fst)

theorem Moves.exact (hmove : Moves ch ch') (h : ch.Sound) (hexact : ch.Exact) : ch'.Exact := by
  unfold Exact at hexact ⊢
  cases hmove with
  | keep => exact hexact
  | accept a =>
      have hfresh : ch.accepted.length ∉ ch.lost := fun hn => Nat.lt_irrefl _ (h.lost _ hn)
      simp [hexact, List.filter_append, hfresh]
  | lose front back x hcontent =>
      have hnodup := h.content_nodup
      rw [hcontent, List.map_append, List.map_cons, List.nodup_middle] at hnodup
      have hx : x.1 ∉ (front ++ back).map Prod.fst := by
        rw [List.map_append]
        exact (List.nodup_cons.mp hnodup).1
      have hkept : ∀ y ∈ front ++ back, (decide (y.1 ≠ x.1)) = true := by
        intro y hy
        rw [decide_eq_true_iff]
        intro heq
        exact hx (heq ▸ List.mem_map_of_mem hy)
      -- what is not in the longer list of losses is what passes both filters
      calc front ++ back
          = (front ++ back).filter fun y => decide (y.1 ≠ x.1) :=
            (List.filter_eq_self.mpr hkept).symm
        _ = ch.content.filter fun y => decide (y.1 ≠ x.1) := by
            rw [hcontent, List.filter_append, List.filter_append,
              List.filter_cons_of_neg (by simp)]
        _ = ch.accepted.filter fun y => decide (y.1 ∉ ch.lost ++ [x.1]) := by
            rw [hexact, List.filter_filter]
            apply List.filter_congr
            intro y _
            simp [Bool.and_comm, not_or]

end Channel

/-! ## Queues in a row -/

/-- What stands in the queues `q 0` to `q n`, the items that have come furthest
first. -/
def line (q : Nat → List α) : Nat → List α
  | 0 => q 0
  | n + 1 => q (n + 1) ++ line q n

variable {q q' : Nat → List α} {n : Nat}

theorem line_congr (h : ∀ i ≤ n, q' i = q i) : line q' n = line q n := by
  induction n with
  | zero => exact h 0 (Nat.le_refl 0)
  | succ n ih =>
      rw [line, line, h (n + 1) (Nat.le_refl _), ih fun i hi => h i (by omega)]

theorem line_nil (h : ∀ i ≤ n, q i = []) : line q n = [] := by
  induction n with
  | zero => exact h 0 (Nat.le_refl 0)
  | succ n ih =>
    rw [line, h (n + 1) (Nat.le_refl _), ih fun i hi => h i (by omega), List.append_nil]

theorem line_sublist (h : ∀ i ≤ n, (q' i).Sublist (q i)) : (line q' n).Sublist (line q n) := by
  induction n with
  | zero => exact h 0 (Nat.le_refl 0)
  | succ n ih => exact (h (n + 1) (Nat.le_refl _)).append (ih fun i hi => h i (by omega))

theorem line_enter {l : List α} (hzero : q' 0 = q 0 ++ l) (h : ∀ i ≤ n, i ≠ 0 → q' i = q i) :
    line q' n = line q n ++ l := by
  induction n with
  | zero => exact hzero
  | succ n ih =>
      rw [line, line, h (n + 1) (Nat.le_refl _) (by omega), ih fun i hi => h i (by omega),
        List.append_assoc]

theorem line_pass {j : Nat} (hj : j < n) (hpass : q' (j + 1) ++ q' j = q (j + 1) ++ q j)
    (h : ∀ i ≤ n, i ≠ j → i ≠ j + 1 → q' i = q i) : line q' n = line q n := by
  induction n with
  | zero => omega
  | succ n ih =>
      by_cases hlast : j = n
      · subst hlast
        cases j with
        | zero => exact hpass
        | succ j =>
            have hrest : line q' j = line q j :=
              line_congr fun i hi => h i (by omega) (by omega) (by omega)
            calc line q' (j + 2)
                = (q' (j + 2) ++ q' (j + 1)) ++ line q' j := by
                  rw [line, line, List.append_assoc]
              _ = line q (j + 2) := by rw [hpass, hrest, List.append_assoc, line, line]
      · rw [line, line, h (n + 1) (Nat.le_refl _) (by omega) (by omega),
          ih (by omega) fun i hi => h i (by omega)]

theorem line_remove {j : Nat} (hj : j ≤ n) {x : α} {front back : List α}
    (hq : q j = front ++ x :: back) (hq' : q' j = front ++ back)
    (h : ∀ i ≤ n, i ≠ j → q' i = q i) :
    ∃ before behind, line q n = before ++ x :: behind ∧ line q' n = before ++ behind := by
  induction n with
  | zero =>
      obtain rfl : j = 0 := by omega
      exact ⟨front, back, hq, hq'⟩
  | succ n ih =>
      by_cases hlast : j = n + 1
      · subst hlast
        refine ⟨front, back ++ line q n, ?_, ?_⟩
        · rw [line, hq, List.append_assoc, List.cons_append]
        · rw [line, hq', line_congr fun i hi => h i (by omega) (by omega), List.append_assoc]
      · obtain ⟨before, behind, hline, hline'⟩ := ih (by omega) fun i hi => h i (by omega)
        refine ⟨q (n + 1) ++ before, behind, ?_, ?_⟩
        · rw [line, hline, List.append_assoc]
        · rw [line, hline', h (n + 1) (Nat.le_refl _) (by omega), List.append_assoc]

/-! ## The items of a queue -/

variable [DecidableEq α] {f : α → Option β} {a : α} {l : List α}

theorem filterMap_erase_of_none (h : f a = none) (l : List α) :
    (l.erase a).filterMap f = l.filterMap f := by
  induction l with
  | nil => rfl
  | cons b l ih =>
      by_cases hb : b = a
      · subst hb
        rw [List.erase_cons_head, List.filterMap_cons_none h]
      · rw [List.erase_cons_tail (by simpa using hb), List.filterMap_cons, List.filterMap_cons, ih]

theorem filterMap_erase_oldest {p : α → Bool} (hp : ∀ x, p x = (f x).isSome)
    (h : l.find? p = some a) {b : β} (ha : f a = some b) :
    l.filterMap f = b :: (l.erase a).filterMap f := by
  induction l with
  | nil => simp at h
  | cons c l ih =>
      rw [List.find?_cons] at h
      cases hc : p c with
      | true =>
          rw [hc] at h
          obtain rfl := Option.some.inj h
          rw [List.erase_cons_head, List.filterMap_cons_some ha]
      | false =>
          rw [hc] at h
          have hnone : f c = none := by
            rw [hp] at hc
            simpa using hc
          have hne : c ≠ a := by
            rintro rfl
            rw [hnone] at ha
            cases ha
          rw [List.erase_cons_tail (by simpa using hne), List.filterMap_cons_none hnone,
            List.filterMap_cons_none hnone]
          exact ih h

end Dataplane.ProofSupport
