import Dataplane.ProofSupport.Execution

/-!
# A run with and without some of its steps

`extra` picks steps of a run.  `without` is what the run's events are when the
extra steps are left out, and a run is unaffected by them when after every
prefix the state looks the same as in the run without them.  When a relation
between the two states survives every step that meets a condition, and the
states look different after any other step, the run is unaffected exactly when
all its steps meet the condition.
-/

namespace Dataplane.ProofSupport.TwoRuns

open Execution

variable {S E : Type*}

/-- The events of the run from `s` without its extra steps. -/
def without (step : S → E → S) (extra : S → E → Bool) (s : S) : List E → List E
  | [] => []
  | e :: es =>
      if extra s e then without step extra (step s e) es
      else e :: without step extra (step s e) es

/-- After every prefix of `es`, the run from `x` looks like the run from `b`
that leaves the extra steps out. -/
def Unaffected (step : S → E → S) (extra : S → E → Bool) (Same : S → S → Prop) (x b : S)
    (es : List E) : Prop :=
  ∀ n, Same (run step x (es.take n)) (run step b (without step extra x (es.take n)))

variable {step : S → E → S} {extra : S → E → Bool} {Same : S → S → Prop} {x b : S} {e : E}
  {es : List E}

theorem unaffected_nil : Unaffected step extra Same x b [] ↔ Same x b := by
  simp [Unaffected, without]

theorem unaffected_cons_extra (he : extra x e = true) :
    Unaffected step extra Same x b (e :: es) ↔
      Same x b ∧ Unaffected step extra Same (step x e) b es := by
  constructor
  · intro h
    exact ⟨by simpa [without] using h 0, fun n => by simpa [without, he] using h (n + 1)⟩
  · rintro ⟨h0, h⟩ n
    cases n with
    | zero => simpa [without] using h0
    | succ n => simpa [without, he] using h n

theorem unaffected_cons (he : extra x e = false) :
    Unaffected step extra Same x b (e :: es) ↔
      Same x b ∧ Unaffected step extra Same (step x e) (step b e) es := by
  constructor
  · intro h
    exact ⟨by simpa [without] using h 0, fun n => by simpa [without, he] using h (n + 1)⟩
  · rintro ⟨h0, h⟩ n
    cases n with
    | zero => simpa [without] using h0
    | succ n => simpa [without, he] using h n

theorem Unaffected.head (h : Unaffected step extra Same x b es) : Same x b := by
  simpa [without] using h 0

/-- What a two-run argument has to show of a relation `Rel`, a condition `C`
and what is known of the steps, `J`. -/
structure Simulates (step : S → E → S) (extra : S → E → Bool) (Same : S → S → Prop)
    (C J : S → E → Prop) (Rel : S → S → Prop) : Prop where
  same : ∀ x b, Rel x b → Same x b
  left : ∀ x b e, Rel x b → C x e → extra x e = true → Rel (step x e) b
  both : ∀ x b e, Rel x b → C x e → extra x e = false → Rel (step x e) (step b e)
  need : ∀ x b e, Rel x b → J x e → extra x e = true → Same (step x e) b → C x e
  free : ∀ x b e, Rel x b → extra x e = false → C x e

theorem Simulates.unaffected_iff {C J : S → E → Prop} {Rel : S → S → Prop}
    (h : Simulates step extra Same C J Rel) (hrel : Rel x b) (hj : Steps step J x es) :
    Unaffected step extra Same x b es ↔ Steps step C x es := by
  induction es generalizing x b with
  | nil => exact unaffected_nil.trans ⟨fun _ => trivial, fun _ => h.same x b hrel⟩
  | cons e es ih =>
      obtain ⟨hfirst, hrest⟩ := hj
      cases he : extra x e with
      | true =>
          rw [unaffected_cons_extra he]
          constructor
          · rintro ⟨-, hun⟩
            have hc := h.need x b e hrel hfirst he hun.head
            exact ⟨hc, (ih (h.left x b e hrel hc he) hrest).mp hun⟩
          · rintro ⟨hc, hsteps⟩
            exact ⟨h.same x b hrel, (ih (h.left x b e hrel hc he) hrest).mpr hsteps⟩
      | false =>
          have hc := h.free x b e hrel he
          rw [unaffected_cons he, ih (h.both x b e hrel hc he) hrest]
          exact ⟨fun hun => ⟨hc, hun.2⟩, fun hsteps => ⟨h.same x b hrel, hsteps.2⟩⟩

end Dataplane.ProofSupport.TwoRuns
