import Mathlib.Data.List.Basic

/-!
# Runs of event machines

A machine is a state type with a total step function; a run feeds it a list of
events.  `run_invariant` is the induction every safety result uses, with a
condition `P` on the events where the environment is constrained, and
`Always` speaks of every state a run passes through and `Steps` of every step.
`visits` lists the states in which a run makes a certain kind of step.
-/

namespace Dataplane.ProofSupport.Execution

variable {S E : Type*}

def run (step : S → E → S) (s : S) (es : List E) : S := es.foldl step s

@[simp] theorem run_nil (step : S → E → S) (s : S) : run step s [] = s := rfl

@[simp] theorem run_cons (step : S → E → S) (s : S) (e : E) (es : List E) :
    run step s (e :: es) = run step (step s e) es := rfl

theorem run_append (step : S → E → S) (s : S) (es fs : List E) :
    run step s (es ++ fs) = run step (run step s es) fs := by
  simp [run]

/-- What holds at the start and is kept by every step on an allowed event
holds after every run of allowed events. -/
theorem run_invariant {step : S → E → S} (P : E → Prop) (I : S → Prop)
    (hstep : ∀ s e, P e → I s → I (step s e)) {s : S} {es : List E}
    (hes : ∀ e ∈ es, P e) (hs : I s) : I (run step s es) := by
  induction es generalizing s with
  | nil => exact hs
  | cons e es ih =>
      exact ih (fun f hf => hes f (List.mem_cons_of_mem e hf))
        (hstep s e (hes e List.mem_cons_self) hs)

/-- `Q` holds in every state the run passes through, the first and the last
included. -/
def Always (step : S → E → S) (Q : S → Prop) (s : S) (es : List E) : Prop :=
  ∀ n, Q (run step s (es.take n))

theorem always_nil {step : S → E → S} {Q : S → Prop} {s : S} :
    Always step Q s [] ↔ Q s := by
  simp [Always]

theorem always_cons {step : S → E → S} {Q : S → Prop} {s : S} {e : E} {es : List E} :
    Always step Q s (e :: es) ↔ Q s ∧ Always step Q (step s e) es := by
  constructor
  · intro h
    exact ⟨by simpa using h 0, fun n => by simpa using h (n + 1)⟩
  · rintro ⟨h0, h⟩ n
    cases n with
    | zero => simpa using h0
    | succ n => simpa using h n

theorem Always.last {step : S → E → S} {Q : S → Prop} {s : S} {es : List E}
    (h : Always step Q s es) : Q (run step s es) := by
  simpa using h es.length

/-- `C` holds of every step of the run, of the state before it and its event. -/
def Steps (step : S → E → S) (C : S → E → Prop) (s : S) : List E → Prop
  | [] => True
  | e :: es => C s e ∧ Steps step C (step s e) es

/-- Where `C` is what a good state needs of a step to stay good, and `Q` fails
after any other step, `Q` holds all along exactly when every step meets `C`. -/
theorem always_iff_steps {step : S → E → S} (Good : S → Prop) {Q : S → Prop} {C : S → E → Prop}
    (hgood : ∀ s, Good s → Q s) (hkeep : ∀ s e, Good s → C s e → Good (step s e))
    (hneed : ∀ s e, Good s → Q (step s e) → C s e) {s : S} (hs : Good s) (es : List E) :
    Always step Q s es ↔ Steps step C s es := by
  induction es generalizing s with
  | nil => exact always_nil.trans ⟨fun _ => trivial, fun _ => hgood s hs⟩
  | cons e es ih =>
      rw [always_cons]
      constructor
      · rintro ⟨-, hrest⟩
        have hfirst : Q (step s e) := by simpa using hrest 0
        have hc := hneed s e hs hfirst
        exact ⟨hc, (ih (hkeep s e hs hc)).mp hrest⟩
      · rintro ⟨hc, hrest⟩
        exact ⟨hgood s hs, (ih (hkeep s e hs hc)).mpr hrest⟩

/-- Where a good step is one that meets `C`, all steps are good exactly when all
of them meet `C`. -/
theorem steps_iff {step : S → E → S} (Good : S → Prop) {P C : S → E → Prop}
    (hkeep : ∀ s e, Good s → Good (step s e)) (hiff : ∀ s e, Good s → (P s e ↔ C s e)) {s : S}
    (hs : Good s) (es : List E) : Steps step P s es ↔ Steps step C s es := by
  induction es generalizing s with
  | nil => exact Iff.rfl
  | cons e es ih => exact and_congr (hiff s e hs) (ih (hkeep s e hs))

/-- Where `Q` does not come back once it is lost, and `C` is what a good state needs
of a step to keep it, `Q` holds at the end exactly when every step meets `C`.  What
`H` says of the end it says of all that is before. -/
theorem last_iff_steps {step : S → E → S} (Good H : S → Prop) {Q : S → Prop} {C : S → E → Prop}
    (hgood : ∀ s e, Good s → Good (step s e)) (hback : ∀ s e, Good s → H (step s e) → H s)
    (hlost : ∀ s e, ¬ Q s → ¬ Q (step s e))
    (hiff : ∀ s e, Good s → Q s → H (step s e) → (Q (step s e) ↔ C s e)) {s : S} (hs : Good s)
    (hq : Q s) (es : List E) (hend : H (run step s es)) :
    Q (run step s es) ↔ Steps step C s es := by
  have hbefore : ∀ es s, Good s → H (run step s es) → H s := by
    intro es
    induction es with
    | nil => exact fun s _ h => h
    | cons e es ih => exact fun s hs h => hback s e hs (ih (step s e) (hgood s e hs) h)
  induction es generalizing s with
  | nil => exact iff_of_true hq trivial
  | cons e es ih =>
      have hnext := hgood s e hs
      have hstep := hiff s e hs hq (hbefore es (step s e) hnext hend)
      by_cases hc : C s e
      · have hrest := ih hnext (hstep.mpr hc) hend
        exact hrest.trans (and_iff_right hc).symm
      · have hleft : ¬ Q (step s e) := fun h => hc (hstep.mp h)
        have hnever : ¬ Q (run step (step s e) es) :=
          run_invariant (fun _ => True) (fun s => ¬ Q s) (fun s e _ h => hlost s e h)
            (fun _ _ => trivial) hleft
        exact iff_of_false hnever fun h => hc h.1

/-! ## Marked steps -/

/-- The states in which the run makes a step that `mark` picks. -/
def visits (step : S → E → S) (mark : S → E → Bool) (s : S) : List E → List S
  | [] => []
  | e :: es => (if mark s e then [s] else []) ++ visits step mark (step s e) es

/-- The induction over a run with the states it has visited so far. -/
theorem visits_invariant {step : S → E → S} {mark : S → E → Bool} (I : List S → S → Prop)
    (hstep : ∀ vs t e, I vs t → I (vs ++ if mark t e then [t] else []) (step t e)) {s : S}
    (hs : I [] s) (es : List E) : I (visits step mark s es) (run step s es) := by
  have hall : ∀ vs, I vs s → I (vs ++ visits step mark s es) (run step s es) := by
    clear hs
    induction es generalizing s with
    | nil =>
        intro vs hvs
        rw [visits, List.append_nil]
        exact hvs
    | cons e es ih =>
        intro vs hvs
        rw [visits, ← List.append_assoc]
        exact ih _ (hstep vs s e hvs)
  exact hall [] hs

end Dataplane.ProofSupport.Execution
