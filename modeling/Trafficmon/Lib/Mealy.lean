import Trafficmon.Lib.Run

/-!
# Machines with outputs

A machine reads inputs one after the other and gives one output for each. `forall₂_run` is the rule
for comparing two of them: a relation between their states that every step meeting `C` keeps relates
the outputs of whole runs.
-/

structure Mealy (σ ε ω : Type*) where
  step : σ → ε → σ
  output : σ → ε → ω

namespace Mealy
variable {σ τ ε ω ω' : Type*}

def run (M : Mealy σ ε ω) : σ → List ε → List ω
  | _, [] => []
  | s, e :: es => M.output s e :: M.run (M.step s e) es

@[simp] theorem length_run (M : Mealy σ ε ω) (s : σ) (es : List ε) : (M.run s es).length = es.length := by
  induction es generalizing s with
  | nil => rfl
  | cons e es ih => rw [run, List.length_cons, ih, List.length_cons]

/-- What `M` puts out stands to what `N` puts out as `Q` says, input by input, if the inputs meet `C`
in the states they find `N` in. -/
theorem forall₂_run {M : Mealy σ ε ω} {N : Mealy τ ε ω'} {R : σ → τ → Prop} {Q : ω → ω' → Prop} {C : τ → ε → Prop}
    (hstep : ∀ s t e, R s t → C t e → R (M.step s e) (N.step t e))
    (hout : ∀ s t e, R s t → C t e → Q (M.output s e) (N.output t e)) {s : σ} {t : τ} {es : List ε} (h : R s t)
    (hC : Run.Meets N.step C t es) : List.Forall₂ Q (M.run s es) (N.run t es) := by
  induction es generalizing s t with
  | nil => exact .nil
  | cons e es ih =>
    obtain ⟨he, hes⟩ := Run.meets_cons.1 hC
    exact .cons (hout s t e h he) (ih (hstep s t e h he) hes)

end Mealy
