import Mathlib.Data.List.Induction

/-!
# Runs of a step function

A run is the fold of `step : σ → ε → σ` over a list of events. `Meets C s es` says that every step
of the run from `s` meets `C` in the state it is taken in. Properties are stated over the *history*
of a run (the events so far), so that they can talk about earlier events as well as about the state
the events lead to.
-/

namespace Run
variable {σ ε : Type*} {step : σ → ε → σ} {C : σ → ε → Prop} {s : σ} {es : List ε}

/-- Each event of `es` meets `C` in the state the events before it lead to. -/
def Meets (step : σ → ε → σ) (C : σ → ε → Prop) (s : σ) (es : List ε) : Prop :=
  ∀ pre e post, es = pre ++ e :: post → C (pre.foldl step s) e

theorem Meets.nil : Meets step C s [] := by
  intro pre e post h
  simp at h

theorem meets_cons {e : ε} : Meets step C s (e :: es) ↔ C s e ∧ Meets step C (step s e) es := by
  constructor
  · exact fun h => ⟨h [] e es rfl, fun pre e' post he => h (e :: pre) e' post (by simp [he])⟩
  · rintro ⟨h, hes⟩ pre e' post heq
    cases pre with
    | nil => obtain ⟨rfl, rfl⟩ := List.cons.inj heq; exact h
    | cons x pre => obtain ⟨rfl, htail⟩ := List.cons.inj heq; exact hes pre e' post htail

theorem meets_concat {e : ε} :
    Meets step C s (es ++ [e]) ↔ Meets step C s es ∧ C (es.foldl step s) e := by
  constructor
  · refine fun h => ⟨fun pre e' post he => h pre e' (post ++ [e]) (by simp [he]), h es e [] rfl⟩
  · rintro ⟨h, he⟩ pre e' post heq
    rcases List.eq_nil_or_concat post with rfl | ⟨post, x, rfl⟩
    · obtain ⟨rfl, h1⟩ := List.append_inj' heq rfl
      obtain rfl : e = e' := by simpa using h1
      exact he
    · have heq' : es ++ [e] = (pre ++ e' :: post) ++ [x] := by simpa using heq
      exact h pre e' post (List.append_inj' heq' rfl).1

theorem Meets.of_prefix {pre : List ε} (h : Meets step C s es) (hp : pre <+: es) : Meets step C s pre := by
  obtain ⟨post, rfl⟩ := hp
  exact fun a e b hab => h a e (b ++ post) (by simp [hab])

/-- A property of the history that every step meeting `C` keeps holds after the run. -/
theorem Meets.history {P : List ε → Prop} (h : Meets step C s es) (h0 : P [])
    (hstep : ∀ pre e, P pre → C (pre.foldl step s) e → P (pre ++ [e])) : P es := by
  induction es using List.reverseRecOn with
  | nil => exact h0
  | append_singleton es e ih =>
    obtain ⟨h, he⟩ := meets_concat.1 h
    exact hstep es e (ih h) he

theorem forall_prefix_concat {P : List ε → Prop} {e : ε} :
    (∀ pre, pre <+: es ++ [e] → P pre) ↔ (∀ pre, pre <+: es → P pre) ∧ P (es ++ [e]) := by
  simp only [List.prefix_concat_iff]
  constructor
  · exact fun h => ⟨fun pre hp => h pre (.inr hp), h _ (.inl rfl)⟩
  · rintro ⟨h, he⟩ pre (rfl | hp)
    · exact he
    · exact h pre hp

/-- When `C` is exactly what one more step needs to keep `P`, a run has `P` in every state it
reaches iff each of its steps meets `C`. -/
theorem forall_prefix_iff_meets {P : List ε → Prop} (h0 : P [])
    (hstep : ∀ pre e, P pre → (P (pre ++ [e]) ↔ C (pre.foldl step s) e)) :
    (∀ pre, pre <+: es → P pre) ↔ Meets step C s es := by
  induction es using List.reverseRecOn with
  | nil => exact ⟨fun _ => .nil, fun _ pre hp => by rw [List.prefix_nil.1 hp]; exact h0⟩
  | append_singleton es e ih =>
    rw [forall_prefix_concat, meets_concat, ih]
    refine and_congr_right fun h => hstep es e ?_
    exact ih.2 h es (List.prefix_refl es)

end Run
