import Mathlib.Algebra.BigOperators.Fin
import Mathlib.Algebra.BigOperators.ModEq
import Mathlib.Algebra.GroupWithZero.Nat
import Mathlib.Algebra.Group.Fin.Basic
import Mathlib.Data.UInt

/-!
# Rings of buckets

`n` buckets of `uint64` sums in a ring, the bucket at `head` being the newest. `Covers ring head top
adds` says that the bucket `d` places behind `head` holds, modulo `2 ^ 64`, what was added at tick
`top - d`. The operations of such a ring (a turn to the next tick, a clear once everything is out of
the window, an addition at `head`) keep it, and `Covers.total` reads the sum over the window off it.
-/

namespace BucketRing
variable {n : Nat} {ring : Vector UInt64 n} {head : Fin n} {top : ℤ} {adds : List (ℤ × ℕ)}

/-- What the additions at the ticks in `p` add up to. -/
def sumWhere (p : ℤ → Prop) [DecidablePred p] (adds : List (ℤ × ℕ)) : ℕ :=
  ((adds.filter fun a => p a.1).map Prod.snd).sum

theorem sumWhere_concat (p : ℤ → Prop) [DecidablePred p] (adds : List (ℤ × ℕ)) (a : ℤ × ℕ) :
    sumWhere p (adds ++ [a]) = sumWhere p adds + if p a.1 then a.2 else 0 := by
  by_cases ha : p a.1 <;> simp [sumWhere, ha]

theorem sumWhere_eq_zero {p : ℤ → Prop} [DecidablePred p] (h : ∀ a ∈ adds, ¬ p a.1) : sumWhere p adds = 0 := by
  have hnil : adds.filter (fun a => decide (p a.1)) = [] := by simpa using h
  rw [sumWhere, hnil]
  rfl

/-- The bucket `d` places behind `head` holds what was added at tick `top - d`. -/
structure Covers (ring : Vector UInt64 n) (head : Fin n) (top : ℤ) (adds : List (ℤ × ℕ)) : Prop where
  slot : ∀ d : Fin n, (ring[head - d]).toNat = sumWhere (· = top - d) adds % 2 ^ 64
  le : ∀ a ∈ adds, a.1 ≤ top

theorem Covers.clear (h : ∀ a ∈ adds, a.1 + n ≤ top) : Covers (Vector.replicate n 0) head top adds := by
  refine ⟨fun d => ?_, fun a ha => ?_⟩
  · rw [sumWhere_eq_zero fun a ha => ?_]
    · simp
    · have := h a ha
      have := d.isLt
      omega
  · have := h a ha
    omega

theorem Covers.retop (h : Covers ring head top []) (top' : ℤ) : Covers ring head top' [] := by
  refine ⟨fun d => ?_, nofun⟩
  rw [h.slot d]
  rfl

/-- The step to the next tick takes the oldest bucket for the new one. -/
theorem Covers.turn [NeZero n] (h : Covers ring head top adds) {next : Fin n} (hnext : next = head + 1) :
    Covers (ring.set next 0) next (top + 1) adds := by
  subst hnext
  refine ⟨fun d => ?_, fun a ha => (h.le a ha).trans (by omega)⟩
  by_cases hd : d = 0
  · subst hd
    rw [sumWhere_eq_zero fun a ha => ?_]
    · simp
    · have := h.le a ha
      simp only [Fin.val_zero]
      omega
  · have hne : head + 1 ≠ head + 1 - d := by
      intro he
      exact hd (sub_eq_self.1 he.symm)
    have hval : ((d - 1 : Fin n) : ℕ) + 1 = d := by
      have hpos : 0 < (d : ℕ) := Nat.pos_of_ne_zero fun h0 => hd (Fin.ext (by simpa using h0))
      have hone : ((1 : Fin n) : ℕ) = 1 := by
        rw [Fin.val_one']
        exact Nat.mod_eq_of_lt (by have := d.isLt; omega)
      rw [Fin.sub_val_of_le (by rw [Fin.le_def, hone]; omega), hone]
      omega
    have hslot := h.slot (d - 1)
    simp only [sub_sub_eq_add_sub] at hslot
    rw [Fin.getElem_fin, Vector.getElem_set_ne _ _ (fun he => hne (Fin.ext he)), ← Fin.getElem_fin, hslot]
    congr 1
    unfold sumWhere
    congr 3
    funext a
    simp only [decide_eq_decide]
    omega

/-- An addition goes into the newest bucket. -/
theorem Covers.add [NeZero n] (h : Covers ring head top adds) (v : UInt64) :
    Covers (ring.set head (ring[head] + v)) head top (adds ++ [(top, v.toNat)]) := by
  refine ⟨fun d => ?_, ?_⟩
  · have hslot := h.slot d
    rw [sumWhere_concat]
    by_cases hd : d = 0
    · subst hd
      simp only [sub_zero, Fin.val_zero, Nat.cast_zero] at hslot ⊢
      rw [Fin.getElem_fin, Vector.getElem_set_self, UInt64.toNat_add, hslot]
      simp
    · have hne : head ≠ head - d := fun he => hd (sub_eq_self.1 he.symm)
      have hpos : 0 < (d : ℕ) := Nat.pos_of_ne_zero fun h0 => hd (Fin.ext (by simpa using h0))
      rw [Fin.getElem_fin, Vector.getElem_set_ne _ _ (fun he => hne (Fin.ext he)), ← Fin.getElem_fin, hslot,
        if_neg (by omega), Nat.add_zero]
  · intro a ha
    rcases List.mem_append.1 ha with ha | ha
    · exact h.le a ha
    · rw [List.mem_singleton.1 ha]

theorem sum_slots {p : ℤ → Prop} [DecidablePred p] (h : ∀ a ∈ adds, a.1 ≤ top)
    (hp : ∀ t ≤ top, p t ↔ top - n < t) :
    ∑ d : Fin n, sumWhere (· = top - d) adds = sumWhere p adds := by
  induction adds using List.reverseRecOn with
  | nil => simp [sumWhere]
  | append_singleton adds a ih =>
    have ha : a.1 ≤ top := h a (by simp)
    simp only [sumWhere_concat, Finset.sum_add_distrib]
    rw [ih fun b hb => h b (by simp [hb])]
    congr 1
    by_cases hw : top - n < a.1
    · -- exactly one bucket is the one of `a`'s tick
      rw [if_pos ((hp _ ha).2 hw), Finset.sum_eq_single (⟨(top - a.1).toNat, by omega⟩ : Fin n)]
      · rw [if_pos (by simp; omega)]
      · intro d _ hd
        refine if_neg fun he => hd (Fin.ext ?_)
        show (d : ℕ) = (top - a.1).toNat
        omega
      · intro hmem
        exact absurd (Finset.mem_univ _) hmem
    · rw [if_neg (mt (hp _ ha).1 hw)]
      refine Finset.sum_eq_zero fun d _ => if_neg ?_
      have := d.isLt
      omega

theorem toNat_foldl_add (l : List UInt64) (u : UInt64) :
    (l.foldl (· + ·) u).toNat = (u.toNat + (l.map UInt64.toNat).sum) % 2 ^ 64 := by
  induction l generalizing u with
  | nil => simp
  | cons v l ih =>
    rw [List.foldl_cons, ih, UInt64.toNat_add, List.map_cons, List.sum_cons, Nat.mod_add_mod, Nat.add_assoc]

/-- The buckets add up to what was added in the window, whichever bucket is at `head`. -/
theorem Covers.total [NeZero n] (h : Covers ring head top adds) {p : ℤ → Prop} [DecidablePred p]
    (hp : ∀ t ≤ top, p t ↔ top - n < t) :
    (ring.toList.foldl (· + ·) 0).toNat = sumWhere p adds % 2 ^ 64 := by
  have hring : (ring.toList.map UInt64.toNat).sum = ∑ i : Fin n, (ring[i]).toNat := by
    rw [Fin.sum_univ_def]
    congr 1
    refine List.ext_getElem (by simp) fun i h1 h2 => ?_
    simp
  have hslots : ∑ i : Fin n, (ring[i]).toNat = ∑ d : Fin n, (ring[head - d]).toNat :=
    (Equiv.sum_comp (Equiv.subLeft head) fun i : Fin n => (ring[i]).toNat).symm
  rw [toNat_foldl_add, hring, hslots, Finset.sum_congr rfl fun d _ => h.slot d, ← sum_slots h.le hp]
  simp [← Finset.sum_nat_mod]

end BucketRing
