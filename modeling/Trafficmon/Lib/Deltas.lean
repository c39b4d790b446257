import Mathlib.Algebra.GroupWithZero.Nat
import Trafficmon.Lib.Limiter

/-!
# Totals by increments

A list of readings `(key, total)`, in the order they were taken. Adding to a sum only what a reading
is above the last one of its key gives the sum of the last readings, each key once
(`sumLast_concat`).
-/

namespace Deltas
open Distinct
variable {κ : Type*} [DecidableEq κ] {l l' : List (κ × Nat)} {k : κ} {v : Nat}

def last (l : List (κ × Nat)) (k : κ) : Nat := (GoMap.lastOf l k).getD 0

/-- The last reading of every key, summed up. -/
def sumLast (l : List (κ × Nat)) : Nat := ((firsts (l.map Prod.fst)).map (last l)).sum

theorem last_concat (l : List (κ × Nat)) (k j : κ) (v : Nat) :
    last (l ++ [(k, v)]) j = if k = j then v else last l j := by
  simp only [last, GoMap.lastOf_concat]
  split <;> rfl

theorem last_of_notMem (h : k ∉ l.map Prod.fst) : last l k = 0 := by
  have hnone : GoMap.lastOf l k = none := GoMap.lastOf_eq_none.2 fun e he hk => h (List.mem_map.2 ⟨e, he, hk⟩)
  rw [last, hnone]
  rfl

theorem last_append_of_notMem (h : k ∉ l'.map Prod.fst) : last (l ++ l') k = last l k := by
  have hnone : GoMap.lastOf l' k = none := GoMap.lastOf_eq_none.2 fun e he hk => h (List.mem_map.2 ⟨e, he, hk⟩)
  rw [last, GoMap.lastOf_append, hnone]
  rfl

omit [DecidableEq κ] in
theorem sum_map_update {f g : κ → Nat} {ks : List κ} (hnodup : ks.Nodup) (hk : k ∈ ks)
    (hsame : ∀ j, k ≠ j → g j = f j) (hle : f k ≤ g k) : (ks.map g).sum = (ks.map f).sum + (g k - f k) := by
  induction ks with
  | nil => cases hk
  | cons j ks ih =>
    obtain ⟨hj, hnodup⟩ := List.nodup_cons.1 hnodup
    simp only [List.map_cons, List.sum_cons]
    rcases List.mem_cons.1 hk with rfl | hk
    · have hrest : ks.map g = ks.map f := List.map_congr_left fun i hi => hsame i fun e => hj (e ▸ hi)
      rw [hrest]
      omega
    · rw [hsame j fun e => hj (e ▸ hk), ih hnodup hk]
      omega

theorem sum_map_le_of_subset {f g : κ → Nat} {ks js : List κ} (hnodup : ks.Nodup) (hsub : ks ⊆ js)
    (hle : ∀ k ∈ ks, f k ≤ g k) : (ks.map f).sum ≤ (js.map g).sum := by
  induction ks generalizing js with
  | nil => exact Nat.zero_le _
  | cons k ks ih =>
    obtain ⟨hk, hnodup⟩ := List.nodup_cons.1 hnodup
    have hsub' : ks ⊆ js.erase k := fun j hj =>
      (List.mem_erase_of_ne fun e : j = k => hk (e ▸ hj)).2 (hsub (List.mem_cons_of_mem k hj))
    have hrest := ih hnodup hsub' fun j hj => hle j (List.mem_cons_of_mem k hj)
    have hperm := (List.perm_cons_erase (hsub List.mem_cons_self)).map g
    rw [hperm.sum_nat, List.map_cons, List.map_cons, List.sum_cons, List.sum_cons]
    have := hle k List.mem_cons_self
    omega

theorem sumLast_concat (hle : last l k ≤ v) : sumLast (l ++ [(k, v)]) = sumLast l + (v - last l k) := by
  have hk : last (l ++ [(k, v)]) k = v := by rw [last_concat, if_pos rfl]
  have hother : ∀ j, k ≠ j → last (l ++ [(k, v)]) j = last l j := fun j hj => by rw [last_concat, if_neg hj]
  rw [sumLast, List.map_append, List.map_singleton, firsts_concat]
  by_cases hmem : k ∈ l.map Prod.fst
  · rw [if_pos hmem, sum_map_update (nodup_firsts _) (mem_firsts.2 hmem) hother (by rwa [hk]), hk]
    rfl
  · have hsame : (firsts (l.map Prod.fst)).map (last (l ++ [(k, v)])) = (firsts (l.map Prod.fst)).map (last l) :=
      List.map_congr_left fun j hj => hother j fun e => hmem (e ▸ mem_firsts.1 hj)
    rw [if_neg hmem, List.map_append, List.sum_append, hsame, List.map_singleton, List.sum_singleton, hk,
      last_of_notMem hmem]
    rfl

theorem sumLast_le (hsub : l.map Prod.fst ⊆ l'.map Prod.fst) (hle : ∀ k ∈ l.map Prod.fst, last l k ≤ last l' k) :
    sumLast l ≤ sumLast l' :=
  sum_map_le_of_subset (nodup_firsts _) (fun _ hk => mem_firsts.2 (hsub (mem_firsts.1 hk)))
    fun k hk => hle k (mem_firsts.1 hk)

end Deltas
