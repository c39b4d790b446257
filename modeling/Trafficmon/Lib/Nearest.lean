import Mathlib.Algebra.Order.Group.Abs
import Mathlib.Order.Interval.Set.Basic

/-!
# The nearest point of a set

`Nearest s p x`: among the points of `s`, only `x` is as near to `p`. The nearest point of an interval
is found by one clamp, and a point of the set is its own.
-/

namespace Trafficmon

variable {α : Type*} [AddCommGroup α] [LinearOrder α] {s : Set α} {a b p x y : α}

structure Nearest (s : Set α) (p x : α) : Prop where
  mem : x ∈ s
  lt : ∀ y ∈ s, y ≠ x → |x - p| < |y - p|

theorem Nearest.unique (hx : Nearest s p x) (hy : Nearest s p y) : x = y := by
  by_contra hne
  exact lt_asymm (hx.lt y hy.mem (Ne.symm hne)) (hy.lt x hx.mem hne)

variable [IsOrderedAddMonoid α]

theorem nearest_self (h : p ∈ s) : Nearest s p p := by
  refine ⟨h, fun y _ hne => ?_⟩
  rw [sub_self, abs_zero]
  exact abs_pos.2 (sub_ne_zero.2 hne)

theorem nearest_Icc (hab : a ≤ b) (p : α) : Nearest (Set.Icc a b) p (max a (min b p)) := by
  rcases lt_or_ge p a with hlow | ha
  · -- left of the interval every point is on the far side of `a`
    rw [min_eq_right (hlow.le.trans hab), max_eq_left hlow.le]
    refine ⟨⟨le_rfl, hab⟩, fun y hy hne => ?_⟩
    have hay : a < y := lt_of_le_of_ne hy.1 (Ne.symm hne)
    rw [abs_of_pos (sub_pos.2 hlow), abs_of_pos (sub_pos.2 (hlow.trans hay))]
    exact sub_lt_sub_right hay p
  rcases lt_or_ge b p with hhigh | hb
  · rw [min_eq_left hhigh.le, max_eq_right hab]
    refine ⟨⟨hab, le_rfl⟩, fun y hy hne => ?_⟩
    have hyb : y < b := lt_of_le_of_ne hy.2 hne
    rw [abs_of_neg (sub_neg.2 hhigh), abs_of_neg (sub_neg.2 (hyb.trans hhigh)), neg_sub, neg_sub]
    exact sub_lt_sub_left hyb p
  · rw [min_eq_right hb, max_eq_right ha]
    exact nearest_self ⟨ha, hb⟩

end Trafficmon
