import Mathlib.Data.List.Sort
import Mathlib.Data.Prod.Lex

/-!
# Sorting with a comparator

`Sorted less l l'` is all that `sort.Slice` promises of its result; `sort.SliceStable` also keeps ties
in their order, and `stableSort` is what it gives. A comparator that compares by a value of a linear
order (`Ranks less f`) leaves the result open exactly where two elements tie: `eq_of_sorted` and
`exists_sorted_ne`.
-/

namespace SortBy
variable {α β : Type*} [LinearOrder β] {less : α → α → Bool} {f : α → β} {l l₁ l₂ : List α} {a b : α}

/-- `l'` has the elements of `l`, none of them after one that it is less than. -/
def Sorted (less : α → α → Bool) (l l' : List α) : Prop := l'.Perm l ∧ l'.Pairwise fun a b => ¬ less b a

def stableSort (less : α → α → Bool) (l : List α) : List α := l.insertionSort fun a b => ¬ less b a

/-- `less` compares by `f`. -/
def Ranks (less : α → α → Bool) (f : α → β) : Prop := ∀ a b, less a b = true ↔ f a < f b

theorem Ranks.not_less (h : Ranks less f) : ¬ less b a ↔ f a ≤ f b := by rw [h b a, not_lt]

theorem stableSort_perm (l : List α) : (stableSort less l).Perm l := List.perm_insertionSort _ l

/-- Elements that are in order stay as they are, ties included. -/
theorem sublist_stableSort {c l : List α} (hc : c.Sublist l) (h : c.Pairwise fun a b => ¬ less b a) :
    c.Sublist (stableSort less l) :=
  List.sublist_insertionSort h hc

theorem Ranks.sorted_stableSort (h : Ranks less f) (l : List α) : Sorted less l (stableSort less l) := by
  have htotal : Std.Total fun a b : α => ¬ less b a = true := ⟨fun a b => by
    rw [h.not_less, h.not_less]
    exact le_total _ _⟩
  have htrans : IsTrans α fun a b => ¬ less b a = true := ⟨fun a b c => by
    rw [h.not_less, h.not_less, h.not_less]
    exact le_trans⟩
  exact ⟨stableSort_perm l, List.pairwise_insertionSort _ l⟩

theorem Ranks.eq_of_sorted (h : Ranks less f) (hinj : ∀ a ∈ l, ∀ b ∈ l, f a = f b → a = b) (h₁ : Sorted less l l₁)
    (h₂ : Sorted less l l₂) : l₁ = l₂ := by
  refine List.Perm.eq_of_pairwise (fun a b ha hb hab hba => ?_) h₁.2 h₂.2 (h₁.1.trans h₂.1.symm)
  rw [h.not_less] at hab hba
  exact hinj a (h₁.1.mem_iff.1 ha) b (h₂.1.mem_iff.1 hb) (le_antisymm hab hba)

/-- In a list without repetitions, of two elements one comes first. -/
theorem not_pair_sublist (hnodup : l.Nodup) (hab : [a, b].Sublist l) (hba : [b, a].Sublist l) : False := by
  induction l with
  | nil => cases hab
  | cons c l ih =>
    have hc := (List.nodup_cons.1 hnodup).1
    cases hab with
    | cons _ hab =>
      cases hba with
      | cons _ hba => exact ih (List.nodup_cons.1 hnodup).2 hab hba
      | cons_cons _ _ => exact hc (hab.subset (by simp))
    | cons_cons _ hab =>
      cases hba with
      | cons _ hba => exact hc (hba.subset (by simp))
      | cons_cons _ _ => exact hc (hab.subset (by simp))

/-- Two elements that tie can be left in either order. -/
theorem Ranks.exists_sorted_ne (h : Ranks less f) (hnodup : l.Nodup) (ha : a ∈ l) (hb : b ∈ l) (hne : a ≠ b)
    (htie : f a = f b) : ∃ l₁ l₂, Sorted less l l₁ ∧ Sorted less l l₂ ∧ l₁ ≠ l₂ := by
  classical
  have hperm : ∀ {a b : α}, a ∈ l → b ∈ l → a ≠ b → (a :: b :: (l.erase a).erase b).Perm l := by
    intro a b ha hb hne
    have hb' : b ∈ l.erase a := (List.mem_erase_of_ne hne.symm).2 hb
    exact ((List.perm_cons_erase hb').symm.cons a).trans (List.perm_cons_erase ha).symm
  have hsub : ∀ {a b : α}, f a = f b → ∀ l', [a, b].Sublist (stableSort less (a :: b :: l')) := by
    intro a b htie l'
    refine sublist_stableSort (((List.nil_sublist l').cons_cons b).cons_cons a) ?_
    exact List.pairwise_pair.2 (h.not_less.2 htie.le)
  have hsorted : ∀ {l' : List α}, l'.Perm l → Sorted less l (stableSort less l') := by
    intro l' hl'
    exact ⟨(stableSort_perm l').trans hl', (h.sorted_stableSort l').2⟩
  refine ⟨_, _, hsorted (hperm ha hb hne), hsorted (hperm hb ha hne.symm), fun heq => ?_⟩
  refine not_pair_sublist (((stableSort_perm _).trans (hperm ha hb hne)).nodup_iff.2 hnodup) (hsub htie _) ?_
  rw [heq]
  exact hsub htie.symm _

end SortBy
