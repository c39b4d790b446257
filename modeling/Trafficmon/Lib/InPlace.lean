import Mathlib.Data.List.Basic
import Mathlib.Tactic.Common

/-!
# Loops over an array in place

Filtering: Go's `out := l[:0]; for i, a := range l { if keep(a) { out = append(out, a) } }`: `out` grows in the
array that the loop reads from. The reads are never behind the writes, so the loop is a filter
(`filter_fst`). The test may have a state of its own, which it carries from element to element;
`turns` has the elements with the states they are tested in.

Reversing: the elements are swapped from both ends inwards (`reverse_eq`).
-/

namespace InPlace
variable {α σ : Type*} (keep : ℕ → σ → α → Bool × σ)

structure Loop (α σ : Type*) where
  array : List α
  /-- The length of `out`. -/
  kept : ℕ
  state : σ

def step (loop : Loop α σ) (i : ℕ) : Loop α σ :=
  match loop.array[i]? with
  | none => loop
  | some a =>
    if (keep i loop.state a).1 then ⟨loop.array.set loop.kept a, loop.kept + 1, (keep i loop.state a).2⟩
    else ⟨loop.array, loop.kept, (keep i loop.state a).2⟩

def filter (l : List α) (s : σ) : List α × σ :=
  let loop := (List.range l.length).foldl (step keep) ⟨l, 0, s⟩
  (loop.array.take loop.kept, loop.state)

/-- The elements from the `i`-th on, with their positions and the states they are tested in. -/
def turns : ℕ → σ → List α → List (ℕ × σ × α)
  | _, _, [] => []
  | i, s, a :: l => (i, s, a) :: turns (i + 1) (keep i s a).2 l

def kept (ts : List (ℕ × σ × α)) : List α :=
  (ts.filter fun t => (keep t.1 t.2.1 t.2.2).1).map (·.2.2)

theorem kept_cons (i : ℕ) (s : σ) (a : α) (ts : List (ℕ × σ × α)) :
    kept keep ((i, s, a) :: ts) = if (keep i s a).1 then a :: kept keep ts else kept keep ts := by
  unfold kept
  by_cases h : (keep i s a).1 <;> simp [h]

theorem map_turns (i : ℕ) (s : σ) (l : List α) : (turns keep i s l).map (·.2.2) = l := by
  induction l generalizing i s with
  | nil => rfl
  | cons a l ih => rw [turns, List.map_cons, ih]

/-- The loop from the `i`-th element on: `out` is what was kept, `dead` what stands between `out` and
the elements that are still to be read. -/
theorem take_foldl_step (out dead l : List α) (s : σ) :
    let loop := (List.range' (out ++ dead).length l.length).foldl (step keep) ⟨out ++ dead ++ l, out.length, s⟩
    loop.array.take loop.kept = out ++ kept keep (turns keep (out ++ dead).length s l) := by
  induction l generalizing out dead s with
  | nil => simp [turns, kept]
  | cons a l ih =>
    have hread : (out ++ dead ++ a :: l)[(out ++ dead).length]? = some a := by simp
    simp only [List.length_cons, List.range'_succ, List.foldl_cons]
    rw [step, hread]
    by_cases hk : (keep (out ++ dead).length s a).1
    · -- the write goes to the first dead place, or to the place just read
      have hset : (out ++ dead ++ a :: l).set out.length a = (out ++ [a]) ++ (dead ++ [a]).tail ++ l := by
        cases dead <;> simp
      have hlen : (out ++ dead).length + 1 = ((out ++ [a]) ++ (dead ++ [a]).tail).length := by
        cases dead <;> simp; omega
      have hout : out.length + 1 = (out ++ [a]).length := by simp
      simp only [hk, if_true]
      rw [hset, hlen, hout, ih, ← hlen, turns, kept_cons, if_pos hk, List.append_assoc, List.singleton_append]
    · have hlen : (out ++ dead).length + 1 = (out ++ (dead ++ [a])).length := by simp; omega
      have harray : out ++ dead ++ a :: l = out ++ (dead ++ [a]) ++ l := by simp
      simp only [hk]
      rw [harray, hlen]
      refine (ih out (dead ++ [a]) _).trans ?_
      rw [← hlen, turns, kept_cons, if_neg hk]

/-- The result holds the elements that pass their tests, in their order. -/
theorem filter_fst (l : List α) (s : σ) : (filter keep l s).1 = kept keep (turns keep 0 s l) := by
  have h := take_foldl_step keep [] [] l s
  simpa [filter, List.range_eq_range'] using h

/-! ### Reversing -/

/-- `l[i], l[j] = l[j], l[i]` -/
def swap (l : List α) (i j : ℕ) : List α :=
  match l[i]?, l[j]? with
  | some a, some b => (l.set i b).set j a
  | _, _ => l

/-- `for ; i < j; i, j = i+1, j-1 { l[i], l[j] = l[j], l[i] }` -/
def swapLoop (l : List α) (i j : ℕ) : List α :=
  if i < j then swapLoop (swap l i j) (i + 1) (j - 1) else l
termination_by j - i

def reverse (l : List α) : List α := swapLoop l 0 (l.length - 1)

section
variable {l : List α} {i j : ℕ}

theorem length_swap (l : List α) (i j : ℕ) : (swap l i j).length = l.length := by
  unfold swap
  split
  · rw [List.length_set, List.length_set]
  · rfl

theorem getElem?_swap (hi : i < l.length) (hj : j < l.length) (k : ℕ) :
    (swap l i j)[k]? = if k = j then l[i]? else if k = i then l[j]? else l[k]? := by
  rw [swap, List.getElem?_eq_getElem hi, List.getElem?_eq_getElem hj]
  dsimp only
  rw [List.getElem?_set, List.getElem?_set, List.length_set]
  split_ifs <;> grind

/-- What is between the two ends is turned round, the rest stays. -/
theorem getElem?_swapLoop (hj : j < l.length) (k : ℕ) :
    (swapLoop l i j)[k]? = if i ≤ k ∧ k ≤ j then l[i + j - k]? else l[k]? := by
  fun_induction swapLoop l i j with
  | case1 l i j hlt ih =>
    have hi : i < l.length := by omega
    rw [ih (by rw [length_swap]; omega)]
    by_cases hin : i + 1 ≤ k ∧ k ≤ j - 1
    · rw [if_pos hin, if_pos (by omega), getElem?_swap hi hj, if_neg (by omega), if_neg (by omega)]
      congr 1
      omega
    rw [if_neg hin, getElem?_swap hi hj]
    -- `k` is one of the two ends, or not between them
    by_cases hkj : k = j
    · rw [if_pos hkj, if_pos (by omega)]
      congr 1
      omega
    by_cases hki : k = i
    · rw [if_neg hkj, if_pos hki, if_pos (by omega)]
      congr 1
      omega
    · rw [if_neg hkj, if_neg hki, if_neg (by omega)]
  | case2 l i j hnlt =>
    split_ifs with hin
    · congr 1
      omega
    · rfl

theorem reverse_eq (l : List α) : reverse l = l.reverse := by
  refine List.ext_getElem? fun k => ?_
  rcases l.length.eq_zero_or_pos with hzero | hpos
  · obtain rfl := List.length_eq_zero_iff.1 hzero
    rw [reverse, swapLoop]
    rfl
  rw [reverse, getElem?_swapLoop (by omega)]
  by_cases hk : k < l.length
  · rw [if_pos (by omega), List.getElem?_reverse hk]
    congr 1
    omega
  · rw [if_neg (by omega), List.getElem?_eq_none (by omega), List.getElem?_eq_none (by rw [List.length_reverse]; omega)]

end

end InPlace
