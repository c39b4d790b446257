import Mathlib.Data.List.DropRight
import Mathlib.Data.List.Induction
import Mathlib.Tactic.Common

/-!
# Queues that drop the oldest

A queue of bounded capacity: `push` drops the first element when the queue is full, a drain takes
everything. The queue holds the last `cap` elements pushed since the last drain (`foldl_push`,
`run_eq`), and what it lost was followed by `cap` later pushes (`lost_of_rtake`). `Books` says where
elements are that come in in any order, and how one step moves them.
-/

namespace DropOldest
variable {α : Type*} {cap : ℕ} {l lost : List α}

def push (cap : ℕ) (l : List α) (a : α) : List α := (if cap ≤ l.length then l.tail else l) ++ [a]

theorem length_rtake (l : List α) (cap : ℕ) : (l.rtake cap).length = min l.length cap := by
  rw [List.rtake, List.length_drop]
  omega

theorem rtake_suffix (l : List α) (cap : ℕ) : l.rtake cap <:+ l := List.drop_suffix _ _

theorem rtake_of_length_le (h : l.length ≤ cap) : l.rtake cap = l := by
  rw [List.rtake, Nat.sub_eq_zero_of_le h, List.drop_zero]

theorem push_rtake (h : 0 < cap) (l : List α) (a : α) : push cap (l.rtake cap) a = (l ++ [a]).rtake cap := by
  rw [push, length_rtake, List.rtake, List.rtake, List.length_append, List.length_singleton]
  split_ifs with hfull
  · rw [List.tail_drop, List.drop_append_of_le_length (by omega)]
    congr 2
    omega
  · rw [List.drop_append_of_le_length (by omega)]
    congr 2
    omega

/-- What is in the queue after some pushes. -/
theorem foldl_push (h : 0 < cap) (hl : l.length ≤ cap) (as : List α) :
    as.foldl (push cap) l = (l ++ as).rtake cap := by
  induction as using List.reverseRecOn with
  | nil => rw [List.foldl_nil, List.append_nil, rtake_of_length_le hl]
  | append_singleton as a ih =>
    rw [List.foldl_append, List.foldl_cons, List.foldl_nil, ih, push_rtake h, List.append_assoc]

theorem getElem?_rtake (l : List α) (cap i : ℕ) : (l.rtake cap)[i]? = l[l.length - cap + i]? := by
  rw [List.rtake, List.getElem?_drop]

/-- Where no element occurs twice, one is still in the queue iff the drops have not come to it. -/
theorem mem_rtake_iff (hl : l.Nodup) {i : ℕ} {a : α} (h : l[i]? = some a) : a ∈ l.rtake cap ↔ l.length - cap ≤ i := by
  constructor
  · intro hmem
    obtain ⟨j, hj⟩ := List.mem_iff_getElem?.1 hmem
    rw [getElem?_rtake] at hj
    have hlt := (List.getElem?_eq_some_iff.1 h).1
    have hij := (List.getElem?_inj hlt hl).1 (h.trans hj.symm)
    omega
  · intro hle
    refine List.mem_iff_getElem?.2 ⟨i - (l.length - cap), ?_⟩
    rw [getElem?_rtake, show l.length - cap + (i - (l.length - cap)) = i by omega, h]

theorem lost_of_rtake (h : l = lost ++ l.rtake cap) {pre post : List α} {a : α} (ha : lost = pre ++ a :: post) :
    cap ≤ (post ++ l.rtake cap).length := by
  have hlen := congrArg List.length h
  rw [List.length_append, length_rtake, ha, List.length_append, List.length_cons] at hlen
  rw [List.length_append, length_rtake]
  omega

/-! ### Runs -/

inductive Call (α : Type*)
  | push (a : α)
  | drain

/-- The queue, and what the drains returned. -/
def call (cap : ℕ) (s : List α × List (List α)) : Call α → List α × List (List α)
  | .push a => (push cap s.1 a, s.2)
  | .drain => ([], s.2 ++ [s.1])

/-- What was pushed since the last drain, and between the drains before. -/
def Call.note (s : List α × List (List α)) : Call α → List α × List (List α)
  | push a => (s.1 ++ [a], s.2)
  | drain => ([], s.2 ++ [s.1])

def pushedSince (calls : List (Call α)) : List α := (calls.foldl Call.note ([], [])).1

def pushedBetween (calls : List (Call α)) : List (List α) := (calls.foldl Call.note ([], [])).2

def Call.pushed : Call α → Option α
  | push a => some a
  | drain => none

def pushes (calls : List (Call α)) : List α := calls.filterMap Call.pushed

section Concat
variable (calls : List (Call α)) (a : α)

@[simp] theorem pushedSince_push : pushedSince (calls ++ [.push a]) = pushedSince calls ++ [a] := by
  simp [pushedSince, Call.note]
@[simp] theorem pushedSince_drain : pushedSince (calls ++ [.drain]) = [] := by simp [pushedSince, Call.note]
@[simp] theorem pushedBetween_push : pushedBetween (calls ++ [.push a]) = pushedBetween calls := by
  simp [pushedBetween, Call.note]
@[simp] theorem pushedBetween_drain :
    pushedBetween (calls ++ [.drain]) = pushedBetween calls ++ [pushedSince calls] := by
  simp [pushedBetween, pushedSince, Call.note]

end Concat

theorem run_eq (h : 0 < cap) (calls : List (Call α)) :
    calls.foldl (call cap) ([], []) = ((pushedSince calls).rtake cap, (pushedBetween calls).map (·.rtake cap)) := by
  induction calls using List.reverseRecOn with
  | nil => simp [pushedSince, pushedBetween]
  | append_singleton calls c ih =>
    rw [List.foldl_append, List.foldl_cons, List.foldl_nil, ih]
    cases c with
    | push a => simp [call, push_rtake h]
    | drain => simp [call]

/-- Every push is in its place. -/
theorem pushes_eq (calls : List (Call α)) : pushes calls = (pushedBetween calls).flatten ++ pushedSince calls := by
  induction calls using List.reverseRecOn with
  | nil => rfl
  | append_singleton calls c ih =>
    rw [pushes, List.filterMap_append, ← pushes, ih]
    cases c with
    | push a => simp [Call.pushed]
    | drain => simp [Call.pushed]

theorem flatten_rtake_sublist (ls : List (List α)) (cap : ℕ) : (ls.map (·.rtake cap)).flatten.Sublist ls.flatten := by
  induction ls with
  | nil => exact .slnil
  | cons l ls ih => exact (rtake_suffix l cap).sublist.append ih

/-! ### The ledger -/

/-- What came in, what of it is still to be pushed, the queue, and what the drains returned. -/
structure Books (α : Type*) where
  came : List α
  pending : List α
  queue : List α
  drained : List (List α)

namespace Books
variable {b b' : Books α} {came pending pending' queue : List α} {drained : List (List α)}

/-- Elements come in, one is pushed, or the queue is drained. -/
inductive Step (cap : ℕ) : Books α → Books α → Prop
  | come {came pending pending' queue : List α} {drained : List (List α)} (as : List α)
    (hpending : pending'.Perm (pending ++ as)) :
    Step cap ⟨came, pending, queue, drained⟩ ⟨came ++ as, pending', queue, drained⟩
  | push {came pending pending' queue : List α} {drained : List (List α)} (a : α)
    (hpending : pending.Perm (a :: pending')) :
    Step cap ⟨came, pending, queue, drained⟩ ⟨came, pending', push cap queue a, drained⟩
  | drain {came pending queue : List α} {drained : List (List α)} :
    Step cap ⟨came, pending, queue, drained⟩ ⟨came, pending, [], drained ++ [queue]⟩

theorem Step.perm (h : pending.Perm pending') :
    Step cap ⟨came, pending, queue, drained⟩ ⟨came, pending', queue, drained⟩ := by
  have hcome : Step cap ⟨came, pending, queue, drained⟩ ⟨came ++ [], pending', queue, drained⟩ :=
    .come [] (by rw [List.append_nil]; exact h.symm)
  rwa [List.append_nil] at hcome

theorem Step.refl (b : Books α) : Step cap b b := .perm (.refl _)

/-- Of what came in, in some order, some is still to be pushed and some was pushed since the last drain, of which the
queue has the last `cap`; the rest was pushed before, and each drain returned the last `cap` of what there was then. -/
def Ledger (cap : ℕ) (b : Books α) : Prop :=
  ∃ (between : List (List α)) (since : List α), b.came.Perm (between.flatten ++ since ++ b.pending) ∧
    b.queue = since.rtake cap ∧ b.drained = between.map (·.rtake cap)

theorem Ledger.nil (cap : ℕ) : Ledger cap (⟨[], [], [], []⟩ : Books α) := ⟨[], [], .nil, by simp [List.rtake], rfl⟩

theorem Ledger.step (h : Ledger cap b) (hcap : 0 < cap) (hs : Step cap b b') : Ledger cap b' := by
  obtain ⟨between, since, hperm, hqueue, hdrained⟩ := h
  cases hs with
  | come as hpending =>
    refine ⟨between, since, (hperm.append_right as).trans ?_, hqueue, hdrained⟩
    rw [List.append_assoc (between.flatten ++ since)]
    exact hpending.symm.append_left _
  | push a hpending =>
    dsimp only at hperm hqueue
    refine ⟨between, since ++ [a], hperm.trans ?_, by rw [hqueue, push_rtake hcap], hdrained⟩
    rw [← List.append_assoc, List.append_assoc _ [a]]
    exact hpending.append_left _
  | drain =>
    dsimp only at hperm hqueue hdrained
    refine ⟨between ++ [since], [], ?_, by simp [List.rtake], by simp [hqueue, hdrained]⟩
    simpa using hperm

/-- Nothing is there that did not come in. -/
theorem Ledger.length_le (h : Ledger cap b) : b.drained.flatten.length + b.queue.length + b.pending.length ≤
    b.came.length := by
  obtain ⟨between, since, hperm, hqueue, hdrained⟩ := h
  have hflat := (flatten_rtake_sublist between cap).length_le
  have hlen := length_rtake since cap
  rw [hperm.length_eq, hqueue, hdrained, List.length_append, List.length_append]
  omega

/-! ### Nothing lost -/

/-- An element is pushed onto a full queue. -/
def Overwrites (cap : ℕ) (b b' : Books α) : Prop := b'.pending.length < b.pending.length ∧ cap ≤ b.queue.length

instance (cap : ℕ) (b b' : Books α) : Decidable (Overwrites cap b b') := inferInstanceAs (Decidable (_ ∧ _))

def Whole (b : Books α) : Prop := b.came.Perm (b.drained.flatten ++ b.queue ++ b.pending)

theorem Whole.step (h : b.Whole) (hs : Step cap b b') (hno : ¬ Overwrites cap b b') : b'.Whole := by
  unfold Whole at h ⊢
  cases hs with
  | come as hpending =>
    refine (h.append_right as).trans ?_
    rw [List.append_assoc]
    exact hpending.symm.append_left _
  | push a hpending =>
    have hroom : ¬ cap ≤ _ := fun hfull => hno ⟨by
      dsimp only
      rw [hpending.length_eq, List.length_cons]
      exact Nat.lt_succ_self _, hfull⟩
    dsimp only at h hroom ⊢
    rw [DropOldest.push, if_neg hroom]
    refine h.trans ?_
    rw [← List.append_assoc, List.append_assoc _ [a]]
    exact hpending.append_left _
  | drain =>
    dsimp only at h ⊢
    simpa using h

end Books

end DropOldest
