import Mathlib.Data.Multiset.AddSub

/-!
# What a program opens and closes

A trace of openings and closings is replayed on the resources that are open and those that have ever
been: a resource is opened once, and closed while it is open. `replay` fails on any other trace, so that
what it returns says at once that nothing was closed twice or unopened, and what is still open.
-/

namespace Ledger

inductive Op (ρ : Type*)
  | opened (r : ρ)
  | closed (r : ρ)
deriving DecidableEq, Repr

variable {ρ : Type*} [DecidableEq ρ]

/-- The resources open now, and all that have been. -/
abbrev Books (ρ : Type*) := Multiset ρ × Multiset ρ

def Op.replay (b : Books ρ) : Op ρ → Option (Books ρ)
  | .opened r => if r ∈ b.2 then none else some (r ::ₘ b.1, r ::ₘ b.2)
  | .closed r => if r ∈ b.1 then some (b.1.erase r, b.2) else none

def replay (trace : List (Op ρ)) : Option (Books ρ) := trace.foldlM Op.replay (0, 0)

variable {trace : List (Op ρ)} {live seen : Multiset ρ} {r : ρ}

theorem replay_opened (h : replay trace = some (live, seen)) (hr : r ∉ seen) :
    replay (trace ++ [.opened r]) = some (r ::ₘ live, r ::ₘ seen) := by
  rw [replay] at h ⊢
  rw [List.foldlM_append, h]
  simp [Op.replay, hr]

/-- What is open can be closed, one after the other, in any order. -/
theorem replay_closeAll (rs : List ρ) (h : replay trace = some (live + rs, seen)) :
    replay (trace ++ rs.map .closed) = some (live, seen) := by
  induction rs generalizing trace with
  | nil => simpa using h
  | cons r rs ih =>
    have hstep : replay (trace ++ [.closed r]) = some (live + rs, seen) := by
      rw [replay] at h ⊢
      rw [List.foldlM_append, h]
      simp [Op.replay, ← Multiset.cons_coe, Multiset.add_cons]
    rw [List.map_cons, List.append_cons]
    exact ih hstep

end Ledger
