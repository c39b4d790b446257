import Mathlib.Data.List.Basic

/-!
# Bounded channels

A `Chan α capacity` is a Go channel of that capacity. `countingSend` is the `select` with a
`default` that counts what the channel had no room for. `Ledger` says where everything that was sent
is: exported, pending, in the channel, or counted. Each of the three moves (send, receive, export)
keeps it.
-/

structure Chan (α : Type*) (capacity : Nat) where
  items : List α := []
  length_le : items.length ≤ capacity := by exact Nat.zero_le _

namespace Chan
variable {α : Type*} {capacity : Nat} {a : α} {c c' : Chan α capacity}

def trySend (c : Chan α capacity) (a : α) : Option (Chan α capacity) :=
  if h : c.items.length < capacity then some ⟨c.items ++ [a], by simpa [Nat.succ_le_iff] using h⟩ else none

def recv (c : Chan α capacity) : Option (α × Chan α capacity) :=
  match c.items, c.length_le with
  | [], _ => none
  | a :: rest, h => some (a, ⟨rest, Nat.le_of_succ_le h⟩)

/-- `select { case c <- a: default: overflow.Add(1) }` -/
def countingSend (c : Chan α capacity) (overflow : UInt64) (a : α) : Chan α capacity × UInt64 :=
  match c.trySend a with
  | some c => (c, overflow)
  | none => (c, overflow + 1)

theorem items_of_trySend (h : c.trySend a = some c') : c'.items = c.items ++ [a] := by
  unfold trySend at h
  split at h
  · rw [← Option.some.inj h]
  · cases h

theorem items_of_recv (h : c.recv = some (a, c')) : c.items = a :: c'.items := by
  obtain ⟨items, hle⟩ := c
  cases items with
  | nil => cases h
  | cons b rest =>
    obtain ⟨rfl, rfl⟩ := Prod.mk.inj (Option.some.inj h)
    rfl

/-! ### The ledger -/

/-- Of what was sent, what the channel took is exported, pending or still queued, in that order, and
the rest is counted (modulo `2 ^ 64`). -/
structure Ledger (sent accepted exported pending : List α) (c : Chan α capacity) (overflow : UInt64) : Prop where
  sublist : accepted.Sublist sent
  order : accepted = exported ++ pending ++ c.items
  counted : ∃ dropped, sent.length = accepted.length + dropped ∧ overflow = UInt64.ofNat dropped

/-- What the channel has taken after one more send. -/
def accept (c : Chan α capacity) (accepted : List α) (a : α) : List α :=
  if (c.trySend a).isSome then accepted ++ [a] else accepted

namespace Ledger
variable {sent accepted exported pending : List α} {overflow : UInt64}

theorem nil : Ledger [] [] [] [] ({} : Chan α capacity) 0 := ⟨.refl _, rfl, 0, rfl, rfl⟩

theorem countingSend (h : Ledger sent accepted exported pending c overflow) (a : α) :
    Ledger (sent ++ [a]) (c.accept accepted a) exported pending (c.countingSend overflow a).1
      (c.countingSend overflow a).2 := by
  obtain ⟨hsub, horder, dropped, hsent, hover⟩ := h
  unfold accept Chan.countingSend
  cases ht : c.trySend a with
  | some c' =>
    refine ⟨hsub.append (.refl _), ?_, dropped, ?_, hover⟩
    · simp [items_of_trySend ht, horder]
    · simp only [Option.isSome_some, if_true, List.length_append, List.length_singleton, hsent]
      omega
  | none =>
    refine ⟨hsub.trans (List.sublist_append_left _ _), horder, dropped + 1, ?_, ?_⟩
    · simp only [Option.isSome_none, Bool.false_eq_true, if_false, List.length_append, List.length_singleton, hsent]
      omega
    · dsimp only
      rw [hover, UInt64.ofNat_add]
      rfl

theorem recv (h : Ledger sent accepted exported pending c overflow) (hr : c.recv = some (a, c')) :
    Ledger sent accepted exported (pending ++ [a]) c' overflow :=
  ⟨h.sublist, by simp [h.order, items_of_recv hr], h.counted⟩

theorem flush (h : Ledger sent accepted exported pending c overflow) :
    Ledger sent accepted (exported ++ pending) [] c overflow :=
  ⟨h.sublist, by simp [h.order], h.counted⟩

end Ledger
end Chan
