import Mathlib.Algebra.BigOperators.Group.List.Lemmas
import Mathlib.Algebra.GroupWithZero.Nat
import Mathlib.Data.List.Dedup
import Trafficmon.Lib.GoMap

/-!
# Counters by key

`m[k]++` on a map of `uint64` counters. `Tallies m ks` says that `m` counts the keys of `ks`, modulo
`2 ^ 64`; `Tallies.bump` is one increment. When no count wraps, the counters sum up to the number of
keys counted (`Tallies.total`).
-/

namespace GoMap
variable {κ : Type*} [DecidableEq κ] {m : GoMap κ UInt64} {ks : List κ}

def bump (m : GoMap κ UInt64) (k : κ) : GoMap κ UInt64 := m.insert k ((m.lookup k).getD 0 + 1)

def total (m : GoMap κ UInt64) : Nat := (m.entries.map fun e => e.2.toNat).sum

def Tallies (m : GoMap κ UInt64) (ks : List κ) : Prop :=
  ∀ k, m.lookup k = if k ∈ ks then some (UInt64.ofNat (ks.count k)) else none

theorem Tallies.nil : Tallies (∅ : GoMap κ UInt64) [] := fun _ => rfl

theorem Tallies.getD (h : Tallies m ks) (k : κ) : (m.lookup k).getD 0 = UInt64.ofNat (ks.count k) := by
  rw [h k]
  split
  · rfl
  · rw [List.count_eq_zero_of_not_mem ‹_›]
    rfl

theorem Tallies.bump (h : Tallies m ks) (k : κ) : Tallies (m.bump k) (ks ++ [k]) := by
  intro j
  rw [GoMap.bump, lookup_insert_eq, h.getD, List.count_append]
  by_cases hj : j = k
  · subst hj
    simp
  · rw [if_neg hj, h j, List.count_singleton]
    simp [hj, Ne.symm hj]

theorem Tallies.bumpAll (h : Tallies m ks) (ks' : List κ) :
    Tallies (ks'.foldl GoMap.bump m) (ks ++ ks') := by
  induction ks' using List.reverseRecOn with
  | nil => rw [List.append_nil]; exact h
  | append_singleton ks' k ih =>
    rw [List.foldl_append, List.foldl_cons, List.foldl_nil, ← List.append_assoc]
    exact ih.bump k

theorem Tallies.mem_keys (h : Tallies m ks) {k : κ} : k ∈ m.keys ↔ k ∈ ks := by
  rw [← AList.mem_keys, mem_iff_lookup, h k]
  split
  · exact ⟨fun _ => ‹_›, fun _ => ⟨_, rfl⟩⟩
  · exact ⟨nofun, fun hk => absurd hk ‹_›⟩

theorem Tallies.total (h : Tallies m ks) (hfit : ∀ k, ks.count k < 2 ^ 64) : m.total = ks.length := by
  have hvals : m.entries.map (fun e => e.2.toNat) = m.keys.map fun k => ks.count k := by
    rw [AList.keys, List.keys, List.map_map]
    refine List.map_congr_left fun e he => ?_
    have hv := h.getD e.1
    rw [mem_entries_iff.1 he, Option.getD_some] at hv
    rw [hv, UInt64.toNat_ofNat_of_lt' (hfit e.1)]
    rfl
  have hkeys : m.keys.Perm ks.dedup :=
    (List.perm_ext_iff_of_nodup m.keys_nodup ks.nodup_dedup).2 fun k => by rw [h.mem_keys, List.mem_dedup]
  rw [GoMap.total, hvals, (hkeys.map _).sum_nat, List.sum_map_count_dedup_eq_length]

end GoMap
