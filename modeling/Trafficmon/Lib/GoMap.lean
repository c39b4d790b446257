import Mathlib.Data.List.AList
import Mathlib.Data.List.Induction

/-!
# Go maps

`GoMap κ α` is Mathlib's `AList`: a finite map with the order its entries currently have. Go leaves
the order of a `range` over a map open, and two ranges over one map need not agree, so a loop over
a map takes a `MapOrder`: any way of listing the entries. What a fold of inserts or deletes leaves
behind is stated through `lookup` only.
-/

abbrev GoMap (κ α : Type*) := AList fun _ : κ => α

namespace GoMap
variable {κ α β : Type*} [DecidableEq κ]

theorem eq_empty_of_lookup {m : GoMap κ α} (h : ∀ k, m.lookup k = none) : m = ∅ := by
  refine AList.ext ?_
  cases hm : m.entries with
  | nil => rfl
  | cons e es =>
    have he : e.1 ∈ m := by rw [AList.mem_keys]; simp [AList.keys, hm]
    exact absurd he (AList.lookup_eq_none.1 (h e.1))

theorem mem_entries_iff {m : GoMap κ α} {k : κ} {v : α} :
    (⟨k, v⟩ : Σ _ : κ, α) ∈ m.entries ↔ m.lookup k = some v :=
  AList.mem_lookup_iff.symm

theorem mem_iff_lookup {m : GoMap κ α} {k : κ} : k ∈ m ↔ ∃ v, m.lookup k = some v := by
  rw [← AList.lookup_isSome, Option.isSome_iff_exists]

theorem lookup_insert_eq (k k' : κ) (v : α) (m : GoMap κ α) :
    (m.insert k v).lookup k' = if k' = k then some v else m.lookup k' := by
  split
  · subst k'; exact AList.lookup_insert m
  · exact AList.lookup_insert_ne ‹_›

theorem lookup_erase_eq (k k' : κ) (m : GoMap κ α) :
    (m.erase k).lookup k' = if k' = k then none else m.lookup k' := by
  split
  · subst k'; exact AList.lookup_erase k m
  · exact AList.lookup_erase_ne ‹_›

/-! ### Value maps -/

def mapVal (f : κ → α → β) (m : GoMap κ α) : GoMap κ β :=
  ⟨m.entries.map fun e => ⟨e.1, f e.1 e.2⟩, List.NodupKeys.map₂ f m.entries m.nodupKeys⟩

@[simp] theorem lookup_mapVal (f : κ → α → β) (m : GoMap κ α) (k : κ) :
    (mapVal f m).lookup k = (m.lookup k).map (f k) :=
  List.dlookup_map₂ k

/-! ### Folds -/

/-- `for _, e := range l { m[e.1] = e.2 }`: later entries overwrite earlier ones. -/
def insertAll (m : GoMap κ α) (l : List (κ × α)) : GoMap κ α :=
  l.foldl (fun m e => m.insert e.1 e.2) m

def lastOf (l : List (κ × α)) (k : κ) : Option α :=
  (l.reverse.find? fun e => e.1 = k).map (·.2)

theorem lastOf_concat (l : List (κ × α)) (e : κ × α) (k : κ) :
    lastOf (l ++ [e]) k = if e.1 = k then some e.2 else lastOf l k := by
  simp only [lastOf, List.reverse_append, List.reverse_cons, List.reverse_nil, List.nil_append,
    List.singleton_append, List.find?_cons]
  by_cases h : e.1 = k <;> simp [h]

theorem lastOf_append (l l' : List (κ × α)) (k : κ) : lastOf (l ++ l') k = (lastOf l' k).or (lastOf l k) := by
  induction l' using List.reverseRecOn with
  | nil => rw [List.append_nil]; rfl
  | append_singleton l' e ih =>
    rw [← List.append_assoc, lastOf_concat, lastOf_concat, ih]
    split <;> rfl

theorem lastOf_filter (p : κ → Bool) (l : List (κ × α)) (k : κ) :
    lastOf (l.filter fun e => p e.1) k = if p k then lastOf l k else none := by
  induction l using List.reverseRecOn with
  | nil => simp [lastOf]
  | append_singleton l e ih =>
    rw [List.filter_append, lastOf_concat, List.filter_singleton, Bool.cond_eq_ite]
    by_cases hp : p e.1
    · rw [if_pos hp, lastOf_concat, ih]
      by_cases hk : e.1 = k
      · rw [if_pos hk, if_pos hk, if_pos (hk ▸ hp)]
      · rw [if_neg hk, if_neg hk]
    · rw [if_neg hp, List.append_nil, ih]
      by_cases hk : e.1 = k
      · rw [if_neg (hk ▸ hp), if_neg (hk ▸ hp)]
      · rw [if_neg hk]

theorem insertAll_concat (m : GoMap κ α) (l : List (κ × α)) (e : κ × α) :
    insertAll m (l ++ [e]) = (insertAll m l).insert e.1 e.2 := by
  simp [insertAll]

theorem lookup_insertAll (m : GoMap κ α) (l : List (κ × α)) (k : κ) :
    (insertAll m l).lookup k = (lastOf l k).or (m.lookup k) := by
  induction l using List.reverseRecOn with
  | nil => rfl
  | append_singleton l e ih =>
    rw [insertAll_concat, lookup_insert_eq, lastOf_concat, ih]
    by_cases h : e.1 = k
    · simp [h]
    · simp [h, Ne.symm h]

theorem mem_of_lastOf {l : List (κ × α)} {k : κ} {v : α} (h : lastOf l k = some v) : (k, v) ∈ l := by
  obtain ⟨e, he, rfl⟩ := Option.map_eq_some_iff.1 h
  have hk := List.find?_some he
  simp only [decide_eq_true_eq] at hk
  subst hk
  exact List.mem_reverse.1 (List.mem_of_find?_eq_some he)

theorem lastOf_eq_none {l : List (κ × α)} {k : κ} : lastOf l k = none ↔ ∀ e ∈ l, e.1 ≠ k := by
  simp [lastOf]

theorem exists_lastOf {l : List (κ × α)} {e : κ × α} (h : e ∈ l) : ∃ v, lastOf l e.1 = some v := by
  rcases hv : lastOf l e.1 with _ | v
  · exact absurd rfl (lastOf_eq_none.1 hv e h)
  · exact ⟨v, rfl⟩

/-- Where the entries of `k` are all alike, the last is the one they are. -/
theorem lastOf_eq {l : List (κ × α)} {k : κ} {o : Option α} (h : ∀ v, (k, v) ∈ l ↔ o = some v) :
    lastOf l k = o := by
  cases hl : lastOf l k with
  | some v => exact ((h v).1 (mem_of_lastOf hl)).symm
  | none =>
    cases o with
    | none => rfl
    | some v => exact absurd rfl (lastOf_eq_none.1 hl _ ((h v).2 rfl))

/-- The order of the list matters only where two entries of `k` differ. -/
theorem lastOf_perm {l l' : List (κ × α)} {k : κ} (hp : l.Perm l')
    (h : ∀ v v', (k, v) ∈ l → (k, v') ∈ l → v = v') : lastOf l k = lastOf l' k := by
  refine lastOf_eq fun v => ⟨fun hv => ?_, fun hv => hp.mem_iff.2 (mem_of_lastOf hv)⟩
  obtain ⟨v', hv'⟩ := exists_lastOf (hp.mem_iff.1 hv)
  rw [hv', h v v' hv (hp.mem_iff.2 (mem_of_lastOf hv'))]

theorem lastOf_map {γ : Type*} (f : γ → κ) (g : γ → α) (l : List γ) (k : κ) :
    lastOf (l.map fun x => (f x, g x)) k = (lastOf (l.map fun x => (f x, x)) k).map g := by
  induction l using List.reverseRecOn with
  | nil => rfl
  | append_singleton l x ih =>
    simp only [List.map_append, List.map_cons, List.map_nil, lastOf_concat, ih]
    split <;> rfl

end GoMap

/-- An order in which a `range` over a map may run. -/
structure MapOrder (κ α : Type*) where
  list : GoMap κ α → List (Σ _ : κ, α)
  perm : ∀ m, (list m).Perm m.entries

namespace MapOrder
variable {κ α : Type*} [DecidableEq κ]

def held : MapOrder κ α := ⟨fun m => m.entries, fun _ => .refl _⟩

def reversed : MapOrder κ α := ⟨fun m => m.entries.reverse, fun m => m.entries.reverse_perm⟩

theorem mem_list {o : MapOrder κ α} {m : GoMap κ α} {k : κ} {v : α} :
    (⟨k, v⟩ : Σ _ : κ, α) ∈ o.list m ↔ m.lookup k = some v :=
  (o.perm m).mem_iff.trans GoMap.mem_entries_iff

theorem exists_last {m : GoMap κ α} {k : κ} {v : α} (h : m.lookup k = some v) :
    ∃ (o : MapOrder κ α) (l : List (Σ _ : κ, α)), o.list m = l ++ [⟨k, v⟩] := by
  classical
  obtain ⟨a, b, hab⟩ := List.append_of_mem (GoMap.mem_entries_iff.2 h)
  have hperm : (a ++ b ++ [(⟨k, v⟩ : Σ _ : κ, α)]).Perm m.entries := by
    rw [hab, List.append_assoc]
    exact List.Perm.append_left a List.perm_append_comm
  refine ⟨⟨fun m' => if m' = m then a ++ b ++ [⟨k, v⟩] else m'.entries, fun m' => ?_⟩, a ++ b, if_pos rfl⟩
  by_cases hm : m' = m
  · rw [if_pos hm, hm]
    exact hperm
  · rw [if_neg hm]

end MapOrder
