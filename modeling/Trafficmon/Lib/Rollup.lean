import Mathlib.Algebra.BigOperators.Group.List.Lemmas
import Mathlib.Algebra.GroupWithZero.Nat
import Trafficmon.Lib.GoMap

/-!
# Rolling a list up by key

`rollup` goes through a list once, with an index from key to row: the first element of a key makes
the row (`seed`), and every element is added to the row of its key (`acc`). `rollup_eq` says what that
gives: one row for each key, in the order in which the keys first appear, folded from the elements
with that key. `sum_sources` is for totals whose elements are themselves sums over common sources.
-/

namespace Rollup
variable {α β κ : Type*} [DecidableEq κ] (key : α → κ) (seed : α → κ → β) (acc : β → α → β)

structure State (β κ : Type*) where
  index : GoMap κ Nat := ∅
  rows : List β := []

/-- The row of `c`: the one in the index, or a new one. -/
def place (st : State β κ) (c : α) : Nat × State β κ :=
  match st.index.lookup (key c) with
  | some i => (i, st)
  | none => (st.rows.length, ⟨st.index.insert (key c) st.rows.length, st.rows ++ [seed c (key c)]⟩)

def step (st : State β κ) (c : α) : State β κ :=
  { (place key seed st c).2 with
    rows := (place key seed st c).2.rows.modify (place key seed st c).1 fun r => acc r c }

def rollup (l : List α) : List β := (l.foldl (step key seed acc) {}).rows

/-! ### What it computes -/

/-- The keys, in the order in which they first appear. -/
def keys (l : List α) : List κ := (l.map key).eraseDups

def members (l : List α) (k : κ) : List α := l.filter fun c => key c = k

def rowOf [Inhabited β] (l : List α) (k : κ) : β :=
  match members key l k with
  | [] => default
  | c :: cs => (c :: cs).foldl acc (seed c k)

variable {key : α → κ} {seed : α → κ → β} {acc : β → α → β} {l : List α} {k : κ} {c : α}

theorem mem_keys : k ∈ keys key l ↔ ∃ c ∈ l, key c = k := by
  rw [keys, List.mem_eraseDups, List.mem_map]

theorem keys_concat (l : List α) (c : α) :
    keys key (l ++ [c]) = if key c ∈ keys key l then keys key l else keys key l ++ [key c] := by
  have hmem : key c ∈ keys key l ↔ key c ∈ l.map key := List.mem_eraseDups
  rw [keys, List.map_append, List.eraseDups_append, List.map_singleton]
  by_cases h : key c ∈ l.map key
  · rw [if_pos (hmem.2 h), List.removeAll, List.filter_cons_of_neg (by simpa using h)]
    simp [keys]
  · rw [if_neg (mt hmem.1 h), List.removeAll, List.filter_cons_of_pos (by simpa using h)]
    simp [keys, List.eraseDups_cons]

theorem nodup_keys (l : List α) : (keys key l).Nodup := by
  induction l using List.reverseRecOn with
  | nil => exact List.nodup_nil
  | append_singleton l c ih =>
    rw [keys_concat]
    split
    · exact ih
    · rw [List.nodup_append]
      refine ⟨ih, List.nodup_singleton _, ?_⟩
      intro a ha b hb hab
      rw [List.mem_singleton.1 hb] at hab
      exact ‹key c ∉ keys key l› (hab ▸ ha)

theorem members_concat (l : List α) (c : α) (k : κ) :
    members key (l ++ [c]) k = if key c = k then members key l k ++ [c] else members key l k := by
  rw [members, List.filter_append]
  split
  · rw [List.filter_cons_of_pos (by simpa using ‹_›)]
    rfl
  · rw [List.filter_cons_of_neg (by simpa using ‹_›), List.filter_nil, List.append_nil]
    rfl

theorem members_eq_nil : members key l k = [] ↔ k ∉ keys key l := by
  rw [mem_keys, members, List.filter_eq_nil_iff]
  simp

section
variable [Inhabited β]

theorem rowOf_of_members {d : α} {ms : List α} (h : members key l k = d :: ms) :
    rowOf key seed acc l k = (d :: ms).foldl acc (seed d k) := by
  rw [rowOf, h]

theorem rowOf_concat_of_ne (h : key c ≠ k) : rowOf key seed acc (l ++ [c]) k = rowOf key seed acc l k := by
  rw [rowOf, members_concat, if_neg h]
  rfl

theorem rowOf_concat_of_mem (h : key c ∈ keys key l) :
    rowOf key seed acc (l ++ [c]) (key c) = acc (rowOf key seed acc l (key c)) c := by
  cases hm : members key l (key c) with
  | nil => exact absurd h (members_eq_nil.1 hm)
  | cons d ms =>
    have hm' : members key (l ++ [c]) (key c) = d :: (ms ++ [c]) := by
      rw [members_concat, if_pos rfl, hm]
      rfl
    rw [rowOf_of_members hm, rowOf_of_members hm', List.foldl_cons, List.foldl_append]
    rfl

theorem rowOf_concat_of_not_mem (h : key c ∉ keys key l) :
    rowOf key seed acc (l ++ [c]) (key c) = acc (seed c (key c)) c := by
  have hm : members key (l ++ [c]) (key c) = [c] := by
    rw [members_concat, if_pos rfl, members_eq_nil.2 h]
    rfl
  rw [rowOf_of_members hm]
  rfl

end

theorem modify_concat (l : List β) (r : β) (g : β → β) : (l ++ [r]).modify l.length g = l ++ [g r] := by
  induction l with
  | nil => rfl
  | cons b l ih => exact congrArg (b :: ·) ih

omit [DecidableEq κ] in
theorem modify_map_of_nodup {ks : List κ} (hnd : ks.Nodup) {i : Nat} (hi : ks[i]? = some k) {f f' : κ → β} {g : β → β}
    (hk : f' k = g (f k)) (hne : ∀ j, j ≠ k → f' j = f j) : (ks.map f).modify i g = ks.map f' := by
  refine List.ext_getElem? fun j => ?_
  rw [List.getElem?_modify, List.getElem?_map, List.getElem?_map]
  by_cases hj : i = j
  · subst hj
    simp [hi, hk]
  · cases hkj : ks[j]? with
    | none => simp
    | some k' =>
      have hk' : k' ≠ k := by
        rintro rfl
        obtain ⟨hi', -⟩ := List.getElem?_eq_some_iff.1 hi
        exact hj ((List.getElem?_inj hi' hnd).1 (hi.trans hkj.symm))
      simp [hj, hne k' hk']

theorem run_eq [Inhabited β] (l : List α) :
    (l.foldl (step key seed acc) {}).rows = (keys key l).map (rowOf key seed acc l) ∧
      ∀ k i, (l.foldl (step key seed acc) {}).index.lookup k = some i ↔ (keys key l)[i]? = some k := by
  induction l using List.reverseRecOn with
  | nil => exact ⟨rfl, fun k i => by simp [keys]⟩
  | append_singleton l c ih =>
    obtain ⟨hrows, hindex⟩ := ih
    rw [List.foldl_append, List.foldl_cons, List.foldl_nil, keys_concat]
    generalize l.foldl (step key seed acc) {} = st at *
    by_cases hmem : key c ∈ keys key l
    · -- the row is there: it is at the place of its key
      obtain ⟨i, hi⟩ := List.mem_iff_getElem?.1 hmem
      have hplace : place key seed st c = (i, st) := by rw [place, (hindex _ _).2 hi]
      rw [if_pos hmem, step, hplace]
      refine ⟨?_, hindex⟩
      rw [hrows]
      exact modify_map_of_nodup (nodup_keys l) hi (rowOf_concat_of_mem hmem) fun j hj => rowOf_concat_of_ne hj.symm
    · have hnone : st.index.lookup (key c) = none := by
        cases hl : st.index.lookup (key c) with
        | none => rfl
        | some i => exact absurd (List.mem_of_getElem? ((hindex _ _).1 hl)) hmem
      have hlen : st.rows.length = (keys key l).length := by rw [hrows, List.length_map]
      rw [if_neg hmem, step, place, hnone]
      refine ⟨?_, fun k i => ?_⟩
      · dsimp only
        rw [List.map_append, List.map_singleton, rowOf_concat_of_not_mem hmem, hrows]
        have hold : (keys key l).map (rowOf key seed acc (l ++ [c])) = (keys key l).map (rowOf key seed acc l) := by
          refine List.map_congr_left fun k hk => rowOf_concat_of_ne ?_
          rintro rfl
          exact hmem hk
        rw [hold, modify_concat]
      · dsimp only
        rw [GoMap.lookup_insert_eq, hlen, List.getElem?_append]
        by_cases hk : k = key c
        · subst hk
          rw [if_pos rfl]
          split
          · refine ⟨fun he => ?_, fun hi => absurd (List.mem_of_getElem? hi) hmem⟩
            have := Option.some.inj he
            omega
          · rw [List.getElem?_singleton]
            split
            · exact ⟨fun _ => rfl, fun _ => congrArg some (by omega)⟩
            · refine ⟨fun he => ?_, nofun⟩
              have := Option.some.inj he
              omega
        · rw [if_neg hk, hindex]
          split
          · rfl
          · rw [List.getElem?_singleton, List.getElem?_eq_none (by omega)]
            split
            · simp [Ne.symm hk]
            · rfl

theorem rollup_eq [Inhabited β] (l : List α) : rollup key seed acc l = (keys key l).map (rowOf key seed acc l) :=
  (run_eq l).1

/-! ### Sums of sums

Where each element `a` of a row stands for the sum over the sources it is related to, a source counts
once for every element related to it. -/

section Sources
variable {σ : Type*} (R : α → σ → Bool) (f : σ → Nat)

theorem sum_filter (p : σ → Bool) (ss : List σ) :
    ((ss.filter p).map f).sum = (ss.map fun s => (if p s then 1 else 0) * f s).sum := by
  induction ss with
  | nil => rfl
  | cons s ss ih =>
    by_cases h : p s
    · rw [List.filter_cons_of_pos h, List.map_cons, List.sum_cons, ih, List.map_cons, List.sum_cons, if_pos h,
        Nat.one_mul]
    · rw [List.filter_cons_of_neg h, ih, List.map_cons, List.sum_cons, if_neg h, Nat.zero_mul, Nat.zero_add]

theorem sum_sources (l : List α) (ss : List σ) :
    (l.map fun a => ((ss.filter (R a)).map f).sum).sum = (ss.map fun s => l.countP (R · s) * f s).sum := by
  induction l with
  | nil => simp
  | cons a l ih =>
    have hcount : ∀ s, (a :: l).countP (R · s) * f s = (if R a s then 1 else 0) * f s + l.countP (R · s) * f s := by
      intro s
      rw [List.countP_cons, Nat.add_mul, Nat.add_comm]
    rw [List.map_cons, List.sum_cons, ih, sum_filter, ← List.sum_map_add]
    exact congrArg List.sum (List.map_congr_left fun s _ => (hcount s).symm)

/-- Each source behind some element counts once, and once more for every further element. -/
theorem sum_sources_surplus (l : List α) (ss : List σ) :
    (ss.map fun s => l.countP (R · s) * f s).sum =
      ((ss.filter fun s => l.any (R · s)).map f).sum + (ss.map fun s => (l.countP (R · s) - 1) * f s).sum := by
  rw [sum_filter, ← List.sum_map_add]
  refine congrArg List.sum (List.map_congr_left fun s _ => ?_)
  by_cases hany : l.any (R · s)
  · have hpos : 0 < l.countP (R · s) := List.countP_pos_iff.2 (List.any_eq_true.1 hany)
    rw [if_pos hany, ← Nat.add_mul, Nat.add_sub_cancel' hpos]
  · have hzero : ¬ 0 < l.countP (R · s) := fun hpos => hany (List.any_eq_true.2 (List.countP_pos_iff.1 hpos))
    rw [if_neg hany, Nat.eq_zero_of_not_pos hzero, Nat.zero_sub, Nat.zero_mul]

/-- Where no source is behind two elements, each source behind some element counts once. -/
theorem sum_sources_once {l : List α} {ss : List σ} (h : ∀ s ∈ ss, l.countP (R · s) ≤ 1) :
    (l.map fun a => ((ss.filter (R a)).map f).sum).sum = ((ss.filter fun s => l.any (R · s)).map f).sum := by
  have hnone : (ss.map fun s => (l.countP (R · s) - 1) * f s).sum = 0 :=
    List.sum_eq_zero fun n hn => by
      obtain ⟨s, hs, rfl⟩ := List.mem_map.1 hn
      rw [Nat.sub_eq_zero_of_le (h s hs), Nat.zero_mul]
  rw [sum_sources, sum_sources_surplus, hnone, Nat.add_zero]

end Sources

end Rollup
