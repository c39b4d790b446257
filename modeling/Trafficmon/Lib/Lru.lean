import Mathlib.Data.List.Dedup
import Mathlib.Data.List.Nodup
import Mathlib.Data.List.Perm.Subperm

/-!
# Least-recently-used lists

A cache of at most `cap` entries as a list, most recently used first, each entry under its key. Its
history is the list of events, newest first: a key was used (put, or found), or its entry was
dropped. `Keeps cap key l evs` relates the list to the history: entries stand in the order of their
last use, and a key that is no longer there was dropped since, or pushed out by `cap` other keys
used since.
-/

namespace Lru
variable {κ α : Type*} [DecidableEq κ]

inductive Event (κ : Type*)
  | used (k : κ)
  | dropped (k : κ)
deriving DecidableEq

variable (cap : Nat) (key : α → κ)

def drop (l : List α) (k : κ) : List α := l.filter fun b => key b ≠ k

/-- Puts an entry to the front, in place of the one with its key; past `cap` entries the last one goes. -/
def put (l : List α) (a : α) : List α :=
  if key a ∈ l.map key then a :: drop key l (key a)
  else if cap < l.length + 1 then (a :: l).dropLast
  else a :: l

/-- What happened since the last use of `k`. -/
def since (k : κ) (evs : List (Event κ)) : List (Event κ) := evs.takeWhile fun e => e ≠ .used k

/-- The keys used since the last use of `k`. -/
def usedSince (k : κ) (evs : List (Event κ)) : List κ :=
  (since k evs).filterMap fun
    | .used j => some j
    | .dropped _ => none

structure Keeps (l : List α) (evs : List (Event κ)) : Prop where
  nodup : (l.map key).Nodup
  length_le : l.length ≤ cap
  used : ∀ a ∈ l, Event.used (key a) ∈ evs
  recency : l.Pairwise fun a b => key a ∈ usedSince (key b) evs
  absent : ∀ k, k ∉ l.map key → Event.used k ∈ evs →
    Event.dropped k ∈ since k evs ∨ cap ≤ (usedSince k evs).dedup.length

variable {cap : Nat} {key : α → κ} {l : List α} {evs : List (Event κ)} {k : κ} {a : α}

/-! ### The history -/

theorem since_cons (e : Event κ) (he : e ≠ .used k) : since k (e :: evs) = e :: since k evs := by
  rw [since, List.takeWhile_cons_of_pos (by simpa using he)]
  rfl

theorem usedSince_used {j : κ} (hj : j ≠ k) : usedSince k (.used j :: evs) = j :: usedSince k evs := by
  rw [usedSince, since_cons _ (by simpa using hj)]
  rfl

theorem usedSince_dropped (j : κ) : usedSince k (.dropped j :: evs) = usedSince k evs := by
  rw [usedSince, since_cons _ (by simp)]
  rfl

/-- As long as `k` is not used, what happened since its last use only grows. -/
theorem absent_cons {e : Event κ} (he : e ≠ .used k)
    (h : Event.dropped k ∈ since k evs ∨ cap ≤ (usedSince k evs).dedup.length) :
    Event.dropped k ∈ since k (e :: evs) ∨ cap ≤ (usedSince k (e :: evs)).dedup.length := by
  rcases h with h | h
  · left
    rw [since_cons e he]
    exact List.mem_cons_of_mem _ h
  · right
    cases e with
    | used j =>
      rw [usedSince_used (by simpa using he)]
      refine Nat.le_trans h ?_
      rw [List.dedup_cons]
      split
      · exact Nat.le_refl _
      · exact Nat.le_succ _
    | dropped j => rwa [usedSince_dropped]

/-! ### The operations -/

theorem mem_drop {b : α} : b ∈ drop key l k ↔ b ∈ l ∧ key b ≠ k := by
  simp [drop]

theorem key_mem_drop {j : κ} : j ∈ (drop key l k).map key ↔ j ∈ l.map key ∧ j ≠ k := by
  simp only [List.mem_map, mem_drop]
  constructor
  · rintro ⟨b, ⟨hb, hne⟩, rfl⟩
    exact ⟨⟨b, hb, rfl⟩, hne⟩
  · rintro ⟨⟨b, hb, rfl⟩, hne⟩
    exact ⟨b, ⟨hb, hne⟩, rfl⟩

theorem Keeps.nil : Keeps cap key ([] : List α) [] := by
  refine ⟨List.nodup_nil, Nat.zero_le _, ?_, List.Pairwise.nil, ?_⟩ <;> simp

theorem Keeps.drop (h : Keeps cap key l evs) (k : κ) : Keeps cap key (drop key l k) (.dropped k :: evs) where
  nodup := h.nodup.sublist (List.filter_sublist.map key)
  length_le := Nat.le_trans (List.length_filter_le _ _) h.length_le
  used a ha := List.mem_cons_of_mem _ (h.used a (mem_drop.1 ha).1)
  recency := by
    refine (h.recency.sublist List.filter_sublist).imp ?_
    intro a b hab
    rwa [usedSince_dropped]
  absent j hj hused := by
    have hused : Event.used j ∈ evs := by simpa using hused
    by_cases hjk : j = k
    · subst hjk
      left
      rw [since_cons _ (by simp)]
      exact List.mem_cons_self
    · exact absent_cons (by simp) (h.absent j (fun hm => hj (key_mem_drop.2 ⟨hm, hjk⟩)) hused)

/-- An entry goes to the front of what stays, and `k` is the key used. -/
theorem Keeps.front (h : Keeps cap key l evs) {rest : List α} (hrest : rest.Sublist l) (hfresh : key a ∉ rest.map key)
    (hlen : rest.length + 1 ≤ cap)
    (hout : ∀ k ∈ l.map key, k ≠ key a → k ∉ rest.map key → cap ≤ (usedSince k (.used (key a) :: evs)).dedup.length) :
    Keeps cap key (a :: rest) (.used (key a) :: evs) where
  nodup := by
    rw [List.map_cons, List.nodup_cons]
    exact ⟨hfresh, h.nodup.sublist (hrest.map key)⟩
  length_le := hlen
  used b hb := by
    rcases List.mem_cons.1 hb with rfl | hb
    · exact List.mem_cons_self
    · exact List.mem_cons_of_mem _ (h.used b (hrest.subset hb))
  recency := by
    have hne : ∀ b ∈ rest, key a ≠ key b := by
      intro b hb he
      exact hfresh (he ▸ List.mem_map_of_mem hb)
    rw [List.pairwise_cons]
    refine ⟨fun b hb => ?_, ?_⟩
    · rw [usedSince_used (hne b hb)]
      exact List.mem_cons_self
    · refine (h.recency.sublist hrest).imp_of_mem ?_
      intro b c _ hc hbc
      rw [usedSince_used (hne c hc)]
      exact List.mem_cons_of_mem _ hbc
  absent k hk hused := by
    rw [List.map_cons, List.mem_cons, not_or] at hk
    have hused : Event.used k ∈ evs := by
      rcases List.mem_cons.1 hused with hu | hu
      · exact absurd (Event.used.inj hu) hk.1
      · exact hu
    by_cases hl : k ∈ l.map key
    · exact .inr (hout k hl hk.1 hk.2)
    · refine absent_cons ?_ (h.absent k hl hused)
      intro he
      exact hk.1 (Event.used.inj he).symm

/-- The last entry's last use is the oldest. -/
theorem Keeps.last_oldest (h : Keeps cap key l evs) {b c : α} {init : List α} (hl : l = init ++ [b]) (hc : c ∈ init) :
    key c ∈ usedSince (key b) evs := by
  subst hl
  exact (List.pairwise_append.1 h.recency).2.2 c hc b (List.mem_singleton.2 rfl)

theorem put_eq (cap : Nat) (key : α → κ) (l : List α) (a : α) :
    (key a ∈ l.map key ∧ put cap key l a = a :: Lru.drop key l (key a)) ∨
      (key a ∉ l.map key ∧ l.length + 1 ≤ cap ∧ put cap key l a = a :: l) ∨
      (key a ∉ l.map key ∧ cap < l.length + 1 ∧ put cap key l a = (a :: l).dropLast) := by
  unfold put
  split
  · exact .inl ⟨‹_›, rfl⟩
  · split
    · exact .inr (.inr ⟨‹_›, ‹_›, rfl⟩)
    · exact .inr (.inl ⟨‹_›, by omega, rfl⟩)

theorem eq_or_of_mem_put {b : α} (h : b ∈ put cap key l a) : b = a ∨ (b ∈ l ∧ key b ≠ key a) := by
  have hfresh : key a ∉ l.map key → b ∈ a :: l → b = a ∨ (b ∈ l ∧ key b ≠ key a) := by
    intro hnew hb
    rcases List.mem_cons.1 hb with hb | hb
    · exact .inl hb
    · exact .inr ⟨hb, fun he => hnew (he ▸ List.mem_map_of_mem hb)⟩
  rcases put_eq cap key l a with ⟨-, heq⟩ | ⟨hnew, -, heq⟩ | ⟨hnew, -, heq⟩
  · rw [heq] at h
    exact (List.mem_cons.1 h).imp id mem_drop.1
  · rw [heq] at h
    exact hfresh hnew h
  · rw [heq] at h
    exact hfresh hnew ((List.dropLast_sublist _).subset h)

theorem Keeps.put (h : Keeps cap key l evs) (hcap : 1 ≤ cap) (a : α) :
    Keeps cap key (put cap key l a) (.used (key a) :: evs) := by
  rcases put_eq cap key l a with ⟨hmem, heq⟩ | ⟨hnew, hlen, heq⟩ | ⟨hnew, hlen, heq⟩
  · rw [heq]
    refine h.front List.filter_sublist (fun hm => (key_mem_drop.1 hm).2 rfl) ?_ ?_
    · obtain ⟨b, hb, hkey⟩ := List.mem_map.1 hmem
      have hlt : (Lru.drop key l (key a)).length < l.length :=
        List.length_filter_lt_length_iff_exists.2 ⟨b, hb, by simp [hkey]⟩
      have := h.length_le
      omega
    · intro k hk hne hout
      exact absurd (key_mem_drop.2 ⟨hk, hne⟩) hout
  · rw [heq]
    exact h.front (List.Sublist.refl l) hnew hlen fun k hk _ hout => absurd hk hout
  · -- the list is full: its last entry goes
    have hfull : l.length = cap := by
      have := h.length_le
      omega
    obtain ⟨init, b, rfl⟩ : ∃ init b, l = init ++ [b] := by
      rcases List.eq_nil_or_concat l with rfl | ⟨init, b, rfl⟩
      · simp at hfull
        omega
      · exact ⟨init, b, List.concat_eq_append⟩
    have hlast : (a :: (init ++ [b])).dropLast = a :: init := by
      rw [← List.cons_append, List.dropLast_concat]
    rw [heq, hlast]
    have hinit : init.length + 1 = cap := by simpa using hfull
    refine h.front (List.sublist_append_left _ _) (fun hm => hnew (by simp [hm])) (by omega) ?_
    intro k hk hne hout
    obtain rfl : k = key b := by simpa [hout] using hk
    -- the keys of the entries that stay were all used since
    have hnd : (key a :: init.map key).Nodup := by
      rw [List.nodup_cons]
      refine ⟨fun hm => hnew (by simp [hm]), ?_⟩
      exact h.nodup.sublist ((List.sublist_append_left _ _).map key)
    have hsub : key a :: init.map key ⊆ (usedSince (key b) (.used (key a) :: evs)).dedup := by
      intro j hj
      rw [List.mem_dedup, usedSince_used (Ne.symm hne)]
      rcases List.mem_cons.1 hj with rfl | hj
      · exact List.mem_cons_self
      · obtain ⟨c, hc, rfl⟩ := List.mem_map.1 hj
        exact List.mem_cons_of_mem _ (h.last_oldest rfl hc)
    have hle := (List.Nodup.subperm hnd hsub).length_le
    simpa [hinit] using hle

/-- What a put pushes out is the entry whose last use is the oldest. -/
theorem Keeps.evicts_oldest (h : Keeps cap key l evs) {b c : α} (hb : b ∈ l)
    (hout : key b ∉ (Lru.put cap key l a).map key) (hc : c ∈ l) (hne : key c ≠ key b) : key c ∈ usedSince (key b) evs := by
  rcases put_eq cap key l a with ⟨hmem, heq⟩ | ⟨hnew, hlen, heq⟩ | ⟨hnew, hlen, heq⟩
  · rw [heq, List.map_cons, List.mem_cons, key_mem_drop] at hout
    by_cases hba : key b = key a
    · exact absurd (.inl hba) hout
    · exact absurd (.inr ⟨List.mem_map_of_mem hb, hba⟩) hout
  · rw [heq] at hout
    exact absurd (List.mem_cons_of_mem _ (List.mem_map_of_mem hb)) hout
  · rcases List.eq_nil_or_concat l with rfl | ⟨init, d, rfl⟩
    · cases hb
    · rw [List.concat_eq_append] at *
      rw [heq, ← List.cons_append, List.dropLast_concat, List.map_cons, List.mem_cons, not_or] at hout
      have hbd : b = d := by
        rcases List.mem_append.1 hb with hb | hb
        · exact absurd (List.mem_map_of_mem hb) hout.2
        · exact List.mem_singleton.1 hb
      subst hbd
      rcases List.mem_append.1 hc with hc | hc
      · exact h.last_oldest rfl hc
      · exact absurd (congrArg key (List.mem_singleton.1 hc)) hne

end Lru
