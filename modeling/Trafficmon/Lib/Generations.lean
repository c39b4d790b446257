import Trafficmon.Lib.GoMap

/-!
# Caches of two generations

New entries go into the current generation; once that is full, it becomes the previous one and an
empty one takes its place. An entry found in the previous generation only is put into the current
one again. `Generations.survives` is the guarantee this gives: an entry of the current generation
is still found after as many puts of other keys as one generation holds.
-/

structure Generations (κ α : Type*) where
  cur : GoMap κ α
  prev : GoMap κ α
  max : Nat

namespace Generations
variable {κ α : Type*} [DecidableEq κ] {g : Generations κ α} {k : κ} {v : α}

def put (g : Generations κ α) (k : κ) (v : α) : Generations κ α :=
  if g.max ≤ g.cur.keys.length then { g with prev := g.cur, cur := (∅ : GoMap κ α).insert k v }
  else { g with cur := g.cur.insert k v }

def find (g : Generations κ α) (k : κ) : Option α := (g.cur.lookup k).or (g.prev.lookup k)

def get (g : Generations κ α) (k : κ) : Generations κ α × Option α :=
  match g.cur.lookup k with
  | some v => (g, some v)
  | none =>
    match g.prev.lookup k with
    | some v => (g.put k v, some v)
    | none => (g, none)

@[simp] theorem put_max (g : Generations κ α) (k : κ) (v : α) : (g.put k v).max = g.max := by
  unfold put
  split <;> rfl

theorem length_insert_le (m : GoMap κ α) (k : κ) (v : α) : (m.insert k v).keys.length ≤ m.keys.length + 1 := by
  rw [AList.keys_insert, List.length_cons]
  exact Nat.succ_le_succ List.length_erase_le

/-- A put rotates the generations or not; either way `k` is in the current one. -/
theorem put_cases (g : Generations κ α) (k : κ) (v : α) :
    (g.put k v).cur.lookup k = some v ∧
      ((g.cur.keys.length < g.max ∧ (g.put k v).cur = g.cur.insert k v ∧ (g.put k v).prev = g.prev) ∨
        (g.max ≤ g.cur.keys.length ∧ (g.put k v).cur = (∅ : GoMap κ α).insert k v ∧ (g.put k v).prev = g.cur)) := by
  unfold put
  split
  · exact ⟨AList.lookup_insert _, .inr ⟨‹_›, rfl, rfl⟩⟩
  · exact ⟨AList.lookup_insert _, .inl ⟨Nat.lt_of_not_le ‹_›, rfl, rfl⟩⟩

/-- A get changes nothing, or puts what it found in the previous generation. -/
theorem get_cases (g : Generations κ α) (k : κ) :
    (g.get k).2 = g.find k ∧
      ((g.get k).1 = g ∧ (g.cur.lookup k = g.find k) ∨
        ∃ v, g.cur.lookup k = none ∧ g.find k = some v ∧ (g.get k).1 = g.put k v) := by
  unfold get find
  cases hc : g.cur.lookup k with
  | some v => exact ⟨rfl, .inl ⟨rfl, rfl⟩⟩
  | none =>
    cases hp : g.prev.lookup k with
    | some v => exact ⟨rfl, .inr ⟨v, rfl, rfl, rfl⟩⟩
    | none => exact ⟨rfl, .inl ⟨rfl, rfl⟩⟩

/-! ### The invariant -/

/-- Both generations are within bounds and agree. -/
structure Valid (g : Generations κ α) : Prop where
  pos : 1 ≤ g.max
  cur_le : g.cur.keys.length ≤ g.max
  prev_le : g.prev.keys.length ≤ g.max
  agree : ∀ k v w, g.cur.lookup k = some v → g.prev.lookup k = some w → v = w

theorem Valid.empty {max : Nat} (h : 1 ≤ max) : Valid (⟨∅, ∅, max⟩ : Generations κ α) :=
  ⟨h, Nat.zero_le _, Nat.zero_le _, nofun⟩

/-- Two values of one key are never put while the key is cached. -/
theorem Valid.put (h : Valid g) (hv : ∀ w, g.find k = some w → w = v) : Valid (g.put k v) := by
  have hcur : ∀ w, g.cur.lookup k = some w → w = v := fun w hw => hv w (by simp [find, hw])
  have hprev : ∀ w, g.prev.lookup k = some w → w = v := by
    intro w hw
    cases hc : g.cur.lookup k with
    | none => exact hv w (by simp [find, hc, hw])
    | some u => rw [← h.agree k u w hc hw, hcur u hc]
  obtain ⟨hk, ⟨hroom, hc, hp⟩ | ⟨hfull, hc, hp⟩⟩ := put_cases g k v
  · have hlen := length_insert_le g.cur k v
    refine ⟨by simpa using h.pos, by rw [hc, put_max]; omega, by rw [hp, put_max]; exact h.prev_le, ?_⟩
    intro j u w hu hw
    rw [hc, GoMap.lookup_insert_eq] at hu
    rw [hp] at hw
    split at hu
    · subst j
      rw [← Option.some.inj hu, hprev w hw]
    · exact h.agree j u w hu hw
  · refine ⟨by simpa using h.pos, ?_, by rw [hp, put_max]; exact h.cur_le, ?_⟩
    · rw [hc, put_max]
      exact h.pos
    · intro j u w hu hw
      rw [hc, GoMap.lookup_insert_eq] at hu
      rw [hp] at hw
      split at hu
      · subst j
        rw [← Option.some.inj hu, hcur w hw]
      · cases hu

theorem Valid.get (h : Valid g) (k : κ) : Valid (g.get k).1 := by
  obtain ⟨-, ⟨hg, -⟩ | ⟨v, -, hv, hg⟩⟩ := get_cases g k
  · rw [hg]
    exact h
  · rw [hg]
    refine h.put fun w hw => ?_
    rw [hv] at hw
    exact (Option.some.inj hw).symm

/-! ### What is found -/

theorem find_put_self (g : Generations κ α) (k : κ) (v : α) : (g.put k v).find k = some v := by
  simp [find, (put_cases g k v).1]

/-- A put of another key can lose `j`, but not change it. -/
theorem find_of_find_put {j : κ} {w : α} (hj : j ≠ k) (h : (g.put k v).find j = some w) : g.find j = some w := by
  unfold find at h ⊢
  obtain ⟨-, ⟨-, hc, hp⟩ | ⟨-, hc, hp⟩⟩ := put_cases g k v
  · rw [hc, hp, GoMap.lookup_insert_eq, if_neg hj] at h
    exact h
  · rw [hc, hp, GoMap.lookup_insert_eq, if_neg hj] at h
    have h : g.cur.lookup j = some w := h
    rw [h]
    rfl

theorem find_of_find_get {j : κ} {w : α} (h : (g.get k).1.find j = some w) : g.find j = some w := by
  obtain ⟨-, ⟨hg, -⟩ | ⟨v, -, hv, hg⟩⟩ := get_cases g k
  · rwa [hg] at h
  · rw [hg] at h
    by_cases hj : j = k
    · subst hj
      rw [find_put_self] at h
      rw [hv, h]
    · exact find_of_find_put hj h

/-! ### How long an entry stays -/

inductive Op (κ α : Type*)
  | get (k : κ)
  | put (k : κ) (v : α)

def Op.key : Op κ α → κ
  | .get k => k
  | .put k _ => k

def step (g : Generations κ α) : Op κ α → Generations κ α
  | .get k => (g.get k).1
  | .put k v => g.put k v

/-- A get that finds its key in the previous generation only puts it. -/
def Op.puts (g : Generations κ α) : Op κ α → Nat
  | .get k => if g.cur.lookup k = none ∧ g.prev.lookup k ≠ none then 1 else 0
  | .put _ _ => 1

/-- The puts of a run, those of gets included. -/
def countPuts (g : Generations κ α) : List (Op κ α) → Nat
  | [] => 0
  | op :: ops => op.puts g + (g.step op).countPuts ops

/-- `k` is in the current generation, or in the previous one and `n` more puts do not fill the current one. -/
def Near (g : Generations κ α) (k : κ) (v : α) (n : Nat) : Prop :=
  g.cur.lookup k = some v ∨
    (g.cur.lookup k = none ∧ g.prev.lookup k = some v ∧ g.cur.keys.length + n ≤ g.max)

theorem Near.find {n : Nat} (h : Near g k v n) : g.find k = some v := by
  rcases h with hc | ⟨hc, hp, -⟩
  · simp [Generations.find, hc]
  · simp [Generations.find, hc, hp]

theorem Near.put {n : Nat} {j : κ} {w : α} (h : Near g k v (n + 1)) (hn : n + 1 ≤ g.max) (hj : j ≠ k) :
    Near (g.put j w) k v n := by
  obtain ⟨-, ⟨hroom, hc, hp⟩ | ⟨hfull, hc, hp⟩⟩ := put_cases g j w
  · have hkeep : (g.put j w).cur.lookup k = g.cur.lookup k := by
      rw [hc, GoMap.lookup_insert_eq, if_neg hj.symm]
    rcases h with hcur | ⟨hcur, hprev, hlen⟩
    · exact .inl (hkeep.trans hcur)
    · have := length_insert_le g.cur j w
      refine .inr ⟨hkeep.trans hcur, by rw [hp, hprev], ?_⟩
      rw [hc, put_max]
      omega
  · -- the rotation: `k` is now in the previous generation, and the current one holds only `j`
    rcases h with hcur | ⟨-, -, hlen⟩
    · refine .inr ⟨?_, by rw [hp, hcur], ?_⟩
      · rw [hc, GoMap.lookup_insert_eq, if_neg hj.symm]
        rfl
      · rw [hc, put_max]
        show 1 + n ≤ g.max
        omega
    · omega

theorem Near.step {op : Op κ α} {n : Nat} (h : Near g k v (op.puts g + n)) (hn : op.puts g + n ≤ g.max)
    (hop : op.key ≠ k) : Near (g.step op) k v n := by
  cases op with
  | put j w =>
    rw [Op.puts, Nat.add_comm] at h hn
    exact h.put hn hop
  | get j =>
    obtain ⟨-, ⟨hg, hcur⟩ | ⟨w, hcur, hfind, hg⟩⟩ := get_cases g j
    · have hputs : Op.puts g (.get j : Op κ α) = 0 := by
        refine if_neg ?_
        rintro ⟨hnone, hprev⟩
        rw [hnone] at hcur
        exact hprev (by simpa [Generations.find, hnone] using hcur.symm)
      rw [hputs, Nat.zero_add] at h
      rw [Generations.step, hg]
      exact h
    · have hprev : g.prev.lookup j = some w := by simpa [Generations.find, hcur] using hfind
      have hputs : Op.puts g (.get j : Op κ α) = 1 := if_pos ⟨hcur, by simp [hprev]⟩
      rw [hputs, Nat.add_comm] at h hn
      rw [Generations.step, hg]
      exact h.put hn hop

@[simp] theorem step_max (g : Generations κ α) (op : Op κ α) : (g.step op).max = g.max := by
  cases op with
  | put j w => exact put_max g j w
  | get j =>
    obtain ⟨-, ⟨hg, -⟩ | ⟨w, -, -, hg⟩⟩ := get_cases g j
    · rw [step, hg]
    · rw [step, hg, put_max]

theorem Near.run {ops : List (Op κ α)} (h : Near g k v (g.countPuts ops)) (hops : ∀ op ∈ ops, op.key ≠ k)
    (hn : g.countPuts ops ≤ g.max) : Near (ops.foldl Generations.step g) k v 0 := by
  induction ops generalizing g with
  | nil => exact h
  | cons op ops ih =>
    rw [countPuts] at h hn
    refine ih (h.step hn (hops op (by simp))) (fun op' hop' => hops op' (by simp [hop'])) ?_
    rw [step_max]
    omega

theorem survives {ops : List (Op κ α)} (h : g.cur.lookup k = some v) (hops : ∀ op ∈ ops, op.key ≠ k)
    (hn : g.countPuts ops ≤ g.max) : (ops.foldl Generations.step g).find k = some v :=
  (Near.run (.inl h) hops hn).find

end Generations
