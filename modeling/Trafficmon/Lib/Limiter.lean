import Mathlib.Data.List.Nodup
import Trafficmon.Lib.GoMap

/-!
# The first few distinct keys

`firsts` keeps the first of every key: it is what a loop that skips the keys it has seen runs through
(`eachNew_eq`). A `Limiter` lets in the first `max` distinct keys it is offered and no
others. Whether a key gets in does not depend on when it is asked about, only on everything offered
before it (`admits_append`), so a loop that asks at every element does what it would do with the
final answers (`Offered.forEach`).
-/

namespace Distinct
variable {κ β : Type*} [DecidableEq κ]

/-- The distinct elements, in the order they first occur. -/
def firsts (l : List κ) : List κ := l.eraseDups

@[simp] theorem firsts_nil : firsts ([] : List κ) = [] := rfl

theorem mem_firsts {l : List κ} {a : κ} : a ∈ firsts l ↔ a ∈ l := List.mem_eraseDups

theorem firsts_concat (l : List κ) (a : κ) :
    firsts (l ++ [a]) = if a ∈ l then firsts l else firsts l ++ [a] := by
  simp only [firsts, List.eraseDups_append]
  by_cases h : a ∈ l
  · simp [List.removeAll, h]
  · simp [List.removeAll, h, List.eraseDups_cons]

theorem nodup_firsts (l : List κ) : (firsts l).Nodup := by
  induction l using List.reverseRecOn with
  | nil => exact List.nodup_nil
  | append_singleton l a ih =>
    rw [firsts_concat]
    split
    · exact ih
    · refine List.nodup_append.2 ⟨ih, List.nodup_singleton a, ?_⟩
      rintro x hx y hy rfl
      rw [List.mem_singleton] at hy
      subst hy
      exact absurd (mem_firsts.1 hx) ‹_›

theorem firsts_map {ι : Type*} [DecidableEq ι] {f : ι → κ} (hf : Function.Injective f) (l : List ι) :
    firsts (l.map f) = (firsts l).map f := by
  induction l using List.reverseRecOn with
  | nil => rfl
  | append_singleton l a ih =>
    rw [List.map_append, List.map_singleton, firsts_concat, firsts_concat, ih]
    simp only [List.mem_map_of_injective hf]
    split
    · rfl
    · rw [List.map_append, List.map_singleton]

/-- `for _, k := range ks { if seen[k] { continue }; seen[k] = {}; out = append(out, f(k)) }` -/
def eachNew (f : κ → β) (ks : List κ) : List β :=
  (ks.foldl (fun (acc : GoMap κ Unit × List β) k =>
    if k ∈ acc.1 then acc else (acc.1.insert k (), acc.2 ++ [f k])) (∅, [])).2

theorem eachNew_eq (f : κ → β) (ks : List κ) : eachNew f ks = (firsts ks).map f := by
  suffices h : ∀ acc : GoMap κ Unit × List β, acc = ks.foldl (fun acc k =>
      if k ∈ acc.1 then acc else (acc.1.insert k (), acc.2 ++ [f k])) (∅, []) →
      (∀ k, k ∈ acc.1 ↔ k ∈ ks) ∧ acc.2 = (firsts ks).map f from (h _ rfl).2
  induction ks using List.reverseRecOn with
  | nil => rintro _ rfl; exact ⟨fun k => by simp, rfl⟩
  | append_singleton ks k ih =>
    rintro _ rfl
    obtain ⟨hseen, hout⟩ := ih _ rfl
    rw [List.foldl_append, List.foldl_cons, List.foldl_nil, firsts_concat]
    by_cases hk : k ∈ ks
    · rw [if_pos ((hseen k).2 hk), if_pos hk]
      refine ⟨fun j => (hseen j).trans ⟨fun h => by simp [h], fun h => ?_⟩, hout⟩
      rcases List.mem_append.1 h with h | h
      · exact h
      · rw [List.mem_singleton.1 h]; exact hk
    · rw [if_neg fun h => hk ((hseen k).1 h), if_neg hk]
      refine ⟨fun j => ?_, ?_⟩
      · rw [AList.mem_insert, hseen, List.mem_append, List.mem_singleton, or_comm]
      · rw [hout, List.map_append, List.map_singleton]

end Distinct

structure Limiter (κ : Type*) where
  max : Int
  seen : GoMap κ Unit := ∅

namespace Limiter
open Distinct
variable {κ : Type*} [DecidableEq κ] {l : Limiter κ} {max : Int} {ks post : List κ} {k : κ}

/-- Whether `k` is in, or still gets in. -/
def allow (l : Limiter κ) (k : κ) : Limiter κ × Bool :=
  if k ∈ l.seen then (l, true)
  else if l.max ≤ l.seen.entries.length then (l, false)
  else ({ l with seen := l.seen.insert k () }, true)

/-- The keys that get in when `ks` are offered in turn. -/
def admits (max : Int) (ks : List κ) : List κ := (firsts ks).take max.toNat

theorem length_admits (hmax : 0 < max) (ks : List κ) : ((admits max ks).length : Int) ≤ max := by
  have h := List.length_take_le max.toNat (firsts ks)
  simp only [admits]
  omega

theorem mem_of_admits (h : k ∈ admits max ks) : k ∈ ks :=
  mem_firsts.1 (List.mem_of_mem_take h)

theorem admits_map {ι : Type*} [DecidableEq ι] {f : ι → κ} (hf : Function.Injective f) (max : Int) (is : List ι) :
    admits max (is.map f) = (admits max is).map f := by
  rw [admits, firsts_map hf, admits, List.map_take]

theorem admits_concat : admits max (ks ++ [k]) =
    if k ∈ ks then admits max ks
    else if max ≤ (admits max ks).length then admits max ks else admits max ks ++ [k] := by
  by_cases hk : k ∈ ks
  · rw [if_pos hk, admits, admits, firsts_concat, if_pos hk]
  · rw [if_neg hk]
    have hlen : (admits max ks).length = min max.toNat (firsts ks).length := List.length_take
    by_cases hfull : max ≤ (admits max ks).length
    · rw [if_pos hfull, admits, admits, firsts_concat, if_neg hk, List.take_append_of_le_length (by omega)]
    · have hroom : (firsts ks ++ [k]).length ≤ max.toNat := by
        rw [List.length_append, List.length_singleton]
        omega
      rw [if_neg hfull, admits, admits, firsts_concat, if_neg hk, List.take_of_length_le hroom,
        List.take_of_length_le (by omega)]

/-- What is offered later does not change the answer for a key offered already. -/
theorem admits_append (hk : k ∈ ks) : k ∈ admits max (ks ++ post) ↔ k ∈ admits max ks := by
  induction post using List.reverseRecOn with
  | nil => rw [List.append_nil]
  | append_singleton post j ih =>
    rw [← List.append_assoc, admits_concat]
    split
    · exact ih
    · rename_i hj
      split
      · exact ih
      · rw [List.mem_append, List.mem_singleton, ih]
        refine or_iff_left fun h => hj ?_
        rw [← h]
        exact List.mem_append_left _ hk

/-- `l` is a limiter of `max` keys that was offered `ks`. -/
structure Offered (l : Limiter κ) (max : Int) (ks : List κ) : Prop where
  max_eq : l.max = max
  mem_seen : ∀ k, k ∈ l.seen ↔ k ∈ admits max ks
  length_seen : l.seen.entries.length = (admits max ks).length

theorem offered_nil (max : Int) : Offered ({ max := max } : Limiter κ) max [] where
  max_eq := rfl
  mem_seen := by simp [admits]
  length_seen := by simp [admits]

theorem Offered.allow (h : l.Offered max ks) (k : κ) :
    (l.allow k).1.Offered max (ks ++ [k]) ∧ (l.allow k).2 = decide (k ∈ admits max (ks ++ [k])) := by
  have hadm : admits max (ks ++ [k]) = _ := admits_concat
  rw [Limiter.allow, h.max_eq, h.length_seen]
  by_cases hseen : k ∈ l.seen
  · have hin := (h.mem_seen k).1 hseen
    rw [if_pos (mem_of_admits hin)] at hadm
    rw [if_pos hseen]
    exact ⟨⟨h.max_eq, by rw [hadm]; exact h.mem_seen, by rw [hadm]; exact h.length_seen⟩, by simp [hadm, hin]⟩
  · have hout : k ∉ admits max ks := fun hin => hseen ((h.mem_seen k).2 hin)
    rw [if_neg hseen]
    by_cases hfull : max ≤ (admits max ks).length
    · have hsame : admits max (ks ++ [k]) = admits max ks := by
        rw [hadm, if_pos hfull, ite_self]
      rw [if_pos hfull]
      exact ⟨⟨h.max_eq, by rw [hsame]; exact h.mem_seen, by rw [hsame]; exact h.length_seen⟩, by simp [hsame, hout]⟩
    · -- below the bound nothing was turned away, so `k` is new
      have hnew : k ∉ ks := by
        intro hk
        rw [admits, List.length_take] at hfull
        rw [admits, List.take_of_length_le (by omega), mem_firsts] at hout
        exact hout hk
      rw [if_neg hnew, if_neg hfull] at hadm
      rw [if_neg hfull]
      refine ⟨⟨rfl, fun j => ?_, ?_⟩, by simp [hadm]⟩
      · rw [hadm, AList.mem_insert, h.mem_seen, List.mem_append, List.mem_singleton, or_comm]
      · rw [hadm, AList.entries_insert_of_notMem hseen, List.length_cons, h.length_seen, List.length_append,
          List.length_singleton]

section Loop
variable {α σ : Type*}

/-- A loop that asks the limiter at every element. -/
def forEach (l : Limiter κ) (key : α → κ) (body : σ → α → Bool → σ) (s : σ) (xs : List α) : Limiter κ × σ :=
  xs.foldl (fun (acc : Limiter κ × σ) x =>
    ((acc.1.allow (key x)).1, body acc.2 x (acc.1.allow (key x)).2)) (l, s)

theorem Offered.forEach {pre : List κ} (h : l.Offered max pre) (key : α → κ) (body : σ → α → Bool → σ) (s : σ)
    (xs : List α) (post : List κ) :
    (l.forEach key body s xs).1.Offered max (pre ++ xs.map key) ∧
    (l.forEach key body s xs).2 =
      xs.foldl (fun s x => body s x (decide (key x ∈ admits max (pre ++ xs.map key ++ post)))) s := by
  suffices hall : ∀ all, (∀ ys zs, xs = ys ++ zs → ∀ k ∈ pre ++ ys.map key,
      (k ∈ admits max all ↔ k ∈ admits max (pre ++ ys.map key))) →
      (l.forEach key body s xs).1.Offered max (pre ++ xs.map key) ∧
      (l.forEach key body s xs).2 = xs.foldl (fun s x => body s x (decide (key x ∈ admits max all))) s by
    refine hall _ fun ys zs hxs k hk => ?_
    have happ : pre ++ xs.map key ++ post = (pre ++ ys.map key) ++ (zs.map key ++ post) := by simp [hxs]
    rw [happ, admits_append hk]
  intro all hans
  induction xs using List.reverseRecOn with
  | nil => rw [List.map_nil, List.append_nil]; exact ⟨h, rfl⟩
  | append_singleton xs x ih =>
    obtain ⟨hoff, hs⟩ := ih fun ys zs hxs => hans ys (zs ++ [x]) (by simp [hxs])
    obtain ⟨hoff', hok⟩ := hoff.allow (key x)
    have hlast := hans (xs ++ [x]) [] (by simp) (key x) (by simp)
    rw [List.map_append, List.map_singleton, ← List.append_assoc] at hlast ⊢
    simp only [Limiter.forEach, List.foldl_append, List.foldl_cons, List.foldl_nil] at hoff' hok hs ⊢
    refine ⟨hoff', ?_⟩
    rw [hs, hok]
    simp only [hlast]

end Loop
end Limiter
