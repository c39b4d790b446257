import Mathlib.Data.Nat.Digits.Defs
import Mathlib.Data.Nat.Log
import Trafficmon.Lib.GoTime
import Trafficmon.Lib.HalfEven
import Trafficmon.Tui.Bodies

/-!
# Numbers in words (`tui/format.go`)

A number of bytes is shown in the largest unit that it reaches, to one decimal place, and a rate the same way. The
columns for them are as wide as these texts get: they stay in the table on every terminal, and no number is cut
(`numbers_shown`). A larger number never reads smaller (`shown_mono`). An age outgrows its column after a
thousand days (`width_humanDuration_le_iff`).
-/

namespace Trafficmon.Tui
open HalfEven GoTime

/-! ### Bytes and rates -/

def unit : UInt64 := 1024

/-- The loop of `humanBytes`. -/
def scale (v div : UInt64) (exp : ℕ) : UInt64 × ℕ :=
  if unit ≤ v then scale (v / unit) (div * unit) (exp + 1) else (div, exp)
termination_by v.toNat
decreasing_by
  rename_i h
  have hle : 1024 ≤ v.toNat := UInt64.le_iff_toNat_le.1 h
  rw [UInt64.toNat_div, show unit.toNat = 1024 from rfl]
  omega

/-- The tenths that `%.1f` prints of `float64(n)/float64(div)`. The quotient is exact, since `div` is a power of two. -/
def tenths (n div : UInt64) : ℕ := halfEven (10 * toFloat 53 n.toNat) (toFloat 53 div.toNat)

/-- `%.1f` -/
def oneDecimal (t : ℕ) : String := itoa ↑(t / 10) ++ "." ++ itoa ↑(t % 10)

def unitLetters : String := "KMGTPE"

/-- A number in units, such as `"1.5 KB"`. -/
def inUnits (t : ℕ) (c : Char) : String := oneDecimal t ++ " " ++ String.singleton c ++ "B"

/-- `none` would be an index out of range. -/
def humanBytes (n : UInt64) : Option String :=
  if n < unit then some (itoa n.toNat ++ " B")
  else
    let (div, exp) := scale (n / unit) unit 0
    unitLetters.toList[exp]?.map (inUnits (tenths n div))

/-- `uint64(f)`; `wrap` is what the platform makes of a number that is too large. -/
def toUInt64 (wrap : Float64 → UInt64) (f : Float64) : UInt64 :=
  if f.val < 2 ^ 64 then UInt64.ofNat f.val.floor.toNat else wrap f

def humanRate (wrap : Float64 → UInt64) (bps : Float64) : Option String :=
  (humanBytes (toUInt64 wrap (if bps < 0 then 0 else bps))).map (· ++ "/s")

/-! ### Ages -/

def minute : Int := 60 * second
def hour : Int := 60 * minute
def day : Int := 24 * hour

/-- `%02d` -/
def twoDigits (n : Int) : String := if n < 10 then "0" ++ itoa n else itoa n

def humanDuration (d : Int) : String :=
  let d := if d < 0 then 0 else d
  if d < minute then itoa (d / second) ++ "s"
  else if d < hour then itoa (d / minute) ++ "m"
  else if d < day then itoa (d / hour) ++ "h" ++ twoDigits (d / minute % 60) ++ "m"
  else itoa (d / day) ++ "d" ++ twoDigits (d / hour % 24) ++ "h"

/-! ### The unit of a number -/

theorem scale_eq (k : ℕ) {v : UInt64} (hlow : 1024 ^ k ≤ v.toNat) (hhigh : v.toNat < 1024 ^ (k + 1)) (div : UInt64)
    (exp : ℕ) : scale v div exp = (div * unit ^ k, exp + k) := by
  have hle : unit ≤ v ↔ 1024 ≤ v.toNat := UInt64.le_iff_toNat_le
  induction k generalizing v div exp with
  | zero =>
    rw [scale, if_neg (by rw [hle]; omega)]
    simp
  | succ k ih =>
    have hv : (v / unit).toNat = v.toNat / 1024 := UInt64.toNat_div v unit
    have hone : 0 < 1024 ^ k := Nat.pow_pos (by decide)
    rw [pow_succ] at hlow
    rw [pow_succ] at hhigh
    rw [scale, if_pos (by rw [hle]; omega), ih (by omega) (by omega) _ _ UInt64.le_iff_toNat_le, pow_succ, mul_assoc,
      mul_comm unit, add_assoc, add_comm 1]

/-- The unit of a number, by its exponent. -/
def InUnit (exp n : ℕ) : Prop := 1024 ^ (exp + 1) ≤ n ∧ n < 1024 ^ (exp + 2)

theorem inUnit_log {n : ℕ} (h : 1024 ≤ n) : InUnit (Nat.log 1024 n - 1) n := by
  have hexp : 1 ≤ Nat.log 1024 n := Nat.le_log_of_pow_le (by decide) h
  unfold InUnit
  rw [Nat.sub_add_cancel hexp, show Nat.log 1024 n - 1 + 2 = Nat.log 1024 n + 1 by omega]
  exact ⟨Nat.pow_log_le_self 1024 (by omega), Nat.lt_pow_succ_log_self (by decide) n⟩

/-- The letters are enough. -/
theorem exists_inUnit {n : ℕ} (hlow : 1024 ≤ n) (hhigh : n < 2 ^ 64) : ∃ exp ≤ 5, InUnit exp n := by
  have hlog : Nat.log 1024 n < 7 := Nat.log_lt_of_lt_pow (by omega) (by omega)
  exact ⟨Nat.log 1024 n - 1, by omega, inUnit_log hlow⟩

theorem toFloat_unit {exp : ℕ} (h : exp ≤ 5) : toFloat 53 (unit * unit ^ exp).toNat = 1024 ^ (exp + 1) := by
  interval_cases exp <;> decide +kernel

/-- The tenths that are shown of a number in this unit. -/
def unitTenths (exp n : ℕ) : ℕ := halfEven (10 * toFloat 53 n) (1024 ^ (exp + 1))

theorem humanBytes_eq {n : UInt64} {exp : ℕ} (h : exp ≤ 5) (hn : InUnit exp n.toNat) :
    humanBytes n = unitLetters.toList[exp]?.map (inUnits (unitTenths exp n.toNat)) := by
  obtain ⟨hlow, hhigh⟩ := hn
  have hpos : 0 < 1024 ^ exp := Nat.pow_pos (by decide)
  have hdiv : (n / unit).toNat = n.toNat / 1024 := UInt64.toNat_div n unit
  rw [pow_succ] at hlow
  rw [pow_succ] at hhigh
  have hunit : ¬ n < unit := by
    rw [UInt64.lt_iff_toNat_lt, show unit.toNat = 1024 from rfl]
    omega
  have hscale := scale_eq exp (v := n / unit) (by omega) (by omega) unit 0
  rw [humanBytes, if_neg hunit, hscale, zero_add]
  dsimp only
  rw [tenths, toFloat_unit h, unitTenths]

/-- Half a place, and what the floats lose. -/
theorem unitTenths_near {exp n : ℕ} (h : n < 1024 ^ (exp + 2)) :
    100 * (unitTenths exp n * 1024 ^ (exp + 1)) ≤ 1000 * n + 51 * 1024 ^ (exp + 1) ∧
      1000 * n ≤ 100 * (unitTenths exp n * 1024 ^ (exp + 1)) + 51 * 1024 ^ (exp + 1) := by
  have hpos : 0 < 1024 ^ (exp + 1) := Nat.pow_pos (by decide)
  have hround := halfEven_near hpos (10 * toFloat 53 n)
  have hfloat := toFloat_near (p := 53) (by decide) n
  rw [← unitTenths] at hround
  rw [show exp + 2 = exp + 1 + 1 from rfl, pow_succ] at h
  generalize unitTenths exp n * 1024 ^ (exp + 1) = shown at hround ⊢
  generalize 1024 ^ (exp + 1) = div at *
  omega

theorem unitTenths_bounds {exp n : ℕ} (h : InUnit exp n) : 10 ≤ unitTenths exp n ∧ unitTenths exp n ≤ 10240 := by
  have hpos : 0 < 1024 ^ (exp + 1) := Nat.pow_pos (by decide)
  obtain ⟨hlow, hhigh⟩ := unitTenths_near h.2
  obtain ⟨hge, hlt⟩ := h
  rw [show exp + 2 = exp + 1 + 1 from rfl, pow_succ] at hlt
  constructor
  · have hlt9 : 9 * 1024 ^ (exp + 1) < unitTenths exp n * 1024 ^ (exp + 1) := by omega
    exact Nat.lt_of_mul_lt_mul_right hlt9
  · have hlt' : unitTenths exp n * 1024 ^ (exp + 1) < 10241 * 1024 ^ (exp + 1) := by omega
    exact Nat.le_of_lt_succ (Nat.lt_of_mul_lt_mul_right hlt')

/-! ### How wide the texts are -/

theorem allNarrow_digits (n : ℕ) : AllNarrow (Nat.toDigits 10 n) := by
  intro c hc
  obtain ⟨d, hd, rfl⟩ := Addr.exists_digit_of_mem (by decide) hc
  interval_cases d <;> decide

theorem toList_itoa (n : ℕ) : (itoa n).toList = Nat.toDigits 10 n := by
  rw [itoa, if_neg (by omega), String.toList_ofList, Int.natAbs_natCast]

/-- A text of at most `w` characters, none of them wide. -/
def Short (w : ℕ) (s : String) : Prop := AllNarrow s.toList ∧ s.toList.length ≤ w

instance (w : ℕ) (s : String) : Decidable (Short w s) := inferInstanceAs (Decidable (_ ∧ _))

theorem Short.append {w w' : ℕ} {s s' : String} (h : Short w s) (h' : Short w' s') : Short (w + w') (s ++ s') := by
  refine ⟨?_, ?_⟩
  · rw [String.toList_append]
    exact allNarrow_append.2 ⟨h.1, h'.1⟩
  · rw [String.toList_append, List.length_append]
    exact Nat.add_le_add h.2 h'.2

theorem short_itoa {n w : ℕ} (hw : 0 < w) (h : n < 10 ^ w) : Short w (itoa n) := by
  unfold Short
  rw [toList_itoa]
  exact ⟨allNarrow_digits n, Nat.toDigits_length 10 n w hw h⟩

theorem short_inUnits {t exp : ℕ} {c : Char} (ht : t ≤ 10240) (hc : unitLetters.toList[exp]? = some c) :
    Short 9 (inUnits t c) := by
  have hletter : Short 1 (String.singleton c) := by
    have hall : AllNarrow unitLetters.toList := by decide
    refine ⟨fun r hr => ?_, by simp⟩
    obtain rfl : r = c := by simpa using hr
    exact hall r (List.mem_of_getElem? hc)
  have hwhole : Short 4 (itoa ↑(t / 10)) := short_itoa (by decide) (by omega)
  have hpart : Short 1 (itoa ↑(t % 10)) := short_itoa (by decide) (by omega)
  have hdot : Short 1 "." := by decide
  have hspace : Short 1 " " := by decide
  have hbyte : Short 1 "B" := by decide
  exact (((hwhole.append hdot).append hpart).append hspace).append hletter |>.append hbyte

/-! ### What the texts say -/

/-- The tenths of a byte that a text says. -/
inductive Says : String → ℕ → Prop
  | bytes (n : ℕ) : Says (itoa n ++ " B") (10 * n)
  | units {exp : ℕ} {c : Char} (hc : unitLetters.toList[exp]? = some c) (t : ℕ) :
    Says (inUnits t c) (t * 1024 ^ (exp + 1))

theorem toList_inUnits (t : ℕ) (c : Char) :
    (inUnits t c).toList = Nat.toDigits 10 (t / 10) ++ ['.', (t % 10).digitChar] ++ [' ', c, 'B'] := by
  simp only [inUnits, oneDecimal, String.toList_append, toList_itoa, String.toList_singleton,
    Nat.toDigits_of_lt_base (Nat.mod_lt t (show 0 < 10 by decide)), List.append_assoc]
  rfl

theorem digits_inj {n m : ℕ} (h : Nat.toDigits 10 n = Nat.toDigits 10 m) : n = m := by
  rw [← toList_itoa, ← toList_itoa] at h
  have hnum := itoa_injective (String.toList_injective h)
  omega

theorem inUnits_inj {t t' : ℕ} {c c' : Char} (h : inUnits t c = inUnits t' c') : t = t' ∧ c = c' := by
  have hchars := congrArg String.toList h
  rw [toList_inUnits, toList_inUnits] at hchars
  obtain ⟨hnum, hunit⟩ := List.append_inj' hchars rfl
  obtain ⟨hwhole, hpart⟩ := List.append_inj' hnum rfl
  simp only [List.cons.injEq, true_and, and_true] at hunit hpart
  have hdigit : ∀ n : ℕ, Nat.toDigits 10 (n % 10) = [(n % 10).digitChar] := fun n =>
    Nat.toDigits_of_lt_base (Nat.mod_lt n (by decide))
  have hdiv := digits_inj hwhole
  have hmod : t % 10 = t' % 10 := digits_inj (by rw [hdigit, hdigit, hpart])
  exact ⟨by omega, hunit⟩

theorem bytes_ne_inUnits {n t : ℕ} {c : Char} (hc : c ∈ unitLetters.toList) : itoa n ++ " B" ≠ inUnits t c := by
  have hspace : ' ' ∉ unitLetters.toList := by decide
  intro heq
  have hchars := congrArg String.toList heq
  rw [toList_inUnits, String.toList_append, toList_itoa, List.append_cons _ ' '] at hchars
  obtain ⟨-, hend⟩ := List.append_inj' hchars rfl
  obtain rfl : c = ' ' := (List.cons.inj hend).1.symm
  exact hspace hc

/-- No text says two things. -/
theorem Says.unique {s : String} {a b : ℕ} (ha : Says s a) (hb : Says s b) : a = b := by
  cases ha with
  | bytes n =>
    generalize hs : itoa n ++ " B" = s at hb
    cases hb with
    | bytes m =>
      have hnum : itoa n = itoa m := by simpa using hs
      have hnm := itoa_injective hnum
      omega
    | units hc t => exact absurd hs (bytes_ne_inUnits (List.mem_of_getElem? hc))
  | @units exp c hc t =>
    generalize hs : inUnits t c = s at hb
    cases hb with
    | bytes m => exact absurd hs.symm (bytes_ne_inUnits (List.mem_of_getElem? hc))
    | @units exp' c' hc' t' =>
      obtain ⟨rfl, rfl⟩ := inUnits_inj hs
      have hlt : exp < unitLetters.toList.length := (List.getElem?_eq_some_iff.1 hc).1
      have hexp : exp = exp' := (List.getElem?_inj hlt (by decide)).1 (hc.trans hc'.symm)
      rw [hexp]

/-- What is said of `n` bytes. -/
def shown (n : ℕ) : ℕ :=
  if n < 1024 then 10 * n else unitTenths (Nat.log 1024 n - 1) n * 1024 ^ Nat.log 1024 n

theorem shown_eq {exp n : ℕ} (h : InUnit exp n) : shown n = unitTenths exp n * 1024 ^ (exp + 1) := by
  have hlog : Nat.log 1024 n = exp + 1 := Nat.log_eq_of_pow_le_of_lt_pow h.1 h.2
  have hpos : 0 < 1024 ^ exp := Nat.pow_pos (by decide)
  have hle := h.1
  rw [pow_succ] at hle
  rw [shown, if_neg (by omega), hlog, Nat.add_sub_cancel]

theorem humanBytes_says (n : UInt64) : ∃ s, humanBytes n = some s ∧ Says s (shown n.toNat) ∧ Short 9 s := by
  by_cases hsmall : n < unit
  · have hlt : n.toNat < 1024 := UInt64.lt_iff_toNat_lt.1 hsmall
    have hnumber : Short 7 (itoa n.toNat) := short_itoa (by decide) (by omega)
    refine ⟨_, if_pos hsmall, ?_, hnumber.append (show Short 2 " B" by decide)⟩
    rw [shown, if_pos hlt]
    exact .bytes n.toNat
  · have hle : 1024 ≤ n.toNat := not_lt.1 fun h => hsmall (UInt64.lt_iff_toNat_lt.2 h)
    obtain ⟨exp, hexp, hunit⟩ := exists_inUnit hle n.toNat_lt
    obtain ⟨c, hc⟩ : ∃ c, unitLetters.toList[exp]? = some c := by
      rw [← Option.isSome_iff_exists]
      interval_cases exp <;> rfl
    refine ⟨inUnits (unitTenths exp n.toNat) c, ?_, ?_, short_inUnits (unitTenths_bounds hunit).2 hc⟩
    · rw [humanBytes_eq hexp hunit, hc]
      rfl
    · rw [shown_eq hunit]
      exact .units hc _

theorem shown_near (n : ℕ) : 100 * shown n ≤ 1000 * n + 51 * 1024 ^ Nat.log 1024 n ∧
    1000 * n ≤ 100 * shown n + 51 * 1024 ^ Nat.log 1024 n := by
  by_cases hsmall : n < 1024
  · rw [shown, if_pos hsmall]
    omega
  · have hexp : 1 ≤ Nat.log 1024 n := Nat.le_log_of_pow_le (by decide) (by omega)
    have hnear := unitTenths_near (inUnit_log (not_lt.1 hsmall)).2
    rw [Nat.sub_add_cancel hexp] at hnear
    rw [shown, if_neg hsmall]
    exact hnear

theorem unitTenths_mono (exp : ℕ) {n m : ℕ} (h : n ≤ m) : unitTenths exp n ≤ unitTenths exp m :=
  halfEven_mono _ (Nat.mul_le_mul_left 10 (toFloat_mono (by decide) h))

/-- A larger number never reads smaller. -/
theorem shown_mono : Monotone shown := by
  intro n m h
  by_cases hm : m < 1024
  · rw [shown, shown, if_pos hm, if_pos (h.trans_lt hm)]
    omega
  have hunit := inUnit_log (not_lt.1 hm)
  have hten := Nat.mul_le_mul_right (1024 ^ (Nat.log 1024 m - 1 + 1)) (unitTenths_bounds hunit).1
  by_cases hn : n < 1024
  · have hpow : 1024 ^ 1 ≤ 1024 ^ (Nat.log 1024 m - 1 + 1) := Nat.pow_le_pow_right (by decide) (by omega)
    rw [shown_eq hunit, shown, if_pos hn]
    omega
  have hunit' := inUnit_log (not_lt.1 hn)
  have hlog : Nat.log 1024 n ≤ Nat.log 1024 m := Nat.log_mono_right h
  rcases hlog.eq_or_lt with heq | hlt
  · rw [heq] at hunit'
    rw [shown_eq hunit, shown_eq hunit']
    exact Nat.mul_le_mul_right _ (unitTenths_mono _ h)
  · -- `n` reads at most 1024.0 of its unit, and `m` at least 1.0 of a larger one
    have hexp : Nat.log 1024 n - 1 + 1 + 1 ≤ Nat.log 1024 m - 1 + 1 := by
      have := Nat.le_log_of_pow_le (b := 1024) (x := 1) (y := n) (by decide) (by omega)
      omega
    have hpow : 1024 ^ (Nat.log 1024 n - 1 + 1 + 1) ≤ 1024 ^ (Nat.log 1024 m - 1 + 1) :=
      Nat.pow_le_pow_right (by decide) hexp
    have hmost := Nat.mul_le_mul_right (1024 ^ (Nat.log 1024 n - 1 + 1)) (unitTenths_bounds hunit').2
    rw [shown_eq hunit, shown_eq hunit']
    rw [pow_succ] at hpow
    omega

theorem humanRate_eq (wrap : Float64 → UInt64) (bps : Float64) :
    humanRate wrap bps = (humanBytes (toUInt64 wrap bps)).map (· ++ "/s") := by
  rw [humanRate, if_neg (not_lt.2 bps.zero_le)]

/-! ### How wide an age is -/

theorem lt_pow_length (n : ℕ) : n < 10 ^ (Nat.toDigits 10 n).length := by
  induction n using Nat.strongRecOn with
  | ind n ih =>
    rw [Nat.toDigits_eq_if (by decide)]
    split
    · rw [List.length_singleton]
      omega
    · have hdiv := ih (n / 10) (by omega)
      rw [List.length_append, List.length_singleton, pow_succ]
      omega

/-- A number with a word behind it. -/
theorem amount_spec {n : Int} (h : 0 ≤ n) {tail : String} (htail : AllNarrow tail.toList) {w : ℕ} (hw : 0 < w) :
    AllNarrow (itoa n ++ tail).toList ∧
      ((itoa n ++ tail).toList.length ≤ w + tail.toList.length ↔ n < 10 ^ w) := by
  obtain ⟨k, rfl⟩ := Int.eq_ofNat_of_zero_le h
  rw [String.toList_append, toList_itoa, List.length_append, Nat.add_le_add_iff_right]
  refine ⟨allNarrow_append.2 ⟨allNarrow_digits k, htail⟩, fun hlen => ?_, fun hlt => ?_⟩
  · have hpow := (lt_pow_length k).trans_le (Nat.pow_le_pow_right (by decide) hlen)
    exact_mod_cast hpow
  · exact Nat.toDigits_length 10 k w hw (by exact_mod_cast hlt)

theorem twoDigits_spec {n : Int} (h : 0 ≤ n) (hlt : n < 100) :
    AllNarrow (twoDigits n).toList ∧ (twoDigits n).toList.length = 2 := by
  have hall : ∀ k < 100, AllNarrow (twoDigits (k : ℕ)).toList ∧ (twoDigits (k : ℕ)).toList.length = 2 := by
    decide +kernel
  obtain ⟨k, rfl⟩ := Int.eq_ofNat_of_zero_le h
  exact hall k (by omega)

/-- A smaller unit between two letters. -/
theorem tail_spec {n : Int} (h : 0 ≤ n) (hlt : n < 100) {u v : Char} (hu : Narrow u) (hv : Narrow v) :
    AllNarrow (String.singleton u ++ (twoDigits n ++ String.singleton v)).toList ∧
      (String.singleton u ++ (twoDigits n ++ String.singleton v)).toList.length = 4 := by
  obtain ⟨hnarrow, hlen⟩ := twoDigits_spec h hlt
  simp only [String.toList_append, String.toList_singleton, List.length_append, List.length_singleton, hlen,
    allNarrow_append]
  exact ⟨⟨List.forall_mem_singleton.2 hu, hnarrow, List.forall_mem_singleton.2 hv⟩, trivial⟩

/-- An age is a number with at least one letter behind it. -/
theorem humanDuration_cases (d : Int) : ∃ (n : Int) (tail : String) (w : ℕ), humanDuration d = itoa n ++ tail ∧ 0 ≤ n ∧
    AllNarrow tail.toList ∧ 0 < w ∧ w + tail.toList.length = 7 ∧ (n < 10 ^ w ↔ d < 1000 * day) := by
  obtain ⟨e, he, hpos, hday⟩ : ∃ e, (if d < 0 then 0 else d) = e ∧ 0 ≤ e ∧ (d < 1000 * day ↔ e < 1000 * day) := by
    refine ⟨_, rfl, ?_⟩
    simp only [day, hour, minute, second]
    split_ifs <;> omega
  rw [humanDuration, he, hday]
  by_cases hminute : e < minute
  · have hn : 0 ≤ e / second ∧ (e / second < 10 ^ 6 ↔ e < 1000 * day) := by
      simp only [day, hour, minute, second] at hminute ⊢
      omega
    exact ⟨e / second, "s", 6, if_pos hminute, hn.1, by decide, by decide, rfl, hn.2⟩
  rw [if_neg hminute]
  by_cases hhour : e < hour
  · have hn : 0 ≤ e / minute ∧ (e / minute < 10 ^ 6 ↔ e < 1000 * day) := by
      simp only [day, hour, minute, second] at hhour ⊢
      omega
    exact ⟨e / minute, "m", 6, if_pos hhour, hn.1, by decide, by decide, rfl, hn.2⟩
  rw [if_neg hhour]
  by_cases hlong : e < day
  · have hn : 0 ≤ e / hour ∧ (e / hour < 10 ^ 3 ↔ e < 1000 * day) := by
      simp only [day, hour, minute, second] at hlong ⊢
      omega
    obtain ⟨hnarrow, hlen⟩ := tail_spec (n := e / minute % 60) (u := 'h') (v := 'm') (by omega) (by omega) (by decide)
      (by decide)
    refine ⟨e / hour, _, 3, ?_, hn.1, hnarrow, by decide, by rw [hlen], hn.2⟩
    rw [if_pos hlong, String.append_assoc, String.append_assoc]
    rfl
  · have hn : 0 ≤ e / day ∧ (e / day < 10 ^ 3 ↔ e < 1000 * day) := by
      simp only [day, hour, minute, second] at hlong ⊢
      omega
    obtain ⟨hnarrow, hlen⟩ := tail_spec (n := e / hour % 24) (u := 'd') (v := 'h') (by omega) (by omega) (by decide)
      (by decide)
    refine ⟨e / day, _, 3, ?_, hn.1, hnarrow, by decide, by rw [hlen], hn.2⟩
    rw [if_neg hlong, String.append_assoc, String.append_assoc]
    rfl

theorem humanDuration_spec (d : Int) : AllNarrow (humanDuration d).toList ∧
    ((humanDuration d).toList.length ≤ 7 ↔ d < 1000 * day) := by
  obtain ⟨n, tail, w, heq, hpos, htail, hw, hseven, hiff⟩ := humanDuration_cases d
  obtain ⟨hnarrow, hlen⟩ := amount_spec hpos htail hw
  rw [hseven] at hlen
  rw [heq]
  exact ⟨hnarrow, hlen.trans hiff⟩

theorem width_humanDuration_le_iff {ι : Type*} {S : Screen ι} (hS : S.Lawful) (d : Int) :
    S.width (utf8 (humanDuration d)) ≤ ageWidth ↔ d < 1000 * day := by
  obtain ⟨hnarrow, hlen⟩ := humanDuration_spec d
  rw [hS.width_utf8 hnarrow, ← hlen, ageWidth]
  omega

/-! ### The columns -/

def formats (wrap : Float64 → UInt64) (toUpper : String → String) : Formats where
  humanRate bps := (humanRate wrap bps).get (by obtain ⟨s, hs, -⟩ := humanBytes_says _; rw [humanRate, hs]; rfl)
  humanBytes n := (humanBytes n).get (by obtain ⟨s, hs, -⟩ := humanBytes_says n; rw [hs]; rfl)
  humanDuration := humanDuration
  toUpper := toUpper

theorem mem_of_sized {cols out : List Column} (h : List.Forall₂ SizedFrom cols out) {c : Column} (hc : c ∈ cols)
    (hflex : c.flex = false) : c ∈ out := by
  induction h with
  | nil => cases hc
  | cons hsame _ ih =>
    rcases List.mem_cons.1 hc with rfl | hc
    · rw [hsame.2 hflex]
      exact List.mem_cons_self
    · exact List.mem_cons_of_mem _ (ih hc)

/-- An essential column of a fixed width is in every table. -/
theorem mem_fitColumns {cols : List Column} {c : Column} (hc : c ∈ cols) (hprio : c.prio = prioEssential)
    (hflex : c.flex = false) (w : Int) : c ∈ fitColumns cols w := by
  obtain ⟨kept, hrun, heq, -⟩ := fitLoop_run (if w ≤ 0 then defaultWidth else w) cols
  obtain ⟨-, dropped, hperm, hdroppable, -⟩ := exists_dropped hrun
  have hkept : c ∈ kept := by
    rcases List.mem_append.1 (hperm.mem_iff.1 hc) with hk | hd
    · exact hk
    · exact absurd hprio (hdroppable c hd)
  rw [fitColumns, heq]
  exact mem_of_sized (sized_shareFlex _ _ _) hkept hflex

theorem of_mem_rateTotalColumns {fmt : Formats} {c : Column} (hc : c ∈ rateTotalColumns fmt) :
    c.prio = prioEssential ∧ c.flex = false ∧ c.align = .right := by
  simp only [rateTotalColumns, List.mem_cons, List.not_mem_nil, or_false] at hc
  rcases hc with rfl | rfl | rfl | rfl <;> exact ⟨rfl, rfl, rfl⟩

theorem pad_short {ι : Type*} {S : Screen ι} (hS : S.Lawful) {s : String} {w : ℕ} (hw : 0 < w) (h : Short w s)
    (a : Alignment) (truncLeft : Bool) :
    pad S.width (utf8 s) w a truncLeft = aligned a (w - s.toList.length) (utf8 s) := by
  have hwidth := hS.width_utf8 h.1
  have hwhole : truncateSide S.width (utf8 s) w truncLeft = utf8 s := by
    rw [truncateSide, if_neg (by omega), if_pos (by rw [hwidth]; exact_mod_cast h.2)]
  rw [pad_eq hS.width (by omega), hwhole, hwidth]

/-- The numbers of a table: their columns are there and none is cut. A total is what it says to half a place; a rate
reads as the whole bytes of it. -/
structure NumbersShown {ι : Type*} (S : Screen ι) (cols : List Column) : Prop where
  stay : ∀ c ∈ rateTotalColumns S.formats, c ∈ cols
  whole : ∀ c ∈ rateTotalColumns S.formats, ∀ r,
    pad S.width (utf8 (c.cell r)) c.width c.align c.truncLeft =
      aligned .right (c.width - (c.cell r).toList.length) (utf8 (c.cell r))
  total : ∀ n : UInt64, Says (S.formats.humanBytes n) (shown n.toNat)
  rate : ∀ bps : Float64, bps.val < 2 ^ 64 →
    S.formats.humanRate bps = S.formats.humanBytes (UInt64.ofNat bps.val.floor.toNat) ++ "/s"
  unique : ∀ s a b, Says s a → Says s b → a = b
  near : ∀ n, 100 * shown n ≤ 1000 * n + 51 * 1024 ^ Nat.log 1024 n ∧
    1000 * n ≤ 100 * shown n + 51 * 1024 ^ Nat.log 1024 n
  order : Monotone shown

section Columns
variable {ι : Type*}

theorem formats_humanBytes (wrap : Float64 → UInt64) (toUpper : String → String) (n : UInt64) :
    Says ((formats wrap toUpper).humanBytes n) (shown n.toNat) ∧ Short 9 ((formats wrap toUpper).humanBytes n) := by
  obtain ⟨s, hs, hsays⟩ := humanBytes_says n
  have heq : (formats wrap toUpper).humanBytes n = s := Option.get_of_eq_some _ hs
  rwa [heq]

theorem formats_humanRate (wrap : Float64 → UInt64) (toUpper : String → String) (bps : Float64) :
    (formats wrap toUpper).humanRate bps = (formats wrap toUpper).humanBytes (toUInt64 wrap bps) ++ "/s" := by
  obtain ⟨s, hs, -⟩ := humanBytes_says (toUInt64 wrap bps)
  have hbytes : (formats wrap toUpper).humanBytes (toUInt64 wrap bps) = s := Option.get_of_eq_some _ hs
  rw [hbytes]
  refine Option.get_of_eq_some _ ?_
  rw [humanRate_eq, hs]
  rfl

theorem short_of_mem {wrap : Float64 → UInt64} {toUpper : String → String} {c : Column}
    (hc : c ∈ rateTotalColumns (formats wrap toUpper)) (r : Row) :
    ∃ w : ℕ, 0 < w ∧ c.width = w ∧ Short w (c.cell r) := by
  have htotal : ∀ n, Short 9 ((formats wrap toUpper).humanBytes n) := fun n => (formats_humanBytes wrap toUpper n).2
  have hrate : ∀ bps, Short 11 ((formats wrap toUpper).humanRate bps) := fun bps => by
    rw [formats_humanRate]
    exact (htotal _).append (show Short 2 "/s" by decide)
  simp only [rateTotalColumns, List.mem_cons, List.not_mem_nil, or_false] at hc
  rcases hc with rfl | rfl | rfl | rfl
  · exact ⟨11, by decide, rfl, hrate _⟩
  · exact ⟨11, by decide, rfl, hrate _⟩
  · exact ⟨9, by decide, rfl, htotal _⟩
  · exact ⟨9, by decide, rfl, htotal _⟩

/-- On a terminal of any size, whatever the table shows. -/
theorem numbers_shown (env : Env ι) (S : Screen ι) (hS : S.Lawful) (wrap : Float64 → UInt64)
    (toUpper : String → String) (hformats : S.formats = formats wrap toUpper) (m : Model ι) :
    NumbersShown S (m.columns env S) := by
  refine ⟨fun c hc => ?_, fun c hc r => ?_, fun n => ?_, fun bps hlt => ?_,
    fun _ _ _ => Says.unique, shown_near, shown_mono⟩
  · have hmem : c ∈ tableColumns S.formats m.grouping (some env.hostname) m.now :=
      List.mem_append_right _ (List.mem_cons_of_mem _ hc)
    obtain ⟨hprio, hflex, -⟩ := of_mem_rateTotalColumns hc
    exact mem_fitColumns hmem hprio hflex _
  · rw [hformats] at hc
    obtain ⟨w, hw, hwidth, hshort⟩ := short_of_mem hc r
    obtain ⟨-, -, halign⟩ := of_mem_rateTotalColumns hc
    rw [hwidth, pad_short hS hw hshort, halign]
  · rw [hformats]
    exact (formats_humanBytes wrap toUpper n).1
  · rw [hformats, formats_humanRate, toUInt64, if_pos hlt]

/-- The numbers on `plainScreen`, where a rate that is too large turns into the largest power of two. -/
def numberScreen : Screen Unit := { plainScreen with formats := formats (fun _ => 0x8000000000000000) id }

theorem lawful_numberScreen : numberScreen.Lawful :=
  let h := lawful_plainScreen
  ⟨⟨h.render, h.clip, h.shortHelpView, h.inputView⟩, h.width, h.narrow, h.box, h.box_height, h.box_breaks⟩

theorem numbers_shown_browsing : numberScreen.Lawful ∧ humanBytes 1048575 = some "1024.0 KB" ∧
    NumbersShown numberScreen ((browsing 100 24).columns plainEnv numberScreen) := by
  refine ⟨lawful_numberScreen, ?_, numbers_shown plainEnv numberScreen lawful_numberScreen _ _ rfl (browsing 100 24)⟩
  rw [humanBytes_eq (show 0 ≤ 5 by decide) ⟨by decide, by decide⟩]
  decide +kernel

end Columns

end Trafficmon.Tui
