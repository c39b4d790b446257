import Mathlib.Data.List.Basic
import Mathlib.Data.List.TakeWhile
import Mathlib.Tactic.Common
import Mathlib.Tactic.Linarith
import Mathlib.Tactic.Ring

/-!
# Numbers in byte strings

Go's `strconv.ParseUint` for a given base, `hex.DecodeString` and `strings.Cut`, over the bytes of a
string, and the `%0wX` they read back. `parseUint_eq_ok` and `decodeHex_eq_ok` say what is accepted
and what it means; letters count in either case.
-/

namespace NumText

inductive NumError
  | errSyntax
  | errRange
deriving DecidableEq, Repr

inductive HexError
  | invalidByte (c : UInt8)
  | errLength
deriving DecidableEq, Repr

/-- The value of a digit of the base; letters follow the ten figures. -/
def digit? (base : ℕ) (c : UInt8) : Option ℕ :=
  let d :=
    if 0x30 ≤ c ∧ c ≤ 0x39 then some (c.toNat - 0x30)
    else if 0x61 ≤ c ∧ c ≤ 0x7a then some (c.toNat - 0x61 + 10)
    else if 0x41 ≤ c ∧ c ≤ 0x5a then some (c.toNat - 0x41 + 10)
    else none
  d.filter (· < base)

def valueFrom (base n : ℕ) (s : List UInt8) : ℕ := s.foldl (fun n c => n * base + (digit? base c).getD 0) n

def value (base : ℕ) (s : List UInt8) : ℕ := valueFrom base 0 s

/-- The loop of `ParseUint`, which stops at the first digit that is none or leads past the size. -/
def parseUintFrom (base bitSize : ℕ) : ℕ → List UInt8 → Except NumError ℕ
  | n, [] => .ok n
  | n, c :: s =>
    match digit? base c with
    | none => .error .errSyntax
    | some d => if 2 ^ bitSize ≤ n * base + d then .error .errRange else parseUintFrom base bitSize (n * base + d) s

def parseUint (base bitSize : ℕ) (s : List UInt8) : Except NumError ℕ :=
  if s = [] then .error .errSyntax else parseUintFrom base bitSize 0 s

/-- `hex.DecodeString`; an odd digit at the end is looked at before the length is. -/
def decodeHex : List UInt8 → Except HexError (List UInt8)
  | [] => .ok []
  | [c] => if (digit? 16 c).isSome then .error .errLength else .error (.invalidByte c)
  | p :: q :: s =>
    match digit? 16 p with
    | none => .error (.invalidByte p)
    | some a =>
      match digit? 16 q with
      | none => .error (.invalidByte q)
      | some b => (decodeHex s).map (UInt8.ofNat (a * 16 + b) :: ·)

/-- `strings.Cut` at a byte: what stands before and after its first occurrence. -/
def cut (sep : UInt8) (s : List UInt8) : Option (List UInt8 × List UInt8) :=
  match s.dropWhile (· ≠ sep) with
  | [] => none
  | _ :: after => some (s.takeWhile (· ≠ sep), after)

/-! ### Printing -/

def upperDigit (d : ℕ) : UInt8 := if d < 10 then UInt8.ofNat (0x30 + d) else UInt8.ofNat (0x41 + (d - 10))

/-- `%0wX` of a number below `16 ^ w`. -/
def hexFixed : ℕ → ℕ → List UInt8
  | 0, _ => []
  | w + 1, n => hexFixed w (n / 16) ++ [upperDigit (n % 16)]

def upper (c : UInt8) : UInt8 := if 0x61 ≤ c ∧ c ≤ 0x7a then c - 0x20 else c

@[simp] theorem length_hexFixed (w n : ℕ) : (hexFixed w n).length = w := by
  induction w generalizing n with
  | zero => rfl
  | succ w ih => simp [hexFixed, ih]

theorem hexFixed_add_two (w n : ℕ) : hexFixed (w + 2) n = hexFixed w (n / 256) ++ hexFixed 2 (n % 256) := by
  simp only [hexFixed, List.nil_append, List.append_assoc, List.singleton_append, Nat.div_div_eq_div_mul]
  rw [show n % 256 / 16 % 16 = n / 16 % 16 by omega, show n % 256 % 16 = n % 16 by omega]

/-! ### Digits -/

theorem digit?_lt {base d : ℕ} {c : UInt8} (h : digit? base c = some d) : d < base :=
  of_decide_eq_true (Option.filter_eq_some_iff.1 h).2

theorem digit?_upper (c : UInt8) : digit? 16 (upper c) = digit? 16 c := by
  have hall : ∀ n < 256, digit? 16 (upper (UInt8.ofNat n)) = digit? 16 (UInt8.ofNat n) := by decide +kernel
  simpa using hall c.toNat c.toNat_lt

theorem upper_of_digit? {c : UInt8} {d : ℕ} (h : digit? 16 c = some d) : upper c = upperDigit d := by
  have hall : ∀ n < 256, ∀ d ∈ digit? 16 (UInt8.ofNat n), upper (UInt8.ofNat n) = upperDigit d := by decide +kernel
  simpa using hall c.toNat c.toNat_lt d (by simpa using h)

theorem digit?_upperDigit {d : ℕ} (hd : d < 16) : digit? 16 (upperDigit d) = some d := by
  revert d
  decide

theorem upper_eq_iff (c : UInt8) {d : ℕ} (hd : d < 16) : upper c = upperDigit d ↔ digit? 16 c = some d := by
  refine ⟨fun h => ?_, upper_of_digit?⟩
  rw [← digit?_upper, h, digit?_upperDigit hd]

theorem map_upper_hexFixed (w n : ℕ) : (hexFixed w n).map upper = hexFixed w n := by
  induction w generalizing n with
  | zero => rfl
  | succ w ih =>
    have hd : n % 16 < 16 := Nat.mod_lt n (by omega)
    simp [hexFixed, ih, (upper_eq_iff _ hd).2 (digit?_upperDigit hd)]

/-! ### Numerals -/

@[simp] theorem valueFrom_nil (base n : ℕ) : valueFrom base n [] = n := rfl

theorem valueFrom_cons {base d n : ℕ} {c : UInt8} (h : digit? base c = some d) (s : List UInt8) :
    valueFrom base n (c :: s) = valueFrom base (n * base + d) s := by
  simp [valueFrom, h]

theorem le_valueFrom {base : ℕ} (hb : 0 < base) (n : ℕ) (s : List UInt8) : n ≤ valueFrom base n s := by
  induction s generalizing n with
  | nil => exact le_rfl
  | cons c s ih =>
    calc n ≤ n * base + (digit? base c).getD 0 := by nlinarith
      _ ≤ _ := ih _

theorem parseUintFrom_eq_ok {base bitSize n m : ℕ} (hb : 0 < base) (hn : n < 2 ^ bitSize) {s : List UInt8} :
    parseUintFrom base bitSize n s = .ok m ↔
      (∀ c ∈ s, (digit? base c).isSome) ∧ valueFrom base n s = m ∧ m < 2 ^ bitSize := by
  induction s generalizing n with
  | nil =>
    simp only [parseUintFrom, Except.ok.injEq, valueFrom_nil]
    constructor
    · rintro rfl; exact ⟨by simp, rfl, hn⟩
    · rintro ⟨-, h, -⟩; exact h
  | cons c s ih =>
    cases hc : digit? base c with
    | none => simp [parseUintFrom, hc]
    | some d =>
      simp only [parseUintFrom, hc, valueFrom_cons hc]
      split_ifs with hbig
      · -- past the size, the rest cannot bring the value back
        have hle := le_valueFrom hb (n * base + d) s
        refine iff_of_false (by simp) ?_
        rintro ⟨-, hval, hlt⟩
        omega
      · rw [ih (not_le.1 hbig)]
        simp [hc]

/-- `ParseUint` accepts the non-empty numerals of the base whose value fits. -/
theorem parseUint_eq_ok {base bitSize m : ℕ} (hb : 0 < base) {s : List UInt8} :
    parseUint base bitSize s = .ok m ↔
      s ≠ [] ∧ (∀ c ∈ s, (digit? base c).isSome) ∧ value base s = m ∧ m < 2 ^ bitSize := by
  unfold parseUint
  split_ifs with hs
  · simp [hs]
  · rw [parseUintFrom_eq_ok hb (by positivity)]
    exact ⟨fun h => ⟨hs, h⟩, fun h => h.2⟩

theorem isSome_digit?_hexFixed {w n : ℕ} {c : UInt8} (hc : c ∈ hexFixed w n) : (digit? 16 c).isSome := by
  induction w generalizing n with
  | zero => simp [hexFixed] at hc
  | succ w ih =>
    rcases List.mem_append.1 hc with hc | hc
    · exact ih hc
    · rw [List.mem_singleton.1 hc, digit?_upperDigit (Nat.mod_lt _ (by omega))]; rfl

theorem value_hexFixed {w n : ℕ} (h : n < 16 ^ w) : value 16 (hexFixed w n) = n := by
  induction w generalizing n with
  | zero => simp at h; simp [h, value, hexFixed]
  | succ w ih =>
    have hdiv : n / 16 < 16 ^ w := Nat.div_lt_of_lt_mul (by rwa [pow_succ'] at h)
    have hrec : valueFrom 16 0 (hexFixed w (n / 16)) = n / 16 := ih hdiv
    rw [valueFrom] at hrec
    rw [value, hexFixed, valueFrom, List.foldl_append, hrec]
    simp only [List.foldl_cons, List.foldl_nil, digit?_upperDigit (Nat.mod_lt n (by omega : 16 > 0)), Option.getD_some]
    omega

/-! ### Bytes -/

def hexPair (b : UInt8) : List UInt8 := hexFixed 2 b.toNat

theorem hexPair_ofNat {a b : ℕ} (ha : a < 16) (hb : b < 16) :
    hexPair (UInt8.ofNat (a * 16 + b)) = [upperDigit a, upperDigit b] := by
  have hn : (UInt8.ofNat (a * 16 + b)).toNat = a * 16 + b := by
    rw [UInt8.toNat_ofNat']; omega
  rw [hexPair, hn]
  simp only [hexFixed, List.nil_append, List.singleton_append]
  rw [show (a * 16 + b) / 16 % 16 = a by omega, show (a * 16 + b) % 16 = b by omega]

theorem exists_hexPair (b : UInt8) : ∃ x < 16, ∃ y < 16, hexPair b = [upperDigit x, upperDigit y] ∧
    b = UInt8.ofNat (x * 16 + y) := by
  have hb := b.toNat_lt
  have heq : b = UInt8.ofNat (b.toNat / 16 * 16 + b.toNat % 16) := by
    rw [show b.toNat / 16 * 16 + b.toNat % 16 = b.toNat by omega, UInt8.ofNat_toNat]
  refine ⟨b.toNat / 16, by omega, b.toNat % 16, by omega, ?_, heq⟩
  rw [← hexPair_ofNat (by omega) (by omega), ← heq]

theorem map_upper_of_decodeHex {s bs : List UInt8} (h : decodeHex s = .ok bs) : s.map upper = bs.flatMap hexPair := by
  induction s using decodeHex.induct generalizing bs with
  | case1 => rw [decodeHex] at h; cases h; rfl
  | case2 c hc => simp [decodeHex, hc] at h
  | case3 c hc => simp [decodeHex, hc] at h
  | case4 p q s hp => simp [decodeHex, hp] at h
  | case5 p q s a hp hq => simp [decodeHex, hp, hq] at h
  | case6 p q s a hp b hq ih =>
    simp only [decodeHex, hp, hq] at h
    cases hs : decodeHex s with
    | error e => rw [hs] at h; cases h
    | ok t =>
      rw [hs] at h
      cases h
      have ha := digit?_lt hp
      have hb := digit?_lt hq
      rw [List.flatMap_cons, hexPair_ofNat ha hb, ← ih hs, List.map_cons, List.map_cons, (upper_eq_iff p ha).2 hp,
        (upper_eq_iff q hb).2 hq]
      rfl

theorem decodeHex_of_map_upper {s bs : List UInt8} (h : s.map upper = bs.flatMap hexPair) : decodeHex s = .ok bs := by
  induction bs generalizing s with
  | nil => rw [List.map_eq_nil_iff.1 h]; rfl
  | cons b bs ih =>
    obtain ⟨x, hx, y, hy, hpair, hb⟩ := exists_hexPair b
    rw [List.flatMap_cons, hpair] at h
    obtain ⟨p, s, rfl, hp, h⟩ := List.map_eq_cons_iff.1 h
    obtain ⟨q, s, rfl, hq, h⟩ := List.map_eq_cons_iff.1 h
    simp [decodeHex, (upper_eq_iff p hx).1 hp, (upper_eq_iff q hy).1 hq, ih h, Except.map, hb]

/-- `DecodeString` accepts what prints the bytes it returns, in either case. -/
theorem decodeHex_eq_ok {s bs : List UInt8} : decodeHex s = .ok bs ↔ s.map upper = bs.flatMap hexPair :=
  ⟨map_upper_of_decodeHex, decodeHex_of_map_upper⟩

theorem length_flatMap_hexPair (bs : List UInt8) : (bs.flatMap hexPair).length = 2 * bs.length := by
  induction bs with
  | nil => rfl
  | cons b bs ih => rw [List.flatMap_cons, List.length_append, ih, hexPair, length_hexFixed, List.length_cons]; ring

/-- It accepts the even numbers of digits. -/
theorem exists_decodeHex_iff {s : List UInt8} {n : ℕ} :
    (∃ bs, decodeHex s = .ok bs ∧ bs.length = n) ↔ s.length = 2 * n ∧ ∀ c ∈ s, (digit? 16 c).isSome := by
  constructor
  · rintro ⟨bs, h, rfl⟩
    have hmap := decodeHex_eq_ok.1 h
    refine ⟨by rw [← List.length_map upper, hmap, length_flatMap_hexPair], fun c hc => ?_⟩
    have hmem : upper c ∈ bs.flatMap hexPair := hmap ▸ List.mem_map_of_mem hc
    obtain ⟨b, -, hb⟩ := List.mem_flatMap.1 hmem
    obtain ⟨x, hx, y, hy, hpair, -⟩ := exists_hexPair b
    rw [hpair, List.mem_cons, List.mem_singleton] at hb
    rcases hb with hb | hb
    · rw [(upper_eq_iff c hx).1 hb]; rfl
    · rw [(upper_eq_iff c hy).1 hb]; rfl
  · rintro ⟨hlen, hall⟩
    induction n generalizing s with
    | zero => exact ⟨[], by rw [List.length_eq_zero_iff.1 hlen]; rfl, rfl⟩
    | succ n ih =>
      obtain ⟨p, q, s, rfl⟩ : ∃ p q t, s = p :: q :: t := by
        match s, hlen with
        | p :: q :: s, _ => exact ⟨p, q, s, rfl⟩
        | [_], h => simp at h; omega
      obtain ⟨a, ha⟩ := Option.isSome_iff_exists.1 (hall p (by simp))
      obtain ⟨b, hb⟩ := Option.isSome_iff_exists.1 (hall q (by simp))
      obtain ⟨bs, hbs, hn⟩ := ih (s := s) (by simp at hlen; omega) fun c hc => hall c (by simp [hc])
      exact ⟨UInt8.ofNat (a * 16 + b) :: bs, by simp [decodeHex, ha, hb, hbs, Except.map], by simp [hn]⟩

/-! ### Cutting -/

theorem cut_eq_some {sep : UInt8} {s a b : List UInt8} : cut sep s = some (a, b) ↔ s = a ++ sep :: b ∧ sep ∉ a := by
  induction s generalizing a with
  | nil => simp [cut]
  | cons c s ih =>
    by_cases hc : c = sep
    · subst hc
      have hcut : cut c (c :: s) = some ([], s) := by simp [cut]
      rw [hcut, Option.some.injEq, Prod.mk.injEq]
      constructor
      · rintro ⟨rfl, rfl⟩; simp
      · rintro ⟨h, hmem⟩
        cases a with
        | nil => simpa using h
        | cons x a => simp at h hmem; exact absurd h.1 hmem.1
    · have hcut : cut sep (c :: s) = (cut sep s).map fun r => (c :: r.1, r.2) := by
        simp only [cut, List.dropWhile_cons, List.takeWhile_cons, ne_eq, hc, not_false_eq_true, decide_true, if_true]
        cases s.dropWhile (· ≠ sep) <;> rfl
      rw [hcut, Option.map_eq_some_iff]
      constructor
      · rintro ⟨⟨a', b'⟩, h, heq⟩
        cases heq
        obtain ⟨rfl, hmem⟩ := ih.1 h
        exact ⟨rfl, by simp [hmem, Ne.symm hc]⟩
      · rintro ⟨h, hmem⟩
        cases a with
        | nil => simp at h; exact absurd h.1 hc
        | cons x a =>
          simp only [List.cons_append, List.cons.injEq] at h
          obtain ⟨rfl, h⟩ := h
          exact ⟨(a, b), ih.2 ⟨h, fun hm => hmem (List.mem_cons_of_mem _ hm)⟩, rfl⟩

end NumText
