import Trafficmon.Lib.NumText
import Trafficmon.Lib.Runes

/-!
# Words and lines

Go's `strings.Fields` and `bufio.Scanner` over the bytes of a text, and decimal numerals. `fields_spread`
and `scanLines_unlines` read back what was written: words with blanks between and around them, and
lines that each fit the scanner's buffer.
-/

namespace GoString

/-- `unicode.IsSpace`. -/
def isSpace (r : Char) : Bool :=
  let n := r.toNat
  (9 ≤ n ∧ n ≤ 13) ∨ n ∈ [0x20, 0x85, 0xa0, 0x1680, 0x2028, 0x2029, 0x202f, 0x205f, 0x3000] ∨
    (0x2000 ≤ n ∧ n ≤ 0x200a)

/-- How many bytes of white space a text starts with, of one rune. -/
def spaceSize (s : List UInt8) : ℕ :=
  match firstRune? s with
  | some r => if isSpace r then r.utf8Size else 0
  | none => 0

/-- The fields after the next `skip` bytes, with `cur` the field under way. -/
def fieldsFrom : ℕ → List UInt8 → List UInt8 → List (List UInt8)
  | _, cur, [] => if cur = [] then [] else [cur]
  | skip + 1, cur, _ :: s => fieldsFrom skip cur s
  | 0, cur, b :: s =>
    match spaceSize (b :: s) with
    | 0 => fieldsFrom 0 (cur ++ [b]) s
    | n + 1 => if cur = [] then fieldsFrom n [] s else cur :: fieldsFrom n [] s

/-- `strings.Fields`. -/
def fields (s : List UInt8) : List (List UInt8) := fieldsFrom 0 [] s

/-! ### Words -/

def blank : UInt8 := 0x20

/-- Visible ASCII. -/
def IsWord (w : List UInt8) : Prop := w ≠ [] ∧ ∀ b ∈ w, 0x21 ≤ b ∧ b ≤ 0x7e

instance (w : List UInt8) : Decidable (IsWord w) :=
  -- by the bytes of `w`, not by all there are
  have := List.decidableBAll (fun b : UInt8 => 0x21 ≤ b ∧ b ≤ 0x7e) w
  inferInstanceAs (Decidable (_ ∧ _))

def blanks (n : ℕ) : List UInt8 := List.replicate n blank

/-- The words, each behind one blank and as many more as it asks for. -/
def spread (ws : List (ℕ × List UInt8)) : List UInt8 := ws.flatMap fun w => blank :: blanks w.1 ++ w.2

section
variable {b : UInt8} {s cur w : List UInt8}

theorem firstRune?_ascii (h : b < 0x80) (s : List UInt8) : firstRune? (b :: s) = some (Char.ofNat b.toNat) := by
  have hall : ∀ n < 128, String.utf8EncodeChar (Char.ofNat n) = [UInt8.ofNat n] := by decide
  have hb : b.toNat < 128 := UInt8.lt_iff_toNat_lt.1 h
  rw [firstRune?_eq_some, hall b.toNat hb, UInt8.ofNat_toNat]
  exact List.prefix_append [b] s

theorem spaceSize_visible (h : 0x21 ≤ b ∧ b ≤ 0x7e) (s : List UInt8) : spaceSize (b :: s) = 0 := by
  have hall : ∀ n < 128, 0x21 ≤ n ∧ n ≤ 0x7e → isSpace (Char.ofNat n) = false := by decide
  have h1 : 0x21 ≤ b.toNat := UInt8.le_iff_toNat_le.1 h.1
  have h2 : b.toNat ≤ 0x7e := UInt8.le_iff_toNat_le.1 h.2
  have hascii : b < 0x80 := UInt8.lt_iff_toNat_lt.2 (show b.toNat < 0x80 by omega)
  rw [spaceSize, firstRune?_ascii hascii]
  simp [hall b.toNat (by omega) ⟨h1, h2⟩]

theorem spaceSize_blank (s : List UInt8) : spaceSize (blank :: s) = 1 := by
  rw [spaceSize, firstRune?_ascii (by decide)]
  rfl

theorem fieldsFrom_blank_nil (s : List UInt8) : fieldsFrom 0 [] (blank :: s) = fieldsFrom 0 [] s := by
  rw [fieldsFrom, spaceSize_blank]
  rfl

theorem fieldsFrom_blank (h : cur ≠ []) (s : List UInt8) : fieldsFrom 0 cur (blank :: s) = cur :: fields s := by
  rw [fieldsFrom, spaceSize_blank]
  simp [h, fields]

theorem fieldsFrom_visible (h : ∀ b ∈ w, 0x21 ≤ b ∧ b ≤ 0x7e) (cur s : List UInt8) :
    fieldsFrom 0 cur (w ++ s) = fieldsFrom 0 (cur ++ w) s := by
  induction w generalizing cur with
  | nil => simp
  | cons b w ih =>
    rw [List.cons_append, fieldsFrom, spaceSize_visible (h b List.mem_cons_self)]
    rw [show cur ++ b :: w = cur ++ [b] ++ w by simp]
    exact ih (fun b hb => h b (List.mem_cons_of_mem _ hb)) (cur ++ [b])

theorem fields_blanks (n : ℕ) (s : List UInt8) : fields (blanks n ++ s) = fields s := by
  induction n with
  | zero => rfl
  | succ n ih =>
    rw [blanks, List.replicate_succ, List.cons_append]
    exact (fieldsFrom_blank_nil _).trans ih

theorem fields_word_spread (h : IsWord w) {ws : List (ℕ × List UInt8)} (hws : ∀ x ∈ ws, IsWord x.2) (n : ℕ) :
    fields (w ++ (spread ws ++ blanks n)) = w :: ws.map (·.2) := by
  induction ws generalizing w with
  | nil =>
    rw [fields, fieldsFrom_visible h.2, List.nil_append, spread, List.flatMap_nil, List.nil_append]
    cases n with
    | zero => simp [blanks, fieldsFrom, h.1]
    | succ n =>
      rw [blanks, List.replicate_succ, fieldsFrom_blank h.1]
      have := fields_blanks n []
      rw [List.append_nil] at this
      rw [show List.replicate n blank = blanks n from rfl, this]
      rfl
  | cons x ws ih =>
    have hx := hws x List.mem_cons_self
    have htail : spread (x :: ws) ++ blanks n = blank :: (blanks x.1 ++ (x.2 ++ (spread ws ++ blanks n))) := by
      simp [spread]
    rw [fields, fieldsFrom_visible h.2, List.nil_append, htail, fieldsFrom_blank h.1, fields_blanks,
      ih hx fun y hy => hws y (List.mem_cons_of_mem _ hy), List.map_cons]

/-- The fields of a line of words, with blanks before, between and behind them. -/
theorem fields_spread (h : IsWord w) {ws : List (ℕ × List UInt8)} (hws : ∀ x ∈ ws, IsWord x.2) (m n : ℕ) :
    fields (blanks m ++ (w ++ (spread ws ++ blanks n))) = w :: ws.map (·.2) := by
  rw [fields_blanks, fields_word_spread h hws]

end

/-! ### Lines -/

def newline : UInt8 := 0x0a

/-- What stands between the newlines, `cur` being the line under way; nothing after the last is no line. -/
def linesFrom : List UInt8 → List UInt8 → List (List UInt8)
  | cur, [] => if cur = [] then [] else [cur]
  | cur, b :: s => if b = newline then cur :: linesFrom [] s else linesFrom (cur ++ [b]) s

def dropCR (l : List UInt8) : List UInt8 := if l.getLast? = some 0x0d then l.dropLast else l

/-- `bufio.MaxScanTokenSize`. -/
def maxScanTokenSize : ℕ := 64 * 1024

/-- The lines a `bufio.Scanner` gives, and whether it got through: it ends at a line that fills its
buffer. -/
def scanLines (s : List UInt8) : List (List UInt8) × Bool :=
  let lines := linesFrom [] s
  ((lines.takeWhile (·.length < maxScanTokenSize)).map dropCR, lines.all (·.length < maxScanTokenSize))

def unlines (ls : List (List UInt8)) : List UInt8 := ls.flatMap (· ++ [newline])

/-- A line that is read back: no newline in it, no carriage return at its end, and not too long. -/
structure IsLine (l : List UInt8) : Prop where
  noNewline : newline ∉ l
  noCR : l.getLast? ≠ some 0x0d
  short : l.length < maxScanTokenSize

theorem linesFrom_line {l : List UInt8} (h : newline ∉ l) (cur s : List UInt8) :
    linesFrom cur (l ++ newline :: s) = (cur ++ l) :: linesFrom [] s := by
  induction l generalizing cur with
  | nil => simp [linesFrom]
  | cons b l ih =>
    rw [List.mem_cons, not_or] at h
    rw [List.cons_append, linesFrom, if_neg (Ne.symm h.1), ih h.2]
    simp

theorem linesFrom_unlines {ls : List (List UInt8)} (h : ∀ l ∈ ls, newline ∉ l) : linesFrom [] (unlines ls) = ls := by
  induction ls with
  | nil => rfl
  | cons l ls ih =>
    rw [unlines, List.flatMap_cons, List.append_assoc, List.singleton_append, linesFrom_line (h l List.mem_cons_self),
      List.nil_append]
    exact congrArg _ (ih fun l hl => h l (List.mem_cons_of_mem _ hl))

theorem scanLines_unlines {ls : List (List UInt8)} (h : ∀ l ∈ ls, IsLine l) : scanLines (unlines ls) = (ls, true) := by
  have hshort : ∀ l ∈ ls, decide (l.length < maxScanTokenSize) = true := fun l hl => decide_eq_true (h l hl).short
  have hcr : ls.map dropCR = ls :=
    (List.map_congr_left fun l hl => (if_neg (h l hl).noCR : dropCR l = l)).trans (List.map_id' ls)
  simp only [scanLines]
  rw [linesFrom_unlines fun l hl => (h l hl).noNewline, List.takeWhile_eq_self_iff.2 hshort, hcr,
    List.all_eq_true.2 hshort]

end GoString

namespace NumText

/-- `%d`. -/
def dec (n : ℕ) : List UInt8 := (Nat.toDigits 10 n).map fun c => UInt8.ofNat c.toNat

theorem dec_eq (n : ℕ) : dec n = if n < 10 then [UInt8.ofNat (0x30 + n)] else dec (n / 10) ++ dec (n % 10) := by
  have hd : ∀ d < 10, UInt8.ofNat (Nat.digitChar d).toNat = UInt8.ofNat (0x30 + d) := by decide
  rw [dec, Nat.toDigits_eq_if (by omega)]
  split_ifs with h
  · simp [hd n h]
  · simp [dec, Nat.toDigits_of_lt_base (Nat.mod_lt n (by omega : 10 > 0))]

theorem digit?_dec {d : ℕ} (h : d < 10) : digit? 10 (UInt8.ofNat (0x30 + d)) = some d := by
  revert d
  decide

theorem dec_spec (n : ℕ) : dec n ≠ [] ∧ (∀ c ∈ dec n, (digit? 10 c).isSome ∧ 0x30 ≤ c ∧ c ≤ 0x39) ∧
    ∀ m, valueFrom 10 m (dec n) = m * 10 ^ (dec n).length + n := by
  induction n using Nat.strongRecOn with
  | ind n ih =>
    rw [dec_eq]
    split_ifs with h
    · have hc : ∀ d < 10, 0x30 ≤ UInt8.ofNat (0x30 + d) ∧ UInt8.ofNat (0x30 + d) ≤ 0x39 := by decide
      refine ⟨by simp, fun c hc' => ?_, fun m => ?_⟩
      · rw [List.mem_singleton.1 hc']
        exact ⟨by rw [digit?_dec h]; rfl, hc n h⟩
      · rw [valueFrom_cons (digit?_dec h)]
        simp
    · obtain ⟨hne, hdig, hval⟩ := ih (n / 10) (by omega)
      obtain ⟨-, hdig', hval'⟩ := ih (n % 10) (by omega)
      refine ⟨by simp [hne], fun c hc => ?_, fun m => ?_⟩
      · rcases List.mem_append.1 hc with hc | hc
        · exact hdig c hc
        · exact hdig' c hc
      · have hone : (dec (n % 10)).length = 1 := by
          rw [dec_eq, if_pos (Nat.mod_lt n (by omega))]
          rfl
        rw [valueFrom, List.foldl_append, ← valueFrom, ← valueFrom, hval, hval', List.length_append, hone, pow_succ]
        have := Nat.div_add_mod n 10
        ring_nf
        omega

/-- `ParseUint` reads back what `%d` writes. -/
theorem parseUint_dec {bitSize n : ℕ} (h : n < 2 ^ bitSize) : parseUint 10 bitSize (dec n) = .ok n := by
  obtain ⟨hne, hdig, hval⟩ := dec_spec n
  refine (parseUint_eq_ok (by omega)).2 ⟨hne, fun c hc => (hdig c hc).1, ?_, h⟩
  rw [value, hval]
  omega

end NumText
