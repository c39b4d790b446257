import Mathlib.Data.List.Basic
import Mathlib.Data.List.Infix
import Mathlib.Tactic.Common

/-!
# The runes of a string

A Go string is a list of bytes. `runes` is `[]rune(s)`: UTF-8 where it is, and U+FFFD for every byte
that belongs to no rune; `ofRunes` is the way back. A string may be cut into its runes wherever a rune
can start (`runes_append`), whatever else is in it.
-/

namespace GoString

/-- The rune at the start of a string. -/
def firstRune? (s : List UInt8) : Option Char := s.toByteArray.utf8DecodeChar? 0

/-- The runes after the next `skip` bytes, which belong to the last one. -/
def runesFrom : ℕ → List UInt8 → List Char
  | _, [] => []
  | skip + 1, _ :: s => runesFrom skip s
  | 0, b :: s =>
    match firstRune? (b :: s) with
    | some r => r :: runesFrom (r.utf8Size - 1) s
    | none => '\uFFFD' :: runesFrom 0 s

def runes (s : List UInt8) : List Char := runesFrom 0 s

def ofRunes (rs : List Char) : List UInt8 := rs.flatMap String.utf8EncodeChar

/-- No rune goes on with the first byte of `s`. -/
def Starts (s : List UInt8) : Prop := ∀ b ∈ s.head?, b.IsUTF8FirstByte

instance (s : List UInt8) : Decidable (Starts s) := inferInstanceAs (Decidable (∀ b ∈ s.head?, b.IsUTF8FirstByte))

section
variable {s t : List UInt8} {r : Char} {rs rs' : List Char}

theorem firstRune?_eq_some : firstRune? s = some r ↔ String.utf8EncodeChar r <+: s := by
  constructor
  · intro h
    obtain ⟨rest, hrest⟩ := ByteArray.exists_of_utf8DecodeChar?_eq_some h
    refine ⟨rest.data.toList, ?_⟩
    have hdata := congrArg (fun b : ByteArray => b.data.toList) hrest
    simpa using hdata.symm
  · rintro ⟨t, rfl⟩
    rw [firstRune?, List.toByteArray_append]
    exact ByteArray.utf8DecodeChar?_utf8EncodeChar_append

theorem runesFrom_eq (skip : ℕ) (s : List UInt8) : runesFrom skip s = runes (s.drop skip) := by
  induction skip generalizing s with
  | zero => rfl
  | succ skip ih =>
    cases s with
    | nil => rfl
    | cons b s => exact ih s

theorem runes_cons_of_none {b : UInt8} (h : firstRune? (b :: s) = none) : runes (b :: s) = '\uFFFD' :: runes s := by
  rw [runes, runesFrom, h]
  rfl

@[simp]
theorem runes_encode_append (r : Char) (t : List UInt8) : runes (String.utf8EncodeChar r ++ t) = r :: runes t := by
  have hfirst : firstRune? (String.utf8EncodeChar r ++ t) = some r := firstRune?_eq_some.2 (List.prefix_append _ _)
  have hlen : (String.utf8EncodeChar r).length = r.utf8Size := String.length_utf8EncodeChar r
  have hpos := r.utf8Size_pos
  cases henc : String.utf8EncodeChar r with
  | nil =>
    rw [henc, List.length_nil] at hlen
    omega
  | cons b bs =>
    rw [henc, List.length_cons] at hlen
    rw [henc] at hfirst
    rw [List.cons_append] at hfirst ⊢
    rw [runes, runesFrom, hfirst]
    dsimp only
    rw [runesFrom_eq, List.drop_left' (by omega)]

@[simp]
theorem runes_ofRunes_append (rs : List Char) (t : List UInt8) : runes (ofRunes rs ++ t) = rs ++ runes t := by
  induction rs with
  | nil => rfl
  | cons r rs ih =>
    rw [ofRunes, List.flatMap_cons, List.append_assoc, runes_encode_append, List.cons_append]
    exact congrArg _ ih

@[simp]
theorem runes_ofRunes (rs : List Char) : runes (ofRunes rs) = rs := by
  have h := runes_ofRunes_append rs []
  rwa [List.append_nil, show runes [] = [] from rfl, List.append_nil] at h

theorem ofRunes_append (rs rs' : List Char) : ofRunes (rs ++ rs') = ofRunes rs ++ ofRunes rs' := List.flatMap_append

/-- Where no rune starts, none starts with more bytes behind either, unless they begin in the middle of one. -/
theorem firstRune?_append_eq_none (hs : s ≠ []) (hno : firstRune? s = none) (ht : Starts t) :
    firstRune? (s ++ t) = none := by
  rw [Option.eq_none_iff_forall_ne_some]
  intro r hr
  have hpre := firstRune?_eq_some.1 hr
  rcases le_total (String.utf8EncodeChar r).length s.length with hle | hle
  · have hfits := List.prefix_of_prefix_length_le hpre (List.prefix_append s t) hle
    rw [firstRune?_eq_some.2 hfits] at hno
    cases hno
  · -- the encoding reaches into `t`, and `t` would begin with one of its later bytes
    obtain ⟨u, hu⟩ := List.prefix_of_prefix_length_le (List.prefix_append s t) hpre hle
    rw [← hu, List.prefix_append_right_inj] at hpre
    cases u with
    | nil =>
      rw [List.append_nil] at hu
      rw [hu, firstRune?_eq_some.2 List.prefix_rfl] at hno
      cases hno
    | cons b u =>
      obtain ⟨t', rfl⟩ := hpre
      have hb : b.IsUTF8FirstByte := ht b rfl
      have hlt : s.length < (String.utf8EncodeChar r).length := by
        rw [← hu, List.length_append, List.length_cons]
        omega
      have hat : (String.utf8EncodeChar r)[s.length] = b := by
        simp [← hu]
      rw [← hat, UInt8.isUTF8FirstByte_getElem_utf8EncodeChar] at hb
      exact hs (List.length_eq_zero_iff.1 hb)

theorem runes_append (s : List UInt8) (ht : Starts t) : runes (s ++ t) = runes s ++ runes t := by
  induction hn : s.length using Nat.strong_induction_on generalizing s with
  | _ n ih =>
    cases s with
    | nil => rfl
    | cons b s =>
      cases hfirst : firstRune? (b :: s) with
      | none =>
        have hno : firstRune? (b :: (s ++ t)) = none := firstRune?_append_eq_none (List.cons_ne_nil b s) hfirst ht
        rw [List.cons_append, runes_cons_of_none hno, runes_cons_of_none hfirst, List.cons_append]
        refine congrArg _ (ih s.length ?_ s rfl)
        rw [← hn, List.length_cons]
        omega
      | some r =>
        obtain ⟨s', hs'⟩ := firstRune?_eq_some.1 hfirst
        have hlt : s'.length < n := by
          have hlen := congrArg List.length hs'
          have hpos := r.utf8Size_pos
          rw [List.length_append, String.length_utf8EncodeChar] at hlen
          omega
        rw [← hs', List.append_assoc, runes_encode_append, runes_encode_append, ih s'.length hlt s' rfl]
        rfl

end

end GoString
