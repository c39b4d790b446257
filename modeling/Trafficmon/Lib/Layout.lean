import Mathlib.Data.List.Basic
import Mathlib.Data.Vector.Basic
import Mathlib.Logic.Equiv.Defs
import Mathlib.Tactic.Common
import Mathlib.Tactic.Ring

/-!
# Fixed layouts

A `Layout α` lays a value out in a fixed number of bytes and reads it back; its fields say that the
two are inverse on lists of that length. Words are little-endian. `pair` and `map` put packed
records together field by field, `readAll` is an array of records, and `read` is Go's `binary.Read`
from a byte slice: the bytes after the value are left alone.
-/

/-- The `w` low bytes of `n`, least significant first. -/
def leBytes : ℕ → ℕ → List UInt8
  | 0, _ => []
  | w + 1, n => UInt8.ofNat n :: leBytes w (n / 256)

def leValue : List UInt8 → ℕ
  | [] => 0
  | b :: l => b.toNat + 256 * leValue l

@[simp] theorem length_leBytes (w n : ℕ) : (leBytes w n).length = w := by
  induction w generalizing n with
  | zero => rfl
  | succ w ih => simp [leBytes, ih]

theorem leValue_lt (l : List UInt8) : leValue l < 256 ^ l.length := by
  induction l with
  | nil => simp [leValue]
  | cons b l ih =>
    have hb : b.toNat < 256 := b.toNat_lt
    rw [leValue, List.length_cons, pow_succ]
    omega

theorem leValue_leBytes {w n : ℕ} (h : n < 256 ^ w) : leValue (leBytes w n) = n := by
  induction w generalizing n with
  | zero => simp at h; simp [leBytes, leValue, h]
  | succ w ih =>
    have hdiv : n / 256 < 256 ^ w := Nat.div_lt_of_lt_mul (by rwa [pow_succ'] at h)
    rw [leBytes, leValue, ih hdiv, UInt8.toNat_ofNat']
    omega

theorem leBytes_leValue (l : List UInt8) : leBytes l.length (leValue l) = l := by
  induction l with
  | nil => rfl
  | cons b l ih =>
    have hb : b.toNat < 256 := b.toNat_lt
    have hlow : UInt8.ofNat (b.toNat + 256 * leValue l) = b := by
      refine UInt8.toNat_inj.1 ?_
      rw [UInt8.toNat_ofNat']
      omega
    rw [leValue, List.length_cons, leBytes, hlow, show (b.toNat + 256 * leValue l) / 256 = leValue l by omega, ih]

structure Layout (α : Type*) where
  size : ℕ
  encode : α → List UInt8
  decode : List UInt8 → α
  length_encode : ∀ a, (encode a).length = size
  decode_encode : ∀ a, decode (encode a) = a
  encode_decode : ∀ l, l.length = size → encode (decode l) = l

namespace Layout
variable {α β : Type*}

attribute [simp] length_encode decode_encode

/-- A word of `w` bytes. -/
def word (w : ℕ) (toNat : α → ℕ) (ofNat : ℕ → α) (toNat_lt : ∀ a, toNat a < 256 ^ w)
    (ofNat_toNat : ∀ a, ofNat (toNat a) = a) (toNat_ofNat : ∀ n < 256 ^ w, toNat (ofNat n) = n) : Layout α where
  size := w
  encode a := leBytes w (toNat a)
  decode l := ofNat (leValue l)
  length_encode a := length_leBytes w _
  decode_encode a := by rw [leValue_leBytes (toNat_lt a), ofNat_toNat]
  encode_decode l h := by
    rw [toNat_ofNat _ (h ▸ leValue_lt l), ← h, leBytes_leValue]

def uint8 : Layout UInt8 :=
  word 1 UInt8.toNat UInt8.ofNat UInt8.toNat_lt (fun _ => UInt8.ofNat_toNat) fun _ h => UInt8.toNat_ofNat_of_lt' h

def uint16 : Layout UInt16 :=
  word 2 UInt16.toNat UInt16.ofNat UInt16.toNat_lt (fun _ => UInt16.ofNat_toNat) fun _ h => UInt16.toNat_ofNat_of_lt' h

def uint32 : Layout UInt32 :=
  word 4 UInt32.toNat UInt32.ofNat UInt32.toNat_lt (fun _ => UInt32.ofNat_toNat) fun _ h => UInt32.toNat_ofNat_of_lt' h

def uint64 : Layout UInt64 :=
  word 8 UInt64.toNat UInt64.ofNat UInt64.toNat_lt (fun _ => UInt64.ofNat_toNat) fun _ h => UInt64.toNat_ofNat_of_lt' h

/-- An array of bytes. -/
def bytes (n : ℕ) : Layout (Vector UInt8 n) where
  size := n
  encode := Vector.toList
  decode l := Vector.ofFn fun i => l.getD i 0
  length_encode v := v.length_toList
  decode_encode v := by
    ext i hi
    simp
  encode_decode l h := by
    refine List.ext_getElem (by simp [h]) fun i h1 h2 => ?_
    simp [h2]

/-- One field after the other, with nothing between. -/
def pair (A : Layout α) (B : Layout β) : Layout (α × β) where
  size := A.size + B.size
  encode p := A.encode p.1 ++ B.encode p.2
  decode l := (A.decode (l.take A.size), B.decode (l.drop A.size))
  length_encode p := by simp
  decode_encode p := by
    rw [List.take_left' (A.length_encode p.1), List.drop_left' (A.length_encode p.1), decode_encode, decode_encode]
  encode_decode l h := by
    rw [A.encode_decode _ (by rw [List.length_take]; omega), B.encode_decode _ (by rw [List.length_drop]; omega),
      List.take_append_drop]

def map (A : Layout α) (e : α ≃ β) : Layout β where
  size := A.size
  encode b := A.encode (e.symm b)
  decode l := e (A.decode l)
  length_encode b := A.length_encode _
  decode_encode b := by rw [decode_encode, Equiv.apply_symm_apply]
  encode_decode l h := by rw [Equiv.symm_apply_apply, A.encode_decode l h]

/-! ### Reading -/

inductive ReadError
  | eof
  | unexpectedEOF
deriving DecidableEq, Repr

/-- `binary.Read` from the start of `raw`. -/
def read (A : Layout α) (raw : List UInt8) : Except ReadError α :=
  if A.size ≤ raw.length then .ok (A.decode (raw.take A.size))
  else if raw = [] then .error .eof
  else .error .unexpectedEOF

variable (A : Layout α)

theorem read_encode_append (a : α) (rest : List UInt8) : A.read (A.encode a ++ rest) = .ok a := by
  rw [read, if_pos (by simp), List.take_left' (A.length_encode a), decode_encode]

/-- `n` records one after the other. -/
def readAll (A : Layout α) : ℕ → List UInt8 → List α
  | 0, _ => []
  | n + 1, l => A.decode (l.take A.size) :: readAll A n (l.drop A.size)

theorem readAll_encode (as : List α) (rest : List UInt8) :
    A.readAll as.length (as.flatMap A.encode ++ rest) = as := by
  induction as with
  | nil => rfl
  | cons a as ih =>
    rw [List.length_cons, readAll, List.flatMap_cons, List.append_assoc, List.take_left' (A.length_encode a),
      List.drop_left' (A.length_encode a), decode_encode, ih]

/-! ### Network order -/

/-- `ntohs` on a little-endian machine. -/
def swap16 (x : UInt16) : UInt16 := (x <<< 8) ||| (x >>> 8)

theorem toNat_swap16 (x : UInt16) : (swap16 x).toNat = x.toNat % 256 * 256 + x.toNat / 256 := by
  have hx := x.toNat_lt
  have hlow : x.toNat / 256 < 2 ^ 8 := by omega
  have hshift : x.toNat <<< 8 % 2 ^ 16 = 2 ^ 8 * (x.toNat % 256) := by
    rw [Nat.shiftLeft_eq]; omega
  rw [swap16, UInt16.toNat_or, UInt16.toNat_shiftLeft, UInt16.toNat_shiftRight]
  show x.toNat <<< 8 % 2 ^ 16 ||| x.toNat >>> 8 = _
  rw [hshift, Nat.shiftRight_eq_div_pow, ← Nat.two_pow_add_eq_or_of_lt hlow]
  omega

theorem swap16_eq {x p : UInt16} (h : uint16.encode x = (uint16.encode p).reverse) :
    swap16 x = p := by
  have hx := x.toNat_lt
  have hp := p.toNat_lt
  simp only [uint16, word, leBytes, List.reverse_cons, List.reverse_nil, List.nil_append,
    List.singleton_append, List.cons.injEq, and_true] at h
  have h1 := congrArg UInt8.toNat h.1
  have h2 := congrArg UInt8.toNat h.2
  rw [UInt8.toNat_ofNat', UInt8.toNat_ofNat', Nat.mod_eq_of_lt (show p.toNat / 256 < 2 ^ 8 by omega)] at h1
  rw [UInt8.toNat_ofNat', UInt8.toNat_ofNat', Nat.mod_eq_of_lt (show x.toNat / 256 < 2 ^ 8 by omega)] at h2
  refine UInt16.toNat_inj.1 ?_
  rw [toNat_swap16]
  omega

end Layout
