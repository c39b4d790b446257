import Mathlib.Algebra.Ring.Parity
import Mathlib.Data.List.Basic
import Mathlib.Data.List.OfFn
import Mathlib.Data.List.TakeWhile
import Mathlib.Tactic.IntervalCases

/-!
# IP addresses and their text

Go's `netip.Addr`: the zero value, an IPv4 address, or an IPv6 address with a zone. `string` is the
text `Addr.String` prints (dotted decimal; RFC 5952 fields with the first longest run of at least
two zero groups left out; `%zone`), and `string_injective` says no two addresses share a text.
-/

inductive Addr
  | invalid
  | v4 (b : Vector UInt8 4)
  | v6 (b : Vector UInt8 16) (zone : String)
deriving DecidableEq, Repr

namespace Addr

/-! ### Construction -/

/-- The address `a.b.c.d`. -/
def ipv4 (a b c d : UInt8) : Addr := .v4 #v[a, b, c, d]

/-- `AddrFromSlice`: only 4 and 16 bytes make an address. -/
def ofSlice (l : List UInt8) : Option Addr :=
  if h : l.length = 4 then some (.v4 ⟨l.toArray, by simpa using h⟩)
  else if h : l.length = 16 then some (.v6 ⟨l.toArray, by simpa using h⟩ "")
  else none

def mappedLead : List UInt8 := [0, 0, 0, 0, 0, 0, 0, 0, 0, 0, 0xff, 0xff]

def tail4 (b : Vector UInt8 16) : Vector UInt8 4 := #v[b[12], b[13], b[14], b[15]]

/-- `Unmap`: an IPv4-mapped IPv6 address becomes the IPv4 address, without its zone. -/
def unmap : Addr → Addr
  | .v6 b zone => if b.toList.take 12 = mappedLead then .v4 (tail4 b) else .v6 b zone
  | a => a

/-! ### Text -/

def chars4 (b : Vector UInt8 4) : List Char :=
  ['.'].intercalate (b.toList.map fun x => Nat.toDigits 10 x.toNat)

def groups (b : Vector UInt8 16) : List Nat :=
  List.ofFn fun i : Fin 8 => 256 * (b.get ⟨2 * i, by omega⟩).toNat + (b.get ⟨2 * i + 1, by omega⟩).toNat

/-- The groups `[start, end)` that `::` stands for: the first longest run of two or more zeros. -/
def zeroRun (g : List Nat) : Option (Nat × Nat) :=
  (List.range g.length).foldl (fun best i =>
    let l := ((g.drop i).takeWhile (· == 0)).length
    if 2 ≤ l ∧ (best.elim 0 fun r => r.2 - r.1) < l then some (i, i + l) else best) none

def hex (n : Nat) : List Char := Nat.toDigits 16 n

def orEmpty (l : List (List Char)) : List (List Char) := if l = [] then [[]] else l

/-- What stands between the colons: `::` shows as empty fields. -/
def fields (g : List Nat) : List (List Char) :=
  match zeroRun g with
  | none => g.map hex
  | some (s, e) => orEmpty ((g.take s).map hex) ++ [] :: orEmpty ((g.drop e).map hex)

def chars6 (b : Vector UInt8 16) : List Char :=
  if b.toList.take 12 = mappedLead then ':' :: ':' :: 'f' :: 'f' :: 'f' :: 'f' :: ':' :: chars4 (tail4 b)
  else [':'].intercalate (fields (groups b))

def zoneChars (zone : String) : List Char := if zone = "" then [] else '%' :: zone.toList

def chars : Addr → List Char
  | .invalid => "invalid IP".toList
  | .v4 b => chars4 b
  | .v6 b zone => chars6 b ++ zoneChars zone

def string (a : Addr) : String := String.ofList a.chars

example : (ipv4 192 168 1 10).string = "192.168.1.10" := by decide
example : (v6 #v[0x20, 1, 0xd, 0xb8, 0, 0, 0, 0, 0, 0, 0, 0, 0, 0, 0, 1] "").string = "2001:db8::1" := by decide
example : (v6 #v[0, 0, 0, 0, 0, 0, 0, 0, 0, 0, 0, 0, 0, 0, 0, 0] "").string = "::" := by decide
example : (v6 #v[0, 0, 0, 0, 0, 0, 0, 0, 0, 0, 0xff, 0xff, 1, 1, 1, 1] "en0").string = "::ffff:1.1.1.1%en0" := by
  decide

/-! ### Digits -/

theorem digitChar_injOn {m n : Nat} (hm : m < 16) (hn : n < 16) (h : m.digitChar = n.digitChar) : m = n := by
  revert h; interval_cases m <;> interval_cases n <;> decide

theorem digitChar_ne {n : Nat} (hn : n < 16) :
    n.digitChar ≠ '.' ∧ n.digitChar ≠ ':' ∧ n.digitChar ≠ '%' := by
  interval_cases n <;> decide

theorem exists_digit_of_mem {b n : Nat} (hb : 1 < b) {c : Char} (h : c ∈ Nat.toDigits b n) :
    ∃ d < b, c = d.digitChar := by
  induction n using Nat.strongRecOn with
  | ind n ih =>
    rw [Nat.toDigits_eq_if hb] at h
    split at h
    · exact ⟨n, ‹_›, List.mem_singleton.1 h⟩
    · rcases List.mem_append.1 h with h | h
      · exact ih (n / b) (Nat.div_lt_self (by omega) hb) h
      · exact ⟨n % b, Nat.mod_lt _ (by omega), List.mem_singleton.1 h⟩

theorem toDigits_injective {b : Nat} (hb : 1 < b) (hb' : b ≤ 16) {m n : Nat}
    (h : Nat.toDigits b m = Nat.toDigits b n) : m = n := by
  induction m using Nat.strongRecOn generalizing n with
  | ind m ih =>
    rw [Nat.toDigits_eq_if hb, Nat.toDigits_eq_if hb (n := n)] at h
    split at h <;> split at h
    · exact digitChar_injOn (by omega) (by omega) (List.singleton_inj.1 h)
    · have := congrArg List.length h
      simp at this
    · have := congrArg List.length h
      simp at this
    · obtain ⟨h1, h2⟩ := List.append_inj' h rfl
      have hd := ih (m / b) (Nat.div_lt_self (by omega) hb) h1
      have hr := digitChar_injOn ((Nat.mod_lt m (by omega : b > 0)).trans_le hb')
        ((Nat.mod_lt n (by omega : b > 0)).trans_le hb') (List.singleton_inj.1 h2)
      rw [← Nat.div_add_mod m b, ← Nat.div_add_mod n b, hd, hr]

theorem digits_notMem {b n : Nat} (hb : 1 < b) (hb' : b ≤ 16) :
    '.' ∉ Nat.toDigits b n ∧ ':' ∉ Nat.toDigits b n ∧ '%' ∉ Nat.toDigits b n := by
  refine ⟨fun h => ?_, fun h => ?_, fun h => ?_⟩ <;> obtain ⟨d, hd, hc⟩ := exists_digit_of_mem hb h
  · exact (digitChar_ne (hd.trans_le hb')).1 hc.symm
  · exact (digitChar_ne (hd.trans_le hb')).2.1 hc.symm
  · exact (digitChar_ne (hd.trans_le hb')).2.2 hc.symm

/-! ### Dotted decimal -/

theorem splitOn_chars4 (b : Vector UInt8 4) :
    (chars4 b).splitOn '.' = b.toList.map fun x => Nat.toDigits 10 x.toNat := by
  refine List.splitOn_intercalate '.' (fun l hl => ?_) fun hnil => ?_
  · obtain ⟨x, -, rfl⟩ := List.mem_map.1 hl
    exact (digits_notMem (by omega) (by omega)).1
  · have := congrArg List.length hnil
    simp at this

theorem chars4_injective {b c : Vector UInt8 4} (h : chars4 b = chars4 c) : b = c := by
  have hmap := (splitOn_chars4 b).symm.trans ((congrArg _ h).trans (splitOn_chars4 c))
  refine Vector.toList_inj.1 (List.map_injective_iff.2 (fun x y hxy => ?_) hmap)
  exact UInt8.toNat_inj.1 (toDigits_injective (by omega) (by omega) hxy)

/-! ### Zero runs -/

def IsRun (g : List Nat) (r : Nat × Nat) : Prop :=
  r.1 ≤ r.2 ∧ g.drop r.1 = List.replicate (r.2 - r.1) 0 ++ g.drop r.2

theorem eq_zeros_append_drop (g : List Nat) :
    g = List.replicate (g.takeWhile (· == 0)).length 0 ++ g.drop (g.takeWhile (· == 0)).length := by
  induction g with
  | nil => rfl
  | cons x g ih =>
    by_cases hx : x = 0
    · subst hx
      simpa [List.takeWhile_cons, List.replicate_succ] using ih
    · simp [hx]

theorem isRun_takeWhile (g : List Nat) (i : Nat) :
    IsRun g (i, i + ((g.drop i).takeWhile (· == 0)).length) := by
  refine ⟨Nat.le_add_right _ _, ?_⟩
  rw [Nat.add_sub_cancel_left, ← List.drop_drop]
  exact eq_zeros_append_drop _

theorem zeroRun_isRun {g : List Nat} {r : Nat × Nat} (h : zeroRun g = some r) : IsRun g r := by
  refine List.foldlRecOn (motive := fun best => ∀ r, best = some r → IsRun g r) (List.range g.length) _
    (by simp) (fun best hb i _ r hr => ?_) r h
  dsimp only at hr
  split at hr
  · rw [← Option.some.inj hr]; exact isRun_takeWhile g i
  · exact hb r hr

/-! ### Colon fields -/

/-- Reading the fields back: the groups before the first and after the last empty field, with the
zeros `::` stands for between them. -/
def expand (f : List (List Char)) : List (List Char) :=
  let pre := f.takeWhile (· ≠ [])
  let post := (f.reverse.takeWhile (· ≠ [])).reverse
  if pre.length = f.length then f
  else pre ++ List.replicate (8 - pre.length - post.length) (hex 0) ++ post

theorem takeWhile_orEmpty {a : List (List Char)} (ha : ∀ x ∈ a, x ≠ []) (r : List (List Char)) :
    (orEmpty a ++ [] :: r).takeWhile (· ≠ []) = a := by
  unfold orEmpty
  split
  · subst a; rfl
  · rw [List.takeWhile_append_of_pos (by simpa using ha)]; simp

theorem orEmpty_reverse (a : List (List Char)) : (orEmpty a).reverse = orEmpty a.reverse := by
  unfold orEmpty; by_cases h : a = [] <;> simp [h]

theorem hex_ne_nil {g : List Nat} : ∀ x ∈ g.map hex, x ≠ [] := by
  simp [hex]

theorem expand_orEmpty {a b : List (List Char)} (ha : ∀ x ∈ a, x ≠ []) (hb : ∀ x ∈ b, x ≠ []) :
    expand (orEmpty a ++ [] :: orEmpty b) = a ++ List.replicate (8 - a.length - b.length) (hex 0) ++ b := by
  have hpost : ((orEmpty a ++ [] :: orEmpty b).reverse.takeWhile (· ≠ [])).reverse = b := by
    rw [List.reverse_append, List.reverse_cons, List.append_assoc, orEmpty_reverse b, List.singleton_append,
      takeWhile_orEmpty (by simpa using hb), List.reverse_reverse]
  have hlen : a.length ≠ (orEmpty a ++ [] :: orEmpty b).length := by
    have : a.length ≤ (orEmpty a).length := by unfold orEmpty; split <;> simp_all
    simp only [List.length_append, List.length_cons]; omega
  simp only [expand, takeWhile_orEmpty ha, hpost, hlen, if_false]

theorem expand_fields {g : List Nat} (hg : g.length = 8) : expand (fields g) = g.map hex := by
  unfold fields
  split
  · rw [expand, if_pos]
    rw [List.takeWhile_eq_self_iff.2 (by simpa using hex_ne_nil (g := g))]
  · rename_i s e h
    obtain ⟨hse, hrun⟩ := zeroRun_isRun h
    rw [expand_orEmpty hex_ne_nil hex_ne_nil]
    have hlen := congrArg List.length hrun
    simp only [List.length_drop, List.length_append, List.length_replicate, hg] at hlen
    conv_rhs => rw [← List.take_append_drop s g, hrun]
    simp only [List.map_append, List.map_replicate, List.length_map, List.length_take, List.length_drop, hg,
      List.append_assoc]
    rw [show 8 - min s 8 - (8 - e) = e - s by omega]

theorem groups_injective {b c : Vector UInt8 16} (h : groups b = groups c) : b = c := by
  have hi := fun i => congrFun (List.ofFn_injective h) i
  have hget : ∀ i : Fin 8, b.get ⟨2 * i, by omega⟩ = c.get ⟨2 * i, by omega⟩ ∧
      b.get ⟨2 * i + 1, by omega⟩ = c.get ⟨2 * i + 1, by omega⟩ := fun i => by
    have := hi i
    have hlt := fun x : UInt8 => UInt8.toNat_lt x
    have h1 := hlt (b.get ⟨2 * i + 1, by omega⟩)
    have h2 := hlt (c.get ⟨2 * i + 1, by omega⟩)
    constructor <;> apply UInt8.toNat_inj.1 <;> omega
  refine Vector.ext fun j hj => ?_
  rcases Nat.even_or_odd' j with ⟨i, rfl | rfl⟩
  · exact (hget ⟨i, by omega⟩).1
  · exact (hget ⟨i, by omega⟩).2

theorem fields_notMem {g : List Nat} {x : List Char} (hx : x ∈ fields g) : '.' ∉ x ∧ ':' ∉ x ∧ '%' ∉ x := by
  have hhex : ∀ l : List Nat, ∀ x ∈ l.map hex, '.' ∉ x ∧ ':' ∉ x ∧ '%' ∉ x := by
    intro l x hx
    obtain ⟨n, -, rfl⟩ := List.mem_map.1 hx
    exact digits_notMem (by omega) (by omega)
  have horEmpty : ∀ l : List Nat, ∀ x ∈ orEmpty (l.map hex), '.' ∉ x ∧ ':' ∉ x ∧ '%' ∉ x := by
    intro l x hx
    unfold orEmpty at hx
    split at hx
    · rw [List.mem_singleton.1 hx]; simp
    · exact hhex l x hx
  unfold fields at hx
  split at hx
  · exact hhex g x hx
  · rcases List.mem_append.1 hx with hx | hx
    · exact horEmpty _ x hx
    · rcases List.mem_cons.1 hx with rfl | hx
      · simp
      · exact horEmpty _ x hx

theorem length_groups (b : Vector UInt8 16) : (groups b).length = 8 := by simp [groups]

theorem two_le_length_fields {g : List Nat} (hg : g.length = 8) : 2 ≤ (fields g).length := by
  unfold fields
  split
  · simp [hg]
  · have hpos : ∀ l, 1 ≤ (orEmpty l).length := fun l => by
      unfold orEmpty
      split
      · simp
      · exact List.length_pos_iff.2 ‹_›
    rename_i s e _
    have := hpos ((g.take s).map hex)
    simp only [List.length_append, List.length_cons]
    omega

theorem fields_ne_nil {g : List Nat} (hg : g.length = 8) : fields g ≠ [] := fun h => by
  have := two_le_length_fields hg
  simp [h] at this

theorem colons_injective {b c : Vector UInt8 16}
    (h : [':'].intercalate (fields (groups b)) = [':'].intercalate (fields (groups c))) : b = c := by
  have hsplit : ∀ d : Vector UInt8 16,
      ([':'].intercalate (fields (groups d))).splitOn ':' = fields (groups d) := fun d =>
    List.splitOn_intercalate ':' (fun _ hx => (fields_notMem hx).2.1) (fields_ne_nil (length_groups d))
  have hf : fields (groups b) = fields (groups c) := by rw [← hsplit b, h, hsplit c]
  have hmap : (groups b).map hex = (groups c).map hex := by
    rw [← expand_fields (length_groups b), hf, expand_fields (length_groups c)]
  exact groups_injective (List.map_injective_iff.2
    (fun m n hmn => toDigits_injective (by omega) (by omega) hmn) hmap)

/-! ### Whole addresses -/

theorem mem_intercalate {x c : Char} {ls : List (List Char)} (h : c ∈ [x].intercalate ls) :
    c = x ∨ ∃ l ∈ ls, c ∈ l := by
  induction ls with
  | nil => simp at h
  | cons l ls ih =>
    cases ls with
    | nil => exact .inr ⟨l, by simp, by simpa using h⟩
    | cons l' ls =>
      rw [List.intercalate_cons_cons] at h
      simp only [List.mem_append, List.mem_singleton] at h
      rcases h with (h | h) | h
      · exact .inr ⟨l, by simp, h⟩
      · exact .inl h
      · rcases ih h with h | ⟨l'', h1, h2⟩
        · exact .inl h
        · exact .inr ⟨l'', by simp [h1], h2⟩

theorem chars4_notMem (b : Vector UInt8 4) : ':' ∉ chars4 b ∧ '%' ∉ chars4 b := by
  refine ⟨fun h => ?_, fun h => ?_⟩ <;> rcases mem_intercalate h with h | ⟨l, hl, hc⟩
  · exact absurd h (by decide)
  · obtain ⟨x, -, rfl⟩ := List.mem_map.1 hl
    exact (digits_notMem (by omega) (by omega)).2.1 hc
  · exact absurd h (by decide)
  · obtain ⟨x, -, rfl⟩ := List.mem_map.1 hl
    exact (digits_notMem (by omega) (by omega)).2.2 hc

theorem dot_mem_chars4 (b : Vector UInt8 4) : '.' ∈ chars4 b := by
  obtain ⟨⟨l⟩, hl⟩ := b
  match l, hl with
  | [x, y, z, w], _ => simp [chars4, List.intercalate_cons_cons]

theorem colons_notMem (b : Vector UInt8 16) {c : Char} (hc : c = '.' ∨ c = '%') :
    c ∉ [':'].intercalate (fields (groups b)) := fun h => by
  rcases mem_intercalate h with rfl | ⟨l, hl, hcl⟩
  · rcases hc with hc | hc <;> exact absurd hc (by decide)
  · have := fields_notMem hl
    rcases hc with rfl | rfl
    · exact this.1 hcl
    · exact this.2.2 hcl

theorem percent_notMem_chars6 (b : Vector UInt8 16) : '%' ∉ chars6 b := by
  unfold chars6
  split
  · simpa using (chars4_notMem (tail4 b)).2
  · exact colons_notMem b (.inr rfl)

theorem toList_eq_of_mapped {b : Vector UInt8 16} (h : b.toList.take 12 = mappedLead) :
    b.toList = mappedLead ++ (tail4 b).toList := by
  rw [← h]
  obtain ⟨⟨l⟩, hl⟩ := b
  match l, hl with
  | [_, _, _, _, _, _, _, _, _, _, _, _, _, _, _, _], _ => rfl

theorem chars6_injective {b c : Vector UInt8 16} (h : chars6 b = chars6 c) : b = c := by
  have hdot : ∀ d, (d.toList.take 12 = mappedLead ↔ '.' ∈ chars6 d) := fun d => by
    unfold chars6
    split
    · simp [*, dot_mem_chars4]
    · simp [*, colons_notMem d (.inl rfl)]
  by_cases hb : b.toList.take 12 = mappedLead
  · have hc : c.toList.take 12 = mappedLead := (hdot c).2 (h ▸ (hdot b).1 hb)
    rw [chars6, chars6, if_pos hb, if_pos hc] at h
    have htail : tail4 b = tail4 c := chars4_injective (by simpa using h)
    refine Vector.toList_inj.1 ?_
    rw [toList_eq_of_mapped hb, toList_eq_of_mapped hc, htail]
  · have hc : ¬ c.toList.take 12 = mappedLead := fun hc => hb ((hdot b).2 (h ▸ (hdot c).1 hc))
    rw [chars6, chars6, if_neg hb, if_neg hc] at h
    exact colons_injective h

theorem zoneChars_injective {y z : String} (h : zoneChars y = zoneChars z) : y = z := by
  unfold zoneChars at h
  split at h <;> split at h <;> simp_all [String.toList_inj]

theorem append_zone_inj {a b : List Char} {y z : String} (ha : '%' ∉ a) (hb : '%' ∉ b)
    (h : a ++ zoneChars y = b ++ zoneChars z) : a = b ∧ y = z := by
  have htake : ∀ (a : List Char) (y : String), '%' ∉ a → (a ++ zoneChars y).takeWhile (· ≠ '%') = a := by
    intro a y ha
    rw [List.takeWhile_append_of_pos fun c hc => by simpa using fun e : c = '%' => ha (e ▸ hc)]
    unfold zoneChars
    split <;> simp
  have hab : a = b := by rw [← htake a y ha, h, htake b z hb]
  subst hab
  exact ⟨rfl, zoneChars_injective (List.append_cancel_left h)⟩

theorem colon_mem_chars6 (b : Vector UInt8 16) : ':' ∈ chars6 b := by
  unfold chars6
  split
  · simp
  · by_contra hc
    have hlen : (fields (groups b)).length = 1 := by
      rw [← List.splitOn_intercalate ':' (fun _ hx => (fields_notMem hx).2.1)
        (fields_ne_nil (length_groups b)), List.splitOn_eq_singleton hc]
      rfl
    have := two_le_length_fields (length_groups b)
    omega

/-- No two addresses print the same text. -/
theorem string_injective {a b : Addr} (h : a.string = b.string) : a = b := by
  have h := String.ofList_injective h
  have hinv : ':' ∉ "invalid IP".toList ∧ '.' ∉ "invalid IP".toList := by decide
  have hcolon : ∀ c z, ':' ∈ (v6 c z).chars := fun c z =>
    List.mem_append_left _ (colon_mem_chars6 c)
  have hdot : ∀ c, '.' ∈ (v4 c).chars := dot_mem_chars4
  match a, b with
  | .invalid, .invalid => rfl
  | .invalid, .v4 c => exact absurd (hdot c) (h ▸ hinv.2)
  | .invalid, .v6 c z => exact absurd (hcolon c z) (h ▸ hinv.1)
  | .v4 b, .invalid => exact absurd (hdot b) (h ▸ hinv.2)
  | .v4 b, .v4 c => rw [chars4_injective h]
  | .v4 b, .v6 c z => exact absurd (hcolon c z) (h ▸ (chars4_notMem b).1)
  | .v6 c z, .invalid => exact absurd (hcolon c z) (h ▸ hinv.1)
  | .v6 c z, .v4 b => exact absurd (hcolon c z) (h ▸ (chars4_notMem b).1)
  | .v6 b y, .v6 c z =>
    obtain ⟨hbc, rfl⟩ := append_zone_inj (percent_notMem_chars6 b) (percent_notMem_chars6 c) h
    rw [chars6_injective hbc]

@[simp] theorem string_inj {a b : Addr} : a.string = b.string ↔ a = b :=
  ⟨string_injective, fun h => h ▸ rfl⟩

end Addr
