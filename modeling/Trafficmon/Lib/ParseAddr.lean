import Trafficmon.Lib.Netip

/-!
# Reading IP addresses

`parseAddr` is Go's `netip.ParseAddr`: dotted decimal without leading zeros, or the colon-separated
fields of an IPv6 address with at most one `::`, a trailing dotted decimal and a zone. `net.ParseIP`
is the same without zones. What `Addr.string` prints of an IPv4 address is read back
(`parseAddr_v4`).
-/

namespace Addr

/-! ### Dotted decimal -/

def digit? (c : Char) : Option Nat :=
  if '0' ≤ c ∧ c ≤ '9' then some (c.toNat - '0'.toNat) else none

/-- A decimal field: at least one digit, no leading zero, at most 255. -/
def parseOctet (s : List Char) : Option UInt8 := do
  let ds ← s.mapM digit?
  let val := ds.foldl (fun v d => v * 10 + d) 0
  if ds = [] ∨ (1 < ds.length ∧ ds.head? = some 0) ∨ 255 < val then none else some (UInt8.ofNat val)

def parseIPv4Fields (s : List Char) : Option (List UInt8) := do
  let fields ← (s.splitOn '.').mapM parseOctet
  if fields.length = 4 then some fields else none

/-! ### Colon-separated fields -/

def hexDigit? (c : Char) : Option Nat :=
  if '0' ≤ c ∧ c ≤ '9' then some (c.toNat - '0'.toNat)
  else if 'a' ≤ c ∧ c ≤ 'f' then some (c.toNat - 'a'.toNat + 10)
  else if 'A' ≤ c ∧ c ≤ 'F' then some (c.toNat - 'A'.toNat + 10)
  else none

def hexBytes (s : List Char) : List UInt8 :=
  let acc := (s.filterMap hexDigit?).foldl (fun v d => v * 16 + d) 0
  [UInt8.ofNat (acc / 256), UInt8.ofNat acc]

/-- The fields of an IPv6 address, at most `n` more of them: `ip` are the bytes read so far, and
`ellipsis` says before which of them the `::` stood. -/
def parseGroups : Nat → List Char → List UInt8 → Option Nat → Option (List UInt8 × Option Nat)
  | 0, _, _, _ => none
  | n + 1, s, ip, ellipsis =>
    let digits := s.takeWhile fun c => (hexDigit? c).isSome
    let ip' := ip ++ hexBytes digits
    if digits = [] ∨ 4 < digits.length then none
    else match s.dropWhile fun c => (hexDigit? c).isSome with
      | '.' :: _ =>
        if (ellipsis = none ∧ ip.length ≠ 12) ∨ 16 < ip.length + 4 then none
        else (parseIPv4Fields s).map fun fields => (ip ++ fields, ellipsis)
      | [] => some (ip', ellipsis)
      | [':'] => none
      | ':' :: ':' :: s =>
        if ellipsis.isSome then none
        else if s = [] then some (ip', some ip'.length)
        else parseGroups n s ip' (some ip'.length)
      | ':' :: s => parseGroups n s ip' ellipsis
      | _ => none

/-- Fills the `::` up with zeros: it has to stand for at least one group. -/
def expandEllipsis : List UInt8 × Option Nat → Option (List UInt8)
  | (ip, none) => if ip.length = 16 then some ip else none
  | (ip, some e) => if ip.length < 16 then some (ip.take e ++ List.replicate (16 - ip.length) 0 ++ ip.drop e) else none

def withZone : Addr → String → Addr
  | .v6 b _, zone => .v6 b zone
  | a, _ => a

def parseIPv6 (s : List Char) : Option Addr := do
  let addr := s.takeWhile (· ≠ '%')
  let zone := s.dropWhile (· ≠ '%')
  if zone = ['%'] then none
  else
    let ip ← match addr with
      | [':', ':'] => some (List.replicate 16 0)
      | ':' :: ':' :: s => (parseGroups 8 s [] (some 0)).bind expandEllipsis
      | s => (parseGroups 8 s [] none).bind expandEllipsis
    (ofSlice ip).map (withZone · (String.ofList (zone.drop 1)))

def parseAddr (s : String) : Option Addr :=
  (s.toList.find? fun c => c = '.' ∨ c = ':' ∨ c = '%').bind fun c =>
    if c = '.' then (parseIPv4Fields s.toList).bind ofSlice
    else if c = ':' then parseIPv6 s.toList
    else none

/-! ### `net.IP` -/

/-- `net.ParseIP`: no zones. -/
def parseIP (s : String) : Option Addr :=
  (parseAddr s).filter fun
    | .v6 _ zone => zone = ""
    | _ => true

/-- `To4` of a parsed address gives one. -/
def isIPv4 (a : Addr) : Bool :=
  match a.unmap with
  | .v4 _ => true
  | _ => false

/-- `IsPrivate`: RFC 1918, and RFC 4193 for IPv6. -/
def isPrivate (a : Addr) : Bool :=
  match a.unmap with
  | .v4 b => b[0]! = 10 ∨ (b[0]! = 172 ∧ b[1]! &&& 0xf0 = 16) ∨ (b[0]! = 192 ∧ b[1]! = 168)
  | .v6 b _ => b[0]! &&& 0xfe = 0xfc
  | .invalid => false

theorem parseOctet_toDigits (x : UInt8) : parseOctet (Nat.toDigits 10 x.toNat) = some x := by
  have hall : ∀ n < 256, parseOctet (Nat.toDigits 10 n) = some (UInt8.ofNat n) := by decide +kernel
  rw [hall _ x.toNat_lt, UInt8.ofNat_toNat]

theorem mapM_parseOctet (l : List UInt8) : (l.map fun x => Nat.toDigits 10 x.toNat).mapM parseOctet = some l := by
  induction l with
  | nil => rfl
  | cons x l ih => simp [parseOctet_toDigits, ih]

theorem parseIPv4Fields_chars4 (b : Vector UInt8 4) : parseIPv4Fields (chars4 b) = some b.toList := by
  rw [parseIPv4Fields, splitOn_chars4, mapM_parseOctet]
  simp

/-- The first character that tells the families apart is a dot. -/
theorem find_chars4 (b : Vector UInt8 4) : (chars4 b).find? (fun c => c = '.' ∨ c = ':' ∨ c = '%') = some '.' := by
  obtain ⟨x, rest, hchars⟩ : ∃ x rest, chars4 b = Nat.toDigits 10 x ++ '.' :: rest := by
    match hb : b.toList, b.length_toList with
    | [w, x, y, z], _ => exact ⟨w.toNat, _, by rw [chars4, hb]; rfl⟩
  have hdigits : (Nat.toDigits 10 x).find? (fun c => c = '.' ∨ c = ':' ∨ c = '%') = none := by
    obtain ⟨hdot, hcolon, hzone⟩ := digits_notMem (b := 10) (n := x) (by omega) (by omega)
    refine List.find?_eq_none.2 fun c hc hsep => ?_
    rcases of_decide_eq_true hsep with rfl | rfl | rfl
    · exact hdot hc
    · exact hcolon hc
    · exact hzone hc
  rw [hchars, List.find?_append, hdigits, Option.none_or, List.find?_cons_of_pos (by decide)]

theorem ofSlice_toList (b : Vector UInt8 4) : ofSlice b.toList = some (.v4 b) := by
  rw [ofSlice, dif_pos (by simp)]
  rfl

theorem parseAddr_v4 (b : Vector UInt8 4) : parseAddr (Addr.v4 b).string = some (.v4 b) := by
  have hchars : (Addr.v4 b).string.toList = chars4 b := String.toList_ofList
  rw [parseAddr, hchars, find_chars4, Option.bind_some, if_pos rfl, parseIPv4Fields_chars4, Option.bind_some,
    ofSlice_toList]

theorem parseIP_v4 (b : Vector UInt8 4) : parseIP (Addr.v4 b).string = some (.v4 b) := by
  rw [parseIP, parseAddr_v4]
  rfl

example : parseAddr "2001:db8::1" = some (.v6 #v[0x20, 1, 0xd, 0xb8, 0, 0, 0, 0, 0, 0, 0, 0, 0, 0, 0, 1] "") := by
  decide +kernel
example : parseAddr "::ffff:1.1.1.1%en0" =
    some (.v6 #v[0, 0, 0, 0, 0, 0, 0, 0, 0, 0, 0xff, 0xff, 1, 1, 1, 1] "en0") := by
  decide +kernel
example : parseAddr "1:2:3:4:5:6:7:8::" = none ∧ parseAddr "01.2.3.4" = none ∧ parseAddr "" = none := by
  decide +kernel

end Addr
