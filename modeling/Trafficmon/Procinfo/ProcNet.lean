import Trafficmon.Lib.NumText
import Trafficmon.Procinfo.Ebpf

/-!
# The tables under `/proc/net` (`procinfo/libproc_linux.go`)

The kernel prints an address as 32-bit words in the machine's little-endian order (`kernelAddr`) and
`parseHexAddrPort` turns each word around again. `Encodes s a p` says that `s` is the text of the
address bytes `a` and the port `p`, up to the case of the letters and the zeros before the port;
`parseHexAddrPort_eq_ok` that these are exactly the texts read, and read as that. Texts are the bytes
of a Go string.
-/

namespace Trafficmon
open NumText

inductive ParseHexAddrPortError
  | malformed (s : List UInt8)
  | port (portHex : List UInt8) (err : NumError)
  | address (addrHex : List UInt8) (err : HexError)
  | size (addrHex : List UInt8) (n : ℕ)
deriving DecidableEq, Repr

/-- Reads one `ADDRHEX:PORTHEX` field. -/
def parseHexAddrPort (s : List UInt8) : Except ParseHexAddrPortError (Addr × UInt16) :=
  match cut 0x3a s with
  | none => .error (.malformed s)
  | some (addrHex, portHex) =>
    match parseUint 16 16 portHex with
    | .error err => .error (.port portHex err)
    | .ok port =>
      match decodeHex addrHex with
      | .error err => .error (.address addrHex err)
      | .ok raw =>
        if raw.length = 4 then .ok (.v4 #v[raw[3]!, raw[2]!, raw[1]!, raw[0]!], UInt16.ofNat port)
        else if raw.length = 16 then
          let b := Vector.ofFn fun i : Fin 16 => raw[i.val / 4 * 4 + (3 - i.val % 4)]!
          .ok ((Addr.v6 b "").unmap, UInt16.ofNat port)
        else .error (.size addrHex raw.length)

structure ProcNetEntry where
  localAddr : Addr
  localPort : UInt16
  remoteAddr : Addr
  remotePort : UInt16
  proto : SockProto
  state : String
deriving DecidableEq, Repr

/-- One line of a table, as the fields it is split into. -/
def procNetRow (proto : SockProto) (fields : List (List UInt8)) : Option (UInt64 × ProcNetEntry) :=
  if fields.length < 10 then none
  else
    match parseHexAddrPort fields[1]! with
    | .error _ => none
    | .ok (localAddr, localPort) =>
      match parseHexAddrPort fields[2]! with
      | .error _ => none
      | .ok (remoteAddr, remotePort) =>
        match parseUint 10 64 fields[9]! with
        | .error _ => none
        | .ok inode =>
          let entry state := (UInt64.ofNat inode, ⟨localAddr, localPort, remoteAddr, remotePort, proto, state⟩)
          if inode = 0 then none
          else
            match proto with
            | .tcp =>
              match parseUint 16 8 fields[3]! with
              | .error _ => none
              | .ok st => some (entry (tcpStateName st))
            | .udp => some (entry "")

/-- Reads the lines after the header into `out`, by inode. -/
def parseProcNetFile (proto : SockProto) (rows : List (List (List UInt8))) (out : GoMap UInt64 ProcNetEntry) :
    GoMap UInt64 ProcNetEntry :=
  rows.foldl (fun out fields => (procNetRow proto fields).elim out fun e => out.insert e.1 e.2) out

/-- The four tables, one after the other; one that is missing has no lines. -/
def readProcNet (tcp tcp6 udp udp6 : List (List (List UInt8))) : GoMap UInt64 ProcNetEntry :=
  [(SockProto.tcp, tcp), (.tcp, tcp6), (.udp, udp), (.udp, udp6)].foldl (fun out f => parseProcNetFile f.1 f.2 out) ∅

/-! ### The kernel's text -/

def littleEndian : List UInt8 → ℕ
  | [] => 0
  | x :: l => x.toNat + 256 * littleEndian l

/-- `%08X` of every 32-bit word of an address. -/
def kernelAddr : List UInt8 → List UInt8
  | x :: y :: z :: w :: l => hexFixed 8 (littleEndian [x, y, z, w]) ++ kernelAddr l
  | _ => []

def kernelAddrPort (a : List UInt8) (port : UInt16) : List UInt8 := kernelAddr a ++ 0x3a :: hexFixed 4 port.toNat

def IsAddr (a : List UInt8) : Prop := a.length = 4 ∨ a.length = 16

/-- `s` is the kernel's text of `a` and `port`, but for the letters' case and the port's leading zeros. -/
def Encodes (s a : List UInt8) (port : UInt16) : Prop :=
  IsAddr a ∧ ∃ addrHex portHex, s = addrHex ++ 0x3a :: portHex ∧ addrHex.map upper = kernelAddr a ∧
    portHex ≠ [] ∧ (∀ c ∈ portHex, (digit? 16 c).isSome) ∧ value 16 portHex = port.toNat

/-- 8 or 32 hex digits, a colon, and a hex numeral of at most `0xFFFF`. -/
def IsAddrPort (s : List UInt8) : Prop :=
  ∃ addrHex portHex, s = addrHex ++ 0x3a :: portHex ∧ (addrHex.length = 8 ∨ addrHex.length = 32) ∧
    (∀ c ∈ addrHex, (digit? 16 c).isSome) ∧ portHex ≠ [] ∧ (∀ c ∈ portHex, (digit? 16 c).isSome) ∧
    value 16 portHex ≤ 0xFFFF

/-! ### Words turned around -/

def swapWords : List UInt8 → List UInt8
  | x :: y :: z :: w :: l => w :: z :: y :: x :: swapWords l
  | _ => []

theorem hexFixed_littleEndian (x y z w : UInt8) :
    hexFixed 8 (littleEndian [x, y, z, w]) = hexPair w ++ hexPair z ++ hexPair y ++ hexPair x := by
  have hx := x.toNat_lt
  have hy := y.toNat_lt
  have hz := z.toNat_lt
  have hw := w.toNat_lt
  simp only [littleEndian, hexFixed_add_two 6, hexFixed_add_two 4, hexFixed_add_two 2, hexPair]
  congr 1
  · congr 1
    · congr 1
      · congr 1; omega
      · congr 1; omega
    · congr 1; omega
  · congr 1; omega

theorem kernelAddr_eq (a : List UInt8) : kernelAddr a = (swapWords a).flatMap hexPair := by
  induction a using kernelAddr.induct with
  | case1 x y z w l ih => simp [kernelAddr, swapWords, hexFixed_littleEndian, ih]
  | case2 l h => rw [kernelAddr, swapWords, List.flatMap_nil] <;> exact h

theorem IsAddr.dvd {a : List UInt8} (h : IsAddr a) : 4 ∣ a.length := by
  rcases h with h | h <;> omega

theorem swapWords_short {l : List UInt8} (hl : ∀ x y z w l', l = x :: y :: z :: w :: l' → False) (h : 4 ∣ l.length) :
    l = [] := by
  match l, h with
  | [], _ => rfl
  | [_], h => simp at h
  | [_, _], h => revert h; simp
  | [_, _, _], h => revert h; simp
  | x :: y :: z :: w :: l, _ => exact (hl x y z w l rfl).elim

theorem swapWords_swapWords {a : List UInt8} (h : 4 ∣ a.length) : swapWords (swapWords a) = a := by
  induction a using swapWords.induct with
  | case1 x y z w l ih =>
    simp only [swapWords, ih ((Nat.dvd_add_left (dvd_refl 4)).1 (by simpa using h))]
  | case2 l hl => rw [swapWords_short hl h]; rfl

theorem getElem?_swapWords {a : List UInt8} (h : 4 ∣ a.length) (i : ℕ) :
    (swapWords a)[i]? = a[i / 4 * 4 + (3 - i % 4)]? := by
  induction a using swapWords.induct generalizing i with
  | case1 x y z w l ih =>
    match i with
    | 0 | 1 | 2 | 3 => rfl
    | i + 4 =>
      have hl : 4 ∣ l.length := (Nat.dvd_add_left (dvd_refl 4)).1 (by simpa using h)
      rw [show (i + 4) / 4 * 4 + (3 - (i + 4) % 4) = (i / 4 * 4 + (3 - i % 4)) + 4 by omega]
      exact ih hl i
  | case2 l hl => rw [swapWords_short hl h]; rfl

@[simp] theorem length_swapWords {a : List UInt8} (h : 4 ∣ a.length) : (swapWords a).length = a.length := by
  induction a using swapWords.induct with
  | case1 x y z w l ih =>
    simp only [swapWords, List.length_cons, ih ((Nat.dvd_add_left (dvd_refl 4)).1 (by simpa using h))]
  | case2 l hl => rw [swapWords_short hl h]; rfl

theorem isAddr_swapWords {a : List UInt8} (h : IsAddr a) : IsAddr (swapWords a) := by
  unfold IsAddr; rwa [length_swapWords h.dvd]

/-! ### What is read -/

theorem ofSlice_swapWords_four {raw : List UInt8} (h : raw.length = 4) :
    Addr.ofSlice (swapWords raw) = some (.v4 #v[raw[3]!, raw[2]!, raw[1]!, raw[0]!]) := by
  match raw, h with
  | [_, _, _, _], _ => rfl

theorem ofSlice_swapWords_sixteen {raw : List UInt8} (h : raw.length = 16) :
    Addr.ofSlice (swapWords raw) =
      some (.v6 (Vector.ofFn fun i : Fin 16 => raw[i.val / 4 * 4 + (3 - i.val % 4)]!) "") := by
  have hlen : (swapWords raw).length = 16 := by rw [length_swapWords (by rw [h]; decide), h]
  rw [Addr.ofSlice, dif_neg (by omega), dif_pos hlen]
  refine congrArg some (congrArg (Addr.v6 · "") ?_)
  ext i hi
  have hget := getElem?_swapWords (a := raw) (by rw [h]; decide) i
  rw [List.getElem?_eq_getElem (by omega), List.getElem?_eq_getElem (by omega)] at hget
  rw [Vector.getElem_mk, List.getElem_toArray, Vector.getElem_ofFn, getElem!_pos raw _ (by omega), Option.some.inj hget]

theorem digit?_colon : digit? 16 0x3a = none := by decide

theorem decodeHex_of_kernelAddr {addrHex a : List UInt8} (h : addrHex.map upper = kernelAddr a) :
    decodeHex addrHex = .ok (swapWords a) := by
  rw [decodeHex_eq_ok, h, kernelAddr_eq]

/-- What is read is what the text encodes. -/
theorem parseHexAddrPort_eq_ok {s : List UInt8} {x : Addr} {p : UInt16} :
    parseHexAddrPort s = .ok (x, p) ↔ ∃ a, Encodes s a p ∧ (Addr.ofSlice a).map Addr.unmap = some x := by
  constructor
  · intro h
    unfold parseHexAddrPort at h
    split at h
    · cases h
    rename_i addrHex portHex hcut
    split at h
    · cases h
    rename_i port hport
    split at h
    · cases h
    rename_i raw hraw
    obtain ⟨hs, -⟩ := cut_eq_some.1 hcut
    obtain ⟨hne, hdigits, hval, hlt⟩ := (parseUint_eq_ok (by omega)).1 hport
    have hp : (UInt16.ofNat port).toNat = port := by rw [UInt16.toNat_ofNat']; omega
    have hen : IsAddr raw → Encodes s (swapWords raw) (UInt16.ofNat port) := fun hr =>
      ⟨isAddr_swapWords hr, addrHex, portHex, hs,
        by rw [kernelAddr_eq, swapWords_swapWords hr.dvd, decodeHex_eq_ok.1 hraw], hne, hdigits, by rw [hval, hp]⟩
    split_ifs at h with h4 h16
    · obtain ⟨rfl, rfl⟩ := Prod.mk.inj (Except.ok.inj h)
      exact ⟨_, hen (.inl h4), by rw [ofSlice_swapWords_four h4]; rfl⟩
    · obtain ⟨rfl, rfl⟩ := Prod.mk.inj (Except.ok.inj h)
      exact ⟨_, hen (.inr h16), by rw [ofSlice_swapWords_sixteen h16]; rfl⟩
  · rintro ⟨a, ⟨ha, addrHex, portHex, rfl, haddr, hne, hdigits, hval⟩, hx⟩
    have hraw := decodeHex_of_kernelAddr haddr
    have hhex : ∀ c ∈ addrHex, (digit? 16 c).isSome := (exists_decodeHex_iff.1 ⟨_, hraw, rfl⟩).2
    have hcut : cut 0x3a (addrHex ++ 0x3a :: portHex) = some (addrHex, portHex) :=
      cut_eq_some.2 ⟨rfl, fun hmem => by simpa [digit?_colon] using hhex _ hmem⟩
    have hport : parseUint 16 16 portHex = .ok p.toNat :=
      (parseUint_eq_ok (by omega)).2 ⟨hne, hdigits, hval, p.toNat_lt⟩
    simp only [parseHexAddrPort, hcut, hport, hraw]
    rw [← swapWords_swapWords ha.dvd] at hx
    rcases isAddr_swapWords ha with h | h
    · rw [ofSlice_swapWords_four h] at hx
      rw [if_pos h]
      rw [Option.map_some] at hx
      rw [← Option.some.inj hx, UInt16.ofNat_toNat]
      rfl
    · rw [ofSlice_swapWords_sixteen h] at hx
      rw [if_neg (by omega), if_pos h]
      rw [Option.map_some] at hx
      rw [← Option.some.inj hx, UInt16.ofNat_toNat]

theorem exists_encodes_iff {s : List UInt8} : (∃ a p, Encodes s a p) ↔ IsAddrPort s := by
  constructor
  · rintro ⟨a, p, ha, addrHex, portHex, hs, haddr, hne, hdigits, hval⟩
    have hp : value 16 portHex ≤ 0xFFFF := by have := p.toNat_lt; omega
    obtain ⟨hlen, hhex⟩ := exists_decodeHex_iff.1 ⟨_, decodeHex_of_kernelAddr haddr, length_swapWords ha.dvd⟩
    exact ⟨addrHex, portHex, hs, ha.imp (by omega) (by omega), hhex, hne, hdigits, hp⟩
  · rintro ⟨addrHex, portHex, hs, hlen, hhex, hne, hdigits, hp⟩
    obtain ⟨raw, hraw, hr⟩ : ∃ raw, decodeHex addrHex = .ok raw ∧ IsAddr raw := by
      rcases hlen with hlen | hlen
      · obtain ⟨raw, hraw, hr⟩ := exists_decodeHex_iff.2 ⟨show addrHex.length = 2 * 4 by omega, hhex⟩
        exact ⟨raw, hraw, .inl hr⟩
      · obtain ⟨raw, hraw, hr⟩ := exists_decodeHex_iff.2 ⟨show addrHex.length = 2 * 16 by omega, hhex⟩
        exact ⟨raw, hraw, .inr hr⟩
    refine ⟨swapWords raw, UInt16.ofNat (value 16 portHex), isAddr_swapWords hr, addrHex, portHex, hs, ?_, hne, hdigits,
      ?_⟩
    · rw [kernelAddr_eq, swapWords_swapWords hr.dvd, decodeHex_eq_ok.1 hraw]
    · rw [UInt16.toNat_ofNat']; omega

theorem exists_ofSlice {a : List UInt8} (h : IsAddr a) : ∃ x, (Addr.ofSlice a).map Addr.unmap = some x := by
  rcases h with h | h
  · exact ⟨_, by rw [Addr.ofSlice, dif_pos h, Option.map_some]⟩
  · exact ⟨_, by rw [Addr.ofSlice, dif_neg (by omega), dif_pos h, Option.map_some]⟩

theorem accepts_iff {s : List UInt8} : (∃ r, parseHexAddrPort s = .ok r) ↔ IsAddrPort s := by
  rw [← exists_encodes_iff]
  constructor
  · rintro ⟨⟨x, p⟩, h⟩
    obtain ⟨a, ha, -⟩ := parseHexAddrPort_eq_ok.1 h
    exact ⟨a, p, ha⟩
  · rintro ⟨a, p, ha⟩
    obtain ⟨x, hx⟩ := exists_ofSlice ha.1
    exact ⟨(x, p), parseHexAddrPort_eq_ok.2 ⟨a, ha, hx⟩⟩

theorem map_upper_kernelAddr (a : List UInt8) : (kernelAddr a).map upper = kernelAddr a := by
  induction a using kernelAddr.induct with
  | case1 x y z w l ih => rw [kernelAddr, List.map_append, map_upper_hexFixed, ih]
  | case2 l h => rw [kernelAddr, List.map_nil]; exact h

theorem encodes_kernelAddrPort {a : List UInt8} (h : IsAddr a) (port : UInt16) :
    Encodes (kernelAddrPort a port) a port := by
  refine ⟨h, kernelAddr a, hexFixed 4 port.toNat, rfl, map_upper_kernelAddr a, ?_, fun c => isSome_digit?_hexFixed,
    value_hexFixed port.toNat_lt⟩
  exact List.ne_nil_of_length_eq_add_one (length_hexFixed 4 _)

/-! ### Addresses up to IPv4-mapping -/

/-- An address given by its bytes, in 16 of them: an IPv4 one in its mapped form. -/
def as16 (a : List UInt8) : List UInt8 := if a.length = 4 then Addr.mappedLead ++ a else a

def addrAs16 : Addr → List UInt8
  | .v4 b => Addr.mappedLead ++ b.toList
  | .v6 b _ => b.toList
  | .invalid => []

theorem as16_eq_of_unmap {a : List UInt8} {x : Addr} (h : (Addr.ofSlice a).map Addr.unmap = some x) :
    as16 a = addrAs16 x := by
  unfold Addr.ofSlice at h
  split_ifs at h with h4 h16
  · rw [Option.map_some] at h
    rw [← Option.some.inj h, as16, if_pos h4]
    rfl
  · rw [Option.map_some, Addr.unmap] at h
    rw [← Option.some.inj h, as16, if_neg h4]
    split_ifs with hlead
    · have htail : (Addr.tail4 ⟨a.toArray, by simpa using h16⟩).toList = a.drop 12 := by
        match a, h16 with
        | [_, _, _, _, _, _, _, _, _, _, _, _, _, _, _, _], _ => rfl
      rw [addrAs16, htail, ← hlead]
      exact (List.take_append_drop 12 a).symm
    · rfl
  · cases h

theorem Encodes.read {s a : List UInt8} {x : Addr} {p q : UInt16} (ha : Encodes s a p)
    (h : parseHexAddrPort s = .ok (x, q)) : p = q ∧ as16 a = addrAs16 x := by
  obtain ⟨y, hy⟩ := exists_ofSlice ha.1
  have hread := h.symm.trans (parseHexAddrPort_eq_ok.2 ⟨a, ha, hy⟩)
  cases hread
  exact ⟨rfl, as16_eq_of_unmap hy⟩

/-- `parseHexAddrPort` inverts the kernel's encoding: it reads back every address, an IPv4-mapped one
as IPv4, and port; it accepts the texts of that form and no others; and texts read alike are of one
port and, up to IPv4-mapping, one address. -/
theorem parseHexAddrPort_inverts :
    (∀ (b : Vector UInt8 4) port, parseHexAddrPort (kernelAddrPort b.toList port) = .ok (.v4 b, port)) ∧
    (∀ (b : Vector UInt8 16) port,
      parseHexAddrPort (kernelAddrPort b.toList port) = .ok ((Addr.v6 b "").unmap, port)) ∧
    (∀ s, (∃ r, parseHexAddrPort s = .ok r) ↔ IsAddrPort s) ∧
    (∀ s t r, parseHexAddrPort s = .ok r → parseHexAddrPort t = .ok r →
      (∃ a p, Encodes s a p) ∧ (∃ b q, Encodes t b q) ∧
      ∀ a p b q, Encodes s a p → Encodes t b q → p = q ∧ as16 a = as16 b) := by
  refine ⟨fun b port => ?_, fun b port => ?_, fun s => accepts_iff, fun s t r hs ht => ⟨?_, ?_, ?_⟩⟩
  · refine parseHexAddrPort_eq_ok.2 ⟨b.toList, encodes_kernelAddrPort (.inl b.length_toList) port, ?_⟩
    rw [Addr.ofSlice, dif_pos b.length_toList]
    rfl
  · refine parseHexAddrPort_eq_ok.2 ⟨b.toList, encodes_kernelAddrPort (.inr b.length_toList) port, ?_⟩
    rw [Addr.ofSlice, dif_neg (by simp), dif_pos b.length_toList]
    rfl
  · exact exists_encodes_iff.2 (accepts_iff.1 ⟨r, hs⟩)
  · exact exists_encodes_iff.2 (accepts_iff.1 ⟨r, ht⟩)
  · intro a p b q ha hb
    obtain ⟨hp, hx⟩ := ha.read hs
    obtain ⟨hq, hy⟩ := hb.read ht
    exact ⟨hp.trans hq.symm, hx.trans hy.symm⟩

example : parseHexAddrPort "0100007F:0050".toUTF8.toList = .ok (.ipv4 127 0 0 1, 80) := by decide +kernel
example : parseHexAddrPort "0100007F".toUTF8.toList = .error (.malformed "0100007F".toUTF8.toList) := by decide +kernel
example : parseHexAddrPort "ZZZZZZZZ:0050".toUTF8.toList =
    .error (.address "ZZZZZZZZ".toUTF8.toList (.invalidByte 0x5a)) := by
  decide +kernel

/-! ### The tables -/

theorem parseProcNetFile_eq (proto : SockProto) (rows : List (List (List UInt8))) (out : GoMap UInt64 ProcNetEntry) :
    parseProcNetFile proto rows out = GoMap.insertAll out (rows.filterMap (procNetRow proto)) := by
  induction rows generalizing out with
  | nil => rfl
  | cons fields rows ih =>
    rw [parseProcNetFile, List.foldl_cons, ← parseProcNetFile, ih]
    cases h : procNetRow proto fields with
    | none => rw [List.filterMap_cons_none h, Option.elim_none]
    | some e => rw [List.filterMap_cons_some h, Option.elim_some]; rfl

/-- A line's entry has the protocol of its table and the addresses the line encodes. -/
theorem procNetRow_eq_some {proto : SockProto} {fields : List (List UInt8)} {inode : UInt64} {e : ProcNetEntry}
    (h : procNetRow proto fields = some (inode, e)) :
    e.proto = proto ∧ (∃ a, Encodes fields[1]! a e.localPort ∧ (Addr.ofSlice a).map Addr.unmap = some e.localAddr) ∧
      ∃ a, Encodes fields[2]! a e.remotePort ∧ (Addr.ofSlice a).map Addr.unmap = some e.remoteAddr := by
  unfold procNetRow at h
  split at h
  · cases h
  split at h
  · cases h
  rename_i localAddr localPort hl
  split at h
  · cases h
  rename_i remoteAddr remotePort hr
  split at h
  · cases h
  split at h
  · cases h
  have hends := And.intro (parseHexAddrPort_eq_ok.1 hl) (parseHexAddrPort_eq_ok.1 hr)
  cases proto with
  | udp => cases h; exact ⟨rfl, hends⟩
  | tcp =>
    dsimp only at h
    split at h
    · cases h
    · cases h; exact ⟨rfl, hends⟩

/-- Every entry of the joined tables comes from a line of a table of its protocol and has the addresses
that line encodes. -/
theorem readProcNet_sound {tcp tcp6 udp udp6 : List (List (List UInt8))} {inode : UInt64} {e : ProcNetEntry}
    (h : (readProcNet tcp tcp6 udp udp6).lookup inode = some e) :
    ∃ fields ∈ (match e.proto with | .tcp => tcp ++ tcp6 | .udp => udp ++ udp6),
      (∃ a, Encodes fields[1]! a e.localPort ∧ (Addr.ofSlice a).map Addr.unmap = some e.localAddr) ∧
      ∃ a, Encodes fields[2]! a e.remotePort ∧ (Addr.ofSlice a).map Addr.unmap = some e.remoteAddr := by
  have hrow : ∃ proto, ∃ fields ∈ (match proto with | .tcp => tcp ++ tcp6 | .udp => udp ++ udp6),
      procNetRow proto fields = some (inode, e) := by
    simp only [readProcNet, List.foldl_cons, List.foldl_nil, parseProcNetFile_eq, GoMap.lookup_insertAll,
      Option.or_eq_some_iff, AList.lookup_empty, reduceCtorEq, and_false, or_false] at h
    rcases h with h | ⟨-, h | ⟨-, h | ⟨-, h⟩⟩⟩
    all_goals obtain ⟨fields, hmem, hf⟩ := List.mem_filterMap.1 (GoMap.mem_of_lastOf h)
    · exact ⟨.udp, fields, List.mem_append_right _ hmem, hf⟩
    · exact ⟨.udp, fields, List.mem_append_left _ hmem, hf⟩
    · exact ⟨.tcp, fields, List.mem_append_right _ hmem, hf⟩
    · exact ⟨.tcp, fields, List.mem_append_left _ hmem, hf⟩
  obtain ⟨proto, fields, hmem, hf⟩ := hrow
  obtain ⟨rfl, hends⟩ := procNetRow_eq_some hf
  exact ⟨fields, hmem, hends⟩

end Trafficmon
