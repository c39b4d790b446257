import Trafficmon.Capture.DecodeMemory

/-!
# The headers of an IP datagram

What the bytes of a datagram say by the formats of IPv4 and IPv6, no decoder involved: the header at
their front, and the headers behind it up to the transport header that makes the datagram a flow's
(`flowHeaders`). How options are read is gopacket's, and a parameter.
-/

namespace Trafficmon

inductive IPVersion
  | v4 | v6
deriving DecidableEq, Repr

namespace IPVersion

def number : IPVersion → UInt8
  | v4 => 4
  | v6 => 6

def layer : IPVersion → LayerType
  | v4 => .ipv4
  | v6 => .ipv6

def goLayer : IPVersion → GoLayer
  | v4 => .ip4
  | v6 => .ip6

end IPVersion

/-- The layer of an IP protocol number, `zero` for those that have no decoder. -/
def ipProtocolLayer (n : UInt8) : LayerType :=
  if n = 1 then .icmpv4
  else if n = 4 ∨ n = 94 then .ipv4
  else if n = 6 then .tcp
  else if n = 17 then .udp
  else if n = 41 then .ipv6
  else if n = 58 then .icmpv6
  else .zero

/-! ### One header -/

/-- The length field of an IPv4 header; gopacket takes `0` to mean all of the data. -/
def ip4Length (data : List UInt8) : UInt16 :=
  if bigEndianUint16 data 2 = 0 then data.length.toUInt16 else bigEndianUint16 data 2

def ip4HeaderLen (data : List UInt8) : ℕ := (data.getD 0 0 &&& 0x0f).toNat * 4

/-- More fragments follow, or some went before. -/
def isFragment (data : List UInt8) : Bool := bigEndianUint16 data 6 &&& 0x3fff ≠ 0

/-- What gopacket makes of options: whether those of an IPv4 header are well formed, and the protocol and the payload
behind the hop-by-hop options of an IPv6 datagram. -/
structure IPOptions where
  ip4 : List UInt8 → Bool
  hopByHop : List UInt8 → Option (UInt8 × List UInt8)

namespace IPOptions
variable (opts : IPOptions)

/-- The IPv4 header at the front of the data, if it is whole. A fragment's payload has no header of its own. -/
def ip4Header (data : List UInt8) : Option LayerStruct :=
  if 20 ≤ data.length ∧ 20 ≤ ip4HeaderLen data ∧ ip4HeaderLen data ≤ (ip4Length data).toNat ∧
      ip4HeaderLen data ≤ data.length ∧ opts.ip4 ((data.take (ip4HeaderLen data)).drop 20) then
    some
      { srcAddr := (data.drop 12).take 4
        dstAddr := (data.drop 16).take 4
        length := ip4Length data
        nextLayerType := if isFragment data then .zero else ipProtocolLayer (data.getD 9 0)
        layerPayload := (data.take (ip4Length data).toNat).drop (ip4HeaderLen data) }
  else none

/-- The protocol an IPv6 datagram carries, and its payload. Only with hop-by-hop options may the length be zero. -/
def ip6Carried (data : List UInt8) : Option (UInt8 × List UInt8) :=
  if data.getD 6 0 = 0 then opts.hopByHop data
  else if bigEndianUint16 data 4 = 0 then none
  else some (data.getD 6 0, (data.drop 40).take (bigEndianUint16 data 4).toNat)

def ip6Header (data : List UInt8) : Option LayerStruct :=
  if data.length < 40 then none
  else
    (opts.ip6Carried data).map fun (protocol, payload) =>
      { srcAddr := (data.drop 8).take 16
        dstAddr := (data.drop 24).take 16
        length := bigEndianUint16 data 4
        nextLayerType := ipProtocolLayer protocol
        layerPayload := payload }

def header : IPVersion → List UInt8 → Option LayerStruct
  | .v4 => opts.ip4Header
  | .v6 => opts.ip6Header

end IPOptions

/-- The addresses where a header has them. -/
def IPVersion.addrs : IPVersion → List UInt8 → Option (Addr × Addr)
  | .v4, data => LayerStruct.addrs { srcAddr := (data.drop 12).take 4, dstAddr := (data.drop 16).take 4 }
  | .v6, data => LayerStruct.addrs { srcAddr := (data.drop 8).take 16, dstAddr := (data.drop 24).take 16 }

def IPVersion.lengthField : IPVersion → List UInt8 → UInt16
  | .v4, data => ip4Length data
  | .v6, data => bigEndianUint16 data 4

/-- The length field of IPv6 leaves the header out. -/
def IPVersion.totalLength : IPVersion → UInt16 → UInt64
  | .v4, n => n.toUInt64
  | .v6, n => n.toUInt64 + ipv6HeaderLen

/-- The length of a datagram by its header. -/
def datagramBytes (v : IPVersion) (data : List UInt8) : UInt64 := v.totalLength (v.lengthField data)

/-! ### The headers of a flow -/

/-- The innermost IP header of a packet, with the bytes it is at the front of, and the transport header it carries. -/
structure FlowHeaders where
  version : IPVersion
  datagram : List UInt8
  transport : LayerType
  segment : List UInt8
deriving DecidableEq, Repr

/-- How much of a transport header has to be there: the ports, or all that gopacket's ICMP layers read. -/
def LayerType.headerLen : LayerType → ℕ
  | .icmpv4 => 8
  | _ => 4

def IPOptions.flowHeadersFrom (opts : IPOptions) : ℕ → IPVersion → List UInt8 → Option FlowHeaders
  | 0, _, _ => none
  | fuel + 1, v, data =>
    (opts.header v data).bind fun h =>
      match h.nextLayerType with
      -- an IP datagram may carry another
      | .ipv4 => opts.flowHeadersFrom fuel .v4 h.layerPayload
      | .ipv6 => opts.flowHeadersFrom fuel .v6 h.layerPayload
      | typ =>
        if typ.isTransport ∧ typ.headerLen ≤ h.layerPayload.length then some ⟨v, data, typ, h.layerPayload⟩ else none

/-- Those of a datagram that is taken for one of version `v`: `none` where a header is cut short or malformed, at a
fragment, and where the headers lead to a protocol other than ICMP, TCP and UDP. -/
def IPOptions.flowHeaders (opts : IPOptions) (v : IPVersion) (dg : List UInt8) : Option FlowHeaders :=
  opts.flowHeadersFrom (dg.length + 1) v dg

def LayerType.proto : LayerType → Proto
  | .tcp => .tcp
  | .udp => .udp
  | .arp => .arp
  | _ => .icmp

/-- The protocol of a transport header, its ports and its flags; only TCP has flags, and ICMP and ARP no ports. -/
def transportFields (w : LayerType × List UInt8) : Proto × (UInt16 × UInt16) × (Bool × Bool × Bool) :=
  (w.1.proto, if w.1.isPorts then (bigEndianUint16 w.2 0, bigEndianUint16 w.2 2) else (0, 0),
    if w.1 = .tcp then tcpBits (w.2.getD 13 0) else (false, false, false))

/-- Headers with the same addresses and length, and with the same protocol, ports and flags. -/
structure FlowHeaders.Same (e e' : FlowHeaders) : Prop where
  addrs : e.version.addrs e.datagram = e'.version.addrs e'.datagram
  bytes : datagramBytes e.version e.datagram = datagramBytes e'.version e'.datagram
  transport : transportFields (e.transport, e.segment) = transportFields (e'.transport, e'.segment)

section Headers
variable {opts : IPOptions} {v : IPVersion} {data : List UInt8} {h : LayerStruct} {e : FlowHeaders} {fuel : ℕ}

theorem ipProtocolLayer_cases (n : UInt8) : ipProtocolLayer n ∈
    ([.zero, .ipv4, .ipv6, .tcp, .udp, .icmpv4, .icmpv6] : List LayerType) := by
  unfold ipProtocolLayer
  split_ifs <;> decide

theorem header_next (hh : opts.header v data = some h) : h.nextLayerType ∈
    ([.zero, .ipv4, .ipv6, .tcp, .udp, .icmpv4, .icmpv6] : List LayerType) := by
  cases v with
  | v4 =>
    obtain ⟨-, hh⟩ := Option.ite_none_right_eq_some.1 hh
    obtain rfl := Option.some.inj hh
    dsimp only
    split_ifs
    · decide
    · exact ipProtocolLayer_cases _
  | v6 =>
    obtain ⟨-, hh⟩ := Option.ite_none_left_eq_some.1 hh
    obtain ⟨c, -, rfl⟩ := Option.map_eq_some_iff.1 hh
    exact ipProtocolLayer_cases _

theorem addrs_isSome {s : LayerStruct} {n : ℕ} (hn : n = 4 ∨ n = 16) (hsrc : s.srcAddr.length = n)
    (hdst : s.dstAddr.length = n) : s.addrs.isSome := by
  have hslice : ∀ l : List UInt8, l.length = n → ∃ a, Addr.ofSlice l = some a := fun l hl => by
    unfold Addr.ofSlice
    split_ifs with h4 h16
    · exact ⟨_, rfl⟩
    · exact ⟨_, rfl⟩
    · omega
  obtain ⟨a, ha⟩ := hslice _ hsrc
  obtain ⟨b, hb⟩ := hslice _ hdst
  rw [LayerStruct.addrs, ha, hb]
  rfl

/-- A whole header has proper addresses, and its length. -/
theorem header_fields (hh : opts.header v data = some h) :
    h.addrs = v.addrs data ∧ h.addrs.isSome ∧ h.length = v.lengthField data := by
  cases v with
  | v4 =>
    obtain ⟨⟨hlen, -⟩, hh⟩ := Option.ite_none_right_eq_some.1 hh
    obtain rfl := Option.some.inj hh
    refine ⟨rfl, addrs_isSome (.inl rfl) ?_ ?_, rfl⟩
    · rw [List.length_take, List.length_drop]
      omega
    · rw [List.length_take, List.length_drop]
      omega
  | v6 =>
    obtain ⟨hlen, hh⟩ := Option.ite_none_left_eq_some.1 hh
    obtain ⟨c, -, rfl⟩ := Option.map_eq_some_iff.1 hh
    refine ⟨rfl, addrs_isSome (.inr rfl) ?_ ?_, rfl⟩
    · rw [List.length_take, List.length_drop]
      omega
    · rw [List.length_take, List.length_drop]
      omega

theorem headerLen_pos (typ : LayerType) : 0 < typ.headerLen := by
  unfold LayerType.headerLen
  split <;> omega

theorem header_nil (v : IPVersion) : opts.header v [] = none := by
  cases v with
  | v4 => simp [IPOptions.header, IPOptions.ip4Header]
  | v6 => simp [IPOptions.header, IPOptions.ip6Header]

theorem flowHeadersFrom_nil (v : IPVersion) : opts.flowHeadersFrom fuel v [] = none := by
  cases fuel with
  | zero => rfl
  | succ fuel => rw [IPOptions.flowHeadersFrom, header_nil, Option.bind_none]

/-- What comes after one header: an IP header, a transport header, or nothing that is looked at. -/
theorem flowHeadersFrom_cases (hh : opts.header v data = some h) (fuel : ℕ) :
    (∃ v', h.nextLayerType = v'.layer ∧
      opts.flowHeadersFrom (fuel + 1) v data = opts.flowHeadersFrom fuel v' h.layerPayload) ∨
    (h.nextLayerType ∈ ([.tcp, .udp, .icmpv4, .icmpv6] : List LayerType) ∧ opts.flowHeadersFrom (fuel + 1) v data =
      if h.nextLayerType.headerLen ≤ h.layerPayload.length then some ⟨v, data, h.nextLayerType, h.layerPayload⟩
      else none) ∨
    (h.nextLayerType = .zero ∧ opts.flowHeadersFrom (fuel + 1) v data = none) := by
  have hnext := header_next hh
  rw [IPOptions.flowHeadersFrom, hh, Option.bind_some]
  simp only [List.mem_cons, List.not_mem_nil, or_false] at hnext
  rcases hnext with hn | hn | hn | hn | hn | hn | hn
  · exact .inr (.inr ⟨hn, by rw [hn]; rfl⟩)
  · exact .inl ⟨.v4, hn, by rw [hn]⟩
  · exact .inl ⟨.v6, hn, by rw [hn]⟩
  all_goals exact .inr (.inl ⟨by rw [hn]; decide, by rw [hn]; simp [LayerType.isTransport]⟩)

theorem flowHeadersFrom_succ (hh : opts.header v data = some h) (he : opts.flowHeadersFrom (fuel + 1) v data = some e) :
    h.nextLayerType ≠ .zero := by
  intro hzero
  rw [IPOptions.flowHeadersFrom, hh, Option.bind_some, hzero] at he
  cases he

/-- A flow's datagram has a whole header, and the header says what follows it. -/
theorem header_of_flowHeaders (he : opts.flowHeaders v data = some e) :
    ∃ h, opts.header v data = some h ∧ h.nextLayerType ≠ .zero := by
  obtain ⟨h, hh, -⟩ := Option.bind_eq_some_iff.1 (id he)
  exact ⟨h, hh, flowHeadersFrom_succ hh he⟩

theorem toNat_bigEndianUint16 (data : List UInt8) (i : ℕ) :
    (bigEndianUint16 data i).toNat = (data.getD i 0).toNat * 256 + (data.getD (i + 1) 0).toNat := by
  have hhigh := (data.getD i 0).toNat_lt
  have hlow := (data.getD (i + 1) 0).toNat_lt
  rw [bigEndianUint16, UInt16.toNat_or, UInt16.toNat_shiftLeft, UInt8.toNat_toUInt16, UInt8.toNat_toUInt16,
    show (8 : UInt16).toNat % 16 = 8 from rfl, Nat.shiftLeft_eq, Nat.mod_eq_of_lt (by omega), ← Nat.shiftLeft_eq,
    ← Nat.shiftLeft_add_eq_or_of_lt (by omega), Nat.shiftLeft_eq]

/-- All of the two bytes is zero but the reserved bit and the one that forbids fragments. -/
theorem notFragment_iff : isFragment data = false ↔ data.getD 6 0 &&& 0x3f = 0 ∧ data.getD 7 0 = 0 := by
  have hlow := (data.getD 7 0).toNat_lt
  have hboth : (bigEndianUint16 data 6).toNat = (data.getD 6 0).toNat * 256 + (data.getD 7 0).toNat :=
    toNat_bigEndianUint16 data 6
  have hval : (bigEndianUint16 data 6 &&& 0x3fff).toNat =
      (data.getD 6 0 &&& 0x3f).toNat * 256 + (data.getD 7 0).toNat := by
    rw [UInt16.toNat_and, UInt8.toNat_and, hboth, show (0x3fff : UInt16).toNat = 2 ^ 14 - 1 from rfl,
      show (0x3f : UInt8).toNat = 2 ^ 6 - 1 from rfl, Nat.and_two_pow_sub_one_eq_mod, Nat.and_two_pow_sub_one_eq_mod]
    omega
  rw [isFragment, decide_eq_false_iff_not, not_not, ← UInt16.toNat_inj, hval, ← UInt8.toNat_inj, ← UInt8.toNat_inj,
    UInt16.toNat_zero, UInt8.toNat_zero]
  omega

/-- Whichever way it is read, a datagram of a flow has its fragment offset where the IPv6 header has the protocol. -/
theorem hopByHop_of_flowHeaders {e4 e6 : FlowHeaders} (h4 : opts.flowHeaders .v4 data = some e4)
    (h6 : opts.flowHeaders .v6 data = some e6) : data.getD 6 0 = 0 ∧ data.getD 7 0 = 0 := by
  obtain ⟨h, hh, hnext⟩ := header_of_flowHeaders h4
  obtain ⟨-, hh⟩ := Option.ite_none_right_eq_some.1 hh
  obtain rfl := Option.some.inj hh
  have hwhole : isFragment data = false := by
    cases hf : isFragment data with
    | false => rfl
    | true => exact absurd (if_pos hf) hnext
  obtain ⟨hsix, hseven⟩ := notFragment_iff.1 hwhole
  refine ⟨?_, hseven⟩
  obtain ⟨h, hh, hnext⟩ := header_of_flowHeaders h6
  obtain ⟨-, hh⟩ := Option.ite_none_left_eq_some.1 hh
  obtain ⟨c, hc, rfl⟩ := Option.map_eq_some_iff.1 hh
  by_contra hne
  rw [IPOptions.ip6Carried, if_neg hne] at hc
  obtain ⟨-, hc⟩ := Option.ite_none_left_eq_some.1 hc
  obtain rfl := Option.some.inj hc
  -- no protocol that has a layer is a multiple of 64
  refine hnext ?_
  have habsurd : ∀ {n : UInt8}, data.getD 6 0 = n → n &&& 0x3f ≠ 0 → False := fun hn h => h (hn ▸ hsix)
  dsimp only
  unfold ipProtocolLayer
  split_ifs with hn hn hn hn hn hn
  · exact (habsurd hn (by decide)).elim
  · rcases hn with hn | hn <;> exact (habsurd hn (by decide)).elim
  · exact (habsurd hn (by decide)).elim
  · exact (habsurd hn (by decide)).elim
  · exact (habsurd hn (by decide)).elim
  · exact (habsurd hn (by decide)).elim
  · rfl

end Headers

end Trafficmon
