import Trafficmon.Capture.IpHeaders

/-!
# Link framings (`capture/decode.go`)

The same datagram captured behind an Ethernet header, a tagged one, a loopback header, or bare. The
parser starts with the layer of the handle's link type; every header says which IP version follows,
a bare datagram does not, and `newFlowDecoder` has it start with IPv4. `framingIndependent_iff` is
the exact condition on the datagram's bytes for the framing not to matter. Of gopacket's layers it
needs what `Gopacket` collects: that a link layer hands on the datagram, and that the IP layers read
the headers that `Capture.IpHeaders` finds in the bytes.
-/

namespace Trafficmon

namespace IPVersion

def etherType : IPVersion → List UInt8
  | v4 => [0x08, 0x00]
  | v6 => [0x86, 0xdd]

/-- The address family numbers; that of IPv6 differs from system to system. -/
def families : IPVersion → List UInt8
  | v4 => [2]
  | v6 => [10, 24, 28, 30]

/-- Four bytes, in either order. -/
def familyHeaders (v : IPVersion) : List (List UInt8) := v.families.flatMap fun f => [[f, 0, 0, 0], [0, 0, 0, f]]

end IPVersion

/-- The first four bits of a datagram are its version. -/
def IsDatagram (v : IPVersion) (dg : List UInt8) : Prop := dg.getD 0 0 >>> 4 = v.number

instance (v : IPVersion) (dg : List UInt8) : Decidable (IsDatagram v dg) := inferInstanceAs (Decidable (_ = _))

/-- `p` is the datagram as a handle of the link type captures it. -/
inductive Framed (v : IPVersion) (dg : List UInt8) : LinkType → List UInt8 → Prop
  | ethernet (macs : List UInt8) : macs.length = 12 → Framed v dg .ethernet (macs ++ v.etherType ++ dg)
  | dot1q (macs tci : List UInt8) : macs.length = 12 → tci.length = 2 →
    Framed v dg .ethernet (macs ++ [0x81, 0x00] ++ (tci ++ v.etherType ++ dg))
  | null (header : List UInt8) : header ∈ v.familyHeaders → Framed v dg .null (header ++ dg)
  | loop (header : List UInt8) : header ∈ v.familyHeaders → Framed v dg .loop (header ++ dg)
  | raw : Framed v dg .raw dg

/-! ### gopacket -/

def Hands (dfb : LayerDecoders) (g : GoLayer) (p : List UInt8) (typ : LayerType) (payload : List UInt8) : Prop :=
  ∀ s, (dfb g s p).2 = true ∧ (dfb g s p).1.nextLayerType = typ ∧ (dfb g s p).1.layerPayload = payload

/-- The link layers hand exactly what follows their header to the layer their type field names. -/
structure LinkLayers (dfb : LayerDecoders) : Prop where
  eth : ∀ macs (v : IPVersion) rest, macs.length = 12 → Hands dfb .eth (macs ++ v.etherType ++ rest) v.layer rest
  ethDot1q : ∀ macs rest, macs.length = 12 → Hands dfb .eth (macs ++ [0x81, 0x00] ++ rest) .dot1q rest
  dot1q : ∀ tci (v : IPVersion) rest, tci.length = 2 → Hands dfb .dot1q (tci ++ v.etherType ++ rest) v.layer rest
  loop : ∀ header (v : IPVersion) rest, header ∈ v.familyHeaders → Hands dfb .loop (header ++ rest) v.layer rest

/-- Layers that have no decoder are one. -/
def LayerStruct.known (s : LayerStruct) : LayerStruct :=
  { s with nextLayerType := if s.nextLayerType.decoder = none then .zero else s.nextLayerType }

/-- The IP layers read the header at the front of the data, and fail where it is not whole. The ICMP layers fail on one
that is cut short, and no decoder is there for what follows it. -/
structure IPLayers (opts : IPOptions) (dfb : LayerDecoders) : Prop where
  whole : ∀ (v : IPVersion) s data, (dfb v.goLayer s data).2 = (opts.header v data).isSome
  header : ∀ (v : IPVersion) s data h, opts.header v data = some h → (dfb v.goLayer s data).1.known = h
  icmp4 : ∀ s data, (dfb .icmp4 s data).2 = decide (8 ≤ data.length)
  icmp6 : ∀ s data, (dfb .icmp6 s data).2 = decide (4 ≤ data.length)
  icmp4_next : ∀ s data, (dfb .icmp4 s data).2 = true → (dfb .icmp4 s data).1.nextLayerType.decoder = none
  icmp6_next : ∀ s data, (dfb .icmp6 s data).2 = true → (dfb .icmp6 s data).1.nextLayerType.decoder = none

structure Gopacket (opts : IPOptions) (dfb : LayerDecoders) : Prop where
  overwrites : Overwrites dfb
  shrinks : Shrinks dfb
  link : LinkLayers dfb
  ip : IPLayers opts dfb

/-! ### Independence -/

/-- What a fresh decoder that starts with `first` makes of a packet. -/
def reading (dfb : LayerDecoders) (first : LayerType) (p : List UInt8) : Option PacketInfo :=
  (packetLayers dfb first p).bind fun ws => readOff dfb ws (TransportPorts.after {} ws)

/-- The last header that carries addresses, and what it starts; an IP datagram may carry another. -/
def innermost (dfb : LayerDecoders) (first : LayerType) (p : List UInt8) : Option (LayerType × List UInt8) :=
  (packetLayers dfb first p).bind fun ws => (ws.filter fun w => w.1.addrLayer.isSome).getLast?

/-- The last header that says what is carried. -/
def transportHeader (dfb : LayerDecoders) (first : LayerType) (p : List UInt8) : Option (LayerType × List UInt8) :=
  (packetLayers dfb first p).bind fun ws => (ws.filter fun w => w.1.isTransport).getLast?

/-- Both addresses and the length, from the struct of a layer that has them. -/
def netOf (layers : GoLayer → LayerStruct) : LayerType → Option (Addr × Addr × UInt64)
  | .ipv4 => (layers .ip4).addrs.map fun a => (a.1, a.2, (layers .ip4).length.toUInt64)
  | .ipv6 => (layers .ip6).addrs.map fun a => (a.1, a.2, (layers .ip6).length.toUInt64 + ipv6HeaderLen)
  | .arp => (layers .arp).addrs.map fun a => (a.1, a.2, arpFrameBytes)
  | _ => none

/-- What a header says of the addresses and of the length. -/
def netFields (dfb : LayerDecoders) (w : LayerType × List UInt8) : Option (Addr × Addr × UInt64) :=
  netOf (fun g => (dfb g {} w.2).1) w.1

structure FramingIndependent (dfb : LayerDecoders) (v : IPVersion) (dg : List UInt8) : Prop where
  same : ∀ lt p d lt' p' d', Framed v dg lt p → newFlowDecoder lt = .ok d → Framed v dg lt' p' →
    newFlowDecoder lt' = .ok d' → (d.decode dfb p).2 = (d'.decode dfb p').2
  bytes : ∀ lt p d info, Framed v dg lt p → newFlowDecoder lt = .ok d → (d.decode dfb p).2 = some info →
    info.bytes = datagramBytes v dg

/-- Read from this layer on, the datagram has addresses and a transport layer. -/
def Accounted (dfb : LayerDecoders) (first : LayerType) (dg : List UInt8) : Prop :=
  ∃ ws, packetLayers dfb first dg = some ws ∧ Attributable dfb ws

/-- An IPv6 datagram with hop-by-hop options and a hop limit of zero that leads to headers of one flow, of its own
length, both as it is and taken for an IPv4 one. -/
def Coincides (opts : IPOptions) (dg : List UInt8) : Prop :=
  dg.getD 6 0 = 0 ∧ dg.getD 7 0 = 0 ∧ ∃ e4 e6, opts.flowHeaders .v4 dg = some e4 ∧ opts.flowHeaders .v6 dg = some e6 ∧
    e4.Same e6 ∧ datagramBytes e6.version e6.datagram = datagramBytes .v6 dg

/-- The headers of an IPv4 datagram lead to a flow's in an IP datagram of its own length, if they lead to any. Those of
an IPv6 one lead to none, and it has none taken for IPv4 either, unless all that is read is the same. -/
def ReadAlike (opts : IPOptions) : IPVersion → List UInt8 → Prop
  | .v4, dg => ∀ e, opts.flowHeaders .v4 dg = some e → datagramBytes e.version e.datagram = datagramBytes .v4 dg
  | .v6, dg => (opts.flowHeaders .v4 dg = none ∧ opts.flowHeaders .v6 dg = none) ∨ Coincides opts dg

/-! ### Walks -/

section Walks
variable {dfb : LayerDecoders} {typ typ' first : LayerType} {g : GoLayer} {fuel : Nat} {p data : List UInt8}
  {ws : List (LayerType × List UInt8)}

theorem walk_go (hdec : typ.decoder = some (.go g)) : walk dfb (fuel + 1) typ data =
    if (dfb g {} data).2 then
      if (dfb g {} data).1.layerPayload = [] then some [(typ, data)]
      else (walk dfb fuel (dfb g {} data).1.nextLayerType (dfb g {} data).1.layerPayload).map ((typ, data) :: ·)
    else none := by
  rw [walk, hdec]

/-- Every layer walked through was decoded. -/
theorem walk_ok (h : walk dfb fuel typ data = some ws) :
    ∀ w ∈ ws, ∀ g, w.1.decoder = some (.go g) → (dfb g {} w.2).2 = true := by
  induction fuel generalizing typ data ws with
  | zero => cases h
  | succ fuel ih =>
    cases hdec : typ.decoder with
    | none =>
      rw [walk, hdec] at h
      obtain rfl := Option.some.inj h
      exact fun _ hw => by cases hw
    | some dec =>
      cases dec with
      | ports =>
        rcases walk_cases h with ⟨hno, -⟩ | ⟨-, -, rfl⟩ | ⟨g, hgo, -⟩
        · rw [hdec] at hno
          cases hno
        · simp [hdec]
        · rw [hdec] at hgo
          cases hgo
      | go g =>
        rw [walk_go hdec] at h
        split_ifs at h with hok hp
        · obtain rfl := Option.some.inj h
          simpa [hdec] using hok
        · obtain ⟨ws', hws', rfl⟩ := Option.map_eq_some_iff.1 h
          refine List.forall_mem_cons.2 ⟨fun g' hg' => ?_, ih hws'⟩
          rw [hdec] at hg'
          cases hg'
          exact hok

theorem walk_fuel (h : Shrinks dfb) {n m : Nat} (hn : data.length < n) (hm : data.length < m) :
    walk dfb n typ data = walk dfb m typ data := by
  induction n generalizing m typ data with
  | zero => omega
  | succ n ih =>
    obtain ⟨m, rfl⟩ : ∃ m', m = m' + 1 := ⟨m - 1, by omega⟩
    cases hdec : typ.decoder with
    | none => rw [walk, walk, hdec]
    | some dec =>
      cases dec with
      | ports => rw [walk, walk, hdec]
      | go g =>
        rw [walk_go hdec, walk_go hdec]
        split_ifs with hok hp
        · rfl
        · have hlt := h g {} data hok
          rw [ih (m := m) (by omega) (by omega)]
        · rfl

/-- A link layer in front of a packet is one layer more. -/
theorem packetLayers_hands (h : Shrinks dfb) (hh : Hands dfb g p typ' data) (hdec : typ.decoder = some (.go g))
    (hne : data ≠ []) : packetLayers dfb typ p = (packetLayers dfb typ' data).map ((typ, p) :: ·) := by
  obtain ⟨hok, hnext, hpay⟩ := hh {}
  have hlt := h g {} p hok
  rw [hpay] at hlt
  rw [packetLayers, walk_go hdec, if_pos hok, hpay, hnext, if_neg hne, packetLayers,
    walk_fuel h hlt (Nat.lt_succ_self _)]

end Walks

/-! ### Readings -/

/-- A layer in front of the addresses, of which `decode` reads nothing. -/
def LayerType.isLink : LayerType → Bool
  | .ethernet | .dot1q | .loopback => true
  | _ => false

section Readings
variable {dfb : LayerDecoders} {typ first : LayerType} {g : GoLayer} {p : List UInt8} {d : FlowDecoder}
  {ws : List (LayerType × List UInt8)} {w : LayerType × List UInt8} {layers : GoLayer → LayerStruct} {flags : UInt8}
  {s s' : Scan} {l : List LayerType} {info : PacketInfo} {ports : TransportPorts}

theorem decode_fresh (h : Overwrites dfb) (hfresh : d.ports = {}) : (d.decode dfb p).2 = reading dfb d.first p := by
  rw [reading]
  cases hws : packetLayers dfb d.first p with
  | none => exact decode_of_no_layers h hws
  | some ws =>
    rw [decode_of_layers h hws, hfresh]
    rfl

theorem reading_isSome : (reading dfb first p).isSome ↔ Accounted dfb first p := by
  rw [reading, Accounted]
  cases packetLayers dfb first p with
  | none => simp
  | some ws => simp [readOff_isSome]

theorem readOff_link (hlink : typ.isLink = true) :
    readOff dfb ((typ, p) :: ws) (TransportPorts.after {} ((typ, p) :: ws)) =
      readOff dfb ws (TransportPorts.after {} ws) := by
  have hports : TransportPorts.after {} ((typ, p) :: ws) = TransportPorts.after {} ws := by
    rw [TransportPorts.after, List.foldl_cons, if_neg (by cases typ <;> simp_all [LayerType.isLink, LayerType.isPorts,
      LayerType.decoder])]
    rfl
  have hhead : ∀ layers, scanLayer layers (TransportPorts.after {} ws).flags {} typ = some {} := fun _ => by
    cases typ <;> simp_all [LayerType.isLink, scanLayer]
  rw [hports, readOff, readOff, List.map_cons, scanLayers, List.foldlM_cons, hhead]
  refine congrArg (Option.bind · _) (scanLayers_congr (fun typ' htyp' g hg => ?_) fun _ => rfl)
  obtain ⟨w, hw, rfl⟩ := List.mem_map.1 htyp'
  rw [layersOf, List.foldl_cons]
  exact foldl_absorb_layers _ _ ⟨w, hw, decoder_of_addrLayer hg⟩

theorem reading_hands {typ' : LayerType} {data : List UInt8} (h : Shrinks dfb) (hh : Hands dfb g p typ' data)
    (hdec : typ.decoder = some (.go g)) (hlink : typ.isLink = true) (hne : data ≠ []) :
    reading dfb typ p = reading dfb typ' data := by
  rw [reading, packetLayers_hands h hh hdec hne, reading]
  cases packetLayers dfb typ' data with
  | none => rfl
  | some ws => exact readOff_link hlink

/-! ### The last header -/

theorem getLast?_filter_concat {α : Type} (q : α → Bool) (l : List α) (a : α) :
    ((l ++ [a]).filter q).getLast? = if q a then some a else (l.filter q).getLast? := by
  rw [List.filter_append]
  split_ifs with h
  · rw [List.filter_cons_of_pos h, List.filter_nil, List.getLast?_concat]
  · rw [List.filter_cons_of_neg h, List.filter_nil, List.append_nil]

theorem scanLayer_net (h : scanLayer layers flags s typ = some s') :
    if typ.addrLayer.isSome then netOf layers typ = some (s'.info.src, s'.info.dst, s'.info.bytes)
    else s'.info.src = s.info.src ∧ s'.info.dst = s.info.dst ∧ s'.info.bytes = s.info.bytes := by
  cases typ with
  | ipv4 | ipv6 | arp =>
    obtain ⟨a, ha, rfl⟩ := Option.map_eq_some_iff.1 h
    simp [LayerType.addrLayer, netOf, ha]
  | _ =>
    obtain rfl := Option.some.inj h
    simp [LayerType.addrLayer]

theorem scanLayers_net (h : scanLayers layers flags s l = some s')
    (hlast : (l.filter fun t => t.addrLayer.isSome).getLast? = some typ) :
    netOf layers typ = some (s'.info.src, s'.info.dst, s'.info.bytes) := by
  induction l using List.reverseRecOn generalizing s' with
  | nil => cases hlast
  | append_singleton l t ih =>
    obtain ⟨s₁, hs₁, hs₂⟩ := scanLayers_concat h
    have hnet := scanLayer_net hs₂
    rw [getLast?_filter_concat] at hlast
    split_ifs at hlast hnet with ht
    · obtain rfl := Option.some.inj hlast
      exact hnet
    · rw [hnet.1, hnet.2.1, hnet.2.2]
      exact ih hs₁ hlast

/-- Only layers with addresses are decoded into a struct that has some. -/
theorem addrLayer_of_decoder {typ' : LayerType} (hg : typ'.addrLayer = some g) (hdec : typ.decoder = some (.go g)) :
    typ.addrLayer.isSome := by
  cases typ' <;> cases hg <;> cases typ <;> first | rfl | cases hdec

/-- The struct of the layer that is last to carry addresses is what that layer left in it. -/
theorem layersOf_last (hlast : (ws.filter fun w => w.1.addrLayer.isSome).getLast? = some w)
    (hg : w.1.addrLayer = some g) : layersOf dfb ws g = (dfb g {} w.2).1 := by
  induction ws using List.reverseRecOn with
  | nil => cases hlast
  | append_singleton ws x ih =>
    rw [layersOf, List.foldl_append, List.foldl_cons, List.foldl_nil, FlowDecoder.absorb]
    rw [getLast?_filter_concat] at hlast
    split_ifs at hlast with hx
    · obtain rfl := Option.some.inj hlast
      rw [decoder_of_addrLayer hg]
      exact Function.update_self ..
    · have hsame := ih hlast
      split
      · exact hsame
      · exact hsame
      · rename_i g' hdec
        have hne : g ≠ g' := fun hgg => hx (addrLayer_of_decoder hg (hgg ▸ hdec))
        exact (Function.update_of_ne hne ..).trans hsame

theorem readOff_net (h : readOff dfb ws ports = some info) :
    ∃ w, (ws.filter fun w => w.1.addrLayer.isSome).getLast? = some w ∧
      netOf (layersOf dfb ws) w.1 = some (info.src, info.dst, info.bytes) := by
  obtain ⟨w, hw, haddr⟩ := ((readOff_isSome ports).1 (Option.isSome_iff_exists.2 ⟨info, h⟩)).net
  obtain ⟨s, hs, hfin⟩ := Option.bind_eq_some_iff.1 h
  obtain ⟨-, -, rfl⟩ := Scan.finish_eq hfin
  have hne : (ws.filter fun w => w.1.addrLayer.isSome) ≠ [] := List.ne_nil_of_mem (List.mem_filter.2 ⟨hw, haddr⟩)
  refine ⟨_, List.getLast?_eq_some_getLast hne, ?_⟩
  refine scanLayers_net hs ?_
  rw [List.filter_map, List.getLast?_map]
  exact congrArg _ (List.getLast?_eq_some_getLast hne)

/-- The addresses and the length are those of the innermost header. -/
theorem reading_net (h : reading dfb first p = some info) :
    ∃ w g, innermost dfb first p = some w ∧ w.1.addrLayer = some g ∧ (dfb g {} w.2).2 = true ∧
      netFields dfb w = some (info.src, info.dst, info.bytes) := by
  obtain ⟨ws, hws, hread⟩ := Option.bind_eq_some_iff.1 h
  obtain ⟨w, hlast, hnet⟩ := readOff_net hread
  obtain ⟨hw, haddr⟩ := List.mem_filter.1 (List.mem_of_getLast? hlast)
  obtain ⟨g, hg⟩ := Option.isSome_iff_exists.1 haddr
  refine ⟨w, g, ?_, hg, walk_ok hws w hw g (decoder_of_addrLayer hg), ?_⟩
  · rw [innermost, hws]
    exact hlast
  · rw [← hnet, netFields]
    have hstruct : layersOf dfb ws g = (dfb g {} w.2).1 := layersOf_last hlast hg
    cases hw' : w.1 <;> rw [hw'] at hg <;> cases hg <;> simp [netOf, hstruct]

theorem scanLayer_transport (h : scanLayer layers flags s typ = some s') :
    s'.info.proto = (if typ.isTransport then typ.proto else s.info.proto) ∧
      (s'.info.syn, s'.info.ack, s'.info.rst) =
        if typ = .tcp then tcpBits flags else (s.info.syn, s.info.ack, s.info.rst) := by
  cases typ with
  | ipv4 | ipv6 | arp =>
    obtain ⟨a, -, rfl⟩ := Option.map_eq_some_iff.1 h
    exact ⟨rfl, rfl⟩
  | _ =>
    obtain rfl := Option.some.inj h
    exact ⟨rfl, rfl⟩

theorem scanLayers_flags (h : scanLayers layers flags s l = some s') : (s'.info.syn, s'.info.ack, s'.info.rst) =
    if .tcp ∈ l then tcpBits flags else (s.info.syn, s.info.ack, s.info.rst) := by
  induction l generalizing s with
  | nil =>
    obtain rfl := Option.some.inj h
    rfl
  | cons t l ih =>
    rw [scanLayers, List.foldlM_cons] at h
    obtain ⟨s₁, hs₁, h⟩ := Option.bind_eq_some_iff.1 h
    rw [ih h, (scanLayer_transport hs₁).2]
    by_cases hl : LayerType.tcp ∈ l
    · rw [if_pos hl, if_pos (List.mem_cons_of_mem _ hl)]
    · rw [if_neg hl]
      simp [hl, eq_comm]

theorem scanLayers_last_transport (h : scanLayers layers flags s l = some s')
    (hlast : (l.filter LayerType.isTransport).getLast? = some typ) : s'.info.proto = typ.proto := by
  induction l using List.reverseRecOn generalizing s' with
  | nil => cases hlast
  | append_singleton l t ih =>
    obtain ⟨s₁, hs₁, hs₂⟩ := scanLayers_concat h
    rw [(scanLayer_transport hs₂).1]
    rw [getLast?_filter_concat] at hlast
    split_ifs at hlast ⊢ with ht
    · rw [Option.some.inj hlast]
    · exact ih hs₁ hlast

/-- The ports end a walk, so they are the last transport header's, and so are the flags. -/
theorem ports_of_last {fuel : Nat} {data : List UInt8} (hws : walk dfb fuel typ data = some ws)
    (hlast : (ws.filter fun w => w.1.isTransport).getLast? = some w) :
    transportFields w = (w.1.proto, ((TransportPorts.after {} ws).src, (TransportPorts.after {} ws).dst),
      if .tcp ∈ ws.map (·.1) then tcpBits (TransportPorts.after {} ws).flags else (false, false, false)) := by
  rcases walk_shape hws with hnone | ⟨pre, typ, t, rfl, htyp, ht, hpre⟩
  · have hw := hnone w (List.mem_filter.1 (List.mem_of_getLast? hlast)).1
    have hne : w.1 ≠ .tcp := fun htcp => by
      rw [htcp] at hw
      cases hw
    rw [after_of_no_ports hnone, if_neg (tcp_notMem hnone), transportFields, hw, if_neg hne]
    rfl
  · rw [getLast?_filter_concat, if_pos (by rcases isPorts_iff.1 htyp with rfl | rfl <;> rfl)] at hlast
    obtain rfl := Option.some.inj hlast
    rw [after_concat hpre htyp ht, transportFields, if_pos htyp]
    have hflags : (if 14 ≤ t.length then t.getD 13 0 else ({} : TransportPorts).flags) = t.getD 13 0 := by
      split_ifs with hlen
      · rfl
      · exact (getD_of_short (not_le.1 hlen)).symm
    have htcp : .tcp ∈ (pre ++ [(typ, t)]).map (·.1) ↔ typ = .tcp := by
      rw [List.map_append, List.mem_append]
      simp [tcp_notMem hpre, eq_comm]
    simp only [hflags, htcp]

/-- The protocol, the ports and the flags are those of the last transport header. -/
theorem reading_transport (h : reading dfb first p = some info) : ∃ w, transportHeader dfb first p = some w ∧
    transportFields w = (info.proto, (info.srcPort, info.dstPort), (info.syn, info.ack, info.rst)) := by
  obtain ⟨ws, hws, hread⟩ := Option.bind_eq_some_iff.1 h
  obtain ⟨w, hw, htr⟩ := ((readOff_isSome _).1 (Option.isSome_iff_exists.2 ⟨info, hread⟩)).transport
  have hne : (ws.filter fun w => w.1.isTransport) ≠ [] := List.ne_nil_of_mem (List.mem_filter.2 ⟨hw, htr⟩)
  obtain ⟨w, hlast⟩ : ∃ w, (ws.filter fun w => w.1.isTransport).getLast? = some w :=
    ⟨_, List.getLast?_eq_some_getLast hne⟩
  refine ⟨w, by rw [transportHeader, hws]; exact hlast, ?_⟩
  obtain ⟨s, hs, hfin⟩ := Option.bind_eq_some_iff.1 hread
  obtain ⟨-, -, rfl⟩ := Scan.finish_eq hfin
  have hproto : s.info.proto = w.1.proto := by
    refine scanLayers_last_transport hs ?_
    rw [List.filter_map, List.getLast?_map]
    exact congrArg _ hlast
  rw [ports_of_last hws hlast, ← hproto, scanLayers_flags hs]

end Readings

/-! ### The framings -/

section Framings
variable {opts : IPOptions} {dfb : LayerDecoders} {v : IPVersion} {dg p : List UInt8} {lt : LinkType} {d : FlowDecoder}
  {typ : LayerType} {g : GoLayer} {info : PacketInfo} {h : LayerStruct} {e : FlowHeaders} {fuel : ℕ}
  {ws : List (LayerType × List UInt8)}

theorem IsDatagram.ne_nil (h : IsDatagram v dg) : dg ≠ [] := by
  rintro rfl
  cases v <;> cases h

theorem reading_framed (hgo : Gopacket opts dfb) (hdg : dg ≠ []) (hf : Framed v dg lt p)
    (hnew : newFlowDecoder lt = .ok d) :
    reading dfb d.first p = reading dfb (if lt = .raw then .ipv4 else v.layer) dg := by
  cases hf with
  | ethernet macs hm =>
    cases hnew
    exact reading_hands hgo.shrinks (hgo.link.eth macs v dg hm) rfl rfl hdg
  | dot1q macs tci hm ht =>
    cases hnew
    have hne : tci ++ v.etherType ++ dg ≠ [] := by simp [hdg]
    rw [reading_hands hgo.shrinks (hgo.link.ethDot1q macs _ hm) rfl rfl hne]
    exact reading_hands hgo.shrinks (hgo.link.dot1q tci v dg ht) rfl rfl hdg
  | null header hh =>
    cases hnew
    exact reading_hands hgo.shrinks (hgo.link.loop header v dg hh) rfl rfl hdg
  | loop header hh =>
    cases hnew
    exact reading_hands hgo.shrinks (hgo.link.loop header v dg hh) rfl rfl hdg
  | raw =>
    cases hnew
    rfl

/-! ### The headers that are walked -/

theorem layer_decoder (v : IPVersion) : v.layer.decoder = some (.go v.goLayer) := by cases v <;> rfl

theorem layer_addrLayer (v : IPVersion) : v.layer.addrLayer = some v.goLayer := by cases v <;> rfl

theorem layer_not_transport (v : IPVersion) : v.layer.isTransport = false := by cases v <;> rfl

theorem walk_none (h : typ.decoder = none) : walk dfb (fuel + 1) typ dg = some [] := by rw [walk, h]

theorem known_layerPayload (s : LayerStruct) : s.known.layerPayload = s.layerPayload := rfl

theorem walk_known (s : LayerStruct) :
    walk dfb (fuel + 1) s.nextLayerType dg = walk dfb (fuel + 1) s.known.nextLayerType dg := by
  unfold LayerStruct.known
  dsimp only
  split_ifs with h
  · rw [walk_none h, walk_none rfl]
  · rfl

theorem walk_no_header (hgo : Gopacket opts dfb) (hh : opts.header v dg = none) :
    walk dfb (fuel + 1) v.layer dg = none := by
  rw [walk_go (layer_decoder v), hgo.ip.whole, hh]
  rfl

/-- Behind a whole header the walk goes on where the header says. -/
theorem walk_header (hgo : Gopacket opts dfb) (hh : opts.header v dg = some h) (fuel : ℕ) :
    walk dfb (fuel + 2) v.layer dg = if h.layerPayload = [] then some [(v.layer, dg)]
      else (walk dfb (fuel + 1) h.nextLayerType h.layerPayload).map ((v.layer, dg) :: ·) := by
  have hread := hgo.ip.header v {} dg h hh
  have hpay : (dfb v.goLayer {} dg).1.layerPayload = h.layerPayload := by rw [← hread, known_layerPayload]
  rw [walk_go (layer_decoder v), hgo.ip.whole, hh, Option.isSome_some, if_pos rfl, hpay, walk_known, hread]

theorem length_payload_lt (hgo : Gopacket opts dfb) (hh : opts.header v dg = some h) :
    h.layerPayload.length < dg.length := by
  have hread := hgo.ip.header v {} dg h hh
  have hlt := hgo.shrinks v.goLayer {} dg (by rw [hgo.ip.whole, hh]; rfl)
  rwa [← known_layerPayload, hread] at hlt

theorem walk_ports (hdec : typ.decoder = some .ports) :
    walk dfb (fuel + 1) typ dg = if 4 ≤ dg.length then some [(typ, dg)] else none := by
  rw [walk, hdec]
  dsimp only
  split_ifs with hshort hlen hlen
  · omega
  · rfl
  · rfl
  · omega

/-- A layer that takes `n` bytes at least, and has nothing with a decoder behind it. -/
theorem walk_last {n : ℕ} (hdec : typ.decoder = some (.go g)) (hok : (dfb g {} dg).2 = decide (n ≤ dg.length))
    (hnext : (dfb g {} dg).2 = true → (dfb g {} dg).1.nextLayerType.decoder = none) :
    walk dfb (fuel + 2) typ dg = if n ≤ dg.length then some [(typ, dg)] else none := by
  rw [walk_go hdec]
  by_cases hlen : n ≤ dg.length
  · rw [decide_eq_true hlen] at hok
    rw [if_pos hlen, hok, if_pos rfl, walk_none (hnext hok)]
    split_ifs <;> rfl
  · rw [if_neg hlen, hok, decide_eq_false hlen]
    rfl

/-- A transport header ends the walk. -/
theorem walk_transport (hgo : Gopacket opts dfb)
    (htyp : typ ∈ ([.tcp, .udp, .icmpv4, .icmpv6] : List LayerType)) :
    walk dfb (fuel + 2) typ dg = if typ.headerLen ≤ dg.length then some [(typ, dg)] else none := by
  simp only [List.mem_cons, List.not_mem_nil, or_false] at htyp
  rcases htyp with rfl | rfl | rfl | rfl
  · exact walk_ports rfl
  · exact walk_ports rfl
  · exact walk_last rfl (hgo.ip.icmp4 _ _) (hgo.ip.icmp4_next _ _)
  · exact walk_last rfl (hgo.ip.icmp6 _ _) (hgo.ip.icmp6_next _ _)

/-- The layers of a walk end in these headers. -/
structure Ends (ws : List (LayerType × List UInt8)) (e : FlowHeaders) : Prop where
  net : (ws.filter fun w => w.1.addrLayer.isSome).getLast? = some (e.version.layer, e.datagram)
  transport : (ws.filter fun w => w.1.isTransport).getLast? = some (e.transport, e.segment)
  ip : ∀ w ∈ ws, w.1.addrLayer.isSome → ∃ v : IPVersion, w.1 = v.layer

theorem getLast?_cons_of_some {α : Type} {l : List α} {a b : α} (h : l.getLast? = some b) :
    (a :: l).getLast? = some b := by
  rw [List.getLast?_cons, h]
  rfl

theorem Ends.cons (h : Ends ws e) (v : IPVersion) (data : List UInt8) : Ends ((v.layer, data) :: ws) e := by
  refine ⟨?_, ?_, List.forall_mem_cons.2 ⟨fun _ => ⟨v, rfl⟩, h.ip⟩⟩
  · rw [List.filter_cons_of_pos (by rw [layer_addrLayer]; rfl)]
    exact getLast?_cons_of_some h.net
  · rw [List.filter_cons_of_neg (by rw [layer_not_transport]; decide)]
    exact h.transport

theorem ends_flow (v : IPVersion) (data seg : List UInt8)
    (htyp : typ ∈ ([.tcp, .udp, .icmpv4, .icmpv6] : List LayerType)) :
    Ends [(v.layer, data), (typ, seg)] ⟨v, data, typ, seg⟩ := by
  obtain ⟨htransport, haddr⟩ : typ.isTransport = true ∧ typ.addrLayer = none := by
    simp only [List.mem_cons, List.not_mem_nil, or_false] at htyp
    rcases htyp with rfl | rfl | rfl | rfl <;> exact ⟨rfl, rfl⟩
  refine ⟨?_, ?_, fun w hw his => ?_⟩
  · rw [List.filter_cons_of_pos (by rw [layer_addrLayer]; rfl), List.filter_cons_of_neg (by rw [haddr]; decide)]
    rfl
  · rw [List.filter_cons_of_neg (by rw [layer_not_transport]; decide), List.filter_cons_of_pos (by exact htransport)]
    rfl
  · rcases List.mem_pair.1 hw with rfl | rfl
    · exact ⟨v, rfl⟩
    · rw [haddr] at his
      cases his

/-- Where the headers lead to a flow's, so does the walk. -/
theorem walk_of_flowHeaders (hgo : Gopacket opts dfb) (he : opts.flowHeadersFrom fuel v dg = some e) :
    ∃ ws, walk dfb (fuel + 2) v.layer dg = some ws ∧ Ends ws e := by
  induction fuel generalizing v dg with
  | zero => cases he
  | succ fuel ih =>
    obtain ⟨h, hh, -⟩ := Option.bind_eq_some_iff.1 (id he)
    have hwalk := walk_header hgo hh (fuel + 1)
    rcases flowHeadersFrom_cases hh fuel with ⟨v', hn, hrest⟩ | ⟨htyp, hrest⟩ | ⟨-, hrest⟩
    · rw [hrest] at he
      have hne : h.layerPayload ≠ [] := fun hnil => by
        rw [hnil, flowHeadersFrom_nil] at he
        cases he
      obtain ⟨ws, hws, hends⟩ := ih he
      rw [if_neg hne, hn, hws] at hwalk
      exact ⟨_, hwalk, hends.cons v dg⟩
    · rw [hrest] at he
      obtain ⟨hlen, he⟩ := Option.ite_none_right_eq_some.1 he
      obtain rfl := Option.some.inj he
      have hne : h.layerPayload ≠ [] := fun hnil => by
        have hpos := headerLen_pos h.nextLayerType
        rw [hnil, List.length_nil] at hlen
        omega
      rw [if_neg hne, walk_transport hgo htyp, if_pos hlen] at hwalk
      exact ⟨_, hwalk, ends_flow v dg _ htyp⟩
    · rw [hrest] at he
      cases he

/-- Where they do not, the walk comes to no transport header. -/
theorem no_transport_of_walk (hgo : Gopacket opts dfb) (he : opts.flowHeadersFrom fuel v dg = none)
    (hfuel : dg.length < fuel) (hws : walk dfb (fuel + 2) v.layer dg = some ws) :
    ∀ w ∈ ws, w.1.isTransport = false := by
  induction fuel generalizing v dg ws with
  | zero => omega
  | succ fuel ih =>
    cases hh : opts.header v dg with
    | none =>
      rw [walk_no_header hgo hh] at hws
      cases hws
    | some h =>
      have hlt := length_payload_lt hgo hh
      rw [walk_header hgo hh (fuel + 1)] at hws
      split_ifs at hws with hnil
      · obtain rfl := Option.some.inj hws
        simp [layer_not_transport]
      obtain ⟨ws', hws', rfl⟩ := Option.map_eq_some_iff.1 hws
      refine List.forall_mem_cons.2 ⟨layer_not_transport v, ?_⟩
      rcases flowHeadersFrom_cases hh fuel with ⟨v', hn, hrest⟩ | ⟨htyp, hrest⟩ | ⟨hn, -⟩
      · rw [hrest] at he
        rw [hn] at hws'
        exact ih he (by omega) hws'
      · rw [hrest] at he
        rw [walk_transport hgo htyp] at hws'
        split_ifs at he hws'
      · rw [hn, walk_none rfl] at hws'
        obtain rfl := Option.some.inj hws'
        exact fun _ hw => by cases hw

theorem packetLayers_eq (hgo : Gopacket opts dfb) : packetLayers dfb typ dg = walk dfb (dg.length + 1 + 2) typ dg :=
  walk_fuel hgo.shrinks (Nat.lt_succ_self _) (by omega)

/-- The struct of a decoder is what one of its layers left in it. -/
theorem layersOf_of_mem (dfb : LayerDecoders) (hw : ∃ w ∈ ws, w.1.decoder = some (.go g)) :
    ∃ w ∈ ws, w.1.decoder = some (.go g) ∧ layersOf dfb ws g = (dfb g {} w.2).1 := by
  induction ws using List.reverseRecOn with
  | nil => simp at hw
  | append_singleton ws x ih =>
    rw [layersOf, List.foldl_append, List.foldl_cons, List.foldl_nil, FlowDecoder.absorb]
    by_cases hx : x.1.decoder = some (.go g)
    · refine ⟨x, List.mem_append_right _ (List.mem_singleton_self x), hx, ?_⟩
      rw [hx]
      exact Function.update_self ..
    · obtain ⟨w, hw, hdec⟩ := hw
      have hmem : w ∈ ws := (List.mem_append.1 hw).resolve_right fun h => hx (List.mem_singleton.1 h ▸ hdec)
      obtain ⟨w', hw', hdec', heq⟩ := ih ⟨w, hmem, hdec⟩
      refine ⟨w', List.mem_append_left _ hw', hdec', ?_⟩
      split
      · exact heq
      · exact heq
      · rename_i g' hg'
        exact (Function.update_of_ne (fun hgg : g = g' => hx (hgg ▸ hg')) ..).trans heq

theorem attributable_of_ends (hgo : Gopacket opts dfb) (hws : packetLayers dfb typ dg = some ws) (h : Ends ws e) :
    Attributable dfb ws := by
  obtain ⟨hnet, haddr⟩ := List.mem_filter.1 (List.mem_of_getLast? h.net)
  obtain ⟨htransport, his⟩ := List.mem_filter.1 (List.mem_of_getLast? h.transport)
  refine ⟨fun w hw g hg => ?_, ⟨_, hnet, haddr⟩, ⟨_, htransport, his⟩⟩
  obtain ⟨v, hv⟩ := h.ip w hw (by rw [hg]; rfl)
  rw [hv, layer_addrLayer] at hg
  obtain rfl := Option.some.inj hg
  obtain ⟨w', hw', hdec, heq⟩ := layersOf_of_mem dfb ⟨w, hw, by rw [hv]; exact layer_decoder v⟩
  have hok := walk_ok hws w' hw' _ hdec
  rw [hgo.ip.whole] at hok
  obtain ⟨hd, hh⟩ := Option.isSome_iff_exists.1 hok
  have hread := hgo.ip.header v {} w'.2 hd hh
  rw [heq]
  show (dfb v.goLayer {} w'.2).1.known.addrs.isSome
  rw [hread]
  exact (header_fields hh).2.1

/-- `decode` makes a flow of a datagram just when its headers lead to one. -/
theorem reading_isSome_iff (hgo : Gopacket opts dfb) :
    (reading dfb v.layer dg).isSome ↔ (opts.flowHeaders v dg).isSome := by
  rw [reading_isSome]
  cases he : opts.flowHeaders v dg with
  | none =>
    refine iff_of_false (fun ⟨ws, hws, hattr⟩ => ?_) (by simp)
    rw [packetLayers_eq hgo] at hws
    obtain ⟨w, hw, his⟩ := hattr.transport
    rw [no_transport_of_walk hgo he (Nat.lt_succ_self _) hws w hw] at his
    cases his
  | some e =>
    obtain ⟨ws, hws, hends⟩ := walk_of_flowHeaders hgo he
    rw [← packetLayers_eq hgo] at hws
    exact iff_of_true ⟨ws, hws, attributable_of_ends hgo hws hends⟩ rfl

theorem netFields_header (hgo : Gopacket opts dfb) (hh : opts.header v dg = some h) :
    netFields dfb (v.layer, dg) = (v.addrs dg).map fun a => (a.1, a.2, datagramBytes v dg) := by
  have hread := hgo.ip.header v {} dg h hh
  obtain ⟨haddrs, -, hlen⟩ := header_fields hh
  have hnet : netFields dfb (v.layer, dg) = (dfb v.goLayer {} dg).1.known.addrs.map fun a =>
      (a.1, a.2, v.totalLength (dfb v.goLayer {} dg).1.known.length) := by cases v <;> rfl
  rw [hnet, hread, haddrs, hlen]
  rfl

/-- And what it returns is read off these headers. -/
theorem reading_flowHeaders (hgo : Gopacket opts dfb) (he : opts.flowHeaders v dg = some e)
    (hr : reading dfb v.layer dg = some info) :
    e.version.addrs e.datagram = some (info.src, info.dst) ∧ datagramBytes e.version e.datagram = info.bytes ∧
      transportFields (e.transport, e.segment) =
        (info.proto, (info.srcPort, info.dstPort), (info.syn, info.ack, info.rst)) := by
  obtain ⟨ws, hws, hends⟩ := walk_of_flowHeaders hgo he
  rw [← packetLayers_eq hgo] at hws
  obtain ⟨w, g, hin, hg, hok, hnet⟩ := reading_net hr
  obtain ⟨t, ht, hfields⟩ := reading_transport hr
  rw [innermost, hws, Option.bind_some, hends.net] at hin
  rw [transportHeader, hws, Option.bind_some, hends.transport] at ht
  obtain rfl := Option.some.inj hin
  obtain rfl := Option.some.inj ht
  dsimp only at hg hok
  rw [layer_addrLayer] at hg
  obtain rfl := Option.some.inj hg
  rw [hgo.ip.whole] at hok
  obtain ⟨h, hh⟩ := Option.isSome_iff_exists.1 hok
  rw [netFields_header hgo hh] at hnet
  obtain ⟨a, ha, heq⟩ := Option.map_eq_some_iff.1 hnet
  simp only [Prod.mk.injEq] at heq
  refine ⟨?_, heq.2.2, hfields⟩
  rw [ha, ← heq.1, ← heq.2.1]

/-- Taken for IPv4 and for IPv6, a datagram is one packet iff the headers that it leads to have the same fields. -/
theorem reading_eq_iff {e' : FlowHeaders} {v' : IPVersion} (hgo : Gopacket opts dfb)
    (he : opts.flowHeaders v dg = some e) (he' : opts.flowHeaders v' dg = some e') :
    reading dfb v.layer dg = reading dfb v'.layer dg ↔ e.Same e' := by
  obtain ⟨info, hr⟩ := Option.isSome_iff_exists.1 ((reading_isSome_iff hgo).2 (by rw [he]; rfl))
  obtain ⟨info', hr'⟩ := Option.isSome_iff_exists.1 ((reading_isSome_iff hgo).2 (by rw [he']; rfl))
  obtain ⟨haddrs, hbytes, hfields⟩ := reading_flowHeaders hgo he hr
  obtain ⟨haddrs', hbytes', hfields'⟩ := reading_flowHeaders hgo he' hr'
  have hsame : e.Same e' ↔ (info.src, info.dst) = (info'.src, info'.dst) ∧ info.bytes = info'.bytes ∧
      (info.proto, (info.srcPort, info.dstPort), (info.syn, info.ack, info.rst)) =
        (info'.proto, (info'.srcPort, info'.dstPort), (info'.syn, info'.ack, info'.rst)) := by
    rw [← Option.some_inj, ← haddrs, ← haddrs', ← hbytes, ← hbytes', ← hfields, ← hfields']
    exact ⟨fun h => ⟨h.addrs, h.bytes, h.transport⟩, fun ⟨h1, h2, h3⟩ => ⟨h1, h2, h3⟩⟩
  rw [hr, hr', Option.some_inj, hsame]
  cases info
  cases info'
  simp only [PacketInfo.mk.injEq, Prod.mk.injEq]
  tauto

theorem reading_eq_none_iff (hgo : Gopacket opts dfb) :
    reading dfb v.layer dg = none ↔ opts.flowHeaders v dg = none := by
  rw [← Option.not_isSome_iff_eq_none, ← Option.not_isSome_iff_eq_none, reading_isSome_iff hgo]

theorem readings_eq_iff (hgo : Gopacket opts dfb) {v' : IPVersion} :
    reading dfb v.layer dg = reading dfb v'.layer dg ↔
      (opts.flowHeaders v dg = none ∧ opts.flowHeaders v' dg = none) ∨
      ∃ e e', opts.flowHeaders v dg = some e ∧ opts.flowHeaders v' dg = some e' ∧ e.Same e' := by
  cases he : opts.flowHeaders v dg with
  | none =>
    rw [(reading_eq_none_iff hgo).2 he, eq_comm, reading_eq_none_iff hgo]
    simp
  | some e =>
    cases he' : opts.flowHeaders v' dg with
    | none =>
      rw [(reading_eq_none_iff hgo).2 he', reading_eq_none_iff hgo, he]
      simp
    | some e' =>
      rw [reading_eq_iff hgo he he']
      simp

/-- The length that is returned is that of the IP datagram that the transport header is in. -/
theorem bytes_iff (hgo : Gopacket opts dfb) :
    (∀ info, reading dfb v.layer dg = some info → info.bytes = datagramBytes v dg) ↔
      ∀ e, opts.flowHeaders v dg = some e → datagramBytes e.version e.datagram = datagramBytes v dg := by
  constructor
  · intro hall e he
    obtain ⟨info, hr⟩ := Option.isSome_iff_exists.1 ((reading_isSome_iff hgo).2 (by rw [he]; rfl))
    exact (reading_flowHeaders hgo he hr).2.1.trans (hall info hr)
  · intro hall info hr
    obtain ⟨e, he⟩ := Option.isSome_iff_exists.1 ((reading_isSome_iff hgo).1 (by rw [hr]; rfl))
    exact (reading_flowHeaders hgo he hr).2.1.symm.trans (hall e he)

theorem readAlike_iff (hgo : Gopacket opts dfb) : ReadAlike opts v dg ↔ reading dfb .ipv4 dg = reading dfb v.layer dg ∧
    ∀ info, reading dfb v.layer dg = some info → info.bytes = datagramBytes v dg := by
  rw [bytes_iff hgo]
  cases v with
  | v4 => exact ⟨fun h => ⟨rfl, h⟩, And.right⟩
  | v6 =>
    have heq : reading dfb (IPVersion.layer .v4) dg = reading dfb (IPVersion.layer .v6) dg ↔ _ := readings_eq_iff hgo
    change _ ∨ _ ↔ reading dfb (IPVersion.layer .v4) dg = _ ∧ _
    rw [heq]
    constructor
    · rintro (⟨h4, h6⟩ | ⟨-, -, e4, e6, h4, h6, hsame, hbytes⟩)
      · exact ⟨.inl ⟨h4, h6⟩, fun e he => by rw [h6] at he; cases he⟩
      · refine ⟨.inr ⟨e4, e6, h4, h6, hsame⟩, fun e he => ?_⟩
        obtain rfl := Option.some.inj (h6.symm.trans he)
        exact hbytes
    · rintro ⟨hno | ⟨e4, e6, h4, h6, hsame⟩, hbytes⟩
      · exact .inl hno
      · obtain ⟨hsix, hseven⟩ := hopByHop_of_flowHeaders h4 h6
        exact .inr ⟨hsix, hseven, e4, e6, h4, h6, hsame, hbytes e6 h6⟩

/-- The framing of a datagram does not show in what `decode` returns, and the length that is returned is the
datagram's, iff its bytes are such. -/
theorem framingIndependent_iff (hgo : Gopacket opts dfb) (hdg : IsDatagram v dg) :
    FramingIndependent dfb v dg ↔ ReadAlike opts v dg := by
  have hdecode : ∀ lt p d, Framed v dg lt p → newFlowDecoder lt = .ok d →
      (d.decode dfb p).2 = reading dfb (if lt = .raw then .ipv4 else v.layer) dg := fun lt p d hf hnew =>
    (decode_fresh hgo.overwrites (newFlowDecoder_ports hnew)).trans (reading_framed hgo hdg.ne_nil hf hnew)
  have hnull : Framed v dg .null ([v.families.headD 0, 0, 0, 0] ++ dg) := .null _ (by cases v <;> decide)
  have hraw : Framed v dg .raw dg := .raw
  rw [readAlike_iff hgo]
  constructor
  · intro hi
    have hboth := hi.same _ _ _ _ _ _ hraw rfl hnull rfl
    rw [hdecode _ _ _ hraw rfl, hdecode _ _ _ hnull rfl] at hboth
    exact ⟨hboth, fun info hinfo => hi.bytes _ _ _ info hnull rfl ((hdecode _ _ _ hnull rfl).trans hinfo)⟩
  · rintro ⟨heq, hbytes⟩
    have hall : ∀ lt p d, Framed v dg lt p → newFlowDecoder lt = .ok d →
        (d.decode dfb p).2 = reading dfb v.layer dg := by
      intro lt p d hf hnew
      rw [hdecode lt p d hf hnew]
      split
      · exact heq
      · rfl
    constructor
    · intro lt p d lt' p' d' hf hnew hf' hnew'
      rw [hall lt p d hf hnew, hall lt' p' d' hf' hnew']
    · intro lt p d info hf hnew hinfo
      exact hbytes info ((hall lt p d hf hnew).symm.trans hinfo)

end Framings

/-! ### Two datagrams -/

/-- The layer an EtherType names. -/
def etherTypeLayer (b : List UInt8) : LayerType :=
  if b = [0x08, 0x00] then .ipv4
  else if b = [0x86, 0xdd] then .ipv6
  else if b = [0x81, 0x00] then .dot1q
  else if b = [0x08, 0x06] then .arp
  else .other 2

/-- The layer an address family names, in either byte order. -/
def familyLayer (b : List UInt8) : LayerType :=
  if b ∈ IPVersion.v4.familyHeaders then .ipv4 else if b ∈ IPVersion.v6.familyHeaders then .ipv6 else .other 3

/-- Without hop-by-hop options, and with IPv4 options taken as they are. -/
def plainOptions : IPOptions := ⟨fun _ => true, fun _ => none⟩

/-- gopacket's layers, but ARP. -/
def frameDecoders : LayerDecoders
  | .eth, s, data =>
    if data.length < 14 then (s, false)
    else ({ nextLayerType := etherTypeLayer ((data.drop 12).take 2), layerPayload := data.drop 14 }, true)
  | .dot1q, s, data =>
    if data.length < 4 then (s, false)
    else ({ nextLayerType := etherTypeLayer ((data.drop 2).take 2), layerPayload := data.drop 4 }, true)
  | .loop, s, data =>
    if data.length < 4 then (s, false)
    else ({ nextLayerType := familyLayer (data.take 4), layerPayload := data.drop 4 }, true)
  | .ip4, s, data => (plainOptions.header .v4 data).elim (s, false) (·, true)
  | .ip6, s, data => (plainOptions.header .v6 data).elim (s, false) (·, true)
  | .icmp4, s, data => if data.length < 8 then (s, false) else ({ layerPayload := data.drop 8 }, true)
  | .icmp6, s, data => if data.length < 4 then (s, false) else ({ layerPayload := data.drop 4 }, true)
  | .arp, s, _ => (s, false)

theorem length_payload_plain {v : IPVersion} {data : List UInt8} {h : LayerStruct}
    (hh : plainOptions.header v data = some h) : h.layerPayload.length < data.length := by
  cases v with
  | v4 =>
    obtain ⟨⟨hlen, hihl, -⟩, hh⟩ := Option.ite_none_right_eq_some.1 hh
    obtain rfl := Option.some.inj hh
    simp only [List.length_drop, List.length_take]
    omega
  | v6 =>
    obtain ⟨hlen, hh⟩ := Option.ite_none_left_eq_some.1 hh
    obtain ⟨c, hc, rfl⟩ := Option.map_eq_some_iff.1 hh
    rw [IPOptions.ip6Carried] at hc
    split_ifs at hc with hhop hzero
    · cases hc
    · obtain rfl := Option.some.inj hc
      simp only [List.length_drop, List.length_take]
      omega

theorem frameDecoders_header (v : IPVersion) (s : LayerStruct) (data : List UInt8) :
    frameDecoders v.goLayer s data = (plainOptions.header v data).elim (s, false) (·, true) := by cases v <;> rfl

theorem frameDecoders_cases (g : GoLayer) (data : List UInt8) :
    (∀ s, frameDecoders g s data = (s, false)) ∨
      ∃ r, r.layerPayload.length < data.length ∧ ∀ s, frameDecoders g s data = (r, true) := by
  have hguard : ∀ (P : Prop) [Decidable P] (r : LayerStruct), (¬ P → r.layerPayload.length < data.length) →
      (∀ s : LayerStruct, (if P then (s, false) else (r, true)) = (s, false)) ∨
        ∃ r', r'.layerPayload.length < data.length ∧
          ∀ s : LayerStruct, (if P then (s, false) else (r, true)) = (r', true) := by
    intro P _ r hlen
    by_cases hP : P
    · exact .inl fun s => if_pos hP
    · exact .inr ⟨r, hlen hP, fun s => if_neg hP⟩
  have hip : ∀ v : IPVersion, (∀ s, frameDecoders v.goLayer s data = (s, false)) ∨
      ∃ r, r.layerPayload.length < data.length ∧ ∀ s, frameDecoders v.goLayer s data = (r, true) := by
    intro v
    cases hh : plainOptions.header v data with
    | none => exact .inl fun s => by rw [frameDecoders_header, hh]; rfl
    | some h => exact .inr ⟨h, length_payload_plain hh, fun s => by rw [frameDecoders_header, hh]; rfl⟩
  cases g with
  | arp => exact .inl fun s => rfl
  | ip4 => exact hip .v4
  | ip6 => exact hip .v6
  | _ =>
    refine hguard _ _ fun h => ?_
    simp only [List.length_drop, not_lt] at h ⊢
    omega

theorem frameDecoders_overwrites : Overwrites frameDecoders := by
  constructor
  · intro g s s' data
    rcases frameDecoders_cases g data with h | ⟨r, -, h⟩ <;> rw [h, h]
  · intro g s s' data hok
    rcases frameDecoders_cases g data with h | ⟨r, -, h⟩
    · rw [h] at hok
      cases hok
    · rw [h, h]

theorem frameDecoders_shrinks : Shrinks frameDecoders := by
  intro g s data hok
  rcases frameDecoders_cases g data with h | ⟨r, hlt, h⟩
  · rw [h] at hok
    cases hok
  · rw [h]
    exact hlt

/-- The two bytes of the type field, and what follows them. -/
theorem typeField (head et rest : List UInt8) {n : Nat} (hn : head.length = n) (het : et.length = 2) :
    ¬ (head ++ et ++ rest).length < n + 2 ∧ ((head ++ et ++ rest).drop n).take 2 = et ∧
      (head ++ et ++ rest).drop (n + 2) = rest := by
  refine ⟨?_, ?_, List.drop_left' (by rw [List.length_append, hn, het])⟩
  · rw [List.length_append, List.length_append]
    omega
  · rw [List.append_assoc, List.drop_left' hn, List.take_left' het]

theorem etherType_length (v : IPVersion) : v.etherType.length = 2 := by cases v <;> rfl

theorem etherTypeLayer_etherType (v : IPVersion) : etherTypeLayer v.etherType = v.layer := by cases v <;> decide

theorem length_familyHeader {v : IPVersion} {header : List UInt8} (h : header ∈ v.familyHeaders) :
    header.length = 4 := by
  revert header
  cases v <;> decide

theorem familyLayer_familyHeader {v : IPVersion} {header : List UInt8} (h : header ∈ v.familyHeaders) :
    familyLayer header = v.layer := by
  revert header
  cases v <;> decide

theorem frameDecoders_link : LinkLayers frameDecoders where
  eth macs v rest hm s := by
    obtain ⟨hlen, htype, hrest⟩ := typeField macs _ rest hm (etherType_length v)
    simp only [frameDecoders, if_neg hlen, htype, hrest, etherTypeLayer_etherType, and_true]
  ethDot1q macs rest hm s := by
    obtain ⟨hlen, htype, hrest⟩ := typeField macs [0x81, 0x00] rest hm rfl
    simp only [frameDecoders, if_neg hlen, htype, hrest, and_true, true_and]
    decide
  dot1q tci v rest ht s := by
    obtain ⟨hlen, htype, hrest⟩ := typeField tci _ rest ht (etherType_length v)
    simp only [frameDecoders, if_neg hlen, htype, hrest, etherTypeLayer_etherType, and_true]
  loop header v rest hh s := by
    have hfour := length_familyHeader hh
    have hlen : ¬ (header ++ rest).length < 4 := by simp [hfour]
    have htype : (header ++ rest).take 4 = header := List.take_left' hfour
    have hrest : (header ++ rest).drop 4 = rest := List.drop_left' hfour
    simp only [frameDecoders, if_neg hlen, htype, hrest, familyLayer_familyHeader hh, and_true]

theorem known_of_header {opts : IPOptions} {v : IPVersion} {data : List UInt8} {h : LayerStruct}
    (hh : opts.header v data = some h) : h.known = h := by
  have hnext : (if h.nextLayerType.decoder = none then .zero else h.nextLayerType) = h.nextLayerType := by
    have hcases := header_next hh
    simp only [List.mem_cons, List.not_mem_nil, or_false] at hcases
    rcases hcases with hn | hn | hn | hn | hn | hn | hn <;> rw [hn] <;> rfl
  rw [LayerStruct.known, hnext]

theorem frameDecoders_ip : IPLayers plainOptions frameDecoders where
  whole v s data := by
    rw [frameDecoders_header]
    cases plainOptions.header v data <;> rfl
  header v s data h hh := by
    rw [frameDecoders_header, hh]
    exact known_of_header hh
  icmp4 s data := by
    by_cases hlen : data.length < 8
    · simp [frameDecoders, hlen]
    · simp [frameDecoders, hlen, not_lt.1 hlen]
  icmp6 s data := by
    by_cases hlen : data.length < 4
    · simp [frameDecoders, hlen]
    · simp [frameDecoders, hlen, not_lt.1 hlen]
  icmp4_next s data hok := by
    by_cases hlen : data.length < 8
    · simp [frameDecoders, hlen] at hok
    · simp [frameDecoders, hlen, LayerType.decoder]
  icmp6_next s data hok := by
    by_cases hlen : data.length < 4
    · simp [frameDecoders, hlen] at hok
    · simp [frameDecoders, hlen, LayerType.decoder]

theorem frameDecoders_gopacket : Gopacket plainOptions frameDecoders :=
  ⟨frameDecoders_overwrites, frameDecoders_shrinks, frameDecoders_link, frameDecoders_ip⟩

/-- A datagram that carries no other has its own length. -/
theorem synPacket_framingIndependent : Gopacket plainOptions frameDecoders ∧ IsDatagram .v4 synPacket ∧
    (plainOptions.flowHeaders .v4 synPacket).map FlowHeaders.transport = some .tcp ∧
    FramingIndependent frameDecoders .v4 synPacket := by
  have hdg : IsDatagram .v4 synPacket := by decide
  have hheaders : plainOptions.flowHeaders .v4 synPacket = some ⟨.v4, synPacket, .tcp, synPacket.drop 20⟩ := by
    decide +kernel
  have hown : ReadAlike plainOptions .v4 synPacket := fun e he => by
    obtain rfl := Option.some.inj (hheaders.symm.trans he)
    rfl
  exact ⟨frameDecoders_gopacket, hdg, by rw [hheaders]; rfl,
    (framingIndependent_iff frameDecoders_gopacket hdg).2 hown⟩

/-- The same connection attempt over IPv6, from ::1 to ::2. -/
def synPacket6 : List UInt8 :=
  [0x60, 0, 0, 0, 0, 20, 6, 64] ++ (List.replicate 15 0 ++ [1]) ++ (List.replicate 15 0 ++ [2]) ++ synPacket.drop 20

/-- Behind a loopback header the attempt is a packet of 60 bytes; bare, it is none. -/
theorem synPacket6_raw_lost : Gopacket plainOptions frameDecoders ∧ IsDatagram .v6 synPacket6 ∧
    ¬ FramingIndependent frameDecoders .v6 synPacket6 := by
  refine ⟨frameDecoders_gopacket, by decide, fun h => ?_⟩
  have hnull : Framed .v6 synPacket6 .null ([30, 0, 0, 0] ++ synPacket6) := .null _ (by decide)
  have hraw : Framed .v6 synPacket6 .raw synPacket6 := .raw
  have hsame := h.same _ _ _ _ _ _ hnull rfl hraw rfl
  rw [decode_fresh frameDecoders_overwrites rfl, decode_fresh frameDecoders_overwrites rfl] at hsame
  revert hsame
  decide

end Trafficmon
