import Mathlib.Data.List.Induction
import Trafficmon.Capture.Decode

/-!
# What a decoder remembers

`walk` is the parse of a packet on its own: the layers it has, each with the bytes it starts at, no
decoder involved. `decodeLayers_eq` says that a decoder in *any* state walks the same way and takes
in the layers one by one (`absorb`). Of what `decode` then reads, the structs of the layers walked
are the packet's own; the ports are not where no TCP or UDP layer was walked, and the flags are not
where the TCP header was captured too short. `decode_forgets_iff` is the exact condition.
-/

namespace Trafficmon

def LayerType.isPorts (t : LayerType) : Bool := t.decoder = some .ports

/-- The layers of a packet and the bytes each was found in; `none` if one does not decode. -/
def walk (dfb : LayerDecoders) : Nat → LayerType → List UInt8 → Option (List (LayerType × List UInt8))
  | 0, _, _ => none
  | fuel + 1, typ, data =>
    match typ.decoder with
    | none => some []
    | some .ports => if data.length < 4 then none else some [(typ, data)]
    | some (.go g) =>
      let s := (dfb g {} data).1
      if (dfb g {} data).2 then
        if s.layerPayload = [] then some [(typ, data)]
        else (walk dfb fuel s.nextLayerType s.layerPayload).map ((typ, data) :: ·)
      else none

def packetLayers (dfb : LayerDecoders) (first : LayerType) (p : List UInt8) : Option (List (LayerType × List UInt8)) :=
  walk dfb (p.length + 1) first p

def FlowDecoder.absorb (dfb : LayerDecoders) (d : FlowDecoder) (w : LayerType × List UInt8) : FlowDecoder :=
  match w.1.decoder with
  | none => d
  | some .ports => { d with ports := (d.ports.decodeFromBytes w.2).1, decoded := d.decoded ++ [w.1] }
  | some (.go g) =>
    { d with layers := Function.update d.layers g (dfb g {} w.2).1, decoded := d.decoded ++ [w.1] }

section Walk
variable {dfb : LayerDecoders} {fuel : Nat} {typ : LayerType} {data : List UInt8}
  {ws : List (LayerType × List UInt8)} {d : FlowDecoder}

/-- A walk stops at a layer without a decoder, at the ports, or at an empty payload. -/
theorem walk_cases (h : walk dfb (fuel + 1) typ data = some ws) :
    (typ.decoder = none ∧ ws = []) ∨
    (typ.decoder = some .ports ∧ 4 ≤ data.length ∧ ws = [(typ, data)]) ∨
    ∃ g, typ.decoder = some (.go g) ∧ (ws = [(typ, data)] ∨
      ∃ next payload ws', walk dfb fuel next payload = some ws' ∧ ws = (typ, data) :: ws') := by
  rw [walk] at h
  split at h
  · exact .inl ⟨‹_›, (Option.some.inj h).symm⟩
  · split at h
    · cases h
    · exact .inr (.inl ⟨‹_›, by omega, (Option.some.inj h).symm⟩)
  · rename_i g hdec
    dsimp only at h
    split at h
    · split at h
      · exact .inr (.inr ⟨g, hdec, .inl (Option.some.inj h).symm⟩)
      · obtain ⟨ws', hws', rfl⟩ := Option.map_eq_some_iff.1 h
        exact .inr (.inr ⟨g, hdec, .inr ⟨_, _, ws', hws', rfl⟩⟩)
    · cases h

theorem walk_decoder (h : walk dfb fuel typ data = some ws) : ∀ w ∈ ws, w.1.decoder ≠ none := by
  induction fuel generalizing typ data ws with
  | zero => cases h
  | succ fuel ih =>
    rcases walk_cases h with ⟨-, rfl⟩ | ⟨hdec, -, rfl⟩ | ⟨g, hdec, rfl | ⟨next, payload, ws', hws', rfl⟩⟩
    · simp
    · simp [hdec]
    · simp [hdec]
    · exact List.forall_mem_cons.2 ⟨by simp [hdec], ih hws'⟩

/-- The ports end a walk: every layer before the last is gopacket's. -/
theorem walk_shape (h : walk dfb fuel typ data = some ws) :
    (∀ w ∈ ws, w.1.isPorts = false) ∨ ∃ pre typ t, ws = pre ++ [(typ, t)] ∧ typ.isPorts = true ∧
      4 ≤ t.length ∧ ∀ w ∈ pre, w.1.isPorts = false := by
  induction fuel generalizing typ data ws with
  | zero => cases h
  | succ fuel ih =>
    rcases walk_cases h with ⟨-, rfl⟩ | ⟨hdec, hlen, rfl⟩ | ⟨g, hdec, rfl | ⟨next, payload, ws', hws', rfl⟩⟩
    · exact .inl fun w hw => by cases hw
    · exact .inr ⟨[], typ, data, rfl, by simp [LayerType.isPorts, hdec], hlen, by simp⟩
    · exact .inl (by simp [LayerType.isPorts, hdec])
    · have hgo : typ.isPorts = false := by simp [LayerType.isPorts, hdec]
      rcases ih hws' with hnone | ⟨pre, typ', t, rfl, htyp', ht, hpre⟩
      · exact .inl (List.forall_mem_cons.2 ⟨hgo, hnone⟩)
      · exact .inr ⟨(typ, data) :: pre, typ', t, rfl, htyp', ht, List.forall_mem_cons.2 ⟨hgo, hpre⟩⟩

/-- A decoder in any state walks the packet's layers and takes them in. -/
theorem decodeLayersFrom_eq (h : Overwrites dfb) (fuel : Nat) (d : FlowDecoder) (typ : LayerType) (data : List UInt8) :
    match walk dfb fuel typ data with
    | none => (FlowDecoder.decodeLayersFrom dfb fuel d typ data).2 = false
    | some ws => FlowDecoder.decodeLayersFrom dfb fuel d typ data = (ws.foldl (FlowDecoder.absorb dfb) d, true) := by
  induction fuel generalizing d typ data with
  | zero => rfl
  | succ fuel ih =>
    rw [walk, FlowDecoder.decodeLayersFrom, FlowDecoder.decodeLayer]
    cases hdec : typ.decoder with
    | none => rfl
    | some dec =>
      cases dec with
      | ports =>
        by_cases hlen : data.length < 4
        · simp [TransportPorts.decodeFromBytes, hlen]
        · simp [TransportPorts.decodeFromBytes, hlen, FlowDecoder.absorb, hdec]
      | go g =>
        have hok := h.ok g (d.layers g) {} data
        cases hres : (dfb g {} data).2 with
        | false =>
          rw [hres] at hok
          simp [hres, hok]
        | true =>
          have hs := h.struct g {} (d.layers g) data hres
          rw [hres] at hok
          simp only [hok, hres, ← hs, if_true]
          by_cases hp : (dfb g {} data).1.layerPayload = []
          · simp [hp, FlowDecoder.absorb, hdec]
          · simp only [hp, if_false]
            have hrec := ih (d.absorb dfb (typ, data)) (dfb g {} data).1.nextLayerType (dfb g {} data).1.layerPayload
            have habs : d.absorb dfb (typ, data) = { d with
                layers := Function.update d.layers g (dfb g {} data).1, decoded := d.decoded ++ [typ] } := by
              simp [FlowDecoder.absorb, hdec]
            rw [habs] at hrec
            cases hw : walk dfb fuel (dfb g {} data).1.nextLayerType (dfb g {} data).1.layerPayload with
            | none =>
              rw [hw] at hrec
              exact hrec
            | some ws =>
              rw [hw] at hrec
              simpa [habs] using hrec

/-! ### What is taken in -/

theorem foldl_absorb_decoded (hws : ∀ w ∈ ws, w.1.decoder ≠ none) :
    (ws.foldl (FlowDecoder.absorb dfb) d).decoded = d.decoded ++ ws.map (·.1) := by
  induction ws generalizing d with
  | nil => simp
  | cons w ws ih =>
    obtain ⟨hw, hws⟩ := List.forall_mem_cons.1 hws
    have hd : (d.absorb dfb w).decoded = d.decoded ++ [w.1] := by
      unfold FlowDecoder.absorb
      split
      · exact absurd ‹_› hw
      · rfl
      · rfl
    rw [List.foldl_cons, ih hws, hd, List.map_cons, List.append_assoc, List.singleton_append]

/-- The struct of a layer that was walked is the packet's own, whatever the decoder held before. -/
theorem foldl_absorb_layers (d d' : FlowDecoder) {g : GoLayer} (hg : ∃ w ∈ ws, w.1.decoder = some (.go g)) :
    (ws.foldl (FlowDecoder.absorb dfb) d).layers g = (ws.foldl (FlowDecoder.absorb dfb) d').layers g := by
  induction ws using List.reverseRecOn with
  | nil => simp at hg
  | append_singleton ws w ih =>
    simp only [List.foldl_append, List.foldl_cons, List.foldl_nil]
    by_cases hw : w.1.decoder = some (.go g)
    · simp [FlowDecoder.absorb, hw]
    · -- the last layer is another one: an earlier layer filled the struct, and it was left alone
      obtain ⟨v, hv, hvg⟩ := hg
      have hv' : v ∈ ws := by
        rcases List.mem_append.1 hv with hv | hv
        · exact hv
        · exact absurd (List.mem_singleton.1 hv ▸ hvg) hw
      have hkeep : ∀ e : FlowDecoder, (e.absorb dfb w).layers g = e.layers g := by
        intro e
        unfold FlowDecoder.absorb
        split
        · rfl
        · rfl
        · rename_i g' hg'
          refine Function.update_of_ne ?_ _ _
          rintro rfl
          exact hw hg'
      rw [hkeep, hkeep]
      exact ih ⟨v, hv', hvg⟩

end Walk

/-! ### What is read off the layers -/

def LayerType.addrLayer : LayerType → Option GoLayer
  | .ipv4 => some .ip4
  | .ipv6 => some .ip6
  | .arp => some .arp
  | _ => none

/-- A layer that says what kind of flow a packet belongs to. -/
def LayerType.isTransport : LayerType → Bool
  | .tcp | .udp | .icmpv4 | .icmpv6 | .arp => true
  | _ => false

section Scan
variable {layers layers' : GoLayer → LayerStruct} {flags flags' : UInt8} {s s' : Scan} {typ : LayerType}
  {l : List LayerType}

theorem scanLayer_congr (hl : ∀ g, typ.addrLayer = some g → layers g = layers' g)
    (hf : typ = .tcp → flags = flags') : scanLayer layers flags s typ = scanLayer layers' flags' s typ := by
  cases typ with
  | ipv4 => simp only [scanLayer, hl .ip4 rfl]
  | ipv6 => simp only [scanLayer, hl .ip6 rfl]
  | arp => simp only [scanLayer, hl .arp rfl]
  | tcp => simp only [scanLayer, hf rfl]
  | _ => rfl

theorem scanLayers_congr (hl : ∀ typ ∈ l, ∀ g, typ.addrLayer = some g → layers g = layers' g)
    (hf : .tcp ∈ l → flags = flags') : scanLayers layers flags s l = scanLayers layers' flags' s l := by
  induction l generalizing s with
  | nil => rfl
  | cons typ l ih =>
    obtain ⟨htyp, hl⟩ := List.forall_mem_cons.1 hl
    simp only [scanLayers, List.foldlM_cons]
    rw [scanLayer_congr htyp fun h => hf (h ▸ List.mem_cons_self)]
    exact congrArg _ (funext fun s => ih hl fun h => hf (List.mem_cons_of_mem _ h))

theorem scanLayer_isSome (layers : GoLayer → LayerStruct) (flags : UInt8) (s : Scan) (typ : LayerType) :
    (scanLayer layers flags s typ).isSome ↔ ∀ g, typ.addrLayer = some g → (layers g).addrs.isSome := by
  cases typ <;> simp [scanLayer, LayerType.addrLayer]

theorem scanLayer_have (h : scanLayer layers flags s typ = some s') :
    s'.haveNet = (s.haveNet || typ.addrLayer.isSome) ∧ s'.haveTransport = (s.haveTransport || typ.isTransport) := by
  cases typ with
  | ipv4 | ipv6 | arp =>
    obtain ⟨_, -, rfl⟩ := Option.map_eq_some_iff.1 h
    simp [LayerType.addrLayer, LayerType.isTransport]
  | _ =>
    obtain rfl := Option.some.inj h
    simp [LayerType.addrLayer, LayerType.isTransport]

theorem scanLayers_isSome (layers : GoLayer → LayerStruct) (flags : UInt8) (s : Scan) (l : List LayerType) :
    (scanLayers layers flags s l).isSome ↔ ∀ typ ∈ l, ∀ g, typ.addrLayer = some g → (layers g).addrs.isSome := by
  induction l generalizing s with
  | nil => simp [scanLayers]
  | cons typ l ih =>
    rw [List.forall_mem_cons, ← scanLayer_isSome layers flags s]
    simp only [scanLayers, List.foldlM_cons]
    cases hs : scanLayer layers flags s typ with
    | none => simp
    | some s' => simpa [scanLayers] using ih s'

theorem scanLayers_have (h : scanLayers layers flags s l = some s') :
    s'.haveNet = (s.haveNet || l.any fun t => t.addrLayer.isSome) ∧
      s'.haveTransport = (s.haveTransport || l.any LayerType.isTransport) := by
  induction l generalizing s with
  | nil =>
    obtain rfl := Option.some.inj h
    simp
  | cons typ l ih =>
    rw [scanLayers, List.foldlM_cons] at h
    obtain ⟨s₁, hs₁, h⟩ := Option.bind_eq_some_iff.1 h
    obtain ⟨hn, ht⟩ := ih h
    obtain ⟨hn₁, ht₁⟩ := scanLayer_have hs₁
    rw [hn, ht, hn₁, ht₁]
    simp [Bool.or_assoc]

theorem scanLayers_concat (h : scanLayers layers flags s (l ++ [typ]) = some s') :
    ∃ s₁, scanLayers layers flags s l = some s₁ ∧ scanLayer layers flags s₁ typ = some s' := by
  rw [scanLayers, List.foldlM_append] at h
  obtain ⟨s₁, hs₁, h⟩ := Option.bind_eq_some_iff.1 h
  refine ⟨s₁, hs₁, ?_⟩
  simpa using h

theorem scanLayers_proto (h : scanLayers layers flags s l = some s') (hl : ∀ t ∈ l, t.isPorts = false)
    (hs : s.haveTransport = true → s.info.proto = .icmp ∨ s.info.proto = .arp) :
    s'.haveTransport = true → s'.info.proto = .icmp ∨ s'.info.proto = .arp := by
  induction l generalizing s with
  | nil =>
    obtain rfl := Option.some.inj h
    exact hs
  | cons typ l ih =>
    obtain ⟨htyp, hl⟩ := List.forall_mem_cons.1 hl
    rw [scanLayers, List.foldlM_cons] at h
    obtain ⟨s₁, hs₁, h⟩ := Option.bind_eq_some_iff.1 h
    refine ih h hl fun hht => ?_
    cases typ with
    | ipv4 | ipv6 =>
      obtain ⟨_, -, rfl⟩ := Option.map_eq_some_iff.1 hs₁
      exact hs hht
    | arp =>
      obtain ⟨_, -, rfl⟩ := Option.map_eq_some_iff.1 hs₁
      exact .inr rfl
    | icmpv4 | icmpv6 =>
      obtain rfl := Option.some.inj hs₁
      exact .inl rfl
    | tcp | udp => cases htyp
    | _ =>
      obtain rfl := Option.some.inj hs₁
      exact hs hht

end Scan

/-! ### A packet's own result -/

def layersOf (dfb : LayerDecoders) (ws : List (LayerType × List UInt8)) : GoLayer → LayerStruct :=
  (ws.foldl (FlowDecoder.absorb dfb) { first := .zero, linkType := .null }).layers

/-- The packet can be attributed: it has addresses, every layer that carries addresses carries
proper ones, and a layer says what it is. -/
structure Attributable (dfb : LayerDecoders) (ws : List (LayerType × List UInt8)) : Prop where
  addrs : ∀ w ∈ ws, ∀ g, w.1.addrLayer = some g → (layersOf dfb ws g).addrs.isSome
  net : ∃ w ∈ ws, w.1.addrLayer.isSome
  transport : ∃ w ∈ ws, w.1.isTransport

/-- What `decode` makes of the layers `ws` with these ports. -/
def readOff (dfb : LayerDecoders) (ws : List (LayerType × List UInt8)) (ports : TransportPorts) : Option PacketInfo :=
  (scanLayers (layersOf dfb ws) ports.flags {} (ws.map (·.1))).bind (·.finish ports)

def TransportPorts.after (ports : TransportPorts) (ws : List (LayerType × List UInt8)) : TransportPorts :=
  ws.foldl (fun ports w => if w.1.isPorts then (ports.decodeFromBytes w.2).1 else ports) ports

def tcpBits (flags : UInt8) : Bool × Bool × Bool :=
  (flags &&& tcpFlagSYN ≠ 0, flags &&& tcpFlagACK ≠ 0, flags &&& tcpFlagRST ≠ 0)

section Own
variable {dfb : LayerDecoders} {ws pre : List (LayerType × List UInt8)} {d : FlowDecoder} {p t : List UInt8}
  {ports ports' : TransportPorts} {typ : LayerType} {info : PacketInfo}

theorem foldl_absorb_ports_eq (d : FlowDecoder) : (ws.foldl (FlowDecoder.absorb dfb) d).ports = d.ports.after ws := by
  induction ws generalizing d with
  | nil => rfl
  | cons w ws ih =>
    have hw : (d.absorb dfb w).ports = if w.1.isPorts then (d.ports.decodeFromBytes w.2).1 else d.ports := by
      unfold FlowDecoder.absorb
      split <;> simp_all [LayerType.isPorts]
    rw [List.foldl_cons, ih, hw]
    rfl

theorem decoder_of_addrLayer {g : GoLayer} (h : typ.addrLayer = some g) : typ.decoder = some (.go g) := by
  cases typ <;> cases h <;> rfl

theorem decode_of_layers (h : Overwrites dfb) (hws : packetLayers dfb d.first p = some ws) :
    (d.decode dfb p).2 = readOff dfb ws (d.ports.after ws) := by
  have hrun := decodeLayersFrom_eq h (p.length + 1) { d with decoded := [] } d.first p
  rw [show walk dfb (p.length + 1) d.first p = some ws from hws] at hrun
  dsimp only at hrun
  rw [FlowDecoder.decode, FlowDecoder.decodeLayers, hrun]
  show (scanLayers _ _ _ _).bind _ = _
  rw [foldl_absorb_ports_eq, foldl_absorb_decoded (walk_decoder hws), List.nil_append, readOff]
  refine congrArg (Option.bind · _) (scanLayers_congr (fun typ htyp g hg => ?_) fun _ => rfl)
  obtain ⟨w, hw, rfl⟩ := List.mem_map.1 htyp
  exact foldl_absorb_layers _ _ ⟨w, hw, decoder_of_addrLayer hg⟩

theorem decode_of_no_layers (h : Overwrites dfb) (hws : packetLayers dfb d.first p = none) :
    (d.decode dfb p).2 = none := by
  have hrun := decodeLayersFrom_eq h (p.length + 1) { d with decoded := [] } d.first p
  rw [show walk dfb (p.length + 1) d.first p = none from hws] at hrun
  dsimp only at hrun
  unfold FlowDecoder.decode FlowDecoder.decodeLayers
  split
  · rfl
  · simp_all

theorem Scan.finish_isSome (s : Scan) : (s.finish ports).isSome ↔ s.haveNet = true ∧ s.haveTransport = true := by
  unfold Scan.finish
  cases s.haveNet <;> cases s.haveTransport <;> simp

theorem Scan.finish_eq {s : Scan} (h : s.finish ports = some info) : s.haveNet = true ∧ s.haveTransport = true ∧
    info = { s.info with srcPort := ports.src, dstPort := ports.dst } := by
  obtain ⟨hn, ht⟩ := s.finish_isSome.1 (Option.isSome_iff_exists.2 ⟨info, h⟩)
  rw [Scan.finish, if_neg (by simp [hn, ht])] at h
  exact ⟨hn, ht, (Option.some.inj h).symm⟩

theorem readOff_isSome (ports : TransportPorts) : (readOff dfb ws ports).isSome ↔ Attributable dfb ws := by
  have hscan := scanLayers_isSome (layersOf dfb ws) ports.flags {} (ws.map (·.1))
  rw [readOff]
  cases hs : scanLayers (layersOf dfb ws) ports.flags {} (ws.map (·.1)) with
  | none =>
    rw [hs] at hscan
    refine ⟨nofun, fun h => ?_⟩
    have hno := hscan.2 fun typ htyp => by
      obtain ⟨w, hw, rfl⟩ := List.mem_map.1 htyp
      exact h.addrs w hw
    cases hno
  | some s =>
    rw [hs] at hscan
    obtain ⟨hn, ht⟩ := scanLayers_have hs
    have hn' : s.haveNet = true ↔ ∃ w ∈ ws, w.1.addrLayer.isSome := by simp [hn]
    have ht' : s.haveTransport = true ↔ ∃ w ∈ ws, w.1.isTransport := by simp [ht]
    rw [Option.bind_some, s.finish_isSome, hn', ht']
    constructor
    · rintro ⟨hnet, htransport⟩
      exact ⟨fun w hw => hscan.1 rfl w.1 (List.mem_map.2 ⟨w, hw, rfl⟩), hnet, htransport⟩
    · exact fun h => ⟨h.net, h.transport⟩

/-! #### The ports -/

theorem after_of_no_ports (hws : ∀ w ∈ ws, w.1.isPorts = false) : ports.after ws = ports := by
  induction ws with
  | nil => rfl
  | cons w ws ih =>
    obtain ⟨hw, hws⟩ := List.forall_mem_cons.1 hws
    rw [TransportPorts.after, List.foldl_cons, hw]
    exact ih hws

theorem after_concat (hpre : ∀ w ∈ pre, w.1.isPorts = false) (htyp : typ.isPorts = true) (ht : 4 ≤ t.length) :
    ports.after (pre ++ [(typ, t)]) = ⟨bigEndianUint16 t 0, bigEndianUint16 t 2,
      if 14 ≤ t.length then t.getD 13 0 else ports.flags⟩ := by
  have hfold : ports.after (pre ++ [(typ, t)]) = (ports.after pre).after [(typ, t)] := List.foldl_append
  rw [hfold, after_of_no_ports hpre]
  simp only [TransportPorts.after, List.foldl_cons, List.foldl_nil, htyp, if_true, TransportPorts.decodeFromBytes]
  rw [if_neg (by omega)]
  split <;> rfl

theorem readOff_ports (h : readOff dfb ws ports = some info) : info.srcPort = ports.src ∧ info.dstPort = ports.dst := by
  obtain ⟨s, -, hs⟩ := Option.bind_eq_some_iff.1 h
  obtain ⟨-, -, rfl⟩ := Scan.finish_eq hs
  exact ⟨rfl, rfl⟩

theorem tcp_notMem (hws : ∀ w ∈ ws, w.1.isPorts = false) : LayerType.tcp ∉ ws.map (·.1) := by
  intro h
  obtain ⟨w, hw, hwt⟩ := List.mem_map.1 h
  have hno := hws w hw
  rw [hwt] at hno
  cases hno

theorem readOff_no_ports (hws : ∀ w ∈ ws, w.1.isPorts = false) :
    readOff dfb ws ports = (readOff dfb ws {}).map fun info =>
      { info with srcPort := ports.src, dstPort := ports.dst } := by
  have hscan : scanLayers (layersOf dfb ws) ports.flags {} (ws.map (·.1)) =
      scanLayers (layersOf dfb ws) 0 {} (ws.map (·.1)) :=
    scanLayers_congr (fun _ _ _ _ => rfl) fun h => absurd h (tcp_notMem hws)
  rw [readOff, readOff, hscan]
  cases scanLayers (layersOf dfb ws) 0 {} (ws.map (·.1)) with
  | none => rfl
  | some s =>
    simp only [Option.bind_some, Scan.finish]
    split <;> rfl

/-- A TCP layer at the end makes it a TCP packet, with the flags that are at hand. -/
theorem readOff_tcp (hpre : ∀ w ∈ pre, w.1.isPorts = false) (src dst : UInt16) (f : UInt8) :
    readOff dfb (pre ++ [(.tcp, t)]) ⟨src, dst, f⟩ =
      (readOff dfb (pre ++ [(.tcp, t)]) ⟨src, dst, 0⟩).map fun info =>
        { info with syn := (tcpBits f).1, ack := (tcpBits f).2.1, rst := (tcpBits f).2.2 } := by
  have hscan : scanLayers (layersOf dfb (pre ++ [(.tcp, t)])) f {} (pre.map (·.1)) =
      scanLayers (layersOf dfb (pre ++ [(.tcp, t)])) 0 {} (pre.map (·.1)) :=
    scanLayers_congr (fun _ _ _ _ => rfl) fun h => absurd h (tcp_notMem hpre)
  simp only [scanLayers] at hscan
  simp only [readOff, scanLayers, List.map_append, List.map_cons, List.map_nil, List.foldlM_append, hscan]
  cases (pre.map (·.1)).foldlM (scanLayer (layersOf dfb (pre ++ [(.tcp, t)])) 0) {} with
  | none => rfl
  | some s =>
    simp only [Option.bind_eq_bind, Option.pure_def, Option.bind_some, List.foldlM_cons, List.foldlM_nil, scanLayer,
      Scan.finish]
    split <;> rfl

theorem readOff_udp (hpre : ∀ w ∈ pre, w.1.isPorts = false) (src dst : UInt16) (f f' : UInt8) :
    readOff dfb (pre ++ [(.udp, t)]) ⟨src, dst, f⟩ = readOff dfb (pre ++ [(.udp, t)]) ⟨src, dst, f'⟩ := by
  rw [readOff, readOff]
  refine congrArg (Option.bind · _) (scanLayers_congr (fun _ _ _ _ => rfl) fun h => ?_)
  rw [List.map_append, List.mem_append] at h
  rcases h with h | h
  · exact absurd h (tcp_notMem hpre)
  · simp at h

theorem isPorts_iff : typ.isPorts = true ↔ typ = .tcp ∨ typ = .udp := by
  cases typ <;> simp [LayerType.isPorts, LayerType.decoder]

theorem proto_of_no_ports (hws : ∀ w ∈ ws, w.1.isPorts = false) (h : readOff dfb ws ports = some info) :
    info.proto = .icmp ∨ info.proto = .arp := by
  obtain ⟨s, hs, hfin⟩ := Option.bind_eq_some_iff.1 h
  obtain ⟨-, ht, rfl⟩ := Scan.finish_eq hfin
  refine scanLayers_proto hs (fun typ htyp => ?_) nofun ht
  obtain ⟨w, hw, rfl⟩ := List.mem_map.1 htyp
  exact hws w hw

theorem proto_of_ports (htyp : typ.isPorts = true) (h : readOff dfb (pre ++ [(typ, t)]) ports = some info) :
    (typ = .tcp ∧ info.proto = .tcp) ∨ (typ = .udp ∧ info.proto = .udp) := by
  obtain ⟨s, hs, hfin⟩ := Option.bind_eq_some_iff.1 h
  obtain ⟨-, -, rfl⟩ := Scan.finish_eq hfin
  rw [List.map_append, List.map_singleton] at hs
  obtain ⟨s₁, -, hs⟩ := scanLayers_concat hs
  rcases isPorts_iff.1 htyp with rfl | rfl
  · obtain rfl := Option.some.inj hs
    exact .inl ⟨rfl, rfl⟩
  · obtain rfl := Option.some.inj hs
    exact .inr ⟨rfl, rfl⟩

end Own

/-! ### Memory -/

/-- `d`, which has seen other packets, treats `p` as the fresh decoder `d₀` does; in particular an
ICMP or ARP packet has no ports, and a TCP packet's flags are those of its own header (`0` where the
header's flags byte was not captured). -/
structure NoMemory (dfb : LayerDecoders) (d₀ d : FlowDecoder) (p : List UInt8) : Prop where
  same : (d.decode dfb p).2 = (d₀.decode dfb p).2
  noPorts : ∀ info, (d.decode dfb p).2 = some info → info.proto = .icmp ∨ info.proto = .arp →
    info.srcPort = 0 ∧ info.dstPort = 0
  ownFlags : ∀ info, (d.decode dfb p).2 = some info → info.proto = .tcp →
    ∃ ws t, packetLayers dfb d₀.first p = some ws ∧ ws.getLast? = some (.tcp, t) ∧
      (info.syn, info.ack, info.rst) = tcpBits (t.getD 13 0)

/-- What the earlier packets left in the ports cannot show: an attributable packet with no TCP or
UDP layer finds both ports zero, one whose TCP header was cut before the flags finds them clear. -/
def Forgets (dfb : LayerDecoders) (first : LayerType) (ports : TransportPorts) (p : List UInt8) : Prop :=
  ∀ ws, packetLayers dfb first p = some ws → Attributable dfb ws →
    ((∀ w ∈ ws, w.1.isPorts = false) → ports.src = 0 ∧ ports.dst = 0) ∧
    ∀ t, ws.getLast? = some (.tcp, t) → t.length < 14 → tcpBits ports.flags = (false, false, false)

section Memory
variable {dfb : LayerDecoders} {d d₀ : FlowDecoder} {p t : List UInt8} {ws pre : List (LayerType × List UInt8)}
  {ports : TransportPorts} {info : PacketInfo}

/-- Two ways of completing what is read off agree iff they do on an attributable packet. -/
theorem map_readOff_eq_iff {f g : PacketInfo → PacketInfo} {Q : Prop}
    (hQ : ∀ info, readOff dfb ws ports = some info → (f info = g info ↔ Q)) :
    (readOff dfb ws ports).map f = (readOff dfb ws ports).map g ↔ (Attributable dfb ws → Q) := by
  rw [← readOff_isSome ports]
  cases hr : readOff dfb ws ports with
  | none => simp
  | some info => simpa using hQ info hr

theorem same_of_no_ports (hws : ∀ w ∈ ws, w.1.isPorts = false) :
    readOff dfb ws ports = readOff dfb ws {} ↔ (Attributable dfb ws → ports.src = 0 ∧ ports.dst = 0) := by
  have hid : readOff dfb ws {} = (readOff dfb ws {}).map id := by rw [Option.map_id, id_eq]
  rw [readOff_no_ports hws, hid, Option.map_map]
  refine map_readOff_eq_iff fun info hr => ?_
  obtain ⟨hsrc, hdst⟩ := readOff_ports hr
  cases info
  simp only [Function.comp_apply, id_eq, PacketInfo.mk.injEq] at *
  simp [hsrc, hdst]

theorem same_of_tcp (hpre : ∀ w ∈ pre, w.1.isPorts = false) (src dst : UInt16) (f f' : UInt8) :
    readOff dfb (pre ++ [(.tcp, t)]) ⟨src, dst, f⟩ = readOff dfb (pre ++ [(.tcp, t)]) ⟨src, dst, f'⟩ ↔
      (Attributable dfb (pre ++ [(.tcp, t)]) → tcpBits f = tcpBits f') := by
  rw [readOff_tcp hpre src dst f, readOff_tcp hpre src dst f']
  refine map_readOff_eq_iff fun info _ => ?_
  simp [Prod.ext_iff]

theorem getD_of_short (ht : t.length < 14) : t.getD 13 0 = (0 : UInt8) := by
  rw [List.getD_eq_getElem?_getD, List.getElem?_eq_none (by omega), Option.getD_none]

/-- Whether the two decoders agree on `p` is decided by the ports that the earlier packets left. -/
theorem same_iff (h : Overwrites dfb) (hfirst : d.first = d₀.first) (hfresh : d₀.ports = {}) :
    (d.decode dfb p).2 = (d₀.decode dfb p).2 ↔ Forgets dfb d₀.first d.ports p := by
  cases hws : packetLayers dfb d₀.first p with
  | none =>
    rw [decode_of_no_layers h hws, decode_of_no_layers h (hfirst ▸ hws)]
    refine ⟨fun _ ws hws' => ?_, fun _ => rfl⟩
    rw [hws] at hws'
    cases hws'
  | some ws =>
    rw [decode_of_layers h hws, decode_of_layers h (hfirst ▸ hws), hfresh]
    have hone : Forgets dfb d₀.first d.ports p ↔ (Attributable dfb ws →
        ((∀ w ∈ ws, w.1.isPorts = false) → d.ports.src = 0 ∧ d.ports.dst = 0) ∧
        ∀ t, ws.getLast? = some (.tcp, t) → t.length < 14 → tcpBits d.ports.flags = (false, false, false)) := by
      simp [Forgets, hws]
    rw [hone]
    rcases walk_shape hws with hnone | ⟨pre, typ, t, rfl, htyp, ht, hpre⟩
    · rw [after_of_no_ports hnone, after_of_no_ports hnone, same_of_no_ports hnone]
      refine forall_congr' fun hatt => ⟨fun hz => ⟨fun _ => hz, fun t hlast => ?_⟩, fun hz => hz.1 hnone⟩
      have htcp := hnone _ (List.mem_of_getLast? hlast)
      cases htcp
    · have hports : ¬ ∀ w ∈ pre ++ [(typ, t)], w.1.isPorts = false := fun hno => by
        have hlast := hno (typ, t) (by simp)
        rw [htyp] at hlast
        cases hlast
      rw [after_concat hpre htyp ht, after_concat hpre htyp ht]
      rcases isPorts_iff.1 htyp with rfl | rfl
      · rw [same_of_tcp hpre]
        refine forall_congr' fun hatt => ⟨fun hbits => ⟨fun hno => absurd hno hports, fun t' hlast hshort => ?_⟩,
          fun hf => ?_⟩
        · obtain rfl : t = t' := by simpa using hlast
          rw [if_neg (by omega), if_neg (by omega)] at hbits
          exact hbits
        · by_cases hlen : 14 ≤ t.length
          · rw [if_pos hlen, if_pos hlen]
          · rw [if_neg hlen, if_neg hlen]
            exact hf.2 t (by simp) (by omega)
      · refine ⟨fun _ _ => ⟨fun hno => absurd hno hports, fun t' hlast => ?_⟩, fun _ => ?_⟩
        · simp at hlast
        · exact readOff_udp hpre _ _ _ _

theorem fresh_decode (h : Overwrites dfb) (hfresh : d₀.ports = {}) (hinfo : (d₀.decode dfb p).2 = some info) :
    (info.proto = .icmp ∨ info.proto = .arp → info.srcPort = 0 ∧ info.dstPort = 0) ∧
    (info.proto = .tcp → ∃ ws t, packetLayers dfb d₀.first p = some ws ∧ ws.getLast? = some (.tcp, t) ∧
      (info.syn, info.ack, info.rst) = tcpBits (t.getD 13 0)) := by
  cases hws : packetLayers dfb d₀.first p with
  | none =>
    rw [decode_of_no_layers h hws] at hinfo
    cases hinfo
  | some ws =>
    rw [decode_of_layers h hws, hfresh] at hinfo
    rcases walk_shape hws with hnone | ⟨pre, typ, t, rfl, htyp, ht, hpre⟩
    · rw [after_of_no_ports hnone] at hinfo
      refine ⟨fun _ => readOff_ports hinfo, fun htcp => ?_⟩
      rcases proto_of_no_ports hnone hinfo with hp | hp <;> rw [htcp] at hp <;> cases hp
    · rw [after_concat hpre htyp ht] at hinfo
      rcases proto_of_ports htyp hinfo with ⟨rfl, hp⟩ | ⟨rfl, hp⟩
      · refine ⟨fun hicmp => absurd hicmp (by simp [hp]), fun _ => ?_⟩
        refine ⟨_, t, rfl, by simp, ?_⟩
        rw [readOff_tcp hpre] at hinfo
        obtain ⟨info', -, rfl⟩ := Option.map_eq_some_iff.1 hinfo
        by_cases hlen : 14 ≤ t.length
        · simp only [hlen, if_true]
        · simp only [hlen, if_false, getD_of_short (not_le.1 hlen)]
      · refine ⟨fun hicmp => absurd hicmp (by simp [hp]), fun htcp => ?_⟩
        rw [hp] at htcp
        cases htcp

theorem noMemory_iff (h : Overwrites dfb) (hfirst : d.first = d₀.first) (hfresh : d₀.ports = {}) :
    NoMemory dfb d₀ d p ↔ Forgets dfb d₀.first d.ports p := by
  rw [← same_iff h hfirst hfresh]
  refine ⟨fun hn => hn.same, fun hs => ⟨hs, fun info hinfo => ?_, fun info hinfo => ?_⟩⟩
  · exact (fresh_decode h hfresh (hs ▸ hinfo)).1
  · exact (fresh_decode h hfresh (hs ▸ hinfo)).2

end Memory

/-! ### Runs of packets -/

theorem decodeLayersFrom_first (dfb : LayerDecoders) (fuel : Nat) (d : FlowDecoder) (typ : LayerType)
    (data : List UInt8) : (FlowDecoder.decodeLayersFrom dfb fuel d typ data).1.first = d.first := by
  induction fuel generalizing d typ data with
  | zero => rfl
  | succ fuel ih =>
    have hlayer : ∀ r, d.decodeLayer dfb typ data = some r → r.1.first = d.first := by
      intro r hr
      unfold FlowDecoder.decodeLayer at hr
      split at hr
      · cases hr
      · obtain rfl := Option.some.inj hr
        rfl
      · obtain rfl := Option.some.inj hr
        rfl
    rw [FlowDecoder.decodeLayersFrom]
    split
    · rfl
    · exact hlayer _ ‹_›
    · dsimp only
      split
      · exact hlayer _ ‹_›
      · exact (ih _ _ _).trans (hlayer _ ‹_›)

theorem decode_first (dfb : LayerDecoders) (d : FlowDecoder) (p : List UInt8) :
    (d.decode dfb p).1.first = d.first := by
  have hfirst : (d.decodeLayers dfb p).1.first = d.first := decodeLayersFrom_first _ _ _ _ _
  unfold FlowDecoder.decode
  split <;> rename_i heq <;> rw [heq] at hfirst <;> exact hfirst

def decodeAll (dfb : LayerDecoders) (d : FlowDecoder) (hist : List (List UInt8)) : FlowDecoder :=
  hist.foldl (fun d q => (d.decode dfb q).1) d

theorem decodeAll_first (dfb : LayerDecoders) (d : FlowDecoder) (hist : List (List UInt8)) :
    (decodeAll dfb d hist).first = d.first := by
  induction hist generalizing d with
  | nil => rfl
  | cons q hist ih => exact (ih _).trans (decode_first dfb d q)

theorem newFlowDecoder_ports {lt : LinkType} {d₀ : FlowDecoder} (h : newFlowDecoder lt = .ok d₀) : d₀.ports = {} := by
  cases lt <;> cases h <;> rfl

/-- A decoder of any accepted link type, after any packets, treats `p` as a fresh one does iff what
those packets left in the ports cannot show. -/
theorem decode_forgets_iff (dfb : LayerDecoders) (h : Overwrites dfb) (lt : LinkType) (d₀ : FlowDecoder)
    (hnew : newFlowDecoder lt = .ok d₀) (hist : List (List UInt8)) (p : List UInt8) :
    NoMemory dfb d₀ (decodeAll dfb d₀ hist) p ↔ Forgets dfb d₀.first (decodeAll dfb d₀ hist).ports p :=
  noMemory_iff h (decodeAll_first dfb d₀ hist) (newFlowDecoder_ports hnew)

/-- gopacket's IPv4 layer (for a header without options) and its ICMPv4 layer; the others fail. -/
def ipv4Decoders : LayerDecoders
  | .ip4, s, data =>
    let headerLen := (data.getD 0 0 &&& 0x0f).toNat * 4
    let length := bigEndianUint16 data 2
    if data.length < 20 ∨ length < 20 ∨ headerLen < 20 ∨ length.toNat < headerLen ∨ data.length < headerLen then
      (s, false)
    else
      ({ srcAddr := (data.drop 12).take 4
         dstAddr := (data.drop 16).take 4
         length := length
         nextLayerType :=
           -- a fragment has no transport header to look at
           if bigEndianUint16 data 6 &&& 0x3fff ≠ 0 then .other 0
           else if data.getD 9 0 = 1 then .icmpv4
           else if data.getD 9 0 = 6 then .tcp
           else if data.getD 9 0 = 17 then .udp
           else .other (data.getD 9 0).toNat
         layerPayload := (data.take length.toNat).drop headerLen }, true)
  | .icmp4, s, data =>
    if data.length < 8 then (s, false) else ({ nextLayerType := .other 1, layerPayload := data.drop 8 }, true)
  | _, s, _ => (s, false)

theorem ipv4Decoders_overwrites : Overwrites ipv4Decoders := by
  constructor
  · intro g s s' data
    cases g <;> simp only [ipv4Decoders] <;> split <;> rfl
  · intro g s s' data hok
    cases g <;> simp only [ipv4Decoders] at hok ⊢
    case ip4 | icmp4 =>
      split at hok
      · cases hok
      · rename_i hlen
        rw [if_neg hlen, if_neg hlen]
    all_goals cases hok

def rawDecoder : FlowDecoder := { first := .ipv4, linkType := .raw }

/-- 192.168.1.10:51000 opens a connection to port 443 of 140.82.112.3, -/
def synPacket : List UInt8 :=
  [0x45, 0, 0, 40, 0, 0, 0, 0, 64, 6, 0, 0, 192, 168, 1, 10, 140, 82, 112, 3,
    0xc7, 0x38, 0x01, 0xbb, 0, 0, 0, 0, 0, 0, 0, 0, 0x50, 0x02, 0, 0, 0, 0, 0, 0]

/-- and pings it. -/
def pingPacket : List UInt8 :=
  [0x45, 0, 0, 28, 0, 0, 0, 0, 64, 1, 0, 0, 192, 168, 1, 10, 140, 82, 112, 3, 8, 0, 0, 0, 0, 0, 0, 0]

theorem syn_after_ping_noMemory :
    NoMemory ipv4Decoders rawDecoder (decodeAll ipv4Decoders rawDecoder [pingPacket]) synPacket := by
  rw [decode_forgets_iff _ ipv4Decoders_overwrites .raw rawDecoder rfl]
  intro ws hws _
  obtain rfl : [(LayerType.ipv4, synPacket), (.tcp, synPacket.drop 20)] = ws := Option.some.inj hws
  refine ⟨fun hno => ?_, fun t hlast hshort => ?_⟩
  · exact absurd (hno (.tcp, synPacket.drop 20) (by simp)) (by decide)
  · obtain rfl : synPacket.drop 20 = t := by simpa using hlast
    exact absurd hshort (by decide)

/-- The ping after the connection attempt comes out with the attempt's ports. -/
theorem ping_after_syn_has_ports : newFlowDecoder .raw = .ok rawDecoder ∧ Overwrites ipv4Decoders ∧
    ¬ NoMemory ipv4Decoders rawDecoder (decodeAll ipv4Decoders rawDecoder [synPacket]) pingPacket := by
  refine ⟨rfl, ipv4Decoders_overwrites, fun h => ?_⟩
  have hports := h.noPorts _ rfl (.inl rfl)
  exact absurd hports.1 (by decide)

end Trafficmon
