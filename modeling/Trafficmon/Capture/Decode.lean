import Mathlib.Logic.Function.Basic
import Trafficmon.Capture.Flow

/-!
# Decoding packets (`capture/decode.go`)

A `FlowDecoder` keeps one struct per layer for the life of an interface and lets gopacket's
`DecodingLayerParser` fill them packet after packet. gopacket's own layers are a parameter,
`LayerDecoders`: what `DecodeFromBytes` leaves in a layer's struct, and whether it succeeded. The
ports are read by `TransportPorts`, which is the program's own. The parser's loop ends when a layer
has no payload or no decoder; every decoder eats part of the packet (`Shrinks`), so its length is
fuel enough (`decodeLayersFrom_fuel`).
-/

namespace Trafficmon

inductive LayerType
  | zero | ethernet | loopback | dot1q | ipv4 | ipv6 | tcp | udp | icmpv4 | icmpv6 | arp
  | other (n : Nat)
deriving DecidableEq, Repr

inductive LinkType
  | null | ethernet | raw | loop | ipv4 | ipv6
  | other (name : String)
deriving DecidableEq, Repr

inductive GoLayer
  | eth | loop | dot1q | ip4 | ip6 | icmp4 | icmp6 | arp
deriving DecidableEq, Repr

/-- What is read back from such a struct: the addresses (`SrcIP`, `SourceProtAddress` and their
counterparts), the length field, and the two answers the parser asks for. -/
structure LayerStruct where
  srcAddr : List UInt8 := []
  dstAddr : List UInt8 := []
  length : UInt16 := 0
  nextLayerType : LayerType := .zero
  layerPayload : List UInt8 := []
deriving DecidableEq, Repr

/-- `DecodeFromBytes` of gopacket's layers: the struct it leaves and whether it succeeded. -/
abbrev LayerDecoders := GoLayer → LayerStruct → List UInt8 → LayerStruct × Bool

/-- A successful decode leaves nothing of the struct's earlier contents. -/
structure Overwrites (dfb : LayerDecoders) : Prop where
  ok : ∀ g s s' data, (dfb g s data).2 = (dfb g s' data).2
  struct : ∀ g s s' data, (dfb g s data).2 = true → (dfb g s data).1 = (dfb g s' data).1

/-- A successful decode takes its header off the bytes it was given. -/
def Shrinks (dfb : LayerDecoders) : Prop :=
  ∀ g s data, (dfb g s data).2 = true → (dfb g s data).1.layerPayload.length < data.length

def ipv6HeaderLen : UInt64 := 40
def arpFrameBytes : UInt64 := 28

def tcpFlagSYN : UInt8 := 0x02
def tcpFlagACK : UInt8 := 0x10
def tcpFlagRST : UInt8 := 0x04

/-! ### The ports -/

structure TransportPorts where
  src : UInt16 := 0
  dst : UInt16 := 0
  flags : UInt8 := 0
deriving DecidableEq, Repr

def bigEndianUint16 (data : List UInt8) (i : Nat) : UInt16 :=
  (data.getD i 0).toUInt16 <<< 8 ||| (data.getD (i + 1) 0).toUInt16

def TransportPorts.decodeFromBytes (t : TransportPorts) (data : List UInt8) : TransportPorts × Bool :=
  if data.length < 4 then (t, false)
  else
    let t := { t with src := bigEndianUint16 data 0, dst := bigEndianUint16 data 2 }
    let t := if 14 ≤ data.length then { t with flags := data.getD 13 0 } else t
    (t, true)

/-! ### The decoder -/

/-- Who decodes a layer: one of gopacket's structs, or `TransportPorts`. -/
inductive LayerDecoder
  | go (g : GoLayer)
  | ports
deriving DecidableEq, Repr

def LayerType.decoder : LayerType → Option LayerDecoder
  | .ethernet => some (.go .eth)
  | .loopback => some (.go .loop)
  | .dot1q => some (.go .dot1q)
  | .ipv4 => some (.go .ip4)
  | .ipv6 => some (.go .ip6)
  | .tcp | .udp => some .ports
  | .icmpv4 => some (.go .icmp4)
  | .icmpv6 => some (.go .icmp6)
  | .arp => some (.go .arp)
  | .zero | .other _ => none

structure FlowDecoder where
  layers : GoLayer → LayerStruct := fun _ => {}
  ports : TransportPorts := {}
  decoded : List LayerType := []
  /-- The layer the parser starts with. -/
  first : LayerType
  linkType : LinkType

def newFlowDecoder (linkType : LinkType) : Except String FlowDecoder :=
  match linkType with
  | .ethernet => .ok { first := .ethernet, linkType := linkType }
  | .null | .loop => .ok { first := .loopback, linkType := linkType }
  | .raw | .ipv4 => .ok { first := .ipv4, linkType := linkType }
  | .ipv6 => .ok { first := .ipv6, linkType := linkType }
  | .other name => .error ("unsupported link type " ++ name)

/-- The first half of `decode`'s result, filled layer by layer. -/
structure Scan where
  info : PacketInfo := {}
  haveNet : Bool := false
  haveTransport : Bool := false
deriving DecidableEq, Repr

/-- The two addresses of a layer, if both are 4 or 16 bytes long. -/
def LayerStruct.addrs (s : LayerStruct) : Option (Addr × Addr) := do
  let src ← Addr.ofSlice s.srcAddr
  let dst ← Addr.ofSlice s.dstAddr
  return (src.unmap, dst.unmap)

def scanLayer (layers : GoLayer → LayerStruct) (flags : UInt8) (s : Scan) : LayerType → Option Scan
  | .ipv4 => (layers .ip4).addrs.map fun (src, dst) =>
    { s with
      info := { s.info with src := src, dst := dst, bytes := (layers .ip4).length.toUInt64 }
      haveNet := true }
  | .ipv6 => (layers .ip6).addrs.map fun (src, dst) =>
    { s with
      info := { s.info with src := src, dst := dst, bytes := (layers .ip6).length.toUInt64 + ipv6HeaderLen }
      haveNet := true }
  | .tcp => some
    { s with
      info := { s.info with
        proto := .tcp
        syn := flags &&& tcpFlagSYN ≠ 0
        ack := flags &&& tcpFlagACK ≠ 0
        rst := flags &&& tcpFlagRST ≠ 0 }
      haveTransport := true }
  | .udp => some { s with info := { s.info with proto := .udp }, haveTransport := true }
  | .icmpv4 | .icmpv6 => some { s with info := { s.info with proto := .icmp }, haveTransport := true }
  | .arp => (layers .arp).addrs.map fun (src, dst) =>
    { s with
      info := { s.info with src := src, dst := dst, proto := .arp, bytes := arpFrameBytes }
      haveNet := true
      haveTransport := true }
  | _ => some s

def scanLayers (layers : GoLayer → LayerStruct) (flags : UInt8) (s : Scan) (decoded : List LayerType) : Option Scan :=
  decoded.foldlM (scanLayer layers flags) s

/-- Both halves are needed; the ports come last. -/
def Scan.finish (s : Scan) (ports : TransportPorts) : Option PacketInfo :=
  if ¬ s.haveNet ∨ ¬ s.haveTransport then none
  else some { s.info with srcPort := ports.src, dstPort := ports.dst }

namespace FlowDecoder
variable (dfb : LayerDecoders)

/-- `DecodeFromBytes` on the decoder registered for `typ`: the structs it leaves, whether it
succeeded, and the next layer's type and bytes. `none` if there is no such decoder. -/
def decodeLayer (d : FlowDecoder) (typ : LayerType) (data : List UInt8) :
    Option (FlowDecoder × Bool × LayerType × List UInt8) :=
  match typ.decoder with
  | none => none
  | some .ports =>
    let (ports, ok) := d.ports.decodeFromBytes data
    -- nothing below the ports is decoded: no payload, no next layer
    some ({ d with ports := ports }, ok, .zero, [])
  | some (.go g) =>
    let (s, ok) := dfb g (d.layers g) data
    some ({ d with layers := Function.update d.layers g s }, ok, s.nextLayerType, s.layerPayload)

/-- The parser's loop, from a layer on; it ignores what it has no decoder for. -/
def decodeLayersFrom : Nat → FlowDecoder → LayerType → List UInt8 → FlowDecoder × Bool
  | 0, d, _, _ => (d, false)
  | fuel + 1, d, typ, data =>
    match d.decodeLayer dfb typ data with
    | none => (d, true)
    | some (d, false, _, _) => (d, false)
    | some (d, true, next, payload) =>
      let d := { d with decoded := d.decoded ++ [typ] }
      if payload = [] then (d, true) else decodeLayersFrom fuel d next payload

def decodeLayers (d : FlowDecoder) (data : List UInt8) : FlowDecoder × Bool :=
  decodeLayersFrom dfb (data.length + 1) { d with decoded := [] } d.first data

def decode (d : FlowDecoder) (data : List UInt8) : FlowDecoder × Option PacketInfo :=
  match d.decodeLayers dfb data with
  | (d, false) => (d, none)
  | (d, true) => (d, (scanLayers d.layers d.ports.flags {} d.decoded).bind (·.finish d.ports))

variable {dfb}

theorem decodeLayer_shrinks (h : Shrinks dfb) {d d' : FlowDecoder} {typ next : LayerType} {data payload : List UInt8}
    (hd : d.decodeLayer dfb typ data = some (d', true, next, payload)) (hp : payload ≠ []) :
    payload.length < data.length := by
  unfold decodeLayer at hd
  split at hd
  · cases hd
  · simp only [Option.some.injEq, Prod.mk.injEq] at hd
    exact absurd hd.2.2.2.symm hp
  · simp only [Option.some.injEq, Prod.mk.injEq] at hd
    obtain ⟨-, hok, -, rfl⟩ := hd
    exact h _ _ _ hok

/-- The loop does not run out of fuel: beyond the packet's length more of it changes nothing. -/
theorem decodeLayersFrom_fuel (h : Shrinks dfb) {fuel : Nat} {d : FlowDecoder} {typ : LayerType} {data : List UInt8}
    (hf : data.length < fuel) :
    decodeLayersFrom dfb fuel d typ data = decodeLayersFrom dfb (data.length + 1) d typ data := by
  suffices key : ∀ n m d typ data, data.length < n → data.length < m →
      decodeLayersFrom dfb n d typ data = decodeLayersFrom dfb m d typ data from
    key fuel _ d typ data hf (Nat.lt_succ_self _)
  intro n
  induction n with
  | zero => intro m d typ data hn; omega
  | succ n ih =>
    intro m d typ data hn hm
    obtain ⟨m, rfl⟩ : ∃ m', m = m' + 1 := ⟨m - 1, by omega⟩
    rw [decodeLayersFrom, decodeLayersFrom]
    rcases hd : d.decodeLayer dfb typ data with _ | ⟨d', ok, next, payload⟩
    · rfl
    · cases ok with
      | false => rfl
      | true =>
        by_cases hp : payload = []
        · simp only [hp, if_true]
        · have hlt := decodeLayer_shrinks h hd hp
          simp only [hp, if_false]
          exact ih m _ next payload (by omega) (by omega)

end FlowDecoder
end Trafficmon
