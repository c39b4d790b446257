import Trafficmon.Dpi.Reassemble
import Trafficmon.Lib.Float64
import Trafficmon.Lib.GoTime
import Trafficmon.Lib.Netip

/-!
# Flows and their byte counters (`capture/flow.go`)

A flow is keyed by its 5-tuple and the interface it was captured on; its `ByteCounter` holds the
totals since the counter was made, a ring of per-second buckets for the live rate, and how far the
search for the remote endpoint's hostname has come.
-/

namespace Trafficmon
open GoTime

inductive Proto
  | tcp | udp | icmp | arp
deriving DecidableEq, Repr

def Proto.string : Proto → String
  | .tcp => "tcp"
  | .udp => "udp"
  | .icmp => "icmp"
  | .arp => "arp"

structure PacketInfo where
  src : Addr := .invalid
  dst : Addr := .invalid
  srcPort : UInt16 := 0
  dstPort : UInt16 := 0
  proto : Proto := .tcp
  syn : Bool := false
  ack : Bool := false
  rst : Bool := false
  bytes : UInt64 := 0
deriving DecidableEq, Repr

structure FlowKey where
  localAddr : Addr
  localPort : UInt16
  remoteAddr : Addr
  remotePort : UInt16
  proto : Proto
  iface : String
deriving DecidableEq, Repr

def FlowKey.strip (k : FlowKey) : FlowKey := { k with iface := "" }

def rateBuckets : Nat := 5
def rateWindowSeconds : Nat := 5

instance : NeZero rateBuckets := ⟨by decide⟩

structure ByteCounter where
  bytesIn : UInt64 := 0
  bytesOut : UInt64 := 0
  /-- Ring of per-second buckets; `bucketStart` is the second `head` covers. -/
  inRing : Vector UInt64 rateBuckets := Vector.replicate rateBuckets 0
  outRing : Vector UInt64 rateBuckets := Vector.replicate rateBuckets 0
  head : Fin rateBuckets := 0
  bucketStart : Int := 0
  lastSeen : Int := 0
  hostname : String := ""
  hostnameAttempted : Bool := false
  /-- The reassembly under way, and the name of the inspector it is for. -/
  assembler : Option HelloAssembler := none
  helloInspector : String := ""
deriving DecidableEq, Repr

namespace ByteCounter

def roll : Nat → ByteCounter → ByteCounter
  | 0, c => c
  | n + 1, c =>
    let head : Fin rateBuckets := ⟨(c.head + 1) % rateBuckets, Nat.mod_lt _ (by decide)⟩
    roll n { c with head := head, inRing := c.inRing.set head 0, outRing := c.outRing.set head 0 }

def advance (c : ByteCounter) (now : Int) : ByteCounter :=
  let sec := truncate now second
  if c.bucketStart = 0 then { c with bucketStart := sec }
  else
    let steps := (sub sec c.bucketStart).tdiv second
    if steps ≤ 0 then c
    else if (rateBuckets : Int) ≤ steps then
      { c with
        inRing := Vector.replicate rateBuckets 0
        outRing := Vector.replicate rateBuckets 0
        bucketStart := sec }
    else { roll steps.toNat c with bucketStart := sec }

def add (c : ByteCounter) (now : Int) (n : UInt64) (inbound : Bool) : ByteCounter :=
  let c := c.advance now
  let c :=
    if inbound then
      { c with bytesIn := c.bytesIn + n, inRing := c.inRing.set c.head (c.inRing[c.head] + n) }
    else
      { c with bytesOut := c.bytesOut + n, outRing := c.outRing.set c.head (c.outRing[c.head] + n) }
  -- packets can arrive out of order: `lastSeen` only moves forward
  if c.lastSeen < now then { c with lastSeen := now } else c

def totals (c : ByteCounter) : UInt64 × UInt64 := (c.bytesIn, c.bytesOut)

def rates (c : ByteCounter) (now : Int) : ByteCounter × Float64 × Float64 :=
  let c := c.advance now
  let sumIn := c.inRing.toList.foldl (· + ·) 0
  let sumOut := c.outRing.toList.foldl (· + ·) 0
  let secs := Float64.ofNat rateWindowSeconds
  (c, Float64.ofNat sumIn.toNat / secs, Float64.ofNat sumOut.toNat / secs)

/-! ### The hostname -/

/-- The first hostname found stays. -/
def setHostname (c : ByteCounter) (host : String) : ByteCounter :=
  if c.hostname = "" then { c with hostname := host } else c

def needsHostnameInspection (c : ByteCounter) : Bool := c.hostname = "" ∧ ¬ c.hostnameAttempted

theorem needsHostnameInspection_iff {c : ByteCounter} :
    c.needsHostnameInspection = true ↔ c.hostname = "" ∧ c.hostnameAttempted = false := by
  simp [needsHostnameInspection]

def markHostnameAttempted (c : ByteCounter) : ByteCounter := { c with hostnameAttempted := true }

def helloInProgress (c : ByteCounter) : Bool := c.assembler.isSome

def addHelloSegment (c : ByteCounter) (inspectorName : String) (seq : UInt32) (payload : List UInt8) :
    ByteCounter × Option (List UInt8) × Bool :=
  let c :=
    match c.assembler with
    | none => { c with assembler := some newHelloAssembler, helloInspector := inspectorName }
    | some _ => c
  let (assembler, ready, done) := (c.assembler.getD newHelloAssembler).feed seq payload
  ({ c with assembler := some assembler }, ready, done)

theorem addHelloSegment_frame (c : ByteCounter) (inspectorName : String) (seq : UInt32) (payload : List UInt8) :
    (c.addHelloSegment inspectorName seq payload).1.hostname = c.hostname ∧
      (c.addHelloSegment inspectorName seq payload).1.hostnameAttempted = c.hostnameAttempted ∧
      (c.addHelloSegment inspectorName seq payload).1.helloInProgress = true ∧
      (c.addHelloSegment inspectorName seq payload).1.helloInspector =
        if c.helloInProgress then c.helloInspector else inspectorName := by
  unfold addHelloSegment helloInProgress
  cases c.assembler <;> exact ⟨rfl, rfl, rfl, rfl⟩

theorem addHelloSegment_done {c : ByteCounter} {inspectorName : String} {seq : UInt32} {payload ready : List UInt8}
    (h : (c.addHelloSegment inspectorName seq payload).2.1 = some ready) :
    (c.addHelloSegment inspectorName seq payload).2.2 = true := by
  unfold addHelloSegment at h ⊢
  exact HelloAssembler.feed_done h

/-! ### What `advance` leaves alone -/

theorem roll_frame (n : Nat) (c : ByteCounter) :
    (roll n c).bytesIn = c.bytesIn ∧ (roll n c).bytesOut = c.bytesOut ∧
      (roll n c).lastSeen = c.lastSeen ∧ (roll n c).hostname = c.hostname := by
  induction n generalizing c with
  | zero => exact ⟨rfl, rfl, rfl, rfl⟩
  | succ n ih => exact ih _

theorem advance_frame (c : ByteCounter) (now : Int) :
    (c.advance now).bytesIn = c.bytesIn ∧ (c.advance now).bytesOut = c.bytesOut ∧
      (c.advance now).lastSeen = c.lastSeen ∧ (c.advance now).hostname = c.hostname := by
  unfold advance
  split
  · exact ⟨rfl, rfl, rfl, rfl⟩
  · dsimp only
    split
    · exact ⟨rfl, rfl, rfl, rfl⟩
    · split
      · exact ⟨rfl, rfl, rfl, rfl⟩
      · exact roll_frame _ _

@[simp] theorem advance_bytesIn (c : ByteCounter) (now : Int) : (c.advance now).bytesIn = c.bytesIn :=
  (advance_frame c now).1
@[simp] theorem advance_bytesOut (c : ByteCounter) (now : Int) : (c.advance now).bytesOut = c.bytesOut :=
  (advance_frame c now).2.1
@[simp] theorem advance_lastSeen (c : ByteCounter) (now : Int) : (c.advance now).lastSeen = c.lastSeen :=
  (advance_frame c now).2.2.1
@[simp] theorem advance_hostname (c : ByteCounter) (now : Int) : (c.advance now).hostname = c.hostname :=
  (advance_frame c now).2.2.2

/-! ### What `add` does to the totals -/

@[simp] theorem add_bytesIn (c : ByteCounter) (now : Int) (n : UInt64) (inbound : Bool) :
    (c.add now n inbound).bytesIn = if inbound then c.bytesIn + n else c.bytesIn := by
  cases inbound <;> simp [add, apply_ite ByteCounter.bytesIn]

@[simp] theorem add_bytesOut (c : ByteCounter) (now : Int) (n : UInt64) (inbound : Bool) :
    (c.add now n inbound).bytesOut = if inbound then c.bytesOut else c.bytesOut + n := by
  cases inbound <;> simp [add, apply_ite ByteCounter.bytesOut]

@[simp] theorem add_lastSeen (c : ByteCounter) (now : Int) (n : UInt64) (inbound : Bool) :
    (c.add now n inbound).lastSeen = max c.lastSeen now := by
  have hmax : (if c.lastSeen < now then now else c.lastSeen) = max c.lastSeen now := by
    split <;> omega
  cases inbound <;> simpa [add, apply_ite ByteCounter.lastSeen] using hmax

end ByteCounter

/-- Folds a packet's 5-tuple onto the key both directions share; reports whether it was inbound. -/
def normalise (info : PacketInfo) (iface : String) (isLocal : Addr → Bool) : Option (FlowKey × Bool) :=
  if isLocal info.src then
    some (⟨info.src, info.srcPort, info.dst, info.dstPort, info.proto, iface⟩, false)
  else if isLocal info.dst then
    some (⟨info.dst, info.dstPort, info.src, info.srcPort, info.proto, iface⟩, true)
  else none

def flow443 (iface : String) : FlowKey := ⟨.ipv4 10 0 0 1, 51000, .ipv4 1 1 1 1, 443, .tcp, iface⟩

end Trafficmon
