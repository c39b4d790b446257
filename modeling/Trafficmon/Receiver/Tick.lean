import Trafficmon.Receiver.Metrics

/-!
# What one tick does

The limiter's answers depend on the tick alone: the admitted peers are the first
`maxPeerCardinality` distinct ones among the connections, the SYN events and the RST events
(`Tick.admitted`). Every record of an admitted peer is its *own*, every other one is *folded* into
the overflow. The lemmas here say what `buildMetrics` leaves in the state and emits in these terms,
and are all that later modules use of it.
-/

namespace Trafficmon
open Distinct

/-! ### The limiter's text key -/

/-- An address may contain colons, a port does not: the last colon ends the address. -/
theorem peerKey_injective : Function.Injective peerKey := by
  rintro ⟨a, m⟩ ⟨b, n⟩ h
  have hchars : a.toList ++ ':' :: Nat.toDigits 10 m.toNat = b.toList ++ ':' :: Nat.toDigits 10 n.toNat :=
    String.ofList_injective h
  have htake : ∀ (a : List Char) (n : Nat),
      ((a ++ ':' :: Nat.toDigits 10 n).reverse.takeWhile (· ≠ ':')).reverse = Nat.toDigits 10 n := by
    intro a n
    have hcolon : ∀ c ∈ (Nat.toDigits 10 n).reverse, decide (c ≠ ':') = true := by
      intro c hc
      rw [decide_eq_true_eq]
      rintro rfl
      exact (Addr.digits_notMem (by omega) (by omega)).2.1 (List.mem_reverse.1 hc)
    rw [List.reverse_append, List.reverse_cons, List.append_assoc, List.takeWhile_append_of_pos hcolon]
    simp
  have hport : Nat.toDigits 10 m.toNat = Nat.toDigits 10 n.toNat := by
    rw [← htake a.toList, hchars, htake]
  rw [hport] at hchars
  rw [String.toList_inj.1 (List.append_cancel_right hchars),
    UInt16.toNat_inj.1 (Addr.toDigits_injective (by omega) (by omega) hport)]

/-! ### Ticks -/

structure Tick where
  snap : Snapshot
  now : Int
  cfg : Config
  orders : RangeOrders

namespace Tick

def synKeys (t : Tick) : List SYNKey := t.snap.synEvents.map SYNEvent.key

def rstKeys (t : Tick) : List RSTKey := t.snap.rstEvents.map RSTEvent.key

def dnsKeys (t : Tick) : List DNSKey := t.snap.dnsQueries.map QueryFinding.key

def dnsErrorKeys (t : Tick) : List DNSErrorKey := t.snap.dnsErrors.map DNSErrorFinding.key

/-- The peers in the order the limiter is asked about them. -/
def peers (t : Tick) : List (String × UInt16) :=
  t.snap.connections.map ConnectionRecord.peer ++ t.synKeys.map PeerEventKey.peer ++ t.rstKeys.map PeerEventKey.peer

def admitted (t : Tick) : List (String × UInt16) := Limiter.admits t.cfg.maxPeerCardinality t.peers

def own (t : Tick) : List ConnectionRecord := t.snap.connections.filter fun r => r.peer ∈ t.admitted

def folded (t : Tick) : List ConnectionRecord := t.snap.connections.filter fun r => r.peer ∉ t.admitted

def ownKeys (t : Tick) (keys : List PeerEventKey) : List PeerEventKey := keys.filter fun k => k.peer ∈ t.admitted

def foldedKeys (t : Tick) (keys : List PeerEventKey) : List PeerEventKey := keys.filter fun k => k.peer ∉ t.admitted

end Tick

namespace MetricsState

def tick (s : MetricsState) (t : Tick) : MetricsState := (s.buildMetrics t.snap t.now t.cfg t.orders).1

def emit (s : MetricsState) (t : Tick) : Metrics := (s.buildMetrics t.snap t.now t.cfg t.orders).2

end MetricsState

/-! ### The loops with the answers known -/

section Loops
variable {s : MetricsState} {now : Int}

theorem ioLoop_eq (p : ConnectionRecord → Bool) (conns : List ConnectionRecord) (overIn overOut : UInt64) :
    conns.foldl (fun acc r => s.ioBody now acc r (p r)) { overflowBytesIn := overIn, overflowBytesOut := overOut } =
      { points := (conns.filter p).flatMap fun r => addIODataPoint [] r now
        overflowBytesIn := (conns.filter (! p ·)).foldl (fun o r =>
          advanceOverflow o ((s.lastIo.lookup r.identity).getD {}).bytesIn r.bytesInTotal) overIn
        overflowBytesOut := (conns.filter (! p ·)).foldl (fun o r =>
          advanceOverflow o ((s.lastIo.lookup r.identity).getD {}).bytesOut r.bytesOutTotal) overOut
        nextLastIo := GoMap.insertAll ∅ ((conns.filter (! p ·)).map fun r =>
          (r.identity, ⟨r.bytesInTotal, r.bytesOutTotal⟩))
        overflowed := ! (conns.filter (! p ·)).isEmpty } := by
  induction conns using List.reverseRecOn with
  | nil => rfl
  | append_singleton conns r ih =>
    rw [List.foldl_append, ih]
    cases hp : p r with
    | true => simp [MetricsState.ioBody, hp, addIODataPoint]
    | false => simp [MetricsState.ioBody, hp, GoMap.insertAll]

/-- The keys a loop over events touched. -/
def touchedBy (keys : List PeerEventKey) : GoMap PeerEventKey Unit :=
  GoMap.insertAll ∅ (keys.map fun k => (k, ()))

theorem peerEventLoop_eq (p : PeerEventKey → Bool) (keys : List PeerEventKey) (counts : GoMap PeerEventKey UInt64)
    (overflowCount : UInt64) :
    keys.foldl (fun acc k => PeerEventLoop.body acc k (p k)) { counts := counts, overflowCount := overflowCount } =
      { counts := (keys.filter p).foldl GoMap.bump counts
        overflowCount := overflowCount + UInt64.ofNat (keys.filter (! p ·)).length
        touched := touchedBy (keys.filter p) } := by
  induction keys using List.reverseRecOn with
  | nil => simp [touchedBy, GoMap.insertAll]
  | append_singleton keys k ih =>
    rw [List.foldl_append, ih]
    cases hp : p k with
    | true => simp [PeerEventLoop.body, hp, touchedBy, GoMap.insertAll]
    | false => simp [PeerEventLoop.body, hp, UInt64.add_assoc]

theorem touchedBy_perm (order : MapOrder PeerEventKey Unit) (keys : List PeerEventKey) :
    ((order.list (touchedBy keys)).map (·.1)).Perm (firsts keys) := by
  have hnodup : ((order.list (touchedBy keys)).map (·.1)).Nodup :=
    ((order.perm _).map _).nodup_iff.2 (touchedBy keys).nodupKeys
  refine (List.perm_ext_iff_of_nodup hnodup (nodup_firsts keys)).2 fun k => ?_
  rw [mem_firsts, List.mem_map]
  constructor
  · rintro ⟨⟨j, u⟩, hj, rfl⟩
    rw [MapOrder.mem_list, touchedBy, GoMap.lookup_insertAll, AList.lookup_empty, Option.or_none] at hj
    obtain ⟨i, hi, he⟩ := List.mem_map.1 (GoMap.mem_of_lastOf hj)
    rw [← (Prod.mk.inj he).1]
    exact hi
  · intro hk
    obtain ⟨u, hu⟩ := GoMap.exists_lastOf (List.mem_map.2 ⟨k, hk, rfl⟩ : (k, ()) ∈ keys.map fun k => (k, ()))
    refine ⟨⟨k, u⟩, MapOrder.mem_list.2 ?_, rfl⟩
    rw [touchedBy, GoMap.lookup_insertAll, hu, Option.some_or]

end Loops

/-! ### One tick -/

namespace Tick

variable (t : Tick)

/-- The overflow counter of one direction after the folded connections of a tick. -/
def advanced (prev : ConnectionRecord → UInt64) (total : ConnectionRecord → UInt64) (overflow : UInt64) : UInt64 :=
  t.folded.foldl (fun o r => advanceOverflow o (prev r) (total r)) overflow

def foldedTotals : GoMap FlowIdentity IOTotals :=
  GoMap.insertAll ∅ (t.folded.map fun r => (r.identity, ⟨r.bytesInTotal, r.bytesOutTotal⟩))

/-- The points of `network.io`, from the state after the tick. -/
def ioPoints (s : MetricsState) : List NumberDataPoint :=
  (t.own.flatMap fun r => addIODataPoint [] r t.now) ++
    if t.folded = [] then [] else addOverflowIODataPoints [] s.start t.now s.overflowBytesIn s.overflowBytesOut

def dnsPoints {κ : Type} [DecidableEq κ] (start : Int) (attrs : κ → List (String × AttrValue))
    (counts : GoMap κ UInt64) (keys : List κ) : List NumberDataPoint :=
  (firsts keys).map fun k => sumPoint start t.now ((counts.lookup k).getD 0) (attrs k)

def peerPoints (start : Int) (order : MapOrder PeerEventKey Unit) (counts : GoMap PeerEventKey UInt64)
    (overflowCount : UInt64) (keys : List PeerEventKey) : List NumberDataPoint :=
  ((order.list (touchedBy (t.ownKeys keys))).map fun e =>
      sumPoint start t.now ((counts.lookup e.1).getD 0) e.1.attributes) ++
    if 0 < overflowCount then [sumPoint start t.now overflowCount [(attrPeerOverflow, .bool true)]] else []

end Tick

/-- A metric that is left out when there was nothing to count. -/
def metricOf {κ : Type} (name unit : String) (keys : List κ) (points : List NumberDataPoint) : List Metric :=
  if keys.length = 0 then [] else [cumulativeSum name unit points]

namespace MetricsState
variable (s : MetricsState) (t : Tick)

/-- The state a tick leaves, by what was admitted. -/
def after : MetricsState :=
  { s with
    dnsCounts := t.dnsKeys.foldl GoMap.bump s.dnsCounts
    dnsErrorCounts := t.dnsErrorKeys.foldl GoMap.bump s.dnsErrorCounts
    synCounts := (t.ownKeys t.synKeys).foldl GoMap.bump s.synCounts
    rstCounts := (t.ownKeys t.rstKeys).foldl GoMap.bump s.rstCounts
    synOverflowCount := s.synOverflowCount + UInt64.ofNat (t.foldedKeys t.synKeys).length
    rstOverflowCount := s.rstOverflowCount + UInt64.ofNat (t.foldedKeys t.rstKeys).length
    overflowBytesIn := t.advanced (fun r => ((s.lastIo.lookup r.identity).getD {}).bytesIn)
      ConnectionRecord.bytesInTotal s.overflowBytesIn
    overflowBytesOut := t.advanced (fun r => ((s.lastIo.lookup r.identity).getD {}).bytesOut)
      ConnectionRecord.bytesOutTotal s.overflowBytesOut
    lastIo := t.foldedTotals }

/-- The metrics a tick emits, by what was admitted; `s` is the state after it. -/
def emitted : List Metric :=
  cumulativeSum metricNetworkIo "By" (t.ioPoints s) ::
    metricOf metricDNSQueryCount "{query}" t.dnsKeys
      (t.dnsPoints s.start DNSKey.attributes s.dnsCounts t.dnsKeys) ++
    metricOf metricDNSQueryErrors "{query}" t.dnsErrorKeys
      (t.dnsPoints s.start DNSErrorKey.attributes s.dnsErrorCounts t.dnsErrorKeys) ++
    metricOf metricNetworkSYNCount "{attempt}" t.synKeys
      (t.peerPoints s.start t.orders.syn s.synCounts s.synOverflowCount t.synKeys) ++
    metricOf metricNetworkRSTCount "{reset}" t.rstKeys
      (t.peerPoints s.start t.orders.rst s.rstCounts s.rstOverflowCount t.rstKeys) ++
    addPacketsDroppedMetric t.snap s.start t.now t.orders

end MetricsState

section Build
variable {s : MetricsState} {t : Tick} {l : PeerLimiter}

theorem Tick.mem_admits_peerKey {p : String × UInt16} :
    peerKey p ∈ Limiter.admits t.cfg.maxPeerCardinality (t.peers.map peerKey) ↔ p ∈ t.admitted := by
  rw [Limiter.admits_map peerKey_injective, List.mem_map_of_injective peerKey_injective]
  rfl

theorem Tick.peers_map_peerKey : t.peers.map peerKey =
    (t.snap.connections.map fun r => peerKey r.peer) ++ (t.synKeys.map fun k => peerKey k.peer) ++
      t.rstKeys.map fun k => peerKey k.peer := by
  simp only [Tick.peers, List.map_append, List.map_map]
  rfl

theorem addIOMetric_eq :
    ∃ l : PeerLimiter, l.Offered t.cfg.maxPeerCardinality (t.snap.connections.map fun r => peerKey r.peer) ∧
      s.addIOMetric t.snap t.now (newPeerLimiter t.cfg.maxPeerCardinality) =
        let s' := { s with
          overflowBytesIn := (s.after t).overflowBytesIn
          overflowBytesOut := (s.after t).overflowBytesOut
          lastIo := (s.after t).lastIo }
        (s', l, cumulativeSum metricNetworkIo "By" (t.ioPoints s')) := by
  have hoff : (newPeerLimiter t.cfg.maxPeerCardinality).Offered _ [] := Limiter.offered_nil _
  obtain ⟨hl, hacc⟩ := hoff.forEach (fun r : ConnectionRecord => peerKey r.peer) (s.ioBody t.now)
    { overflowBytesIn := s.overflowBytesIn, overflowBytesOut := s.overflowBytesOut } t.snap.connections
    ((t.synKeys.map fun k => peerKey k.peer) ++ t.rstKeys.map fun k => peerKey k.peer)
  simp only [List.nil_append, ← List.append_assoc, ← Tick.peers_map_peerKey, Tick.mem_admits_peerKey, ioLoop_eq] at hacc
  refine ⟨_, hl, ?_⟩
  simp only [MetricsState.addIOMetric, hacc, Tick.ioPoints, MetricsState.after, Tick.advanced, Tick.foldedTotals,
    Tick.folded, Tick.own, decide_not]
  split
  · rename_i h
    rw [Bool.not_eq_true', List.isEmpty_eq_false_iff] at h
    rw [if_neg h, addOverflowIODataPoints, addOverflowIODataPoints, List.nil_append]
  · rename_i h
    rw [Bool.not_eq_true, Bool.not_eq_false', List.isEmpty_iff] at h
    rw [if_pos h, List.append_nil]

theorem addPeerEventMetric_eq {pre post : List String} {keys : List PeerEventKey}
    (h : l.Offered t.cfg.maxPeerCardinality pre)
    (hall : pre ++ keys.map (fun k => peerKey k.peer) ++ post = t.peers.map peerKey) (name unit : String) (start : Int)
    (order : MapOrder PeerEventKey Unit) (counts : GoMap PeerEventKey UInt64) (overflowCount : UInt64) :
    ∃ l' : PeerLimiter, l'.Offered t.cfg.maxPeerCardinality (pre ++ keys.map fun k => peerKey k.peer) ∧
      addPeerEventMetric name unit start t.now order counts overflowCount keys l =
        let acc : PeerEventLoop :=
          { counts := (t.ownKeys keys).foldl GoMap.bump counts
            overflowCount := overflowCount + UInt64.ofNat (t.foldedKeys keys).length
            touched := touchedBy (t.ownKeys keys) }
        (l', acc, metricOf name unit keys (t.peerPoints start order acc.counts acc.overflowCount keys)) := by
  obtain ⟨hl, hacc⟩ := h.forEach (fun k : PeerEventKey => peerKey k.peer) PeerEventLoop.body
    { counts := counts, overflowCount := overflowCount } keys post
  simp only [hall, Tick.mem_admits_peerKey, peerEventLoop_eq] at hacc
  refine ⟨_, hl, ?_⟩
  simp only [addPeerEventMetric, hacc, metricOf, Tick.peerPoints, Tick.ownKeys, Tick.foldedKeys, decide_not]
  split <;> rfl

theorem addDNSMetric_eq {κ : Type} [DecidableEq κ] (name : String) (attrs : κ → List (String × AttrValue)) (start : Int)
    (counts : GoMap κ UInt64) (keys : List κ) :
    addDNSMetric name attrs start t.now counts keys =
      (keys.foldl GoMap.bump counts,
        metricOf name "{query}" keys (t.dnsPoints start attrs (keys.foldl GoMap.bump counts) keys)) := by
  simp only [addDNSMetric, metricOf, Tick.dnsPoints, eachNew_eq]
  split <;> rfl

theorem buildMetrics_eq : s.buildMetrics t.snap t.now t.cfg t.orders = (s.after t, ⟨scopeName, (s.after t).emitted t⟩) := by
  obtain ⟨l₁, hl₁, hio⟩ := addIOMetric_eq (s := s) (t := t)
  have hall := Tick.peers_map_peerKey (t := t)
  obtain ⟨l₂, hl₂, hsyn⟩ := addPeerEventMetric_eq hl₁ hall.symm metricNetworkSYNCount "{attempt}" s.start t.orders.syn
    s.synCounts s.synOverflowCount
  obtain ⟨l₃, -, hrst⟩ := addPeerEventMetric_eq hl₂ ((List.append_nil _).trans hall.symm) metricNetworkRSTCount "{reset}" s.start t.orders.rst
    s.rstCounts s.rstOverflowCount
  simp only [Tick.synKeys] at hsyn
  simp only [Tick.rstKeys] at hrst
  simp only [MetricsState.buildMetrics, hio, MetricsState.addDNSQueryMetric, MetricsState.addDNSErrorMetric,
    addDNSMetric_eq, MetricsState.addSYNMetric, MetricsState.addRSTMetric, hsyn, hrst]
  rfl

theorem tick_eq : s.tick t = s.after t := by rw [MetricsState.tick, buildMetrics_eq]

theorem emit_eq : s.emit t = ⟨scopeName, (s.after t).emitted t⟩ := by rw [MetricsState.emit, buildMetrics_eq]

end Build
end Trafficmon
