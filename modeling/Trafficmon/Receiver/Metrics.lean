import Trafficmon.Lib.Limiter
import Trafficmon.Lib.Tally
import Trafficmon.Receiver.Translate

/-!
# The metrics of one tick (`receiver/translate.go`)

`MetricsState.buildMetrics` turns a snapshot into cumulative sums. The counters that have no running
total of their own (DNS queries and errors, SYNs, RSTs, and what the peer cap folds into the
overflow series) are kept in the state from tick to tick. One `PeerLimiter` is made for the tick and
threaded through the connections, the SYN events and the RST events in that order. Three loops range
over maps; each has its own order.
-/

namespace Trafficmon

def scopeName : String := "github.com/boyvinall/trafficmon/receiver"

def metricNetworkIo : String := "trafficmon.network.io"
def metricDNSQueryCount : String := "trafficmon.dns.query.count"
def metricNetworkSYNCount : String := "trafficmon.network.syn.count"
def metricNetworkRSTCount : String := "trafficmon.network.rst.count"
def metricCapturePacketsDropped : String := "trafficmon.capture.packets.dropped"
def metricDNSQueryErrors : String := "trafficmon.dns.query.errors"

def attrDNSQuestionType : String := "dns.question.type"
def attrPeerOverflow : String := "network.peer.address.overflow"
def attrDNSResponseCode : String := "dns.response_code"

/-- The receiver's configuration (`receiver/config.go`). -/
structure Config where
  collectionInterval : Int := GoTime.second
  interface : String := ""
  maxPeerCardinality : Int := 1000

def Config.validate (c : Config) : Except String Unit :=
  if c.collectionInterval ≤ 0 then .error "collection_interval must be positive"
  else if c.maxPeerCardinality ≤ 0 then
    .error ("max_peer_cardinality must be positive, got " ++ toString c.maxPeerCardinality)
  else .ok ()

theorem Config.validate_ok {c : Config} :
    c.validate = .ok () ↔ 0 < c.collectionInterval ∧ 0 < c.maxPeerCardinality := by
  unfold validate
  split
  · exact ⟨nofun, fun h => by omega⟩
  · split
    · exact ⟨nofun, fun h => by omega⟩
    · exact ⟨fun _ => by omega, fun _ => rfl⟩

example : ({} : Config).validate = .ok () := by decide

/-! ### The peer limiter -/

/-- `fmt.Sprintf("%s:%d", addr, port)` -/
def peerKey : String × UInt16 → String
  | (addr, port) => String.ofList (addr.toList ++ ':' :: Nat.toDigits 10 port.toNat)

abbrev PeerLimiter := Limiter String

def newPeerLimiter (maxPeers : Int) : PeerLimiter := { max := maxPeers }

/-! ### What is emitted -/

inductive AggregationTemporality
  | delta | cumulative
deriving DecidableEq, Repr

structure Metric where
  name : String
  unit : String
  isMonotonic : Bool
  temporality : AggregationTemporality
  dataPoints : List NumberDataPoint

structure Metrics where
  scope : String
  metrics : List Metric

def cumulativeSum (name unit : String) (dataPoints : List NumberDataPoint) : Metric where
  name := name
  unit := unit
  isMonotonic := true
  temporality := .cumulative
  dataPoints := dataPoints

/-- A point of a series that starts when the receiver did. -/
def sumPoint (start now : Int) (value : UInt64) (attributes : List (String × AttrValue)) : NumberDataPoint where
  startTimestamp := start
  timestamp := now
  intValue := value.toInt64
  attributes := attributes

/-! ### The state -/

structure FlowIdentity where
  pid : Int32
  localAddr : String
  remoteAddr : String
  localPort : UInt16
  remotePort : UInt16
  proto : String
deriving DecidableEq, Repr

def ConnectionRecord.identity (r : ConnectionRecord) : FlowIdentity :=
  ⟨r.pid, r.localAddr, r.remoteAddr, r.localPort, r.remotePort, r.proto⟩

structure IOTotals where
  bytesIn : UInt64 := 0
  bytesOut : UInt64 := 0
deriving DecidableEq, Repr

structure DNSKey where
  name : String
  qtype : String
deriving DecidableEq, Repr

structure DNSErrorKey where
  name : String
  qtype : String
  rcode : String
deriving DecidableEq, Repr

/-- `synKey` and `rstKey`. -/
structure PeerEventKey where
  addr : String
  iface : String
  port : UInt16
deriving DecidableEq, Repr

abbrev SYNKey := PeerEventKey
abbrev RSTKey := PeerEventKey

structure MetricsState where
  start : Int
  dnsCounts : GoMap DNSKey UInt64 := ∅
  dnsErrorCounts : GoMap DNSErrorKey UInt64 := ∅
  synCounts : GoMap SYNKey UInt64 := ∅
  rstCounts : GoMap RSTKey UInt64 := ∅
  synOverflowCount : UInt64 := 0
  rstOverflowCount : UInt64 := 0
  overflowBytesIn : UInt64 := 0
  overflowBytesOut : UInt64 := 0
  /-- The totals of the flows that overflowed in the latest tick. -/
  lastIo : GoMap FlowIdentity IOTotals := ∅

/-! ### `network.io` -/

def overflowPoint (start now : Int) (direction : String) (bytes : UInt64) : NumberDataPoint :=
  sumPoint start now bytes [(attrNetworkIODirection, .str direction), (attrPeerOverflow, .bool true)]

def addOverflowIODataPoints (points : List NumberDataPoint) (start now : Int) (bytesIn bytesOut : UInt64) :
    List NumberDataPoint :=
  points ++ [overflowPoint start now attrDirectionTransmit bytesOut,
    overflowPoint start now attrDirectionReceive bytesIn]

/-- The overflow counter after a flow's total went from `prev` to `total`. -/
def advanceOverflow (overflow prev total : UInt64) : UInt64 :=
  if prev < total then overflow + (total - prev) else overflow

/-- The variables of `addIOMetric`'s loop. -/
structure IOLoop where
  points : List NumberDataPoint := []
  overflowBytesIn : UInt64
  overflowBytesOut : UInt64
  nextLastIo : GoMap FlowIdentity IOTotals := ∅
  overflowed : Bool := false

def ConnectionRecord.peer (r : ConnectionRecord) : String × UInt16 := (r.remoteAddr, r.remotePort)

namespace MetricsState

def ioBody (s : MetricsState) (now : Int) (acc : IOLoop) (rec : ConnectionRecord) (allowed : Bool) : IOLoop :=
  if allowed then { acc with points := addIODataPoint acc.points rec now }
  else
    let prev := (s.lastIo.lookup rec.identity).getD {}
    { acc with
      overflowBytesIn := advanceOverflow acc.overflowBytesIn prev.bytesIn rec.bytesInTotal
      overflowBytesOut := advanceOverflow acc.overflowBytesOut prev.bytesOut rec.bytesOutTotal
      nextLastIo := acc.nextLastIo.insert rec.identity ⟨rec.bytesInTotal, rec.bytesOutTotal⟩
      overflowed := true }

def addIOMetric (s : MetricsState) (snap : Snapshot) (now : Int) (limiter : PeerLimiter) :
    MetricsState × PeerLimiter × Metric :=
  let (limiter, acc) := limiter.forEach (fun r : ConnectionRecord => peerKey r.peer) (s.ioBody now)
    { overflowBytesIn := s.overflowBytesIn, overflowBytesOut := s.overflowBytesOut } snap.connections
  let points :=
    if acc.overflowed then
      addOverflowIODataPoints acc.points s.start now acc.overflowBytesIn acc.overflowBytesOut
    else acc.points
  ({ s with
      lastIo := acc.nextLastIo
      overflowBytesIn := acc.overflowBytesIn
      overflowBytesOut := acc.overflowBytesOut },
    limiter, cumulativeSum metricNetworkIo "By" points)

end MetricsState

/-! ### DNS -/

/-- `addDNSQueryMetric` and `addDNSErrorMetric`: counts every event, then one point for each key of
this tick; no metric without events. -/
def addDNSMetric {κ : Type} [DecidableEq κ] (name : String) (attrs : κ → List (String × AttrValue))
    (start now : Int) (counts : GoMap κ UInt64) (keys : List κ) : GoMap κ UInt64 × List Metric :=
  let counts := keys.foldl GoMap.bump counts
  if keys.length = 0 then (counts, [])
  else (counts, [cumulativeSum name "{query}"
    (Distinct.eachNew (fun k => sumPoint start now ((counts.lookup k).getD 0) (attrs k)) keys)])

def QueryFinding.key (q : QueryFinding) : DNSKey := ⟨q.name, q.qType⟩

def DNSErrorFinding.key (e : DNSErrorFinding) : DNSErrorKey := ⟨e.name, e.qType, e.rCode⟩

def DNSKey.attributes (k : DNSKey) : List (String × AttrValue) :=
  [("dns.question.name", .str k.name), (attrDNSQuestionType, .str k.qtype)]

def DNSErrorKey.attributes (k : DNSErrorKey) : List (String × AttrValue) :=
  [("dns.question.name", .str k.name), (attrDNSQuestionType, .str k.qtype), (attrDNSResponseCode, .str k.rcode)]

namespace MetricsState

def addDNSQueryMetric (s : MetricsState) (snap : Snapshot) (now : Int) : MetricsState × List Metric :=
  let (counts, metrics) := addDNSMetric metricDNSQueryCount DNSKey.attributes s.start now s.dnsCounts
    (snap.dnsQueries.map QueryFinding.key)
  ({ s with dnsCounts := counts }, metrics)

def addDNSErrorMetric (s : MetricsState) (snap : Snapshot) (now : Int) : MetricsState × List Metric :=
  let (counts, metrics) := addDNSMetric metricDNSQueryErrors DNSErrorKey.attributes s.start now s.dnsErrorCounts
    (snap.dnsErrors.map DNSErrorFinding.key)
  ({ s with dnsErrorCounts := counts }, metrics)

end MetricsState

/-! ### SYN and RST -/

def PeerEventKey.attributes (k : PeerEventKey) : List (String × AttrValue) :=
  [("network.peer.address", .str k.addr), ("network.peer.port", .int k.port.toNat),
    (attrNetworkInterfaceName, .str k.iface)]

def PeerEventKey.peer (k : PeerEventKey) : String × UInt16 := (k.addr, k.port)

/-- The variables of `addSYNMetric`'s loop. -/
structure PeerEventLoop where
  counts : GoMap PeerEventKey UInt64
  overflowCount : UInt64
  touched : GoMap PeerEventKey Unit := ∅

def PeerEventLoop.body (acc : PeerEventLoop) (k : PeerEventKey) (allowed : Bool) : PeerEventLoop :=
  if allowed then { acc with counts := acc.counts.bump k, touched := acc.touched.insert k () }
  else { acc with overflowCount := acc.overflowCount + 1 }

/-- `addSYNMetric` and `addRSTMetric`: one point for each key touched in this tick and one for
whatever overflowed so far; no metric without events. -/
def addPeerEventMetric (name unit : String) (start now : Int) (order : MapOrder PeerEventKey Unit)
    (counts : GoMap PeerEventKey UInt64) (overflowCount : UInt64) (keys : List PeerEventKey) (limiter : PeerLimiter) :
    PeerLimiter × PeerEventLoop × List Metric :=
  let (limiter, acc) := limiter.forEach (fun k : PeerEventKey => peerKey k.peer) PeerEventLoop.body
    { counts := counts, overflowCount := overflowCount } keys
  if keys.length = 0 then (limiter, acc, [])
  else
    let points := (order.list acc.touched).map fun e =>
      sumPoint start now ((acc.counts.lookup e.1).getD 0) e.1.attributes
    let overflow :=
      if 0 < acc.overflowCount then [sumPoint start now acc.overflowCount [(attrPeerOverflow, .bool true)]] else []
    (limiter, acc, [cumulativeSum name unit (points ++ overflow)])

def SYNEvent.key (ev : SYNEvent) : SYNKey := ⟨ev.remoteAddr.string, ev.iface, ev.remotePort⟩

def RSTEvent.key (ev : RSTEvent) : RSTKey := ⟨ev.remoteAddr.string, ev.iface, ev.remotePort⟩

/-- The orders of the three loops over maps. -/
structure RangeOrders where
  syn : MapOrder SYNKey Unit
  rst : MapOrder RSTKey Unit
  stats : MapOrder String PacketStats

namespace MetricsState

def addSYNMetric (s : MetricsState) (snap : Snapshot) (now : Int) (limiter : PeerLimiter) (orders : RangeOrders) :
    MetricsState × PeerLimiter × List Metric :=
  let (limiter, acc, metrics) := addPeerEventMetric metricNetworkSYNCount "{attempt}" s.start now orders.syn
    s.synCounts s.synOverflowCount (snap.synEvents.map SYNEvent.key) limiter
  ({ s with synCounts := acc.counts, synOverflowCount := acc.overflowCount }, limiter, metrics)

def addRSTMetric (s : MetricsState) (snap : Snapshot) (now : Int) (limiter : PeerLimiter) (orders : RangeOrders) :
    MetricsState × PeerLimiter × List Metric :=
  let (limiter, acc, metrics) := addPeerEventMetric metricNetworkRSTCount "{reset}" s.start now orders.rst
    s.rstCounts s.rstOverflowCount (snap.rstEvents.map RSTEvent.key) limiter
  ({ s with rstCounts := acc.counts, rstOverflowCount := acc.overflowCount }, limiter, metrics)

end MetricsState

/-! ### Dropped packets -/

def addPacketsDroppedMetric (snap : Snapshot) (start now : Int) (orders : RangeOrders) : List Metric :=
  if snap.packetStats.entries.length = 0 then []
  else [cumulativeSum metricCapturePacketsDropped "{packet}" ((orders.stats.list snap.packetStats).map fun e =>
    { startTimestamp := start
      timestamp := now
      intValue := Int64.ofInt e.2.dropped
      attributes := [(attrNetworkInterfaceName, .str e.1)] })]

/-! ### One tick -/

namespace MetricsState

def buildMetrics (s : MetricsState) (snap : Snapshot) (now : Int) (cfg : Config) (orders : RangeOrders) :
    MetricsState × Metrics :=
  let limiter := newPeerLimiter cfg.maxPeerCardinality
  let (s, limiter, io) := s.addIOMetric snap now limiter
  let (s, dns) := s.addDNSQueryMetric snap now
  let (s, dnsErr) := s.addDNSErrorMetric snap now
  let (s, limiter, syn) := s.addSYNMetric snap now limiter orders
  let (s, _, rst) := s.addRSTMetric snap now limiter orders
  (s, ⟨scopeName, io :: dns ++ dnsErr ++ syn ++ rst ++ addPacketsDroppedMetric snap s.start now orders⟩)

end MetricsState
end Trafficmon
