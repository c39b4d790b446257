import Trafficmon.Receiver.Tick

/-!
# Series and peers of one tick

A point belongs to the series named by its attributes. DNS, SYN, RST and drop points are made once
for each key of a map or list without duplicates, and the key is in the attributes. A `network.io`
point leaves out the local endpoint of its connection, so two connections of one process to one peer
land in one series (`one_point_per_series_iff`). A peer has its own attributes in every metric or in
none, and at most `maxPeerCardinality` do (`peers_capped`).
-/

namespace Trafficmon
open Distinct

/-! ### Series -/

/-- `p` and `q` have the same attribute set. -/
def NumberDataPoint.SameSeries (p q : NumberDataPoint) : Prop :=
  (∀ a ∈ p.attributes, a ∈ q.attributes) ∧ ∀ a ∈ q.attributes, a ∈ p.attributes

instance (p q : NumberDataPoint) : Decidable (p.SameSeries q) := inferInstanceAs (Decidable (_ ∧ _))

def OnePointPerSeries (points : List NumberDataPoint) : Prop := points.Pairwise fun p q => ¬ p.SameSeries q

/-- What a `network.io` point shows of a connection. -/
def ConnectionRecord.SameAttributes (r r' : ConnectionRecord) : Prop :=
  r.proto = r'.proto ∧ r.iface = r'.iface ∧ r.peer = r'.peer ∧ r.pid = r'.pid ∧
    (r.pid ≠ 0 → r.processName = r'.processName)

instance (r r' : ConnectionRecord) : Decidable (r.SameAttributes r') := inferInstanceAs (Decidable (_ ∧ _))

theorem mem_ioDataPoint {r : ConnectionRecord} {now : Int} {d : String} {n : UInt64} {a : String × AttrValue} :
    a ∈ (ioDataPoint r now d n).attributes ↔
      a = ("network.io.direction", .str d) ∨ a = ("network.transport", .str r.proto) ∨
      (r.iface ≠ "" ∧ a = ("network.interface.name", .str r.iface)) ∨
      a = ("network.peer.address", .str r.remoteAddr) ∨ a = ("network.peer.port", .int r.remotePort.toNat) ∨
      (r.pid ≠ 0 ∧ (a = ("process.pid", .int r.pid.toInt) ∨ a = ("process.executable.name", .str r.processName))) := by
  simp only [ioDataPoint, List.mem_append, List.mem_cons, List.not_mem_nil, or_false]
  split <;> split <;> simp_all [or_assoc, attrNetworkIODirection, attrNetworkInterfaceName]

theorem ioDataPoint_sameSeries {r r' : ConnectionRecord} {now now' : Int} {d d' : String} {n n' : UInt64} :
    (ioDataPoint r now d n).SameSeries (ioDataPoint r' now' d' n') ↔ d = d' ∧ r.SameAttributes r' := by
  constructor
  · rintro ⟨h, h'⟩
    simp only [mem_ioDataPoint] at h h'
    have hdir : d = d' := by simpa using h ("network.io.direction", .str d)
    have hproto : r.proto = r'.proto := by simpa using h ("network.transport", .str r.proto)
    have haddr : r.remoteAddr = r'.remoteAddr := by simpa using h ("network.peer.address", .str r.remoteAddr)
    have hport : r.remotePort.toNat = r'.remotePort.toNat := by
      simpa using h ("network.peer.port", .int r.remotePort.toNat)
    have hiface : r.iface ≠ "" → r'.iface ≠ "" ∧ r.iface = r'.iface := by
      simpa using h ("network.interface.name", .str r.iface)
    have hiface' : r'.iface ≠ "" → r.iface ≠ "" ∧ r'.iface = r.iface := by
      simpa using h' ("network.interface.name", .str r'.iface)
    have hpid : r.pid ≠ 0 → r'.pid ≠ 0 ∧ r.pid.toInt = r'.pid.toInt := by
      simpa using h ("process.pid", .int r.pid.toInt)
    have hpid' : r'.pid ≠ 0 → r.pid ≠ 0 ∧ r'.pid.toInt = r.pid.toInt := by
      simpa using h' ("process.pid", .int r'.pid.toInt)
    have hname : r.pid ≠ 0 → r'.pid ≠ 0 ∧ r.processName = r'.processName := by
      simpa using h ("process.executable.name", .str r.processName)
    refine ⟨hdir, hproto, ?_, Prod.ext haddr (UInt16.toNat_inj.1 hport), ?_, fun h0 => (hname h0).2⟩
    · by_cases h0 : r.iface = ""
      · by_contra hne
        exact (hiface' fun h1 => hne (h0.trans h1.symm)).1 h0
      · exact (hiface h0).2
    · by_cases h0 : r.pid = 0
      · by_contra hne
        exact (hpid' fun h1 => hne (h0.trans h1.symm)).1 h0
      · exact Int32.toInt_inj.1 (hpid h0).2
  · rintro ⟨rfl, hproto, hiface, hpeer, hpid, hname⟩
    obtain ⟨haddr, hport⟩ := Prod.mk.inj hpeer
    have hsame : ∀ a, a ∈ (ioDataPoint r now d n).attributes ↔ a ∈ (ioDataPoint r' now' d n').attributes := by
      intro a
      rw [mem_ioDataPoint, mem_ioDataPoint, hproto, hiface, haddr, hport, hpid]
      by_cases h0 : r'.pid = 0
      · simp [h0]
      · rw [hname (hpid ▸ h0)]
    exact ⟨fun a ha => (hsame a).1 ha, fun a ha => (hsame a).2 ha⟩

/-! ### The points of each metric -/

section Points
variable {s : MetricsState} {t : Tick} {start : Int}

/-- One point for each key of a list without duplicates, where the attributes show the key. -/
theorem onePointPerSeries_map {κ : Type} {keys : List κ} {attrs : κ → List (String × AttrValue)}
    (start now : Int) (value : κ → UInt64) (hkeys : keys.Nodup)
    (hattrs : ∀ k k', (∀ a ∈ attrs k, a ∈ attrs k') → k = k') :
    OnePointPerSeries (keys.map fun k => sumPoint start now (value k) (attrs k)) := by
  refine List.pairwise_map.2 (hkeys.imp fun hne h => hne ?_)
  exact hattrs _ _ h.1

theorem DNSKey.attributes_inj {k k' : DNSKey} (h : ∀ a ∈ k.attributes, a ∈ k'.attributes) : k = k' := by
  cases k
  cases k'
  simpa [DNSKey.attributes, attrDNSQuestionType] using h

theorem DNSErrorKey.attributes_inj {k k' : DNSErrorKey} (h : ∀ a ∈ k.attributes, a ∈ k'.attributes) : k = k' := by
  cases k
  cases k'
  simpa [DNSErrorKey.attributes, attrDNSQuestionType, attrDNSResponseCode] using h

theorem PeerEventKey.attributes_inj {k k' : PeerEventKey} (h : ∀ a ∈ k.attributes, a ∈ k'.attributes) : k = k' := by
  obtain ⟨addr, iface, port⟩ := k
  obtain ⟨addr', iface', port'⟩ := k'
  have hfields : addr = addr' ∧ port = port' ∧ iface = iface' := by
    simpa [PeerEventKey.attributes, attrNetworkInterfaceName, UInt16.toNat_inj] using h
  obtain ⟨rfl, rfl, rfl⟩ := hfields
  rfl

/-- A key's point is none of the overflow. -/
theorem PeerEventKey.attributes_not_overflow (k : PeerEventKey) :
    ¬ ∀ a ∈ k.attributes, a ∈ [(attrPeerOverflow, AttrValue.bool true)] := by
  intro h
  have := h ("network.peer.address", .str k.addr) (by simp [PeerEventKey.attributes])
  simp [attrPeerOverflow] at this

theorem onePointPerSeries_dns {κ : Type} [DecidableEq κ] {attrs : κ → List (String × AttrValue)}
    (hattrs : ∀ k k', (∀ a ∈ attrs k, a ∈ attrs k') → k = k') (counts : GoMap κ UInt64) (keys : List κ) :
    OnePointPerSeries (t.dnsPoints start attrs counts keys) :=
  onePointPerSeries_map start t.now _ (nodup_firsts keys) hattrs

theorem onePointPerSeries_peer (order : MapOrder PeerEventKey Unit) (counts : GoMap PeerEventKey UInt64)
    (overflowCount : UInt64) (keys : List PeerEventKey) :
    OnePointPerSeries (t.peerPoints start order counts overflowCount keys) := by
  have hkeys := (touchedBy_perm order (t.ownKeys keys)).nodup_iff.2 (nodup_firsts _)
  have hown := onePointPerSeries_map start t.now (fun k => (counts.lookup k).getD 0) hkeys
    fun _ _ => PeerEventKey.attributes_inj
  rw [List.map_map] at hown
  refine List.pairwise_append.2 ⟨hown, ?_, ?_⟩
  · split
    · exact List.pairwise_singleton _ _
    · exact List.Pairwise.nil
  · intro p hp q hq hsame
    obtain ⟨e, -, rfl⟩ := List.mem_map.1 hp
    split at hq
    · obtain rfl := List.mem_singleton.1 hq
      exact e.1.attributes_not_overflow hsame.1
    · cases hq

theorem onePointPerSeries_dropped {m : Metric} {orders : RangeOrders}
    (hm : m ∈ addPacketsDroppedMetric t.snap start t.now orders) : OnePointPerSeries m.dataPoints := by
  unfold addPacketsDroppedMetric at hm
  split at hm
  · cases hm
  · obtain rfl := List.mem_singleton.1 hm
    have hkeys : ((orders.stats.list t.snap.packetStats).map (·.1)).Nodup :=
      ((orders.stats.perm _).map _).nodup_iff.2 t.snap.packetStats.nodupKeys
    refine List.pairwise_map.2 ((List.pairwise_map.1 hkeys).imp fun hne h => hne ?_)
    simpa [attrNetworkInterfaceName] using h.1

theorem transmit_ne_receive : attrDirectionTransmit ≠ attrDirectionReceive := by decide

theorem onePointPerSeries_overflow (start now : Int) (bytesIn bytesOut : UInt64) :
    OnePointPerSeries (addOverflowIODataPoints [] start now bytesIn bytesOut) := by
  refine List.pairwise_pair.2 fun h => ?_
  have := h.1 (attrNetworkIODirection, .str attrDirectionTransmit) (by simp [overflowPoint, sumPoint])
  simp [overflowPoint, sumPoint, attrNetworkIODirection, attrPeerOverflow, transmit_ne_receive] at this

/-- A connection's point is none of the overflow. -/
theorem ioDataPoint_not_overflow {r : ConnectionRecord} {now now' start : Int} {bytesIn bytesOut : UInt64}
    {p q : NumberDataPoint} (hp : p ∈ addIODataPoint [] r now)
    (hq : q ∈ addOverflowIODataPoints [] start now' bytesIn bytesOut) : ¬ p.SameSeries q := by
  intro hsame
  have hover : (attrPeerOverflow, AttrValue.bool true) ∈ q.attributes := by
    simp only [addOverflowIODataPoints, List.nil_append, List.mem_cons, List.not_mem_nil, or_false] at hq
    rcases hq with rfl | rfl <;> simp [overflowPoint, sumPoint]
  have hmem := hsame.2 _ hover
  simp only [addIODataPoint, List.nil_append, List.mem_cons, List.not_mem_nil, or_false] at hp
  rcases hp with rfl | rfl <;> simp [mem_ioDataPoint, attrPeerOverflow] at hmem

theorem onePointPerSeries_io :
    OnePointPerSeries (t.ioPoints s) ↔ t.own.Pairwise fun r r' => ¬ r.SameAttributes r' := by
  have hdir := transmit_ne_receive
  have hov : OnePointPerSeries
      (if t.folded = [] then [] else addOverflowIODataPoints [] s.start t.now s.overflowBytesIn s.overflowBytesOut) := by
    split
    · exact List.Pairwise.nil
    · exact onePointPerSeries_overflow _ _ _ _
  have hcross : ∀ p ∈ t.own.flatMap (fun r => addIODataPoint [] r t.now), ∀ q ∈
      (if t.folded = [] then [] else addOverflowIODataPoints [] s.start t.now s.overflowBytesIn s.overflowBytesOut),
      ¬ p.SameSeries q := by
    intro p hp q hq
    obtain ⟨r, -, hp⟩ := List.mem_flatMap.1 hp
    split at hq
    · cases hq
    · exact ioDataPoint_not_overflow hp hq
  have hpair : ∀ r : ConnectionRecord, (addIODataPoint [] r t.now).Pairwise fun p q => ¬ p.SameSeries q := fun r =>
    List.pairwise_pair.2 fun h => hdir (ioDataPoint_sameSeries.1 h).1
  have hrel : ∀ r r' : ConnectionRecord, (∀ p ∈ addIODataPoint [] r t.now, ∀ q ∈ addIODataPoint [] r' t.now,
      ¬ p.SameSeries q) ↔ ¬ r.SameAttributes r' := by
    intro r r'
    simp only [addIODataPoint, List.nil_append, List.mem_cons, List.not_mem_nil, or_false, forall_eq_or_imp, forall_eq,
      ioDataPoint_sameSeries, true_and, hdir, hdir.symm, false_and, not_false_eq_true, and_true, and_self]
  rw [OnePointPerSeries, Tick.ioPoints, List.pairwise_append, List.pairwise_flatMap]
  simp only [hrel]
  exact ⟨fun h => h.1.2, fun h => ⟨⟨fun r _ => hpair r, h⟩, hov, hcross⟩⟩

end Points

/-! ### One point per series -/

theorem ConnectionRecord.SameAttributes.symm {r r' : ConnectionRecord} (h : r.SameAttributes r') : r'.SameAttributes r := by
  obtain ⟨h1, h2, h3, h4, h5⟩ := h
  exact ⟨h1.symm, h2.symm, h3.symm, h4.symm, fun h0 => (h5 (h4 ▸ h0)).symm⟩

theorem mem_metricOf {κ : Type} {name unit : String} {keys : List κ} {points : List NumberDataPoint} {m : Metric}
    (h : m ∈ metricOf name unit keys points) : m.dataPoints = points := by
  unfold metricOf at h
  split at h
  · cases h
  · rw [List.mem_singleton.1 h]
    rfl

theorem onePointPerSeries_emit {s : MetricsState} {t : Tick} :
    (∀ m ∈ (s.emit t).metrics, OnePointPerSeries m.dataPoints) ↔ OnePointPerSeries (t.ioPoints (s.after t)) := by
  simp only [emit_eq, MetricsState.emitted]
  constructor
  · intro h
    exact h (cumulativeSum metricNetworkIo "By" (t.ioPoints (s.after t))) (by simp)
  · intro h m hm
    simp only [List.cons_append, List.mem_cons, List.mem_append] at hm
    rcases hm with rfl | (((hm | hm) | hm) | hm) | hm
    · exact h
    · rw [mem_metricOf hm]
      exact onePointPerSeries_dns (fun _ _ => DNSKey.attributes_inj) _ _
    · rw [mem_metricOf hm]
      exact onePointPerSeries_dns (fun _ _ => DNSErrorKey.attributes_inj) _ _
    · rw [mem_metricOf hm]
      exact onePointPerSeries_peer _ _ _ _
    · rw [mem_metricOf hm]
      exact onePointPerSeries_peer _ _ _ _
    · exact onePointPerSeries_dropped hm

/-- No series has two points in one tick iff no two connections of an admitted peer agree on
everything a `network.io` point shows of them. -/
theorem one_point_per_series_iff (s : MetricsState) (t : Tick)
    (hkeys : (t.snap.connections.map ConnectionRecord.key).Nodup) :
    (∀ m ∈ (s.emit t).metrics, OnePointPerSeries m.dataPoints) ↔
      ∀ r ∈ t.snap.connections, ∀ r' ∈ t.snap.connections, r.key ≠ r'.key → r.SameAttributes r' →
        r.peer ∉ t.admitted := by
  rw [onePointPerSeries_emit, onePointPerSeries_io]
  have hinj : ∀ r ∈ t.snap.connections, ∀ r' ∈ t.snap.connections, r.key = r'.key → r = r' :=
    List.inj_on_of_nodup_map hkeys
  have hnodup : t.own.Nodup := (List.Nodup.of_map _ hkeys).filter _
  have hsymm : Std.Symm fun r r' : ConnectionRecord => ¬ r.SameAttributes r' := ⟨fun _ _ h hs => h hs.symm⟩
  constructor
  · intro h r hr r' hr' hne hsame hadm
    have hadm' : r'.peer ∈ t.admitted := hsame.2.2.1 ▸ hadm
    refine h.forall (List.mem_filter.2 ⟨hr, by simpa using hadm⟩) (List.mem_filter.2 ⟨hr', by simpa using hadm'⟩) ?_ hsame
    rintro rfl
    exact hne rfl
  · intro h
    refine hnodup.pairwise_of_forall_ne fun r hr r' hr' hne hsame => ?_
    obtain ⟨hr, hadm⟩ := List.mem_filter.1 hr
    have hr' := (List.mem_filter.1 hr').1
    exact h r hr r' hr' (fun hkey => hne (hinj r hr r' hr' hkey)) hsame (by simpa using hadm)

def rec443 (localPort : UInt16) : ConnectionRecord where
  pid := 42
  processName := "curl"
  localAddr := "10.0.0.1"
  localPort := localPort
  remoteAddr := "1.1.1.1"
  remotePort := 443
  proto := "tcp"
  state := "ESTABLISHED"
  firstSeen := 1
  lastPolled := 1

/-- A tick with these connections, no events and this cap. -/
def tickOf (connections : List ConnectionRecord) (maxPeers : Int) : Tick where
  snap := { takenAt := 1, connections := connections }
  now := 1
  cfg := { maxPeerCardinality := maxPeers }
  orders := ⟨.held, .held, .held⟩

theorem twoProcesses_onePoint :
    ((tickOf [rec443 51000, { rec443 51001 with pid := 43 }] 1000).snap.connections.map ConnectionRecord.key).Nodup ∧
    ∀ m ∈ (({ start := 0 } : MetricsState).emit (tickOf [rec443 51000, { rec443 51001 with pid := 43 }] 1000)).metrics,
      OnePointPerSeries m.dataPoints := by
  have hkeys : ((tickOf [rec443 51000, { rec443 51001 with pid := 43 }] 1000).snap.connections.map
      ConnectionRecord.key).Nodup := by decide
  exact ⟨hkeys, (one_point_per_series_iff _ _ hkeys).2 (by decide)⟩

/-- Two connections of one process to one peer, from two local ports. -/
theorem twoPorts_two_points :
    ((tickOf [rec443 51000, rec443 51001] 1000).snap.connections.map ConnectionRecord.key).Nodup ∧
    ¬ ∀ m ∈ (({ start := 0 } : MetricsState).emit (tickOf [rec443 51000, rec443 51001] 1000)).metrics,
      OnePointPerSeries m.dataPoints := by
  rw [onePointPerSeries_emit, onePointPerSeries_io]
  decide


/-! ### Peers -/

def pointsIn (name : String) (metrics : List Metric) : List NumberDataPoint :=
  (metrics.filter fun m => m.name = name).flatMap Metric.dataPoints

def Metrics.pointsOf (md : Metrics) (name : String) : List NumberDataPoint := pointsIn name md.metrics

/-- The points of the metrics that show peers. -/
def Metrics.peerPoints (md : Metrics) : List NumberDataPoint :=
  md.pointsOf metricNetworkIo ++ md.pointsOf metricNetworkSYNCount ++ md.pointsOf metricNetworkRSTCount

def NumberDataPoint.peer (p : NumberDataPoint) : Option (AttrValue × AttrValue) :=
  (p.attributes.lookup "network.peer.address").bind fun addr =>
    (p.attributes.lookup "network.peer.port").map fun port => (addr, port)

def peerValue (p : String × UInt16) : AttrValue × AttrValue := (.str p.1, .int p.2.toNat)

section Peers
variable {s : MetricsState} {t : Tick} {p : String × UInt16}

theorem peerValue_injective : Function.Injective peerValue := by
  rintro ⟨a, m⟩ ⟨b, n⟩ h
  simpa [peerValue, UInt16.toNat_inj] using h

theorem peer_ioDataPoint (r : ConnectionRecord) (now : Int) (d : String) (n : UInt64) :
    (ioDataPoint r now d n).peer = some (peerValue r.peer) := by
  simp only [NumberDataPoint.peer, ioDataPoint]
  split <;> split <;> rfl

@[simp] theorem pointsIn_nil (name : String) : pointsIn name [] = [] := rfl

theorem pointsIn_append (name : String) (ms ms' : List Metric) :
    pointsIn name (ms ++ ms') = pointsIn name ms ++ pointsIn name ms' := by
  simp [pointsIn]

theorem pointsIn_sum (name name' unit : String) (points : List NumberDataPoint) (ms : List Metric) :
    pointsIn name (cumulativeSum name' unit points :: ms) =
      (if name' = name then points else []) ++ pointsIn name ms := by
  by_cases h : name' = name <;> simp [pointsIn, cumulativeSum, h]

theorem pointsIn_metricOf {κ : Type} (name name' unit : String) (keys : List κ) (points : List NumberDataPoint) :
    pointsIn name (metricOf name' unit keys points) = if name' = name ∧ keys ≠ [] then points else [] := by
  cases keys with
  | nil => simp [metricOf]
  | cons k ks => simp [metricOf, pointsIn_sum]

theorem pointsIn_dropped {name : String} (h : metricCapturePacketsDropped ≠ name) (snap : Snapshot) (start now : Int)
    (orders : RangeOrders) : pointsIn name (addPacketsDroppedMetric snap start now orders) = [] := by
  unfold addPacketsDroppedMetric
  split
  · rfl
  · rw [pointsIn_sum, if_neg h]
    rfl

/-- The points of each metric a tick counts something in. -/
theorem pointsOf_emit :
    (s.emit t).pointsOf metricNetworkIo = t.ioPoints (s.after t) ∧
    (s.emit t).pointsOf metricDNSQueryCount =
      t.dnsPoints s.start DNSKey.attributes (s.after t).dnsCounts t.dnsKeys ∧
    (s.emit t).pointsOf metricDNSQueryErrors =
      t.dnsPoints s.start DNSErrorKey.attributes (s.after t).dnsErrorCounts t.dnsErrorKeys ∧
    ((s.emit t).pointsOf metricNetworkSYNCount = if t.synKeys ≠ [] then
      t.peerPoints s.start t.orders.syn (s.after t).synCounts (s.after t).synOverflowCount t.synKeys else []) ∧
    ((s.emit t).pointsOf metricNetworkRSTCount = if t.rstKeys ≠ [] then
      t.peerPoints s.start t.orders.rst (s.after t).rstCounts (s.after t).rstOverflowCount t.rstKeys else []) := by
  have hnil : ∀ {κ : Type} [DecidableEq κ] (attrs : κ → List (String × AttrValue)) (counts : GoMap κ UInt64)
      (keys : List κ), (if keys = [] then [] else t.dnsPoints s.start attrs counts keys) =
        t.dnsPoints s.start attrs counts keys := by
    intro κ _ attrs counts keys
    split
    · subst keys; rfl
    · rfl
  simp only [Metrics.pointsOf, emit_eq, MetricsState.emitted, pointsIn_append, pointsIn_sum, pointsIn_metricOf]
  refine ⟨?_, ?_, ?_, ?_, ?_⟩ <;> rw [pointsIn_dropped (by decide)] <;>
    simp [metricNetworkIo, metricDNSQueryCount, metricDNSQueryErrors, metricNetworkSYNCount, metricNetworkRSTCount,
      MetricsState.after, hnil]

theorem peer_of_mem_ioPoints {q : NumberDataPoint} (hq : q ∈ t.ioPoints s) :
    q.peer = none ∨ ∃ r ∈ t.own, q.peer = some (peerValue r.peer) := by
  rcases List.mem_append.1 hq with hq | hq
  · obtain ⟨r, hr, hq⟩ := List.mem_flatMap.1 hq
    refine .inr ⟨r, hr, ?_⟩
    simp only [addIODataPoint, List.nil_append, List.mem_cons, List.not_mem_nil, or_false] at hq
    rcases hq with rfl | rfl <;> exact peer_ioDataPoint r _ _ _
  · split at hq
    · cases hq
    · simp only [addOverflowIODataPoints, List.nil_append, List.mem_cons, List.not_mem_nil, or_false] at hq
      rcases hq with rfl | rfl <;> exact .inl rfl

theorem mem_peerPoints {start : Int} {order : MapOrder PeerEventKey Unit} {counts : GoMap PeerEventKey UInt64}
    {overflowCount : UInt64} {keys : List PeerEventKey} {q : NumberDataPoint} :
    q ∈ t.peerPoints start order counts overflowCount keys ↔
      (∃ k ∈ t.ownKeys keys, q = sumPoint start t.now ((counts.lookup k).getD 0) k.attributes) ∨
      0 < overflowCount ∧ q = sumPoint start t.now overflowCount [(attrPeerOverflow, .bool true)] := by
  have hkeys : ∀ k, k ∈ (order.list (touchedBy (t.ownKeys keys))).map (·.1) ↔ k ∈ t.ownKeys keys := fun k =>
    (touchedBy_perm order _).mem_iff.trans mem_firsts
  rw [Tick.peerPoints, List.mem_append]
  refine or_congr ?_ ?_
  · simp only [← hkeys, List.mem_map]
    constructor
    · rintro ⟨e, he, rfl⟩
      exact ⟨e.1, ⟨e, he, rfl⟩, rfl⟩
    · rintro ⟨_, ⟨e, he, rfl⟩, rfl⟩
      exact ⟨e, he, rfl⟩
  · split
    · rw [List.mem_singleton]
      exact (and_iff_right ‹_›).symm
    · exact ⟨fun h => absurd h List.not_mem_nil, fun h => absurd h.1 ‹_›⟩

/-- Only admitted peers show. -/
theorem admitted_of_peer {q : NumberDataPoint} {v : AttrValue × AttrValue} (hq : q ∈ (s.emit t).peerPoints)
    (hv : q.peer = some v) : ∃ p ∈ t.admitted, v = peerValue p := by
  obtain ⟨hio, -, -, hsyn, hrst⟩ := pointsOf_emit (s := s) (t := t)
  have hevent : ∀ {start : Int} {order : MapOrder PeerEventKey Unit} {counts : GoMap PeerEventKey UInt64}
      {overflowCount : UInt64} {keys : List PeerEventKey},
      q ∈ (if keys ≠ [] then t.peerPoints start order counts overflowCount keys else []) →
      ∃ p ∈ t.admitted, v = peerValue p := by
    intro start order counts overflowCount keys hq
    split at hq
    · rcases mem_peerPoints.1 hq with ⟨k, hk, rfl⟩ | ⟨-, rfl⟩
      · refine ⟨k.peer, by simpa using (List.mem_filter.1 hk).2, ?_⟩
        exact (Option.some.inj hv).symm
      · cases hv
    · cases hq
  rw [Metrics.peerPoints, hio, hsyn, hrst, List.mem_append, List.mem_append] at hq
  rcases hq with (hq | hq) | hq
  · rcases peer_of_mem_ioPoints hq with hnone | ⟨r, hr, hsome⟩
    · rw [hnone] at hv
      cases hv
    · exact ⟨r.peer, by simpa using (List.mem_filter.1 hr).2, Option.some.inj (hv.symm.trans hsome)⟩
  · exact hevent hq
  · exact hevent hq

theorem mem_foldedTotals {id : FlowIdentity} : id ∈ t.foldedTotals ↔ ∃ r ∈ t.folded, r.identity = id := by
  rw [Tick.foldedTotals, GoMap.mem_iff_lookup]
  simp only [GoMap.lookup_insertAll, AList.lookup_empty, Option.or_none]
  constructor
  · rintro ⟨v, hv⟩
    obtain ⟨r, hr, he⟩ := List.mem_map.1 (GoMap.mem_of_lastOf hv)
    exact ⟨r, hr, congrArg Prod.fst he⟩
  · rintro ⟨r, hr, rfl⟩
    exact GoMap.exists_lastOf (List.mem_map.2 ⟨r, hr, rfl⟩)

theorem identity_peer {r r' : ConnectionRecord} (h : r.identity = r'.identity) : r.peer = r'.peer := by
  simp only [ConnectionRecord.identity, FlowIdentity.mk.injEq] at h
  rw [ConnectionRecord.peer, ConnectionRecord.peer, h.2.2.1, h.2.2.2.2.1]

end Peers

/-- Every record of `p` in the tick has its own points; none went into an overflow. -/
structure MetricsState.OwnInAll (s : MetricsState) (t : Tick) (p : String × UInt16) : Prop where
  io : ∀ r ∈ t.snap.connections, r.peer = p →
    (∀ q ∈ addIODataPoint [] r t.now, q ∈ (s.emit t).pointsOf metricNetworkIo) ∧ r.identity ∉ (s.tick t).lastIo
  syn : ∀ k ∈ t.synKeys, k.peer = p →
    ∃ q ∈ (s.emit t).pointsOf metricNetworkSYNCount, q.attributes = k.attributes
  rst : ∀ k ∈ t.rstKeys, k.peer = p →
    ∃ q ∈ (s.emit t).pointsOf metricNetworkRSTCount, q.attributes = k.attributes

/-- No point of the tick shows `p`, and its connections went into the overflow pair. -/
structure MetricsState.FoldedInAll (s : MetricsState) (t : Tick) (p : String × UInt16) : Prop where
  no_point : ∀ q ∈ (s.emit t).peerPoints, q.peer ≠ some (peerValue p)
  io : ∀ r ∈ t.snap.connections, r.peer = p → r.identity ∈ (s.tick t).lastIo ∧
    ∀ q ∈ addOverflowIODataPoints [] s.start t.now (s.tick t).overflowBytesIn (s.tick t).overflowBytesOut,
      q ∈ (s.emit t).pointsOf metricNetworkIo

section Peers
variable {s : MetricsState} {t : Tick} {p : String × UInt16}

theorem ownInAll (hp : p ∈ t.admitted) : s.OwnInAll t p := by
  obtain ⟨hio, -, -, hsyn, hrst⟩ := pointsOf_emit (s := s) (t := t)
  have hevent : ∀ {start : Int} {order : MapOrder PeerEventKey Unit} {counts : GoMap PeerEventKey UInt64}
      {overflowCount : UInt64} {keys : List PeerEventKey}, ∀ k ∈ keys, k.peer = p →
      ∃ q ∈ (if keys ≠ [] then t.peerPoints start order counts overflowCount keys else []),
        q.attributes = k.attributes := by
    rintro start order counts overflowCount keys k hk rfl
    rw [if_pos (List.ne_nil_of_mem hk)]
    exact ⟨_, mem_peerPoints.2 (.inl ⟨k, List.mem_filter.2 ⟨hk, by simpa using hp⟩, rfl⟩), rfl⟩
  refine ⟨?_, ?_, ?_⟩
  · rintro r hr rfl
    rw [hio, tick_eq]
    refine ⟨fun q hq => ?_, fun hmem => ?_⟩
    · exact List.mem_append_left _ (List.mem_flatMap.2 ⟨r, List.mem_filter.2 ⟨hr, by simpa using hp⟩, hq⟩)
    · obtain ⟨r', hr', hid⟩ := mem_foldedTotals.1 hmem
      have hout := (List.mem_filter.1 hr').2
      rw [identity_peer hid] at hout
      simp [hp] at hout
  · rw [hsyn]
    exact hevent
  · rw [hrst]
    exact hevent

theorem foldedInAll (hp : p ∉ t.admitted) : s.FoldedInAll t p := by
  refine ⟨fun q hq hpeer => ?_, ?_⟩
  · obtain ⟨p', hp', hv⟩ := admitted_of_peer hq hpeer
    exact hp (peerValue_injective hv ▸ hp')
  · rintro r hr rfl
    have hfold : r ∈ t.folded := List.mem_filter.2 ⟨hr, by simpa using hp⟩
    rw [pointsOf_emit.1, tick_eq]
    refine ⟨mem_foldedTotals.2 ⟨r, hfold, rfl⟩, fun q hq => List.mem_append_right _ ?_⟩
    rw [if_neg (List.ne_nil_of_mem hfold)]
    exact hq

end Peers

/-- At most `maxPeerCardinality` peers show in a tick. A peer among the first that many distinct
ones, connections before SYN events before RST events, has its own points in every metric; any other
is folded in every metric, and its events are counted in the overflow. The limiter's text key tells
any two peers apart. -/
theorem peers_capped (s : MetricsState) (t : Tick) (hcap : 0 < t.cfg.maxPeerCardinality) :
    (((firsts ((s.emit t).peerPoints.filterMap NumberDataPoint.peer)).length : Int) ≤ t.cfg.maxPeerCardinality) ∧
    (∀ p ∈ t.peers, if p ∈ (firsts t.peers).take t.cfg.maxPeerCardinality.toNat then s.OwnInAll t p
      else s.FoldedInAll t p) ∧
    ((s.tick t).synOverflowCount = s.synOverflowCount + UInt64.ofNat (t.synKeys.filter fun k =>
        k.peer ∉ (firsts t.peers).take t.cfg.maxPeerCardinality.toNat).length ∧
      (s.tick t).rstOverflowCount = s.rstOverflowCount + UInt64.ofNat (t.rstKeys.filter fun k =>
        k.peer ∉ (firsts t.peers).take t.cfg.maxPeerCardinality.toNat).length) ∧
    ∀ (a b : Addr) (m n : UInt16), peerKey (a.string, m) = peerKey (b.string, n) → a = b ∧ m = n := by
  refine ⟨?_, fun p _ => ?_, ?_, fun a b m n h => ?_⟩
  · have hsub : firsts ((s.emit t).peerPoints.filterMap NumberDataPoint.peer) ⊆ t.admitted.map peerValue := by
      intro v hv
      obtain ⟨q, hq, hpeer⟩ := List.mem_filterMap.1 (mem_firsts.1 hv)
      obtain ⟨p, hp, rfl⟩ := admitted_of_peer hq hpeer
      exact List.mem_map.2 ⟨p, hp, rfl⟩
    have hle := List.Nodup.length_le_of_subset (nodup_firsts _) hsub
    rw [List.length_map] at hle
    have hadm : (t.admitted.length : Int) ≤ t.cfg.maxPeerCardinality := Limiter.length_admits hcap t.peers
    omega
  · split
    · exact ownInAll ‹_›
    · exact foldedInAll ‹_›
  · rw [tick_eq]
    exact ⟨rfl, rfl⟩
  · obtain ⟨hab, rfl⟩ := Prod.mk.inj (peerKey_injective h)
    exact ⟨Addr.string_injective hab, rfl⟩

/-- Two peers under a cap of one: the first is shown, the second folded. -/
theorem capOne_folds :
    ({ start := 0 } : MetricsState).OwnInAll (tickOf [rec443 51000, { rec443 51001 with remotePort := 80 }] 1)
      ("1.1.1.1", 443) ∧
    ({ start := 0 } : MetricsState).FoldedInAll (tickOf [rec443 51000, { rec443 51001 with remotePort := 80 }] 1)
      ("1.1.1.1", 80) := by
  have h := (peers_capped { start := 0 } (tickOf [rec443 51000, { rec443 51001 with remotePort := 80 }] 1)
    (by decide)).2.1
  have hown := h ("1.1.1.1", 443) (by decide)
  have hfolded := h ("1.1.1.1", 80) (by decide)
  rw [if_pos (by decide)] at hown
  rw [if_neg (by decide)] at hfolded
  exact ⟨hown, hfolded⟩

end Trafficmon
