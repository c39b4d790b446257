import Trafficmon.Capture.LogFeed
import Trafficmon.Dpi.HostnameCache
import Trafficmon.Dpi.Inspector

/-!
# The capturer's flow table (`capture/pcap.go`)

`record` credits a packet to its flow, `evict` drops the flows last seen before a cutoff except
those in a keep set, `snapshot` copies every flow's statistics out. Here each call runs alone;
`Capture.Race` has the locked sections of `record` and `Evict` as separate steps.
-/

namespace Trafficmon

structure FlowStats where
  bytesIn : UInt64
  bytesOut : UInt64
  rateInBps : Float64
  rateOutBps : Float64
  lastSeen : Int
  hostname : String
  iface : String
deriving DecidableEq, Repr

structure PacketStats where
  received : Int
  dropped : Int
  ifDropped : Int
deriving DecidableEq, Repr

def defaultHostnameCacheCapacity : Int := 2048
def defaultHostnameCacheTTL : Int := 600 * GoTime.second

/-- The part of capture's `Config` that packets are handled by. -/
structure InspectConfig where
  inspectors : List Inspector := []
  passiveInspectors : List PassiveInspector := []

structure Capturer where
  cfg : InspectConfig := {}
  flows : GoMap FlowKey ByteCounter := ∅
  hostnameCache : HostnameCache := { capacity := defaultHostnameCacheCapacity, ttl := defaultHostnameCacheTTL }
  synEvents : EventRing SYNEvent := {}
  rstEvents : EventRing RSTEvent := {}
  dnsQueries : EventRing QueryFinding := {}
  dnsErrors : EventRing DNSErrorFinding := {}
  dnsAnswers : EventRing DNSAnswerFinding := {}
  /-- Only if `EnableLogFeed` is set. -/
  logFeed : Option LogFeed := none
  packetStats : GoMap String PacketStats := ∅

/-! ### The two phases of `Evict`

Both are generic in what the table stores, so that the sweep reads the same over counters and over
pointers to counters. -/

section Sweep
variable {α : Type} (lastSeen : α → Int)

/-- The read-locked scan: every key not kept whose flow was last seen before the cutoff. -/
def staleKeys (flows : GoMap FlowKey α) (before : Int) (keep : GoMap FlowKey Unit) : List FlowKey :=
  flows.entries.filterMap fun e =>
    if (keep.lookup e.1).isSome then none
    else if lastSeen e.2 < before then some e.1 else none

/-- The write-locked deletions: each key is checked again. -/
def sweep (before : Int) (stale : List FlowKey) (flows : GoMap FlowKey α) : GoMap FlowKey α × Nat :=
  stale.foldl (fun (flows, n) k =>
    match flows.lookup k with
    | none => (flows, n)
    | some ctr => if lastSeen ctr < before then (flows.erase k, n + 1) else (flows, n)) (flows, 0)

variable {lastSeen} {flows : GoMap FlowKey α} {before : Int} {keep : GoMap FlowKey Unit}

theorem mem_staleKeys {k : FlowKey} : k ∈ staleKeys lastSeen flows before keep ↔
    k ∉ keep ∧ ∃ ctr, flows.lookup k = some ctr ∧ lastSeen ctr < before := by
  simp only [staleKeys, List.mem_filterMap, ← AList.lookup_isSome]
  constructor
  · rintro ⟨⟨k', ctr⟩, he, h⟩
    split at h
    · cases h
    · split at h
      · obtain rfl := Option.some.inj h
        exact ⟨‹_›, ctr, GoMap.mem_entries_iff.1 he, ‹_›⟩
      · cases h
  · rintro ⟨hk, ctr, hc, hlt⟩
    exact ⟨⟨k, ctr⟩, GoMap.mem_entries_iff.2 hc, by simp [hk, hlt]⟩

theorem lookup_sweep (stale : List FlowKey) (flows : GoMap FlowKey α) (k : FlowKey) :
    (sweep lastSeen before stale flows).1.lookup k =
      (flows.lookup k).filter fun ctr => ¬ (k ∈ stale ∧ lastSeen ctr < before) := by
  suffices h : ∀ n, (stale.foldl (fun (x : GoMap FlowKey α × Nat) j =>
      match x.1.lookup j with
      | none => (x.1, x.2)
      | some ctr => if lastSeen ctr < before then (x.1.erase j, x.2 + 1) else (x.1, x.2)) (flows, n)).1.lookup k =
      (flows.lookup k).filter fun ctr => ¬ (k ∈ stale ∧ lastSeen ctr < before) from h 0
  induction stale generalizing flows with
  | nil =>
    intro n
    simp only [List.foldl_nil, List.not_mem_nil, false_and, not_false_eq_true, decide_true]
    generalize flows.lookup k = o
    cases o <;> rfl
  | cons j stale ih =>
    intro n
    simp only [List.foldl_cons]
    cases hj : flows.lookup j with
    | none =>
      rw [ih]
      by_cases hk : k = j
      · subst hk; rw [hj]; rfl
      · simp [hk]
    | some ctr =>
      by_cases hlt : lastSeen ctr < before
      · simp only [hlt, if_true, ih, GoMap.lookup_erase_eq]
        by_cases hk : k = j
        · subst hk; rw [hj]; simp [Option.filter, hlt]
        · simp [hk]
      · simp only [hlt, if_false, ih]
        by_cases hk : k = j
        · subst hk; rw [hj]; simp [Option.filter, hlt]
        · simp [hk]

/-- The two phases in a row: what goes is what is not kept and was last seen before the cutoff. -/
theorem lookup_evicted (k : FlowKey) :
    (sweep lastSeen before (staleKeys lastSeen flows before keep) flows).1.lookup k =
      (flows.lookup k).filter fun ctr => k ∈ keep ∨ ¬ lastSeen ctr < before := by
  rw [lookup_sweep]
  cases hc : flows.lookup k with
  | none => rfl
  | some ctr =>
    have hiff : (k ∈ staleKeys lastSeen flows before keep ∧ lastSeen ctr < before) ↔
        ¬ (k ∈ keep ∨ ¬ lastSeen ctr < before) := by
      simp only [mem_staleKeys, hc, Option.some.injEq, exists_eq_left']
      tauto
    simp only [Option.filter_some, decide_eq_true_eq, hiff, not_not]

end Sweep

namespace Capturer

def record (c : Capturer) (key : FlowKey) (ts : Int) (n : UInt64) (inbound : Bool) : Capturer :=
  { c with flows := c.flows.insert key (((c.flows.lookup key).getD {}).add ts n inbound) }

def evict (c : Capturer) (before : Int) (keep : GoMap FlowKey Unit) : Capturer × Nat :=
  let stale := staleKeys ByteCounter.lastSeen c.flows before keep
  let (flows, n) := sweep ByteCounter.lastSeen before stale c.flows
  ({ c with flows := flows }, n)

def statsOf (now : Int) (k : FlowKey) (ctr : ByteCounter) : FlowStats where
  bytesIn := ctr.totals.1
  bytesOut := ctr.totals.2
  rateInBps := (ctr.rates now).2.1
  rateOutBps := (ctr.rates now).2.2
  lastSeen := ctr.lastSeen
  hostname := ctr.hostname
  iface := k.iface

/-- A copy of every flow's statistics; reading the rates expires the counters' stale buckets. -/
def snapshot (c : Capturer) (now : Int) : Capturer × GoMap FlowKey FlowStats :=
  ({ c with flows := GoMap.mapVal (fun _ ctr => (ctr.rates now).1) c.flows },
    GoMap.mapVal (statsOf now) c.flows)

variable {c : Capturer} {k : FlowKey}

theorem lookup_record (key : FlowKey) (ts : Int) (n : UInt64) (inbound : Bool) :
    (c.record key ts n inbound).flows.lookup k =
      if k = key then some (((c.flows.lookup key).getD {}).add ts n inbound) else c.flows.lookup k :=
  GoMap.lookup_insert_eq _ _ _ _

theorem lookup_evict (before : Int) (keep : GoMap FlowKey Unit) :
    (c.evict before keep).1.flows.lookup k =
      (c.flows.lookup k).filter fun ctr => k ∈ keep ∨ ¬ ctr.lastSeen < before :=
  lookup_evicted k

theorem lookup_snapshot_stats (now : Int) :
    (c.snapshot now).2.lookup k = (c.flows.lookup k).map (statsOf now k) :=
  GoMap.lookup_mapVal _ _ _

theorem lookup_snapshot (now : Int) :
    (c.snapshot now).1.flows.lookup k = (c.flows.lookup k).map (·.advance now) :=
  GoMap.lookup_mapVal _ _ _

end Capturer
end Trafficmon
