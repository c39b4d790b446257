import Mathlib.Data.List.Sort
import Trafficmon.Capture.Pcap
import Trafficmon.Procinfo.Ebpf

/-!
# The join (`aggregate/aggregator.go`)

`Aggregator.join` rebuilds the record map from three sources: the polled connections, each with the
counters of the flow on its 5-tuple; the ICMP and ARP flows, which have no socket; and the previous
records that neither reported, for `gracePeriod`. It ranges over the flow map twice, each time in an
order of Go's choosing, so it takes two `MapOrder`s. `lookup_join` says what it leaves under a key.
-/

namespace Trafficmon
open GoTime

def gracePeriod : Int := 5 * second

def unattributedProcessLabel : String := "(no process)"

structure ConnKey where
  pid : Int32
  localAddr : String
  localPort : UInt16
  remoteAddr : String
  remotePort : UInt16
  proto : String
deriving DecidableEq, Repr

structure ConnectionRecord where
  pid : Int32 := 0
  processName : String
  localAddr : String
  localPort : UInt16
  remoteAddr : String
  remotePort : UInt16
  proto : String
  state : String := ""
  bytesInTotal : UInt64 := 0
  bytesOutTotal : UInt64 := 0
  rateInBps : Float64 := 0
  rateOutBps : Float64 := 0
  lastSeen : Int := 0
  firstSeen : Int
  hostname : String := ""
  iface : String := ""
  lastPolled : Int
  vanished : Bool := false
deriving DecidableEq, Repr

namespace ConnectionRecord

def key (r : ConnectionRecord) : ConnKey :=
  ⟨r.pid, r.localAddr, r.localPort, r.remoteAddr, r.remotePort, r.proto⟩

def less (r o : ConnectionRecord) : Bool :=
  if r.pid ≠ o.pid then r.pid < o.pid
  else if r.remoteAddr ≠ o.remoteAddr then r.remoteAddr < o.remoteAddr
  else if r.remotePort ≠ o.remotePort then r.remotePort < o.remotePort
  else if r.localPort ≠ o.localPort then r.localPort < o.localPort
  else r.proto < o.proto

def withStats (r : ConnectionRecord) (st : FlowStats) : ConnectionRecord :=
  { r with
    bytesInTotal := st.bytesIn
    bytesOutTotal := st.bytesOut
    rateInBps := st.rateInBps
    rateOutBps := st.rateOutBps
    lastSeen := st.lastSeen
    hostname := st.hostname
    iface := st.iface }

end ConnectionRecord

abbrev Records := GoMap ConnKey ConnectionRecord

structure Snapshot where
  takenAt : Int
  connections : List ConnectionRecord
  synEvents : List SYNEvent := []
  rstEvents : List RSTEvent := []
  dnsQueries : List QueryFinding := []
  dnsErrors : List DNSErrorFinding := []
  dnsAnswers : List DNSAnswerFinding := []
  packetStats : GoMap String PacketStats := ∅

/-! ### Keys -/

def protoFromString (s : String) : Proto := if s = "udp" then .udp else .tcp

/-- The flow key a connection's counter is looked up under: it has no interface. -/
def flowKeyFor (c : Connection) : FlowKey :=
  ⟨c.localAddr, c.localPort, c.remoteAddr, c.remotePort, protoFromString c.proto.string, ""⟩

def connKeyFor (c : Connection) : ConnKey :=
  ⟨c.pid, c.localAddr.string, c.localPort, c.remoteAddr.string, c.remotePort, c.proto.string⟩

def openFlowKeys (conns : List Connection) : GoMap FlowKey Unit :=
  GoMap.insertAll ∅ (conns.map fun c => (flowKeyFor c, ()))

def unattributed (p : Proto) : Bool := p = .icmp ∨ p = .arp

def unattributedKey (fk : FlowKey) : ConnKey :=
  ⟨0, fk.localAddr.string, fk.localPort, fk.remoteAddr.string, fk.remotePort, fk.proto.string⟩

/-! ### The three sources -/

def firstSeenOf (prev : Records) (now : Int) (key : ConnKey) : Int :=
  (prev.lookup key).elim now (·.firstSeen)

/-- The flows by 5-tuple: where several interfaces carry one, the last in the range wins. -/
def flowsByAddr (flows : List (Σ _ : FlowKey, FlowStats)) : GoMap FlowKey FlowStats :=
  GoMap.insertAll ∅ (flows.map fun e => (e.1.strip, e.2))

def connRecord (prev : Records) (flows : List (Σ _ : FlowKey, FlowStats)) (now : Int) (c : Connection) :
    ConnectionRecord :=
  let key := connKeyFor c
  let r : ConnectionRecord :=
    { pid := c.pid
      processName := c.processName
      localAddr := key.localAddr
      localPort := c.localPort
      remoteAddr := key.remoteAddr
      remotePort := c.remotePort
      proto := c.proto.string
      state := c.state
      lastPolled := now
      firstSeen := firstSeenOf prev now key }
  match (flowsByAddr flows).lookup (flowKeyFor c) with
  | some st => r.withStats st
  | none => r

def unattributedRecord (prev : Records) (now : Int) (fk : FlowKey) (st : FlowStats) : ConnectionRecord :=
  let key := unattributedKey fk
  ConnectionRecord.withStats
    { processName := unattributedProcessLabel
      localAddr := key.localAddr
      localPort := fk.localPort
      remoteAddr := key.remoteAddr
      remotePort := fk.remotePort
      proto := key.proto
      lastPolled := now
      firstSeen := firstSeenOf prev now key } st

structure Joined where
  records : Records := ∅
  seen : GoMap ConnKey Bool := ∅

/-- `records[key] = rec; seen[key] = true`, for each entry in turn. -/
def Joined.report (j : Joined) (l : List (ConnKey × ConnectionRecord)) : Joined :=
  ⟨GoMap.insertAll j.records l, GoMap.insertAll j.seen (l.map fun e => (e.1, true))⟩

def connEntries (prev : Records) (conns : List Connection) (flows : List (Σ _ : FlowKey, FlowStats)) (now : Int) :
    List (ConnKey × ConnectionRecord) :=
  conns.map fun c => (connKeyFor c, connRecord prev flows now c)

def joinConnections (prev : Records) (conns : List Connection) (flows : List (Σ _ : FlowKey, FlowStats)) (now : Int)
    (j : Joined) : Joined :=
  j.report (connEntries prev conns flows now)

def unattributedEntries (prev : Records) (flows : List (Σ _ : FlowKey, FlowStats)) (now : Int) :
    List (ConnKey × ConnectionRecord) :=
  (flows.filter fun e => unattributed e.1.proto).map fun e => (unattributedKey e.1, unattributedRecord prev now e.1 e.2)

def joinUnattributedFlows (prev : Records) (flows : List (Σ _ : FlowKey, FlowStats)) (now : Int) (j : Joined) :
    Joined :=
  j.report (unattributedEntries prev flows now)

/-- Adds the previous records not seen by this join that are within their grace period. -/
def carryForwardVanished (prev : Records) (now : Int) (j : Joined) : Records :=
  let cutoff := now - gracePeriod
  GoMap.insertAll j.records
    ((prev.entries.filter fun e => ¬ ((j.seen.lookup e.1).getD false = true ∨ e.2.lastPolled < cutoff)).map
      fun e => (e.1, { e.2 with vanished := true }))

def joinRecords (prev : Records) (conns : List Connection) (flows : GoMap FlowKey FlowStats)
    (o₁ o₂ : MapOrder FlowKey FlowStats) (now : Int) : Records :=
  carryForwardVanished prev now
    (joinUnattributedFlows prev (o₂.list flows) now (joinConnections prev conns (o₁.list flows) now {}))

def sortedRecords (records : Records) : List ConnectionRecord :=
  (records.entries.map (·.2)).insertionSort fun a b => ¬ b.less a

structure Aggregator where
  records : Records := ∅

def Aggregator.join (a : Aggregator) (conns : List Connection) (flows : GoMap FlowKey FlowStats)
    (o₁ o₂ : MapOrder FlowKey FlowStats) (now : Int) : Aggregator × Snapshot :=
  let records := joinRecords a.records conns flows o₁ o₂ now
  (⟨records⟩, { takenAt := now, connections := sortedRecords records })

/-- The join of the polled connections with the flow counters, and then the sweep of the counters
behind whatever can no longer be on screen. -/
def Aggregator.refresh (a : Aggregator) (cap : Capturer) (conns : List Connection)
    (o₁ o₂ : MapOrder FlowKey FlowStats) (now : Int) : Aggregator × Capturer × Snapshot :=
  let (cap, flows) := cap.snapshot now
  let (a, snap) := a.join conns flows o₁ o₂ now
  let (syn, synEvents) := cap.synEvents.drain
  let (rst, rstEvents) := cap.rstEvents.drain
  let (queries, dnsQueries) := cap.dnsQueries.drain
  let (errs, dnsErrors) := cap.dnsErrors.drain
  let (answers, dnsAnswers) := cap.dnsAnswers.drain
  let snap := { snap with
    synEvents := synEvents, rstEvents := rstEvents, dnsQueries := dnsQueries, dnsErrors := dnsErrors,
    dnsAnswers := dnsAnswers, packetStats := cap.packetStats }
  let cap := { cap with
    synEvents := syn, rstEvents := rst, dnsQueries := queries, dnsErrors := errs, dnsAnswers := answers }
  (a, (cap.evict (now - gracePeriod) (openFlowKeys conns)).1, snap)

/-! ### What the join leaves under a key -/

section Lookup
variable {prev : Records} {conns : List Connection} {flows : GoMap FlowKey FlowStats}
  {o₁ o₂ : MapOrder FlowKey FlowStats} {now : Int} {κ : ConnKey}

/-- This join reports `κ`: it is polled, or it is the key of an ICMP or ARP flow. -/
def Reported (conns : List Connection) (flows : GoMap FlowKey FlowStats) (κ : ConnKey) : Prop :=
  (∃ c ∈ conns, connKeyFor c = κ) ∨
    ∃ fk st, flows.lookup fk = some st ∧ unattributed fk.proto ∧ unattributedKey fk = κ

def carried (prev : Records) (now : Int) (κ : ConnKey) : Option ConnectionRecord :=
  ((prev.lookup κ).filter fun r => ¬ r.lastPolled < now - gracePeriod).map fun r => { r with vanished := true }

theorem Joined.seen_report (j : Joined) (l : List (ConnKey × ConnectionRecord)) :
    ((j.report l).seen.lookup κ).getD false = true ↔
      (j.seen.lookup κ).getD false = true ∨ ∃ e ∈ l, e.1 = κ := by
  rw [Joined.report, GoMap.lookup_insertAll]
  cases h : GoMap.lastOf (l.map fun e => (e.1, true)) κ with
  | none =>
    have hne := GoMap.lastOf_eq_none.1 h
    simp only [List.mem_map, forall_exists_index, and_imp, forall_apply_eq_imp_iff₂] at hne
    simp only [Option.none_or]
    exact ⟨.inl, fun h => h.resolve_right fun ⟨e, he, hk⟩ => hne e he hk⟩
  | some b =>
    obtain ⟨e, he, hb⟩ := List.mem_map.1 (GoMap.mem_of_lastOf h)
    obtain ⟨rfl, rfl⟩ := Prod.mk.inj hb
    simpa using .inr ⟨_, he⟩

theorem exists_connEntries {fl : List (Σ _ : FlowKey, FlowStats)} :
    (∃ e ∈ connEntries prev conns fl now, e.1 = κ) ↔ ∃ c ∈ conns, connKeyFor c = κ := by
  simp [connEntries]

theorem exists_unattributedEntries :
    (∃ e ∈ unattributedEntries prev (o₂.list flows) now, e.1 = κ) ↔
      ∃ fk st, flows.lookup fk = some st ∧ unattributed fk.proto ∧ unattributedKey fk = κ := by
  simp only [unattributedEntries, List.mem_map, List.mem_filter, exists_exists_and_eq_and]
  constructor
  · rintro ⟨⟨fk, st⟩, ⟨hmem, hu⟩, hk⟩
    exact ⟨fk, st, MapOrder.mem_list.1 hmem, hu, hk⟩
  · rintro ⟨fk, st, hf, hu, hk⟩
    exact ⟨⟨fk, st⟩, ⟨MapOrder.mem_list.2 hf, hu⟩, hk⟩

theorem seen_iff : ((joinUnattributedFlows prev (o₂.list flows) now
      (joinConnections prev conns (o₁.list flows) now {})).seen.lookup κ).getD false = true ↔
    Reported conns flows κ := by
  rw [joinUnattributedFlows, Joined.seen_report, joinConnections, Joined.seen_report, exists_connEntries,
    exists_unattributedEntries]
  simp [Reported]

theorem lastOf_carried (j : Joined) :
    GoMap.lastOf ((prev.entries.filter fun e =>
        ¬ ((j.seen.lookup e.1).getD false = true ∨ e.2.lastPolled < now - gracePeriod)).map
      fun e => (e.1, { e.2 with vanished := true })) κ =
      if (j.seen.lookup κ).getD false = true then none else carried prev now κ := by
  refine GoMap.lastOf_eq fun r => ?_
  simp only [List.mem_map, List.mem_filter, Prod.mk.injEq, decide_eq_true_eq]
  constructor
  · rintro ⟨⟨κ', r'⟩, ⟨hmem, hcond⟩, rfl, rfl⟩
    obtain ⟨hseen, hlp⟩ := not_or.1 hcond
    rw [if_neg hseen, carried, GoMap.mem_entries_iff.1 hmem]
    simp [Option.filter, hlp]
  · intro h
    split at h
    · cases h
    · rename_i hseen
      obtain ⟨r', hr', rfl⟩ := Option.map_eq_some_iff.1 h
      obtain ⟨hl, hlp⟩ := Option.filter_eq_some_iff.1 hr'
      exact ⟨⟨κ, r'⟩, ⟨GoMap.mem_entries_iff.2 hl, not_or.2 ⟨hseen, by simpa using hlp⟩⟩, rfl, rfl⟩

theorem lastOf_unattributed_of_not_reported (h : ¬ Reported conns flows κ) :
    GoMap.lastOf (unattributedEntries prev (o₂.list flows) now) κ = none :=
  GoMap.lastOf_eq_none.2 fun e he hk => h (.inr (exists_unattributedEntries.1 ⟨e, he, hk⟩))

theorem lastOf_conn_of_not_reported {fl : List (Σ _ : FlowKey, FlowStats)} (h : ¬ Reported conns flows κ) :
    GoMap.lastOf (connEntries prev conns fl now) κ = none :=
  GoMap.lastOf_eq_none.2 fun e he hk => h (.inl (exists_connEntries.1 ⟨e, he, hk⟩))

/-- An unattributed flow's record, else the polled connection's, else what is carried forward. -/
theorem lookup_join (prev : Records) (conns : List Connection) (flows : GoMap FlowKey FlowStats)
    (o₁ o₂ : MapOrder FlowKey FlowStats) (now : Int) (κ : ConnKey) :
    (joinRecords prev conns flows o₁ o₂ now).lookup κ =
      (GoMap.lastOf (unattributedEntries prev (o₂.list flows) now) κ).or
        ((GoMap.lastOf (connEntries prev conns (o₁.list flows) now) κ).or (carried prev now κ)) := by
  have hrec : (joinUnattributedFlows prev (o₂.list flows) now
      (joinConnections prev conns (o₁.list flows) now {})).records.lookup κ =
      (GoMap.lastOf (unattributedEntries prev (o₂.list flows) now) κ).or
        (GoMap.lastOf (connEntries prev conns (o₁.list flows) now) κ) := by
    simp [joinUnattributedFlows, joinConnections, Joined.report, GoMap.lookup_insertAll]
  rw [joinRecords, carryForwardVanished, GoMap.lookup_insertAll, lastOf_carried, hrec]
  by_cases hr : Reported conns flows κ
  · -- a reported key has an entry, so nothing is carried forward under it
    rw [if_pos (seen_iff.2 hr), Option.none_or]
    rcases hr with hr | hr
    · obtain ⟨e, he, rfl⟩ : ∃ e ∈ connEntries prev conns (o₁.list flows) now, e.1 = κ := exists_connEntries.2 hr
      obtain ⟨r, hlast⟩ := GoMap.exists_lastOf he
      rw [hlast, Option.some_or]
    · obtain ⟨e, he, rfl⟩ : ∃ e ∈ unattributedEntries prev (o₂.list flows) now, e.1 = κ :=
        exists_unattributedEntries.2 hr
      obtain ⟨r, hlast⟩ := GoMap.exists_lastOf he
      rw [hlast, Option.some_or, Option.some_or]
  · rw [if_neg fun h => hr (seen_iff.1 h), lastOf_unattributed_of_not_reported hr,
      lastOf_conn_of_not_reported hr]
    simp

theorem join_of_not_reported (h : ¬ Reported conns flows κ) :
    (joinRecords prev conns flows o₁ o₂ now).lookup κ = carried prev now κ := by
  rw [lookup_join, lastOf_unattributed_of_not_reported h, lastOf_conn_of_not_reported h, Option.none_or,
    Option.none_or]

structure Fresh (prev : Records) (now : Int) (κ : ConnKey) (r : ConnectionRecord) : Prop where
  key : r.key = κ
  vanished : r.vanished = false
  lastPolled : r.lastPolled = now
  firstSeen : r.firstSeen = firstSeenOf prev now κ

theorem fresh_connRecord (fl : List (Σ _ : FlowKey, FlowStats)) (c : Connection) :
    Fresh prev now (connKeyFor c) (connRecord prev fl now c) := by
  unfold connRecord
  dsimp only
  split <;> exact ⟨rfl, rfl, rfl, rfl⟩

theorem fresh_unattributedRecord (fk : FlowKey) (st : FlowStats) :
    Fresh prev now (unattributedKey fk) (unattributedRecord prev now fk st) :=
  ⟨rfl, rfl, rfl, rfl⟩

theorem join_of_reported (h : Reported conns flows κ) :
    ∃ r, (joinRecords prev conns flows o₁ o₂ now).lookup κ = some r ∧ Fresh prev now κ r := by
  rw [lookup_join]
  cases hu : GoMap.lastOf (unattributedEntries prev (o₂.list flows) now) κ with
  | some r =>
    obtain ⟨⟨fk, st⟩, -, he⟩ := List.mem_map.1 (GoMap.mem_of_lastOf hu)
    obtain ⟨rfl, rfl⟩ := Prod.mk.inj he
    exact ⟨_, Option.some_or, fresh_unattributedRecord fk st⟩
  | none =>
    have hpolled : ∃ c ∈ conns, connKeyFor c = κ := h.resolve_right fun h => by
      obtain ⟨e, he, hk⟩ := exists_unattributedEntries.2 h
      exact GoMap.lastOf_eq_none.1 hu e he hk
    obtain ⟨e, he, rfl⟩ : ∃ e ∈ connEntries prev conns (o₁.list flows) now, e.1 = κ :=
      exists_connEntries.2 hpolled
    obtain ⟨r, hlast⟩ := GoMap.exists_lastOf he
    obtain ⟨c, -, hc⟩ := List.mem_map.1 (GoMap.mem_of_lastOf hlast)
    obtain ⟨hkey, rfl⟩ := Prod.mk.inj hc
    rw [hlast, Option.none_or, Option.some_or]
    exact ⟨_, rfl, hkey ▸ fresh_connRecord _ c⟩

theorem mem_sortedRecords {m : Records} {r : ConnectionRecord} : r ∈ sortedRecords m ↔ ∃ κ, m.lookup κ = some r := by
  rw [sortedRecords, List.mem_insertionSort, List.mem_map]
  constructor
  · rintro ⟨⟨κ, r'⟩, hmem, rfl⟩
    exact ⟨κ, GoMap.mem_entries_iff.1 hmem⟩
  · rintro ⟨κ, h⟩
    exact ⟨⟨κ, r⟩, GoMap.mem_entries_iff.2 h, rfl⟩

def KeysOk (m : Records) : Prop := ∀ κ r, m.lookup κ = some r → r.key = κ

theorem keysOk_empty : KeysOk ∅ := by
  intro κ r h
  simp at h

theorem KeysOk.join (h : KeysOk prev) : KeysOk (joinRecords prev conns flows o₁ o₂ now) := by
  intro κ r hr
  by_cases hrep : Reported conns flows κ
  · obtain ⟨r', hr', hfresh⟩ := join_of_reported hrep
    rw [hr'] at hr
    rw [← Option.some.inj hr]
    exact hfresh.key
  · rw [join_of_not_reported hrep] at hr
    obtain ⟨r', hr', rfl⟩ := Option.map_eq_some_iff.1 hr
    exact h κ r' (Option.filter_eq_some_iff.1 hr').1

/-- A record that is not vanished was reported by this join, under its own key. -/
theorem lookup_of_mem_join {r : ConnectionRecord} (h : r ∈ sortedRecords (joinRecords prev conns flows o₁ o₂ now))
    (hv : r.vanished = false) : (joinRecords prev conns flows o₁ o₂ now).lookup r.key = some r := by
  obtain ⟨κ, hκ⟩ := mem_sortedRecords.1 h
  by_cases hrep : Reported conns flows κ
  · obtain ⟨r', hr', hfresh⟩ := join_of_reported hrep
    obtain rfl := Option.some.inj (hr'.symm.trans hκ)
    rw [hfresh.key]
    exact hκ
  · rw [join_of_not_reported hrep] at hκ
    obtain ⟨r', -, rfl⟩ := Option.map_eq_some_iff.1 hκ
    cases hv

/-! ### The record under a polled key, and under an unattributed one -/

theorem unattributedKey_ne_connKeyFor {fk : FlowKey} {c : Connection} (hu : unattributed fk.proto) :
    unattributedKey fk ≠ connKeyFor c := by
  intro h
  have hproto : fk.proto.string = c.proto.string := congrArg ConnKey.proto h
  revert hu hproto
  generalize fk.proto = p
  generalize c.proto = q
  cases p <;> cases q <;> decide

/-- Of several connections polled under one key, the record of the last stays. -/
theorem lookup_join_last (prev : Records) (flows : GoMap FlowKey FlowStats) (now : Int) {c c' : Connection}
    (h : GoMap.lastOf (conns.map fun c => (connKeyFor c, c)) (connKeyFor c) = some c')
    (o₁ o₂ : MapOrder FlowKey FlowStats) :
    (joinRecords prev conns flows o₁ o₂ now).lookup (connKeyFor c) = some (connRecord prev (o₁.list flows) now c') := by
  have hnone : GoMap.lastOf (unattributedEntries prev (o₂.list flows) now) (connKeyFor c) = none := by
    refine GoMap.lastOf_eq_none.2 fun e he hk => ?_
    obtain ⟨fk, st, -, hu, hk'⟩ := exists_unattributedEntries.1 ⟨e, he, hk⟩
    exact unattributedKey_ne_connKeyFor hu hk'
  rw [lookup_join, hnone, Option.none_or, connEntries, GoMap.lastOf_map, h]
  rfl

theorem lookup_join_conn (prev : Records) (flows : GoMap FlowKey FlowStats) (now : Int) {c : Connection}
    (hc : c ∈ conns) :
    ∃ c' ∈ conns, connKeyFor c' = connKeyFor c ∧ ∀ o₁ o₂,
      (joinRecords prev conns flows o₁ o₂ now).lookup (connKeyFor c) =
        some (connRecord prev (o₁.list flows) now c') := by
  have hmem : (connKeyFor c, c) ∈ conns.map fun c => (connKeyFor c, c) := List.mem_map.2 ⟨c, hc, rfl⟩
  obtain ⟨c', hc'⟩ := GoMap.exists_lastOf hmem
  obtain ⟨c'', hmem', he⟩ := List.mem_map.1 (GoMap.mem_of_lastOf hc')
  obtain ⟨hkey, rfl⟩ := Prod.mk.inj he
  exact ⟨c'', hmem', hkey, lookup_join_last prev flows now hc'⟩

theorem connRecord_of_none {fl : List (Σ _ : FlowKey, FlowStats)} {c : Connection}
    (h : (flowsByAddr fl).lookup (flowKeyFor c) = none) : connRecord prev fl now c = connRecord prev [] now c := by
  unfold connRecord
  rw [h]
  rfl

theorem connRecord_of_some {fl : List (Σ _ : FlowKey, FlowStats)} {c : Connection} {st : FlowStats}
    (h : (flowsByAddr fl).lookup (flowKeyFor c) = some st) :
    connRecord prev fl now c = (connRecord prev [] now c).withStats st := by
  unfold connRecord
  rw [h]
  rfl

theorem lookup_flowsByAddr (fl : List (Σ _ : FlowKey, FlowStats)) (k : FlowKey) :
    (flowsByAddr fl).lookup k = GoMap.lastOf (fl.map fun e => (e.1.strip, e.2)) k := by
  rw [flowsByAddr, GoMap.lookup_insertAll]
  simp

end Lookup

def conn443 : Connection := ⟨42, "curl", .ipv4 10 0 0 1, 51000, .ipv4 1 1 1 1, 443, .tcp, "ESTABLISHED"⟩

end Trafficmon
