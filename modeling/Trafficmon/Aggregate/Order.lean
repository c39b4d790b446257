import Trafficmon.Aggregate.Sweep

/-!
# The order of the two ranges over the flow map

`joinConnections` indexes the flows by their 5-tuple and `joinUnattributedFlows` writes one record
per ICMP or ARP flow; both drop the interface, and where two flows then fall on one key the one that
comes later in the range stays. Any flow can be the later one (`MapOrder.exists_last`), so the join
is a function of its arguments iff flows that fall together agree: `join_order_iff`.
-/

namespace Trafficmon
open GoTime

/-- The flows on one polled connection's 5-tuple hold the same statistics. -/
def SocketFlowsAgree (conns : List Connection) (flows : GoMap FlowKey FlowStats) : Prop :=
  ∀ c ∈ conns, ∀ k st k' st', flows.lookup k = some st → flows.lookup k' = some st' →
    k.SameTuple c → k'.SameTuple c → st = st'

def UnattributedFlowsAgree (flows : GoMap FlowKey FlowStats) : Prop :=
  ∀ k st k' st', flows.lookup k = some st → flows.lookup k' = some st' →
    unattributed k.proto → unattributed k'.proto → unattributedKey k = unattributedKey k' → st = st'

section
variable {prev : Records} {conns : List Connection} {flows : GoMap FlowKey FlowStats} {now : Int}
  {k : FlowKey} {c : Connection} {st : FlowStats}

theorem withStats_injective (r : ConnectionRecord) : Function.Injective r.withStats := by
  intro st st' h
  simp only [ConnectionRecord.withStats, ConnectionRecord.mk.injEq] at h
  cases st
  cases st'
  simp_all

/-- A record's text addresses determine the addresses, so its key determines the 5-tuple. -/
theorem flowKeyFor_eq_of_connKeyFor {c c' : Connection} (h : connKeyFor c' = connKeyFor c) :
    flowKeyFor c' = flowKeyFor c := by
  simp only [connKeyFor, ConnKey.mk.injEq, Addr.string_inj] at h
  obtain ⟨-, hla, hlp, hra, hrp, hproto⟩ := h
  simp only [flowKeyFor, hla, hlp, hra, hrp, hproto]

theorem unattributedRecord_congr {k k' : FlowKey} (h : unattributedKey k = unattributedKey k') (st : FlowStats) :
    unattributedRecord prev now k st = unattributedRecord prev now k' st := by
  have hlp : k.localPort = k'.localPort := congrArg ConnKey.localPort h
  have hrp : k.remotePort = k'.remotePort := congrArg ConnKey.remotePort h
  simp only [unattributedRecord, h, hlp, hrp]

/-! ### Where flows agree, the order does not matter -/

theorem mem_strip {o : MapOrder FlowKey FlowStats} {k : FlowKey} :
    (k, st) ∈ (o.list flows).map (fun e => (e.1.strip, e.2)) ↔ ∃ k', flows.lookup k' = some st ∧ k'.strip = k := by
  simp only [List.mem_map, Prod.mk.injEq]
  constructor
  · rintro ⟨⟨k', st'⟩, hmem, rfl, rfl⟩
    exact ⟨k', MapOrder.mem_list.1 hmem, rfl⟩
  · rintro ⟨k', hk', rfl⟩
    exact ⟨⟨k', st⟩, MapOrder.mem_list.2 hk', rfl, rfl⟩

theorem flowsByAddr_order (h : SocketFlowsAgree conns flows) (o₁ o₁' : MapOrder FlowKey FlowStats) (hc : c ∈ conns) :
    (flowsByAddr (o₁.list flows)).lookup (flowKeyFor c) = (flowsByAddr (o₁'.list flows)).lookup (flowKeyFor c) := by
  rw [lookup_flowsByAddr, lookup_flowsByAddr]
  have hperm := ((o₁.perm flows).trans (o₁'.perm flows).symm).map fun e => (e.1.strip, e.2)
  refine GoMap.lastOf_perm hperm fun st st' hst hst' => ?_
  obtain ⟨k, hk, hs⟩ := mem_strip.1 hst
  obtain ⟨k', hk', hs'⟩ := mem_strip.1 hst'
  exact h c hc k st k' st' hk hk' (sameTuple_iff.2 hs) (sameTuple_iff.2 hs')

theorem connEntries_order (h : SocketFlowsAgree conns flows) (o₁ o₁' : MapOrder FlowKey FlowStats) :
    connEntries prev conns (o₁.list flows) now = connEntries prev conns (o₁'.list flows) now := by
  refine List.map_congr_left fun c hc => ?_
  rw [connRecord, flowsByAddr_order h o₁ o₁' hc, connRecord]

theorem lastOf_unattributed_order (h : UnattributedFlowsAgree flows) (o₂ o₂' : MapOrder FlowKey FlowStats)
    (κ : ConnKey) :
    GoMap.lastOf (unattributedEntries prev (o₂.list flows) now) κ =
      GoMap.lastOf (unattributedEntries prev (o₂'.list flows) now) κ := by
  have hperm := (((o₂.perm flows).trans (o₂'.perm flows).symm).filter fun e => unattributed e.1.proto).map
    fun e => (unattributedKey e.1, unattributedRecord prev now e.1 e.2)
  refine GoMap.lastOf_perm hperm fun r r' hr hr' => ?_
  obtain ⟨⟨k, st⟩, hmem, he⟩ := List.mem_map.1 hr
  obtain ⟨⟨k', st'⟩, hmem', he'⟩ := List.mem_map.1 hr'
  obtain ⟨rfl, rfl⟩ := Prod.mk.inj he
  obtain ⟨hkey, rfl⟩ := Prod.mk.inj he'
  obtain ⟨hk, hu⟩ := List.mem_filter.1 hmem
  obtain ⟨hk', hu'⟩ := List.mem_filter.1 hmem'
  rw [h k st k' st' (MapOrder.mem_list.1 hk) (MapOrder.mem_list.1 hk') hu hu' hkey.symm]
  exact unattributedRecord_congr hkey.symm st'

theorem lookup_join_order (hs : SocketFlowsAgree conns flows) (hu : UnattributedFlowsAgree flows)
    (o₁ o₂ o₁' o₂' : MapOrder FlowKey FlowStats) (κ : ConnKey) :
    (joinRecords prev conns flows o₁ o₂ now).lookup κ = (joinRecords prev conns flows o₁' o₂' now).lookup κ := by
  rw [lookup_join, lookup_join, lastOf_unattributed_order hu o₂ o₂', connEntries_order hs o₁ o₁']

/-! ### Where they do not, either can be made to win -/

theorem exists_order_conn (hk : flows.lookup k = some st) (ht : k.SameTuple c) :
    ∃ o : MapOrder FlowKey FlowStats, (flowsByAddr (o.list flows)).lookup (flowKeyFor c) = some st := by
  obtain ⟨o, l, hl⟩ := MapOrder.exists_last hk
  refine ⟨o, ?_⟩
  rw [lookup_flowsByAddr, hl, List.map_append, List.map_singleton, GoMap.lastOf_concat, if_pos (sameTuple_iff.1 ht)]

theorem exists_order_unattributed (prev : Records) (conns : List Connection) (now : Int)
    (hk : flows.lookup k = some st) (hu : unattributed k.proto) :
    ∃ o : MapOrder FlowKey FlowStats, ∀ o₁, (joinRecords prev conns flows o₁ o now).lookup (unattributedKey k) =
      some (unattributedRecord prev now k st) := by
  obtain ⟨o, l, hl⟩ := MapOrder.exists_last hk
  refine ⟨o, fun o₁ => ?_⟩
  have hlast : GoMap.lastOf (unattributedEntries prev (o.list flows) now) (unattributedKey k) =
      some (unattributedRecord prev now k st) := by
    have hkeep : ([⟨k, st⟩] : List (Σ _ : FlowKey, FlowStats)).filter (fun e => unattributed e.1.proto) = [⟨k, st⟩] :=
      List.filter_eq_self.2 fun e he => by rw [List.mem_singleton.1 he]; exact hu
    rw [unattributedEntries, hl, List.filter_append, hkeep, List.map_append, List.map_singleton,
      GoMap.lastOf_concat, if_pos rfl]
  rw [lookup_join, hlast, Option.some_or]

end

/-- The join yields one set of records whatever the orders of its ranges, iff flows that fall on one
key hold the same statistics. -/
theorem join_order_iff (a : Aggregator) (conns : List Connection) (flows : GoMap FlowKey FlowStats) (now : Int) :
    (∀ o₁ o₂ o₁' o₂' : MapOrder FlowKey FlowStats, ∀ r, r ∈ (a.join conns flows o₁ o₂ now).2.connections ↔
        r ∈ (a.join conns flows o₁' o₂' now).2.connections) ↔
      SocketFlowsAgree conns flows ∧ UnattributedFlowsAgree flows := by
  constructor
  · intro h
    -- a fresh record of one order is, under its own key, the record of every order
    have hsame : ∀ {o₁ o₂ r κ}, (joinRecords a.records conns flows o₁ o₂ now).lookup κ = some r →
        Fresh a.records now κ r → ∀ o₁' o₂', (joinRecords a.records conns flows o₁' o₂' now).lookup κ = some r := by
      intro o₁ o₂ r κ hr hfresh o₁' o₂'
      have hmem := (h o₁ o₂ o₁' o₂' r).1 (mem_sortedRecords.2 ⟨κ, hr⟩)
      rw [← hfresh.key]
      exact lookup_of_mem_join hmem hfresh.vanished
    refine ⟨fun c hc k st k' st' hk hk' ht ht' => ?_, fun k st k' st' hk hk' hu hu' hkey => ?_⟩
    · obtain ⟨c', hc', hkey, hrec⟩ := lookup_join_conn a.records flows now hc
      have hfk := flowKeyFor_eq_of_connKeyFor hkey
      obtain ⟨o, ho⟩ := exists_order_conn hk ht
      obtain ⟨o', ho'⟩ := exists_order_conn hk' ht'
      rw [← hfk] at ho ho'
      have heq := (hrec o' .held).symm.trans (hsame (hrec o .held) (hkey ▸ fresh_connRecord _ c') o' .held)
      rw [connRecord_of_some ho, connRecord_of_some ho'] at heq
      exact (withStats_injective _ (Option.some.inj heq)).symm
    · obtain ⟨o, ho⟩ := exists_order_unattributed a.records conns now hk hu
      obtain ⟨o', ho'⟩ := exists_order_unattributed a.records conns now hk' hu'
      have heq := (hsame (ho .held) (fresh_unattributedRecord k st) .held o').symm.trans
        (hkey ▸ ho' .held)
      rw [unattributedRecord_congr hkey] at heq
      exact withStats_injective _ (Option.some.inj heq)
  · rintro ⟨hs, hu⟩ o₁ o₂ o₁' o₂' r
    show r ∈ sortedRecords _ ↔ r ∈ sortedRecords _
    simp only [mem_sortedRecords]
    refine exists_congr fun κ => ?_
    rw [lookup_join_order hs hu o₁ o₂ o₁' o₂']

/-- In a table the capturer hands out, flows agree only with themselves: their interfaces differ. -/
theorem socketFlowsAgree_snapshot (cap : Capturer) (conns : List Connection) (now : Int) :
    SocketFlowsAgree conns (cap.snapshot now).2 ↔
      ∀ c ∈ conns, ∀ k ∈ cap.flows, ∀ k' ∈ cap.flows, k.SameTuple c → k'.SameTuple c → k = k' := by
  simp only [SocketFlowsAgree, Capturer.lookup_snapshot_stats, Option.map_eq_some_iff]
  constructor
  · intro h c hc k hk k' hk' ht ht'
    obtain ⟨ctr, hctr⟩ := GoMap.mem_iff_lookup.1 hk
    obtain ⟨ctr', hctr'⟩ := GoMap.mem_iff_lookup.1 hk'
    have hst := h c hc k _ k' _ ⟨ctr, hctr, rfl⟩ ⟨ctr', hctr', rfl⟩ ht ht'
    have hiface : k.iface = k'.iface := congrArg FlowStats.iface hst
    have hstrip := (sameTuple_iff.1 ht).trans (sameTuple_iff.1 ht').symm
    cases k
    cases k'
    simp_all [FlowKey.strip]
  · rintro h c hc k st k' st' ⟨ctr, hctr, rfl⟩ ⟨ctr', hctr', rfl⟩ ht ht'
    obtain rfl := h c hc k (GoMap.mem_iff_lookup.2 ⟨ctr, hctr⟩) k' (GoMap.mem_iff_lookup.2 ⟨ctr', hctr'⟩) ht ht'
    obtain rfl := Option.some.inj (hctr.symm.trans hctr')
    rfl

def twoInterfaces : Capturer :=
  (({} : Capturer).record (flow443 "eth0") (1 * second) 100 true).record (flow443 "wlan0") (1 * second) 7 true

/-- Which interface's bytes are reported depends on the range. -/
theorem twoInterfaces_order_matters : ¬ ∀ r,
    r ∈ (({} : Aggregator).join [conn443] (twoInterfaces.snapshot (1 * second)).2 .held .held
      (1 * second)).2.connections ↔
    r ∈ (({} : Aggregator).join [conn443] (twoInterfaces.snapshot (1 * second)).2 .reversed .held
      (1 * second)).2.connections := by
  intro h
  have hbytes := fun n => (List.mem_map (f := ConnectionRecord.bytesInTotal) (b := n)).trans
    ((exists_congr fun r => and_congr_left' (h r)).trans List.mem_map.symm)
  exact absurd ((hbytes 100).1 (by decide)) (by decide)

end Trafficmon
