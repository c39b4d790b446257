import Trafficmon.Aggregate.Join

/-!
# What a refresh removes from the flow table

`Aggregator.Refresh` ends with `Evict`, sparing the flows of the connections it was just given. The
keep set is built by `flowKeyFor`, whose keys have no interface, while the table's keys carry the
interface the packets were captured on: `k ∈ openFlowKeys conns` needs `k.iface = ""`
(`mem_openFlowKeys`). So an open connection's flow is spared only while it is not idle.
-/

namespace Trafficmon
open GoTime

def FlowKey.SameTuple (k : FlowKey) (c : Connection) : Prop :=
  k.localAddr = c.localAddr ∧ k.localPort = c.localPort ∧ k.remoteAddr = c.remoteAddr ∧
    k.remotePort = c.remotePort ∧ k.proto.string = c.proto.string

instance (k : FlowKey) (c : Connection) : Decidable (k.SameTuple c) :=
  inferInstanceAs (Decidable (_ ∧ _))

theorem proto_string_iff (p : Proto) (q : SockProto) : p.string = q.string ↔ p = protoFromString q.string := by
  cases p <;> cases q <;> decide

theorem sameTuple_iff {k : FlowKey} {c : Connection} : k.SameTuple c ↔ k.strip = flowKeyFor c := by
  simp only [FlowKey.SameTuple, FlowKey.strip, flowKeyFor, FlowKey.mk.injEq, proto_string_iff, and_true]

theorem mem_openFlowKeys {conns : List Connection} {k : FlowKey} :
    k ∈ openFlowKeys conns ↔ k.iface = "" ∧ ∃ c ∈ conns, k.SameTuple c := by
  have hmem : k ∈ openFlowKeys conns ↔ ∃ c ∈ conns, flowKeyFor c = k := by
    rw [openFlowKeys, GoMap.mem_iff_lookup]
    simp only [GoMap.lookup_insertAll, AList.lookup_empty, Option.or_none]
    constructor
    · rintro ⟨_, h⟩
      obtain ⟨c, hc, he⟩ := List.mem_map.1 (GoMap.mem_of_lastOf h)
      exact ⟨c, hc, congrArg Prod.fst he⟩
    · rintro ⟨c, hc, rfl⟩
      exact GoMap.exists_lastOf (e := (flowKeyFor c, ())) (List.mem_map.2 ⟨c, hc, rfl⟩)
  rw [hmem]
  constructor
  · rintro ⟨c, hc, rfl⟩
    exact ⟨rfl, c, hc, sameTuple_iff.2 rfl⟩
  · rintro ⟨hi, c, hc, ht⟩
    refine ⟨c, hc, (sameTuple_iff.1 ht).symm.trans ?_⟩
    cases k
    subst hi
    rfl

section Refresh
variable {a : Aggregator} {cap : Capturer} {conns : List Connection} {o₁ o₂ : MapOrder FlowKey FlowStats} {now : Int}

theorem lookup_refresh_flows (k : FlowKey) : (a.refresh cap conns o₁ o₂ now).2.1.flows.lookup k =
    ((cap.flows.lookup k).map (·.advance now)).filter
      fun ctr => k ∈ openFlowKeys conns ∨ ¬ ctr.lastSeen < now - gracePeriod := by
  show (Capturer.evict _ _ _).1.flows.lookup k = _
  rw [Capturer.lookup_evict]
  exact congrArg (Option.filter _) (Capturer.lookup_snapshot now)

theorem mem_refresh_flows {k : FlowKey} {ctr : ByteCounter} (h : cap.flows.lookup k = some ctr) :
    k ∈ (a.refresh cap conns o₁ o₂ now).2.1.flows ↔
      k ∈ openFlowKeys conns ∨ now - gracePeriod ≤ ctr.lastSeen := by
  rw [← AList.lookup_isSome, lookup_refresh_flows, h]
  simp [Option.isSome_filter]

/-- A refresh spares the flows of every polled connection, and removes every other flow exactly when
it was last seen before the cutoff, iff no flow of a polled connection that carries an interface has
been idle for longer than the grace period. -/
theorem refresh_spares_open_iff (a : Aggregator) (cap : Capturer) (conns : List Connection)
    (o₁ o₂ : MapOrder FlowKey FlowStats) (now : Int) :
    ((∀ k, k ∈ cap.flows → (∃ c ∈ conns, k.SameTuple c) → k ∈ (a.refresh cap conns o₁ o₂ now).2.1.flows) ∧
      ∀ k ctr, cap.flows.lookup k = some ctr → (¬ ∃ c ∈ conns, k.SameTuple c) →
        (k ∉ (a.refresh cap conns o₁ o₂ now).2.1.flows ↔ ctr.lastSeen < now - gracePeriod)) ↔
    ∀ k ctr, cap.flows.lookup k = some ctr → (∃ c ∈ conns, k.SameTuple c) → k.iface ≠ "" →
      now - gracePeriod ≤ ctr.lastSeen := by
  constructor
  · rintro ⟨hspare, -⟩ k ctr hk hopen hiface
    have hmem := (mem_refresh_flows hk).1 (hspare k (GoMap.mem_iff_lookup.2 ⟨ctr, hk⟩) hopen)
    exact hmem.resolve_left fun h => hiface (mem_openFlowKeys.1 h).1
  · refine fun hfresh => ⟨fun k hmem hopen => ?_, fun k ctr hk hclosed => ?_⟩
    · obtain ⟨ctr, hk⟩ := GoMap.mem_iff_lookup.1 hmem
      rw [mem_refresh_flows hk]
      by_cases hi : k.iface = ""
      · exact .inl (mem_openFlowKeys.2 ⟨hi, hopen⟩)
      · exact .inr (hfresh k ctr hk hopen hi)
    · rw [mem_refresh_flows hk, or_iff_right fun h => hclosed (mem_openFlowKeys.1 h).2, not_le]

end Refresh

/-- One packet at second 1; at second 10 the connection is still polled, and its flow is removed. -/
theorem idle_open_flow_removed :
    flow443 "eth0" ∈ (({} : Capturer).record (flow443 "eth0") (1 * second) 100 true).flows ∧
    (flow443 "eth0").SameTuple conn443 ∧
    flow443 "eth0" ∉ (({} : Aggregator).refresh (({} : Capturer).record (flow443 "eth0") (1 * second) 100 true)
      [conn443] .held .held (10 * second)).2.1.flows := by
  decide

end Trafficmon
