import Mathlib.Data.List.Chain
import Trafficmon.Aggregate.Order
import Trafficmon.Lib.Run
import Trafficmon.Receiver.Translate

/-!
# Totals from one snapshot to the next

A run is made of captured packets (`Capturer.record`) and refreshes. A connection's total is read
from a counter that lives in the flow table, and it can go back in two ways: the counter behind a
retained record is evicted and the connection is reported again, or several interfaces carry the
connection and the range ends on another one than last time. `World.lost` is ghost state for the
first; `Steady` excludes both. `Backed` is the invariant: behind every retained record whose counter
was not evicted the table still holds a counter with at least the record's totals.
-/

namespace Trafficmon
open GoTime Run

def FlowKey.connKey (k : FlowKey) (pid : Int32) : ConnKey :=
  ⟨pid, k.localAddr.string, k.localPort, k.remoteAddr.string, k.remotePort, k.proto.string⟩

def FlowKey.Backs (k : FlowKey) (κ : ConnKey) : Prop := k.connKey κ.pid = κ

structure World where
  agg : Aggregator := {}
  cap : Capturer := {}
  /-- What the refreshes returned, latest first. -/
  shown : List Snapshot := []
  /-- A flow of this connection was evicted after the connection was last reported. -/
  lost : ConnKey → Prop := fun _ => False

inductive Step
  | record (key : FlowKey) (ts : Int) (n : UInt64) (inbound : Bool)
  | refresh (conns : List Connection) (o₁ o₂ : MapOrder FlowKey FlowStats) (now : Int)

namespace World

def step (w : World) : Step → World
  | .record key ts n inbound => { w with cap := w.cap.record key ts n inbound }
  | .refresh conns o₁ o₂ now =>
    let (agg, cap, snap) := w.agg.refresh w.cap conns o₁ o₂ now
    { agg := agg
      cap := cap
      shown := snap :: w.shown
      lost := fun κ => (¬ Reported conns (w.cap.snapshot now).2 κ ∧ w.lost κ) ∨
        ∃ k ∈ w.cap.flows, k ∉ cap.flows ∧ k.Backs κ }

/-- Packets do not take a counter past `2 ^ 64`; and where a refresh reports a connection that the
last snapshot has too, none of its flows was evicted since it was last reported, and at most one
interface carries it. -/
def Steady (w : World) : Step → Prop
  | .record key _ n inbound =>
    let ctr := (w.cap.flows.lookup key).getD {}
    (if inbound then ctr.bytesIn else ctr.bytesOut).toNat + n.toNat < 2 ^ 64
  | .refresh conns _ _ now => ∀ κ ∈ w.agg.records, Reported conns (w.cap.snapshot now).2 κ →
    ¬ w.lost κ ∧ ∀ k ∈ w.cap.flows, ∀ k' ∈ w.cap.flows, k.Backs κ → k'.Backs κ → k = k'

end World

/-- From `s` to `s'` no total of a connection in both goes back, nor (as long as totals fit an
`int64`) does a `network.io` series. -/
def Snapshot.Grows (s s' : Snapshot) : Prop :=
  ∀ r ∈ s.connections, ∀ r' ∈ s'.connections, r.key = r'.key → r.firstSeen = r'.firstSeen →
    r.bytesInTotal ≤ r'.bytesInTotal ∧ r.bytesOutTotal ≤ r'.bytesOutTotal ∧
    (r'.bytesInTotal.toNat < 2 ^ 63 → r'.bytesOutTotal.toNat < 2 ^ 63 →
      List.Forall₂ NumberDataPoint.Follows (addIODataPoint [] r s.takenAt) (addIODataPoint [] r' s'.takenAt))

def World.Cumulative (w : World) : Prop := w.shown.IsChain fun s' s => s.Grows s'

/-! ### What a join reads for a reported key -/

section Reads
variable {prev : Records} {conns : List Connection} {flows : GoMap FlowKey FlowStats}
  {o₁ o₂ : MapOrder FlowKey FlowStats} {now : Int} {κ : ConnKey} {k : FlowKey} {c : Connection}

theorem backs_connKeyFor : k.Backs (connKeyFor c) ↔ k.SameTuple c := by
  simp only [FlowKey.Backs, FlowKey.connKey, connKeyFor, ConnKey.mk.injEq, Addr.string_inj, true_and,
    FlowKey.SameTuple]

/-- `r` has the totals of a flow that carries `κ`, or zero where no flow does. -/
def Reads (flows : GoMap FlowKey FlowStats) (κ : ConnKey) (r : ConnectionRecord) : Prop :=
  (∃ k st, flows.lookup k = some st ∧ k.Backs κ ∧ r.bytesInTotal = st.bytesIn ∧ r.bytesOutTotal = st.bytesOut) ∨
    ((∀ k ∈ flows, ¬ k.Backs κ) ∧ r.bytesInTotal = 0 ∧ r.bytesOutTotal = 0)

theorem reads_connRecord : Reads flows (connKeyFor c) (connRecord prev (o₁.list flows) now c) := by
  cases hst : (flowsByAddr (o₁.list flows)).lookup (flowKeyFor c) with
  | some st =>
    rw [connRecord_of_some hst]
    rw [lookup_flowsByAddr] at hst
    obtain ⟨k, hk, hs⟩ := mem_strip.1 (GoMap.mem_of_lastOf hst)
    exact .inl ⟨k, st, hk, backs_connKeyFor.2 (sameTuple_iff.2 hs), rfl, rfl⟩
  | none =>
    rw [connRecord_of_none hst]
    rw [lookup_flowsByAddr] at hst
    refine .inr ⟨fun k hk hb => ?_, rfl, rfl⟩
    obtain ⟨st, hst'⟩ := GoMap.mem_iff_lookup.1 hk
    have hstrip := sameTuple_iff.1 (backs_connKeyFor.1 hb)
    exact GoMap.lastOf_eq_none.1 hst _ (mem_strip.2 ⟨k, hst', hstrip⟩) rfl

theorem join_reads (h : Reported conns flows κ) :
    ∃ r, (joinRecords prev conns flows o₁ o₂ now).lookup κ = some r ∧ Reads flows κ r := by
  rcases h with ⟨c, hc, rfl⟩ | hu
  · obtain ⟨c', hc', hkey, hrec⟩ := lookup_join_conn prev flows now hc
    refine ⟨_, hrec o₁ o₂, ?_⟩
    rw [← hkey]
    exact reads_connRecord
  · obtain ⟨e, he, rfl⟩ : ∃ e ∈ unattributedEntries prev (o₂.list flows) now, e.1 = κ :=
      exists_unattributedEntries.2 hu
    obtain ⟨r, hlast⟩ := GoMap.exists_lastOf he
    refine ⟨r, by rw [lookup_join, hlast, Option.some_or], .inl ?_⟩
    obtain ⟨⟨k, st⟩, hmem, hr⟩ := List.mem_map.1 (GoMap.mem_of_lastOf hlast)
    obtain ⟨hkey, rfl⟩ := Prod.mk.inj hr
    refine ⟨k, st, MapOrder.mem_list.1 (List.mem_filter.1 hmem).1, ?_, rfl, rfl⟩
    rw [← hkey]
    rfl

end Reads

/-! ### The invariant -/

namespace World

def Behind (flows : GoMap FlowKey ByteCounter) (κ : ConnKey) (r : ConnectionRecord) : Prop :=
  ∃ k ctr, flows.lookup k = some ctr ∧ k.Backs κ ∧ r.bytesInTotal ≤ ctr.bytesIn ∧ r.bytesOutTotal ≤ ctr.bytesOut

structure Backed (w : World) : Prop where
  keys : KeysOk w.agg.records
  shown : ∀ s ∈ w.shown.head?, s.connections = sortedRecords w.agg.records
  behind : ∀ κ r, w.agg.records.lookup κ = some r → ¬ w.lost κ →
    (r.bytesInTotal = 0 ∧ r.bytesOutTotal = 0) ∨ Behind w.cap.flows κ r

variable {w : World} {key k : FlowKey} {ts now : Int} {n : UInt64} {inbound : Bool} {conns : List Connection}
  {o₁ o₂ : MapOrder FlowKey FlowStats} {κ : ConnKey} {r : ConnectionRecord}

theorem le_add_of_no_overflow {a b n : UInt64} (h : a ≤ b) (hb : b.toNat + n.toNat < 2 ^ 64) : a ≤ b + n := by
  rw [UInt64.le_iff_toNat_le] at *
  rw [UInt64.toNat_add, Nat.mod_eq_of_lt hb]
  omega

theorem Behind.record (h : Behind w.cap.flows κ r) (hs : w.Steady (.record key ts n inbound)) :
    Behind (w.cap.record key ts n inbound).flows κ r := by
  obtain ⟨k, ctr, hk, hb, hin, hout⟩ := h
  by_cases hkey : k = key
  · subst hkey
    have hctr : (w.cap.record k ts n inbound).flows.lookup k = some (ctr.add ts n inbound) := by
      rw [Capturer.lookup_record, if_pos rfl, hk, Option.getD_some]
    simp only [Steady, hk, Option.getD_some] at hs
    refine ⟨k, _, hctr, hb, ?_, ?_⟩
    · cases inbound with
      | true => simpa using le_add_of_no_overflow hin hs
      | false => simpa using hin
    · cases inbound with
      | true => simpa using hout
      | false => simpa using le_add_of_no_overflow hout hs
  · refine ⟨k, ctr, ?_, hb, hin, hout⟩
    rw [Capturer.lookup_record, if_neg hkey]
    exact hk

theorem Backed.record (h : w.Backed) (hs : w.Steady (.record key ts n inbound)) :
    (w.step (.record key ts n inbound)).Backed where
  keys := h.keys
  shown := h.shown
  behind κ r hr hl := by
    rcases h.behind κ r hr hl with hz | hb
    · exact .inl hz
    · exact .inr (hb.record hs)

theorem Behind.refresh (h : Behind w.cap.flows κ r) (hl : ¬ (w.step (.refresh conns o₁ o₂ now)).lost κ) :
    Behind (w.step (.refresh conns o₁ o₂ now)).cap.flows κ r := by
  obtain ⟨k, ctr, hk, hb, hin, hout⟩ := h
  have hmem : k ∈ (w.step (.refresh conns o₁ o₂ now)).cap.flows := by
    by_contra hgone
    exact hl (.inr ⟨k, GoMap.mem_iff_lookup.2 ⟨ctr, hk⟩, hgone, hb⟩)
  obtain ⟨ctr', hctr'⟩ := GoMap.mem_iff_lookup.1 hmem
  have hadv : ctr.advance now = ctr' := by
    have hlook : (w.agg.refresh w.cap conns o₁ o₂ now).2.1.flows.lookup k = some ctr' := hctr'
    rw [lookup_refresh_flows, hk, Option.map_some] at hlook
    exact Option.some.inj (Option.filter_eq_some_iff.1 hlook).1
  refine ⟨k, ctr', hctr', hb, ?_, ?_⟩
  · rw [← hadv, ByteCounter.advance_bytesIn]; exact hin
  · rw [← hadv, ByteCounter.advance_bytesOut]; exact hout

theorem behind_of_reads (h : Reads (w.cap.snapshot now).2 κ r) :
    (r.bytesInTotal = 0 ∧ r.bytesOutTotal = 0) ∨ Behind w.cap.flows κ r := by
  rcases h with ⟨k, st, hk, hb, hin, hout⟩ | ⟨-, hz⟩
  · rw [Capturer.lookup_snapshot_stats] at hk
    obtain ⟨ctr, hctr, rfl⟩ := Option.map_eq_some_iff.1 hk
    exact .inr ⟨k, ctr, hctr, hb, UInt64.le_of_eq hin, UInt64.le_of_eq hout⟩
  · exact .inl hz

theorem Backed.refresh (h : w.Backed) : (w.step (.refresh conns o₁ o₂ now)).Backed where
  keys := h.keys.join
  shown s hs := by
    obtain rfl := Option.some.inj hs
    rfl
  behind κ r hr hl := by
    have hbefore : (r.bytesInTotal = 0 ∧ r.bytesOutTotal = 0) ∨ Behind w.cap.flows κ r := by
      by_cases hrep : Reported conns (w.cap.snapshot now).2 κ
      · obtain ⟨r', hr', hreads⟩ := join_reads hrep
        obtain rfl := Option.some.inj (hr'.symm.trans hr)
        exact behind_of_reads hreads
      · -- a carried record keeps its totals, and its counter was not lost before either
        have hcar := (join_of_not_reported hrep).symm.trans hr
        obtain ⟨r', hr', rfl⟩ := Option.map_eq_some_iff.1 hcar
        exact h.behind κ r' (Option.filter_eq_some_iff.1 hr').1 fun hlost => hl (.inl ⟨hrep, hlost⟩)
    rcases hbefore with hz | hb
    · exact .inl hz
    · exact .inr (hb.refresh hl)

theorem Backed.step (h : w.Backed) (e : Step) (hs : w.Steady e) : (w.step e).Backed := by
  cases e with
  | record key ts n inbound => exact h.record hs
  | refresh conns o₁ o₂ now => exact h.refresh

/-! ### One refresh, and whole runs -/

/-- The counter behind the retained record is the one the refresh reads: it is still there, and no
other flow carries the connection. -/
theorem totals_le_of_reported (h : w.Backed) (hs : w.Steady (.refresh conns o₁ o₂ now))
    {r r' : ConnectionRecord} (hr : w.agg.records.lookup κ = some r)
    (hrep : Reported conns (w.cap.snapshot now).2 κ) (hreads : Reads (w.cap.snapshot now).2 κ r') :
    r.bytesInTotal ≤ r'.bytesInTotal ∧ r.bytesOutTotal ≤ r'.bytesOutTotal := by
  obtain ⟨hlost, huniq⟩ := hs κ (GoMap.mem_iff_lookup.2 ⟨r, hr⟩) hrep
  rcases h.behind κ r hr hlost with ⟨hz, hz'⟩ | ⟨k, ctr, hk, hb, hin, hout⟩
  · rw [hz, hz']
    exact ⟨UInt64.zero_le, UInt64.zero_le⟩
  · have hmem := GoMap.mem_iff_lookup.2 ⟨ctr, hk⟩
    rcases hreads with ⟨k', st, hk', hb', hin', hout'⟩ | ⟨hnone, -⟩
    · rw [Capturer.lookup_snapshot_stats] at hk'
      obtain ⟨ctr', hctr', rfl⟩ := Option.map_eq_some_iff.1 hk'
      obtain rfl := huniq k hmem k' (GoMap.mem_iff_lookup.2 ⟨ctr', hctr'⟩) hb hb'
      obtain rfl := Option.some.inj (hk.symm.trans hctr')
      exact ⟨hin' ▸ hin, hout' ▸ hout⟩
    · refine absurd hb (hnone k (GoMap.mem_iff_lookup.2 ⟨Capturer.statsOf now k ctr, ?_⟩))
      rw [Capturer.lookup_snapshot_stats, hk]
      rfl

theorem grows_refresh (h : w.Backed) (hs : w.Steady (.refresh conns o₁ o₂ now)) {s : Snapshot}
    (hshown : w.shown.head? = some s) : s.Grows (w.agg.refresh w.cap conns o₁ o₂ now).2.2 := by
  intro r hr r' hr' hkey hfirst
  rw [h.shown s hshown, mem_sortedRecords] at hr
  obtain ⟨κ, hκ⟩ := hr
  obtain ⟨κ', hκ'⟩ := mem_sortedRecords.1 hr'
  obtain rfl : κ = κ' := (h.keys κ r hκ).symm.trans (hkey.trans (h.keys.join κ' r' hκ'))
  have hle : r.bytesInTotal ≤ r'.bytesInTotal ∧ r.bytesOutTotal ≤ r'.bytesOutTotal := by
    by_cases hrep : Reported conns (w.cap.snapshot now).2 κ
    · obtain ⟨r'', hr'', hreads⟩ := join_reads hrep
      obtain rfl := Option.some.inj (hr''.symm.trans hκ')
      exact totals_le_of_reported h hs hκ hrep hreads
    · have hcar := (join_of_not_reported hrep).symm.trans hκ'
      obtain ⟨p, hp, rfl⟩ := Option.map_eq_some_iff.1 hcar
      obtain rfl := Option.some.inj ((Option.filter_eq_some_iff.1 hp).1.symm.trans hκ)
      exact ⟨UInt64.le_refl _, UInt64.le_refl _⟩
  exact ⟨hle.1, hle.2, fun hin hout => addIODataPoint_follows hfirst hle.1 hle.2 hin hout⟩

theorem Cumulative.step (h : w.Cumulative) (hb : w.Backed) (e : Step) (hs : w.Steady e) : (w.step e).Cumulative := by
  cases e with
  | record key ts n inbound => exact h
  | refresh conns o₁ o₂ now =>
    show List.IsChain _ (_ :: w.shown)
    exact List.isChain_cons.2 ⟨fun s hshown => grows_refresh hb hs hshown, h⟩

end World

/-- Along every run whose steps are steady, no snapshot takes back what the one before it reported. -/
theorem totals_cumulative (es : List Step) (h : Meets World.step World.Steady {} es) :
    ∀ pre, pre <+: es → (pre.foldl World.step {}).Cumulative := by
  intro pre hp
  have hboth : (pre.foldl World.step {}).Backed ∧ (pre.foldl World.step {}).Cumulative := by
    refine (h.of_prefix hp).history (P := fun pre => (pre.foldl World.step {}).Backed ∧
      (pre.foldl World.step {}).Cumulative) ⟨⟨?_, ?_, ?_⟩, .nil⟩ fun pre e ⟨hb, hc⟩ hs => ?_
    · intro κ r hr
      cases hr
    · intro s hs
      cases hs
    · intro κ r hr
      cases hr
    · rw [List.foldl_append]
      exact ⟨hb.step e hs, hc.step hb e hs⟩
  exact hboth.2

def busy443 : List Step :=
  [.record (flow443 "eth0") (1 * second) 100 true, .refresh [conn443] .held .held (1 * second),
    .record (flow443 "eth0") (2 * second) 50 false, .refresh [conn443] .held .held (2 * second)]

theorem busy443_cumulative : (busy443.foldl World.step {}).Cumulative := by
  refine totals_cumulative busy443 ?_ busy443 (List.prefix_refl _)
  refine meets_cons.2 ⟨by unfold World.Steady; decide, meets_cons.2 ⟨fun κ hκ => ?_,
    meets_cons.2 ⟨by unfold World.Steady; decide,
    meets_cons.2 ⟨fun κ _ _ => ⟨?_, ?_⟩, .nil⟩⟩⟩⟩
  · cases hκ
  · rintro (⟨-, hlost⟩ | ⟨k, hk, hgone, -⟩)
    · exact hlost
    · obtain rfl : k = flow443 "eth0" := List.mem_singleton.1 hk
      exact hgone (by decide)
  · intro k hk k' hk' _ _
    exact (List.mem_singleton.1 hk).trans (List.mem_singleton.1 hk').symm

/-- One packet, and then polls that go on reporting the connection while it is idle. -/
def idle443 : List Step :=
  [.record (flow443 "eth0") (1 * second) 100 true, .refresh [conn443] .held .held (1 * second),
    .refresh [conn443] .held .held (10 * second), .refresh [conn443] .held .held (11 * second)]

/-- The second refresh shows 100 bytes and evicts the counter; the third shows none. -/
theorem idle443_not_cumulative : ¬ (idle443.foldl World.step {}).Cumulative := by
  intro h
  have hin : (idle443.foldl World.step {}).shown.IsChain fun s' s => ∀ r ∈ s.connections, ∀ r' ∈ s'.connections,
      r.key = r'.key → r.firstSeen = r'.firstSeen → r.bytesInTotal ≤ r'.bytesInTotal :=
    h.imp fun s' s hgrows r hr r' hr' hkey hfirst => (hgrows r hr r' hr' hkey hfirst).1
  exact absurd hin (by decide)

end Trafficmon
