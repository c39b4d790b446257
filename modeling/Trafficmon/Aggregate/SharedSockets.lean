import Mathlib.Algebra.Order.BigOperators.Group.List
import Trafficmon.Aggregate.Cumulative
import Trafficmon.Aggregate.Grace
import Trafficmon.Aggregate.Rows

/-!
# Sockets held by several processes

The poller lists sockets by PID, so a socket inherited across a fork is polled once for every process
that holds it. The join gives each of the records the counters of the one flow on their 5-tuple, and
the rows by process name add them up: a flow counts as often as there are PIDs with the row's name on
its socket (`row_total`, `countP_backs`). So every flow counts once iff none with bytes is on a socket
that is polled under two PIDs with one name, or what is counted again wraps to nothing:
`counts_flows_once_iff`.
-/

namespace Trafficmon
open GoTime

instance (k : FlowKey) (κ : ConnKey) : Decidable (k.Backs κ) := inferInstanceAs (Decidable (_ = _))

/-- At most one interface carries a 5-tuple. -/
def OneInterface (flows : GoMap FlowKey FlowStats) : Prop :=
  ∀ k ∈ flows, ∀ k' ∈ flows, k.strip = k'.strip → k = k'

def firstSnapshot (conns : List Connection) (flows : GoMap FlowKey FlowStats) (o₁ o₂ : MapOrder FlowKey FlowStats)
    (now : Int) : Snapshot :=
  (({} : Aggregator).join conns flows o₁ o₂ now).2

/-- The captured flows behind the records `ms`, each once. -/
def flowsBehind (flows : GoMap FlowKey FlowStats) (ms : List ConnectionRecord) : List (Σ _ : FlowKey, FlowStats) :=
  flows.entries.filter fun e => ms.any fun r => e.1.Backs r.key

/-- The rows by process name of the first snapshot count each flow behind their members once. -/
def CountsFlowsOnce (conns : List Connection) (flows : GoMap FlowKey FlowStats) : Prop :=
  ∀ o₁ o₂ now, ∀ row ∈ rows (firstSnapshot conns flows o₁ o₂ now) .byProcessName,
    let behind := flowsBehind flows (membersOf (firstSnapshot conns flows o₁ o₂ now) .byProcessName row.key)
    row.bytesInTotal.toNat = (behind.map fun e => e.2.bytesIn.toNat).sum % 2 ^ 64 ∧
      row.bytesOutTotal.toNat = (behind.map fun e => e.2.bytesOut.toNat).sum % 2 ^ 64

/-- Of the connections polled under one key, the last: the one whose record stays. -/
def Kept (conns : List Connection) (c : Connection) : Prop :=
  GoMap.lastOf (conns.map fun c => (connKeyFor c, c)) (connKeyFor c) = some c

/-- A captured flow with bytes, on a socket that is polled under two PIDs whose processes have one name. -/
def SharedFlow (conns : List Connection) (flows : GoMap FlowKey FlowStats) : Prop :=
  ∃ c c', Kept conns c ∧ Kept conns c' ∧ flowKeyFor c = flowKeyFor c' ∧ c.processName = c'.processName ∧
    c.pid ≠ c'.pid ∧ ∃ k st, flows.lookup k = some st ∧ k.strip = flowKeyFor c ∧ (st.bytesIn ≠ 0 ∨ st.bytesOut ≠ 0)

instance (conns : List Connection) (c : Connection) : Decidable (Kept conns c) := inferInstanceAs (Decidable (_ = _))

/-- The process name and the remote end of a connection, as they name a row. -/
def processRemote (c : Connection) : String :=
  c.processName ++ "|" ++ c.remoteAddr.string ++ "|" ++ itoa c.remotePort.toNat

/-- The PIDs that a socket is polled under, of the processes with this name and remote end. -/
def holders (conns : List Connection) (name : String) (tuple : FlowKey) : List Int32 :=
  ((conns.filter fun c => Kept conns c ∧ flowKeyFor c = tuple ∧ processRemote c = name).map (·.pid)).dedup

/-- What is counted again for this name and remote end: the bytes of its flows, once for each PID beyond the first. -/
def surplus (conns : List Connection) (flows : GoMap FlowKey FlowStats) (bytes : FlowStats → UInt64)
    (name : String) : ℕ :=
  (flows.entries.map fun e => ((holders conns name e.1.strip).length - 1) * (bytes e.2).toNat).sum

/-- What is counted again is a multiple of `2 ^ 64`, and so nothing in a `uint64`. -/
def SurplusWraps (conns : List Connection) (flows : GoMap FlowKey FlowStats) : Prop :=
  ∀ name, 2 ^ 64 ∣ surplus conns flows FlowStats.bytesIn name ∧ 2 ^ 64 ∣ surplus conns flows FlowStats.bytesOut name

section First
variable {conns : List Connection} {flows : GoMap FlowKey FlowStats} {o₁ o₂ : MapOrder FlowKey FlowStats} {now : Int}
  {r r' : ConnectionRecord} {k : FlowKey} {c : Connection}

/-! ### The records of a first snapshot -/

theorem nodup_firstSnapshot : ((firstSnapshot conns flows o₁ o₂ now).connections.map ConnectionRecord.key).Nodup :=
  nodup_keys _ keysOk_empty.join

theorem key_inj (hr : r ∈ (firstSnapshot conns flows o₁ o₂ now).connections)
    (hr' : r' ∈ (firstSnapshot conns flows o₁ o₂ now).connections) (h : r.key = r'.key) : r = r' :=
  List.inj_on_of_nodup_map nodup_firstSnapshot hr hr' h

theorem mem_of_kept (hc : Kept conns c) :
    connRecord ∅ (o₁.list flows) now c ∈ (firstSnapshot conns flows o₁ o₂ now).connections :=
  mem_sortedRecords.2 ⟨_, lookup_join_last ∅ flows now hc o₁ o₂⟩

/-- A record of the first snapshot is that of a kept connection or that of an unattributed flow. -/
theorem mem_firstSnapshot (hr : r ∈ (firstSnapshot conns flows o₁ o₂ now).connections) :
    (∃ c, Kept conns c ∧ r = connRecord ∅ (o₁.list flows) now c) ∨
      ∃ fk st, unattributed fk.proto ∧ r = unattributedRecord ∅ now fk st := by
  obtain ⟨κ, hκ⟩ := mem_sortedRecords.1 hr
  replace hκ : (joinRecords ∅ conns flows o₁ o₂ now).lookup κ = some r := hκ
  have hcarried : carried ∅ now κ = none := rfl
  rw [lookup_join, hcarried, Option.or_none] at hκ
  rcases Option.or_eq_some_iff.1 hκ with hu | ⟨-, hc⟩
  · obtain ⟨⟨fk, st⟩, hmem, he⟩ := List.mem_map.1 (GoMap.mem_of_lastOf hu)
    exact .inr ⟨fk, st, by simpa using (List.mem_filter.1 hmem).2, (congrArg Prod.snd he).symm⟩
  · rw [connEntries, GoMap.lastOf_map] at hc
    obtain ⟨c, hlast, rfl⟩ := Option.map_eq_some_iff.1 hc
    obtain ⟨c', -, he⟩ := List.mem_map.1 (GoMap.mem_of_lastOf hlast)
    obtain ⟨rfl, rfl⟩ := Prod.mk.inj he
    exact .inl ⟨_, hlast, rfl⟩

theorem reads_of_mem (hr : r ∈ (firstSnapshot conns flows o₁ o₂ now).connections) : Reads flows r.key r := by
  obtain ⟨κ, hκ⟩ := mem_sortedRecords.1 hr
  have hkey : r.key = κ := keysOk_empty.join κ r hκ
  have hrep : Reported conns flows κ := by
    by_contra hnot
    have hnone : (joinRecords ∅ conns flows o₁ o₂ now).lookup κ = none := join_of_not_reported hnot
    exact absurd (hnone.symm.trans hκ) nofun
  obtain ⟨r', hr', hreads⟩ := @join_reads ∅ conns flows o₁ o₂ now κ hrep
  obtain rfl : r' = r := Option.some.inj (hr'.symm.trans hκ)
  rwa [hkey]

/-! ### The totals of a row -/

theorem proto_string_injective {p q : Proto} (h : p.string = q.string) : p = q := by
  revert h
  cases p <;> cases q <;> decide

/-- With one interface for each 5-tuple, a flow that backs a key is the only one. -/
theorem backs_unique (h : OneInterface flows) {k k' : FlowKey} {κ : ConnKey} (hk : k ∈ flows) (hk' : k' ∈ flows)
    (hb : k.Backs κ) (hb' : k'.Backs κ) : k = k' := by
  refine h k hk k' hk' ?_
  have hkey : k.connKey κ.pid = k'.connKey κ.pid := hb.trans hb'.symm
  simp only [FlowKey.connKey, ConnKey.mk.injEq, Addr.string_inj, true_and] at hkey
  obtain ⟨hla, hlp, hra, hrp, hproto⟩ := hkey
  simp only [FlowKey.strip, FlowKey.mk.injEq, and_true]
  exact ⟨hla, hlp, hra, hrp, proto_string_injective hproto⟩

theorem entries_backing (h : OneInterface flows) {st : FlowStats} {κ : ConnKey} (hk : flows.lookup k = some st)
    (hb : k.Backs κ) : flows.entries.filter (fun e => e.1.Backs κ) = [⟨k, st⟩] := by
  have hnodup : (flows.entries.filter fun e => decide (e.1.Backs κ)).Nodup :=
    (List.Nodup.of_map Sigma.fst flows.nodupKeys).filter _
  refine List.perm_singleton.1 ((List.perm_ext_iff_of_nodup hnodup (List.nodup_singleton _)).2 fun e => ?_)
  rw [List.mem_filter, List.mem_singleton, decide_eq_true_eq]
  constructor
  · obtain ⟨k', st'⟩ := e
    rintro ⟨hmem, hb'⟩
    have hk' := GoMap.mem_entries_iff.1 hmem
    obtain rfl := backs_unique h (GoMap.mem_iff_lookup.2 ⟨st, hk⟩) (GoMap.mem_iff_lookup.2 ⟨st', hk'⟩) hb hb'
    rw [Option.some.inj (hk.symm.trans hk')]
  · rintro rfl
    exact ⟨GoMap.mem_entries_iff.2 hk, hb⟩

/-- A record has the bytes of the flows that back it: of one, or of none. -/
theorem bytes_of_mem (h : OneInterface flows) (hr : r ∈ (firstSnapshot conns flows o₁ o₂ now).connections) :
    r.bytesInTotal.toNat =
        ((flows.entries.filter fun e => e.1.Backs r.key).map fun e => e.2.bytesIn.toNat).sum ∧
      r.bytesOutTotal.toNat =
        ((flows.entries.filter fun e => e.1.Backs r.key).map fun e => e.2.bytesOut.toNat).sum := by
  rcases reads_of_mem hr with ⟨k, st, hk, hb, hin, hout⟩ | ⟨hnone, hin, hout⟩
  · rw [entries_backing h hk hb, hin, hout]
    exact ⟨rfl, rfl⟩
  · have hnil : flows.entries.filter (fun e => decide (e.1.Backs r.key)) = [] := by
      refine List.filter_eq_nil_iff.2 fun e he hb => ?_
      exact hnone e.1 (GoMap.mem_iff_lookup.2 ⟨e.2, GoMap.mem_entries_iff.1 he⟩) (of_decide_eq_true hb)
    rw [hnil, hin, hout]
    exact ⟨rfl, rfl⟩

/-- A flow counts for every member of the row that it backs. -/
theorem row_total (h : OneInterface flows) {row : Row}
    (hrow : row ∈ rows (firstSnapshot conns flows o₁ o₂ now) .byProcessName) :
    let ms := membersOf (firstSnapshot conns flows o₁ o₂ now) .byProcessName row.key
    row.bytesInTotal.toNat =
        (flows.entries.map fun e => (ms.countP fun r => e.1.Backs r.key) * e.2.bytesIn.toNat).sum % 2 ^ 64 ∧
      row.bytesOutTotal.toNat =
        (flows.entries.map fun e => (ms.countP fun r => e.1.Backs r.key) * e.2.bytesOut.toNat).sum % 2 ^ 64 := by
  intro ms
  have hsums : row.Sums ms := sums_of_mem hrow
  have hmem : ∀ r ∈ ms, r ∈ (firstSnapshot conns flows o₁ o₂ now).connections := fun r hr => (List.mem_filter.1 hr).1
  rw [hsums.bytesIn, hsums.bytesOut, List.map_congr_left fun r hr => (bytes_of_mem h (hmem r hr)).1,
    List.map_congr_left fun r hr => (bytes_of_mem h (hmem r hr)).2]
  have hsources (f : (Σ _ : FlowKey, FlowStats) → ℕ) :=
    Rollup.sum_sources (fun (r : ConnectionRecord) e => decide (e.1.Backs r.key)) f ms flows.entries
  rw [hsources, hsources]
  exact ⟨rfl, rfl⟩

theorem backs_connRecord {fl : List (Σ _ : FlowKey, FlowStats)} :
    k.Backs (connRecord ∅ fl now c).key ↔ k.strip = flowKeyFor c := by
  rw [(fresh_connRecord fl c).key, backs_connKeyFor, sameTuple_iff]

theorem pid_connRecord {fl : List (Σ _ : FlowKey, FlowStats)} : (connRecord ∅ fl now c).key.pid = c.pid :=
  congrArg ConnKey.pid (fresh_connRecord fl c).key

theorem processName_connRecord {fl : List (Σ _ : FlowKey, FlowStats)} :
    (connRecord ∅ fl now c).processName = c.processName := by
  unfold connRecord
  dsimp only
  split <;> rfl

theorem proto_connRecord {fl : List (Σ _ : FlowKey, FlowStats)} : (connRecord ∅ fl now c).proto = c.proto.string :=
  congrArg ConnKey.proto (fresh_connRecord fl c).key

theorem proto_string_ne {p : Proto} {q : SockProto} (hu : unattributed p) : p.string ≠ q.string := by
  revert hu
  cases p <;> cases q <;> decide

theorem rowKey_connRecord {fl : List (Σ _ : FlowKey, FlowStats)} :
    rowKey .byProcessName (connRecord ∅ fl now c) = processRemote c := by
  have hfresh : Fresh ∅ now (connKeyFor c) (connRecord ∅ fl now c) := fresh_connRecord fl c
  have hkey := hfresh.key
  have hra : (connRecord ∅ fl now c).remoteAddr = c.remoteAddr.string := congrArg ConnKey.remoteAddr hkey
  have hrp : (connRecord ∅ fl now c).remotePort = c.remotePort := congrArg ConnKey.remotePort hkey
  rw [rowKey, processRemoteKey, processName_connRecord, hra, hrp, processRemote]

/-- Connections on one 5-tuple roll into one row just when their processes have one name. -/
theorem processRemote_eq_iff {c' : Connection} (htuple : flowKeyFor c = flowKeyFor c') :
    processRemote c = processRemote c' ↔ c.processName = c'.processName := by
  have hra : c.remoteAddr = c'.remoteAddr := congrArg FlowKey.remoteAddr htuple
  have hrp : c.remotePort = c'.remotePort := congrArg FlowKey.remotePort htuple
  unfold processRemote
  rw [hra, hrp]
  refine ⟨fun h => ?_, fun h => by rw [h]⟩
  have hchars := congrArg String.toList h
  simp only [String.toList_append, List.append_assoc] at hchars
  exact String.toList_inj.1 (List.append_cancel_right hchars)

/-! ### How often a flow counts -/

theorem nodup_backed (key : String) (k : FlowKey) :
    ((membersOf (firstSnapshot conns flows o₁ o₂ now) .byProcessName key).filter fun r => k.Backs r.key).Nodup :=
  ((List.Nodup.of_map _ nodup_firstSnapshot).filter _).filter _

theorem mem_backed {key : String} :
    r ∈ (membersOf (firstSnapshot conns flows o₁ o₂ now) .byProcessName key).filter (fun r => k.Backs r.key) ↔
      r ∈ (firstSnapshot conns flows o₁ o₂ now).connections ∧ rowKey .byProcessName r = key ∧ k.Backs r.key := by
  rw [List.mem_filter, membersOf, List.mem_filter, decide_eq_true_eq, decide_eq_true_eq, and_assoc]

/-- Records of one flow differ in their PID. -/
theorem backed_inj {key : String}
    (hr : r ∈ (membersOf (firstSnapshot conns flows o₁ o₂ now) .byProcessName key).filter fun r => k.Backs r.key)
    (hr' : r' ∈ (membersOf (firstSnapshot conns flows o₁ o₂ now) .byProcessName key).filter fun r => k.Backs r.key)
    (hpid : r.key.pid = r'.key.pid) : r = r' := by
  obtain ⟨hr, -, hb⟩ := mem_backed.1 hr
  obtain ⟨hr', -, hb'⟩ := mem_backed.1 hr'
  exact key_inj hr hr' (hb.symm.trans (Eq.trans (congrArg k.connKey hpid) hb'))

theorem Kept.mem (hc : Kept conns c) : c ∈ conns := by
  obtain ⟨c', hc', he⟩ := List.mem_map.1 (GoMap.mem_of_lastOf hc)
  obtain rfl : c' = c := congrArg Prod.snd he
  exact hc'

theorem mem_holders {name : String} {tuple : FlowKey} {pid : Int32} :
    pid ∈ holders conns name tuple ↔
      ∃ c, Kept conns c ∧ flowKeyFor c = tuple ∧ processRemote c = name ∧ c.pid = pid := by
  rw [holders, List.mem_dedup, List.mem_map]
  refine exists_congr fun c => ?_
  rw [List.mem_filter, decide_eq_true_eq]
  exact ⟨fun ⟨⟨_, hkept, htuple, hname⟩, hpid⟩ => ⟨hkept, htuple, hname, hpid⟩,
    fun ⟨hkept, htuple, hname, hpid⟩ => ⟨⟨hkept.mem, hkept, htuple, hname⟩, hpid⟩⟩

theorem proto_eq (hb : k.Backs r.key) : k.proto.string = r.proto := congrArg ConnKey.proto hb

theorem length_le_one_iff {α : Type*} {l : List α} (hnodup : l.Nodup) :
    l.length ≤ 1 ↔ ∀ a ∈ l, ∀ b ∈ l, a = b := by
  match l with
  | [] => simp
  | [a] => simp
  | a :: b :: l =>
    have hne : a ≠ b := fun hab => (List.nodup_cons.1 hnodup).1 (hab ▸ List.mem_cons_self)
    exact ⟨fun h => absurd h (by simp), fun h => absurd (h a (by simp) b (by simp)) hne⟩

/-- A flow that no socket can be on has one record at most. -/
theorem countP_backs_unattributed (hu : unattributed k.proto) (key : String) :
    ((membersOf (firstSnapshot conns flows o₁ o₂ now) .byProcessName key).countP fun r => k.Backs r.key) ≤ 1 ∧
      holders conns key k.strip = [] := by
  rw [List.countP_eq_length_filter]
  refine ⟨(length_le_one_iff (nodup_backed key k)).2 fun r hr r' hr' => backed_inj hr hr' ?_,
    List.eq_nil_iff_forall_not_mem.2 fun pid hpid => ?_⟩
  · have hzero : ∀ {r}, r ∈ (membersOf (firstSnapshot conns flows o₁ o₂ now) .byProcessName key).filter
        (fun r => k.Backs r.key) → r.key.pid = 0 := fun {r} hr => by
      obtain ⟨hmem, -, hb⟩ := mem_backed.1 hr
      rcases mem_firstSnapshot hmem with ⟨c, -, rfl⟩ | ⟨fk, st, -, rfl⟩
      · exact absurd ((proto_eq hb).trans proto_connRecord) (proto_string_ne hu)
      · rfl
    exact (hzero hr).trans (hzero hr').symm
  · obtain ⟨c, -, htuple, -⟩ := mem_holders.1 hpid
    have hb : k.Backs (connRecord ∅ [] 0 c).key := backs_connRecord.2 htuple.symm
    exact proto_string_ne hu ((proto_eq hb).trans proto_connRecord)

/-- A flow that sockets can be on has the records of the holders. -/
theorem countP_backs_holders (hu : ¬ unattributed k.proto) (key : String) :
    ((membersOf (firstSnapshot conns flows o₁ o₂ now) .byProcessName key).countP fun r => k.Backs r.key) =
      (holders conns key k.strip).length := by
  rw [List.countP_eq_length_filter]
  have hnodup : (((membersOf (firstSnapshot conns flows o₁ o₂ now) .byProcessName key).filter
      fun r => k.Backs r.key).map fun r => r.key.pid).Nodup :=
    List.Nodup.map_on (fun r hr r' hr' => backed_inj hr hr') (nodup_backed key k)
  have hmem : ∀ pid, (pid ∈ ((membersOf (firstSnapshot conns flows o₁ o₂ now) .byProcessName key).filter
      fun r => k.Backs r.key).map fun r => r.key.pid) ↔ pid ∈ holders conns key k.strip := fun pid => by
    rw [mem_holders, List.mem_map]
    constructor
    · rintro ⟨r, hr, rfl⟩
      obtain ⟨hr, hkey, hb⟩ := mem_backed.1 hr
      rcases mem_firstSnapshot hr with ⟨c, hc, rfl⟩ | ⟨fk, st, hfk, rfl⟩
      · exact ⟨c, hc, (backs_connRecord.1 hb).symm, rowKey_connRecord.symm.trans hkey, pid_connRecord.symm⟩
      · have hproto : k.proto = fk.proto := proto_string_injective (proto_eq hb)
        exact absurd (hproto ▸ hfk) hu
    · rintro ⟨c, hc, htuple, hname, rfl⟩
      exact ⟨connRecord ∅ (o₁.list flows) now c, mem_backed.2 ⟨mem_of_kept hc, rowKey_connRecord.trans hname,
        backs_connRecord.2 htuple.symm⟩, pid_connRecord⟩
  have hlen := ((List.perm_ext_iff_of_nodup hnodup (List.nodup_dedup _)).2 hmem).length_eq
  rwa [List.length_map] at hlen

/-- Beyond its first time, a flow counts once for each holder of its socket beyond the first. -/
theorem countP_backs (key : String) (k : FlowKey) :
    ((membersOf (firstSnapshot conns flows o₁ o₂ now) .byProcessName key).countP fun r => k.Backs r.key) - 1 =
      (holders conns key k.strip).length - 1 := by
  by_cases hu : unattributed k.proto
  · have hone : ((membersOf (firstSnapshot conns flows o₁ o₂ now) .byProcessName key).countP
        fun r => k.Backs r.key) ≤ 1 ∧ holders conns key k.strip = [] := countP_backs_unattributed hu key
    rw [hone.2, Nat.sub_eq_zero_of_le hone.1]
    rfl
  · rw [countP_backs_holders hu]

end First

/-! ### When each flow counts once -/

section Once
variable {conns : List Connection} {flows : GoMap FlowKey FlowStats}

/-- The totals of a row are those of the flows behind it, and the surplus. -/
theorem row_surplus (h : OneInterface flows) {o₁ o₂ : MapOrder FlowKey FlowStats} {now : Int} {row : Row}
    (hrow : row ∈ rows (firstSnapshot conns flows o₁ o₂ now) .byProcessName) :
    let behind := flowsBehind flows (membersOf (firstSnapshot conns flows o₁ o₂ now) .byProcessName row.key)
    row.bytesInTotal.toNat =
        ((behind.map fun e => e.2.bytesIn.toNat).sum + surplus conns flows FlowStats.bytesIn row.key) % 2 ^ 64 ∧
      row.bytesOutTotal.toNat =
        ((behind.map fun e => e.2.bytesOut.toNat).sum + surplus conns flows FlowStats.bytesOut row.key) % 2 ^ 64 := by
  intro behind
  obtain ⟨hin, hout⟩ := row_total h hrow
  have hsplit (bytes : FlowStats → UInt64) := Rollup.sum_sources_surplus
    (fun (r : ConnectionRecord) (e : Σ _ : FlowKey, FlowStats) => decide (e.1.Backs r.key)) (fun e => (bytes e.2).toNat)
    (membersOf (firstSnapshot conns flows o₁ o₂ now) .byProcessName row.key) flows.entries
  simp only [countP_backs] at hsplit
  rw [hin, hout, hsplit FlowStats.bytesIn, hsplit FlowStats.bytesOut]
  exact ⟨rfl, rfl⟩

theorem surplus_eq_zero {bytes : FlowStats → UInt64} {name : String}
    (h : ∀ k st, flows.lookup k = some st → (holders conns name k.strip).length ≤ 1 ∨ bytes st = 0) :
    surplus conns flows bytes name = 0 := by
  refine List.sum_eq_zero fun n hn => ?_
  obtain ⟨⟨k, st⟩, he, rfl⟩ := List.mem_map.1 hn
  rcases h k st (GoMap.mem_entries_iff.1 he) with hle | hzero
  · rw [Nat.sub_eq_zero_of_le hle, Nat.zero_mul]
  · dsimp only
    rw [hzero, UInt64.toNat_zero, Nat.mul_zero]

/-- The rows count each flow once just when the surplus wraps. -/
theorem countsFlowsOnce_iff_wraps (h : OneInterface flows) :
    CountsFlowsOnce conns flows ↔ SurplusWraps conns flows := by
  constructor
  · intro honce name
    by_cases hrow : ∃ row ∈ rows (firstSnapshot conns flows .held .held 0) .byProcessName, row.key = name
    · obtain ⟨row, hrow, rfl⟩ := hrow
      obtain ⟨hin, hout⟩ := honce .held .held 0 row hrow
      obtain ⟨hin', hout'⟩ := row_surplus h hrow
      exact ⟨by omega, by omega⟩
    · -- without a row there is no holder
      have hnone : ∀ k, (holders conns name k).length ≤ 1 := by
        intro k
        have hnil : holders conns name k = [] := List.eq_nil_iff_forall_not_mem.2 fun pid hpid => by
          obtain ⟨c, hc, -, hname, -⟩ := mem_holders.1 hpid
          have hmem : connRecord ∅ (MapOrder.held.list flows) 0 c ∈
              (firstSnapshot conns flows .held .held 0).connections := mem_of_kept hc
          obtain ⟨row, hrow', hkey, -⟩ := exists_row hmem .byProcessName
          exact hrow ⟨row, hrow', hkey.trans (rowKey_connRecord.trans hname)⟩
        rw [hnil]
        exact Nat.zero_le _
      rw [surplus_eq_zero fun k _ _ => .inl (hnone k.strip), surplus_eq_zero fun k _ _ => .inl (hnone k.strip)]
      exact ⟨dvd_zero _, dvd_zero _⟩
  · intro hwraps o₁ o₂ now row hrow
    obtain ⟨hin, hout⟩ := row_surplus h hrow
    obtain ⟨hin', hout'⟩ := hwraps row.key
    exact ⟨by omega, by omega⟩

theorem length_holders_le_one_iff {name : String} {tuple : FlowKey} : (holders conns name tuple).length ≤ 1 ↔
    ∀ c c', Kept conns c → Kept conns c' → flowKeyFor c = tuple → flowKeyFor c' = tuple → processRemote c = name →
      processRemote c' = name → c.pid = c'.pid := by
  have hnodup : (holders conns name tuple).Nodup := List.nodup_dedup _
  rw [length_le_one_iff hnodup]
  constructor
  · intro h c c' hc hc' htuple htuple' hname hname'
    exact h _ (mem_holders.2 ⟨c, hc, htuple, hname, rfl⟩) _ (mem_holders.2 ⟨c', hc', htuple', hname', rfl⟩)
  · intro h pid hpid pid' hpid'
    obtain ⟨c, hc, htuple, hname, rfl⟩ := mem_holders.1 hpid
    obtain ⟨c', hc', htuple', hname', rfl⟩ := mem_holders.1 hpid'
    exact h c c' hc hc' htuple htuple' hname hname'

theorem le_surplus (bytes : FlowStats → UInt64) {name : String} {k : FlowKey} {st : FlowStats}
    (h : flows.lookup k = some st) (htwo : ¬ (holders conns name k.strip).length ≤ 1) :
    (bytes st).toNat ≤ surplus conns flows bytes name := by
  refine le_trans ?_ (List.single_le_sum (fun _ _ => Nat.zero_le _) _ (List.mem_map_of_mem (GoMap.mem_entries_iff.2 h)))
  have hpos : 0 < (holders conns name k.strip).length - 1 := by omega
  exact Nat.le_mul_of_pos_left _ hpos

/-- Nothing is counted again just when no flow with bytes is shared. -/
theorem surplus_eq_zero_iff : (∀ name, surplus conns flows FlowStats.bytesIn name = 0 ∧
    surplus conns flows FlowStats.bytesOut name = 0) ↔ ¬ SharedFlow conns flows := by
  constructor
  · rintro hzero ⟨c, c', hc, hc', htuple, hname, hpid, k, st, hk, hstrip, hbytes⟩
    have htwo : ¬ (holders conns (processRemote c) k.strip).length ≤ 1 := fun hle =>
      hpid (length_holders_le_one_iff.1 hle c c' hc hc' hstrip.symm (htuple.symm.trans hstrip.symm) rfl
        ((processRemote_eq_iff htuple).2 hname).symm)
    obtain ⟨hin, hout⟩ := hzero (processRemote c)
    have hin' := le_surplus FlowStats.bytesIn hk htwo
    have hout' := le_surplus FlowStats.bytesOut hk htwo
    rcases hbytes with hb | hb
    · exact hb (UInt64.toNat_inj.1 (by rw [UInt64.toNat_zero]; omega))
    · exact hb (UInt64.toNat_inj.1 (by rw [UInt64.toNat_zero]; omega))
  · intro hno name
    have hcase : ∀ k st, flows.lookup k = some st → (holders conns name k.strip).length ≤ 1 ∨
        st.bytesIn = 0 ∧ st.bytesOut = 0 := by
      intro k st hk
      by_contra hcon
      obtain ⟨htwo, hbytes⟩ := not_or.1 hcon
      refine htwo (length_holders_le_one_iff.2 fun c c' hc hc' htuple htuple' hname hname' => ?_)
      by_contra hpid
      have hsame : flowKeyFor c = flowKeyFor c' := htuple.trans htuple'.symm
      exact hno ⟨c, c', hc, hc', hsame, (processRemote_eq_iff hsame).1 (hname.trans hname'.symm), hpid, k, st, hk,
        htuple.symm, not_and_or.1 hbytes⟩
    exact ⟨surplus_eq_zero fun k st hk => (hcase k st hk).imp_right And.left,
      surplus_eq_zero fun k st hk => (hcase k st hk).imp_right And.right⟩

end Once

/-- The rows by process name count each captured flow once, iff no flow with bytes is on a socket that is polled under
two PIDs whose processes have one name, or what is counted again is a multiple of `2 ^ 64`; it is none as long as it
is less. -/
theorem counts_flows_once_iff (conns : List Connection) (flows : GoMap FlowKey FlowStats) (h : OneInterface flows) :
    (CountsFlowsOnce conns flows ↔ ¬ SharedFlow conns flows ∨ SurplusWraps conns flows) ∧
      ((∀ name, surplus conns flows FlowStats.bytesIn name < 2 ^ 64 ∧
          surplus conns flows FlowStats.bytesOut name < 2 ^ 64) →
        (CountsFlowsOnce conns flows ↔ ¬ SharedFlow conns flows)) := by
  rw [countsFlowsOnce_iff_wraps h, ← surplus_eq_zero_iff]
  refine ⟨⟨.inr, fun hor => hor.elim (fun hzero name => ?_) id⟩,
    fun hsmall => ⟨fun hwraps name => ?_, fun hzero name => ?_⟩⟩
  · rw [(hzero name).1, (hzero name).2]
    exact ⟨dvd_zero _, dvd_zero _⟩
  · exact ⟨Nat.eq_zero_of_dvd_of_lt (hwraps name).1 (hsmall name).1,
      Nat.eq_zero_of_dvd_of_lt (hwraps name).2 (hsmall name).2⟩
  · rw [(hzero name).1, (hzero name).2]
    exact ⟨dvd_zero _, dvd_zero _⟩

/-- One byte, received on the 5-tuple of `c`. -/
def oneByte (c : Connection) : GoMap FlowKey FlowStats :=
  AList.singleton (flowKeyFor c) ⟨1, 0, 0, 0, 0, "", ""⟩

theorem mem_oneByte {c : Connection} {k : FlowKey} (h : k ∈ oneByte c) : k = flowKeyFor c := by
  rw [AList.mem_keys, oneByte, AList.keys_singleton] at h
  exact List.mem_singleton.1 h

theorem oneInterface_oneByte (c : Connection) : OneInterface (oneByte c) :=
  fun _ hk _ hk' _ => (mem_oneByte hk).trans (mem_oneByte hk').symm

/-- A connection that a server's worker has accepted. -/
def accepted : Connection := ⟨101, "nginx", .ipv4 10 0 0 1, 80, .ipv4 1 1 1 1, 51000, .tcp, "ESTABLISHED"⟩

def listening (pid : Int32) : Connection := ⟨pid, "nginx", .ipv4 0 0 0 0, 80, .ipv4 0 0 0 0, 0, .tcp, "LISTEN"⟩

/-- The socket that the master shares with its worker has no flow. -/
theorem prefork_counts_once : OneInterface (oneByte accepted) ∧
    CountsFlowsOnce [listening 100, listening 101, accepted] (oneByte accepted) := by
  have h := oneInterface_oneByte accepted
  refine ⟨h, (counts_flows_once_iff [listening 100, listening 101, accepted] _ h).1.2 (.inl ?_)⟩
  rintro ⟨c, c', hc, hc', htuple, -, hpid, k, st, hk, hstrip, -⟩
  have honly : ∀ d ∈ [listening 100, listening 101, accepted], flowKeyFor d = flowKeyFor accepted → d.pid = 101 := by
    decide
  obtain rfl := mem_oneByte (GoMap.mem_iff_lookup.2 ⟨st, hk⟩)
  have hc : c.pid = 101 := honly c hc.mem hstrip.symm
  have hc' : c'.pid = 101 := honly c' hc'.mem (htuple.symm.trans hstrip.symm)
  exact hpid (hc.trans hc'.symm)

/-- `conn443`, polled again under a worker that inherited its socket. -/
def inherited443 : List Connection := [conn443, { conn443 with pid := 43 }]

theorem inherited443_counts_twice :
    OneInterface (oneByte conn443) ∧ ¬ CountsFlowsOnce inherited443 (oneByte conn443) ∧
      (rows (firstSnapshot inherited443 (oneByte conn443) .held .held 0) .byProcessName).map
        Row.bytesInTotal = [2] := by
  have h := oneInterface_oneByte conn443
  have hsurplus : surplus inherited443 (oneByte conn443) FlowStats.bytesIn (processRemote conn443) = 1 := by
    decide +kernel
  refine ⟨h, fun honce => ?_, by decide +kernel⟩
  have hdvd := ((countsFlowsOnce_iff_wraps h).1 honce (processRemote conn443)).1
  rw [hsurplus] at hdvd
  exact absurd hdvd (by decide)

end Trafficmon
