import Trafficmon.Aggregate.RecordOrder
import Trafficmon.Aggregate.Rows

/-!
# The order of the table (`tui/table.go`)

`sortRows` sorts the rows by the active column and leaves ties in the order of `Rows`, which is that
of the snapshot. So the table is as determined as the snapshot's list: `table_order_iff`.
-/

namespace Trafficmon

inductive SortKey
  | rate
  | total
  | pid
deriving DecidableEq, Repr

namespace SortKey

def next : SortKey → SortKey
  | .rate => .total
  | .total => .pid
  | .pid => .rate

def toggleRate (k : SortKey) : SortKey := if k = .rate then .total else .rate

/-- Whether `a` comes before `b`: the busiest first, or the lowest PID. -/
def before : SortKey → Row → Row → Bool
  | .total, a, b => a.bytesInTotal + a.bytesOutTotal > b.bytesInTotal + b.bytesOutTotal
  | .pid, a, b => a.pid < b.pid
  | .rate, a, b => a.rateInBps + a.rateOutBps > b.rateInBps + b.rateOutBps

end SortKey

def sortRows (rows : List Row) (k : SortKey) : List Row := SortBy.stableSort k.before rows

theorem sortRows_sorted (rows : List Row) (k : SortKey) : SortBy.Sorted k.before rows (sortRows rows k) := by
  cases k with
  | rate =>
    have hranks : SortBy.Ranks SortKey.rate.before fun r => OrderDual.toDual (r.rateInBps + r.rateOutBps) := by
      intro a b
      rw [SortKey.before, decide_eq_true_eq, OrderDual.toDual_lt_toDual]
    exact hranks.sorted_stableSort rows
  | total =>
    have hranks : SortBy.Ranks SortKey.total.before
        fun r => OrderDual.toDual (r.bytesInTotal + r.bytesOutTotal).toNat := by
      intro a b
      simp [SortKey.before, UInt64.lt_iff_toNat_lt]
    exact hranks.sorted_stableSort rows
  | pid =>
    have hranks : SortBy.Ranks SortKey.pid.before fun r => r.pid.toInt := by
      intro a b
      simp [SortKey.before, Int32.lt_iff_toInt_lt]
    exact hranks.sorted_stableSort rows

/-- Rows that the column leaves in order, ties included, stay in their order. -/
theorem sortRows_stable {c rows : List Row} (k : SortKey) (hc : c.Sublist rows)
    (h : c.Pairwise fun a b => ¬ k.before b a) : c.Sublist (sortRows rows k) :=
  SortBy.sublist_stableSort hc h

/-- The table over the records `m` is the same whichever list the snapshot has. -/
def OneTable (m : Records) : Prop :=
  ∀ l l', SnapshotList m l → SnapshotList m l' → ∀ takenAt g k,
    sortRows (rows { takenAt, connections := l } g) k = sortRows (rows { takenAt, connections := l' } g) k

/-- The records of `m` have one order, and the table over them too, iff no two of them differ in their
local address only. -/
theorem table_order_iff {m : Records} (hkeys : KeysOk m) : (LessTotal m ∧ OneOrder m ∧ OneTable m) ↔ NoTwins m := by
  constructor
  · exact fun h => lessTotal_iff.1 h.1
  · intro h
    have hone := (oneOrder_iff hkeys).2 h
    refine ⟨lessTotal_iff.2 h, hone, fun l l' hl hl' takenAt g k => ?_⟩
    rw [hone l l' hl hl']

theorem noTwins_of_values {m : Records} (h : ∀ r ∈ m.entries.map (·.2), ∀ r' ∈ m.entries.map (·.2), ¬ r.Twins r') :
    NoTwins m :=
  fun κ r κ' r' hr hr' => h r (mem_values.2 ⟨κ, hr⟩) r' (mem_values.2 ⟨κ', hr'⟩)

/-- Two connections of one process, from two ports. -/
def twoPorts : Records := joinRecords ∅ [conn443, { conn443 with localPort := 51001 }] ∅ .held .held 0

theorem table_order_iff_twoPorts : KeysOk twoPorts ∧ LessTotal twoPorts ∧ OneOrder twoPorts ∧ OneTable twoPorts := by
  have hkeys : KeysOk twoPorts := keysOk_empty.join
  exact ⟨hkeys, (table_order_iff hkeys).2 (noTwins_of_values (by decide))⟩

/-- A resolver that listens on port 53 of two addresses. -/
def listener53 (a : Addr) : Connection := ⟨9, "dnsmasq", a, 53, .ipv4 0 0 0 0, 0, .udp, ""⟩

def twoListeners : Records := joinRecords ∅ [listener53 (.ipv4 10 0 0 1), listener53 (.ipv4 127 0 0 1)] ∅ .held .held 0

/-- Neither listener is less than the other, so the table shows them in either order. -/
theorem twoListeners_two_orders : KeysOk twoListeners ∧
    ∃ a b : ConnectionRecord, a.key ≠ b.key ∧ ¬ a.less b ∧ ¬ b.less a ∧ SnapshotList twoListeners [a, b] ∧
      SnapshotList twoListeners [b, a] ∧
      sortRows (rows { takenAt := 0, connections := [a, b] } .none) .rate ≠
        sortRows (rows { takenAt := 0, connections := [b, a] } .none) .rate := by
  refine ⟨keysOk_empty.join, connRecord ∅ [] 0 (listener53 (.ipv4 10 0 0 1)),
    connRecord ∅ [] 0 (listener53 (.ipv4 127 0 0 1)), by decide, by decide, by decide, ?_, ?_, by decide +kernel⟩
  · exact snapshotList_iff.2 ⟨by decide, by decide⟩
  · exact snapshotList_iff.2 ⟨by decide, by decide⟩

end Trafficmon
