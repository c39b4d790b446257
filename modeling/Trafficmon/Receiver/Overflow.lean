import Trafficmon.Lib.Deltas
import Trafficmon.Receiver.Counts

/-!
# The overflow bytes over a run of ticks

A folded connection adds to the overflow bytes what its total has grown since the last tick, if it
was folded then too, and its whole total otherwise: the baselines in `lastIo` are those of the latest
tick only. So a connection that leaves the overflow for a tick and comes back is counted again. As
long as none comes back (`Unreturned`), the overflow bytes are the sum, over the connections ever
folded, of the total each had when it was last folded (`overflow_eq`).
-/

namespace Trafficmon
open Distinct Deltas

/-- `bytesIn` or `bytesOut`. -/
abbrev Direction := IOTotals → UInt64

def ConnectionRecord.ioTotals (r : ConnectionRecord) : IOTotals := ⟨r.bytesInTotal, r.bytesOutTotal⟩

/-- The readings of one direction's total that a list of records is. -/
def readings (dir : Direction) (records : List ConnectionRecord) : List (FlowIdentity × Nat) :=
  records.map fun r => (r.identity, (dir r.ioTotals).toNat)

/-- Every record a run reported. -/
def reported (ticks : List Tick) : List ConnectionRecord := ticks.flatMap fun t => t.snap.connections

/-- Every record a run folded. -/
def everFolded (ticks : List Tick) : List ConnectionRecord := ticks.flatMap Tick.folded

/-- No connection's total goes back from a snapshot to a later one. -/
def TotalsGrow (ticks : List Tick) : Prop :=
  ticks.Pairwise fun t t' => ∀ r ∈ t.snap.connections, ∀ r' ∈ t'.snap.connections, r.identity = r'.identity →
    r.bytesInTotal ≤ r'.bytesInTotal ∧ r.bytesOutTotal ≤ r'.bytesOutTotal

/-- A connection folded in `t`, after the ticks `pre`, is folded there once, and was folded in the
tick before or in none. -/
def Unreturned (pre : List Tick) (t : Tick) : Prop :=
  (t.folded.map ConnectionRecord.identity).Nodup ∧
  ∀ r ∈ t.folded, r.identity ∉ (everFolded pre).map ConnectionRecord.identity ∨
    ∃ t', pre.getLast? = some t' ∧ r.identity ∈ t'.folded.map ConnectionRecord.identity

/-- What was folded so far fits a counter. -/
def FoldedFits (ticks : List Tick) : Prop :=
  sumLast (readings IOTotals.bytesIn (everFolded ticks)) < 2 ^ 64 ∧
  sumLast (readings IOTotals.bytesOut (everFolded ticks)) < 2 ^ 64

section Step
variable {start : Int} {pre ticks : List Tick} {t : Tick} {dir : Direction} {r r' : ConnectionRecord} {id : FlowIdentity}

@[simp] theorem map_fst_readings (dir : Direction) (records : List ConnectionRecord) :
    (readings dir records).map Prod.fst = records.map ConnectionRecord.identity := by
  simp [readings]

theorem readings_append (dir : Direction) (rs rs' : List ConnectionRecord) :
    readings dir (rs ++ rs') = readings dir rs ++ readings dir rs' := List.map_append

theorem exists_of_lastOf_readings {records : List ConnectionRecord} {v : Nat}
    (h : GoMap.lastOf (readings dir records) id = some v) :
    ∃ r ∈ records, r.identity = id ∧ v = (dir r.ioTotals).toNat := by
  obtain ⟨r, hr, he⟩ := List.mem_map.1 (GoMap.mem_of_lastOf h)
  obtain ⟨hid, hv⟩ := Prod.mk.inj he
  exact ⟨r, hr, hid, hv.symm⟩

/-! ### One step -/

theorem lastIo_run (start : Int) (pre : List Tick) :
    (MetricsState.run start pre).lastIo = (pre.getLast?).elim ∅ Tick.foldedTotals := by
  rcases List.eq_nil_or_concat pre with rfl | ⟨pre, t, rfl⟩
  · rfl
  · rw [List.concat_eq_append, run_concat, tick_eq, List.getLast?_concat]
    rfl

theorem lookup_foldedTotals (t : Tick) (id : FlowIdentity) :
    t.foldedTotals.lookup id = GoMap.lastOf (t.folded.map fun r => (r.identity, r.ioTotals)) id := by
  rw [Tick.foldedTotals, GoMap.lookup_insertAll, AList.lookup_empty, Option.or_none]
  rfl

theorem lastOf_readings (dir : Direction) (records : List ConnectionRecord) (id : FlowIdentity) :
    GoMap.lastOf (readings dir records) id =
      (GoMap.lastOf (records.map fun r => (r.identity, r.ioTotals)) id).map fun v => (dir v).toNat := by
  rw [readings, GoMap.lastOf_map ConnectionRecord.identity fun r => (dir r.ioTotals).toNat,
    GoMap.lastOf_map ConnectionRecord.identity ConnectionRecord.ioTotals, Option.map_map]
  rfl

/-- The baseline of a connection that has not returned is its last folded total. -/
theorem baseline_eq (start : Int) (hzero : dir {} = 0) (hu : Unreturned pre t) (hr : r ∈ t.folded) :
    (dir (((MetricsState.run start pre).lastIo.lookup r.identity).getD {})).toNat =
      last (readings dir (everFolded pre)) r.identity := by
  rw [lastIo_run]
  rcases hu.2 r hr with hnever | ⟨t', ht', hlast⟩
  · rw [last_of_notMem (by rwa [map_fst_readings])]
    have hnone : ((pre.getLast?).elim ∅ Tick.foldedTotals).lookup r.identity = none := by
      cases hl : pre.getLast? with
      | none => rfl
      | some t' =>
        rw [Option.elim_some, lookup_foldedTotals, GoMap.lastOf_eq_none]
        intro e he hid
        obtain ⟨r', hr', rfl⟩ := List.mem_map.1 he
        exact hnever (List.mem_map.2 ⟨r', List.mem_flatMap.2 ⟨t', List.mem_of_getLast? hl, hr'⟩, hid⟩)
    rw [hnone, Option.getD_none, hzero]
    rfl
  · obtain ⟨pre', rfl⟩ := List.getLast?_eq_some_iff.1 ht'
    rw [ht', Option.elim_some, lookup_foldedTotals, last, everFolded, List.flatMap_append, List.flatMap_singleton,
      readings_append, GoMap.lastOf_append, lastOf_readings dir t'.folded]
    obtain ⟨r', hr', hid⟩ := List.mem_map.1 hlast
    obtain ⟨v, hv⟩ := GoMap.exists_lastOf (List.mem_map.2 ⟨r', hr', rfl⟩ :
      (r'.identity, r'.ioTotals) ∈ t'.folded.map fun r => (r.identity, r.ioTotals))
    rw [← hid, hv]
    rfl

theorem advanceOverflow_eq {overflow prev now : UInt64} (hle : prev ≤ now) :
    advanceOverflow overflow prev now = overflow + UInt64.ofNat (now.toNat - prev.toNat) := by
  have hle' := UInt64.le_iff_toNat_le.1 hle
  unfold advanceOverflow
  split
  · rw [← UInt64.toNat_sub_of_le _ _ hle, UInt64.ofNat_toNat]
  · have hnot : ¬ prev.toNat < now.toNat := fun h => ‹¬ prev < now› (UInt64.lt_iff_toNat_lt.2 h)
    have hzero : now.toNat - prev.toNat = 0 := by omega
    rw [hzero]
    simp

/-- One pass over records of distinct connections, each measured against its last reading before. -/
theorem advanced_eq {before rs : List ConnectionRecord} {base : ConnectionRecord → UInt64}
    (hnodup : (rs.map ConnectionRecord.identity).Nodup)
    (hbase : ∀ r ∈ rs, (base r).toNat = last (readings dir before) r.identity)
    (hle : ∀ r ∈ rs, base r ≤ dir r.ioTotals) :
    rs.foldl (fun o r => advanceOverflow o (base r) (dir r.ioTotals)) (UInt64.ofNat (sumLast (readings dir before))) =
      UInt64.ofNat (sumLast (readings dir (before ++ rs))) := by
  induction rs using List.reverseRecOn with
  | nil => rw [List.append_nil]; rfl
  | append_singleton rs r ih =>
    rw [List.map_append, List.map_singleton, List.nodup_append] at hnodup
    have hfresh : r.identity ∉ (readings dir rs).map Prod.fst := by
      rw [map_fst_readings]
      exact fun h => hnodup.2.2 _ h _ (List.mem_singleton_self _) rfl
    have hlast : last (readings dir (before ++ rs)) r.identity = (base r).toNat := by
      rw [hbase r (by simp), readings_append, last_append_of_notMem hfresh]
    have hr := UInt64.le_iff_toNat_le.1 (hle r (by simp))
    rw [List.foldl_append, List.foldl_cons, List.foldl_nil,
      ih hnodup.1 (fun r hr => hbase r (by simp [hr])) fun r hr => hle r (by simp [hr]),
      advanceOverflow_eq (hle r (by simp)), ← List.append_assoc, readings_append dir (before ++ rs) [r]]
    change _ = UInt64.ofNat (sumLast (readings dir (before ++ rs) ++ [(r.identity, (dir r.ioTotals).toNat)]))
    rw [sumLast_concat (by rw [hlast]; exact hr), hlast, UInt64.ofNat_add]

/-! ### Totals that grow -/

/-- `dir` is one of the two totals `TotalsGrow` is about. -/
def Grows (dir : Direction) : Prop :=
  dir {} = 0 ∧ ∀ r r' : ConnectionRecord,
    r.bytesInTotal ≤ r'.bytesInTotal ∧ r.bytesOutTotal ≤ r'.bytesOutTotal → dir r.ioTotals ≤ dir r'.ioTotals

theorem grows_bytesIn : Grows IOTotals.bytesIn := ⟨rfl, fun _ _ h => h.1⟩

theorem grows_bytesOut : Grows IOTotals.bytesOut := ⟨rfl, fun _ _ h => h.2⟩

theorem TotalsGrow.of_prefix (h : TotalsGrow ticks) (hpre : pre <+: ticks) : TotalsGrow pre :=
  h.sublist hpre.sublist

theorem everFolded_subset (ticks : List Tick) : everFolded ticks ⊆ reported ticks := by
  intro r hr
  obtain ⟨t, ht, hr⟩ := List.mem_flatMap.1 hr
  exact List.mem_flatMap.2 ⟨t, ht, List.mem_of_mem_filter hr⟩

/-- A reading of an earlier tick is at most one of a later tick. -/
theorem last_le_of_grow (hdir : Grows dir) (hgrow : TotalsGrow (pre ++ [t])) {before : List ConnectionRecord}
    (hbefore : before ⊆ reported pre) (hr : r ∈ t.snap.connections) :
    last (readings dir before) r.identity ≤ (dir r.ioTotals).toNat := by
  unfold last
  cases hl : GoMap.lastOf (readings dir before) r.identity with
  | none => exact Nat.zero_le _
  | some v =>
    obtain ⟨r', hr', hid, rfl⟩ := exists_of_lastOf_readings hl
    obtain ⟨t', ht', hmem⟩ := List.mem_flatMap.1 (hbefore hr')
    have hle := (List.pairwise_append.1 hgrow).2.2 t' ht' t (List.mem_singleton_self t) r' hmem r hr hid
    exact UInt64.le_iff_toNat_le.1 (hdir.2 r' r hle)

theorem lastOf_folded (dir : Direction) (t : Tick) (id : FlowIdentity) :
    GoMap.lastOf (readings dir t.folded) id =
      if (id.remoteAddr, id.remotePort) ∉ t.admitted then GoMap.lastOf (readings dir t.snap.connections) id
      else none := by
  have hfilter : readings dir t.folded =
      (readings dir t.snap.connections).filter fun e => (e.1.remoteAddr, e.1.remotePort) ∉ t.admitted := by
    rw [readings, readings, Tick.folded, List.filter_map]
    rfl
  rw [hfilter, GoMap.lastOf_filter fun id : FlowIdentity => decide ((id.remoteAddr, id.remotePort) ∉ t.admitted)]
  simp only [decide_eq_true_eq]

/-- The records of one connection in a tick are all folded or all shown, so the last of them that
was folded is the last that was reported. -/
theorem last_folded_le (hdir : Grows dir) (hgrow : TotalsGrow ticks) (id : FlowIdentity) :
    last (readings dir (everFolded ticks)) id ≤ last (readings dir (reported ticks)) id := by
  induction ticks using List.reverseRecOn with
  | nil => exact Nat.le_refl _
  | append_singleton ticks t ih =>
    have ih := ih (hgrow.of_prefix (List.prefix_append _ _))
    simp only [last, everFolded, reported, List.flatMap_append, List.flatMap_singleton, readings_append,
      GoMap.lastOf_append, lastOf_folded] at ih ⊢
    split
    · cases GoMap.lastOf (readings dir t.snap.connections) id with
      | some v => exact Nat.le_refl _
      | none => exact ih
    · rw [Option.none_or]
      refine ih.trans ?_
      cases hl : GoMap.lastOf (readings dir t.snap.connections) id with
      | none => exact Nat.le_refl _
      | some v =>
        obtain ⟨r, hr, rfl, rfl⟩ := exists_of_lastOf_readings hl
        exact last_le_of_grow hdir hgrow (List.Subset.refl _) hr

end Step

/-! ### Runs -/

section Run
variable {start : Int} {ticks : List Tick}

theorem overflow_step {pre : List Tick} {t : Tick} {dir : Direction} (hdir : Grows dir)
    (hgrow : TotalsGrow (pre ++ [t])) (hu : Unreturned pre t) :
    t.folded.foldl (fun o r => advanceOverflow o (dir (((MetricsState.run start pre).lastIo.lookup r.identity).getD {}))
      (dir r.ioTotals)) (UInt64.ofNat (sumLast (readings dir (everFolded pre)))) =
      UInt64.ofNat (sumLast (readings dir (everFolded (pre ++ [t])))) := by
  have hbase := fun r hr => baseline_eq (r := r) start hdir.1 hu hr
  have hle : ∀ r ∈ t.folded, dir (((MetricsState.run start pre).lastIo.lookup r.identity).getD {}) ≤ dir r.ioTotals := by
    intro r hr
    rw [UInt64.le_iff_toNat_le, hbase r hr]
    exact last_le_of_grow hdir hgrow (everFolded_subset pre) (List.mem_of_mem_filter hr)
  rw [advanced_eq hu.1 hbase hle, everFolded, everFolded, List.flatMap_append, List.flatMap_singleton]

/-- The overflow bytes are the last folded totals, summed up (modulo `2 ^ 64`). -/
theorem overflow_eq (start : Int) (hgrow : TotalsGrow ticks) (hu : ∀ pre t, pre ++ [t] <+: ticks → Unreturned pre t) :
    (MetricsState.run start ticks).overflowBytesIn =
      UInt64.ofNat (sumLast (readings IOTotals.bytesIn (everFolded ticks))) ∧
    (MetricsState.run start ticks).overflowBytesOut =
      UInt64.ofNat (sumLast (readings IOTotals.bytesOut (everFolded ticks))) := by
  induction ticks using List.reverseRecOn with
  | nil => exact ⟨rfl, rfl⟩
  | append_singleton ticks t ih =>
    have hpre : ticks <+: ticks ++ [t] := List.prefix_append _ _
    obtain ⟨hin, hout⟩ := ih (hgrow.of_prefix hpre) fun pre t' h => hu pre t' (h.trans hpre)
    have ht := hu ticks t (List.prefix_refl _)
    rw [run_concat, tick_eq]
    simp only [MetricsState.after, Tick.advanced, hin, hout]
    exact ⟨overflow_step grows_bytesIn hgrow ht, overflow_step grows_bytesOut hgrow ht⟩

theorem sumLast_folded_le {dir : Direction} (hdir : Grows dir) (hgrow : TotalsGrow ticks) :
    sumLast (readings dir (everFolded ticks)) ≤ sumLast (readings dir (reported ticks)) := by
  refine sumLast_le ?_ fun id _ => last_folded_le hdir hgrow id
  rw [map_fst_readings, map_fst_readings]
  exact List.map_subset _ (everFolded_subset ticks)

theorem sumLast_folded_mono {pre : List Tick} {t : Tick} {dir : Direction} (hdir : Grows dir)
    (hgrow : TotalsGrow (pre ++ [t])) :
    sumLast (readings dir (everFolded pre)) ≤ sumLast (readings dir (everFolded (pre ++ [t]))) := by
  have hsplit : everFolded (pre ++ [t]) = everFolded pre ++ t.folded := by simp [everFolded]
  rw [hsplit, readings_append]
  refine sumLast_le (by simp) fun id _ => ?_
  rw [last, last, GoMap.lastOf_append]
  cases hl : GoMap.lastOf (readings dir t.folded) id with
  | none => exact Nat.le_refl _
  | some v =>
    obtain ⟨r, hr, rfl, rfl⟩ := exists_of_lastOf_readings hl
    exact last_le_of_grow hdir hgrow (everFolded_subset pre) (List.mem_of_mem_filter hr)

end Run

/-- The overflow bytes of a state are no more than what `ticks` reported. -/
def OverflowCovered (ticks : List Tick) (s : MetricsState) : Prop :=
  s.overflowBytesIn.toNat ≤ sumLast (readings IOTotals.bytesIn (reported ticks)) ∧
  s.overflowBytesOut.toNat ≤ sumLast (readings IOTotals.bytesOut (reported ticks))

/-- As long as every folded connection was folded in the tick before or never, and what was folded
fits a counter, no connection puts more into the overflow than it carried, and the overflow bytes
never go back. -/
theorem overflow_counts_once (start : Int) (ticks : List Tick) (hgrow : TotalsGrow ticks)
    (hcond : ∀ pre t, pre ++ [t] <+: ticks → Unreturned pre t ∧ FoldedFits (pre ++ [t])) :
    ∀ pre t, pre ++ [t] <+: ticks →
      OverflowCovered (pre ++ [t]) (MetricsState.run start (pre ++ [t])) ∧
      (MetricsState.run start pre).overflowBytesIn ≤ (MetricsState.run start (pre ++ [t])).overflowBytesIn ∧
      (MetricsState.run start pre).overflowBytesOut ≤ (MetricsState.run start (pre ++ [t])).overflowBytesOut := by
  intro pre t hpre
  have hpre' : pre <+: ticks := (List.prefix_append pre [t]).trans hpre
  have hgrow' := hgrow.of_prefix hpre
  obtain ⟨hin, hout⟩ := overflow_eq start hgrow' fun p t' h => (hcond p t' (h.trans hpre)).1
  obtain ⟨hin', hout'⟩ := overflow_eq start (hgrow.of_prefix hpre') fun p t' h => (hcond p t' (h.trans hpre')).1
  obtain ⟨hfitIn, hfitOut⟩ := (hcond pre t hpre).2
  have hmonoIn := sumLast_folded_mono grows_bytesIn hgrow'
  have hmonoOut := sumLast_folded_mono grows_bytesOut hgrow'
  have hsize : UInt64.size = 2 ^ 64 := rfl
  rw [OverflowCovered, hin, hout, hin', hout', UInt64.le_iff_toNat_le, UInt64.le_iff_toNat_le,
    UInt64.toNat_ofNat_of_lt' (by omega), UInt64.toNat_ofNat_of_lt' (by omega), UInt64.toNat_ofNat_of_lt' (by omega),
    UInt64.toNat_ofNat_of_lt' (by omega)]
  exact ⟨⟨sumLast_folded_le grows_bytesIn hgrow', sumLast_folded_le grows_bytesOut hgrow'⟩, hmonoIn, hmonoOut⟩

/-- A connection to another peer that has received `bytesIn`. -/
def rec80 (bytesIn : UInt64) : ConnectionRecord :=
  { rec443 51001 with remotePort := 80, bytesInTotal := bytesIn }

/-- It is folded in two ticks in a row. -/
def stayingRun : List Tick := [tickOf [rec443 51000, rec80 100] 1, tickOf [rec443 51000, rec80 150] 1]

theorem staying_covered : OverflowCovered stayingRun (MetricsState.run 0 stayingRun) := by
  refine (overflow_counts_once 0 stayingRun (by unfold TotalsGrow; decide) ?_ [_] _ (List.prefix_refl _)).1
  intro pre t h
  rcases pre with _ | ⟨t', _ | ⟨t'', rest⟩⟩
  · obtain ⟨rfl, -⟩ := List.cons_prefix_cons.1 h
    refine ⟨⟨by decide, fun r _ => .inl nofun⟩, ?_⟩
    unfold FoldedFits
    decide
  · obtain ⟨rfl, hrest⟩ := List.cons_prefix_cons.1 h
    obtain ⟨rfl, -⟩ := List.cons_prefix_cons.1 hrest
    refine ⟨⟨by decide, fun r hr => .inr ⟨_, rfl, ?_⟩⟩, ?_⟩
    · revert r
      decide
    · unfold FoldedFits
      decide
  · have hlen := h.length_le
    simp [stayingRun] at hlen

/-- The connection to the first peer ends and a new one begins; in between the other peer is shown. -/
def returningRun : List Tick :=
  [tickOf [rec443 51000, rec80 100] 1, tickOf [rec80 100] 1, tickOf [rec443 51002, rec80 100] 1]

theorem returning_counted_twice : TotalsGrow returningRun ∧
    ¬ OverflowCovered returningRun (MetricsState.run 0 returningRun) := by
  have hover : (MetricsState.run 0 returningRun).overflowBytesIn = 200 := by decide +kernel
  have hsum : sumLast (readings IOTotals.bytesIn (reported returningRun)) = 100 := by decide
  refine ⟨by unfold TotalsGrow; decide, fun h => ?_⟩
  have hle := h.1
  rw [hover, hsum] at hle
  exact absurd hle (by decide)

end Trafficmon
