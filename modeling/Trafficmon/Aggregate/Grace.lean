import Trafficmon.Aggregate.Join

/-!
# Presence across joins

For a sequence of joins on one aggregator, a key's place in snapshot `i` is decided by the latest
join `j ≤ i` that reported it: present iff `j` is no longer ago than the grace period, a live record
iff `j = i`, and otherwise snapshot `j`'s record marked vanished (`records_of_latest`). Its
`firstSeen` is the time of the first join of the run of snapshots it has been in (`firstSeen_spec`).
-/

namespace Trafficmon
open GoTime

/-- The arguments of one `join`, with the orders its two ranges over `flows` take. -/
structure JoinCall where
  conns : List Connection
  flows : GoMap FlowKey FlowStats
  o₁ : MapOrder FlowKey FlowStats
  o₂ : MapOrder FlowKey FlowStats
  now : Int

def aggregatorBefore (calls : Nat → JoinCall) : Nat → Aggregator
  | 0 => {}
  | i + 1 =>
    ((aggregatorBefore calls i).join (calls i).conns (calls i).flows (calls i).o₁ (calls i).o₂ (calls i).now).1

def snapshotAt (calls : Nat → JoinCall) (i : Nat) : Snapshot :=
  ((aggregatorBefore calls i).join (calls i).conns (calls i).flows (calls i).o₁ (calls i).o₂ (calls i).now).2

def Present (calls : Nat → JoinCall) (i : Nat) (κ : ConnKey) : Prop :=
  ∃ r ∈ (snapshotAt calls i).connections, r.key = κ

/-- `j` is the latest join up to `i` that reported `κ`. -/
def LatestReport (calls : Nat → JoinCall) (i : Nat) (κ : ConnKey) (j : Nat) : Prop :=
  j ≤ i ∧ Reported (calls j).conns (calls j).flows κ ∧
    ∀ m, j < m → m ≤ i → ¬ Reported (calls m).conns (calls m).flows κ

variable {calls : Nat → JoinCall} {i j : Nat} {κ : ConnKey} {r : ConnectionRecord}

abbrev recordsAt (calls : Nat → JoinCall) (i : Nat) : Records := (aggregatorBefore calls (i + 1)).records

/-! ### Records and snapshots -/

theorem keysOk_before (calls : Nat → JoinCall) (i : Nat) : KeysOk (aggregatorBefore calls i).records := by
  induction i with
  | zero => intro κ r h; simp [aggregatorBefore] at h
  | succ i ih => exact ih.join

theorem mem_snapshotAt : r ∈ (snapshotAt calls i).connections ↔ (recordsAt calls i).lookup r.key = some r := by
  show r ∈ sortedRecords (recordsAt calls i) ↔ _
  rw [mem_sortedRecords]
  refine ⟨fun ⟨κ, h⟩ => ?_, fun h => ⟨_, h⟩⟩
  rw [keysOk_before calls (i + 1) κ r h]
  exact h

theorem present_iff : Present calls i κ ↔ ∃ r, (recordsAt calls i).lookup κ = some r := by
  constructor
  · rintro ⟨r, hr, rfl⟩
    exact ⟨r, mem_snapshotAt.1 hr⟩
  · rintro ⟨r, hr⟩
    have hkey := keysOk_before calls (i + 1) κ r hr
    exact ⟨r, mem_snapshotAt.2 (by rw [hkey]; exact hr), hkey⟩

theorem nodup_keys (m : Records) (h : KeysOk m) : ((sortedRecords m).map ConnectionRecord.key).Nodup := by
  have hperm : ((sortedRecords m).map ConnectionRecord.key).Perm (m.entries.map fun e => e.2.key) := by
    have hsort := (List.perm_insertionSort (fun a b : ConnectionRecord => ¬ b.less a) (m.entries.map (·.2))).map
      ConnectionRecord.key
    rw [List.map_map] at hsort
    exact hsort
  have hkeys : (m.entries.map fun e => e.2.key) = m.keys :=
    List.map_congr_left fun e he => h e.1 e.2 (GoMap.mem_entries_iff.1 he)
  rw [hperm.nodup_iff, hkeys]
  exact m.keys_nodup

/-! ### One join -/

theorem records_of_reported (h : Reported (calls i).conns (calls i).flows κ) :
    ∃ r, (recordsAt calls i).lookup κ = some r ∧ Fresh (aggregatorBefore calls i).records (calls i).now κ r :=
  join_of_reported h

theorem records_of_not_reported (h : ¬ Reported (calls i).conns (calls i).flows κ) :
    (recordsAt calls i).lookup κ = carried (aggregatorBefore calls i).records (calls i).now κ :=
  join_of_not_reported h

/-! ### Runs of joins -/

theorem records_of_no_report (h : ∀ m ≤ i, ¬ Reported (calls m).conns (calls m).flows κ) :
    (recordsAt calls i).lookup κ = none := by
  induction i with
  | zero =>
    rw [records_of_not_reported (h 0 le_rfl)]
    rfl
  | succ i ih =>
    rw [records_of_not_reported (h (i + 1) le_rfl), carried, ih fun m hm => h m (by omega)]
    rfl

/-- The latest report decides: within the grace period the record of that join, marked vanished when
it was an earlier one; past it nothing. -/
theorem records_of_latest (hmono : ∀ i j, i ≤ j → (calls i).now ≤ (calls j).now) (h : LatestReport calls i κ j) :
    ∃ r, (recordsAt calls j).lookup κ = some r ∧ r.vanished = false ∧ r.lastPolled = (calls j).now ∧
      (recordsAt calls i).lookup κ = if (calls i).now - gracePeriod ≤ (calls j).now then
        some { r with vanished := decide (j < i) } else none := by
  obtain ⟨hji, hrep, hnot⟩ := h
  obtain ⟨r, hr, hfresh⟩ := records_of_reported hrep
  refine ⟨r, hr, hfresh.vanished, hfresh.lastPolled, ?_⟩
  induction i, hji using Nat.le_induction with
  | base =>
    have hg : (calls j).now - gracePeriod ≤ (calls j).now := by simp [gracePeriod, second]
    have hself : { r with vanished := decide (j < j) } = r := by
      rw [decide_eq_false (lt_irrefl j), ← hfresh.vanished]
    rw [if_pos hg, hr, hself]
  | succ i hji ih =>
    have hle : (calls i).now ≤ (calls (i + 1)).now := hmono i (i + 1) (Nat.le_succ i)
    rw [records_of_not_reported (hnot (i + 1) (by omega) le_rfl), carried, ih fun m h1 h2 => hnot m h1 (by omega)]
    -- what survived up to `i` still has `lastPolled = now_j`, so the cutoff alone decides
    by_cases hi : (calls i).now - gracePeriod ≤ (calls j).now
    · by_cases hi' : (calls (i + 1)).now - gracePeriod ≤ (calls j).now
      · simp [hi, hi', Option.filter, hfresh.lastPolled, Nat.lt_succ_of_le hji]
      · simp [hi, hi', Option.filter, hfresh.lastPolled]
    · have hi' : ¬ (calls (i + 1)).now - gracePeriod ≤ (calls j).now := by omega
      simp [hi, hi']

theorem exists_latestReport (h : ∃ m ≤ i, Reported (calls m).conns (calls m).flows κ) :
    ∃ j, LatestReport calls i κ j := by
  classical
  obtain ⟨m, hm, hrep⟩ := h
  refine ⟨Nat.findGreatest (fun m => Reported (calls m).conns (calls m).flows κ) i,
    Nat.findGreatest_le i, Nat.findGreatest_spec (P := fun m => Reported (calls m).conns (calls m).flows κ) hm hrep,
    fun m' h1 h2 => Nat.findGreatest_is_greatest h1 h2⟩

/-- `firstSeen` is the time of the first join of the unbroken run of snapshots the key is in. -/
theorem firstSeen_spec (hr : (recordsAt calls i).lookup κ = some r) :
    ∃ f ≤ i, r.firstSeen = (calls f).now ∧ (∀ m, f ≤ m → m ≤ i → Present calls m κ) ∧
      ∀ m, m + 1 = f → ¬ Present calls m κ := by
  induction i generalizing r with
  | zero =>
    by_cases hrep : Reported (calls 0).conns (calls 0).flows κ
    · obtain ⟨r', hr', hfresh⟩ := records_of_reported hrep
      obtain rfl := Option.some.inj (hr'.symm.trans hr)
      refine ⟨0, le_rfl, hfresh.firstSeen, fun m _ hm => ?_, fun m hm => by omega⟩
      rw [Nat.le_zero.1 hm]
      exact present_iff.2 ⟨_, hr⟩
    · rw [records_of_not_reported hrep] at hr
      cases hr
  | succ i ih =>
    have hpres : Present calls (i + 1) κ := present_iff.2 ⟨r, hr⟩
    -- the run goes on exactly when the previous snapshot has the key
    have hext : ∀ r', (recordsAt calls i).lookup κ = some r' → r.firstSeen = r'.firstSeen →
        ∃ f ≤ i + 1, r.firstSeen = (calls f).now ∧ (∀ m, f ≤ m → m ≤ i + 1 → Present calls m κ) ∧
          ∀ m, m + 1 = f → ¬ Present calls m κ := by
      intro r' hr' hfs
      obtain ⟨f, hf, h1, h2, h3⟩ := ih hr'
      refine ⟨f, by omega, hfs.trans h1, fun m hm1 hm2 => ?_, h3⟩
      rcases Nat.lt_or_ge i m with hlt | hge
      · rw [show m = i + 1 by omega]; exact hpres
      · exact h2 m hm1 hge
    by_cases hrep : Reported (calls (i + 1)).conns (calls (i + 1)).flows κ
    · obtain ⟨r', hr', hfresh⟩ := records_of_reported hrep
      obtain rfl := Option.some.inj (hr'.symm.trans hr)
      cases hprev : (recordsAt calls i).lookup κ with
      | some p =>
        exact hext p hprev (by rw [hfresh.firstSeen, firstSeenOf, hprev]; rfl)
      | none =>
        refine ⟨i + 1, le_rfl, by rw [hfresh.firstSeen, firstSeenOf, hprev]; rfl, fun m h1 h2 => ?_, fun m hm => ?_⟩
        · rw [show m = i + 1 by omega]; exact hpres
        · rw [show m = i by omega, present_iff, hprev]
          simp
    · rw [records_of_not_reported hrep] at hr
      obtain ⟨p, hp, rfl⟩ := Option.map_eq_some_iff.1 hr
      exact hext p (Option.filter_eq_some_iff.1 hp).1 rfl

/-- For joins at nondecreasing times: each key is in a snapshot at most once; it is there iff the
latest join to report it is within the grace period; and the record is live iff that join is this
one, dates from the start of its run of snapshots, and is otherwise that join's record. -/
theorem grace_presence_exact (calls : Nat → JoinCall)
    (hmono : ∀ i j, i ≤ j → (calls i).now ≤ (calls j).now) (i : Nat) :
    ((snapshotAt calls i).connections.map ConnectionRecord.key).Nodup ∧
    ∀ κ, (Present calls i κ ↔
        ∃ j, LatestReport calls i κ j ∧ (calls i).now - gracePeriod ≤ (calls j).now) ∧
      ∀ r ∈ (snapshotAt calls i).connections, r.key = κ → ∀ j, LatestReport calls i κ j →
        (r.vanished = true ↔ j < i) ∧
        (∃ f ≤ i, r.firstSeen = (calls f).now ∧ (∀ m, f ≤ m → m ≤ i → Present calls m κ) ∧
          ∀ m, m + 1 = f → ¬ Present calls m κ) ∧
        (r.vanished = true →
          ∃ r' ∈ (snapshotAt calls j).connections, r'.key = κ ∧ r = { r' with vanished := true }) := by
  refine ⟨nodup_keys _ (keysOk_before calls (i + 1)), fun κ => ⟨?_, ?_⟩⟩
  · rw [present_iff]
    constructor
    · rintro ⟨r, hr⟩
      have hsome : ∃ m ≤ i, Reported (calls m).conns (calls m).flows κ := by
        by_contra hno
        rw [records_of_no_report fun m hm hrep => hno ⟨m, hm, hrep⟩] at hr
        cases hr
      obtain ⟨j, hj⟩ := exists_latestReport hsome
      obtain ⟨p, -, -, -, hi⟩ := records_of_latest hmono hj
      refine ⟨j, hj, ?_⟩
      by_contra hold
      rw [hi, if_neg hold] at hr
      cases hr
    · rintro ⟨j, hj, hg⟩
      obtain ⟨p, -, -, -, hi⟩ := records_of_latest hmono hj
      exact ⟨_, hi.trans (if_pos hg)⟩
  · rintro r hmem rfl j hj
    have hr := mem_snapshotAt.1 hmem
    obtain ⟨p, hp, hpv, -, hi⟩ := records_of_latest hmono hj
    obtain rfl : { p with vanished := decide (j < i) } = r := by
      rw [hi] at hr
      split at hr
      · exact Option.some.inj hr
      · cases hr
    have hpkey : p.key = _ := keysOk_before calls (j + 1) _ p hp
    refine ⟨decide_eq_true_iff, firstSeen_spec hr, fun hv => ⟨p, mem_snapshotAt.2 ?_, hpkey, ?_⟩⟩
    · rw [hpkey]; exact hp
    · simp only at hv; rw [hv]

/-- A connection polled at second 0 and never again, one join a second. -/
def polledOnce (i : Nat) : JoinCall := ⟨if i = 0 then [conn443] else [], ∅, .held, .held, i * second⟩

theorem polledOnce_present_three : Present polledOnce 3 (connKeyFor conn443) := by
  have hmono : ∀ i j, i ≤ j → (polledOnce i).now ≤ (polledOnce j).now := by
    intro i j hij
    simp only [polledOnce, second]
    omega
  have hiff := ((grace_presence_exact polledOnce hmono 3).2 (connKeyFor conn443)).1
  refine hiff.2 ⟨0, ⟨by decide, .inl ⟨conn443, by decide, rfl⟩, ?_⟩, by decide⟩
  rintro m hm - (⟨c, hc, -⟩ | ⟨fk, st, hf, -⟩)
  · simp [polledOnce, Nat.pos_iff_ne_zero.1 hm] at hc
  · cases hf

end Trafficmon
