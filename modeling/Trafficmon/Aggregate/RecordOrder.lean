import Mathlib.Data.String.Basic
import Trafficmon.Aggregate.Grace
import Trafficmon.Lib.SortBy

/-!
# The order of the records

The records come out of a map, and `less` is there to give them an order that does not depend on it.
It compares the PID, the remote endpoint, the local port and the protocol (`rank`), but not the local
address, so two records tie when they differ in nothing else: `OneOrder` holds iff no two do.
-/

namespace Trafficmon

namespace ConnectionRecord

/-- What `less` compares. -/
def rank (r : ConnectionRecord) : Int ×ₗ String ×ₗ Nat ×ₗ Nat ×ₗ String :=
  toLex (r.pid.toInt, toLex (r.remoteAddr, toLex (r.remotePort.toNat, toLex (r.localPort.toNat, r.proto))))

theorem less_ranks : SortBy.Ranks less rank := by
  intro r o
  simp only [less, rank, Prod.Lex.toLex_lt_toLex, ← Int32.lt_iff_toInt_lt, ← UInt16.lt_iff_toNat_lt, Int32.toInt_inj,
    UInt16.toNat_inj]
  by_cases hpid : r.pid = o.pid
  · by_cases hra : r.remoteAddr = o.remoteAddr
    · by_cases hrp : r.remotePort = o.remotePort
      · by_cases hlp : r.localPort = o.localPort <;> simp [hpid, hra, hrp, hlp]
      · simp [hpid, hra, hrp]
    · simp [hpid, hra]
  · simp [hpid]

/-- The two records are of different connections, and only the local address tells. -/
def Twins (r o : ConnectionRecord) : Prop := r.localAddr ≠ o.localAddr ∧ { r.key with localAddr := o.localAddr } = o.key

instance (r o : ConnectionRecord) : Decidable (Twins r o) := inferInstanceAs (Decidable (_ ∧ _))

theorem twins_iff {r o : ConnectionRecord} : r.Twins o ↔ r.key ≠ o.key ∧ r.rank = o.rank := by
  have hrank : r.rank = o.rank ↔ r.pid = o.pid ∧ r.remoteAddr = o.remoteAddr ∧ r.remotePort = o.remotePort ∧
      r.localPort = o.localPort ∧ r.proto = o.proto := by
    simp only [rank, toLex_inj, Prod.mk.injEq, Int32.toInt_inj, UInt16.toNat_inj]
  simp only [Twins, key, ne_eq, ConnKey.mk.injEq, hrank, true_and]
  tauto

end ConnectionRecord

/-- A list that a snapshot of the records `m` may have: `sort.Slice` over the values, ranged over in
some order. -/
def SnapshotList (m : Records) (l : List ConnectionRecord) : Prop :=
  ∃ o : MapOrder ConnKey ConnectionRecord, SortBy.Sorted ConnectionRecord.less ((o.list m).map (·.2)) l

/-- On the records of `m`, `less` is a strict total order. -/
structure LessTotal (m : Records) : Prop where
  irrefl : ∀ r : ConnectionRecord, ¬ r.less r
  trans : ∀ a b c : ConnectionRecord, a.less b → b.less c → a.less c
  total : ∀ κ r κ' r', m.lookup κ = some r → m.lookup κ' = some r' → r.key ≠ r'.key →
    (r.less r' ∧ ¬ r'.less r) ∨ (r'.less r ∧ ¬ r.less r')

/-- The snapshot of `m` is one list. -/
def OneOrder (m : Records) : Prop := ∀ l l', SnapshotList m l → SnapshotList m l' → l = l'

def NoTwins (m : Records) : Prop := ∀ κ r κ' r', m.lookup κ = some r → m.lookup κ' = some r' → ¬ r.Twins r'

section
variable {m : Records} {l : List ConnectionRecord} {r : ConnectionRecord}

theorem sortedRecords_snapshotList (m : Records) : SnapshotList m (sortedRecords m) :=
  ⟨.held, ConnectionRecord.less_ranks.sorted_stableSort (m.entries.map (·.2))⟩

theorem SnapshotList.perm (h : SnapshotList m l) : l.Perm (m.entries.map (·.2)) := by
  obtain ⟨o, hperm, -⟩ := h
  exact hperm.trans ((o.perm m).map (·.2))

theorem snapshotList_iff : SnapshotList m l ↔ SortBy.Sorted ConnectionRecord.less (m.entries.map (·.2)) l :=
  ⟨fun h => ⟨h.perm, h.choose_spec.2⟩, fun h => ⟨.held, h⟩⟩

theorem mem_values : r ∈ m.entries.map (·.2) ↔ ∃ κ, m.lookup κ = some r := by
  rw [← mem_sortedRecords, sortedRecords, List.mem_insertionSort]

theorem nodup_values (h : KeysOk m) : (m.entries.map (·.2)).Nodup :=
  ((sortedRecords_snapshotList m).perm.nodup_iff).1 (List.Nodup.of_map _ (nodup_keys m h))

theorem lessTotal_iff : LessTotal m ↔ NoTwins m := by
  have hrank := ConnectionRecord.less_ranks
  constructor
  · intro h κ r κ' r' hr hr' htwins
    obtain ⟨hkey, htie⟩ := ConnectionRecord.twins_iff.1 htwins
    have hxor := h.total κ r κ' r' hr hr' hkey
    rw [hrank, hrank, htie] at hxor
    rcases hxor with ⟨hlt, -⟩ | ⟨hlt, -⟩ <;> exact lt_irrefl _ hlt
  · intro h
    refine ⟨fun r => by rw [hrank]; exact lt_irrefl _, fun a b c => ?_, fun κ r κ' r' hr hr' hkey => ?_⟩
    · rw [hrank, hrank, hrank]
      exact lt_trans
    · rw [hrank, hrank]
      rcases lt_trichotomy r.rank r'.rank with hlt | heq | hgt
      · exact .inl ⟨hlt, hlt.asymm⟩
      · exact absurd (ConnectionRecord.twins_iff.2 ⟨hkey, heq⟩) (h κ r κ' r' hr hr')
      · exact .inr ⟨hgt, hgt.asymm⟩

/-- The snapshot is one list, whatever the order of the range, iff no two records tie. -/
theorem oneOrder_iff (hkeys : KeysOk m) : OneOrder m ↔ NoTwins m := by
  constructor
  · intro h κ r κ' r' hr hr' htwins
    obtain ⟨hkey, htie⟩ := ConnectionRecord.twins_iff.1 htwins
    have hne : r ≠ r' := fun he => hkey (congrArg ConnectionRecord.key he)
    obtain ⟨l₁, l₂, h₁, h₂, hdiff⟩ := ConnectionRecord.less_ranks.exists_sorted_ne (nodup_values hkeys)
      (mem_values.2 ⟨κ, hr⟩) (mem_values.2 ⟨κ', hr'⟩) hne htie
    exact hdiff (h l₁ l₂ (snapshotList_iff.2 h₁) (snapshotList_iff.2 h₂))
  · intro h l l' hl hl'
    refine ConnectionRecord.less_ranks.eq_of_sorted (fun r hr r' hr' htie => ?_) (snapshotList_iff.1 hl)
      (snapshotList_iff.1 hl')
    obtain ⟨κ, hr⟩ := mem_values.1 hr
    obtain ⟨κ', hr'⟩ := mem_values.1 hr'
    by_contra hne
    have hkey : r.key ≠ r'.key := by
      intro hk
      rw [← hkeys κ r hr] at hr
      rw [← hkeys κ' r' hr', ← hk, hr] at hr'
      exact hne (Option.some.inj hr')
    exact h κ r κ' r' hr hr' (ConnectionRecord.twins_iff.2 ⟨hkey, htie⟩)

end

end Trafficmon
