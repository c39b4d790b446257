import Mathlib.Algebra.GroupWithZero.Nat
import Trafficmon.Aggregate.Join
import Trafficmon.Lib.Rollup

/-!
# Rows (`aggregate/rows.go`)

The table's rows roll the records of a snapshot up by a text key, through an index from key to row.
The keys join fields with `|`; since addresses and ports have none, a key determines the fields it
was made of, whatever the process is called (`rowKey_inj`). So the rows partition the records by
their identity at the grouping, and a row's counters are those of its members.
-/

namespace Trafficmon
open GoTime

inductive Grouping
  | none
  | byPID
  | byProcessName
deriving DecidableEq, Repr

def Grouping.next : Grouping → Grouping
  | .none => .byPID
  | .byPID => .byProcessName
  | .byProcessName => .none

structure Row where
  key : String
  label : String
  pid : Int32 := 0
  localAddr : String := ""
  localPort : UInt16 := 0
  remoteAddr : String
  remotePort : UInt16
  proto : String := ""
  state : String := ""
  hostname : String
  iface : String
  bytesInTotal : UInt64 := 0
  bytesOutTotal : UInt64 := 0
  rateInBps : Float64 := 0
  rateOutBps : Float64 := 0
  connections : Nat := 0
  lastSeen : Int := 0
  firstSeen : Int := 0
  vanished : Bool := false
deriving DecidableEq, Inhabited, Repr

/-- Adds a record to the row it rolls into. -/
def Row.accumulate (r : Row) (c : ConnectionRecord) : Row :=
  { r with
    bytesInTotal := r.bytesInTotal + c.bytesInTotal
    bytesOutTotal := r.bytesOutTotal + c.bytesOutTotal
    rateInBps := r.rateInBps + c.rateInBps
    rateOutBps := r.rateOutBps + c.rateOutBps
    connections := r.connections + 1
    lastSeen := if r.lastSeen < c.lastSeen then c.lastSeen else r.lastSeen
    firstSeen := if r.firstSeen = 0 ∨ c.firstSeen < r.firstSeen then c.firstSeen else r.firstSeen }

def rollup (records : List ConnectionRecord) (key : ConnectionRecord → String) (seed : ConnectionRecord → String → Row) :
    List Row :=
  Rollup.rollup key seed Row.accumulate records

/-- `strconv.Itoa`. -/
def itoa (n : Int) : String :=
  String.ofList (if n < 0 then '-' :: Nat.toDigits 10 n.natAbs else Nat.toDigits 10 n.natAbs)

def connectionKey (c : ConnectionRecord) : String :=
  itoa c.pid.toInt ++ "|" ++ c.localAddr ++ "|" ++ itoa c.localPort.toNat ++
    "|" ++ c.remoteAddr ++ "|" ++ itoa c.remotePort.toNat ++ "|" ++ c.proto

def pidRemoteKey (c : ConnectionRecord) : String :=
  itoa c.pid.toInt ++ "|" ++ c.remoteAddr ++ "|" ++ itoa c.remotePort.toNat

def processRemoteKey (c : ConnectionRecord) : String :=
  c.processName ++ "|" ++ c.remoteAddr ++ "|" ++ itoa c.remotePort.toNat

def ungroupedRow (c : ConnectionRecord) (key : String) : Row :=
  { key := key
    label := c.processName
    pid := c.pid
    localAddr := c.localAddr
    localPort := c.localPort
    remoteAddr := c.remoteAddr
    remotePort := c.remotePort
    proto := c.proto
    state := c.state
    hostname := c.hostname
    iface := c.iface
    vanished := c.vanished }

def pidRow (c : ConnectionRecord) (key : String) : Row :=
  { key := key
    label := c.processName
    pid := c.pid
    localAddr := c.localAddr
    remoteAddr := c.remoteAddr
    remotePort := c.remotePort
    hostname := c.hostname
    iface := c.iface }

def processRow (c : ConnectionRecord) (key : String) : Row :=
  { key := key
    label := c.processName
    remoteAddr := c.remoteAddr
    remotePort := c.remotePort
    hostname := c.hostname
    iface := c.iface }

def rowsUngrouped (snap : Snapshot) : List Row := rollup snap.connections connectionKey ungroupedRow

def rowsByPID (snap : Snapshot) : List Row := rollup snap.connections pidRemoteKey pidRow

def rowsByProcessName (snap : Snapshot) : List Row := rollup snap.connections processRemoteKey processRow

/-- `Rows`. -/
def rows (snap : Snapshot) : Grouping → List Row
  | .none => rowsUngrouped snap
  | .byPID => rowsByPID snap
  | .byProcessName => rowsByProcessName snap

/-- The key of the row a record rolls into. -/
def rowKey : Grouping → ConnectionRecord → String
  | .none => connectionKey
  | .byPID => pidRemoteKey
  | .byProcessName => processRemoteKey

def seedRow : Grouping → ConnectionRecord → String → Row
  | .none => ungroupedRow
  | .byPID => pidRow
  | .byProcessName => processRow

/-- What makes two records one row. -/
inductive Identity
  | connection (key : ConnKey)
  | pidRemote (pid : Int32) (remoteAddr : String) (remotePort : UInt16)
  | processRemote (processName remoteAddr : String) (remotePort : UInt16)
deriving DecidableEq, Repr

def identity : Grouping → ConnectionRecord → Identity
  | .none, c => .connection c.key
  | .byPID, c => .pidRemote c.pid c.remoteAddr c.remotePort
  | .byProcessName, c => .processRemote c.processName c.remoteAddr c.remotePort

/-! ### Keys -/

/-- The texts that a key has between its bars have none themselves. -/
structure BarFree (c : ConnectionRecord) : Prop where
  localAddr : '|' ∉ c.localAddr.toList
  remoteAddr : '|' ∉ c.remoteAddr.toList
  proto : '|' ∉ c.proto.toList

theorem digit_ne {n : Nat} {x : Char} (hx : x = '|' ∨ x = '-') : x ∉ Nat.toDigits 10 n := by
  intro h
  obtain ⟨d, hd, hc⟩ := Addr.exists_digit_of_mem (by decide) h
  have hall : ∀ d < 10, d.digitChar ≠ '|' ∧ d.digitChar ≠ '-' := by decide
  rcases hx with rfl | rfl
  · exact (hall d hd).1 hc.symm
  · exact (hall d hd).2 hc.symm

theorem bar_not_mem_itoa (n : Int) : '|' ∉ (itoa n).toList := by
  have hdigits : '|' ∉ Nat.toDigits 10 n.natAbs := digit_ne (.inl rfl)
  rw [itoa, String.toList_ofList]
  split
  · simpa using hdigits
  · exact hdigits

theorem itoa_injective {m n : Int} (h : itoa m = itoa n) : m = n := by
  have hchars := congrArg String.toList h
  rw [itoa, itoa, String.toList_ofList, String.toList_ofList] at hchars
  have hminus : ∀ k j : Nat, '-' :: Nat.toDigits 10 k ≠ Nat.toDigits 10 j := by
    intro k j he
    exact digit_ne (.inr rfl) (he ▸ List.mem_cons_self)
  have hdigits : ∀ {k j : Nat}, Nat.toDigits 10 k = Nat.toDigits 10 j → k = j :=
    fun he => Addr.toDigits_injective (by decide) (by decide) he
  split at hchars <;> split at hchars
  · have := hdigits (List.cons.inj hchars).2
    omega
  · exact absurd hchars (hminus _ _)
  · exact absurd hchars.symm (hminus _ _)
  · have := hdigits hchars
    omega

/-- The last bar splits a key. -/
theorem split_last_bar {a b a' b' : String} (h : a ++ "|" ++ b = a' ++ "|" ++ b') (hb : '|' ∉ b.toList)
    (hb' : '|' ∉ b'.toList) : a = a' ∧ b = b' := by
  have hchars := congrArg (fun s => s.toList.reverse) h
  simp only [String.toList_append, List.reverse_append] at hchars
  have hsplit : ∀ (x y : List Char), '|' ∉ x → (x.reverse ++ ('|' :: y)).takeWhile (· ≠ '|') = x.reverse := by
    intro x y hx
    have hpos : ∀ c ∈ x.reverse, decide (c ≠ '|') = true := by
      intro c hc
      rw [decide_eq_true_eq]
      rintro rfl
      exact hx (List.mem_reverse.1 hc)
    rw [List.takeWhile_append_of_pos hpos]
    simp
  have hlast : b.toList.reverse = b'.toList.reverse := by
    have htake := congrArg (List.takeWhile (· ≠ '|')) hchars
    exact (hsplit _ _ hb).symm.trans (htake.trans (hsplit _ _ hb'))
  rw [hlast] at hchars
  have hfirst := List.append_cancel_left hchars
  simp only [String.reduceToList, List.reverse_cons, List.reverse_nil, List.nil_append, List.singleton_append,
    List.cons.injEq, true_and] at hfirst
  exact ⟨String.toList_inj.1 (List.reverse_injective hfirst), String.toList_inj.1 (List.reverse_injective hlast)⟩

theorem port_inj {p q : UInt16} (h : itoa p.toNat = itoa q.toNat) : p = q := by
  have := itoa_injective h
  exact UInt16.toNat_inj.1 (by omega)

theorem pid_inj {p q : Int32} (h : itoa p.toInt = itoa q.toInt) : p = q := Int32.toInt_inj.1 (itoa_injective h)

/-- Records have one row key iff they have one identity, whatever their process is called. -/
theorem rowKey_inj (g : Grouping) {c d : ConnectionRecord} (hc : BarFree c) (hd : BarFree d) :
    rowKey g c = rowKey g d ↔ identity g c = identity g d := by
  have hbar := bar_not_mem_itoa
  cases g with
  | none =>
    simp only [rowKey, identity, Identity.connection.injEq]
    constructor
    · intro h
      obtain ⟨h, hproto⟩ := split_last_bar h hc.proto hd.proto
      obtain ⟨h, hrp⟩ := split_last_bar h (hbar _) (hbar _)
      obtain ⟨h, hra⟩ := split_last_bar h hc.remoteAddr hd.remoteAddr
      obtain ⟨h, hlp⟩ := split_last_bar h (hbar _) (hbar _)
      obtain ⟨hpid, hla⟩ := split_last_bar h hc.localAddr hd.localAddr
      rw [ConnectionRecord.key, ConnectionRecord.key, pid_inj hpid, hla, port_inj hlp, hra, port_inj hrp, hproto]
    · intro h
      obtain ⟨hpid, hla, hlp, hra, hrp, hproto⟩ := ConnKey.mk.inj h
      rw [connectionKey, connectionKey, hpid, hla, hlp, hra, hrp, hproto]
  | byPID =>
    simp only [rowKey, identity, Identity.pidRemote.injEq]
    constructor
    · intro h
      obtain ⟨h, hrp⟩ := split_last_bar h (hbar _) (hbar _)
      obtain ⟨hpid, hra⟩ := split_last_bar h hc.remoteAddr hd.remoteAddr
      exact ⟨pid_inj hpid, hra, port_inj hrp⟩
    · rintro ⟨hpid, hra, hrp⟩
      rw [pidRemoteKey, pidRemoteKey, hpid, hra, hrp]
  | byProcessName =>
    simp only [rowKey, identity, Identity.processRemote.injEq]
    constructor
    · intro h
      obtain ⟨h, hrp⟩ := split_last_bar h (hbar _) (hbar _)
      obtain ⟨hname, hra⟩ := split_last_bar h hc.remoteAddr hd.remoteAddr
      exact ⟨hname, hra, port_inj hrp⟩
    · rintro ⟨hname, hra, hrp⟩
      rw [processRemoteKey, processRemoteKey, hname, hra, hrp]

/-! ### What a row says about its members -/

/-- The records that roll into the row with the key `k`. -/
def membersOf (snap : Snapshot) (g : Grouping) (k : String) : List ConnectionRecord :=
  snap.connections.filter fun c => rowKey g c = k

structure Row.Sums (r : Row) (ms : List ConnectionRecord) : Prop where
  bytesIn : r.bytesInTotal.toNat = (ms.map fun c => c.bytesInTotal.toNat).sum % 2 ^ 64
  bytesOut : r.bytesOutTotal.toNat = (ms.map fun c => c.bytesOutTotal.toNat).sum % 2 ^ 64
  connections : r.connections = ms.length
  lastSeen : (0 :: ms.map ConnectionRecord.lastSeen).max? = some r.lastSeen

theorem rows_eq (snap : Snapshot) (g : Grouping) :
    rows snap g = (Rollup.keys (rowKey g) snap.connections).map
      (Rollup.rowOf (rowKey g) (seedRow g) Row.accumulate snap.connections) := by
  cases g <;> exact Rollup.rollup_eq _

/-- What a seeded row says of itself stays, whatever is added. -/
structure Row.SameFace (r r' : Row) : Prop where
  key : r.key = r'.key
  state : r.state = r'.state
  vanished : r.vanished = r'.vanished

theorem foldl_accumulate_face (r : Row) (ms : List ConnectionRecord) : Row.SameFace (ms.foldl Row.accumulate r) r := by
  induction ms generalizing r with
  | nil => exact ⟨rfl, rfl, rfl⟩
  | cons c ms ih =>
    obtain ⟨hk, hs, hv⟩ := ih (r.accumulate c)
    exact ⟨hk, hs, hv⟩

/-- The row of a key: folded from its members, the first of which seeded it. -/
theorem rowOf_spec {snap : Snapshot} {g : Grouping} {k : String} (hk : k ∈ Rollup.keys (rowKey g) snap.connections) :
    (Rollup.rowOf (rowKey g) (seedRow g) Row.accumulate snap.connections k).key = k ∧
      ∃ d ms, membersOf snap g k = d :: ms ∧
        Rollup.rowOf (rowKey g) (seedRow g) Row.accumulate snap.connections k =
          (d :: ms).foldl Row.accumulate (seedRow g d k) := by
  cases hm : Rollup.members (rowKey g) snap.connections k with
  | nil => exact absurd hk (Rollup.members_eq_nil.1 hm)
  | cons d ms =>
    rw [Rollup.rowOf_of_members hm, (foldl_accumulate_face _ _).key]
    refine ⟨?_, d, ms, hm, rfl⟩
    cases g <;> rfl

theorem exists_members {snap : Snapshot} {g : Grouping} {r : Row} (h : r ∈ rows snap g) :
    ∃ d ms, membersOf snap g r.key = d :: ms ∧ r = (d :: ms).foldl Row.accumulate (seedRow g d r.key) := by
  rw [rows_eq] at h
  obtain ⟨k, hk, rfl⟩ := List.mem_map.1 h
  obtain ⟨hkey, hfold⟩ := rowOf_spec hk
  rw [hkey]
  exact hfold

theorem rows_keys (snap : Snapshot) (g : Grouping) :
    (rows snap g).map Row.key = (snap.connections.map (rowKey g)).eraseDups := by
  rw [rows_eq, List.map_map]
  exact (List.map_congr_left fun k hk => (rowOf_spec hk).1).trans (List.map_id _)

theorem rowKey_of_mem_members {snap : Snapshot} {g : Grouping} {c : ConnectionRecord} {k : String} (h : c ∈ membersOf snap g k) : rowKey g c = k := by
  simpa using (List.mem_filter.1 h).2

theorem exists_row {snap : Snapshot} {c : ConnectionRecord} (hc : c ∈ snap.connections) (g : Grouping) :
    ∃ r ∈ rows snap g, r.key = rowKey g c ∧ c ∈ membersOf snap g r.key := by
  have hkey : rowKey g c ∈ (rows snap g).map Row.key := by
    rw [rows_keys, List.mem_eraseDups]
    exact List.mem_map_of_mem hc
  obtain ⟨r, hr, hk⟩ := List.mem_map.1 hkey
  refine ⟨r, hr, hk, ?_⟩
  rw [hk]
  exact List.mem_filter.2 ⟨hc, by simp⟩

/-- What a fold of records adds to a row. -/
theorem foldl_accumulate (r : Row) (ms : List ConnectionRecord) :
    (ms.foldl Row.accumulate r).bytesInTotal.toNat =
        (r.bytesInTotal.toNat + (ms.map fun c => c.bytesInTotal.toNat).sum) % 2 ^ 64 ∧
      (ms.foldl Row.accumulate r).bytesOutTotal.toNat =
        (r.bytesOutTotal.toNat + (ms.map fun c => c.bytesOutTotal.toNat).sum) % 2 ^ 64 ∧
      (ms.foldl Row.accumulate r).connections = r.connections + ms.length ∧
      (ms.foldl Row.accumulate r).lastSeen = (ms.map ConnectionRecord.lastSeen).foldl max r.lastSeen := by
  induction ms generalizing r with
  | nil =>
    refine ⟨?_, ?_, rfl, rfl⟩
    · exact (Nat.mod_eq_of_lt r.bytesInTotal.toNat_lt).symm
    · exact (Nat.mod_eq_of_lt r.bytesOutTotal.toNat_lt).symm
  | cons c ms ih =>
    obtain ⟨hin, hout, hcount, hseen⟩ := ih (r.accumulate c)
    have hmax : (r.accumulate c).lastSeen = max r.lastSeen c.lastSeen := by
      show (if r.lastSeen < c.lastSeen then c.lastSeen else r.lastSeen) = _
      split <;> omega
    refine ⟨?_, ?_, ?_, ?_⟩
    · rw [List.foldl_cons, hin, List.map_cons, List.sum_cons]
      show ((r.bytesInTotal + c.bytesInTotal).toNat + _) % _ = _
      rw [UInt64.toNat_add, Nat.mod_add_mod, Nat.add_assoc]
    · rw [List.foldl_cons, hout, List.map_cons, List.sum_cons]
      show ((r.bytesOutTotal + c.bytesOutTotal).toNat + _) % _ = _
      rw [UInt64.toNat_add, Nat.mod_add_mod, Nat.add_assoc]
    · rw [List.foldl_cons, hcount, List.length_cons]
      show r.connections + 1 + _ = _
      omega
    · rw [List.foldl_cons, hseen, hmax]
      rfl

/-- From a first record on, the earliest `firstSeen` is kept. -/
theorem foldl_accumulate_firstSeen {r : Row} {ms : List ConnectionRecord} (hr : r.firstSeen ≠ 0)
    (hms : ∀ c ∈ ms, c.firstSeen ≠ 0) :
    (ms.foldl Row.accumulate r).firstSeen = (ms.map ConnectionRecord.firstSeen).foldl min r.firstSeen := by
  induction ms generalizing r with
  | nil => rfl
  | cons c ms ih =>
    have hmin : (r.accumulate c).firstSeen = min r.firstSeen c.firstSeen := by
      show (if r.firstSeen = 0 ∨ c.firstSeen < r.firstSeen then c.firstSeen else r.firstSeen) = _
      split <;> omega
    have hc := hms c (by simp)
    rw [List.foldl_cons, ih (by rw [hmin]; omega) fun c' hc' => hms c' (by simp [hc']), hmin]
    rfl

theorem sums_of_mem {snap : Snapshot} {g : Grouping} {r : Row} (h : r ∈ rows snap g) :
    r.Sums (membersOf snap g r.key) := by
  obtain ⟨d, ms, hm, hr⟩ := exists_members h
  have hzero : (seedRow g d r.key).bytesInTotal = 0 ∧ (seedRow g d r.key).bytesOutTotal = 0 ∧
      (seedRow g d r.key).connections = 0 ∧ (seedRow g d r.key).lastSeen = 0 := by
    cases g <;> exact ⟨rfl, rfl, rfl, rfl⟩
  obtain ⟨hin, hout, hcount, hseen⟩ := foldl_accumulate (seedRow g d r.key) (d :: ms)
  rw [← hr, hzero.1, UInt64.toNat_zero, Nat.zero_add] at hin
  rw [← hr, hzero.2.1, UInt64.toNat_zero, Nat.zero_add] at hout
  rw [← hr, hzero.2.2.1, Nat.zero_add] at hcount
  rw [← hr, hzero.2.2.2] at hseen
  rw [hm]
  exact ⟨hin, hout, hcount, by rw [List.max?_cons', ← hseen]⟩

theorem firstSeen_of_mem {snap : Snapshot} {g : Grouping} {r : Row} (h : r ∈ rows snap g)
    (hfirst : ∀ c ∈ snap.connections, c.firstSeen ≠ 0) :
    ((membersOf snap g r.key).map ConnectionRecord.firstSeen).min? = some r.firstSeen := by
  obtain ⟨d, ms, hm, hr⟩ := exists_members h
  have hmem : ∀ c ∈ d :: ms, c.firstSeen ≠ 0 := by
    intro c hc
    rw [← hm] at hc
    exact hfirst c (List.mem_filter.1 hc).1
  have hd := hmem d (by simp)
  have hseed : ((seedRow g d r.key).accumulate d).firstSeen = d.firstSeen := by
    cases g <;> rfl
  rw [List.foldl_cons] at hr
  have hfold := foldl_accumulate_firstSeen (r := (seedRow g d r.key).accumulate d) (by rw [hseed]; exact hd)
    fun c (hc : c ∈ ms) => hmem c (List.mem_cons_of_mem _ hc)
  rw [← hr, hseed] at hfold
  rw [hm, List.map_cons, List.min?_cons', hfold]

theorem eraseDups_of_nodup {l : List String} (h : l.Nodup) : l.eraseDups = l := by
  induction l using List.reverseRecOn with
  | nil => rfl
  | append_singleton l a ih =>
    rw [List.nodup_append] at h
    have ha : a ∉ l := fun hm => h.2.2 a hm a (List.mem_singleton.2 rfl) rfl
    rw [List.eraseDups_append, ih h.1, List.removeAll, List.filter_cons_of_pos (by simpa using ha)]
    simp [List.eraseDups_cons]

/-- The rows partition the records by identity, in the order of their first members, and a row counts
each of its members once; `lastSeen` is the latest of theirs, or the zero time if none is later. -/
theorem rows_partition {snap : Snapshot} (hkeys : (snap.connections.map ConnectionRecord.key).Nodup)
    (hbar : ∀ c ∈ snap.connections, BarFree c) (hfirst : ∀ c ∈ snap.connections, c.firstSeen ≠ 0) (g : Grouping) :
    (∀ c ∈ snap.connections, ∀ d ∈ snap.connections, rowKey g c = rowKey g d ↔ identity g c = identity g d) ∧
      (rows snap g).map Row.key = (snap.connections.map (rowKey g)).eraseDups ∧
      ((rows snap g).map Row.key).Nodup ∧
      (g = .none → (rows snap g).length = snap.connections.length) ∧
      ∀ r ∈ rows snap g, r.Sums (membersOf snap g r.key) ∧
        ((membersOf snap g r.key).map ConnectionRecord.firstSeen).min? = some r.firstSeen := by
  refine ⟨fun c hc d hd => rowKey_inj g (hbar c hc) (hbar d hd), rows_keys snap g, ?_, ?_, ?_⟩
  · rw [rows_keys]
    exact Rollup.nodup_keys _
  · rintro rfl
    have hnodup : (snap.connections.map connectionKey).Nodup := by
      refine List.Nodup.map_on ?_ (List.Nodup.of_map _ hkeys)
      intro c hc d hd hcd
      have hkey : c.key = d.key := Identity.connection.inj ((rowKey_inj .none (hbar c hc) (hbar d hd)).1 hcd)
      exact List.inj_on_of_nodup_map hkeys hc hd hkey
    have hlen := congrArg List.length (rows_keys snap .none)
    rw [show rowKey .none = connectionKey from rfl, eraseDups_of_nodup hnodup] at hlen
    simpa using hlen
  · exact fun r hr => ⟨sums_of_mem hr, firstSeen_of_mem hr hfirst⟩

/-- Two connections of a process called `a|b` to one endpoint, and one to another. -/
def barSnapshot : Snapshot where
  takenAt := 10 * second
  connections :=
    [{ pid := 7, processName := "a|b", localAddr := "10.0.0.1", localPort := 1, remoteAddr := "1.1.1.1",
       remotePort := 443, proto := "tcp", bytesInTotal := 5, firstSeen := 3, lastSeen := 4, lastPolled := 9 },
     { pid := 8, processName := "a|b", localAddr := "10.0.0.1", localPort := 2, remoteAddr := "1.1.1.1",
       remotePort := 443, proto := "tcp", bytesInTotal := 6, firstSeen := 2, lastSeen := 9, lastPolled := 9 },
     { pid := 8, processName := "a", localAddr := "10.0.0.1", localPort := 3, remoteAddr := "b",
       remotePort := 443, proto := "tcp", firstSeen := 2, lastPolled := 9 }]

theorem rows_partition_bar :
    (barSnapshot.connections.map ConnectionRecord.key).Nodup ∧
      (∀ r ∈ rows barSnapshot .byProcessName, r.Sums (membersOf barSnapshot .byProcessName r.key)) ∧
      (rows barSnapshot .byProcessName).map (fun r => (r.bytesInTotal, r.connections, r.lastSeen, r.firstSeen)) =
        [(11, 2, 9, 2), (0, 1, 0, 2)] := by
  have hkeys : (barSnapshot.connections.map ConnectionRecord.key).Nodup := by decide
  have hbar : ∀ c ∈ barSnapshot.connections, BarFree c := by
    intro c hc
    have hall : ∀ c ∈ barSnapshot.connections,
        '|' ∉ c.localAddr.toList ∧ '|' ∉ c.remoteAddr.toList ∧ '|' ∉ c.proto.toList := by decide
    exact ⟨(hall c hc).1, (hall c hc).2.1, (hall c hc).2.2⟩
  have hparts := rows_partition hkeys hbar (by decide) .byProcessName
  exact ⟨hkeys, fun r hr => (hparts.2.2.2.2 r hr).1, by decide +kernel⟩

/-- A connection last seen before the zero time: its row shows the zero time. -/
def ancientSnapshot : Snapshot where
  takenAt := 10
  connections :=
    [{ processName := "a", localAddr := "10.0.0.1", localPort := 1, remoteAddr := "1.1.1.1", remotePort := 443,
       proto := "udp", firstSeen := 3, lastSeen := -1, lastPolled := 9 }]

theorem ancientSnapshot_lastSeen :
    (ancientSnapshot.connections.map ConnectionRecord.key).Nodup ∧
      (∀ c ∈ ancientSnapshot.connections, '|' ∉ c.localAddr.toList ∧ '|' ∉ c.remoteAddr.toList ∧ '|' ∉ c.proto.toList) ∧
      (∀ c ∈ ancientSnapshot.connections, c.firstSeen ≠ 0) ∧
      ¬ ∀ r ∈ rows ancientSnapshot .none,
        ((membersOf ancientSnapshot .none r.key).map ConnectionRecord.lastSeen).max? = some r.lastSeen := by
  refine ⟨by decide, by decide, by decide, ?_⟩
  decide +kernel

end Trafficmon
