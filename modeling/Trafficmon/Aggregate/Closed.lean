import Trafficmon.Aggregate.Rows

/-!
# Closed rows (`aggregate/aggregator.go`)

A record is closed when it has vanished, when its state says so or, without a state, when it has gone
quiet after traffic; a row goes by the same rule on its own fields. A grouped row has no state and has
not vanished, so it is closed as soon as its latest traffic is idle, whatever its members are. That
agrees with the members iff none of them is still open then (`closed_rows_iff`).
-/

namespace Trafficmon
open GoTime

def idleThreshold : Int := 2 * second

def closingTCPState (state : String) : Bool :=
  state ∈ ["CLOSE_WAIT", "LAST_ACK", "CLOSING", "TIME_WAIT", "FIN_WAIT_1", "FIN_WAIT_2", "CLOSED", "FIN_WAIT1",
    "FIN_WAIT2", "CLOSE"]

def closed (vanished : Bool) (state : String) (lastSeen now : Int) : Bool :=
  if vanished then true
  else if state ≠ "" then closingTCPState state
  else lastSeen ≠ 0 ∧ idleThreshold < sub now lastSeen

def ConnectionRecord.closed (r : ConnectionRecord) (now : Int) : Bool :=
  Trafficmon.closed r.vanished r.state r.lastSeen now

def Row.closed (r : Row) (now : Int) : Bool := Trafficmon.closed r.vanished r.state r.lastSeen now

/-- There was traffic, and it is longer ago than the threshold. -/
def Idle (lastSeen now : Int) : Prop := lastSeen ≠ 0 ∧ idleThreshold < sub now lastSeen

instance (lastSeen now : Int) : Decidable (Idle lastSeen now) := inferInstanceAs (Decidable (_ ∧ _))

/-- A row is closed only if its members are, and ungrouped exactly when its member is. -/
def ClosedAsMembers (snap : Snapshot) (g : Grouping) (now : Int) : Prop :=
  ∀ r ∈ rows snap g,
    (r.closed now = true → ∀ c ∈ membersOf snap g r.key, c.closed now = true) ∧
      (g = .none → ∀ c ∈ membersOf snap g r.key, (r.closed now = true ↔ c.closed now = true))

/-- The latest traffic of the records that roll into one row with `c`, from the zero time on. -/
def latestWith (snap : Snapshot) (g : Grouping) (c : ConnectionRecord) : Int :=
  ((membersOf snap g (rowKey g c)).map ConnectionRecord.lastSeen).foldl max 0

/-- Still reported, and in a state that is not closing, or without a state and without traffic yet. -/
def StillOpen (c : ConnectionRecord) : Prop :=
  c.vanished = false ∧ ((c.state ≠ "" ∧ closingTCPState c.state = false) ∨ (c.state = "" ∧ c.lastSeen = 0))

/-- Grouped: no open record shares a row whose latest traffic is idle. Ungrouped: no record without a
state is idle since before the zero time. -/
def NoneOpenWhereIdle (snap : Snapshot) : Grouping → Int → Prop
  | .none, now => ∀ c ∈ snap.connections, c.vanished = false → c.state = "" → c.lastSeen < 0 → ¬ Idle c.lastSeen now
  | g, now => ∀ c ∈ snap.connections, StillOpen c → ¬ Idle (latestWith snap g c) now

/-! ### The rule -/

theorem closed_stateless (lastSeen now : Int) : closed false "" lastSeen now = true ↔ Idle lastSeen now := by
  simp [closed, Idle]

/-- A record whose traffic is no later than an idle time is closed, unless it is still open. -/
theorem closed_iff_of_idle {c : ConnectionRecord} {latest now : Int} (hidle : Idle latest now) (hle : c.lastSeen ≤ latest) :
    c.closed now = true ↔ ¬ StillOpen c := by
  have hquiet : idleThreshold < sub now c.lastSeen := by
    have := hidle.2
    unfold sub at *
    omega
  unfold ConnectionRecord.closed closed StillOpen
  cases c.vanished with
  | true => simp
  | false =>
    by_cases hs : c.state = ""
    · simp [hs, hquiet]
    · simp [hs]

/-! ### Rows and their members -/

section
variable {snap : Snapshot} {g : Grouping} {r : Row} {c : ConnectionRecord} {now : Int}

theorem lastSeen_of_mem (h : r ∈ rows snap g) :
    r.lastSeen = ((membersOf snap g r.key).map ConnectionRecord.lastSeen).foldl max 0 := by
  have hmax := (sums_of_mem h).lastSeen
  rw [List.max?_cons'] at hmax
  exact (Option.some.inj hmax).symm

theorem le_lastSeen_of_mem (h : r ∈ rows snap g) (hc : c ∈ membersOf snap g r.key) : c.lastSeen ≤ r.lastSeen :=
  (List.max?_eq_some_iff.1 (sums_of_mem h).lastSeen).2 _ (List.mem_cons_of_mem _ (List.mem_map_of_mem hc))

/-- A grouped row is closed exactly when its latest traffic is idle. -/
theorem closed_grouped_iff (hg : g ≠ .none) (h : r ∈ rows snap g) : r.closed now = true ↔ Idle r.lastSeen now := by
  obtain ⟨d, ms, -, hr⟩ := exists_members h
  have hface := foldl_accumulate_face (seedRow g d r.key) (d :: ms)
  rw [← hr] at hface
  have hseed : (seedRow g d r.key).state = "" ∧ (seedRow g d r.key).vanished = false := by
    cases g with
    | none => exact absurd rfl hg
    | byPID => exact ⟨rfl, rfl⟩
    | byProcessName => exact ⟨rfl, rfl⟩
  rw [Row.closed, hface.state, hface.vanished, hseed.1, hseed.2, closed_stateless]

theorem closed_grouped (hg : g ≠ .none) :
    ClosedAsMembers snap g now ↔ ∀ c ∈ snap.connections, StillOpen c → ¬ Idle (latestWith snap g c) now := by
  constructor
  · intro h c hc hopen hidle
    obtain ⟨r, hr, hkey, hmem⟩ := exists_row hc g
    have hlast : r.lastSeen = latestWith snap g c := by rw [lastSeen_of_mem hr, hkey]; rfl
    have hclosed : c.closed now = true := (h r hr).1 ((closed_grouped_iff hg hr).2 (hlast ▸ hidle)) c hmem
    rw [← hlast] at hidle
    exact (closed_iff_of_idle hidle (le_lastSeen_of_mem hr hmem)).1 hclosed hopen
  · intro h r hr
    refine ⟨fun hclosed c hmem => ?_, fun hnone => absurd hnone hg⟩
    have hidle := (closed_grouped_iff hg hr).1 hclosed
    have hlast : r.lastSeen = latestWith snap g c := by
      rw [lastSeen_of_mem hr, latestWith, rowKey_of_mem_members hmem]
    refine (closed_iff_of_idle hidle (le_lastSeen_of_mem hr hmem)).2 fun hopen => ?_
    exact h c (List.mem_filter.1 hmem).1 hopen (hlast ▸ hidle)

/-- With distinct keys, an ungrouped row has one member, and shows it. -/
theorem ungrouped_member (hkeys : (snap.connections.map connectionKey).Nodup) (h : r ∈ rows snap .none) :
    ∃ c, membersOf snap .none r.key = [c] ∧ r.vanished = c.vanished ∧ r.state = c.state ∧
      r.lastSeen = max 0 c.lastSeen := by
  obtain ⟨d, ms, hm, hr⟩ := exists_members h
  have hms : ms = [] := by
    rw [List.eq_nil_iff_forall_not_mem]
    intro e he
    have hnd : (membersOf snap .none r.key).Nodup := (List.Nodup.of_map _ hkeys).filter _
    have hmem : ∀ x ∈ d :: ms, x ∈ snap.connections ∧ rowKey .none x = r.key := by
      intro x hx
      rw [← hm] at hx
      exact ⟨(List.mem_filter.1 hx).1, rowKey_of_mem_members hx⟩
    obtain ⟨hd, hdk⟩ := hmem d (by simp)
    obtain ⟨hec, hek⟩ := hmem e (by simp [he])
    obtain rfl : e = d := List.inj_on_of_nodup_map hkeys hec hd (hek.trans hdk.symm)
    rw [hm, List.nodup_cons] at hnd
    exact hnd.1 he
  subst hms
  have hface := foldl_accumulate_face (seedRow .none d r.key) [d]
  rw [← hr] at hface
  refine ⟨d, hm, hface.vanished, hface.state, ?_⟩
  rw [lastSeen_of_mem h, hm]
  rfl

/-- The one time at which a row and its only member differ: the row starts at the zero time. -/
theorem closed_max_iff (vanished : Bool) (state : String) (lastSeen : Int) :
    (closed vanished state (max 0 lastSeen) now = true ↔ closed vanished state lastSeen now = true) ↔
      (vanished = false → state = "" → lastSeen < 0 → ¬ Idle lastSeen now) := by
  by_cases hv : vanished = true
  · simp [closed, hv]
  · obtain rfl : vanished = false := by simpa using hv
    by_cases hs : state = ""
    · subst hs
      rw [closed_stateless, closed_stateless]
      rcases lt_or_ge lastSeen 0 with hneg | hpos
      · have hzero : max 0 lastSeen = 0 := by omega
        have hnot : ¬ Idle 0 now := fun h => h.1 rfl
        rw [hzero]
        simp [hnot, hneg]
      · rw [max_eq_right hpos]
        simp [not_lt.2 hpos]
    · simp [closed, hs]

theorem closed_ungrouped (hkeys : (snap.connections.map connectionKey).Nodup) :
    ClosedAsMembers snap .none now ↔
      ∀ c ∈ snap.connections, c.vanished = false → c.state = "" → c.lastSeen < 0 → ¬ Idle c.lastSeen now := by
  -- for a row and its member
  have hrow : ∀ r ∈ rows snap .none, ∀ c ∈ membersOf snap .none r.key,
      (r.closed now = true ↔ c.closed now = true) ↔
        (c.vanished = false → c.state = "" → c.lastSeen < 0 → ¬ Idle c.lastSeen now) := by
    intro r hr c hc
    obtain ⟨d, hm, hv, hs, hlast⟩ := ungrouped_member hkeys hr
    rw [hm] at hc
    obtain rfl := List.mem_singleton.1 hc
    rw [Row.closed, ConnectionRecord.closed, hv, hs, hlast]
    exact closed_max_iff _ _ _
  constructor
  · intro h c hc
    obtain ⟨r, hr, -, hmem⟩ := exists_row hc .none
    exact (hrow r hr c hmem).1 ((h r hr).2 rfl c hmem)
  · intro h r hr
    have hiff : ∀ c ∈ membersOf snap .none r.key, (r.closed now = true ↔ c.closed now = true) :=
      fun c hmem => (hrow r hr c hmem).2 (h c (List.mem_filter.1 hmem).1)
    exact ⟨fun hclosed c hmem => (hiff c hmem).1 hclosed, fun _ => hiff⟩

end

/-- Closed rows agree with their members exactly where no record that is still open shares a row whose
latest traffic is idle (grouped), and no record without a state is idle since before the zero time
(ungrouped). -/
theorem closed_rows_iff {snap : Snapshot} (hkeys : (snap.connections.map connectionKey).Nodup) (g : Grouping)
    (now : Int) : ClosedAsMembers snap g now ↔ NoneOpenWhereIdle snap g now := by
  cases g with
  | none => exact closed_ungrouped hkeys
  | byPID => exact closed_grouped (by simp)
  | byProcessName => exact closed_grouped (by simp)

/-- Two connections of one process, one of which has traffic, and one that another process is closing. -/
def busySnapshot : Snapshot where
  takenAt := 10 * second
  connections :=
    [{ pid := 42, processName := "curl", localAddr := "10.0.0.1", localPort := 51000, remoteAddr := "1.1.1.1",
       remotePort := 443, proto := "tcp", state := "ESTABLISHED", bytesInTotal := 100, firstSeen := 5 * second,
       lastSeen := 7 * second, lastPolled := 10 * second },
     { pid := 42, processName := "curl", localAddr := "10.0.0.1", localPort := 51001, remoteAddr := "1.1.1.1",
       remotePort := 443, proto := "tcp", state := "ESTABLISHED", bytesInTotal := 900, firstSeen := 5 * second,
       lastSeen := 9 * second, lastPolled := 10 * second },
     { pid := 7, processName := "ssh", localAddr := "10.0.0.1", localPort := 51002, remoteAddr := "2.2.2.2",
       remotePort := 22, proto := "tcp", state := "CLOSE_WAIT", bytesInTotal := 40, firstSeen := 1 * second,
       lastSeen := 2 * second, lastPolled := 10 * second }]

theorem closed_rows_iff_busy :
    (busySnapshot.connections.map connectionKey).Nodup ∧ (rows busySnapshot .byPID).length = 2 ∧
      (ClosedAsMembers busySnapshot .byPID (10 * second) ↔ NoneOpenWhereIdle busySnapshot .byPID (10 * second)) :=
  have hkeys : (busySnapshot.connections.map connectionKey).Nodup := by decide
  ⟨hkeys, by decide +kernel, closed_rows_iff hkeys .byPID (10 * second)⟩

/-- An established connection that has been quiet for three seconds. -/
def quietSnapshot : Snapshot where
  takenAt := 10 * second
  connections :=
    [{ pid := 42, processName := "curl", localAddr := "10.0.0.1", localPort := 51000, remoteAddr := "1.1.1.1",
       remotePort := 443, proto := "tcp", state := "ESTABLISHED", bytesInTotal := 100, firstSeen := 5 * second,
       lastSeen := 7 * second, lastPolled := 10 * second }]

/-- Grouped, the row is closed although its only connection is established. -/
theorem quietSnapshot_closed :
    (quietSnapshot.connections.map connectionKey).Nodup ∧ ¬ ClosedAsMembers quietSnapshot .byPID (10 * second) := by
  refine ⟨by decide, fun h => ?_⟩
  have hdiffer : ∃ r ∈ rows quietSnapshot .byPID, r.closed (10 * second) = true ∧
      ∃ c ∈ membersOf quietSnapshot .byPID r.key, c.closed (10 * second) = false := by
    decide +kernel
  obtain ⟨r, hr, hclosed, c, hc, hopen⟩ := hdiffer
  rw [(h r hr).1 hclosed c hc] at hopen
  cases hopen

end Trafficmon
