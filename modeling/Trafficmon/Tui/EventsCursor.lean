import Trafficmon.Lib.DropOldest
import Trafficmon.Tui.Coherence

/-!
# The cursor of the events panel (`Model.appendEvents`)

The history drops its oldest records, the cursor is a position in it. A batch that drops records moves
what is left towards the front and leaves the cursor where it was, so the cursor comes to stand on a
later record (`cursorKept_iff`). Records are told apart by numbers given to them, as two may be alike.
-/

namespace Trafficmon.Tui
variable {ι : Type*} {m : Model ι} {snap : Snapshot}

/-! ### The history -/

namespace EventRing

/-- A history that some records were pushed to. -/
def Reachable (r : EventRing) : Prop := ∃ recs : List EventRecord, r = recs.foldl push {}

theorem items_foldl_push (r : EventRing) (recs : List EventRecord) :
    (recs.foldl push r).items = recs.foldl (DropOldest.push eventRingCapacity) r.items := by
  induction recs generalizing r with
  | nil => rfl
  | cons rec recs ih =>
    rw [List.foldl_cons, List.foldl_cons, ih, push, DropOldest.push, List.drop_one]

theorem Reachable.length_le {r : EventRing} (h : r.Reachable) : r.items.length ≤ eventRingCapacity := by
  obtain ⟨recs, rfl⟩ := h
  rw [items_foldl_push, DropOldest.foldl_push (by decide) (Nat.zero_le _), DropOldest.length_rtake]
  exact Nat.min_le_right _ _

theorem Reachable.foldl_push {r : EventRing} (h : r.Reachable) (recs : List EventRecord) :
    (recs.foldl push r).Reachable := by
  obtain ⟨recs', rfl⟩ := h
  exact ⟨recs' ++ recs, (List.foldl_append ..).symm⟩

end EventRing

theorem Model.Change.reachable {env : Env ι} {m' : Model ι} (hc : Model.Change env m m') (h : m.events.Reachable) :
    m'.events.Reachable := by
  cases hc with
  | quiet hq => rw [hq.events]; exact h
  | @adjusted m₁ ha =>
    have hevents : (m₁.rebuild env).events = m.events := ha.events
    rw [hevents]
    exact h
  | regrouped => exact h
  | refreshed now snap _ => exact h.foldl_push _

/-- Every run has such a history. -/
theorem reachable_run (env : Env ι) (agg : Bool) (interfaces : List String) (msgs : List Msg) :
    (msgs.foldl (Model.step env) (newModel env agg interfaces)).events.Reachable := by
  induction msgs using List.reverseRecOn with
  | nil => exact ⟨[], rfl⟩
  | append_singleton msgs msg ih =>
    rw [List.foldl_append]
    exact (Model.step_change env _ msg).reachable ih

/-! ### The record under the cursor -/

def eventCount (snap : Snapshot) : ℕ :=
  snap.synEvents.length + snap.rstEvents.length + snap.dnsQueries.length + snap.dnsErrors.length +
    snap.dnsAnswers.length

/-- How many records a batch pushes out of the history. -/
def overflow (m : Model ι) (snap : Snapshot) : ℕ := m.events.items.length + eventCount snap - eventRingCapacity

def OnLatest (m : Model ι) : Prop := m.events.items = [] ∨ m.eventsCursor = m.events.items.length - 1

/-- The records of the history and of a batch, told apart by numbers. -/
structure Numbered (m : Model ι) (snap : Snapshot) (old new : List (EventRecord × ℕ)) : Prop where
  old_eq : old.map Prod.fst = m.events.items
  new_eq : new.map Prod.fst = eventRecords snap
  nodup : (old ++ new).Nodup

/-- What is in the history afterwards. -/
def afterBatch (old new : List (EventRecord × ℕ)) : List (EventRecord × ℕ) :=
  new.foldl (DropOldest.push eventRingCapacity) old

/-- The cursor stays on its record while that is in the history, and on the latest if it was there. -/
structure CursorKept (m : Model ι) (snap : Snapshot) : Prop where
  numbered : ∀ old new, Numbered m snap old new →
    (afterBatch old new).map Prod.fst = (m.appendEvents snap).events.items
  stays : ¬ OnLatest m → ∀ old new, Numbered m snap old new → ∀ r, old[m.eventsCursor.toNat]? = some r →
    r ∈ afterBatch old new → (afterBatch old new)[(m.appendEvents snap).eventsCursor.toNat]? = some r
  inRange : ¬ OnLatest m → 0 ≤ (m.appendEvents snap).eventsCursor ∧
    (m.appendEvents snap).eventsCursor < (m.appendEvents snap).events.items.length
  follows : OnLatest m → (m.appendEvents snap).events.items ≠ [] →
    (m.appendEvents snap).eventsCursor = (m.appendEvents snap).events.items.length - 1

theorem length_eventRecords (snap : Snapshot) : (eventRecords snap).length = eventCount snap := by
  rw [eventRecords, (SortBy.stableSort_perm _).length_eq]
  simp only [List.length_append, List.length_map, eventCount]

theorem length_numbered {old new : List (EventRecord × ℕ)} (h : Numbered m snap old new) :
    old.length = m.events.items.length ∧ new.length = eventCount snap :=
  ⟨by rw [← h.old_eq, List.length_map], by rw [← length_eventRecords, ← h.new_eq, List.length_map]⟩

theorem overflow_eq {old new : List (EventRecord × ℕ)} (hn : Numbered m snap old new) :
    (old ++ new).length - eventRingCapacity = overflow m snap := by
  rw [List.length_append, (length_numbered hn).1, (length_numbered hn).2, overflow]

/-- The records can be told apart. -/
theorem exists_numbered (m : Model ι) (snap : Snapshot) : ∃ old new, Numbered m snap old new := by
  refine ⟨m.events.items.zipIdx, (eventRecords snap).zipIdx m.events.items.length, ?_, ?_, ?_⟩
  · exact List.zipIdx_map_fst _ _
  · exact List.zipIdx_map_fst _ _
  · refine List.Nodup.of_map Prod.snd ?_
    rw [← Nat.zero_add m.events.items.length, ← List.zipIdx_append, List.zipIdx_map_snd]
    exact List.nodup_range'

section Append
variable (hr : m.events.Reachable) {old new : List (EventRecord × ℕ)} (hn : Numbered m snap old new)
include hr hn

theorem afterBatch_eq : afterBatch old new = (old ++ new).rtake eventRingCapacity :=
  DropOldest.foldl_push (by decide) ((length_numbered hn).1 ▸ hr.length_le) new

/-- The history afterwards is the one with the numbers, without them. -/
theorem map_afterBatch : (afterBatch old new).map Prod.fst = (m.appendEvents snap).events.items := by
  have hitems : (m.appendEvents snap).events.items = (m.events.items ++ eventRecords snap).rtake eventRingCapacity := by
    rw [← DropOldest.foldl_push (by decide) hr.length_le, ← EventRing.items_foldl_push]
    rfl
  rw [hitems, afterBatch_eq hr hn, ← hn.old_eq, ← hn.new_eq, ← List.map_append, List.rtake, List.rtake, List.map_drop,
    List.length_map]

end Append

theorem cursor_of_not_latest (h : ¬ OnLatest m) (snap : Snapshot) :
    (m.appendEvents snap).eventsCursor = m.eventsCursor :=
  if_neg fun hf => h hf.1

theorem lt_of_not_latest (hc : InList m.eventsCursor m.events.items.length) (h : ¬ OnLatest m) :
    0 ≤ m.eventsCursor ∧ m.eventsCursor.toNat < m.events.items.length := by
  have hpos : 0 < m.events.items.length := List.length_pos_iff.2 fun hnil => h (.inl hnil)
  rcases hc with hc | hc <;> omega

/-- Away from the latest record, the cursor stays on its record when none is dropped before it. -/
theorem stays_of (hr : m.events.Reachable) (hc : InList m.eventsCursor m.events.items.length) (hlatest : ¬ OnLatest m)
    {old new : List (EventRecord × ℕ)} (hn : Numbered m snap old new) {r : EventRecord × ℕ}
    (hold : old[m.eventsCursor.toNat]? = some r) :
    (r ∈ afterBatch old new ↔ overflow m snap ≤ m.eventsCursor.toNat) ∧
      ((afterBatch old new)[(m.appendEvents snap).eventsCursor.toNat]? = some r ↔ overflow m snap = 0) := by
  have hlt := (lt_of_not_latest hc hlatest).2
  rw [← (length_numbered hn).1] at hlt
  have hat : (old ++ new)[m.eventsCursor.toNat]? = some r := by rw [List.getElem?_append_left hlt, hold]
  rw [cursor_of_not_latest hlatest, afterBatch_eq hr hn, ← overflow_eq hn]
  refine ⟨DropOldest.mem_rtake_iff hn.nodup hat, ?_⟩
  rw [DropOldest.getElem?_rtake]
  constructor
  · intro h
    have hij := (List.getElem?_inj (by rw [List.length_append]; omega) hn.nodup).1 (hat.trans h.symm)
    omega
  · intro h
    rw [h, Nat.zero_add, hat]

theorem inRange_of (hc : InList m.eventsCursor m.events.items.length) (hlatest : ¬ OnLatest m) (snap : Snapshot) :
    0 ≤ (m.appendEvents snap).eventsCursor ∧
      (m.appendEvents snap).eventsCursor < (m.appendEvents snap).events.items.length := by
  have hlen : m.events.items.length ≤ (m.appendEvents snap).events.items.length :=
    Model.length_pushAll m.events (eventRecords snap)
  have hlt := lt_of_not_latest hc hlatest
  rw [cursor_of_not_latest hlatest]
  omega

theorem CursorKept.cases (h : CursorKept m snap) (hr : m.events.Reachable)
    (hc : InList m.eventsCursor m.events.items.length) :
    OnLatest m ∨ overflow m snap = 0 ∨ m.eventsCursor < overflow m snap := by
  by_contra hnot
  obtain ⟨hlatest, hdrop, hle⟩ : ¬ OnLatest m ∧ overflow m snap ≠ 0 ∧ ¬ m.eventsCursor < overflow m snap := by
    simpa only [not_or] using hnot
  obtain ⟨h0, hlt⟩ := lt_of_not_latest hc hlatest
  obtain ⟨old, new, hn⟩ := exists_numbered m snap
  obtain ⟨r, hold⟩ : ∃ r, old[m.eventsCursor.toNat]? = some r :=
    ⟨_, List.getElem?_eq_getElem (by rw [(length_numbered hn).1]; exact hlt)⟩
  obtain ⟨hmem, hat⟩ := stays_of hr hc hlatest hn hold
  exact hdrop (hat.1 (h.stays hlatest old new hn r hold (hmem.2 (by omega))))

/-- The cursor is kept exactly when it follows the latest record, or the batch drops no record, or drops
the one under the cursor too. -/
theorem cursorKept_iff (m : Model ι) (snap : Snapshot) (hr : m.events.Reachable)
    (hc : InList m.eventsCursor m.events.items.length) :
    CursorKept m snap ↔ OnLatest m ∨ overflow m snap = 0 ∨ m.eventsCursor < overflow m snap := by
  refine ⟨fun h => h.cases hr hc, fun h => ?_⟩
  refine ⟨fun old new hn => map_afterBatch hr hn, fun hlatest old new hn r hold hmem => ?_,
    fun hlatest => inRange_of hc hlatest snap, fun hlatest hne => if_pos ⟨hlatest, hne⟩⟩
  obtain ⟨hiff, hat⟩ := stays_of hr hc hlatest hn hold
  have hle := hiff.1 hmem
  have h0 := (lt_of_not_latest hc hlatest).1
  rcases h with h | h | h
  · exact absurd h hlatest
  · exact hat.2 h
  · omega

def cursorEnv : Env Unit where
  newInput := ()
  updateInput := fun _ _ => ()
  value := fun _ => ""
  setValue := fun _ _ => ()
  focusInput := id
  blurInput := id
  hostname := Row.label
  toLower := id

/-- `n` SYNs from the time `t` on. -/
def syns (n t : ℕ) : Snapshot :=
  { takenAt := 0
    connections := []
    synEvents := (List.range n).map fun i => ⟨"en0", .ipv4 10 0 0 1, 40000, .ipv4 1 1 1 1, 443, (t + i : ℕ)⟩ }

/-- `n` SYNs have come; the user went one record up from the latest. -/
def scrolledUp (n : ℕ) : Model Unit := ((newModel cursorEnv true []).appendEvents (syns n 0)).moveEventsCursor (-1)

theorem eventCount_syns (n t : ℕ) : eventCount (syns n t) = n := by simp [eventCount, syns]

theorem scrolledUp_spec {n : ℕ} (h2 : 2 ≤ n) (hn : n ≤ eventRingCapacity) :
    (scrolledUp n).events.Reachable ∧ (scrolledUp n).events.items.length = n ∧ (scrolledUp n).eventsCursor = n - 2 := by
  set m := (newModel cursorEnv true []).appendEvents (syns n 0) with hm
  have hr : m.events.Reachable := ⟨eventRecords (syns n 0), rfl⟩
  have hlen : m.events.items.length = n := by
    have hitems : m.events.items = (eventRecords (syns n 0)).rtake eventRingCapacity := by
      rw [← List.nil_append (eventRecords _), ← DropOldest.foldl_push (by decide) (Nat.zero_le _),
        ← EventRing.items_foldl_push {}]
      rfl
    rw [hitems, DropOldest.length_rtake, length_eventRecords, eventCount_syns, Nat.min_eq_left hn]
  have hcursor : m.eventsCursor = n - 1 := by
    have hne : m.events.items ≠ [] := List.length_pos_iff.1 (by omega)
    rw [← hlen]
    exact if_pos ⟨.inl rfl, hne⟩
  have hup : scrolledUp n = m.moveEventsCursor (-1) := rfl
  rw [hup]
  unfold Model.moveEventsCursor
  dsimp only
  rw [if_neg (by omega)]
  refine ⟨hr, hlen, ?_⟩
  show clamp (m.eventsCursor + -1) 0 (m.events.items.length - 1) = _
  unfold clamp
  omega

theorem scrolledUp_inList {n : ℕ} (h2 : 2 ≤ n) (hn : n ≤ eventRingCapacity) :
    InList (scrolledUp n).eventsCursor (scrolledUp n).events.items.length := by
  obtain ⟨-, hlen, hcursor⟩ := scrolledUp_spec h2 hn
  exact .inr ⟨by omega, by omega⟩

/-- With room left, the cursor stays on the first of two records when a third comes. -/
theorem cursorKept_scrolledUp_two : CursorKept (scrolledUp 2) (syns 1 2) := by
  obtain ⟨hr, hlen, -⟩ := scrolledUp_spec (le_refl 2) (by decide)
  refine (cursorKept_iff _ _ hr (scrolledUp_inList (le_refl 2) (by decide))).2 (.inr (.inl ?_))
  rw [overflow, hlen, eventCount_syns]
  rfl

/-- In a full history, one more record moves the others away under the cursor. -/
theorem not_cursorKept_scrolledUp_full : (scrolledUp 500).events.Reachable ∧
    InList (scrolledUp 500).eventsCursor (scrolledUp 500).events.items.length ∧
    ¬ CursorKept (scrolledUp 500) (syns 1 500) := by
  obtain ⟨hr, hlen, hcursor⟩ := scrolledUp_spec (n := 500) (by decide) (le_refl _)
  have hc := scrolledUp_inList (n := 500) (by decide) (le_refl _)
  refine ⟨hr, hc, fun h => ?_⟩
  have hover : overflow (scrolledUp 500) (syns 1 500) = 1 := by
    rw [overflow, hlen, eventCount_syns]
    rfl
  rcases h.cases hr hc with (hnil | hlatest) | hdrop | hlt
  · rw [hnil] at hlen; cases hlen
  · omega
  · omega
  · omega

end Trafficmon.Tui
