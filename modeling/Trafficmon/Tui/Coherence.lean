import Trafficmon.Lib.Run
import Trafficmon.Tui.Model

/-!
# Coherence of the terminal UI

What the table should show is a function of the snapshot and the settings (`View.table`). The rows on
screen are a copy of it that every handler has to renew, and the cursors are positions in lists that
change under them. `Change` says what one message can do: move cursors and other things on screen,
renew the rows after a change of the settings, regroup, or take a new snapshot. All that holds of every
run follows from it.
-/

namespace Trafficmon.Tui
open Run

/-- A position in a list of `n` entries, or 0. -/
def InList (c : Int) (n : Nat) : Prop := c = 0 ∨ (0 ≤ c ∧ c < n)

/-- What the table depends on. -/
structure View where
  snap : Snapshot
  grouping : Grouping
  sort : SortKey
  filter : String
  showListening : Bool
  showTCP : Bool
  showUDP : Bool
  showIPv4 : Bool
  showIPv6 : Bool
  showPrivate : Bool
  activeInterfaces : GoMap String Bool

section View
variable {ι : Type*} (env : Env ι)

/-- Whether a row passes all the filters. -/
def View.shows (v : View) (r : Row) : Bool :=
  r.showsListening v.showListening && r.showsProto v.showTCP v.showUDP && r.showsIPFamily v.showIPv4 v.showIPv6 &&
    r.showsPrivate v.showPrivate && r.showsIface v.activeInterfaces && r.showsText env.toLower v.filter env.hostname

def View.table (v : View) : List Row := sortRows ((rows v.snap v.grouping).filter (v.shows env)) v.sort

def Model.view (m : Model ι) : View :=
  ⟨m.snap, m.grouping, m.sort, m.filter, m.showListening, m.showTCP, m.showUDP, m.showIPv4, m.showIPv6, m.showPrivate,
    m.activeInterfaces⟩

structure Model.Coherent (m : Model ι) : Prop where
  rows : m.rows = m.view.table env
  cursor : InList m.cursor m.rows.length
  eventsCursor : InList m.eventsCursor m.events.items.length
  ifaceCursor : InList m.ifaceCursor m.interfaces.length

end View

/-! ### What one message can do -/

namespace Model
variable {ι : Type*} {env : Env ι} {m m' m₁ : Model ι}

/-- While the input is open, `filterBefore` is the filter it was opened over. -/
structure EditKept (m m' : Model ι) : Prop where
  opened : m.filtering = false → m'.filtering = true → m'.filterBefore = m.filter
  edited : m.filtering = true → m'.filtering = true → m'.filterBefore = m.filterBefore

/-- Neither the data nor the settings change, and the rows are not renewed. -/
structure Quiet (m m' : Model ι) : Prop where
  view : m'.view = m.view
  now : m'.now = m.now
  events : m'.events = m.events
  interfaces : m'.interfaces = m.interfaces
  rows : m'.rows = m.rows
  rebuilds : m'.rebuilds = m.rebuilds
  edit : m.EditKept m'
  cursor : InList m.cursor m.rows.length → InList m'.cursor m.rows.length
  eventsCursor : InList m.eventsCursor m.events.items.length → InList m'.eventsCursor m.events.items.length
  ifaceCursor : InList m.ifaceCursor m.interfaces.length → InList m'.ifaceCursor m.interfaces.length

/-- Only settings other than the grouping change. -/
structure Adjusted (m m' : Model ι) : Prop where
  snap : m'.snap = m.snap
  now : m'.now = m.now
  events : m'.events = m.events
  interfaces : m'.interfaces = m.interfaces
  grouping : m'.grouping = m.grouping
  rows : m'.rows = m.rows
  rebuilds : m'.rebuilds = m.rebuilds
  cursor : m'.cursor = m.cursor
  eventsCursor : m'.eventsCursor = m.eventsCursor
  ifaceCursor : m'.ifaceCursor = m.ifaceCursor
  edit : m.EditKept m'

inductive Change (env : Env ι) (m : Model ι) : Model ι → Prop
  | quiet {m' : Model ι} (h : m.Quiet m') : Change env m m'
  | adjusted {m₁ : Model ι} (h : m.Adjusted m₁) : Change env m (m₁.rebuild env)
  | regrouped : Change env m (m.cycleGrouping env)
  | refreshed (now : Int) (snap : Snapshot) (hpaused : m.paused = false) :
    Change env m ({ m.appendEvents snap with snap := snap, now := now }.rebuild env)

theorem EditKept.of_eq (hf : m'.filtering = m.filtering) (hb : m'.filterBefore = m.filterBefore) : m.EditKept m' := by
  refine ⟨fun hm hm' => ?_, fun _ _ => hb⟩
  rw [hf, hm] at hm'
  cases hm'

theorem Quiet.refl (m : Model ι) : m.Quiet m := ⟨rfl, rfl, rfl, rfl, rfl, rfl, .of_eq rfl rfl, id, id, id⟩

theorem inList_clamp (v : Int) {n : Nat} (h : 0 < n) : InList (clamp v 0 (n - 1)) n := by
  refine .inr ?_
  unfold clamp
  omega

/-- What is left of the model without what is only on screen. -/
def core (m : Model ι) :=
  (m.view, m.now, m.events, m.interfaces, m.rows, m.rebuilds, m.filtering, m.filterBefore, m.cursor, m.eventsCursor,
    m.ifaceCursor)

theorem Quiet.of_core (h : m'.core = m.core) : m.Quiet m' := by
  simp only [core, Prod.mk.injEq] at h
  obtain ⟨hview, hnow, hevents, hinterfaces, hrows, hrebuilds, hf, hb, hcursor, heventsCursor, hifaceCursor⟩ := h
  exact ⟨hview, hnow, hevents, hinterfaces, hrows, hrebuilds, .of_eq hf hb, hcursor ▸ id, heventsCursor ▸ id,
    hifaceCursor ▸ id⟩

/-- What a change of the settings leaves alone. -/
def kept (m : Model ι) :=
  (m.snap, m.now, m.events, m.interfaces, m.grouping, m.rows, m.rebuilds, m.cursor, m.eventsCursor, m.ifaceCursor)

theorem Adjusted.of_kept (h : m'.kept = m.kept) (hedit : m.EditKept m') : m.Adjusted m' := by
  simp only [kept, Prod.mk.injEq] at h
  obtain ⟨hsnap, hnow, hevents, hinterfaces, hgrouping, hrows, hrebuilds, hcursor, heventsCursor, hifaceCursor⟩ := h
  exact ⟨hsnap, hnow, hevents, hinterfaces, hgrouping, hrows, hrebuilds, hcursor, heventsCursor, hifaceCursor, hedit⟩

theorem moveCursor_quiet (m : Model ι) (delta : Int) : m.Quiet (m.moveCursor delta) := by
  unfold moveCursor
  split
  · exact ⟨rfl, rfl, rfl, rfl, rfl, rfl, .of_eq rfl rfl, fun _ => .inl rfl, id, id⟩
  · have hin := inList_clamp (m.cursor + delta) (List.length_pos_iff.2 ‹m.rows ≠ []›)
    exact ⟨rfl, rfl, rfl, rfl, rfl, rfl, .of_eq rfl rfl, fun _ => hin, id, id⟩

theorem moveEventsCursor_quiet (m : Model ι) (delta : Int) : m.Quiet (m.moveEventsCursor delta) := by
  unfold moveEventsCursor
  dsimp only
  split
  · exact ⟨rfl, rfl, rfl, rfl, rfl, rfl, .of_eq rfl rfl, id, fun _ => .inl rfl, id⟩
  · have hin := inList_clamp (m.eventsCursor + delta) (n := m.events.items.length) (by omega)
    exact ⟨rfl, rfl, rfl, rfl, rfl, rfl, .of_eq rfl rfl, id, fun _ => hin, id⟩

theorem moveSelection_quiet (m : Model ι) (delta : Int) : m.Quiet (m.moveSelection delta) := by
  unfold moveSelection
  split
  · exact m.moveEventsCursor_quiet delta
  · exact m.moveCursor_quiet delta

theorem moveIfaceCursor_quiet (m : Model ι) (delta : Int) : m.Quiet (m.moveIfaceCursor delta) := by
  unfold moveIfaceCursor
  split
  · exact ⟨rfl, rfl, rfl, rfl, rfl, rfl, .of_eq rfl rfl, id, id, fun _ => .inl rfl⟩
  · have hin := inList_clamp (m.ifaceCursor + delta) (List.length_pos_iff.2 ‹m.interfaces ≠ []›)
    exact ⟨rfl, rfl, rfl, rfl, rfl, rfl, .of_eq rfl rfl, id, id, fun _ => hin⟩

theorem handleMouse_quiet (m : Model ι) (action : MouseAction) (y : Int) : m.Quiet (m.handleMouse action y).1 := by
  unfold handleMouse
  split
  · exact .refl m
  · cases action with
    | press =>
      dsimp only
      split
      · exact .of_core rfl
      · exact .refl m
    | motion =>
      dsimp only
      split
      · exact .of_core rfl
      · exact .refl m
    | release => exact .of_core rfl

theorem applyTableKey_change (env : Env ι) (h : m.filtering = false) (k : Key) :
    Change env m (m.applyTableKey env k).1 := by
  cases k with
  | quit | unzoom => exact .quiet (.refl m)
  | up | down | pageUp | pageDown | home | «end» => exact .quiet (m.moveSelection_quiet _)
  | zoom | pause | help | interfaces => exact .quiet (.of_core rfl)
  | focusNext =>
    unfold applyTableKey
    dsimp only
    split
    · exact .quiet (.refl m)
    · exact .quiet (.of_core rfl)
  | grouping => exact .regrouped
  | sort | rateSort | toggleListening | toggleTCP | toggleUDP | toggleIPv4 | toggleIPv6 | togglePrivate =>
    exact .adjusted (.of_kept rfl (.of_eq rfl rfl))
  | filter =>
    -- the table has the keyboard only while the input is closed
    refine .adjusted (.of_kept rfl ⟨fun _ _ => rfl, fun hm _ => ?_⟩)
    rw [h] at hm
    cases hm

theorem handleFilterKey_change (env : Env ι) (m : Model ι) (msg : KeyMsg) :
    Change env m (m.handleFilterKey env msg).1 := by
  unfold handleFilterKey
  split
  · exact .quiet (.refl m)
  · -- esc and enter close the input
    refine .adjusted (.of_kept rfl ⟨?_, fun _ _ => rfl⟩)
    rintro - ⟨⟩
  · refine .quiet ⟨rfl, rfl, rfl, rfl, rfl, rfl, ⟨?_, fun _ _ => rfl⟩, id, id, id⟩
    rintro - ⟨⟩
  · exact .adjusted (.of_kept rfl (.of_eq rfl rfl))

theorem handleIfacePickerKey_change (env : Env ι) (m : Model ι) (msg : KeyMsg) :
    Change env m (m.handleIfacePickerKey env msg).1 := by
  unfold handleIfacePickerKey
  split_ifs
  · exact .quiet (.refl m)
  · exact .quiet (.of_core rfl)
  · exact .quiet (m.moveIfaceCursor_quiet _)
  · exact .quiet (m.moveIfaceCursor_quiet _)
  · dsimp only
    unfold toggleActiveInterface
    split
    · exact .quiet (.refl m)
    · split
      · exact .quiet (.refl m)
      · exact .adjusted (.of_kept rfl (.of_eq rfl rfl))
  · exact .quiet (.refl m)

theorem handleKey_change (env : Env ι) (m : Model ι) (msg : KeyMsg) : Change env m (m.handleKey env msg).1 := by
  unfold handleKey
  split
  · exact m.handleFilterKey_change env msg
  · split
    · split_ifs
      · exact .quiet (.refl m)
      · exact .quiet (.of_core rfl)
      · exact .quiet (.refl m)
    · split
      · exact m.handleIfacePickerKey_change env msg
      · split
        · exact .quiet (.of_core rfl)
        · unfold handleTableKey
          split
          · exact applyTableKey_change env (by simpa using ‹¬ m.filtering = true›) _
          · exact .quiet (.refl m)

theorem update_change (env : Env ι) (m : Model ι) (msg : Msg) : Change env m (m.update env msg).1 := by
  cases msg with
  | windowSize width height => exact .quiet (.of_core rfl)
  | mouse action y => exact .quiet (m.handleMouse_quiet action y)
  | key msg => exact m.handleKey_change env msg
  | other => exact .quiet (.refl m)
  | tick now snap =>
    unfold update
    dsimp only
    split
    · exact .quiet (.refl m)
    · unfold refresh
      split
      · exact .refreshed now snap (by simpa using ‹¬ m.paused = true›)
      · exact .quiet (.refl m)

/-! ### Rows and cursors after a rebuild -/

theorem rebuild_rows (env : Env ι) (m : Model ι) : (m.rebuild env).rows = m.view.table env := by
  show sortRows (filterRows env.toLower (filterIface (filterPrivate (filterIPFamily (filterProto (filterListening
    (Trafficmon.rows m.snap m.grouping) _) _ _) _ _) _) _) _ _) _ = _
  rw [filterRows_eq, filterIface_eq, filterPrivate_eq, filterIPFamily_eq, filterProto_eq, filterListening_eq]
  simp only [List.filter_filter, View.table]
  congr 2
  funext r
  simp only [View.shows, Model.view]
  ac_rfl

theorem cursorFor_inList (rows : List Row) (key : String) (fallback : Int) :
    InList (cursorFor rows key fallback) rows.length := by
  unfold cursorFor
  split
  · exact .inl rfl
  · have hpos := List.length_pos_iff.2 ‹rows ≠ []›
    split
    · rename_i i hi
      split at hi
      · cases hi
      · have hlt := (List.findIdx?_eq_some_iff_getElem.1 hi).1
        exact .inr ⟨by omega, by omega⟩
    · exact inList_clamp fallback hpos

/-- Where a key is among the rows, the cursor goes there. -/
theorem cursorFor_of_mem {rows : List Row} {key : String} (hkey : key ≠ "") (hmem : key ∈ rows.map Row.key)
    (fallback : Int) : (rows[(cursorFor rows key fallback).toNat]?).map Row.key = some key := by
  obtain ⟨r, hr, rfl⟩ := List.mem_map.1 hmem
  cases hi : rows.findIdx? fun r' => decide (r'.key = r.key) with
  | none => exact absurd (List.findIdx?_eq_none_iff.1 hi r hr) (by simp)
  | some i =>
    obtain ⟨hlt, hkeyi, -⟩ := List.findIdx?_eq_some_iff_getElem.1 hi
    rw [cursorFor, if_neg (List.ne_nil_of_mem hr), if_neg hkey, hi, Int.toNat_natCast, List.getElem?_eq_getElem hlt,
      Option.map_some, of_decide_eq_true hkeyi]

theorem rebuild_cursor_inList (env : Env ι) (m : Model ι) :
    InList (m.rebuild env).cursor (m.rebuild env).rows.length :=
  cursorFor_inList _ _ _

theorem rowKey_ne_empty (g : Grouping) (c : ConnectionRecord) : rowKey g c ≠ "" := by
  have hbar : '|' ∈ (rowKey g c).toList := by
    cases g <;> simp [rowKey, connectionKey, pidRemoteKey, processRemoteKey]
  intro h
  rw [h] at hbar
  cases hbar

theorem key_ne_empty_of_table {v : View} {r : Row} (h : r ∈ v.table env) : r.key ≠ "" := by
  have hr : r ∈ Trafficmon.rows v.snap v.grouping := (List.mem_filter.1 ((SortBy.stableSort_perm _).mem_iff.1 h)).1
  obtain ⟨d, ms, hm, -⟩ := exists_members hr
  have hd : d ∈ membersOf v.snap v.grouping r.key := by simp [hm]
  rw [← rowKey_of_mem_members hd]
  exact rowKey_ne_empty _ _

/-- A rebuild leaves the cursor on the row it was on. -/
theorem rebuild_follows (env : Env ι) {r : Row} (hcursor : 0 ≤ m.cursor) (hr : m.rows[m.cursor.toNat]? = some r)
    (hkey : r.key ≠ "") (hmem : r.key ∈ (m.rebuild env).rows.map Row.key) :
    ((m.rebuild env).rows[(m.rebuild env).cursor.toNat]?).map Row.key = some r.key := by
  have hselected : m.selectedKey = r.key := by
    rw [selectedKey, if_neg (by omega), hr]
    rfl
  show (((m.rebuild env).rows)[(cursorFor (m.rebuild env).rows m.selectedKey m.cursor).toNat]?).map Row.key = _
  rw [hselected]
  exact cursorFor_of_mem hkey hmem _

/-! ### Events -/

theorem length_push (r : EventRing) (rec : EventRecord) : r.items.length ≤ (r.push rec).items.length := by
  unfold EventRing.push
  split
  · simp only [List.length_append, List.length_drop, List.length_singleton]
    omega
  · simp

theorem length_pushAll (r : EventRing) (recs : List EventRecord) :
    r.items.length ≤ (recs.foldl EventRing.push r).items.length := by
  induction recs generalizing r with
  | nil => exact le_rfl
  | cons rec recs ih => exact (length_push r rec).trans (ih (r.push rec))

theorem appendEvents_inList (m : Model ι) (snap : Snapshot)
    (h : InList m.eventsCursor m.events.items.length) :
    InList (m.appendEvents snap).eventsCursor (m.appendEvents snap).events.items.length := by
  have hlen : m.events.items.length ≤ (m.appendEvents snap).events.items.length :=
    length_pushAll m.events (eventRecords snap)
  by_cases hfollow : (m.events.items = [] ∨ m.eventsCursor = m.events.items.length - 1) ∧
      (m.appendEvents snap).events.items ≠ []
  · have hpos := List.length_pos_iff.2 hfollow.2
    have hcursor : (m.appendEvents snap).eventsCursor = (m.appendEvents snap).events.items.length - 1 := if_pos hfollow
    rw [hcursor]
    exact .inr ⟨by omega, by omega⟩
  · have hcursor : (m.appendEvents snap).eventsCursor = m.eventsCursor := if_neg hfollow
    rw [hcursor]
    rcases h with h | ⟨h0, hlt⟩
    · exact .inl h
    · exact .inr ⟨h0, by omega⟩

/-! ### What a change keeps -/

theorem Coherent.change (h : m.Coherent env) (hc : Change env m m') : m'.Coherent env := by
  cases hc with
  | quiet hq =>
    refine ⟨?_, ?_, ?_, ?_⟩
    · rw [hq.rows, hq.view]
      exact h.rows
    · rw [hq.rows]
      exact hq.cursor h.cursor
    · rw [hq.events]
      exact hq.eventsCursor h.eventsCursor
    · rw [hq.interfaces]
      exact hq.ifaceCursor h.ifaceCursor
  | @adjusted m₁ ha =>
    refine ⟨rebuild_rows env m₁, rebuild_cursor_inList env m₁, ?_, ?_⟩
    · show InList m₁.eventsCursor m₁.events.items.length
      rw [ha.eventsCursor, ha.events]
      exact h.eventsCursor
    · show InList m₁.ifaceCursor m₁.interfaces.length
      rw [ha.ifaceCursor, ha.interfaces]
      exact h.ifaceCursor
  | regrouped => exact ⟨rebuild_rows env _, rebuild_cursor_inList env _, h.eventsCursor, h.ifaceCursor⟩
  | refreshed now snap _ =>
    exact ⟨rebuild_rows env _, rebuild_cursor_inList env _, m.appendEvents_inList snap h.eventsCursor, h.ifaceCursor⟩

theorem Change.frozen (hc : Change env m m') (hpaused : m.paused = true) :
    m'.snap = m.snap ∧ m'.now = m.now ∧ m'.events = m.events := by
  cases hc with
  | quiet hq => exact ⟨congrArg View.snap hq.view, hq.now, hq.events⟩
  | adjusted ha => exact ⟨ha.snap, ha.now, ha.events⟩
  | regrouped => exact ⟨rfl, rfl, rfl⟩
  | refreshed now snap h =>
    -- only a model that is not paused takes a new snapshot
    rw [h] at hpaused
    cases hpaused

theorem Change.editKept (hc : Change env m m') : m.EditKept m' := by
  cases hc with
  | quiet hq => exact hq.edit
  | adjusted ha => exact ⟨ha.edit.opened, ha.edit.edited⟩
  | regrouped => exact .of_eq rfl rfl
  | refreshed => exact .of_eq rfl rfl

theorem Change.follows (hc : Change env m m') (h : m.Coherent env) (hrebuilt : m'.rebuilds ≠ m.rebuilds)
    (hgrouping : m'.grouping = m.grouping) {r : Row} (hr : m.rows[m.cursor.toNat]? = some r)
    (hmem : r.key ∈ m'.rows.map Row.key) : (m'.rows[m'.cursor.toNat]?).map Row.key = some r.key := by
  have hcursor : 0 ≤ m.cursor := by
    rcases h.cursor with h0 | ⟨h0, -⟩ <;> omega
  have hkey : r.key ≠ "" := by
    have hmem := List.mem_of_getElem? hr
    rw [h.rows] at hmem
    exact key_ne_empty_of_table hmem
  cases hc with
  | quiet hq => exact absurd hq.rebuilds hrebuilt
  | adjusted ha =>
    rw [← ha.cursor] at hcursor
    rw [← ha.rows, ← ha.cursor] at hr
    exact rebuild_follows env hcursor hr hkey hmem
  | regrouped =>
    -- the cycle of groupings has no fixed point
    have hnext : m.grouping.next = m.grouping := hgrouping
    cases hg : m.grouping <;> rw [hg] at hnext <;> cases hnext
  | refreshed => exact rebuild_follows (m := { m.appendEvents _ with snap := _, now := _ }) env hcursor hr hkey hmem

/-! ### Runs -/

def step (env : Env ι) (m : Model ι) (msg : Msg) : Model ι := (m.update env msg).1

theorem step_change (env : Env ι) (m : Model ι) (msg : Msg) : Change env m (m.step env msg) := m.update_change env msg

theorem coherent_new (env : Env ι) (agg : Bool) (interfaces : List String) :
    (newModel env agg interfaces).Coherent env :=
  ⟨rfl, .inl rfl, .inl rfl, .inl rfl⟩

theorem coherent_run (env : Env ι) (h : m.Coherent env) (msgs : List Msg) : (msgs.foldl (step env) m).Coherent env := by
  induction msgs generalizing m with
  | nil => exact h
  | cons msg msgs ih => exact ih (h.change (m.step_change env msg))

theorem frozen_run {es : List Msg} (h : Meets (step env) (fun s _ => s.paused = true) m es) :
    (es.foldl (step env) m).snap = m.snap ∧ (es.foldl (step env) m).now = m.now ∧
      (es.foldl (step env) m).events = m.events := by
  induction es generalizing m with
  | nil => exact ⟨rfl, rfl, rfl⟩
  | cons e es ih =>
    obtain ⟨hpaused, hes⟩ := meets_cons.1 h
    obtain ⟨hsnap, hnow, hevents⟩ := (m.step_change env e).frozen hpaused
    obtain ⟨hsnap', hnow', hevents'⟩ := ih hes
    exact ⟨hsnap'.trans hsnap, hnow'.trans hnow, hevents'.trans hevents⟩

/-- Edits that leave the input open keep the filter it was opened over. -/
theorem edit_run {es : List Msg} (hopen : m.filtering = true)
    (h : Meets (step env) (fun s e => (s.step env e).filtering = true) m es) :
    (es.foldl (step env) m).filtering = true ∧ (es.foldl (step env) m).filterBefore = m.filterBefore := by
  induction es generalizing m with
  | nil => exact ⟨hopen, rfl⟩
  | cons e es ih =>
    obtain ⟨hstill, hes⟩ := meets_cons.1 h
    obtain ⟨hf, hb⟩ := ih hstill hes
    exact ⟨hf, hb.trans ((m.step_change env e).editKept.edited hopen hstill)⟩

theorem cancel_step (env : Env ι) {esc : KeyMsg} (hopen : m.filtering = true) (hesc : esc.type = .esc) :
    m.step env (.key esc) = m.cancelFilter env := by
  rw [step, update, handleKey, if_pos hopen, handleFilterKey, hesc]

end Model

/-- In every run: the rows are the table of the current view and the cursors are in their lists; while
paused, the data stays; cancelling an edit brings back the filter it was opened over, whatever happened
in between; and a rebuild at the same grouping leaves the cursor on the row it was on. -/
theorem tui_coherence {ι : Type*} (env : Env ι) (agg : Bool) (interfaces : List String) (msgs : List Msg) :
    let m := msgs.foldl (Model.step env) (newModel env agg interfaces)
    m.Coherent env ∧
      (∀ es, Meets (Model.step env) (fun s _ => s.paused = true) m es →
        (es.foldl (Model.step env) m).snap = m.snap ∧ (es.foldl (Model.step env) m).now = m.now ∧
          (es.foldl (Model.step env) m).events = m.events) ∧
      (∀ msg es esc, m.filtering = false → (m.step env msg).filtering = true →
        Meets (Model.step env) (fun s e => (s.step env e).filtering = true) (m.step env msg) es → esc.type = .esc →
        let m' := (es.foldl (Model.step env) (m.step env msg)).step env (.key esc)
        m'.filter = m.filter ∧ m'.filtering = false) ∧
      ∀ msg r, (m.step env msg).rebuilds ≠ m.rebuilds → (m.step env msg).grouping = m.grouping →
        m.rows[m.cursor.toNat]? = some r → r.key ∈ (m.step env msg).rows.map Row.key →
        ((m.step env msg).rows[(m.step env msg).cursor.toNat]?).map Row.key = some r.key := by
  intro m
  have hcoherent : m.Coherent env := Model.coherent_run env (Model.coherent_new env agg interfaces) msgs
  refine ⟨hcoherent, fun es hes => Model.frozen_run hes, fun msg es esc hclosed hopen hes hesc => ?_,
    fun msg r hrebuilt hgrouping hr hmem => (m.step_change env msg).follows hcoherent hrebuilt hgrouping hr hmem⟩
  obtain ⟨hstill, hbefore⟩ := Model.edit_run hopen hes
  have hopened := (m.step_change env msg).editKept.opened hclosed hopen
  rw [Model.cancel_step env hstill hesc]
  exact ⟨hbefore.trans hopened, rfl⟩

end Trafficmon.Tui
