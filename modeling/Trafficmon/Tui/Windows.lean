import Mathlib.Data.Int.ConditionallyCompleteOrder
import Trafficmon.Lib.Nearest
import Trafficmon.Tui.Coherence

/-!
# Scroll windows (`tui/events.go`, `tui/view.go`)

Of a list that is longer than its panel a window of `limit` rows is drawn, and the row under the cursor
is in it. The table finds its window from the cursor alone; the events panel keeps the window where it
was and moves it no further than the cursor asks for: `eventsWindowStart_eq` says that it takes the
nearest start that shows the cursor. `windows_run` is what the two views rely on when they slice: in
every run the windows are in range. All the numbers lie between 0 and the length of the list, so Go's
`int` is as good as an unbounded integer.
-/

namespace Trafficmon.Tui

def eventsVisibleWindow (top cursor n limit : Int) : Int × Int :=
  if limit ≤ 0 ∨ n ≤ limit then (0, n)
  else
    let start := eventsWindowStart top cursor n limit
    (start, start + limit)

def visibleWindow (n cursor limit : Int) : Int × Int :=
  if limit ≤ 0 ∨ n ≤ limit then (0, n)
  else
    let start := 0
    let start := if cursor ≥ limit then cursor - limit + 1 else start
    let start := if start + limit > n then n - limit else start
    (start, start + limit)

/-! ### Windows -/

/-- The half-open range `w` is in `[0, n]`, has as many rows as there are up to the limit, and has the cursor in it. -/
structure WindowOn (n limit cursor : Int) (w : Int × Int) : Prop where
  range : 0 ≤ w.1 ∧ w.1 ≤ w.2 ∧ w.2 ≤ n
  size : w.2 - w.1 = min n limit
  cursor : w.1 ≤ cursor ∧ cursor < w.2

/-- Where a window of `limit` rows can start to have the cursor in it. -/
def showing (limit cursor : Int) : Set Int := { start | start ≤ cursor ∧ cursor < start + limit }

section Windows
variable {n limit cursor : Int}

theorem showing_eq_Icc (limit cursor : Int) : showing limit cursor = Set.Icc (cursor - limit + 1) cursor := by
  ext start
  change start ≤ cursor ∧ cursor < start + limit ↔ start ∈ Set.Icc _ _
  rw [Set.mem_Icc]
  constructor <;> rintro ⟨h₁, h₂⟩
  · exact ⟨by omega, h₁⟩
  · exact ⟨h₂, by omega⟩

/-- Both clamps and both corrections in one: the start is clamped into the range, and then to the cursor. -/
theorem eventsWindowStart_eq (hlimit : 1 ≤ limit) (hcursor : 0 ≤ cursor ∧ cursor < n) (prevStart : Int) :
    eventsWindowStart prevStart cursor n limit =
      max (cursor - limit + 1) (min cursor (clamp prevStart 0 (max (n - limit) 0))) := by
  obtain ⟨h0, hn⟩ := hcursor
  rw [eventsWindowStart]
  split_ifs with hfits
  · have hn : n ≤ limit := by omega
    rw [max_eq_right (show n - limit ≤ 0 by omega)]
    unfold clamp
    omega
  · rw [max_eq_left (show 0 ≤ n - limit by omega)]
    unfold clamp
    dsimp only
    split_ifs <;> omega

theorem eventsWindowStart_range (hlimit : 1 ≤ limit) (hcursor : 0 ≤ cursor ∧ cursor < n) (prevStart : Int) :
    0 ≤ eventsWindowStart prevStart cursor n limit ∧
      eventsWindowStart prevStart cursor n limit ≤ max (n - limit) 0 := by
  rw [eventsWindowStart_eq hlimit hcursor]
  unfold clamp
  omega

theorem eventsWindowStart_nearest (hlimit : 1 ≤ limit) (hcursor : 0 ≤ cursor ∧ cursor < n) (prevStart : Int) :
    Nearest (showing limit cursor) (clamp prevStart 0 (max (n - limit) 0))
      (eventsWindowStart prevStart cursor n limit) := by
  rw [eventsWindowStart_eq hlimit hcursor, showing_eq_Icc]
  exact nearest_Icc (by omega) _

/-- A start that is in range and shows the cursor is kept. -/
theorem eventsWindowStart_of_showing (hlimit : 1 ≤ limit) (hcursor : 0 ≤ cursor ∧ cursor < n) {prevStart : Int}
    (h : clamp prevStart 0 (max (n - limit) 0) ∈ showing limit cursor) :
    eventsWindowStart prevStart cursor n limit = clamp prevStart 0 (max (n - limit) 0) :=
  (eventsWindowStart_nearest hlimit hcursor prevStart).unique (nearest_self h)

theorem eventsWindowStart_idem (hlimit : 1 ≤ limit) (hcursor : 0 ≤ cursor ∧ cursor < n) (prevStart : Int) :
    eventsWindowStart (eventsWindowStart prevStart cursor n limit) cursor n limit =
      eventsWindowStart prevStart cursor n limit := by
  obtain ⟨h0, hmax⟩ := eventsWindowStart_range hlimit hcursor prevStart
  have hclamp : clamp (eventsWindowStart prevStart cursor n limit) 0 (max (n - limit) 0) =
      eventsWindowStart prevStart cursor n limit := by
    unfold clamp
    rw [max_eq_left h0, min_eq_left hmax]
  have hshows := (eventsWindowStart_nearest hlimit hcursor prevStart).mem
  rw [← hclamp] at hshows
  exact (eventsWindowStart_of_showing hlimit hcursor hshows).trans hclamp

theorem windowOn_eventsVisibleWindow (hlimit : 1 ≤ limit) (hcursor : 0 ≤ cursor ∧ cursor < n) (top : Int) :
    WindowOn n limit cursor (eventsVisibleWindow top cursor n limit) := by
  obtain ⟨h0, hmax⟩ := eventsWindowStart_range hlimit hcursor top
  obtain ⟨hle, hlt⟩ := (eventsWindowStart_nearest hlimit hcursor top).mem
  rw [eventsVisibleWindow]
  split_ifs with hfits
  · exact ⟨by omega, by omega, by omega⟩
  · dsimp only
    exact ⟨by omega, by omega, hle, hlt⟩

theorem windowOn_visibleWindow (hlimit : 1 ≤ limit) (hcursor : 0 ≤ cursor ∧ cursor < n) :
    WindowOn n limit cursor (visibleWindow n cursor limit) := by
  obtain ⟨h0, hn⟩ := hcursor
  rw [visibleWindow]
  dsimp only
  split_ifs with hfits
  all_goals exact ⟨by omega, by omega, by omega⟩

/-- Whatever the window was, the next one is in range and shows the cursor, and the events panel's is moved no
further than that takes. -/
theorem scroll_windows (hlimit : 1 ≤ limit) (hcursor : 0 ≤ cursor ∧ cursor < n) (prevStart : Int) :
    WindowOn n limit cursor (eventsVisibleWindow prevStart cursor n limit) ∧
      WindowOn n limit cursor (visibleWindow n cursor limit) ∧
      let start := eventsWindowStart prevStart cursor n limit
      let held := clamp prevStart 0 (max (n - limit) 0)
      (0 ≤ start ∧ start ≤ max (n - limit) 0) ∧ Nearest (showing limit cursor) held start ∧
        (held ∈ showing limit cursor → start = held) ∧ eventsWindowStart start cursor n limit = start := by
  refine ⟨windowOn_eventsVisibleWindow hlimit hcursor prevStart, windowOn_visibleWindow hlimit hcursor, ?_⟩
  refine ⟨eventsWindowStart_range hlimit hcursor prevStart, eventsWindowStart_nearest hlimit hcursor prevStart, ?_, ?_⟩
  · exact fun hshows => eventsWindowStart_of_showing hlimit hcursor hshows
  · exact eventsWindowStart_idem hlimit hcursor prevStart

theorem scroll_windows_jump :
    WindowOn 100 10 20 (eventsVisibleWindow 4 20 100 10) ∧ eventsWindowStart 4 20 100 10 = 11 ∧
      Nearest (showing 10 20) 4 (eventsWindowStart 4 20 100 10) := by
  obtain ⟨hwindow, -, -, hnearest, -⟩ := @scroll_windows 100 10 20 (by decide) (by decide) 4
  exact ⟨hwindow, by decide, hnearest⟩

end Windows

/-! ### What is drawn -/

/-- `l[start:stop]`, which panics out of range. -/
def slice {α : Type*} (l : List α) (start stop : Int) : Option (List α) :=
  if 0 ≤ start ∧ start ≤ stop ∧ stop ≤ l.length then some ((l.take stop.toNat).drop start.toNat) else none

namespace Model
variable {ι : Type*} (m : Model ι)

def rowLines : Int := m.layout.1

/-- The rows that `viewTable` draws. -/
def visibleRows : Option (List Row) :=
  let w := visibleWindow m.rows.length m.cursor m.rowLines
  slice m.rows w.1 w.2

/-- The records that `viewEvents` draws. -/
def visibleEvents : Option (List EventRecord) :=
  let w := eventsVisibleWindow m.eventsWindowTop m.eventsCursor m.events.items.length m.eventsRowLines
  slice m.events.items w.1 w.2

end Model

/-- `shown` is what is drawn of `l`: a run of it, with the element under the cursor if there is one, and of at most
`limit` elements if there is a limit. -/
structure Drawn {α : Type*} (l : List α) (cursor limit : Int) (shown : List α) : Prop where
  run : shown <:+: l
  cursor : ∀ a, l[cursor.toNat]? = some a → a ∈ shown
  size : 1 ≤ limit → (shown.length : Int) = min (l.length : Int) limit

section Drawn
variable {α : Type*} {l : List α} {cursor limit : Int} {w : Int × Int}

theorem slice_all (l : List α) : slice l 0 l.length = some l := by
  rw [slice, if_pos (by omega)]
  simp

theorem drawn_slice (hw : WindowOn l.length limit cursor w) : ∃ shown, slice l w.1 w.2 = some shown ∧
    Drawn l cursor limit shown := by
  obtain ⟨⟨h0, hle, hlen⟩, hsize, hfirst, hlast⟩ := hw
  refine ⟨_, if_pos ⟨h0, hle, hlen⟩, ?_, fun a ha => ?_, fun _ => ?_⟩
  · exact (List.drop_suffix _ _).isInfix.trans (List.take_prefix _ _).isInfix
  · have hat : ((l.take w.2.toNat).drop w.1.toNat)[cursor.toNat - w.1.toNat]? = some a := by
      rw [List.getElem?_drop, List.getElem?_take, if_pos (by omega), ← ha]
      congr 1
      omega
    exact List.mem_of_getElem? hat
  · rw [List.length_drop, List.length_take]
    omega

/-- The whole list is drawn where there is no limit; else the window is in range unless there is nothing to draw. -/
theorem drawn_of_window (hcursor : InList cursor l.length)
    (hall : limit ≤ 0 ∨ (l.length : Int) ≤ limit → w = (0, (l.length : Int)))
    (hwindow : 1 ≤ limit → 0 ≤ cursor ∧ cursor < l.length → WindowOn l.length limit cursor w) :
    ∃ shown, slice l w.1 w.2 = some shown ∧ Drawn l cursor limit shown := by
  by_cases hlimit : 1 ≤ limit
  · rcases l.length.eq_zero_or_pos with hzero | hpos
    · obtain rfl := List.length_eq_zero_iff.1 hzero
      rw [hall (.inr (by rw [hzero]; omega))]
      refine ⟨[], slice_all [], List.infix_rfl, fun a ha => ?_, fun _ => ?_⟩
      · cases ha
      · rw [List.length_nil]
        omega
    · have hin : 0 ≤ cursor ∧ cursor < l.length := by
        rcases hcursor with rfl | hin
        · omega
        · exact hin
      exact drawn_slice (hwindow hlimit hin)
  · rw [hall (.inl (by omega))]
    exact ⟨l, slice_all l, List.infix_rfl, fun _ ha => List.mem_of_getElem? ha, fun h => absurd h hlimit⟩

end Drawn

namespace Model
variable {ι : Type*} {env : Env ι} {m : Model ι}

theorem Coherent.drawn (h : m.Coherent env) :
    (∃ shown, m.visibleRows = some shown ∧ Drawn m.rows m.cursor m.rowLines shown) ∧
      ∃ shown, m.visibleEvents = some shown ∧ Drawn m.events.items m.eventsCursor m.eventsRowLines shown := by
  constructor
  · exact drawn_of_window h.cursor (fun hall => if_pos hall) fun hlimit hin => windowOn_visibleWindow hlimit hin
  · exact drawn_of_window h.eventsCursor (fun hall => if_pos hall) fun hlimit hin =>
      windowOn_eventsVisibleWindow hlimit hin m.eventsWindowTop

end Model

/-- In every run both views slice within their lists and draw the element under the cursor. -/
theorem windows_run {ι : Type*} (env : Env ι) (agg : Bool) (interfaces : List String) (msgs : List Msg) :
    let m := msgs.foldl (Model.step env) (newModel env agg interfaces)
    (∃ shown, m.visibleRows = some shown ∧ Drawn m.rows m.cursor m.rowLines shown) ∧
      ∃ shown, m.visibleEvents = some shown ∧ Drawn m.events.items m.eventsCursor m.eventsRowLines shown :=
  (Model.coherent_run env (Model.coherent_new env agg interfaces) msgs).drawn

end Trafficmon.Tui
