import Trafficmon.Tui.Lipgloss

/-!
# The lines in the panels

The lines of the two bodies have no control characters when the texts they show have none (`Legible`), are as many
as the layout says, and no wider than the terminal, the events' columns and the table (`fits_connBody`,
`fits_viewEvents`).
-/

namespace Trafficmon.Tui
open Styled GoString

/-! ### The lines of the two bodies -/

/-- Nothing that is shown has a control character in it. -/
structure Model.Legible {ι : Type*} (env : Env ι) (S : Screen ι) (m : Model ι) : Prop where
  filter : Printable (utf8 m.filter)
  interfaces : ∀ name ∈ m.interfaces, Printable (utf8 name)
  rows : ∀ r ∈ m.rows, ∀ c ∈ tableColumns S.formats m.grouping (some env.hostname) m.now, Printable (utf8 (c.cell r))
  events : ∀ rec ∈ m.events.items, ∀ s ∈ S.formatEventRow rec, Printable (utf8 s)

theorem length_fitLines (lines : List Text) {n : Int} (hn : 0 < n) : ((fitLines lines n).length : Int) = n + 1 := by
  rw [fitLines, if_neg (not_le.2 hn)]
  simp only [List.length_take, List.length_append, List.length_replicate]
  omega

theorem mem_fitLines {lines : List Text} {n : Int} {l : Text} (h : l ∈ fitLines lines n) : l ∈ lines ∨ l = [] := by
  unfold fitLines at h
  split_ifs at h with hn
  · exact .inl h
  · rcases List.mem_append.1 (List.mem_of_mem_take h) with hl | hl
    · exact .inl hl
    · exact .inr (List.eq_of_mem_replicate hl)

/-- The lines that fit stand where they were. -/
theorem getElem?_fitLines {lines : List Text} {n : Int} (hn : 0 < n) (hlen : (lines.length : Int) ≤ n + 1) {i : ℕ}
    {l : Text} (h : lines[i]? = some l) : (fitLines lines n)[i]? = some l := by
  obtain ⟨hi, -⟩ := List.getElem?_eq_some_iff.1 h
  rw [fitLines, if_neg (not_le.2 hn)]
  simp only [List.getElem?_take]
  rw [if_pos (by omega), List.getElem?_append_left hi, h]

/-- The columns of the events panel, under the texts in them. -/
def eventColumns (texts : List String) (infoWidth : Int) : List Column :=
  List.zipWith (fun s w => ⟨s, w, .left, prioEssential, fun _ => "", false, false, .rate, false⟩) texts
    (eventColumnWidths infoWidth)

namespace Model
variable {ι : Type*} (S : Screen ι) (m : Model ι)

/-- The row of the table that the first line under the titles shows. -/
def rowsStart : Int := (visibleWindow m.rows.length m.cursor m.rowLines).1

def eventsStart : Int :=
  (eventsVisibleWindow m.eventsWindowTop m.eventsCursor m.events.items.length m.eventsRowLines).1

/-- The event `rec`, which is the `i`th. -/
def viewEvent (rec : EventRecord) (i : Int) : Text :=
  S.renderEventRow rec (eventInfoWidth m.contentWidth) (i = m.eventsCursor)

end Model

section Bodies
variable {ι : Type*} {env : Env ι} {S : Screen ι} {m : Model ι} {w : Int}

theorem intercalate_eventCells (S : Screen ι) (texts : List String) (infoWidth : Int) :
    List.intercalate (spaces colGap) (S.eventCells texts infoWidth) =
      renderCells S.width (fun c => utf8 c.title) (eventColumns texts infoWidth) := by
  rw [renderCells, eventColumns, List.map_zipWith]
  rfl

theorem fits_eventCells (hS : S.Lawful) {cw : Int} (hcw : 1 ≤ cw) (hw : cw ≤ w) (h81 : 81 ≤ w) {a b c d e f : String}
    (h : ∀ s ∈ [a, b, c, d, e, f], Printable (utf8 s)) :
    S.Fits w (plain (List.intercalate (spaces colGap) (S.eventCells [a, b, c, d, e, f] (eventInfoWidth cw)))) := by
  have hinfo : 1 ≤ eventInfoWidth cw ∧ 71 + eventInfoWidth cw ≤ w := by
    simp only [eventInfoWidth, eventTimeWidth, eventSeverityWidth, eventTypeWidth, eventAddrWidth, colGap,
      minLabelWidth, clamp]
    omega
  have htitle : ∀ x ∈ eventColumns [a, b, c, d, e, f] (eventInfoWidth cw), x.title ∈ [a, b, c, d, e, f] ∧
      1 ≤ x.width := by
    intro x hx
    rw [eventColumns, ← List.map_uncurry_zip_eq_zipWith] at hx
    obtain ⟨⟨s, k⟩, hmem, rfl⟩ := List.mem_map.1 hx
    obtain ⟨hs, hk⟩ := List.of_mem_zip hmem
    refine ⟨hs, ?_⟩
    simp only [eventColumnWidths, eventTimeWidth, eventSeverityWidth, eventTypeWidth, eventAddrWidth, List.mem_cons,
      List.not_mem_nil, or_false] at hk
    dsimp only [Function.uncurry]
    omega
  rw [intercalate_eventCells]
  refine ⟨?_, ?_⟩
  · rw [unstyled_plain]
    exact printable_renderCells fun x hx => h _ (htitle x hx).1
  · rw [Screen.cells, unstyled_plain, width_renderCells hS.width (by simp [eventColumns, eventColumnWidths])
      fun x hx => (htitle x hx).2]
    have htotal : tableWidth (eventColumns [a, b, c, d, e, f] (eventInfoWidth cw)) = 71 + eventInfoWidth cw := by
      simp [tableWidth_eq, eventColumns, eventColumnWidths, widths, eventTimeWidth, eventSeverityWidth, eventTypeWidth,
        eventAddrWidth, colGap]
      ring
    omega

theorem map_unstyled_mapIdx {cells : List (List UInt8)} {f : ℕ → List UInt8 → Text}
    (h : ∀ i, ∀ c ∈ cells, unstyled (f i c) = c) : (cells.mapIdx f).map unstyled = cells := by
  refine List.ext_getElem? fun i => ?_
  rw [List.getElem?_map, List.getElem?_mapIdx]
  cases hc : cells[i]? with
  | none => rfl
  | some c => exact congrArg some (h i c (List.mem_of_getElem? hc))

theorem unstyled_renderEventRow (hS : S.Lawful) {rec : EventRecord} (h : ∀ s ∈ S.formatEventRow rec, Printable (utf8 s))
    (infoWidth : Int) (selected : Bool) : unstyled (S.renderEventRow rec infoWidth selected) =
      List.intercalate (spaces colGap) (S.eventCells (S.formatEventRow rec) infoWidth) := by
  have hcells : ∀ c ∈ S.eventCells (S.formatEventRow rec) infoWidth, Printable c := by
    intro c hc
    rw [Screen.eventCells, ← List.map_uncurry_zip_eq_zipWith] at hc
    obtain ⟨⟨s, w⟩, hmem, rfl⟩ := List.mem_map.1 hc
    exact printable_pad (h s (List.of_mem_zip hmem).1) _ _ _
  have hcell : ∀ st : Style, st.pads = false → ∀ c ∈ S.eventCells (S.formatEventRow rec) infoWidth,
      unstyled (S.render st (plain c)) = c := fun st hst c hc => by
    rw [hS.unstyled_render hst (by rw [unstyled_plain]; exact hcells c hc), unstyled_plain]
  unfold Screen.renderEventRow
  dsimp only
  cases selected with
  | false =>
    rw [if_pos (by rfl), unstyled_intercalate, unstyled_plain, map_unstyled_mapIdx]
    intro i c hc
    by_cases hi : i = eventSeverityColumn
    · rw [if_pos hi]
      exact hcell _ (by split_ifs <;> rfl) c hc
    · rw [if_neg hi, unstyled_plain]
  | true =>
    rw [if_neg (by simp), unstyled_intercalate,
      hS.unstyled_render rfl (by rw [unstyled_plain]; exact printable_spaces _), unstyled_plain, map_unstyled_mapIdx]
    exact fun i c hc => hcell _ (by split_ifs <;> rfl) c hc

theorem fits_renderEventRow (hS : S.Lawful) {cw : Int} (hcw : 1 ≤ cw) (hw : cw ≤ w) (h81 : 81 ≤ w) {rec : EventRecord}
    (h : ∀ s ∈ S.formatEventRow rec, Printable (utf8 s)) (selected : Bool) :
    S.Fits w (S.renderEventRow rec (eventInfoWidth cw) selected) := by
  have hfits := fits_eventCells hS hcw hw h81 h
  rw [Screen.Fits, Screen.cells, unstyled_plain] at hfits
  rw [Screen.Fits, Screen.cells, unstyled_renderEventRow hS h]
  exact hfits

theorem Model.one_le_contentWidth (m : Model ι) : 1 ≤ m.viewWidth ∧ 1 ≤ m.contentWidth ∧
    (5 ≤ m.viewWidth → m.contentWidth = m.viewWidth - 4) := by
  have hview : 1 ≤ m.viewWidth := by
    unfold Model.viewWidth defaultWidth
    split_ifs <;> omega
  unfold Model.contentWidth clamp panelBorderWidth
  omega

/-- The lines of the events panel fit wherever there is room for the terminal's width and the panel's least. -/
theorem fits_viewEvents (hS : S.Lawful) (hleg : m.Legible env S) (hrows : 0 < m.layout.2) (hw : m.contentWidth ≤ w)
    (h81 : 81 ≤ w) {shown : List EventRecord} (hshown : m.visibleEvents = some shown)
    (hdrawn : Drawn m.events.items m.eventsCursor m.eventsRowLines shown) :
    ∃ body, m.viewEvents S = some body ∧ (body.length : Int) = m.layout.2 + 1 ∧ (∀ l ∈ body, S.Fits w l) ∧
      ∀ (i : ℕ) rec, shown[i]? = some rec → body[i + 1]? = some (m.viewEvent S rec (m.eventsStart + i)) := by
  obtain ⟨-, hcw, -⟩ := m.one_le_contentWidth
  have htitle : S.Fits w (S.render .columnHeader (plain (S.renderEventHeader (eventInfoWidth m.contentWidth)))) :=
    hS.fits_render rfl (fits_eventCells hS hcw hw h81 (by decide))
  have hnil : S.Fits w [] := hS.fits_nil (by omega)
  by_cases hempty : m.events.items = []
  · refine ⟨_, by rw [Model.viewEvents, if_pos hempty]; rfl, length_fitLines _ hrows, fun l hl => ?_,
      fun i rec hrec => ?_⟩
    · have hmessage : S.Fits w (S.styled .breadcrumb emptyEventsMessage) :=
        hS.fits_styled rfl (by decide) (le_trans (by decide) h81)
      rcases mem_fitLines hl with hl | rfl
      · rcases List.mem_pair.1 hl with rfl | rfl
        · exact htitle
        · exact hmessage
      · exact hnil
    · have hmem := hdrawn.run.subset (List.mem_of_getElem? hrec)
      rw [hempty] at hmem
      cases hmem
  · refine ⟨_, by rw [Model.viewEvents, if_neg hempty, hshown]; rfl, length_fitLines _ hrows, fun l hl => ?_,
      fun i rec hrec => ?_⟩
    · rcases mem_fitLines hl with hl | rfl
      · rcases List.mem_cons.1 hl with rfl | hl
        · exact htitle
        · obtain ⟨i, hi, rfl⟩ := List.mem_mapIdx.1 hl
          exact fits_renderEventRow hS hcw hw h81
            (hleg.events _ (hdrawn.run.subset (List.getElem_mem hi))) _
      · exact hnil
    · refine getElem?_fitLines hrows ?_ ?_
      · have hsize := hdrawn.size hrows
        rw [List.length_cons, List.length_mapIdx]
        have : m.eventsRowLines = m.layout.2 := rfl
        push_cast
        omega
      · rw [List.getElem?_cons_succ, List.getElem?_mapIdx, hrec]
        rfl

theorem printable_title {fmt : Formats} {g : Grouping} {hostname : Row → String} {now : Int} {c : Column}
    (h : c ∈ tableColumns fmt g (some hostname) now) :
    Printable (utf8 c.title) ∧ Printable (utf8 (sortMarker ++ c.title)) := by
  have htitles : ∀ s ∈ ["PROCESS", "LOCAL", "REMOTE", "HOSTNAME", "IFACE", "PID", "PROTO", "STATE", "CONN", "AGE",
      "↓ RATE", "↑ RATE", "↓ TOTAL", "↑ TOTAL"], Printable (utf8 s) ∧ Printable (utf8 (sortMarker ++ s)) := by decide
  have hmem : c.title ∈ (tableColumns fmt g (some hostname) now).map Column.title := List.mem_map_of_mem h
  cases g with
  | byPID =>
    exact htitles _ ((show ["PROCESS", "LOCAL", "REMOTE", "HOSTNAME", "IFACE", "PID", "CONN", "AGE",
      "↓ RATE", "↑ RATE", "↓ TOTAL", "↑ TOTAL"] ⊆ _ by decide) hmem)
  | byProcessName =>
    exact htitles _ ((show ["PROCESS", "REMOTE", "HOSTNAME", "IFACE", "CONN", "AGE",
      "↓ RATE", "↑ RATE", "↓ TOTAL", "↑ TOTAL"] ⊆ _ by decide) hmem)
  | none =>
    exact htitles _ ((show ["PROCESS", "LOCAL", "REMOTE", "HOSTNAME", "IFACE", "PROTO", "PID",
      "STATE", "AGE", "↓ RATE", "↑ RATE", "↓ TOTAL", "↑ TOTAL"] ⊆ _ by decide) hmem)

theorem fits_tableHeader (hS : S.Lawful) (m : Model ι) (htable : tableWidth (m.columns env S) ≤ w) (k : SortKey) :
    S.Fits w (plain (tableHeader S.width (m.columns env S) k)) := by
  rw [Screen.Fits, Screen.cells, unstyled_plain]
  refine ⟨printable_renderCells fun c hc => ?_, ?_⟩
  · obtain ⟨d, hd, htitle, -⟩ := exists_of_mem_fitColumns hc
    rw [htitle]
    split_ifs
    · exact (printable_title hd).2
    · exact (printable_title hd).1
  · have hwidth := tableLines_width hS.width S.formats m.grouping (some env.hostname) m.now m.contentWidth
    exact (hwidth.1 k).trans_le htable

theorem fits_viewRow (hS : S.Lawful) (hleg : m.Legible env S) (htable : tableWidth (m.columns env S) ≤ w) {r : Row}
    (hr : r ∈ m.rows) (i : Int) : S.Fits w (m.viewRow env S r i) := by
  have hline : S.Fits w (plain (renderRow S.width r (m.columns env S))) := by
    rw [Screen.Fits, Screen.cells, unstyled_plain]
    refine ⟨printable_renderCells fun c hc => ?_, ?_⟩
    · obtain ⟨d, hd, -, hcell⟩ := exists_of_mem_fitColumns hc
      rw [hcell]
      exact hleg.rows r hr d hd
    · have hwidth := tableLines_width hS.width S.formats m.grouping (some env.hostname) m.now m.contentWidth
      exact (hwidth.2 [r] _ List.mem_cons_self).trans_le htable
  unfold Model.viewRow
  dsimp only
  split_ifs
  · exact hS.fits_render rfl (hS.fits_render rfl hline)
  · exact hS.fits_render rfl hline
  · exact hS.fits_render rfl hline
  · exact hline

theorem fits_viewHeader (hS : S.Lawful) (hleg : m.Legible env S) (hw : m.contentWidth ≤ w) (h48 : 48 ≤ w) :
    S.Fits w (m.viewHeader S) := by
  have hname : AllNarrow (appName ++ " · " ++ m.grouping.string).toList := by
    cases m.grouping <;> decide
  have hlen : ((appName ++ " · " ++ m.grouping.string).toList.length : Int) ≤ 23 := by
    cases m.grouping <;> decide
  have honOff : ∀ (enable : Bool) (on off : String), AllNarrow on.toList → AllNarrow off.toList →
      Printable (unstyled (if enable then S.styled .live on else S.styled .paused off)) := by
    intro enable on off hon hoff
    cases enable with
    | false => exact hS.printable_styled hoff _
    | true => exact hS.printable_styled hon _
  have hlabel : Printable (utf8 ("sort: " ++ m.sort.string)) := by
    cases m.sort <;> decide
  unfold Model.viewHeader
  refine hS.fits_joinEnds hw ⟨hS.printable_styled hname _, ?_⟩ ?_
  · rw [hS.cells_styled_pads rfl hname]
    omega
  · rw [unstyled_intercalate, unstyled_plain]
    refine printable_intercalate (by decide) fun s hs => ?_
    simp only [List.map_cons, List.map_nil, List.mem_cons, List.not_mem_nil, or_false] at hs
    rcases hs with rfl | rfl | rfl | rfl | rfl | rfl | rfl | rfl | rfl
    · refine hS.printable_render ?_ _
      rw [unstyled_plain]
      split_ifs
      · have hfilter : Printable (truncate S.width (utf8 m.filter) maxFilterLabel) :=
          printable_truncateSide hleg.filter maxFilterLabel false
        rw [printable_append, printable_append, printable_append]
        exact ⟨⟨⟨by decide, hfilter⟩, by decide⟩, hlabel⟩
      · exact hlabel
    all_goals exact honOff _ _ _ (by decide) (by decide)

theorem fits_viewIfacePicker (hS : S.Lawful) (hleg : m.Legible env S) (hw : m.contentWidth ≤ w) (h48 : 48 ≤ w)
    {l : Text} (hl : l ∈ m.viewIfacePicker S) : S.Fits w l := by
  have hnil : S.Fits w [] := hS.fits_nil (by omega)
  rcases mem_fitLines hl with hl | rfl
  · rcases List.mem_cons.1 hl with rfl | hl
    · exact hS.fits_styled rfl (by decide) (le_trans (by decide) h48)
    rcases List.mem_cons.1 hl with rfl | hl
    · exact hnil
    obtain ⟨i, hi, rfl⟩ := List.mem_mapIdx.1 hl
    have hname := hleg.interfaces _ (List.getElem_mem hi)
    have hline : ∀ mark : String, Printable (utf8 mark) → S.Fits w (plain (pad S.width
        (utf8 (mark ++ " " ++ m.interfaces[i])) m.contentWidth .left false)) := fun mark hmark => by
      rw [Screen.Fits, Screen.cells, unstyled_plain, width_pad hS.width m.one_le_contentWidth.2.1]
      refine ⟨printable_pad ?_ _ _ _, hw⟩
      simp only [utf8, String.toList_append, GoString.ofRunes_append, printable_append]
      exact ⟨⟨hmark, by decide⟩, hname⟩
    have hbox := hline (if (m.activeInterfaces.lookup m.interfaces[i]).getD false then "[x]" else "[ ]")
      (by split_ifs <;> decide)
    dsimp only
    by_cases hcursor : (i : Int) = m.ifaceCursor
    · rw [if_pos hcursor]
      exact hS.fits_render rfl hbox
    · rw [if_neg hcursor]
      exact hbox
  · exact hnil

/-- The lines of the connections panel. -/
theorem fits_connBody (hS : S.Lawful) (hleg : m.Legible env S) (hhelp : m.showHelp = false) (hrows : 0 < m.layout.1)
    (hw : m.contentWidth ≤ w) (h48 : 48 ≤ w) (htable : tableWidth (m.columns env S) ≤ w) {shown : List Row}
    (hshown : m.visibleRows = some shown) (hdrawn : Drawn m.rows m.cursor m.rowLines shown) :
    ∃ body, m.connBody env S = some body ∧ (body.length : Int) = m.layout.1 + 2 ∧ (∀ l ∈ body, S.Fits w l) ∧
      (m.showIfacePicker = false →
        body[1]? = some (S.render .columnHeader (plain (tableHeader S.width (m.columns env S) m.sort))) ∧
        ∀ (i : ℕ) r, shown[i]? = some r → body[i + 2]? = some (m.viewRow env S r (m.rowsStart + i))) := by
  have hheader := fits_viewHeader (m := m) hS hleg hw h48
  have hnil : S.Fits w [] := hS.fits_nil (by omega)
  have htitle : S.Fits w (S.render .columnHeader (plain (tableHeader S.width (m.columns env S) m.sort))) :=
    hS.fits_render rfl (fits_tableHeader hS m htable m.sort)
  cases hpick : m.showIfacePicker with
  | true =>
    refine ⟨m.viewHeader S :: m.viewIfacePicker S, ?_, ?_, ?_, nofun⟩
    · rw [Model.connBody, hhelp, hpick]
      rfl
    · rw [List.length_cons]
      have hlen : ((m.viewIfacePicker S).length : Int) = m.layout.1 + 1 := length_fitLines _ hrows
      push_cast
      omega
    · exact List.forall_mem_cons.2 ⟨hheader, fun l hl => fits_viewIfacePicker hS hleg hw h48 hl⟩
  | false =>
    -- the table, or the message in its place
    suffices h : ∃ table, m.viewTable env S = some table ∧ (table.length : Int) = m.layout.1 + 1 ∧
        (∀ l ∈ table, S.Fits w l) ∧
        table[0]? = some (S.render .columnHeader (plain (tableHeader S.width (m.columns env S) m.sort))) ∧
        ∀ (i : ℕ) r, shown[i]? = some r → table[i + 1]? = some (m.viewRow env S r (m.rowsStart + i)) by
      obtain ⟨table, heq, hlen, hfits, hfirst, hplaced⟩ := h
      refine ⟨m.viewHeader S :: table, ?_, ?_, List.forall_mem_cons.2 ⟨hheader, hfits⟩, fun _ => ⟨?_, ?_⟩⟩
      · rw [Model.connBody, hhelp, hpick]
        simp only [Bool.false_eq_true, if_false, heq, Option.map_some]
      · rw [List.length_cons]
        push_cast
        omega
      · rw [List.getElem?_cons_succ]
        exact hfirst
      · intro i r hr
        rw [List.getElem?_cons_succ]
        exact hplaced i r hr
    have hsize := hdrawn.size hrows
    by_cases hempty : m.rows = []
    · refine ⟨_, by rw [Model.viewTable, if_pos hempty]; rfl, length_fitLines _ hrows, fun l hl => ?_,
        getElem?_fitLines hrows ?_ rfl, fun i r hr => ?_⟩
      · have hmessage : S.Fits w (S.styled .breadcrumb m.emptyBody) := by
          unfold Model.emptyBody
          split_ifs
          · exact hS.fits_styled rfl (by decide) (le_trans (by decide) h48)
          · exact hS.fits_styled rfl (by decide) (le_trans (by decide) h48)
        rcases mem_fitLines hl with hl | rfl
        · rcases List.mem_pair.1 hl with rfl | rfl
          · exact htitle
          · exact hmessage
        · exact hnil
      · have : m.rowLines = m.layout.1 := rfl
        simp only [List.length_cons, List.length_nil]
        omega
      · have hmem := hdrawn.run.subset (List.mem_of_getElem? hr)
        rw [hempty] at hmem
        cases hmem
    · have hlen : ((S.render .columnHeader (plain (tableHeader S.width (m.columns env S) m.sort)) ::
          shown.mapIdx fun i r => m.viewRow env S r (m.rowsStart + i)).length : Int) ≤ m.layout.1 + 1 := by
        rw [List.length_cons, List.length_mapIdx]
        have : m.rowLines = m.layout.1 := rfl
        push_cast
        omega
      refine ⟨_, by rw [Model.viewTable, if_neg hempty, hshown]; rfl, length_fitLines _ hrows, fun l hl => ?_,
        getElem?_fitLines hrows hlen rfl, fun i r hr => getElem?_fitLines hrows hlen ?_⟩
      · rcases mem_fitLines hl with hl | rfl
        · rcases List.mem_cons.1 hl with rfl | hl
          · exact htitle
          · obtain ⟨i, hi, rfl⟩ := List.mem_mapIdx.1 hl
            exact fits_viewRow hS hleg htable (hdrawn.run.subset (List.getElem_mem hi)) _
        · exact hnil
      · rw [List.getElem?_cons_succ, List.getElem?_mapIdx, hr]
        rfl

end Bodies

/-! ### A connection on the screen -/

/-- No names for addresses. -/
def plainEnv : Env Unit := ⟨(), fun i _ => i, fun _ => "", fun i _ => i, id, id, Row.remoteAddr, id⟩

/-- A browser fetches a page. -/
def fetching : Snapshot where
  takenAt := 5
  connections := [{
    pid := 7, processName := "firefox", localAddr := "10.0.0.2", localPort := 50000, remoteAddr := "93.184.216.34",
    remotePort := 443, proto := "tcp", bytesInTotal := 900, bytesOutTotal := 80, lastSeen := 5, firstSeen := 1,
    iface := "en0", lastPolled := 5 }]

/-- It is shown on a terminal of that size. -/
def browsing (width height : Int) : Model Unit :=
  [Msg.tick 5 fetching, .windowSize width height].foldl (Model.step plainEnv) (newModel plainEnv true ["en0"])

theorem legible_browsing (width height : Int) : (browsing width height).Legible plainEnv plainScreen := by
  have hfilter : Printable (utf8 "") := by decide
  have hinterfaces : ∀ name ∈ ["en0"], Printable (utf8 name) := by decide
  have hrows : let m := (newModel plainEnv true ["en0"]).step plainEnv (.tick 5 fetching)
      ∀ r ∈ m.rows, ∀ c ∈ tableColumns plainScreen.formats m.grouping (some plainEnv.hostname) m.now,
        Printable (utf8 (c.cell r)) := by decide +kernel
  exact ⟨hfilter, hinterfaces, hrows, fun rec hrec => absurd hrec List.not_mem_nil⟩

end Trafficmon.Tui
