import Trafficmon.Tui.Bodies

/-!
# The frame on the screen

What `viewFrame` draws, given what lipgloss does. In every run the frame fits the terminal (`frame_fits`). On one
that is tall and wide enough it fills it: the panels, the rows in them, the divider that the mouse can drag and the
footer stand where `layout` has them (`frame_drawn`). A box breaks lines that are too wide for it before they can be
clipped, so a terminal too narrow for the columns loses the footer (`footer_shown_iff`).
-/

namespace Trafficmon.Tui
open Styled GoString

/-! ### Panels -/

theorem spaces_append_space {n : Int} (hn : 0 ≤ n) (t : List UInt8) :
    spaces n ++ (utf8 " " ++ t) = spaces (n + 1) ++ t := by
  obtain ⟨k, rfl⟩ := Int.eq_ofNat_of_zero_le hn
  have hk : ((k : Int) + 1).toNat = k + 1 := by omega
  rw [spaces, spaces, hk, Int.toNat_natCast, List.replicate_succ', List.flatten_append, List.append_assoc]
  simp

section Panels
variable {ι : Type*} {env : Env ι} {S : Screen ι} {m : Model ι} {w : Int}

theorem cells_inside (hS : S.Lawful) {b : Box} {l : Text} (h : S.cells l ≤ b.inner) :
    S.cells (b.inside S.width l) = b.width + 2 := by
  have hside : S.width (utf8 "│") = 1 := (hS.width_utf8 (by decide)).trans (by decide)
  have heq : unstyled (b.inside S.width l) =
      ofRunes ['│', ' '] ++ (unstyled l ++ (spaces (b.inner - S.cells l + 1) ++ utf8 "│")) := by
    rw [Screen.cells] at h ⊢
    simp only [Box.inside, unstyled_append, unstyled_plain, unstyled_inStyle, List.append_assoc]
    rw [spaces_append_space (by omega), ← List.append_assoc]
    rfl
  rw [Screen.cells, heq, hS.width.ofRunes_append, hS.width_narrow (by decide),
    hS.width.append (starts_spaces_append (by omega) _), hS.width.spaces_append (by omega), hside, ← Screen.cells]
  simp only [List.length_cons, List.length_nil, Box.inner]
  push_cast
  ring

theorem bottom_spec (hS : S.Lawful) {b : Box} (h : 0 ≤ b.width) :
    Printable (unstyled b.bottom) ∧ S.cells b.bottom = b.width + 2 := by
  obtain ⟨rs, hrunes, hlen, hnarrow⟩ := b.unstyled_bottom
  refine ⟨b.printable_bottom, ?_⟩
  rw [Screen.cells, hrunes, hS.width_narrow hnarrow, hlen]
  push_cast
  omega

theorem titleBar_spec (hS : S.Lawful) {title : String} (hne : title ≠ "") (hnarrow : AllNarrow title.toList)
    (hw : (title.toList.length : Int) + 5 ≤ w) (focused : Bool) :
    let bar := S.renderPanelTitleBar title w focused
    Printable (unstyled bar) ∧ S.cells bar = w := by
  intro bar
  have hlabel : AllNarrow (" " ++ title ++ " ").toList := by
    rw [String.toList_append, String.toList_append, allNarrow_append, allNarrow_append]
    exact ⟨⟨by decide, hnarrow⟩, by decide⟩
  have hwidth : S.width (utf8 (" " ++ title ++ " ")) = title.toList.length + 2 := by
    have hone : " ".toList.length = 1 := by decide
    rw [hS.width_utf8 hlabel, String.toList_append, String.toList_append, List.length_append, List.length_append, hone]
    push_cast
    ring
  obtain ⟨n, hn⟩ : ∃ n : ℕ, max (w - 2 - 1 - S.width (utf8 (" " ++ title ++ " "))) 0 = n ∧
      (n : Int) = w - 5 - title.toList.length := ⟨(w - 5 - title.toList.length).toNat, by omega, by omega⟩
  have hend : AllNarrow (List.replicate n '─' ++ ['╮']) :=
    allNarrow_append.2 ⟨allNarrow_replicate (by decide) n, by decide⟩
  have hedge : ∀ (rs : List Char) (st : Style), AllNarrow rs → st.pads = false →
      unstyled (S.render st (plain (ofRunes rs))) = ofRunes rs := fun rs st hrs hst => by
    rw [hS.unstyled_render hst (by rw [unstyled_plain]; exact printable_narrow hrs), unstyled_plain]
  have hrunes : unstyled bar =
      ofRunes (['╭', '─'] ++ ((" " ++ title ++ " ").toList ++ (List.replicate n '─' ++ ['╮']))) := by
    unfold bar Screen.renderPanelTitleBar
    rw [if_neg hne]
    dsimp only
    rw [hn.1, Int.toNat_natCast, show utf8 "─" = ofRunes ['─'] from rfl, flatten_replicate_ofRunes, unstyled_append,
      unstyled_append, show utf8 "╭" = ofRunes ['╭'] from rfl, show utf8 "╮" = ofRunes ['╮'] from rfl,
      ← GoString.ofRunes_append, ← GoString.ofRunes_append, utf8,
      hedge _ _ (by decide) (by split_ifs <;> rfl), hedge _ _ hlabel (by split_ifs <;> rfl),
      hedge _ _ hend (by split_ifs <;> rfl), ← GoString.ofRunes_append, ← GoString.ofRunes_append, List.append_assoc]
    rfl
  have hall : AllNarrow (['╭', '─'] ++ ((" " ++ title ++ " ").toList ++ (List.replicate n '─' ++ ['╮']))) :=
    allNarrow_append.2 ⟨by decide, allNarrow_append.2 ⟨hlabel, hend⟩⟩
  rw [Screen.cells, hrunes]
  refine ⟨printable_narrow hall, ?_⟩
  rw [hS.width_narrow hall]
  rw [hS.width_utf8 hlabel] at hwidth
  simp only [List.length_append, List.length_cons, List.length_nil, List.length_replicate]
  push_cast
  omega

/-- The box of a panel with `rows` lines in it. -/
def Model.panelBox (m : Model ι) (focused : Bool) (rows : Int) : Box :=
  ⟨if focused then .border else .borderBlurred, m.viewWidth - 2, rows⟩

theorem viewPanel_split (S : Screen ι) {title : String} {focused : Bool} {body : List Text} (hne : body ≠ [])
    (hview : 5 ≤ m.viewWidth) : m.viewPanel S title focused body =
      split (S.renderPanelTitleBar title m.viewWidth focused) ++
        split (S.box (m.panelBox focused body.length) (join body)) := by
  have hpos := List.length_pos_iff.2 hne
  have hbox : (⟨if focused then .border else .borderBlurred, clamp (m.viewWidth - 2) 1 m.viewWidth,
      clamp (body.length + panelBorderHeight - 2) 1 (body.length + panelBorderHeight)⟩ : Box) =
      m.panelBox focused body.length := by
    unfold Model.panelBox clamp panelBorderHeight
    congr 1 <;> omega
  rw [Model.viewPanel, Screen.renderPanel, split_append_lineBreak, hbox]

theorem inner_panelBox (hview : 5 ≤ m.viewWidth) (focused : Bool) (rows : Int) :
    (m.panelBox focused rows).inner = m.contentWidth := by
  have := m.one_le_contentWidth.2.2 hview
  simp only [Box.inner, Model.panelBox]
  omega

/-- A panel whose lines fit is as wide as the terminal, and its lines stand one below the other. -/
theorem viewPanel_spec (hS : S.Lawful) (title : String) (focused : Bool) (body : List Text) (hne : title ≠ "")
    (hnarrow : AllNarrow title.toList) (hview : 5 ≤ m.viewWidth)
    (hw : (title.toList.length : Int) + 5 ≤ m.viewWidth) (hbody : body ≠ [])
    (hfits : ∀ l ∈ body, S.Fits m.contentWidth l) :
    let panel := m.viewPanel S title focused body
    let box := m.panelBox focused body.length
    panel.length = body.length + 2 ∧ (∀ l ∈ panel, OneLine l ∧ S.cells l = m.viewWidth) ∧
      panel[body.length + 1]? = some box.bottom ∧
      ∀ (i : ℕ) l, body[i]? = some l → panel[i + 1]? = some (box.inside S.width l) := by
  intro panel box
  obtain ⟨hbar, hbarw⟩ := titleBar_spec hS hne hnarrow hw focused
  have hwidth : box.width + 2 = m.viewWidth := sub_add_cancel ..
  have hinner : box.inner = m.contentWidth := inner_panelBox hview focused body.length
  have hpanel : panel =
      S.renderPanelTitleBar title m.viewWidth focused :: (body.map (box.inside S.width) ++ [box.bottom]) := by
    refine (viewPanel_split S hbody hview).trans ?_
    rw [(OneLine.of_printable hbar).split, hS.box _ body hbody rfl (by rw [inner_panelBox hview]; exact hfits)]
    rfl
  obtain ⟨hbottom, hbottomw⟩ := bottom_spec hS (b := box) (by omega)
  rw [hpanel]
  refine ⟨by simp, List.forall_mem_cons.2 ⟨⟨.of_printable hbar, hbarw⟩, List.forall_mem_append.2 ⟨?_, ?_⟩⟩, ?_, ?_⟩
  · intro l hl
    obtain ⟨t, ht, rfl⟩ := List.mem_map.1 hl
    refine ⟨.of_printable (box.printable_inside S.width (hfits t ht).1), ?_⟩
    rw [cells_inside hS (by rw [hinner]; exact (hfits t ht).2), hwidth]
  · intro l hl
    rw [List.mem_singleton.1 hl]
    exact ⟨.of_printable hbottom, by rw [hbottomw, hwidth]⟩
  · rw [List.getElem?_cons_succ, List.getElem?_append_right (by simp)]
    simp
  · intro i l hl
    obtain ⟨hi, -⟩ := List.getElem?_eq_some_iff.1 hl
    rw [List.getElem?_cons_succ, List.getElem?_append_left (by simpa using hi), List.getElem?_map, hl]
    rfl

end Panels

/-! ### The frame -/

section Frame
variable {ι : Type*} {env : Env ι} {S : Screen ι} {m : Model ι}

/-- A line as it leaves `View`. -/
def Model.clipped (S : Screen ι) (m : Model ι) (l : Text) : Text :=
  if S.cells l > m.viewWidth then S.clip m.viewWidth l else l

theorem clipped_spec (hS : S.Clips) (m : Model ι) {l : Text} (h : OneLine l) :
    OneLine (m.clipped S l) ∧ S.cells (m.clipped S l) ≤ m.viewWidth := by
  unfold Model.clipped
  split_ifs with hwide
  · exact hS.clip _ l m.one_le_contentWidth.1 h
  · exact ⟨h, not_lt.1 hwide⟩

theorem oneLine_viewFooter (hS : S.Clips) (m : Model ι) : OneLine (m.viewFooter S) := by
  refine .of_printable ?_
  unfold Model.viewFooter
  split_ifs with hfiltering
  · refine hS.printable_render (S.printable_joinEnds (hS.inputView _) ?_ _) _
    rw [unstyled_plain]
    decide
  · exact hS.printable_render (hS.shortHelpView _ _) _

/-- What is shown of the lines. -/
theorem split_viewFrame (hS : S.Clips) {lines : List Text} (hlines : m.viewLines env S = some lines) (hne : lines ≠ [])
    (hone : ∀ l ∈ lines, OneLine l) : ∃ t, m.viewFrame env S = some t ∧
      split t = if 0 < m.height ∧ m.height < lines.length then (lines.map (m.clipped S)).take m.height.toNat
        else lines.map (m.clipped S) := by
  refine ⟨_, by rw [Model.viewFrame, hlines]; rfl, ?_⟩
  have hclipped : ∀ l ∈ lines.map (m.clipped S), OneLine l := fun l hl => by
    obtain ⟨u, hu, rfl⟩ := List.mem_map.1 hl
    exact (clipped_spec hS m (hone u hu)).1
  change split (join (if m.height > 0 ∧ ((lines.map (m.clipped S)).length : Int) > m.height then
    (lines.map (m.clipped S)).take m.height.toNat else lines.map (m.clipped S))) = _
  rw [List.length_map]
  by_cases hcut : 0 < m.height ∧ m.height < lines.length
  · rw [if_pos hcut, split_join ?_ fun l hl => hclipped l (List.mem_of_mem_take hl)]
    refine List.ne_nil_of_length_pos ?_
    rw [List.length_take, List.length_map]
    omega
  · rw [if_neg hcut]
    exact split_join (by simpa using hne) hclipped

theorem exists_viewLines (h : m.Coherent env) (S : Screen ι) : ∃ conn events,
    m.viewLines env S = some (conn ++ events ++ [m.viewFooter S]) ∧ ∀ l ∈ conn ++ events, OneLine l := by
  obtain ⟨⟨rows, hrows, -⟩, ⟨recs, hrecs, -⟩⟩ := h.drawn
  obtain ⟨conn, hconn, hconn1⟩ : ∃ conn, (if m.layout.1 > 0 then m.viewConnPanel env S else some []) = some conn ∧
      ∀ l ∈ conn, OneLine l := by
    obtain ⟨body, hbody⟩ : ∃ body, m.connBody env S = some body := by
      unfold Model.connBody Model.viewTable
      rw [hrows]
      split_ifs <;> exact ⟨_, rfl⟩
    split_ifs
    · exact ⟨_, by rw [Model.viewConnPanel, hbody]; rfl, fun l hl => oneLine_of_mem_split hl⟩
    · exact ⟨[], rfl, fun l hl => absurd hl List.not_mem_nil⟩
  obtain ⟨events, hevents, hevents1⟩ : ∃ events,
      (if m.layout.2 > 0 then m.viewEventsPanel S else some []) = some events ∧ ∀ l ∈ events, OneLine l := by
    obtain ⟨body, hbody⟩ : ∃ body, m.viewEvents S = some body := by
      unfold Model.viewEvents
      rw [hrecs]
      split_ifs <;> exact ⟨_, rfl⟩
    split_ifs
    · exact ⟨_, by rw [Model.viewEventsPanel, hbody]; rfl, fun l hl => oneLine_of_mem_split hl⟩
    · exact ⟨[], rfl, fun l hl => absurd hl List.not_mem_nil⟩
  refine ⟨conn, events, ?_, List.forall_mem_append.2 ⟨hconn1, hevents1⟩⟩
  rw [Model.viewLines, hconn, hevents]
  rfl

end Frame

/-- In every run there is a frame, no taller than the terminal and no wider. -/
theorem frame_fits {ι : Type*} (env : Env ι) (S : Screen ι) (hS : S.Clips) (agg : Bool) (interfaces : List String)
    (msgs : List Msg) :
    let m := msgs.foldl (Model.step env) (newModel env agg interfaces)
    ∃ t, m.viewFrame env S = some t ∧ (0 < m.height → ((split t).length : Int) ≤ m.height) ∧
      ∀ l ∈ split t, S.cells l ≤ m.viewWidth := by
  intro m
  have hcoh : m.Coherent env := Model.coherent_run env (Model.coherent_new env agg interfaces) msgs
  obtain ⟨conn, events, hlines, hone⟩ := exists_viewLines hcoh S
  have hone' : ∀ l ∈ conn ++ events ++ [m.viewFooter S], OneLine l :=
    List.forall_mem_append.2 ⟨hone, fun l hl => List.mem_singleton.1 hl ▸ oneLine_viewFooter hS m⟩
  obtain ⟨t, ht, hsplit⟩ := split_viewFrame hS hlines (by simp) hone'
  refine ⟨t, ht, fun hpos => ?_, fun l hl => ?_⟩
  · rw [hsplit]
    split_ifs with hcut
    · rw [List.length_take]
      omega
    · rw [List.length_map]
      omega
  · have hmem : l ∈ (conn ++ events ++ [m.viewFooter S]).map (m.clipped S) := by
      rw [hsplit] at hl
      split_ifs at hl
      · exact List.mem_of_mem_take hl
      · exact hl
    obtain ⟨u, hu, rfl⟩ := List.mem_map.1 hmem
    exact (clipped_spec hS m (hone' u hu)).2

/-- With next to no room. -/
theorem frame_fits_browsing : plainScreen.Clips ∧ ∃ t, (browsing 40 10).viewFrame plainEnv plainScreen = some t ∧
    ((split t).length : Int) ≤ 10 ∧ ∀ l ∈ split t, plainScreen.cells l ≤ 40 := by
  obtain ⟨t, ht, hheight, hwidth⟩ := frame_fits plainEnv plainScreen lawful_plainScreen.toClips true ["en0"]
    [.tick 5 fetching, .windowSize 40 10]
  exact ⟨lawful_plainScreen.toClips, t, ht, hheight (show (0 : Int) < 10 by decide), hwidth⟩

/-! ### With room for it all -/

namespace Model
variable {ι : Type*} (env : Env ι) (S : Screen ι) (m : Model ι)

/-- The terminal has the lines that the panels take at least, and one for the footer. -/
def Tall : Prop := if m.zoomed then (if m.focus = .events then 5 ≤ m.height else 6 ≤ m.height) else 14 ≤ m.height

/-- How many lines a panel takes. -/
def connLines : Int := if 0 < m.layout.1 then m.layout.1 + connChromeLines else 0

def eventsLines : Int := if 0 < m.layout.2 then m.layout.2 + eventsChromeLines else 0

def connBox : Box := m.panelBox (m.zoomed || m.focus = .connections) (m.layout.1 + 2)

def eventsBox : Box := m.panelBox (m.zoomed || m.focus = .events) (m.layout.2 + 1)

/-- The frame fills the terminal. Its last line is the footer; the divider, the rows and the events stand where the
layout has them. -/
structure Framed (lines : List Text) : Prop where
  height : (lines.length : Int) = m.height
  footer : lines.getLast? = some (m.clipped S (m.viewFooter S))
  cells : ∀ l ∈ lines.dropLast, S.cells l = m.viewWidth
  divider : m.zoomed = false → lines[m.dividerRow.toNat]? = some m.connBox.bottom
  rows : 0 < m.layout.1 → m.showIfacePicker = false → ∀ shown, m.visibleRows = some shown → ∀ (i : ℕ) r,
    shown[i]? = some r → lines[i + 3]? = some (m.connBox.inside S.width (m.viewRow env S r (m.rowsStart + i)))
  events : 0 < m.layout.2 → ∀ shown, m.visibleEvents = some shown → ∀ (i : ℕ) rec, shown[i]? = some rec →
    lines[m.connLines.toNat + (i + 2)]? = some (m.eventsBox.inside S.width (m.viewEvent S rec (m.eventsStart + i)))

end Model

section Room
variable {ι : Type*} {env : Env ι} {S : Screen ι} {m : Model ι}

theorem layout_tall (h : m.Tall) : 0 < m.height ∧ m.connLines + m.eventsLines + 1 = m.height ∧
    (m.zoomed = false → 0 < m.layout.1 ∧ m.dividerRow = m.layout.1 + 3) := by
  unfold Model.Tall at h
  unfold Model.connLines Model.eventsLines Model.dividerRow Model.layout Model.splitTotalLines connChromeLines
    eventsChromeLines minPanelDataRows
  cases hz : m.zoomed with
  | false =>
    simp only [hz, Bool.false_eq_true, if_false] at h ⊢
    rw [if_neg (show ¬ m.height ≤ 0 by omega)]
    split_ifs <;> omega
  | true =>
    simp only [hz, if_true, Bool.true_eq_false, false_implies, and_true] at h ⊢
    cases hf : m.focus with
    | connections =>
      simp only [hf, reduceCtorEq, if_false] at h
      rw [if_neg (show ¬ m.height ≤ 0 by omega)]
      dsimp only
      split_ifs <;> omega
    | events =>
      simp only [hf, if_true] at h
      rw [if_neg (show ¬ m.height ≤ 0 by omega)]
      dsimp only
      split_ifs <;> omega

theorem tableWidth_columns_le_iff (m : Model ι) : tableWidth (m.columns env S) ≤ m.contentWidth ↔
    (if m.grouping = .byProcessName then 70 else 82) ≤ m.contentWidth := by
  have hfixed : ∀ c ∈ tableColumns S.formats m.grouping (some env.hostname) m.now, c.flex = false → 1 ≤ c.width :=
    fun c hc hflex => by
      rcases width_of_mem_tableColumns hc with ⟨hf, -⟩ | ⟨-, hpos⟩
      · rw [hflex] at hf
        cases hf
      · exact hpos
  rw [Model.columns, tableWidth_fitColumns_le_iff (fittable_tableColumns _ _ _ _) hfixed
    m.one_le_contentWidth.2.1, essentialWidth_tableColumns]

/-- The connections panel, and where its rows are. -/
theorem connPanel_spec (hS : S.Lawful) (hleg : m.Legible env S) (hcoh : m.Coherent env) (hhelp : m.showHelp = false)
    (hview : 86 ≤ m.viewWidth) (hrows : 0 < m.layout.1) : ∃ panel, m.viewConnPanel env S = some panel ∧
      (panel.length : Int) = m.layout.1 + 4 ∧ (∀ l ∈ panel, OneLine l ∧ S.cells l = m.viewWidth) ∧
      panel[(m.layout.1 + 3).toNat]? = some m.connBox.bottom ∧
      (m.showIfacePicker = false → ∀ shown, m.visibleRows = some shown → ∀ (i : ℕ) r, shown[i]? = some r →
        panel[i + 3]? = some (m.connBox.inside S.width (m.viewRow env S r (m.rowsStart + i)))) := by
  have hcw := m.one_le_contentWidth.2.2 (by omega)
  have htable : tableWidth (m.columns env S) ≤ m.contentWidth := by
    rw [tableWidth_columns_le_iff]
    split_ifs <;> omega
  obtain ⟨⟨shown, hshown, hdrawn⟩, -⟩ := hcoh.drawn
  obtain ⟨body, hbody, hlen, hfits, hplaced⟩ :=
    fits_connBody hS hleg hhelp hrows le_rfl (by omega) htable hshown hdrawn
  obtain ⟨hpanel, hcells, hbottom, hinside⟩ := viewPanel_spec hS panelTitle
    (m.zoomed || m.focus = .connections) body (by decide) (by decide) (by omega) (le_trans (by decide) hview)
    (List.ne_nil_of_length_pos (by omega)) hfits
  rw [hlen] at hbottom hinside
  refine ⟨_, by rw [Model.viewConnPanel, hbody]; rfl, by omega, hcells, ?_, fun hpick shown' hshown' i r hr => ?_⟩
  · rw [show (m.layout.1 + 3).toNat = body.length + 1 by omega]
    exact hbottom
  · obtain rfl : shown = shown' := Option.some.inj (hshown.symm.trans hshown')
    exact hinside (i + 2) _ ((hplaced hpick).2 i r hr)

/-- The events panel, and where its events are. -/
theorem eventsPanel_spec (hS : S.Lawful) (hleg : m.Legible env S) (hcoh : m.Coherent env) (hview : 86 ≤ m.viewWidth)
    (hrows : 0 < m.layout.2) : ∃ panel, m.viewEventsPanel S = some panel ∧ (panel.length : Int) = m.layout.2 + 3 ∧
      (∀ l ∈ panel, OneLine l ∧ S.cells l = m.viewWidth) ∧
      ∀ shown, m.visibleEvents = some shown → ∀ (i : ℕ) rec, shown[i]? = some rec →
        panel[i + 2]? = some (m.eventsBox.inside S.width (m.viewEvent S rec (m.eventsStart + i))) := by
  have hcw := m.one_le_contentWidth.2.2 (by omega)
  obtain ⟨-, ⟨shown, hshown, hdrawn⟩⟩ := hcoh.drawn
  obtain ⟨body, hbody, hlen, hfits, hplaced⟩ := fits_viewEvents hS hleg hrows le_rfl (by omega) hshown hdrawn
  obtain ⟨hpanel, hcells, -, hinside⟩ := viewPanel_spec hS eventsPanelTitle
    (m.zoomed || m.focus = .events) body (by decide) (by decide) (by omega) (le_trans (by decide) hview)
    (List.ne_nil_of_length_pos (by omega)) hfits
  rw [hlen] at hinside
  refine ⟨_, by rw [Model.viewEventsPanel, hbody]; rfl, by omega, hcells, fun shown' hshown' i rec hrec => ?_⟩
  obtain rfl : shown = shown' := Option.some.inj (hshown.symm.trans hshown')
  exact hinside (i + 1) _ (hplaced i rec hrec)

/-- The lines of a frame with room for them, none of which has to be clipped but the footer. -/
theorem exists_panels (hS : S.Lawful) (hleg : m.Legible env S) (hcoh : m.Coherent env) (hhelp : m.showHelp = false)
    (hview : 86 ≤ m.viewWidth) : ∃ conn events,
      m.viewLines env S = some (conn ++ events ++ [m.viewFooter S]) ∧ (conn.length : Int) = m.connLines ∧
      (events.length : Int) = m.eventsLines ∧ (∀ l ∈ conn ++ events, OneLine l ∧ S.cells l = m.viewWidth) ∧
      (0 < m.layout.1 → m.viewConnPanel env S = some conn) ∧ (0 < m.layout.2 → m.viewEventsPanel S = some events) := by
  obtain ⟨conn, hconn, hconnl, hconnw, hconn'⟩ : ∃ conn,
      (if m.layout.1 > 0 then m.viewConnPanel env S else some []) = some conn ∧ (conn.length : Int) = m.connLines ∧
      (∀ l ∈ conn, OneLine l ∧ S.cells l = m.viewWidth) ∧ (0 < m.layout.1 → m.viewConnPanel env S = some conn) := by
    unfold Model.connLines
    split_ifs with hpos
    · obtain ⟨panel, heq, hlen, hcells, -⟩ := connPanel_spec hS hleg hcoh hhelp hview hpos
      exact ⟨panel, heq, hlen, hcells, fun _ => heq⟩
    · exact ⟨[], rfl, rfl, fun l hl => absurd hl List.not_mem_nil, fun h => absurd h hpos⟩
  obtain ⟨events, hevents, heventsl, heventsw, hevents'⟩ : ∃ events,
      (if m.layout.2 > 0 then m.viewEventsPanel S else some []) = some events ∧
      (events.length : Int) = m.eventsLines ∧ (∀ l ∈ events, OneLine l ∧ S.cells l = m.viewWidth) ∧
      (0 < m.layout.2 → m.viewEventsPanel S = some events) := by
    unfold Model.eventsLines
    split_ifs with hpos
    · obtain ⟨panel, heq, hlen, hcells, -⟩ := eventsPanel_spec hS hleg hcoh hview hpos
      exact ⟨panel, heq, hlen, hcells, fun _ => heq⟩
    · exact ⟨[], rfl, rfl, fun l hl => absurd hl List.not_mem_nil, fun h => absurd h hpos⟩
  refine ⟨conn, events, ?_, hconnl, heventsl, List.forall_mem_append.2 ⟨hconnw, heventsw⟩, hconn', hevents'⟩
  rw [Model.viewLines, hconn, hevents]
  rfl

end Room

/-- In every run: on a terminal at least 86 cells wide and tall enough, and with nothing unprintable to show, the
frame fills the terminal. -/
theorem frame_drawn {ι : Type*} (env : Env ι) (S : Screen ι) (hS : S.Lawful) (agg : Bool) (interfaces : List String)
    (msgs : List Msg) :
    let m := msgs.foldl (Model.step env) (newModel env agg interfaces)
    m.Legible env S → m.showHelp = false → m.Tall → 86 ≤ m.viewWidth →
      ∃ t, m.viewFrame env S = some t ∧ m.Framed env S (split t) := by
  intro m hleg hhelp htall hview
  have hcoh : m.Coherent env := Model.coherent_run env (Model.coherent_new env agg interfaces) msgs
  obtain ⟨-, htotal, hzoom⟩ := layout_tall htall
  obtain ⟨conn, events, hlines, hconnl, heventsl, hcells, hconn, hevents⟩ :=
    exists_panels hS hleg hcoh hhelp hview
  have hone : ∀ l ∈ conn ++ events ++ [m.viewFooter S], OneLine l :=
    List.forall_mem_append.2
      ⟨fun l hl => (hcells l hl).1, fun l hl => List.mem_singleton.1 hl ▸ oneLine_viewFooter hS.toClips m⟩
  obtain ⟨t, ht, hsplit⟩ := split_viewFrame hS.toClips hlines (by simp) hone
  have hpanels : (conn ++ events).map (m.clipped S) = conn ++ events := by
    refine (List.map_congr_left fun l hl => ?_).trans (List.map_id _)
    rw [Model.clipped, if_neg (by rw [(hcells l hl).2]; exact lt_irrefl _)]
    rfl
  have hframe : split t = conn ++ events ++ [m.clipped S (m.viewFooter S)] := by
    rw [hsplit, if_neg ?_, List.map_append, hpanels, List.map_singleton]
    simp only [List.length_append, List.length_singleton]
    push_cast
    omega
  have hstays : ∀ (l l' : List Text) (i : ℕ) (a : Text), l[i]? = some a → (l ++ l')[i]? = some a :=
    fun l l' i a h => by rw [List.getElem?_append_left (List.getElem?_eq_some_iff.1 h).1, h]
  refine ⟨t, ht, ?_⟩
  rw [hframe]
  refine ⟨?_, List.getLast?_concat, ?_, fun hz => ?_, fun hpos hpick shown hshown i r hr => ?_,
    fun hpos shown hshown i rec hrec => ?_⟩
  · simp only [List.length_append, List.length_singleton]
    push_cast
    omega
  · rw [List.dropLast_concat]
    exact fun l hl => (hcells l hl).2
  · obtain ⟨hpos, hrow⟩ := hzoom hz
    obtain ⟨panel, heq, -, -, hbottom, -⟩ := connPanel_spec hS hleg hcoh hhelp hview hpos
    obtain rfl : panel = conn := Option.some.inj (heq.symm.trans (hconn hpos))
    rw [hrow]
    exact hstays _ _ _ _ (hstays _ _ _ _ hbottom)
  · obtain ⟨panel, heq, -, -, -, hplaced⟩ := connPanel_spec hS hleg hcoh hhelp hview hpos
    obtain rfl : panel = conn := Option.some.inj (heq.symm.trans (hconn hpos))
    exact hstays _ _ _ _ (hstays _ _ _ _ (hplaced hpick shown hshown i r hr))
  · obtain ⟨panel, heq, -, -, hplaced⟩ := eventsPanel_spec hS hleg hcoh hview hpos
    obtain rfl : panel = events := Option.some.inj (heq.symm.trans (hevents hpos))
    refine hstays _ _ _ _ ?_
    rw [List.getElem?_append_right (by omega), show m.connLines.toNat + (i + 2) - conn.length = i + 2 by omega]
    exact hplaced shown hshown i rec hrec

theorem frame_drawn_browsing : plainScreen.Lawful ∧ (browsing 100 24).Legible plainEnv plainScreen ∧
    (browsing 100 24).rows.length = 1 ∧ ∃ t, (browsing 100 24).viewFrame plainEnv plainScreen = some t ∧
      (browsing 100 24).Framed plainEnv plainScreen (split t) :=
  ⟨lawful_plainScreen, legible_browsing 100 24, by decide +kernel,
    frame_drawn plainEnv plainScreen lawful_plainScreen true ["en0"] [.tick 5 fetching, .windowSize 100 24]
      (legible_browsing 100 24) rfl (show (14 : Int) ≤ 24 by decide) (show (86 : Int) ≤ 100 by decide)⟩

/-! ### Too narrow -/

section Narrow
variable {ι : Type*} {env : Env ι} {S : Screen ι} {m : Model ι} (width : List UInt8 → Int)

theorem getLast?_truncate {s : List UInt8} {w : Int} (hw : 1 ≤ w) (hne : s ≠ []) (hs : s.getLast? ≠ some 0x20) :
    truncate width s w ≠ [] ∧ (truncate width s w).getLast? ≠ some 0x20 := by
  have hellipsis : ∀ t : List UInt8, t ++ ellipsis ≠ [] ∧ (t ++ ellipsis).getLast? ≠ some 0x20 := fun t => by
    have hne : ellipsis ≠ [] := by decide
    rw [List.getLast?_append_of_ne_nil _ hne]
    exact ⟨fun h => hne (List.append_eq_nil_iff.1 h).2, by decide⟩
  unfold truncate truncateSide
  simp only [Bool.false_eq_true, if_false]
  split_ifs with h0 hfits h1
  · omega
  · exact ⟨hne, hs⟩
  · exact hellipsis []
  · exact hellipsis _

theorem getLast?_pad_right {s : List UInt8} {w : Int} (hw : 1 ≤ w) (hne : s ≠ []) (hs : s.getLast? ≠ some 0x20) :
    pad width s w .right false ≠ [] ∧ (pad width s w .right false).getLast? ≠ some 0x20 := by
  obtain ⟨hcut, hlast⟩ := getLast?_truncate width hw hne hs
  unfold pad
  simp only [Bool.false_eq_true, if_false, if_true]
  split_ifs with hgap
  · exact ⟨hcut, hlast⟩
  · rw [List.getLast?_append_of_ne_nil _ hcut]
    exact ⟨fun h => hcut (List.append_eq_nil_iff.1 h).2, hlast⟩

theorem getLast?_intercalate_concat (sep : List UInt8) (ss : List (List UInt8)) {s : List UInt8} (hs : s ≠ []) :
    (List.intercalate sep (ss ++ [s])).getLast? = s.getLast? := by
  induction ss with
  | nil => rw [List.nil_append, List.intercalate_singleton]
  | cons s' ss ih =>
    have hne : List.intercalate sep (ss ++ [s]) ≠ [] := fun h => by
      rw [h] at ih
      exact hs (List.getLast?_eq_none_iff.1 ih.symm)
    rw [List.cons_append, List.intercalate_cons_of_ne_nil (by simp), List.getLast?_append_of_ne_nil _ hne, ih]

/-- An essential column at the end stays there. -/
theorem concat_of_drops {cols kept : List Column} {c : Column} {w : Int} (hc : c.prio = prioEssential)
    (h : Relation.ReflTransGen (Drops w) (cols ++ [c]) kept) : ∃ kept', kept = kept' ++ [c] := by
  induction h with
  | refl => exact ⟨cols, rfl⟩
  | tail _ hdrop ih =>
    obtain ⟨kept', rfl⟩ := ih
    obtain ⟨pre, d, post, heq, rfl, hd, -⟩ := dropLowest_eq_some hdrop.2
    rcases post.eq_nil_or_concat with rfl | ⟨post', e, rfl⟩
    · obtain ⟨-, rfl⟩ := List.append_singleton_inj.1 heq
      exact absurd hc hd
    · rw [List.concat_eq_append, ← List.cons_append, ← List.append_assoc] at heq
      obtain ⟨-, rfl⟩ := List.append_singleton_inj.1 heq
      exact ⟨pre ++ post', by rw [List.concat_eq_append, List.append_assoc]⟩

theorem concat_of_sized {cols out : List Column} {c : Column} (hc : c.flex = false)
    (h : List.Forall₂ SizedFrom (cols ++ [c]) out) : ∃ out', out = out' ++ [c] := by
  induction cols generalizing out with
  | nil =>
    obtain ⟨c', out, hsame, hnil, rfl⟩ := List.forall₂_cons_left_iff.1 h
    obtain rfl := List.forall₂_nil_left_iff.1 hnil
    exact ⟨[], by rw [hsame.2 hc]; rfl⟩
  | cons d cols ih =>
    obtain ⟨d', out, -, hrest, rfl⟩ := List.forall₂_cons_left_iff.1 h
    obtain ⟨out', rfl⟩ := ih hrest
    exact ⟨d' :: out', rfl⟩

theorem fitColumns_concat {cols : List Column} {c : Column} (hprio : c.prio = prioEssential) (hflex : c.flex = false)
    (w : Int) : ∃ out, fitColumns (cols ++ [c]) w = out ++ [c] := by
  obtain ⟨kept, hrun, heq, -⟩ := fitLoop_run (if w ≤ 0 then defaultWidth else w) (cols ++ [c])
  obtain ⟨kept, rfl⟩ := concat_of_drops hprio hrun
  rw [fitColumns, heq]
  exact concat_of_sized hflex (sized_shareFlex _ _ _)

/-- The titles end with the last one of them. -/
theorem getLast?_tableHeader (m : Model ι) (k : SortKey) :
    (tableHeader width (m.columns env S) k).getLast? ≠ some 0x20 := by
  obtain ⟨out, hout⟩ : ∃ out, m.columns env S = out ++
      [rateTotalColumn "↑ TOTAL" totalWidth .total fun r => S.formats.humanBytes r.bytesOutTotal] := by
    have hlast : ∃ cols, tableColumns S.formats m.grouping (some env.hostname) m.now = cols ++
        [rateTotalColumn "↑ TOTAL" totalWidth .total fun r => S.formats.humanBytes r.bytesOutTotal] := by
      refine ⟨processColumn :: groupingColumns S.formats (some env.hostname) m.grouping ++
        ageColumn S.formats m.now :: (rateTotalColumns S.formats).take 3, ?_⟩
      simp [tableColumns, rateTotalColumns]
    obtain ⟨cols, hcols⟩ := hlast
    rw [Model.columns, hcols]
    exact fitColumns_concat rfl rfl _
  have htitle : ∀ s ∈ ["↑ TOTAL", sortMarker ++ "↑ TOTAL"], utf8 s ≠ [] ∧ (utf8 s).getLast? ≠ some 0x20 := by decide
  obtain ⟨hne, hs⟩ := htitle (if true = true ∧ .total = k then sortMarker ++ "↑ TOTAL" else "↑ TOTAL")
    (by split_ifs <;> simp)
  obtain ⟨hpad, hlast⟩ := getLast?_pad_right width (w := totalWidth) (by decide) hne hs
  rw [tableHeader, renderCells, hout, List.map_append, List.map_singleton]
  exact (getLast?_intercalate_concat _ _ hpad).trans_ne hlast

theorem length_viewPanel (hS : S.Lawful) (title : String) (focused : Bool) {body : List Text} (hne : body ≠ [])
    (hview : 5 ≤ m.viewWidth) : body.length + 2 ≤ (m.viewPanel S title focused body).length := by
  have hbar : 0 < (split (S.renderPanelTitleBar title m.viewWidth focused)).length :=
    List.length_pos_iff.2 (List.splitOnP_ne_nil _ _)
  have hbox : (body.length : Int) + 1 ≤ (split (S.box (m.panelBox focused body.length) (join body))).length :=
    hS.box_height _ _
  rw [viewPanel_split S hne hview, List.length_append]
  omega

theorem length_viewPanel_breaks (hS : S.Lawful) (title : String) (focused : Bool) {body : List Text} {l : Text}
    (hview : 5 ≤ m.viewWidth) (hprint : ∀ l ∈ body, Printable (unstyled l)) (hl : l ∈ body)
    (hwide : m.contentWidth < S.cells l) (hlast : (unstyled l).getLast? ≠ some 0x20) :
    body.length + 2 < (m.viewPanel S title focused body).length := by
  have hbar : 0 < (split (S.renderPanelTitleBar title m.viewWidth focused)).length :=
    List.length_pos_iff.2 (List.splitOnP_ne_nil _ _)
  have hinner := inner_panelBox hview focused body.length
  have hbox : (body.length : Int) + 1 < (split (S.box (m.panelBox focused body.length) (join body))).length :=
    hS.box_breaks _ body (by rw [hinner]; exact m.one_le_contentWidth.2.1) rfl hprint
      ⟨l, hl, by rw [hinner]; exact hwide, hlast⟩
  rw [viewPanel_split S (List.ne_nil_of_mem hl) hview, List.length_append]
  omega

/-- A table that is too wide makes the connections panel taller than it should be. -/
theorem connPanel_breaks (hS : S.Lawful) (hleg : m.Legible env S) (hcoh : m.Coherent env) (hhelp : m.showHelp = false)
    (hpick : m.showIfacePicker = false) (hview : 5 ≤ m.viewWidth) (hrows : 0 < m.layout.1)
    (htable : m.contentWidth < tableWidth (m.columns env S)) :
    ∃ panel, m.viewConnPanel env S = some panel ∧ m.layout.1 + 4 < panel.length := by
  obtain ⟨⟨shown, hshown, hdrawn⟩, -⟩ := hcoh.drawn
  obtain ⟨body, hbody, hlen, hfits, hplaced⟩ := fits_connBody hS hleg hhelp hrows
    (w := max m.contentWidth (max 48 (tableWidth (m.columns env S)))) (by omega) (by omega) (by omega) hshown hdrawn
  have htitle := (hplaced hpick).1
  have hheader : unstyled (S.render .columnHeader (plain (tableHeader S.width (m.columns env S) m.sort))) =
      tableHeader S.width (m.columns env S) m.sort := by
    rw [hS.unstyled_render rfl (fits_tableHeader hS m le_rfl m.sort).1, unstyled_plain]
  refine ⟨_, by rw [Model.viewConnPanel, hbody]; rfl, ?_⟩
  have hbreaks := length_viewPanel_breaks (m := m) hS panelTitle (m.zoomed || m.focus = .connections) hview
    (fun l hl => (hfits l hl).1) (List.mem_of_getElem? htitle) ?_ ?_
  · omega
  · rw [Screen.cells, hheader]
    exact htable.trans_eq
      ((tableLines_width hS.width S.formats m.grouping (some env.hostname) m.now m.contentWidth).1 m.sort).symm
  · rw [hheader]
    exact getLast?_tableHeader S.width m m.sort

theorem length_eventsPanel (hS : S.Lawful) (hleg : m.Legible env S) (hcoh : m.Coherent env) (hview : 5 ≤ m.viewWidth)
    (hrows : 0 < m.layout.2) : ∃ panel, m.viewEventsPanel S = some panel ∧ m.layout.2 + 3 ≤ panel.length := by
  obtain ⟨-, ⟨shown, hshown, hdrawn⟩⟩ := hcoh.drawn
  obtain ⟨body, hbody, hlen, -, -⟩ := fits_viewEvents hS hleg hrows (w := max m.contentWidth 81) (by omega) (by omega)
    hshown hdrawn
  refine ⟨_, by rw [Model.viewEventsPanel, hbody]; rfl, ?_⟩
  have := length_viewPanel (m := m) hS eventsPanelTitle (m.zoomed || m.focus = .events)
    (List.ne_nil_of_length_pos (l := body) (by omega)) hview
  omega

theorem viewLines_breaks (hS : S.Lawful) (hleg : m.Legible env S) (hcoh : m.Coherent env) (hhelp : m.showHelp = false)
    (hpick : m.showIfacePicker = false) (hview : 5 ≤ m.viewWidth) (hrows : 0 < m.layout.1)
    (htable : m.contentWidth < tableWidth (m.columns env S)) :
    ∃ lines, m.viewLines env S = some lines ∧ m.connLines + m.eventsLines + 1 < lines.length := by
  obtain ⟨conn, hconn, hconnl⟩ := connPanel_breaks hS hleg hcoh hhelp hpick hview hrows htable
  obtain ⟨events, hevents, heventsl⟩ : ∃ events,
      (if m.layout.2 > 0 then m.viewEventsPanel S else some []) = some events ∧ m.eventsLines ≤ events.length := by
    unfold Model.eventsLines
    split_ifs with hpos
    · exact length_eventsPanel hS hleg hcoh hview hpos
    · exact ⟨[], rfl, le_rfl⟩
  refine ⟨conn ++ events ++ [m.viewFooter S], ?_, ?_⟩
  · rw [Model.viewLines, if_pos hrows, hconn, hevents]
    rfl
  · have hchrome : m.connLines = m.layout.1 + 4 := if_pos hrows
    simp only [List.length_append, List.length_singleton]
    push_cast
    omega

end Narrow

/-- Nothing is cut off: the frame is all the lines, down to the footer. -/
def Model.FooterShown {ι : Type*} (env : Env ι) (S : Screen ι) (m : Model ι) : Prop :=
  ∃ lines t, m.viewLines env S = some (lines ++ [m.viewFooter S]) ∧ m.viewFrame env S = some t ∧
    split t = (lines ++ [m.viewFooter S]).map (m.clipped S)

/-- In every run: with the table on a terminal that is tall enough, in a grouping that shows local addresses, the
footer is on the screen iff the terminal is at least 86 cells wide. -/
theorem footer_shown_iff {ι : Type*} (env : Env ι) (S : Screen ι) (hS : S.Lawful) (agg : Bool)
    (interfaces : List String) (msgs : List Msg) :
    let m := msgs.foldl (Model.step env) (newModel env agg interfaces)
    m.Legible env S → m.showHelp = false → m.showIfacePicker = false → m.Tall → 0 < m.layout.1 →
      m.grouping ≠ .byProcessName → 5 ≤ m.viewWidth → (m.FooterShown env S ↔ 86 ≤ m.viewWidth) := by
  intro m hleg hhelp hpick htall hrows hgroup hview
  have hcoh : m.Coherent env := Model.coherent_run env (Model.coherent_new env agg interfaces) msgs
  obtain ⟨hheight, htotal, -⟩ := layout_tall htall
  have hcw := m.one_le_contentWidth.2.2 hview
  constructor
  · rintro ⟨lines, t, hlines, ht, hsplit⟩
    by_contra hnarrow
    have htable : m.contentWidth < tableWidth (m.columns env S) := by
      rw [← not_le, tableWidth_columns_le_iff, if_neg hgroup]
      omega
    obtain ⟨broken, hbroken, hlen⟩ := viewLines_breaks hS hleg hcoh hhelp hpick hview hrows htable
    obtain ⟨conn, events, hall, hone⟩ := exists_viewLines hcoh S
    obtain rfl := Option.some.inj (hbroken.symm.trans hall)
    obtain ⟨t', ht', hcut⟩ := split_viewFrame hS.toClips hall (by simp)
      (List.forall_mem_append.2 ⟨hone, fun l hl => List.mem_singleton.1 hl ▸ oneLine_viewFooter hS.toClips m⟩)
    obtain rfl := Option.some.inj (ht.symm.trans ht')
    rw [if_pos (by omega)] at hcut
    -- what is shown has `height` lines, and there are more
    have hshown := congrArg List.length (hcut.symm.trans hsplit)
    rw [← Option.some.inj (hall.symm.trans hlines), List.length_take, List.length_map] at hshown
    omega
  · intro hwide
    obtain ⟨conn, events, hlines, hconnl, heventsl, hcells, -⟩ := exists_panels hS hleg hcoh hhelp hwide
    obtain ⟨t, ht, hsplit⟩ := split_viewFrame hS.toClips hlines (by simp) (List.forall_mem_append.2
      ⟨fun l hl => (hcells l hl).1, fun l hl => List.mem_singleton.1 hl ▸ oneLine_viewFooter hS.toClips m⟩)
    refine ⟨conn ++ events, t, hlines, ht, ?_⟩
    rw [hsplit, if_neg]
    simp only [List.length_append, List.length_singleton]
    push_cast
    omega

/-- On a terminal of 24 lines with 80 cells each there is no footer. -/
theorem footer_shown_browsing : plainScreen.Lawful ∧ ¬ (browsing 80 24).FooterShown plainEnv plainScreen ∧
    (browsing 100 24).FooterShown plainEnv plainScreen := by
  have hiff : ∀ width : Int, 5 ≤ (browsing width 24).viewWidth →
      ((browsing width 24).FooterShown plainEnv plainScreen ↔ 86 ≤ (browsing width 24).viewWidth) := fun width hview =>
    have htall : (browsing width 24).Tall := show (14 : Int) ≤ 24 by decide
    footer_shown_iff plainEnv plainScreen lawful_plainScreen true ["en0"] [.tick 5 fetching, .windowSize width 24]
      (legible_browsing width 24) rfl rfl htall ((layout_tall htall).2.2 rfl).1
      (show Grouping.none ≠ .byProcessName by decide) hview
  exact ⟨lawful_plainScreen, mt (hiff 80 (show (5 : Int) ≤ 80 by decide)).1 (show ¬ (86 : Int) ≤ 80 by decide),
    (hiff 100 (show (5 : Int) ≤ 100 by decide)).2 (show (86 : Int) ≤ 100 by decide)⟩

end Trafficmon.Tui
