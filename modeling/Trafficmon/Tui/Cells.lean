import Mathlib.Algebra.BigOperators.Group.List.Basic
import Mathlib.Algebra.Order.BigOperators.Group.List
import Trafficmon.Lib.InPlace
import Trafficmon.Lib.Runes
import Trafficmon.Tui.Columns

/-!
# Cells and lines (`tui/format.go`, `tui/table.go`)

`pad` lays a text into a cell of a given width, cutting it on either side where it is too wide. Texts
are Go strings, bytes of which not all need be UTF-8; how wide they are on screen is lipgloss's to say.
What the table relies on of it is `DisplayWidth`: the width of a text is the sum over its runes, and
an ellipsis or a space takes one cell. Then every cell is exactly as wide as its column, and every line
of a table as wide as `tableWidth` says (`cells_exact`, `tableLines_width`).
-/

namespace Trafficmon.Tui
open GoString

/-- The bytes of a text. -/
def utf8 (s : String) : List UInt8 := ofRunes s.toList

def ellipsis : List UInt8 := utf8 "…"

def sortMarker : String := "▾"

def reverseRunes (rs : List Char) : List Char := InPlace.reverse rs

/-- `strings.Repeat(" ", n)` -/
def spaces (n : Int) : List UInt8 := (List.replicate n.toNat (utf8 " ")).flatten

section Format
variable (width : List UInt8 → Int)

/-- The loop of `truncateSide`: the runes kept, and the cells they take. -/
def cutLoop (w : Int) : List Char → List Char → Int → List Char
  | [], kept, _ => kept
  | r :: rs, kept, used =>
    let cells := width (ofRunes [r])
    if used + cells > w - 1 then kept else cutLoop w rs (kept ++ [r]) (used + cells)

def truncateSide (s : List UInt8) (w : Int) (left : Bool) : List UInt8 :=
  if w ≤ 0 then []
  else if width s ≤ w then s
  else if w = 1 then ellipsis
  else
    let rs := if left then reverseRunes (runes s) else runes s
    let kept := cutLoop width w rs [] 0
    if left then ellipsis ++ ofRunes (reverseRunes kept) else ofRunes kept ++ ellipsis

def truncate (s : List UInt8) (w : Int) : List UInt8 := truncateSide width s w false

def truncateLeft (s : List UInt8) (w : Int) : List UInt8 := truncateSide width s w true

def pad (s : List UInt8) (w : Int) (a : Alignment) (truncLeft : Bool) : List UInt8 :=
  let s := if truncLeft then truncateLeft width s w else truncate width s w
  let gap := w - width s
  if gap ≤ 0 then s
  else if a = .right then spaces gap ++ s
  else s ++ spaces gap

/-! ### Lines -/

/-- A line of the table: the texts of its columns, padded and joined. -/
def renderCells (cell : Column → List UInt8) (cols : List Column) : List UInt8 :=
  List.intercalate (spaces colGap) (cols.map fun c => pad width (cell c) c.width c.align c.truncLeft)

def tableHeader (cols : List Column) (k : SortKey) : List UInt8 :=
  renderCells width (fun c => utf8 (if c.sortable ∧ c.sortKey = k then sortMarker ++ c.title else c.title)) cols

def renderRow (r : Row) (cols : List Column) : List UInt8 := renderCells width (fun c => utf8 (c.cell r)) cols

def renderRows (rows : List Row) (cols : List Column) : List (List UInt8) := rows.map (renderRow width · cols)

end Format

/-! ### Widths -/

/-- What is asked of `lipgloss.Width`. -/
structure DisplayWidth (width : List UInt8 → Int) : Prop where
  nonneg : ∀ s, 0 ≤ width s
  additive : ∀ s, width s = ((runes s).map fun r => width (ofRunes [r])).sum
  ellipsis : width ellipsis = 1
  space : width (utf8 " ") = 1

namespace DisplayWidth
variable {width : List UInt8 → Int} (hw : DisplayWidth width) {s t : List UInt8} {rs rs' : List Char}
include hw

theorem nil : width [] = 0 := hw.additive []

/-- Texts put together side by side, unless the second begins in the middle of a rune. -/
theorem append (ht : Starts t) : width (s ++ t) = width s + width t := by
  rw [hw.additive, runes_append s ht, List.map_append, List.sum_append, ← hw.additive, ← hw.additive]

theorem ofRunes_append (rs : List Char) (t : List UInt8) : width (ofRunes rs ++ t) = width (ofRunes rs) + width t := by
  rw [hw.additive, runes_ofRunes_append, List.map_append, List.sum_append, ← hw.additive t, hw.additive (ofRunes rs),
    runes_ofRunes]

theorem ofRunes_concat (rs : List Char) (r : Char) :
    width (ofRunes (rs ++ [r])) = width (ofRunes rs) + width (ofRunes [r]) := by
  rw [GoString.ofRunes_append, hw.ofRunes_append]

theorem mono (h : rs.Sublist rs') : width (ofRunes rs) ≤ width (ofRunes rs') := by
  rw [hw.additive, hw.additive (ofRunes rs'), runes_ofRunes, runes_ofRunes]
  exact (h.map _).sum_le_sum fun _ hr => by
    obtain ⟨r, -, rfl⟩ := List.mem_map.1 hr
    exact hw.nonneg _

theorem spaces_append {n : Int} (hn : 0 ≤ n) (t : List UInt8) : width (spaces n ++ t) = n + width t := by
  obtain ⟨k, rfl⟩ := Int.eq_ofNat_of_zero_le hn
  rw [spaces, Int.toNat_natCast]
  induction k with
  | zero => simp
  | succ k ih =>
    have hspace := hw.ofRunes_append [' '] ((List.replicate k (utf8 " ")).flatten ++ t)
    rw [List.replicate_succ, List.flatten_cons, List.append_assoc]
    refine hspace.trans ?_
    rw [ih (by omega), show width (ofRunes [' ']) = 1 from hw.space]
    omega

theorem reverse (rs : List Char) : width (ofRunes rs.reverse) = width (ofRunes rs) := by
  rw [hw.additive, hw.additive (ofRunes rs), runes_ofRunes, runes_ofRunes]
  exact ((List.reverse_perm rs).map _).sum_eq

end DisplayWidth

theorem starts_spaces_append {n : Int} (hn : 0 < n) (t : List UInt8) : Starts (spaces n ++ t) := by
  obtain ⟨k, hk⟩ : ∃ k, n.toNat = k + 1 := ⟨n.toNat - 1, by omega⟩
  rw [spaces, hk, List.replicate_succ, List.flatten_cons]
  intro b hb
  obtain rfl : b = 0x20 := (Option.some.inj hb).symm
  decide

/-! ### Cutting -/

/-- `part` is what is left of `rs` when it is cut on the left, or on the right. -/
def Part (left : Bool) (part rs : List Char) : Prop := if left then part <:+ rs else part <+: rs

/-- The most that is left of the runes `rs` with an ellipsis beside it in `w` cells. -/
structure Kept (width : List UInt8 → Int) (w : Int) (left : Bool) (rs kept : List Char) : Prop where
  part : Part left kept rs
  fits : width (ofRunes kept) ≤ w - 1
  longest : ∀ part, Part left part rs → width (ofRunes part) ≤ w - 1 → part.length ≤ kept.length

/-- The runes kept, and the ellipsis on the side of the cut. -/
def marked (left : Bool) (kept : List Char) : List UInt8 :=
  if left then ellipsis ++ ofRunes kept else ofRunes kept ++ ellipsis

/-- The text and the gap beside it. -/
def aligned (a : Alignment) (gap : Int) (s : List UInt8) : List UInt8 :=
  if a = .right then spaces gap ++ s else s ++ spaces gap

theorem aligned_zero (a : Alignment) (s : List UInt8) : aligned a 0 s = s := by
  have hnone : spaces 0 = [] := rfl
  rw [aligned, hnone, List.nil_append, List.append_nil, ite_self]

section Cut
variable {width : List UInt8 → Int} (hw : DisplayWidth width) {w : Int} {rs kept : List Char}
  {s : List UInt8}
include hw

/-- The loop stops at the first rune that there is no room for. -/
theorem cutLoop_spec (rs : List Char) (hfits : width (ofRunes kept) ≤ w - 1) :
    ∃ pre rest, rs = pre ++ rest ∧ cutLoop width w rs kept (width (ofRunes kept)) = kept ++ pre ∧
      width (ofRunes (kept ++ pre)) ≤ w - 1 ∧ ∀ r ∈ rest.head?, w - 1 < width (ofRunes (kept ++ pre ++ [r])) := by
  induction rs generalizing kept with
  | nil => exact ⟨[], [], rfl, by simp [cutLoop], by simpa using hfits, by simp⟩
  | cons r rs ih =>
    have hconcat := hw.ofRunes_concat kept r
    rw [cutLoop]
    split_ifs with hover
    · refine ⟨[], r :: rs, rfl, by simp, by simpa using hfits, fun r' hr' => ?_⟩
      obtain rfl := Option.some.inj hr'
      rw [List.append_nil, hconcat]
      omega
    · have hroom : width (ofRunes (kept ++ [r])) ≤ w - 1 := by omega
      rw [← hconcat]
      obtain ⟨pre, rest, rfl, hloop, hfits', hrest⟩ := ih hroom
      refine ⟨r :: pre, rest, rfl, ?_, ?_, ?_⟩
      · simpa using hloop
      · simpa using hfits'
      · simpa using hrest

theorem kept_cutLoop (h1 : 1 ≤ w) (rs : List Char) : Kept width w false rs (cutLoop width w rs [] 0) := by
  have hnil : width (ofRunes []) = 0 := hw.nil
  have hroom : width (ofRunes []) ≤ w - 1 := by omega
  obtain ⟨pre, rest, rfl, hloop, hfits, hrest⟩ := cutLoop_spec hw rs hroom
  rw [hnil, List.nil_append] at hloop
  rw [List.nil_append] at hfits hrest
  rw [hloop]
  refine ⟨List.prefix_append pre rest, hfits, fun part hpart hpfits => ?_⟩
  by_contra hlong
  -- a longer prefix has the rune that there was no room for
  cases rest with
  | nil =>
    have hle := List.IsPrefix.length_le hpart
    rw [List.append_nil] at hle
    exact hlong hle
  | cons r rest =>
    have hpre : pre ++ [r] <+: part := by
      refine List.prefix_of_prefix_length_le ⟨rest, by simp⟩ hpart ?_
      rw [List.length_append, List.length_singleton]
      omega
    have hover := hrest r rfl
    have hmono := hw.mono hpre.sublist
    omega

theorem Kept.reverse (h : Kept width w false rs.reverse kept) : Kept width w true rs kept.reverse := by
  refine ⟨?_, (hw.reverse kept).trans_le h.fits, fun part hpart hfits => ?_⟩
  · rw [← List.reverse_reverse rs]
    exact List.reverse_suffix.2 h.part
  · rw [List.length_reverse, ← List.length_reverse]
    exact h.longest part.reverse (List.reverse_prefix.2 hpart) ((hw.reverse part).trans_le hfits)

theorem truncateSide_cut (h2 : 2 ≤ w) (hwide : w < width s) (left : Bool) :
    ∃ kept, Kept width w left (runes s) kept ∧ truncateSide width s w left = marked left kept := by
  have hcut := kept_cutLoop hw (w := w) (by omega)
  rw [truncateSide, if_neg (by omega), if_neg (by omega), if_neg (by omega)]
  cases left with
  | false => exact ⟨_, hcut _, rfl⟩
  | true =>
    refine ⟨_, (hcut (runes s).reverse).reverse hw, ?_⟩
    simp only [reverseRunes, InPlace.reverse_eq, if_true, marked]

theorem width_marked (left : Bool) (kept : List Char) : width (marked left kept) = width (ofRunes kept) + 1 := by
  cases left with
  | false =>
    refine (hw.ofRunes_append kept ellipsis).trans ?_
    rw [hw.ellipsis]
  | true =>
    refine (hw.ofRunes_append ['…'] (ofRunes kept)).trans ?_
    rw [show width (ofRunes ['…']) = 1 from hw.ellipsis, add_comm]

theorem width_truncateSide_le (h1 : 1 ≤ w) (s : List UInt8) (left : Bool) :
    width (truncateSide width s w left) ≤ w := by
  by_cases hfits : width s ≤ w
  · rw [truncateSide, if_neg (by omega), if_pos hfits]
    exact hfits
  by_cases hone : w = 1
  · rw [truncateSide, if_neg (by omega), if_neg hfits, if_pos hone, hw.ellipsis]
    exact h1
  · obtain ⟨kept, hkept, heq⟩ := truncateSide_cut hw (s := s) (show 2 ≤ w by omega) (by omega) left
    rw [heq, width_marked hw]
    have := hkept.fits
    omega

/-! ### Padding -/

theorem width_aligned {gap : Int} (hgap : 0 ≤ gap) (a : Alignment) (s : List UInt8) :
    width (aligned a gap s) = width s + gap := by
  rcases hgap.eq_or_lt with rfl | hpos
  · rw [aligned_zero, add_zero]
  cases a with
  | left =>
    have hstarts : Starts (spaces gap) := by simpa using starts_spaces_append hpos []
    have hspaces : width (spaces gap) = gap := by simpa [hw.nil] using hw.spaces_append hgap []
    refine (hw.append hstarts).trans ?_
    rw [hspaces]
  | right =>
    refine (hw.spaces_append hgap s).trans ?_
    rw [add_comm]

theorem pad_eq (h1 : 1 ≤ w) (s : List UInt8) (a : Alignment) (truncLeft : Bool) :
    pad width s w a truncLeft =
      aligned a (w - width (truncateSide width s w truncLeft)) (truncateSide width s w truncLeft) := by
  have hle := width_truncateSide_le hw h1 s truncLeft
  have hside : (if truncLeft then truncateLeft width s w else truncate width s w) =
      truncateSide width s w truncLeft := by cases truncLeft <;> rfl
  rw [pad, hside]
  split_ifs with hfull ha
  · have hzero : w - width (truncateSide width s w truncLeft) = 0 := by omega
    rw [hzero, aligned_zero]
  · rw [aligned, if_pos ha]
  · rw [aligned, if_neg ha]

theorem width_pad (h1 : 1 ≤ w) (s : List UInt8) (a : Alignment) (truncLeft : Bool) :
    width (pad width s w a truncLeft) = w := by
  have hle := width_truncateSide_le hw h1 s truncLeft
  rw [pad_eq hw h1, width_aligned hw (by omega)]
  omega

/-- A text that is too wide is cut, and the cell is filled up. -/
theorem pad_cut (h2 : 2 ≤ w) (hwide : w < width s) (a : Alignment) (truncLeft : Bool) :
    ∃ kept, Kept width w truncLeft (runes s) kept ∧
      pad width s w a truncLeft = aligned a (w - 1 - width (ofRunes kept)) (marked truncLeft kept) := by
  obtain ⟨kept, hkept, heq⟩ := truncateSide_cut hw h2 hwide truncLeft
  refine ⟨kept, hkept, ?_⟩
  rw [pad_eq hw (by omega), heq, width_marked hw]
  congr 1
  omega

/-! ### Lines -/

theorem width_renderCells {cols : List Column} (hne : cols ≠ []) (hcols : ∀ c ∈ cols, 1 ≤ c.width)
    (cell : Column → List UInt8) : width (renderCells width cell cols) = tableWidth cols := by
  rw [tableWidth_eq]
  induction cols with
  | nil => exact absurd rfl hne
  | cons c cols ih =>
    obtain ⟨hc, hcols⟩ := List.forall_mem_cons.1 hcols
    have hpad := width_pad hw hc (cell c) c.align c.truncLeft
    rcases eq_or_ne cols [] with rfl | hne'
    · rw [renderCells, List.map_cons, List.map_nil, List.intercalate_singleton, hpad, widths_cons]
      simp [widths]
    · have hline : renderCells width cell (c :: cols) =
          pad width (cell c) c.width c.align c.truncLeft ++ (spaces colGap ++ renderCells width cell cols) := by
        rw [renderCells, List.map_cons, List.intercalate_cons_of_ne_nil (by simpa using hne'), List.append_assoc]
        rfl
      have hgap : (0 : Int) < colGap := by decide
      rw [hline, hw.append (starts_spaces_append hgap _), hw.spaces_append hgap.le, hpad, ih hne' hcols, widths_cons,
        List.length_cons]
      push_cast
      ring

end Cut

/-- On a terminal of any width the header and the rows of the table are lines of one width. -/
theorem tableLines_width {width : List UInt8 → Int} (hw : DisplayWidth width) (fmt : Formats) (g : Grouping)
    (hostname : Option (Row → String)) (now terminal : Int) :
    let cols := fitColumns (tableColumns fmt g hostname now) terminal
    (∀ k, width (tableHeader width cols k) = tableWidth cols) ∧
      ∀ rows, ∀ line ∈ renderRows width rows cols, width line = tableWidth cols := by
  have hfixed : ∀ c ∈ tableColumns fmt g hostname now, c.flex = false → 1 ≤ c.width := fun c hc hflex => by
    rcases width_of_mem_tableColumns hc with ⟨hf, -⟩ | ⟨-, hpos⟩
    · rw [hflex] at hf
      cases hf
    · exact hpos
  obtain ⟨hne, hcols⟩ := one_le_width_fitColumns (fittable_tableColumns fmt g hostname now) hfixed terminal
  refine ⟨fun k => width_renderCells hw hne hcols _, fun rows line hline => ?_⟩
  obtain ⟨r, -, rfl⟩ := List.mem_map.1 hline
  exact width_renderCells hw hne hcols _

/-- Whatever is in the texts, a cell has the width it is padded to; the most that there is room for is kept of a text
that is too wide; and a line of the table has the width of the table. -/
theorem cells_exact {width : List UInt8 → Int} (hw : DisplayWidth width) :
    (∀ s w a truncLeft, 1 ≤ w → width (pad width s w a truncLeft) = w) ∧
      (∀ s w a truncLeft, 2 ≤ w → w < width s → ∃ kept, Kept width w truncLeft (runes s) kept ∧
        pad width s w a truncLeft = aligned a (w - 1 - width (ofRunes kept)) (marked truncLeft kept)) ∧
      ∀ cols, cols ≠ [] → (∀ c ∈ cols, 1 ≤ c.width) →
        (∀ r, width (renderRow width r cols) = tableWidth cols) ∧
        (∀ k, width (tableHeader width cols k) = tableWidth cols) ∧
        ∀ cell, width (renderCells width cell cols) = tableWidth cols := by
  refine ⟨fun s w a truncLeft h1 => width_pad hw h1 s a truncLeft,
    fun s w a truncLeft h2 hwide => pad_cut hw h2 hwide a truncLeft, fun cols hne hcols => ?_⟩
  refine ⟨fun r => ?_, fun k => ?_, ?_⟩
  · exact width_renderCells hw hne hcols _
  · exact width_renderCells hw hne hcols _
  · exact width_renderCells hw hne hcols

/-! ### A width -/

/-- Combining marks take no cell, ideographs two. -/
def runeCells (r : Char) : Int :=
  if '\u0300' ≤ r ∧ r ≤ '\u036F' then 0 else if '\u4E00' ≤ r ∧ r ≤ '\u9FFF' then 2 else 1

def textCells (s : List UInt8) : Int := ((runes s).map runeCells).sum

theorem runeCells_nonneg (r : Char) : 0 ≤ runeCells r := by
  unfold runeCells
  split_ifs <;> decide

theorem textCells_singleton (r : Char) : textCells (ofRunes [r]) = runeCells r := by
  rw [textCells, runes_ofRunes, List.map_singleton, List.sum_singleton]

theorem displayWidth_textCells : DisplayWidth textCells where
  nonneg s := List.sum_nonneg fun _ hr => by
    obtain ⟨r, -, rfl⟩ := List.mem_map.1 hr
    exact runeCells_nonneg r
  additive s := by
    rw [textCells]
    exact congrArg List.sum (List.map_congr_left fun r _ => (textCells_singleton r).symm)
  ellipsis := (textCells_singleton '…').trans (by decide)
  space := (textCells_singleton ' ').trans (by decide)

/-- An ideograph too many leaves a cell free. -/
theorem pad_ideographs : DisplayWidth textCells ∧ textCells (utf8 "漢字漢字") = 8 ∧
    pad textCells (utf8 "漢字漢字") 6 .left false = utf8 "漢字… " ∧
    textCells (pad textCells (utf8 "漢字漢字") 6 .left false) = 6 :=
  ⟨displayWidth_textCells, by decide, by decide, (cells_exact displayWidth_textCells).1 _ _ _ _ (by decide)⟩

end Trafficmon.Tui
