import Trafficmon.Tui.View

/-!
# What the view asks of lipgloss

`Screen.Clips` says what styling and clipping do, `Screen.Lawful` also what measuring and boxing do. A line fits a
box (`Screen.Fits`) when it has no control characters and is no wider than the box; the lemmas are about how texts
that fit are put together. `tableWidth_fitColumns_le_iff` is when the table does.
-/

namespace Trafficmon.Tui
open Styled GoString

/-! ### What is asked of lipgloss -/

/-- `Padding(0, 1)`. -/
def Style.pads : Style → Bool
  | .header | .footer => true
  | _ => false

/-- A text in a style, and the padding with it. -/
def Style.shown (st : Style) (t : Text) : Text :=
  inStyle st (if st.pads then plain (utf8 " ") ++ t ++ plain (utf8 " ") else t)

/-- Characters of the view's own words that take one cell. -/
def Narrow (r : Char) : Prop := 0x20 ≤ r.toNat ∧ r.toNat ≤ 0x7e ∨ r ∈ ['·', '—', '╭', '╮', '╰', '╯', '─', '│']

instance (r : Char) : Decidable (Narrow r) := inferInstanceAs (Decidable (_ ∨ _))

def AllNarrow (rs : List Char) : Prop := ∀ r ∈ rs, Narrow r

instance (rs : List Char) : Decidable (AllNarrow rs) := List.decidableBAll Narrow rs

theorem allNarrow_append {rs rs' : List Char} : AllNarrow (rs ++ rs') ↔ AllNarrow rs ∧ AllNarrow rs' :=
  List.forall_mem_append

theorem allNarrow_replicate {r : Char} (h : Narrow r) (n : ℕ) : AllNarrow (List.replicate n r) :=
  fun _ hr => List.eq_of_mem_replicate hr ▸ h

namespace Box
variable (b : Box)

/-- The cells for the text. -/
def inner : Int := b.width - 2

/-- A line between the sides of the box. -/
def inside (width : List UInt8 → Int) (l : Text) : Text :=
  inStyle b.border (plain (utf8 "│")) ++ plain (utf8 " ") ++ l ++ plain (spaces (b.inner - width (unstyled l))) ++
    plain (utf8 " ") ++ inStyle b.border (plain (utf8 "│"))

def bottom : Text :=
  inStyle b.border (plain (utf8 "╰" ++ (List.replicate b.width.toNat (utf8 "─")).flatten ++ utf8 "╯"))

end Box

/-- What the size of the frame rests on. The line editor and the help's hints are one line. -/
structure Screen.Clips {ι : Type*} (S : Screen ι) : Prop where
  render : ∀ st t, Printable (unstyled t) → S.render st t = st.shown t
  clip : ∀ w t, 0 < w → OneLine t → OneLine (S.clip w t) ∧ S.cells (S.clip w t) ≤ w
  shortHelpView : ∀ w keys, Printable (unstyled (S.shortHelpView w keys))
  inputView : ∀ input, Printable (unstyled (S.inputView input))

/-- What the places of things on the screen rest on. A text is as wide as its characters together, which lipgloss does
not promise of an emoji that is joined of several. -/
structure Screen.Lawful {ι : Type*} (S : Screen ι) : Prop extends S.Clips where
  width : DisplayWidth S.width
  narrow : ∀ r, Narrow r → S.width (ofRunes [r]) = 1
  /-- Lines that fill the height of a box and are no wider than it. -/
  box : ∀ (b : Box) (lines : List Text), lines ≠ [] → (lines.length : Int) = b.height →
    (∀ l ∈ lines, Printable (unstyled l) ∧ S.cells l ≤ b.inner) →
    split (S.box b (join lines)) = lines.map (b.inside S.width) ++ [b.bottom]
  /-- The height is a minimum. -/
  box_height : ∀ b t, b.height + 1 ≤ (split (S.box b t)).length
  /-- A line that is too wide is broken, unless it is blanks that are too many. -/
  box_breaks : ∀ (b : Box) (lines : List Text), 0 < b.inner → (lines.length : Int) = b.height →
    (∀ l ∈ lines, Printable (unstyled l)) →
    (∃ l ∈ lines, b.inner < S.cells l ∧ (unstyled l).getLast? ≠ some 0x20) →
    b.height + 1 < (split (S.box b (join lines))).length

/-! ### Widths -/

theorem unstyled_intercalate (sep : Text) (ts : List Text) :
    unstyled (List.intercalate sep ts) = List.intercalate (unstyled sep) (ts.map unstyled) := by
  induction ts with
  | nil => rfl
  | cons t ts ih =>
    rcases eq_or_ne ts [] with rfl | hne
    · simp
    · rw [List.intercalate_cons_of_ne_nil hne, List.map_cons, List.intercalate_cons_of_ne_nil (by simpa using hne),
        unstyled_append, unstyled_append, ih]

theorem unstyled_shown {st : Style} (h : st.pads = false) (t : Text) : unstyled (st.shown t) = unstyled t := by
  simp [Style.shown, h]

theorem unstyled_shown_pads {st : Style} (h : st.pads = true) (t : Text) :
    unstyled (st.shown t) = utf8 " " ++ unstyled t ++ utf8 " " := by
  simp [Style.shown, h]

namespace Screen.Lawful
variable {ι : Type*} {S : Screen ι} (hS : S.Lawful) {t u : Text} {w : Int} {st : Style}
include hS

theorem width_narrow {rs : List Char} (h : AllNarrow rs) : S.width (ofRunes rs) = rs.length := by
  rw [hS.width.additive, runes_ofRunes]
  induction rs with
  | nil => rfl
  | cons r rs ih =>
    obtain ⟨hr, hrs⟩ := List.forall_mem_cons.1 h
    rw [List.map_cons, List.sum_cons, ih hrs, hS.narrow r hr, List.length_cons]
    push_cast
    ring

theorem width_utf8 {s : String} (h : AllNarrow s.toList) : S.width (utf8 s) = s.toList.length :=
  hS.width_narrow h

end Screen.Lawful

/-! ### Texts that are printable -/

section Printable
variable {s : List UInt8} {width : List UInt8 → Int}

theorem printable_spaces (n : Int) : Printable (spaces n) := by
  intro b hmem
  obtain ⟨l, hl, hb⟩ := List.mem_flatten.1 hmem
  rw [List.eq_of_mem_replicate hl] at hb
  have hspace : Printable (utf8 " ") := by decide
  exact hspace b hb

theorem mem_of_mem_cutLoop {w : Int} {rs kept : List Char} {used : Int} {r : Char}
    (h : r ∈ cutLoop width w rs kept used) : r ∈ kept ∨ r ∈ rs := by
  induction rs generalizing kept used with
  | nil => exact .inl h
  | cons r' rs ih =>
    rw [cutLoop] at h
    split_ifs at h with hover
    · exact .inl h
    · rcases ih h with hkept | hrs
      · rcases List.mem_append.1 hkept with hkept | hr
        · exact .inl hkept
        · exact .inr (List.mem_singleton.1 hr ▸ List.mem_cons_self)
      · exact .inr (List.mem_cons_of_mem r' hrs)

theorem printable_truncateSide (h : Printable s) (w : Int) (left : Bool) :
    Printable (truncateSide width s w left) := by
  have hellipsis : Printable ellipsis := by decide
  have hkept : ∀ r ∈ cutLoop width w (if left then reverseRunes (runes s) else runes s) [] 0, r ∈ runes s := by
    intro r hr
    rcases mem_of_mem_cutLoop hr with hnil | hr
    · cases hnil
    · cases left with
      | false => exact hr
      | true => simpa [reverseRunes, InPlace.reverse_eq] using hr
  unfold truncateSide
  split_ifs with hw hfits hone hleft
  · exact fun b hb => by cases hb
  · exact h
  · exact hellipsis
  · rw [if_pos hleft] at hkept
    refine printable_append.2 ⟨hellipsis, h.ofRunes fun r hr => hkept r ?_⟩
    simpa [reverseRunes, InPlace.reverse_eq] using hr
  · rw [if_neg hleft] at hkept
    exact printable_append.2 ⟨h.ofRunes hkept, hellipsis⟩

theorem printable_pad (h : Printable s) (w : Int) (a : Alignment) (truncLeft : Bool) :
    Printable (pad width s w a truncLeft) := by
  have hcut : Printable (if truncLeft then truncateLeft width s w else truncate width s w) := by
    cases truncLeft with
    | false => exact printable_truncateSide h w false
    | true => exact printable_truncateSide h w true
  unfold pad
  generalize (if truncLeft then truncateLeft width s w else truncate width s w) = cut at hcut ⊢
  dsimp only
  split_ifs with hgap ha
  · exact hcut
  · exact printable_append.2 ⟨printable_spaces _, hcut⟩
  · exact printable_append.2 ⟨hcut, printable_spaces _⟩

theorem printable_renderCells {cell : Column → List UInt8} {cols : List Column} (h : ∀ c ∈ cols, Printable (cell c)) :
    Printable (renderCells width cell cols) := by
  refine printable_intercalate (printable_spaces _) fun s hs => ?_
  obtain ⟨c, hc, rfl⟩ := List.mem_map.1 hs
  exact printable_pad (h c hc) _ _ _

theorem printable_narrow {rs : List Char} (h : AllNarrow rs) : Printable (ofRunes rs) := by
  have hascii : ∀ n < 0x7f, 0x20 ≤ n → Printable (String.utf8EncodeChar (Char.ofNat n)) := by decide
  have hother : ∀ r ∈ ['·', '—', '╭', '╮', '╰', '╯', '─', '│'], Printable (String.utf8EncodeChar r) := by
    intro r hr
    simp only [List.mem_cons, List.not_mem_nil, or_false] at hr
    rcases hr with rfl | rfl | rfl | rfl | rfl | rfl | rfl | rfl <;> decide
  intro b hb
  obtain ⟨r, hr, hb⟩ := List.mem_flatMap.1 hb
  rcases h r hr with ⟨hlo, hhi⟩ | hmem
  · have := hascii r.toNat (by omega) hlo
    rw [Char.ofNat_toNat] at this
    exact this b hb
  · exact hother r hmem b hb

theorem flatten_replicate_ofRunes (r : Char) (n : ℕ) :
    (List.replicate n (ofRunes [r])).flatten = ofRunes (List.replicate n r) := by
  induction n with
  | zero => rfl
  | succ n ih =>
    rw [List.replicate_succ, List.flatten_cons, ih, ← GoString.ofRunes_append]
    rfl

namespace Box
variable (b : Box)

theorem printable_inside (width : List UInt8 → Int) {l : Text} (h : Printable (unstyled l)) :
    Printable (unstyled (b.inside width l)) := by
  have hside : Printable (utf8 "│") := by decide
  have hspace : Printable (utf8 " ") := by decide
  simp only [inside, unstyled_append, unstyled_plain, unstyled_inStyle, printable_append]
  exact ⟨⟨⟨⟨⟨hside, hspace⟩, h⟩, printable_spaces _⟩, hspace⟩, hside⟩

theorem unstyled_bottom : ∃ rs, unstyled b.bottom = ofRunes rs ∧ rs.length = b.width.toNat + 2 ∧ AllNarrow rs := by
  refine ⟨['╰'] ++ (List.replicate b.width.toNat '─' ++ ['╯']), ?_, by simp, ?_⟩
  · rw [bottom, unstyled_inStyle, unstyled_plain, show utf8 "─" = ofRunes ['─'] from rfl, flatten_replicate_ofRunes]
    simp [utf8, ofRunes]
  · rw [allNarrow_append, allNarrow_append]
    exact ⟨by decide, allNarrow_replicate (by decide) _, by decide⟩

theorem printable_bottom : Printable (unstyled b.bottom) := by
  obtain ⟨rs, hrunes, -, hnarrow⟩ := b.unstyled_bottom
  rw [hrunes]
  exact printable_narrow hnarrow

end Box

end Printable

/-! ### The width of the table -/

section Essential
variable {cols : List Column} {width : Int}

/-- What the table takes when only the essential columns are left, at their minimum. -/
def essentialWidth (cols : List Column) : Int := tableWidth (atMinimum (cols.filter (·.prio = prioEssential)))

theorem Fitted.filter_kept {kept dropped out : List Column} (h : Fitted cols width kept dropped out) :
    kept.filter (·.prio = prioEssential) = cols.filter (·.prio = prioEssential) := by
  refine (h.sublist.filter _).eq_of_length ?_
  have hdropped : dropped.filter (·.prio = prioEssential) = [] :=
    List.filter_eq_nil_iff.2 fun d hd => by simpa using h.droppable d hd
  rw [(h.rest.filter _).length_eq, List.filter_append, hdropped, List.append_nil]

theorem widths_atMinimum_le {kept out : List Column} (h : List.Forall₂ SizedFrom kept out)
    (hflex : ∀ c ∈ out, c.flex → minLabelWidth ≤ c.width) : widths (atMinimum kept) ≤ widths out := by
  induction h with
  | nil => rfl
  | @cons c c' kept out hc hrest ih =>
    obtain ⟨hc', hout⟩ := List.forall_mem_cons.1 hflex
    have hle := ih hout
    have hhead : (if c.flex then { c with width := minLabelWidth } else c).width ≤ c'.width := by
      split_ifs with hf
      · have : c'.flex = true := by rw [hc.1]; exact hf
        exact hc' this
      · rw [hc.2 (by simpa using hf)]
    rw [atMinimum, List.map_cons, widths_cons, widths_cons]
    exact add_le_add hhead hle

theorem atMinimum_of_sized {kept out : List Column} (h : List.Forall₂ SizedFrom kept out)
    (hflex : ∀ c ∈ out, c.flex → c.width = minLabelWidth) : atMinimum kept = out := by
  induction h with
  | nil => rfl
  | @cons c c' kept out hc hrest ih =>
    obtain ⟨hc', hout⟩ := List.forall_mem_cons.1 hflex
    rw [atMinimum, List.map_cons]
    congr 1
    · split_ifs with hf
      · have hf' : c'.flex = true := by rw [hc.1]; exact hf
        rw [← hc' hf']
        exact hc.1.symm
      · exact (hc.2 (by simpa using hf)).symm
    · exact ih hout

theorem tableWidth_sublist {some all : List Column} (h : some.Sublist all) (hpos : ∀ c ∈ all, 0 ≤ c.width) :
    tableWidth some ≤ tableWidth all := by
  have hw : widths some ≤ widths all := (h.map _).sum_le_sum fun w hw => by
    obtain ⟨c, hc, rfl⟩ := List.mem_map.1 hw
    exact hpos c hc
  have hlen : (some.length : Int) ≤ all.length := by exact_mod_cast h.length_le
  have hgap : ((some.length : Int) - 1) * colGap ≤ (all.length - 1) * colGap :=
    mul_le_mul_of_nonneg_right (by omega) (by decide)
  rw [tableWidth_eq, tableWidth_eq]
  exact add_le_add hgap hw

/-- The table is no wider than it should be iff there is room for the essential columns. -/
theorem tableWidth_fitColumns_le_iff (hcols : Fittable cols) (hpos : ∀ c ∈ cols, c.flex = false → 1 ≤ c.width)
    (hwidth : 0 < width) : tableWidth (fitColumns cols width) ≤ width ↔ essentialWidth cols ≤ width := by
  obtain ⟨kept, dropped, h⟩ := fitColumns_fitted cols width hcols hwidth
  have hten : 0 ≤ minLabelWidth := by decide
  have hmin : ∀ c ∈ atMinimum kept, 0 ≤ c.width := fun c hc => by
    obtain ⟨d, hd, rfl⟩ := List.mem_map.1 hc
    split_ifs with hf
    · exact hten
    · have := hpos d (h.sublist.subset hd) (by simpa using hf)
      omega
  have hlen : kept.length = (fitColumns cols width).length := h.sized.length_eq
  rw [essentialWidth, ← h.filter_kept]
  rcases h.fills with ⟨hfull, hflex⟩ | ⟨hess, hflex, htight⟩
  · refine iff_of_true hfull.le (le_trans ?_ hfull.le)
    calc tableWidth (atMinimum (kept.filter (·.prio = prioEssential)))
        ≤ tableWidth (atMinimum kept) := tableWidth_sublist (List.filter_sublist.map _) hmin
      _ ≤ tableWidth (fitColumns cols width) := by
        rw [tableWidth_eq, tableWidth_eq, ← hlen, atMinimum, List.length_map]
        exact add_le_add le_rfl (widths_atMinimum_le h.sized hflex)
  · refine iff_of_false (not_le.2 htight) (not_le.2 ?_)
    have hout : atMinimum kept = fitColumns cols width := atMinimum_of_sized h.sized hflex
    have hkept : kept.filter (·.prio = prioEssential) = kept := List.filter_eq_self.2 fun c hc => by
      rw [← hout, atMinimum, List.forall_mem_map] at hess
      have hprio := hess c hc
      split_ifs at hprio <;> simpa using hprio
    rw [hkept, hout]
    exact htight

theorem essentialWidth_tableColumns (fmt : Formats) (g : Grouping) (hostname : Row → String) (now : Int) :
    essentialWidth (tableColumns fmt g (some hostname) now) = if g = .byProcessName then 70 else 82 := by
  cases g <;> rfl

/-- A column that is left shows what it would have shown. -/
theorem exists_of_mem_fitColumns {c : Column} (h : c ∈ fitColumns cols width) :
    ∃ d ∈ cols, c.title = d.title ∧ c.cell = d.cell := by
  obtain ⟨kept, hrun, heq, -⟩ := fitLoop_run (if width ≤ 0 then defaultWidth else width) cols
  rw [fitColumns, heq] at h
  obtain ⟨d, hd, hsame, -⟩ := exists_of_sized (sized_shareFlex _ _ _) h
  refine ⟨d, (exists_dropped hrun).1.subset hd, ?_, ?_⟩
  · rw [hsame]
  · rw [hsame]

end Essential

/-! ### Lines that fit -/

/-- A line that a box with `w` cells for the text takes as it is. -/
def Screen.Fits {ι : Type*} (S : Screen ι) (w : Int) (t : Text) : Prop := Printable (unstyled t) ∧ S.cells t ≤ w

theorem Screen.printable_joinEnds {ι : Type*} (S : Screen ι) {t u : Text} (hleft : Printable (unstyled t))
    (hright : Printable (unstyled u)) (w : Int) : Printable (unstyled (S.joinEnds t u w)) := by
  unfold Screen.joinEnds
  dsimp only
  split_ifs with hgap
  · exact hleft
  · rw [unstyled_append, unstyled_append, unstyled_plain, printable_append, printable_append]
    exact ⟨⟨hleft, printable_spaces _⟩, hright⟩

section Clips
variable {ι : Type*} {S : Screen ι} (hS : S.Clips) {t u : Text} {w : Int} {st : Style}
include hS

theorem Screen.Clips.unstyled_render (hst : st.pads = false) (h : Printable (unstyled t)) :
    unstyled (S.render st t) = unstyled t := by
  rw [hS.render st t h, unstyled_shown hst]

theorem Screen.Clips.printable_render (h : Printable (unstyled t)) (st : Style) :
    Printable (unstyled (S.render st t)) := by
  rw [hS.render st t h]
  cases hst : st.pads with
  | false => rwa [unstyled_shown hst]
  | true =>
    have hspace : Printable (utf8 " ") := by decide
    rw [unstyled_shown_pads hst, printable_append, printable_append]
    exact ⟨⟨hspace, h⟩, hspace⟩

theorem Screen.Clips.printable_styled {s : String} (h : AllNarrow s.toList) (st : Style) :
    Printable (unstyled (S.styled st s)) :=
  hS.printable_render (by rw [unstyled_plain]; exact printable_narrow h) st

end Clips

namespace Screen.Lawful
variable {ι : Type*} {S : Screen ι} (hS : S.Lawful) {t u : Text} {w : Int} {st : Style}
include hS

theorem fits_nil (hw : 0 ≤ w) : S.Fits w [] := by
  have hnil : unstyled ([] : Text) = [] := rfl
  rw [Screen.Fits, Screen.cells, hnil, hS.width.nil]
  exact ⟨fun b hb => absurd hb List.not_mem_nil, hw⟩

theorem fits_render (hst : st.pads = false) (h : S.Fits w t) : S.Fits w (S.render st t) := by
  rw [Screen.Fits, Screen.cells, hS.unstyled_render hst h.1]
  exact h

theorem fits_styled (hst : st.pads = false) {s : String} (h : AllNarrow s.toList)
    (hlen : s.toList.length ≤ w) : S.Fits w (S.styled st s) := by
  refine hS.fits_render hst ⟨?_, ?_⟩
  · rw [unstyled_plain]
    exact printable_narrow h
  · rwa [Screen.cells, unstyled_plain, hS.width_utf8 h]

theorem cells_styled_pads (hst : st.pads = true) {s : String} (h : AllNarrow s.toList) :
    S.cells (S.styled st s) = s.toList.length + 2 := by
  have hspace : S.width (ofRunes [' ']) = 1 := hS.width.space
  have heq : unstyled (S.styled st s) = ofRunes [' '] ++ (ofRunes s.toList ++ ofRunes [' ']) := by
    rw [Screen.styled, hS.render st _ (by rw [unstyled_plain]; exact printable_narrow h), unstyled_shown_pads hst,
      unstyled_plain, List.append_assoc]
    rfl
  rw [Screen.cells, heq, hS.width.ofRunes_append, hS.width.ofRunes_append, hspace, hS.width_narrow h]
  ring

theorem cells_joinEnds_gap {gap : Int} (hgap : 1 ≤ gap) (left right : Text) :
    S.cells (left ++ plain (spaces gap) ++ right) = S.cells left + gap + S.cells right := by
  rw [Screen.cells, unstyled_append, unstyled_append, unstyled_plain, List.append_assoc,
    hS.width.append (starts_spaces_append hgap _), hS.width.spaces_append (by omega), Screen.cells, Screen.cells]
  ring

theorem fits_joinEnds {w' : Int} (hw : w' ≤ w) (hleft : S.Fits w t) (hright : Printable (unstyled u)) :
    S.Fits w (S.joinEnds t u w') := by
  refine ⟨S.printable_joinEnds hleft.1 hright w', ?_⟩
  unfold Screen.joinEnds
  dsimp only
  split_ifs with hgap
  · exact hleft.2
  · rw [hS.cells_joinEnds_gap (by omega)]
    omega

end Screen.Lawful

/-! ### A screen -/

section Plain
variable (w : Int) (t : Text)

/-- How much of a line there is room for. -/
def cutAt : ℕ := ((List.range (t.length + 1)).filter fun n => textCells (unstyled (t.take n)) ≤ w).getLastD 0

/-- A line that is too wide, broken where the word begins that is over the edge, without the blanks there. -/
def breakLine : List Text :=
  if textCells (unstyled t) ≤ w then [t]
  else
    let blank (c : UInt8 × List Style) : Bool := c.1 = 0x20
    let word := ((t.take (cutAt w t + 1)).reverse.takeWhile (! blank ·)).length
    let n := if word ≤ cutAt w t then cutAt w t + 1 - word else cutAt w t
    [((t.take n).reverse.dropWhile blank).reverse, t.drop n]

/-- The hints, as far as there is room for them. -/
def hints (shown : List UInt8) : List Key → List UInt8
  | [] => shown
  | k :: keys =>
    let item := utf8 ((if shown = [] then "" else " • ") ++ k.helpText.1 ++ " " ++ k.helpText.2)
    if w < textCells (shown ++ item) then
      if textCells (shown ++ utf8 " …") < w then shown ++ utf8 " …" else shown
    else hints (shown ++ item) keys

end Plain

/-- A screen without colors, for an editor that is empty. -/
def plainScreen : Screen Unit where
  width := textCells
  render st t := st.shown t
  box b t :=
    let lines := (split t).flatMap (breakLine b.inner)
    let lines := lines ++ List.replicate (b.height.toNat - lines.length) []
    join (lines.map (b.inside textCells) ++ [b.bottom])
  clip w t := t.take (cutAt w t)
  shortHelpView w keys := plain (hints w [] keys)
  fullHelpView _ _ := []
  inputView _ := plain (utf8 "/")
  clock _ := "00:00:00"
  formats := ⟨fun _ => "0B/s", fun _ => "0B", fun _ => "0s", id⟩

theorem cutAt_fits {w : Int} (hw : 0 ≤ w) (t : Text) : textCells (unstyled (t.take (cutAt w t))) ≤ w := by
  have hnil : textCells (unstyled (t.take 0)) ≤ w := by
    rw [List.take_zero]
    exact hw
  unfold cutAt
  generalize hns : (List.range (t.length + 1)).filter (fun n => textCells (unstyled (t.take n)) ≤ w) = ns
  rcases ns.eq_nil_or_concat with rfl | ⟨ns, n, rfl⟩
  · exact hnil
  · have hmem : n ∈ (List.range (t.length + 1)).filter (fun n => textCells (unstyled (t.take n)) ≤ w) := by
      rw [hns]
      simp
    simpa using (List.mem_filter.1 hmem).2

theorem printable_hints (w : Int) {shown : List UInt8} (hshown : Printable shown) (keys : List Key) :
    Printable (hints w shown keys) := by
  have hmore : Printable (utf8 " …") := by decide
  induction keys generalizing shown with
  | nil => exact hshown
  | cons k keys ih =>
    have hitem : Printable (utf8 ((if shown = [] then "" else " • ") ++ k.helpText.1 ++ " " ++ k.helpText.2)) := by
      by_cases hempty : shown = []
      · rw [if_pos hempty]
        cases k <;> decide
      · rw [if_neg hempty]
        cases k <;> decide
    rw [hints]
    generalize utf8 ((if shown = [] then "" else " • ") ++ k.helpText.1 ++ " " ++ k.helpText.2) = item at hitem ⊢
    split_ifs
    · exact printable_append.2 ⟨hshown, hmore⟩
    · exact hshown
    · exact ih (printable_append.2 ⟨hshown, hitem⟩)

theorem length_breakLine (w : Int) (t : Text) : 1 ≤ (breakLine w t).length ∧
    (w < textCells (unstyled t) → 2 ≤ (breakLine w t).length) := by
  unfold breakLine
  split_ifs with hfits
  · exact ⟨le_rfl, fun h => absurd hfits (not_le.2 h)⟩
  · exact ⟨by simp, fun _ => by simp⟩

theorem length_flatMap_breakLine (w : Int) (lines : List Text) : lines.length ≤ (lines.flatMap (breakLine w)).length ∧
    ((∃ l ∈ lines, w < textCells (unstyled l)) → lines.length < (lines.flatMap (breakLine w)).length) := by
  induction lines with
  | nil => simp
  | cons l lines ih =>
    obtain ⟨hone, htwo⟩ := length_breakLine w l
    rw [List.flatMap_cons, List.length_append, List.length_cons]
    refine ⟨by omega, ?_⟩
    rintro ⟨l', hl', hwide⟩
    rcases List.mem_cons.1 hl' with rfl | hl'
    · have := htwo hwide
      omega
    · have := ih.2 ⟨l', hl', hwide⟩
      omega

theorem lawful_plainScreen : plainScreen.Lawful where
  width := displayWidth_textCells
  narrow r hr := by
    refine (textCells_singleton r).trans ?_
    rcases hr with ⟨-, hascii⟩ | hmem
    · have hbelow : ∀ c : Char, 0x7e < c.toNat → ¬ c ≤ r := fun c hc hle => by
        have : c.toNat ≤ r.toNat := hle
        omega
      rw [runeCells, if_neg fun h => hbelow _ (by decide) h.1, if_neg fun h => hbelow _ (by decide) h.1]
    · simp only [List.mem_cons, List.not_mem_nil, or_false] at hmem
      rcases hmem with rfl | rfl | rfl | rfl | rfl | rfl | rfl | rfl <;> decide
  render _ _ _ := rfl
  box b lines hne hlen hfits := by
    have hsplit : split (join lines) = lines :=
      split_join hne fun l hl => .of_printable (hfits l hl).1
    have hwhole : lines.flatMap (breakLine b.inner) = lines := by
      have hfit : ∀ l ∈ lines, breakLine b.inner l = [l] := fun l hl => if_pos (hfits l hl).2
      rw [List.flatMap_congr hfit]
      exact List.flatMap_singleton' lines
    have hpad : b.height.toNat - lines.length = 0 := by omega
    dsimp only [plainScreen]
    rw [hsplit, hwhole, hpad, List.replicate_zero, List.append_nil, split_join (by simp)]
    refine List.forall_mem_append.2 ⟨fun l hl => ?_, fun l hl => ?_⟩
    · obtain ⟨t, ht, rfl⟩ := List.mem_map.1 hl
      exact .of_printable (b.printable_inside _ (hfits t ht).1)
    · rw [List.mem_singleton.1 hl]
      exact .of_printable b.printable_bottom
  box_height b t := by
    refine le_trans ?_ (Int.ofNat_le.2 (length_le_split_join _))
    simp only [List.length_append, List.length_map, List.length_replicate, List.length_singleton]
    push_cast
    omega
  box_breaks b lines hinner hlen hprint hwide := by
    obtain ⟨l, hl, hwide, -⟩ := hwide
    have hsplit : split (join lines) = lines :=
      split_join (List.ne_nil_of_mem hl) fun l hl => .of_printable (hprint l hl)
    have hmore := (length_flatMap_breakLine b.inner lines).2 ⟨l, hl, hwide⟩
    refine lt_of_lt_of_le ?_ (Int.ofNat_le.2 (length_le_split_join _))
    rw [hsplit]
    simp only [List.length_append, List.length_map, List.length_replicate, List.length_singleton]
    push_cast
    omega
  clip w t hw hone := by
    refine ⟨fun hmem => hone ?_, cutAt_fits hw.le t⟩
    obtain ⟨c, hc, heq⟩ := List.mem_map.1 hmem
    exact List.mem_map.2 ⟨c, List.mem_of_mem_take hc, heq⟩
  shortHelpView w keys := by
    rw [plainScreen, unstyled_plain]
    exact printable_hints w (fun b hb => absurd hb List.not_mem_nil) keys
  inputView _ := by
    rw [plainScreen, unstyled_plain]
    decide

end Trafficmon.Tui
