import Mathlib.Logic.Relation
import Mathlib.Tactic.Ring
import Trafficmon.Tui.Model

/-!
# The columns of the table (`tui/table.go`)

`fitColumns` drops columns, the lowest priority first, until the flexible ones get at least
`minLabelWidth` each, and then shares what the fixed ones leave between them. `fitColumns_fitted` says
what is left of the columns and how wide the table gets; `fittable_tableColumns` that the columns of
every grouping are fit for it. Widths are unbounded integers here.
-/

namespace Trafficmon.Tui

inductive Alignment
  | left
  | right
deriving DecidableEq, Repr

structure Column where
  title : String
  width : Int := 0
  align : Alignment
  prio : Int
  cell : Row → String
  /-- The width is shared out from what the other columns leave. -/
  flex : Bool := false
  sortable : Bool := false
  sortKey : SortKey := .rate
  truncLeft : Bool := false

def prioHostname : Int := 0
def prioIface : Int := 1
def prioState : Int := 2
def prioProto : Int := 3
def prioAge : Int := 4
def prioConnections : Int := 5
def prioPID : Int := 6
def prioEssential : Int := 7

def colGap : Int := 2
def minLabelWidth : Int := 10
def rateWidth : Int := 11
def totalWidth : Int := 9
def pidWidth : Int := 6
def connWidth : Int := 5
def stateWidth : Int := 11
def protoWidth : Int := 5
def ageWidth : Int := 7
def dnsPort : UInt16 := 53
def defaultWidth : Int := 100

/-! ### The columns of a grouping -/

/-- How numbers, durations and protocols are put into words. -/
structure Formats where
  humanRate : Float64 → String
  humanBytes : UInt64 → String
  humanDuration : Int → String
  toUpper : String → String

def processColumn : Column where
  title := "PROCESS"
  align := .left
  prio := prioEssential
  flex := true
  cell := Row.label

def localColumn (cell : Row → String) : Column where
  title := "LOCAL"
  align := .left
  prio := prioEssential
  flex := true
  cell := cell

def remoteColumn : Column where
  title := "REMOTE"
  align := .left
  prio := prioEssential
  flex := true
  cell := fun r => joinHostPort r.remoteAddr (itoa r.remotePort.toNat)

def hostnameColumn (hostname : Row → String) : Column where
  title := "HOSTNAME"
  align := .left
  prio := prioHostname
  flex := true
  cell := hostname

def ifaceColumn : Column where
  title := "IFACE"
  align := .left
  prio := prioIface
  flex := true
  cell := Row.iface

def pidColumn : Column where
  title := "PID"
  width := pidWidth
  align := .right
  prio := prioPID
  cell := fun r => if r.pid = 0 then "-" else itoa r.pid.toInt
  sortable := true
  sortKey := .pid
  truncLeft := true

def protoLabel (fmt : Formats) (r : Row) : String :=
  if (r.proto = "tcp" ∨ r.proto = "udp") ∧ (r.localPort = dnsPort ∨ r.remotePort = dnsPort) then "DNS"
  else fmt.toUpper r.proto

def protoColumn (fmt : Formats) : Column where
  title := "PROTO"
  width := protoWidth
  align := .left
  prio := prioProto
  cell := protoLabel fmt

def stateColumn : Column where
  title := "STATE"
  width := stateWidth
  align := .left
  prio := prioState
  cell := Row.state

def connColumn : Column where
  title := "CONN"
  width := connWidth
  align := .right
  prio := prioConnections
  cell := fun r => itoa r.connections
  truncLeft := true

def ageColumn (fmt : Formats) (now : Int) : Column where
  title := "AGE"
  width := ageWidth
  align := .right
  prio := prioAge
  cell := fun r => if r.firstSeen = 0 then "-" else fmt.humanDuration (now - r.firstSeen)

def rateTotalColumn (title : String) (width : Int) (sortKey : SortKey) (cell : Row → String) : Column where
  title := title
  width := width
  align := .right
  prio := prioEssential
  cell := cell
  sortable := true
  sortKey := sortKey

def rateTotalColumns (fmt : Formats) : List Column :=
  [rateTotalColumn "↓ RATE" rateWidth .rate fun r => fmt.humanRate r.rateInBps,
    rateTotalColumn "↑ RATE" rateWidth .rate fun r => fmt.humanRate r.rateOutBps,
    rateTotalColumn "↓ TOTAL" totalWidth .total fun r => fmt.humanBytes r.bytesInTotal,
    rateTotalColumn "↑ TOTAL" totalWidth .total fun r => fmt.humanBytes r.bytesOutTotal]

def groupByPIDColumns (hostname : Option (Row → String)) : List Column :=
  [localColumn Row.localAddr, remoteColumn] ++ (hostname.map hostnameColumn).toList ++
    [ifaceColumn, pidColumn, connColumn]

def groupByProcessNameColumns (hostname : Option (Row → String)) : List Column :=
  [remoteColumn] ++ (hostname.map hostnameColumn).toList ++ [ifaceColumn, connColumn]

def ungroupedColumns (fmt : Formats) (hostname : Option (Row → String)) : List Column :=
  [localColumn fun r => joinHostPort r.localAddr (itoa r.localPort.toNat), remoteColumn] ++
    (hostname.map hostnameColumn).toList ++ [ifaceColumn, protoColumn fmt, pidColumn, stateColumn]

def groupingColumns (fmt : Formats) (hostname : Option (Row → String)) : Grouping → List Column
  | .byPID => groupByPIDColumns hostname
  | .byProcessName => groupByProcessNameColumns hostname
  | .none => ungroupedColumns fmt hostname

/-- The columns for a grouping; there may be no hostnames to show. -/
def tableColumns (fmt : Formats) (g : Grouping) (hostname : Option (Row → String)) (now : Int) : List Column :=
  processColumn :: groupingColumns fmt hostname g ++ ageColumn fmt now :: rateTotalColumns fmt

/-! ### The fit -/

def tableWidth (cols : List Column) : Int :=
  cols.foldl (fun w c => w + c.width) ((cols.length - 1) * colGap)

/-- The lowest-priority droppable column, the first of several. -/
def victim (cols : List Column) : Option (ℕ × Column) :=
  cols.zipIdx.foldl (fun v e =>
    if e.1.prio = prioEssential then v
    else
      match v with
      | none => some (e.2, e.1)
      | some (i, d) => if e.1.prio < d.prio then some (e.2, e.1) else some (i, d)) none

/-- `none` when there is no column to drop. -/
def dropLowest (cols : List Column) : Option (List Column) :=
  (victim cols).map fun v => cols.eraseIdx v.1

/-- The loop of `shareFlex`: the first flexible column gets the odd cells. -/
def shareLoop (each : Int) : Int → List Column → List Column
  | _, [] => []
  | extra, c :: cols =>
    if c.flex then
      if extra > 0 then { c with width := each + extra } :: shareLoop each 0 cols
      else { c with width := each } :: shareLoop each extra cols
    else c :: shareLoop each extra cols

def shareFlex (cols : List Column) (spare flex : Int) : List Column :=
  if flex ≤ 0 then cols
  else
    let each := max (spare.tdiv flex) minLabelWidth
    shareLoop each (spare - each * flex) cols

/-- The cells that are taken before the flexible columns get any, and how many of these there are. -/
def taken (cols : List Column) : Int × Int :=
  cols.foldl (fun t c => (t.1 + c.width, if c.flex then t.2 + 1 else t.2)) ((cols.length - 1) * colGap, 0)

/-! ### Dropping -/

/-- What `victim` has found among `pre`. -/
def Lowest (pre : List Column) : Option (ℕ × Column) → Prop
  | none => ∀ c ∈ pre, c.prio = prioEssential
  | some (i, d) => pre[i]? = some d ∧ d.prio ≠ prioEssential ∧ ∀ c ∈ pre, c.prio ≠ prioEssential → d.prio ≤ c.prio

theorem victim_concat (cols : List Column) (c : Column) :
    victim (cols ++ [c]) =
      if c.prio = prioEssential then victim cols
      else
        match victim cols with
        | none => some (cols.length, c)
        | some (i, d) => if c.prio < d.prio then some (cols.length, c) else some (i, d) := by
  unfold victim
  rw [List.zipIdx_append, List.foldl_append, Nat.zero_add]
  simp only [List.zipIdx_singleton, List.foldl_cons, List.foldl_nil]

theorem Lowest.concat {cols : List Column} {c d : Column} {i : ℕ} (h : Lowest cols (some (i, d)))
    (hc : c.prio ≠ prioEssential → d.prio ≤ c.prio) : Lowest (cols ++ [c]) (some (i, d)) := by
  obtain ⟨hi, hd, hmin⟩ := h
  refine ⟨?_, hd, fun x hx => ?_⟩
  · rw [List.getElem?_append_left (List.getElem?_eq_some_iff.1 hi).1, hi]
  · rcases List.mem_append.1 hx with hx | hx
    · exact hmin x hx
    · rw [List.mem_singleton.1 hx]; exact hc

theorem lowest_victim (cols : List Column) : Lowest cols (victim cols) := by
  induction cols using List.reverseRecOn with
  | nil => intro c hc; cases hc
  | append_singleton cols c ih =>
    rw [victim_concat]
    rcases hv : victim cols with _ | ⟨i, d⟩
    · -- all the columns before are essential
      rw [hv] at ih
      have hall : ∀ x ∈ cols, x.prio = prioEssential := ih
      split_ifs with hc
      · intro x hx
        rcases List.mem_append.1 hx with hx | hx
        · exact hall x hx
        · rw [List.mem_singleton.1 hx, hc]
      · refine ⟨by simp, hc, fun x hx hne => ?_⟩
        rcases List.mem_append.1 hx with hx | hx
        · exact absurd (hall x hx) hne
        · rw [List.mem_singleton.1 hx]
    · rw [hv] at ih
      dsimp only
      split_ifs with hc hlt
      · exact ih.concat fun h => absurd hc h
      · refine ⟨by simp, hc, fun x hx hne => ?_⟩
        rcases List.mem_append.1 hx with hx | hx
        · exact hlt.le.trans (ih.2.2 x hx hne)
        · rw [List.mem_singleton.1 hx]
      · exact ih.concat fun _ => not_lt.1 hlt

/-- A column is dropped only if no other droppable one has a lower priority. -/
theorem dropLowest_eq_some {cols cols' : List Column} (h : dropLowest cols = some cols') :
    ∃ pre d post, cols = pre ++ d :: post ∧ cols' = pre ++ post ∧ d.prio ≠ prioEssential ∧
      ∀ c ∈ cols, c.prio ≠ prioEssential → d.prio ≤ c.prio := by
  obtain ⟨⟨i, d⟩, hv, rfl⟩ := Option.map_eq_some_iff.1 h
  have hlow := lowest_victim cols
  rw [hv] at hlow
  obtain ⟨hi, hd, hmin⟩ := hlow
  obtain ⟨hlt, hget⟩ := List.getElem?_eq_some_iff.1 hi
  refine ⟨cols.take i, d, cols.drop (i + 1), ?_, List.eraseIdx_eq_take_drop_succ .., hd, hmin⟩
  rw [← hget, List.getElem_cons_drop, List.take_append_drop]

theorem dropLowest_eq_none {cols : List Column} (h : dropLowest cols = none) : ∀ c ∈ cols, c.prio = prioEssential := by
  have hlow := lowest_victim cols
  rw [Option.map_eq_none_iff.1 h] at hlow
  exact hlow

theorem length_dropLowest {cols cols' : List Column} (h : dropLowest cols = some cols') :
    cols'.length < cols.length := by
  obtain ⟨pre, d, post, rfl, rfl, -⟩ := dropLowest_eq_some h
  simp

/-! ### Rounds -/

/-- The loop of `fitColumns`: it ends, as a round that does not return drops a column. -/
def fitLoop (width : Int) (cols : List Column) : List Column :=
  let spare := width - (taken cols).1
  let flex := (taken cols).2
  if minLabelWidth * flex ≤ spare then shareFlex cols spare flex
  else
    match _h : dropLowest cols with
    | none => shareFlex cols spare flex
    | some cols' => fitLoop width cols'
termination_by cols.length
decreasing_by exact length_dropLowest _h

def fitColumns (cols : List Column) (width : Int) : List Column :=
  fitLoop (if width ≤ 0 then defaultWidth else width) cols

/-- A round that drops a column. -/
def Drops (width : Int) (cols cols' : List Column) : Prop :=
  width - (taken cols).1 < minLabelWidth * (taken cols).2 ∧ dropLowest cols = some cols'

/-- The rounds of the loop up to the one that returns. -/
theorem fitLoop_run (width : Int) (cols : List Column) :
    ∃ kept, Relation.ReflTransGen (Drops width) cols kept ∧
      fitLoop width cols = shareFlex kept (width - (taken kept).1) (taken kept).2 ∧
      (minLabelWidth * (taken kept).2 ≤ width - (taken kept).1 ∨
        width - (taken kept).1 < minLabelWidth * (taken kept).2 ∧ dropLowest kept = none) := by
  induction cols using fitLoop.induct width with
  | case1 cols spare flex hroom =>
    refine ⟨cols, .refl, ?_, .inl hroom⟩
    rw [fitLoop, if_pos hroom]
  | case2 cols spare flex hroom hnone =>
    refine ⟨cols, .refl, ?_, .inr ⟨not_le.1 hroom, hnone⟩⟩
    rw [fitLoop, if_neg hroom]
    split
    · rfl
    · rename_i cols' hdrop
      rw [hnone] at hdrop
      cases hdrop
  | case3 cols spare flex hroom cols' hdrop ih =>
    obtain ⟨kept, hrun, heq, hend⟩ := ih
    refine ⟨kept, hrun.head ⟨not_le.1 hroom, hdrop⟩, ?_, hend⟩
    rw [fitLoop, if_neg hroom, ← heq]
    split
    · rename_i hnone
      rw [hdrop] at hnone
      cases hnone
    · rename_i cols'' hdrop'
      rw [hdrop] at hdrop'
      rw [Option.some.inj hdrop']

/-! ### Widths -/

def flexCount (cols : List Column) : Int := cols.countP (·.flex)

def widths (cols : List Column) : Int := (cols.map (·.width)).sum

@[simp] theorem widths_cons (c : Column) (cols : List Column) : widths (c :: cols) = c.width + widths cols := by
  simp [widths]

@[simp] theorem flexCount_cons (c : Column) (cols : List Column) :
    flexCount (c :: cols) = flexCount cols + if c.flex then 1 else 0 := by
  unfold flexCount
  rw [List.countP_cons]
  split_ifs <;> simp

theorem tableWidth_eq (cols : List Column) : tableWidth cols = (cols.length - 1) * colGap + widths cols := by
  have hfold : ∀ w : Int, cols.foldl (fun w c => w + c.width) w = w + widths cols := by
    induction cols with
    | nil => intro w; simp [widths]
    | cons c cols ih => intro w; rw [List.foldl_cons, ih, widths_cons, add_assoc]
  exact hfold _

theorem taken_eq (cols : List Column) : taken cols = (tableWidth cols, flexCount cols) := by
  have hfold : ∀ t : Int × Int, cols.foldl (fun t c => (t.1 + c.width, if c.flex then t.2 + 1 else t.2)) t =
      (t.1 + widths cols, t.2 + flexCount cols) := by
    induction cols with
    | nil => intro t; simp [widths, flexCount]
    | cons c cols ih =>
      intro t
      rw [List.foldl_cons, ih, widths_cons, flexCount_cons]
      by_cases hc : c.flex
      · simp only [hc, if_true]; congr 1 <;> ring
      · simp only [hc]; congr 1; ring
  rw [taken, hfold, tableWidth_eq, zero_add]

/-- `c'` is `c`, but for the width of a flexible column. -/
def SizedFrom (c c' : Column) : Prop := c' = { c with width := c'.width } ∧ (c.flex = false → c' = c)

theorem SizedFrom.refl (c : Column) : SizedFrom c c := ⟨rfl, fun _ => rfl⟩

theorem sized_shareLoop (each extra : Int) (cols : List Column) :
    List.Forall₂ SizedFrom cols (shareLoop each extra cols) := by
  induction cols generalizing extra with
  | nil => exact .nil
  | cons c cols ih =>
    unfold shareLoop
    split_ifs with hflex hextra
    · exact .cons ⟨rfl, fun h => by rw [hflex] at h; cases h⟩ (ih _)
    · exact .cons ⟨rfl, fun h => by rw [hflex] at h; cases h⟩ (ih _)
    · exact .cons (.refl c) (ih _)

theorem widths_shareLoop_of_nonpos {each extra : Int} {cols : List Column} (h : ∀ c ∈ cols, c.flex → c.width = 0)
    (hextra : extra ≤ 0) : widths (shareLoop each extra cols) = widths cols + each * flexCount cols := by
  induction cols with
  | nil => simp [shareLoop, widths, flexCount]
  | cons c cols ih =>
    have hcols := ih fun c hc => h c (List.mem_cons_of_mem _ hc)
    unfold shareLoop
    split_ifs with hflex hpos
    · omega
    · rw [widths_cons, hcols, widths_cons, flexCount_cons, if_pos hflex, h c List.mem_cons_self hflex]
      ring
    · rw [widths_cons, hcols, widths_cons, flexCount_cons, if_neg hflex]
      ring

/-- Where the flexible columns are declared without a width, they get `each` of them and the first one
the odd cells. -/
theorem widths_shareLoop {each extra : Int} {cols : List Column} (h : ∀ c ∈ cols, c.flex → c.width = 0)
    (hextra : 0 ≤ extra) (hflex : 0 < flexCount cols) :
    widths (shareLoop each extra cols) = widths cols + each * flexCount cols + extra := by
  induction cols with
  | nil => simp [flexCount] at hflex
  | cons c cols ih =>
    have hcols : ∀ c ∈ cols, c.flex → c.width = 0 := fun c hc => h c (List.mem_cons_of_mem _ hc)
    unfold shareLoop
    split_ifs with hc hpos
    · rw [widths_cons, widths_shareLoop_of_nonpos hcols le_rfl, widths_cons, flexCount_cons, if_pos hc,
        h c List.mem_cons_self hc]
      ring
    · rw [widths_cons, widths_shareLoop_of_nonpos hcols (not_lt.1 hpos), widths_cons, flexCount_cons, if_pos hc,
        h c List.mem_cons_self hc, le_antisymm (not_lt.1 hpos) hextra]
      ring
    · rw [flexCount_cons, if_neg hc, add_zero] at hflex ⊢
      rw [widths_cons, ih hcols hflex, widths_cons]
      ring

theorem width_shareLoop {each extra : Int} {cols : List Column} {c : Column} (hc : c ∈ shareLoop each extra cols)
    (hflex : c.flex = true) : each ≤ c.width ∧ (extra ≤ 0 → c.width = each) := by
  induction cols generalizing extra with
  | nil => cases hc
  | cons d cols ih =>
    unfold shareLoop at hc
    split_ifs at hc with hd hpos
    · rcases List.mem_cons.1 hc with rfl | hc
      · exact ⟨by dsimp only; omega, fun h => by omega⟩
      · exact ⟨(ih hc).1, fun h => by omega⟩
    · rcases List.mem_cons.1 hc with rfl | hc
      · exact ⟨le_rfl, fun _ => rfl⟩
      · exact ih hc
    · rcases List.mem_cons.1 hc with rfl | hc
      · exact absurd hflex hd
      · exact ih hc

/-! ### What is left -/

/-- The columns with every flexible one at its minimum. -/
def atMinimum (cols : List Column) : List Column :=
  cols.map fun c => if c.flex then { c with width := minLabelWidth } else c

/-- Flexible columns are declared without a width, and one of them is essential. -/
structure Fittable (cols : List Column) : Prop where
  flex_zero : ∀ c ∈ cols, c.flex → c.width = 0
  essential : ∃ c ∈ cols, c.flex = true ∧ c.prio = prioEssential

/-- What `fitColumns` makes of `cols`: it drops `dropped`, keeps `kept` and returns these as `out`. -/
structure Fitted (cols : List Column) (width : Int) (kept dropped out : List Column) : Prop where
  sublist : kept.Sublist cols
  rest : cols.Perm (kept ++ dropped)
  sized : List.Forall₂ SizedFrom kept out
  droppable : ∀ d ∈ dropped, d.prio ≠ prioEssential
  lowest : ∀ c ∈ kept, c.prio ≠ prioEssential → ∀ d ∈ dropped, d.prio ≤ c.prio
  /-- The columns before the last drop did not fit. -/
  needed : dropped ≠ [] → ∃ prev, Relation.ReflTransGen (fun a b => dropLowest a = some b) cols prev ∧
    dropLowest prev = some kept ∧ width < tableWidth (atMinimum prev)
  fills : (tableWidth out = width ∧ ∀ c ∈ out, c.flex → minLabelWidth ≤ c.width) ∨
    ((∀ c ∈ out, c.prio = prioEssential) ∧ (∀ c ∈ out, c.flex → c.width = minLabelWidth) ∧ width < tableWidth out)

section Fit
variable {cols kept : List Column} {width : Int}

theorem Fittable.of_kept (h : Fittable cols) (hsub : kept.Sublist cols)
    (hess : ∀ c ∈ cols, c.prio = prioEssential → c ∈ kept) : Fittable kept := by
  obtain ⟨c, hc, hflex, hprio⟩ := h.essential
  exact ⟨fun c hc => h.flex_zero c (hsub.subset hc), c, hess c hc hprio, hflex, hprio⟩

theorem Fittable.flexCount_pos (h : Fittable cols) : 0 < flexCount cols := by
  obtain ⟨c, hc, hflex, -⟩ := h.essential
  exact Int.natCast_pos.2 (List.countP_pos_iff.2 ⟨c, hc, hflex⟩)

theorem shareLoop_minimum {extra : Int} (hextra : extra ≤ 0) (cols : List Column) :
    shareLoop minLabelWidth extra cols = atMinimum cols := by
  induction cols with
  | nil => rfl
  | cons c cols ih =>
    have hcons : atMinimum (c :: cols) =
        (if c.flex then { c with width := minLabelWidth } else c) :: atMinimum cols := rfl
    rw [shareLoop, ih, hcons, if_neg (not_lt.2 hextra)]
    split_ifs <;> rfl

theorem tableWidth_atMinimum (h : ∀ c ∈ cols, c.flex → c.width = 0) :
    tableWidth (atMinimum cols) = tableWidth cols + minLabelWidth * flexCount cols := by
  have hlen : (atMinimum cols).length = cols.length := List.length_map _
  rw [tableWidth_eq, hlen, ← shareLoop_minimum le_rfl, widths_shareLoop_of_nonpos h le_rfl, tableWidth_eq]
  ring

/-- The columns that a run of drops takes out. -/
theorem exists_dropped (h : Relation.ReflTransGen (Drops width) cols kept) :
    kept.Sublist cols ∧ ∃ dropped, cols.Perm (kept ++ dropped) ∧ (∀ d ∈ dropped, d.prio ≠ prioEssential) ∧
      ∀ c ∈ kept, c.prio ≠ prioEssential → ∀ d ∈ dropped, d.prio ≤ c.prio := by
  induction h with
  | refl => exact ⟨.refl _, [], by simp, by simp, by simp⟩
  | @tail kept kept' _ hdrop ih =>
    obtain ⟨hsub, dropped, hperm, hdroppable, hlow⟩ := ih
    obtain ⟨pre, d, post, rfl, rfl, hd, hmin⟩ := dropLowest_eq_some hdrop.2
    have hsub' : (pre ++ post).Sublist (pre ++ d :: post) := (List.sublist_cons_self d post).append_left pre
    refine ⟨hsub'.trans hsub, d :: dropped, ?_, ?_, ?_⟩
    · refine hperm.trans ?_
      rw [List.append_assoc, List.append_assoc, List.cons_append]
      refine .append_left pre ?_
      exact List.perm_middle.symm
    · intro e he
      rcases List.mem_cons.1 he with rfl | he
      · exact hd
      · exact hdroppable e he
    · intro c hc hne e he
      rcases List.mem_cons.1 he with rfl | he
      · exact hmin c (hsub'.subset hc) hne
      · exact hlow c (hsub'.subset hc) hne e he

theorem Fittable.of_drops (h : Fittable cols) (hrun : Relation.ReflTransGen (Drops width) cols kept) :
    Fittable kept := by
  obtain ⟨hsub, dropped, hperm, hdroppable, -⟩ := exists_dropped hrun
  exact h.of_kept hsub fun c hc hprio =>
    (List.mem_append.1 (hperm.mem_iff.1 hc)).resolve_right fun hd => hdroppable c hd hprio

theorem sized_shareFlex (cols : List Column) (spare flex : Int) :
    List.Forall₂ SizedFrom cols (shareFlex cols spare flex) := by
  unfold shareFlex
  split_ifs
  · exact List.forall₂_same.2 fun c _ => .refl c
  · exact sized_shareLoop _ _ cols

theorem exists_of_sized {out : List Column} (h : List.Forall₂ SizedFrom cols out) {c' : Column} (hc : c' ∈ out) :
    ∃ c ∈ cols, SizedFrom c c' := by
  induction h with
  | nil => cases hc
  | @cons c d cols out hcd _ ih =>
    rcases List.mem_cons.1 hc with rfl | hc
    · exact ⟨c, List.mem_cons_self, hcd⟩
    · obtain ⟨k, hk, hkc⟩ := ih hc
      exact ⟨k, List.mem_cons_of_mem _ hk, hkc⟩

/-- With room for them all, the flexible columns fill the width. -/
theorem shareFlex_room (h : Fittable kept) (hroom : minLabelWidth * flexCount kept ≤ width - tableWidth kept) :
    tableWidth (shareFlex kept (width - tableWidth kept) (flexCount kept)) = width ∧
      ∀ c ∈ shareFlex kept (width - tableWidth kept) (flexCount kept), c.flex → minLabelWidth ≤ c.width := by
  have hpos := h.flexCount_pos
  have hspare : 0 ≤ width - tableWidth kept := le_trans (by unfold minLabelWidth; omega) hroom
  have hlen := (sized_shareFlex kept (width - tableWidth kept) (flexCount kept)).length_eq
  have heach : minLabelWidth ≤ (width - tableWidth kept).tdiv (flexCount kept) := by
    rw [Int.tdiv_eq_ediv_of_nonneg hspare, Int.le_ediv_iff_mul_le hpos]
    exact hroom
  have hextra : 0 ≤ width - tableWidth kept - (width - tableWidth kept).tdiv (flexCount kept) * flexCount kept := by
    rw [Int.tdiv_eq_ediv_of_nonneg hspare, sub_nonneg]
    exact Int.ediv_mul_le _ hpos.ne'
  have hshare : shareFlex kept (width - tableWidth kept) (flexCount kept) =
      shareLoop ((width - tableWidth kept).tdiv (flexCount kept))
        (width - tableWidth kept - (width - tableWidth kept).tdiv (flexCount kept) * flexCount kept) kept := by
    rw [shareFlex, if_neg (not_le.2 hpos), max_eq_left heach]
  refine ⟨?_, fun c hc hflex => ?_⟩
  · rw [tableWidth_eq, ← hlen, hshare, widths_shareLoop h.flex_zero hextra hpos]
    have htable := tableWidth_eq kept
    omega
  · rw [hshare] at hc
    exact heach.trans (width_shareLoop hc hflex).1

/-- Without, they get their minimum. -/
theorem shareFlex_tight (h : Fittable kept) (htight : width - tableWidth kept < minLabelWidth * flexCount kept) :
    shareFlex kept (width - tableWidth kept) (flexCount kept) = atMinimum kept := by
  have hpos := h.flexCount_pos
  have heach : (width - tableWidth kept).tdiv (flexCount kept) ≤ minLabelWidth := by
    rcases le_or_gt 0 (width - tableWidth kept) with hspare | hspare
    · rw [Int.tdiv_eq_ediv_of_nonneg hspare]
      exact (Int.ediv_lt_of_lt_mul hpos htight).le
    · -- the division rounds towards zero
      have hneg : (width - tableWidth kept).tdiv (flexCount kept) ≤ 0 := by
        rw [← neg_neg (width - tableWidth kept), Int.neg_tdiv, neg_nonpos]
        exact Int.tdiv_nonneg (neg_nonneg.2 hspare.le) hpos.le
      exact hneg.trans (by decide)
  rw [shareFlex, if_neg (not_le.2 hpos), max_eq_right heach]
  exact shareLoop_minimum (by omega) kept

/-- A column is flexible and declared without a width, or has one. -/
theorem width_of_mem_tableColumns {fmt : Formats} {g : Grouping} {hostname : Option (Row → String)} {now : Int}
    {c : Column} (hc : c ∈ tableColumns fmt g hostname now) :
    (c.flex = true ∧ c.width = 0) ∨ (c.flex = false ∧ 1 ≤ c.width) := by
  have hsplit : c = processColumn ∨ c ∈ groupingColumns fmt hostname g ∨ c = ageColumn fmt now ∨
      c ∈ rateTotalColumns fmt := by
    simpa [tableColumns] using hc
  rcases hsplit with rfl | hc | rfl | hc
  · exact .inl ⟨rfl, rfl⟩
  · cases g <;> cases hostname <;>
      simp only [groupingColumns, groupByPIDColumns, groupByProcessNameColumns, ungroupedColumns, Option.map_none,
        Option.map_some, Option.toList_none, Option.toList_some, List.cons_append, List.nil_append, List.append_nil,
        List.mem_cons, List.not_mem_nil, or_false] at hc <;>
      rcases hc with rfl | rfl | rfl | rfl | rfl | rfl | rfl | rfl <;>
      first
        | exact .inl ⟨rfl, rfl⟩
        | exact .inr ⟨rfl, by simp [pidColumn, pidWidth, connColumn, connWidth, protoColumn, protoWidth, stateColumn,
            stateWidth]⟩
  · exact .inr ⟨rfl, by simp [ageColumn, ageWidth]⟩
  · simp only [rateTotalColumns, List.mem_cons, List.not_mem_nil, or_false] at hc
    rcases hc with rfl | rfl | rfl | rfl <;> exact .inr ⟨rfl, by simp [rateTotalColumn, rateWidth, totalWidth]⟩

/-- In every grouping the process column is flexible and stays. -/
theorem fittable_tableColumns (fmt : Formats) (g : Grouping) (hostname : Option (Row → String)) (now : Int) :
    Fittable (tableColumns fmt g hostname now) := by
  refine ⟨fun c hc hflex => ?_, processColumn, List.mem_cons_self, rfl, rfl⟩
  rcases width_of_mem_tableColumns hc with ⟨-, hzero⟩ | ⟨hfixed, -⟩
  · exact hzero
  · rw [hfixed] at hflex
    cases hflex

/-- No column of a fitted table is without a width. -/
theorem one_le_width_fitColumns (h : Fittable cols) (hfixed : ∀ c ∈ cols, c.flex = false → 1 ≤ c.width) (width : Int) :
    fitColumns cols width ≠ [] ∧ ∀ c ∈ fitColumns cols width, 1 ≤ c.width := by
  obtain ⟨kept, hrun, heq, -⟩ := fitLoop_run (if width ≤ 0 then defaultWidth else width) cols
  have hsub := (exists_dropped hrun).1
  have hkept : Fittable kept := h.of_drops hrun
  obtain ⟨e, he, -⟩ := hkept.essential
  rw [taken_eq] at heq
  rw [fitColumns, heq]
  have hsized := sized_shareFlex kept ((if width ≤ 0 then defaultWidth else width) - tableWidth kept) (flexCount kept)
  refine ⟨List.ne_nil_of_length_pos (hsized.length_eq ▸ List.length_pos_of_mem he), fun c' hc' => ?_⟩
  cases hflex : c'.flex with
  | false =>
    obtain ⟨c, hc, hsame⟩ := exists_of_sized hsized hc'
    have hcflex : c.flex = false := by rw [hsame.1] at hflex; exact hflex
    rw [hsame.2 hcflex]
    exact hfixed c (hsub.subset hc) hcflex
  | true =>
    rw [shareFlex, if_neg (not_le.2 hkept.flexCount_pos)] at hc'
    have hten : 1 ≤ minLabelWidth := by decide
    exact hten.trans ((le_max_right _ _).trans (width_shareLoop hc' hflex).1)

/-- For every width there is, the table is fitted to it with as few columns dropped as it takes. -/
theorem fitColumns_fitted (cols : List Column) (width : Int) (hcols : Fittable cols) (hwidth : 0 < width) :
    ∃ kept dropped, Fitted cols width kept dropped (fitColumns cols width) := by
  obtain ⟨kept, hrun, heq, hend⟩ := fitLoop_run width cols
  obtain ⟨hsub, dropped, hperm, hdroppable, hlow⟩ := exists_dropped hrun
  have hkept : Fittable kept := hcols.of_drops hrun
  rw [taken_eq] at heq hend
  have hout : fitColumns cols width = shareFlex kept (width - tableWidth kept) (flexCount kept) := by
    rw [fitColumns, if_neg (not_le.2 hwidth), heq]
  have hsized := sized_shareFlex kept (width - tableWidth kept) (flexCount kept)
  rw [hout]
  refine ⟨kept, dropped, hsub, hperm, hsized, hdroppable, hlow, fun hne => ?_, ?_⟩
  · -- the last round that dropped a column
    rcases Relation.ReflTransGen.cases_tail hrun with rfl | ⟨prev, hprev, htight, hdrop⟩
    · have := hperm.length_eq
      rw [List.length_append] at this
      exact absurd (List.length_eq_zero_iff.1 (by omega)) hne
    · have hzero : ∀ c ∈ prev, c.flex → c.width = 0 := fun c hc =>
        hcols.flex_zero c ((exists_dropped hprev).1.subset hc)
      refine ⟨prev, Relation.ReflTransGen.mono (fun _ _ h => And.right h) _ _ hprev, hdrop, ?_⟩
      rw [taken_eq] at htight
      rw [tableWidth_atMinimum hzero]
      dsimp only at htight
      omega
  · rcases hend with hroom | ⟨htight, hnone⟩
    · exact .inl (shareFlex_room hkept hroom)
    · refine .inr ⟨fun c hc => ?_, fun c hc hflex => ?_, ?_⟩
      · obtain ⟨k, hk, hkc⟩ := exists_of_sized hsized hc
        rw [hkc.1]
        exact dropLowest_eq_none hnone k hk
      · rw [shareFlex_tight hkept htight, ← shareLoop_minimum le_rfl] at hc
        exact (width_shareLoop hc hflex).2 le_rfl
      · rw [shareFlex_tight hkept htight, tableWidth_atMinimum hkept.flex_zero]
        dsimp only at htight
        omega

/-- A narrow terminal drops the PID. -/
theorem fitColumns_fitted_narrow : ∃ kept dropped,
    Fitted [processColumn, pidColumn] 12 kept dropped (fitColumns [processColumn, pidColumn] 12) := by
  refine fitColumns_fitted _ _ ⟨fun c hc hflex => ?_, processColumn, List.mem_cons_self, rfl, rfl⟩ (by decide)
  rcases List.mem_cons.1 hc with rfl | hc
  · rfl
  · rw [List.mem_singleton.1 hc] at hflex
    cases hflex

end Fit

end Trafficmon.Tui
