import Trafficmon.Aggregate.Closed
import Trafficmon.Lib.Styled
import Trafficmon.Tui.Cells
import Trafficmon.Tui.Windows

/-!
# The view (`tui/view.go`, `tui/panel.go`, `tui/events.go`)

`Model.viewFrame` is what `View` returns: a panel of connections, with the header bar and the table (or
the help, or the interface picker), a panel of events and the footer. Texts are styled bytes; how lipgloss
measures, styles, boxes and clips them, and what the help and the line editor show, is the `Screen`.
A slice out of range, which would panic, is `none`.
-/

namespace Trafficmon

def Grouping.string : Grouping → String
  | .byPID => "By PID"
  | .byProcessName => "By Process"
  | .none => "Ungrouped"

def SortKey.string : SortKey → String
  | .total => "total"
  | .pid => "pid"
  | .rate => "rate"

namespace Tui
open Styled

inductive EventSeverity
  | info
  | error
deriving DecidableEq, Repr

def EventKind.severity : EventKind → EventSeverity
  | .rst | .dnsError => .error
  | _ => .info

def EventSeverity.string : EventSeverity → String
  | .error => "ERR"
  | .info => "INFO"

def EventKind.string : EventKind → String
  | .rst => "RST"
  | .dnsQuery => "DNS Q"
  | .dnsError => "DNS ERR"
  | .dnsAnswer => "DNS A"
  | .syn => "SYN"

/-- The styles of `Styles`, the colors of the panels' borders, and `Selected` in the color of a severity. -/
inductive Style
  | header | breadcrumb | live | footer | selected | closed | eventInfo | eventError | columnHeader
  | panelTitle | panelTitleBlurred | paused
  | border | borderBlurred
  | selectedIn (lvl : EventSeverity)
deriving DecidableEq, Repr

abbrev Text := Styled.Text Style

/-- The style of a panel's box: a border without its top, a cell of padding either side, a width and a
height that count the padding and not the border. -/
structure Box where
  border : Style
  width : Int
  height : Int

/-- What the view has from lipgloss, from the help and the line editor, and the words for times and
amounts. -/
structure Screen (ι : Type*) where
  /-- `lipgloss.Width`, of a text in one line. -/
  width : List UInt8 → Int
  render : Style → Text → Text
  box : Box → Text → Text
  /-- `MaxWidth(w).Render`. -/
  clip : Int → Text → Text
  shortHelpView : Int → List Key → Text
  fullHelpView : Int → List (List Key) → Text
  inputView : ι → Text
  /-- `At.Format(eventTimeFormat)`. -/
  clock : Int → String
  formats : Formats

namespace Screen
variable {ι : Type*} (S : Screen ι)

def cells (t : Text) : Int := S.width (unstyled t)

/-- The words `s` in a style. -/
def styled (st : Style) (s : String) : Text := S.render st (plain (utf8 s))

/-! ### Panels -/

def renderPanelTitleBar (title : String) (outerWidth : Int) (focused : Bool) : Text :=
  let edge : Style := if focused then .border else .borderBlurred
  let titleStyle : Style := if focused then .panelTitle else .panelTitleBlurred
  let dashes (n : Int) : List UInt8 := (List.replicate n.toNat (utf8 "─")).flatten
  if title = "" then S.render edge (plain (utf8 "╭" ++ dashes (max (outerWidth - 2) 0) ++ utf8 "╮"))
  else
    let label := utf8 (" " ++ title ++ " ")
    let remaining := max (outerWidth - 2 - 1 - S.width label) 0
    S.render edge (plain (utf8 "╭" ++ utf8 "─")) ++ S.render titleStyle (plain label) ++
      S.render edge (plain (dashes remaining ++ utf8 "╮"))

def renderPanel (title : String) (outerWidth outerHeight : Int) (body : Text) (focused : Bool) : Text :=
  S.renderPanelTitleBar title outerWidth focused ++ plain [lineBreak] ++
    S.box ⟨if focused then .border else .borderBlurred, clamp (outerWidth - 2) 1 outerWidth,
      clamp (outerHeight - 2) 1 outerHeight⟩ body

/-- Lays `left` at the start of a line of `w` cells and `right` at its end, or `left` alone. -/
def joinEnds (left right : Text) (w : Int) : Text :=
  let gap := w - S.cells left - S.cells right
  if gap < 1 then left else left ++ plain (spaces gap) ++ right

/-! ### Rows of events -/

def formatEventRow (rec : EventRecord) : List String :=
  [S.clock rec.atTime, rec.kind.severity.string, rec.kind.string, rec.localAddr, rec.remote, rec.info]

end Screen

def eventTimeWidth : Int := 8
def eventSeverityWidth : Int := 4
def eventTypeWidth : Int := 7
def eventAddrWidth : Int := 21

def eventSeverityColumn : Nat := 1

def eventInfoWidth (contentWidth : Int) : Int :=
  let fixed := eventTimeWidth + eventSeverityWidth + eventTypeWidth + eventAddrWidth * 2 + colGap * 5
  clamp (contentWidth - fixed) minLabelWidth contentWidth

def eventColumnTitles : List String := ["TIME", "LVL", "TYPE", "LOCAL", "REMOTE", "INFO"]

def eventColumnWidths (infoWidth : Int) : List Int :=
  [eventTimeWidth, eventSeverityWidth, eventTypeWidth, eventAddrWidth, eventAddrWidth, infoWidth]

namespace Screen
variable {ι : Type*} (S : Screen ι)

/-- The texts of a row's columns, each padded to its width. -/
def eventCells (texts : List String) (infoWidth : Int) : List (List UInt8) :=
  List.zipWith (fun s w => pad S.width (utf8 s) w .left false) texts (eventColumnWidths infoWidth)

def renderEventHeader (infoWidth : Int) : List UInt8 :=
  List.intercalate (spaces colGap) (S.eventCells eventColumnTitles infoWidth)

/-- The cursor's row is styled cell by cell, as a style within it would end the highlight. -/
def renderEventRow (rec : EventRecord) (infoWidth : Int) (selected : Bool) : Text :=
  let cells := S.eventCells (S.formatEventRow rec) infoWidth
  let lvl : Style := if rec.kind.severity = .error then .eventError else .eventInfo
  if ! selected then
    List.intercalate (plain (spaces colGap)) (cells.mapIdx fun i cell =>
      if i = eventSeverityColumn then S.render lvl (plain cell) else plain cell)
  else
    List.intercalate (S.render .selected (plain (spaces colGap))) (cells.mapIdx fun i cell =>
      S.render (if i = eventSeverityColumn then .selectedIn rec.kind.severity else .selected) (plain cell))

end Screen

/-! ### The help -/

/-- The key and the description that a binding is shown with. -/
def Key.helpText : Key → String × String
  | .up => ("↑/k", "up")
  | .down => ("↓/j", "down")
  | .pageUp => ("pgup", "page up")
  | .pageDown => ("pgdn", "page down")
  | .home => ("home", "top")
  | .end => ("end/G", "bottom")
  | .grouping => ("g", "cycle grouping")
  | .sort => ("s", "cycle sort")
  | .rateSort => ("r", "rate/total")
  | .filter => ("/", "filter")
  | .toggleListening => ("l", "toggle listening")
  | .toggleTCP => ("t", "toggle tcp")
  | .toggleUDP => ("u", "toggle udp")
  | .toggleIPv4 => ("4", "toggle ipv4")
  | .toggleIPv6 => ("6", "toggle ipv6")
  | .togglePrivate => ("P", "toggle private")
  | .interfaces => ("i", "toggle interfaces")
  | .focusNext => ("tab", "switch panel")
  | .zoom => ("enter", "zoom panel")
  | .unzoom => ("esc", "unzoom")
  | .pause => ("p/space", "pause")
  | .help => ("?", "help")
  | .quit => ("q", "quit")

def shortHelp : List Key := [.up, .down, .grouping, .sort, .interfaces, .help, .quit]

def fullHelp : List (List Key) :=
  [[.up, .down, .pageUp, .pageDown, .home, .end],
    [.filter, .toggleListening, .toggleTCP, .toggleUDP, .toggleIPv4, .toggleIPv6, .togglePrivate, .interfaces],
    [.grouping, .sort, .rateSort, .focusNext, .zoom, .unzoom, .pause, .help, .quit]]

/-! ### The view -/

def appName : String := "trafficmon"
def panelTitle : String := "Connections"
def eventsPanelTitle : String := "Events"
def emptyMessage : String := "  (no traffic yet)"
def emptyFilterMessage : String := "  (nothing matches the filter — / to change it)"
def emptyEventsMessage : String := "  (no events yet)"
def filterHint : String := "enter apply · empty clears · esc cancel"
def maxFilterLabel : Int := 16
def panelBorderWidth : Int := 4
def panelBorderHeight : Int := 2

/-- Pads or trims `lines` to `n` rows and the titles above them, if `n` is known. -/
def fitLines (lines : List Text) (n : Int) : List Text :=
  if n ≤ 0 then lines
  else
    let n := (n + 1).toNat
    (lines ++ List.replicate (n - lines.length) []).take n

namespace Model
variable {ι : Type*} (env : Env ι) (S : Screen ι) (m : Model ι)

def viewWidth : Int := if m.width ≤ 0 then defaultWidth else m.width

def contentWidth : Int := clamp (m.viewWidth - panelBorderWidth) 1 m.viewWidth

def fit (lines : List Text) : List Text := fitLines lines m.rowLines

def fitEvents (lines : List Text) : List Text := fitLines lines m.eventsRowLines

def allInterfacesActive : Bool := m.interfaces.all fun name => (m.activeInterfaces.lookup name).getD false

def viewHeader : Text :=
  let left := S.styled .header (appName ++ " · " ++ m.grouping.string)
  let label := utf8 ("sort: " ++ m.sort.string)
  let label :=
    if m.filter ≠ "" then utf8 "filter: " ++ truncate S.width (utf8 m.filter) maxFilterLabel ++ utf8 " · " ++ label
    else label
  let onOff (enable : Bool) (on off : String) : Text :=
    if enable then S.styled .live on else S.styled .paused off
  let right := List.intercalate (plain (utf8 " · "))
    [S.render .header (plain label),
      onOff m.showListening "LISTEN" "!LISTEN",
      onOff m.showTCP "TCP" "!TCP",
      onOff m.showUDP "UDP" "!UDP",
      onOff m.showIPv4 "IPV4" "!IPV4",
      onOff m.showIPv6 "IPV6" "!IPV6",
      onOff m.showPrivate "PRIV" "!PRIV",
      onOff m.allInterfacesActive "IFACE" "!IFACE",
      onOff (! m.paused) "live" "PAUSED"]
  S.joinEnds left right m.contentWidth

def emptyBody : String := if m.filter ≠ "" then emptyFilterMessage else emptyMessage

def columns : List Column :=
  fitColumns (tableColumns S.formats m.grouping (some env.hostname) m.now) m.contentWidth

/-- The row `r` of the table, which is the `i`th. -/
def viewRow (r : Row) (i : Int) : Text :=
  let line := plain (renderRow S.width r (m.columns env S))
  let line := if r.closed m.now then S.render .closed line else line
  if i = m.cursor then S.render .selected line else line

def viewTable : Option (List Text) :=
  let title := S.render .columnHeader (plain (tableHeader S.width (m.columns env S) m.sort))
  if m.rows = [] then some (m.fit [title, S.styled .breadcrumb m.emptyBody])
  else
    let start := (visibleWindow m.rows.length m.cursor m.rowLines).1
    m.visibleRows.map fun rows => m.fit (title :: rows.mapIdx fun i r => m.viewRow env S r (start + i))

def viewHelp : List Text :=
  m.fit (S.styled .columnHeader "Key reference" :: [] :: split (S.fullHelpView m.contentWidth fullHelp))

def viewIfacePicker : List Text :=
  m.fit (S.styled .columnHeader "Interfaces" :: [] :: m.interfaces.mapIdx fun i name =>
    let mark := if (m.activeInterfaces.lookup name).getD false then "[x]" else "[ ]"
    let line := plain (pad S.width (utf8 (mark ++ " " ++ name)) m.contentWidth .left false)
    if (i : Int) = m.ifaceCursor then S.render .selected line else line)

def viewEvents : Option (List Text) :=
  let infoWidth := eventInfoWidth m.contentWidth
  let title := S.render .columnHeader (plain (S.renderEventHeader infoWidth))
  if m.events.items = [] then some (m.fitEvents [title, S.styled .breadcrumb emptyEventsMessage])
  else
    let start := (eventsVisibleWindow m.eventsWindowTop m.eventsCursor m.events.items.length m.eventsRowLines).1
    m.visibleEvents.map fun recs => m.fitEvents (title :: recs.mapIdx fun i rec =>
      S.renderEventRow rec infoWidth (start + i = m.eventsCursor))

/-- A panel around the lines of its body. -/
def viewPanel (title : String) (focused : Bool) (body : List Text) : List Text :=
  split (S.renderPanel title m.viewWidth (body.length + panelBorderHeight) (join body) focused)

def connBody : Option (List Text) :=
  let body : Option (List Text) :=
    if m.showHelp then some (m.viewHelp S)
    else if m.showIfacePicker then some (m.viewIfacePicker S)
    else m.viewTable env S
  body.map (m.viewHeader S :: ·)

def viewConnPanel : Option (List Text) :=
  (m.connBody env S).map (m.viewPanel S panelTitle (m.zoomed || m.focus = .connections))

def viewEventsPanel : Option (List Text) :=
  (m.viewEvents S).map (m.viewPanel S eventsPanelTitle (m.zoomed || m.focus = .events))

/-- The hint for the filter is shown while there is one, ahead of the help's own. -/
def footerKeys : List Key :=
  if m.filter = "" then shortHelp
  else shortHelp.flatMap fun k => if k.helpText = Key.helpText .help then [.filter, k] else [k]

def viewFilterInput : Text :=
  S.render .footer (S.joinEnds (S.inputView m.input) (plain (utf8 filterHint)) (max (m.viewWidth - 2) 1))

def viewFooter : Text :=
  if m.filtering then m.viewFilterInput S
  else S.render .footer (S.shortHelpView (max (m.viewWidth - 2) 1) m.footerKeys)

/-- The lines before they are clipped. -/
def viewLines : Option (List Text) :=
  (if m.layout.1 > 0 then m.viewConnPanel env S else some []).bind fun conn =>
    (if m.layout.2 > 0 then m.viewEventsPanel S else some []).map fun events => conn ++ events ++ [m.viewFooter S]

/-- `View`. -/
def viewFrame : Option Text :=
  (m.viewLines env S).map fun lines =>
    let lines := lines.map fun l => if S.cells l > m.viewWidth then S.clip m.viewWidth l else l
    let lines := if m.height > 0 ∧ (lines.length : Int) > m.height then lines.take m.height.toNat else lines
    join lines

end Model

end Tui

end Trafficmon
