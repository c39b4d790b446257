import Trafficmon.Tui.Filters
import Trafficmon.Tui.Table

/-!
# The terminal UI (`tui/model.go`, `state.go`, `keys.go`, `events.go`)

`Model.update` takes the messages of Bubble Tea: keys, read in one of five modes (the filter input,
the help, the interface picker, a zoomed panel, the table), ticks, window sizes and mouse events. The
line editor of the filter is a library's and stays open (`Env`), as do the name shown for a row and
the case folding of the filter. Of a key press only its type and its text matter.
-/

namespace Trafficmon.Tui

inductive KeyType
  | ctrlC
  | esc
  | enter
  | space
  | other
deriving DecidableEq, Repr

structure KeyMsg where
  type : KeyType
  string : String
deriving DecidableEq, Repr

/-- What comes from outside: the line editor (`textinput.Model`), the name to show for a row, and
`strings.ToLower`. -/
structure Env (ι : Type*) where
  newInput : ι
  updateInput : ι → KeyMsg → ι
  value : ι → String
  setValue : ι → String → ι
  focusInput : ι → ι
  blurInput : ι → ι
  hostname : Row → String
  toLower : String → String

/-! ### Keys -/

/-- The bindings of `KeyMap`. -/
inductive Key
  | up | down | pageUp | pageDown | home | «end»
  | grouping | sort | rateSort | filter
  | toggleListening | toggleTCP | toggleUDP | toggleIPv4 | toggleIPv6 | togglePrivate | interfaces
  | focusNext | zoom | unzoom | pause | help | quit
deriving DecidableEq, Repr

/-- `DefaultKeyMap`. -/
def Key.keys : Key → List String
  | .up => ["up", "k"]
  | .down => ["down", "j"]
  | .pageUp => ["pgup", "ctrl+b"]
  | .pageDown => ["pgdown", "ctrl+f"]
  | .home => ["home"]
  | .end => ["end", "G"]
  | .grouping => ["g"]
  | .sort => ["s"]
  | .rateSort => ["r"]
  | .filter => ["/"]
  | .toggleListening => ["l"]
  | .toggleTCP => ["t"]
  | .toggleUDP => ["u"]
  | .toggleIPv4 => ["4"]
  | .toggleIPv6 => ["6"]
  | .togglePrivate => ["P"]
  | .interfaces => ["i"]
  | .focusNext => ["tab"]
  | .zoom => ["enter"]
  | .unzoom => ["esc"]
  | .pause => ["p", " "]
  | .help => ["?"]
  | .quit => ["q", "ctrl+c"]

/-- `key.Matches`. -/
def KeyMsg.hits (msg : KeyMsg) (k : Key) : Bool := msg.string ∈ k.keys

/-! ### Events -/

inductive EventKind
  | syn
  | rst
  | dnsQuery
  | dnsError
  | dnsAnswer
deriving DecidableEq, Repr

structure EventRecord where
  atTime : Int
  kind : EventKind
  localAddr : String := ""
  remote : String
  info : String
deriving DecidableEq, Repr

def eventRingCapacity : Nat := 500

structure EventRing where
  items : List EventRecord := []
deriving DecidableEq, Repr

def EventRing.push (r : EventRing) (rec : EventRecord) : EventRing :=
  ⟨(if eventRingCapacity ≤ r.items.length then r.items.drop 1 else r.items) ++ [rec]⟩

/-- `net.JoinHostPort`. -/
def joinHostPort (host port : String) : String :=
  if ':' ∈ host.toList then "[" ++ host ++ "]:" ++ port else host ++ ":" ++ port

def synRecord (e : SYNEvent) : EventRecord where
  atTime := e.atTime
  kind := .syn
  localAddr := joinHostPort e.localAddr.string (itoa e.localPort.toNat)
  remote := joinHostPort e.remoteAddr.string (itoa e.remotePort.toNat)
  info := e.iface

def rstRecord (e : RSTEvent) : EventRecord where
  atTime := e.atTime
  kind := .rst
  localAddr := joinHostPort e.localAddr.string (itoa e.localPort.toNat)
  remote := joinHostPort e.remoteAddr.string (itoa e.remotePort.toNat)
  info := e.iface

def queryRecord (q : QueryFinding) : EventRecord where
  atTime := q.atTime
  kind := .dnsQuery
  localAddr := q.clientAddr
  remote := q.serverAddr
  info := q.name ++ " (" ++ q.qType ++ ")"

def errorRecord (e : DNSErrorFinding) : EventRecord where
  atTime := e.atTime
  kind := .dnsError
  remote := e.serverAddr
  info := e.name ++ " (" ++ e.qType ++ ") " ++ e.rCode

def answerRecord (a : DNSAnswerFinding) : EventRecord where
  atTime := a.atTime
  kind := .dnsAnswer
  remote := a.serverAddr
  info := a.name ++ " (" ++ a.qType ++ ") -> " ++ a.answer ++ " (ttl " ++ itoa a.ttl.toNat ++ "s)"

/-- The five event streams of a snapshot, merged by time. -/
def eventRecords (snap : Snapshot) : List EventRecord :=
  SortBy.stableSort (fun a b => a.atTime < b.atTime)
    (snap.synEvents.map synRecord ++ snap.rstEvents.map rstRecord ++ snap.dnsQueries.map queryRecord ++
      snap.dnsErrors.map errorRecord ++ snap.dnsAnswers.map answerRecord)

/-! ### The model -/

def connChromeLines : Int := 4
def eventsChromeLines : Int := 3
def eventsHeightFraction : Int := 4
def minPanelDataRows : Int := 3
def defaultPageSize : Int := 10

inductive PanelFocus
  | connections
  | events
deriving DecidableEq, Repr

structure Model (ι : Type*) where
  /-- Whether there is an aggregator to refresh from. -/
  agg : Bool
  interfaces : List String
  activeInterfaces : GoMap String Bool
  showIfacePicker : Bool := false
  ifaceCursor : Int := 0
  grouping : Grouping := .none
  sort : SortKey := .pid
  snap : Snapshot := { takenAt := 0, connections := [] }
  rows : List Row := []
  cursor : Int := 0
  now : Int := 0
  paused : Bool := false
  showHelp : Bool := false
  filter : String := ""
  input : ι
  filtering : Bool := false
  filterBefore : String := ""
  showListening : Bool := true
  showTCP : Bool := true
  showUDP : Bool := true
  showIPv4 : Bool := true
  showIPv6 : Bool := true
  showPrivate : Bool := true
  events : EventRing := {}
  eventsCursor : Int := 0
  eventsWindowTop : Int := 0
  focus : PanelFocus := .connections
  zoomed : Bool := false
  eventsPanelRows : Int := 0
  draggingDivider : Bool := false
  dragRow : Int := 0
  width : Int := 0
  height : Int := 0
  /-- How often the rows were rebuilt; no part of the program. -/
  rebuilds : Nat := 0

inductive Cmd
  | nil
  | quit
  | tick
  /-- What the line editor returned. -/
  | input
deriving DecidableEq, Repr

inductive MouseAction
  | press
  | release
  | motion
deriving DecidableEq, Repr

/-- A tick comes with the snapshot that the aggregator returns when it is asked. -/
inductive Msg
  | windowSize (width height : Int)
  | mouse (action : MouseAction) (y : Int)
  | tick (now : Int) (snap : Snapshot)
  | key (msg : KeyMsg)
  | other

def clamp (v lo hi : Int) : Int := min (max v lo) hi

/-- Where the row with the key `key` is among `rows`, or else what is left of the old position. -/
def cursorFor (rows : List Row) (key : String) (fallback : Int) : Int :=
  if rows = [] then 0
  else
    match if key = "" then none else rows.findIdx? fun r => r.key = key with
    | some i => i
    | none => clamp fallback 0 (rows.length - 1)

def eventsWindowStart (prevStart cursor n limit : Int) : Int :=
  if limit ≤ 0 ∨ n ≤ limit then 0
  else
    let start := clamp prevStart 0 (n - limit)
    let start := if cursor < start then cursor else start
    let start := if cursor > start + limit - 1 then cursor - limit + 1 else start
    clamp start 0 (n - limit)

namespace Model
variable {ι : Type*} (env : Env ι) (m : Model ι)

/-! ### Layout -/

def splitTotalLines : Int := max (m.height - 1) 0

/-- The rows of the connections panel and of the events panel. -/
def layout : Int × Int :=
  if m.height ≤ 0 then (0, 0)
  else if m.zoomed then
    match m.focus with
    | .events => (0, max (m.splitTotalLines - eventsChromeLines) 1)
    | .connections => (max (m.splitTotalLines - connChromeLines) 1, 0)
  else
    let total := m.splitTotalLines
    let eventsRows := max m.eventsPanelRows minPanelDataRows
    let connRows := total - connChromeLines - (eventsRows + eventsChromeLines)
    if connRows < minPanelDataRows then
      (minPanelDataRows, max (total - connChromeLines - minPanelDataRows - eventsChromeLines) minPanelDataRows)
    else (connRows, eventsRows)

def eventsRowLines : Int := m.layout.2

def pageSize : Int :=
  let n := if m.focus = .events then m.layout.2 else m.layout.1
  if n > 0 then n else defaultPageSize

/-- A resize keeps the fraction of the lines that the events panel had. -/
def resizePanels (width height : Int) : Model ι :=
  let frac : Float :=
    if m.eventsPanelRows > 0 ∧ m.splitTotalLines > 0 then
      Float.ofInt (m.eventsPanelRows + eventsChromeLines) / Float.ofInt m.splitTotalLines
    else 1.0 / Float.ofInt eventsHeightFraction
  let m := { m with width := width, height := height }
  let rows := (Float.ofInt m.splitTotalLines * frac).toInt64.toInt
  { m with eventsPanelRows := max (rows - eventsChromeLines) minPanelDataRows }

def dividerRow : Int := if m.zoomed then -1 else connChromeLines + m.layout.1 - 1

def adjustEventsPanelRows (delta : Int) : Model ι :=
  let maxRows := max (m.splitTotalLines - connChromeLines - eventsChromeLines - minPanelDataRows) minPanelDataRows
  { m with eventsPanelRows := clamp (m.eventsPanelRows + delta) minPanelDataRows maxRows }

def handleMouse (action : MouseAction) (y : Int) : Model ι × Cmd :=
  if m.zoomed then (m, .nil)
  else
    match action with
    | .press => (if y = m.dividerRow then { m with draggingDivider := true, dragRow := y } else m, .nil)
    | .motion =>
      (if m.draggingDivider then { m with dragRow := y }.adjustEventsPanelRows (-(y - m.dragRow)) else m, .nil)
    | .release => ({ m with draggingDivider := false }, .nil)

/-! ### Cursors -/

def moveCursor (delta : Int) : Model ι :=
  if m.rows = [] then { m with cursor := 0 }
  else { m with cursor := clamp (m.cursor + delta) 0 (m.rows.length - 1) }

def moveEventsCursor (delta : Int) : Model ι :=
  let n : Int := m.events.items.length
  if n = 0 then { m with eventsCursor := 0, eventsWindowTop := 0 }
  else
    let cursor := clamp (m.eventsCursor + delta) 0 (n - 1)
    { m with
      eventsCursor := cursor
      eventsWindowTop := eventsWindowStart m.eventsWindowTop cursor n m.eventsRowLines }

def moveSelection (delta : Int) : Model ι :=
  if m.focus = .events then m.moveEventsCursor delta else m.moveCursor delta

def selectionLen : Int := if m.focus = .events then m.events.items.length else m.rows.length

def toggleFocus : Model ι :=
  { m with focus := if m.focus = .connections then .events else .connections }

def moveIfaceCursor (delta : Int) : Model ι :=
  if m.interfaces = [] then { m with ifaceCursor := 0 }
  else { m with ifaceCursor := clamp (m.ifaceCursor + delta) 0 (m.interfaces.length - 1) }

/-- The key of the row under the cursor, if there is one. -/
def selectedKey : String :=
  if m.cursor < 0 then "" else (m.rows[m.cursor.toNat]?).elim "" Row.key

/-! ### Rows -/

def setRows (rows : List Row) : Model ι :=
  { m with rows := rows, cursor := cursorFor rows m.selectedKey m.cursor }

def resetRows : Model ι := { m with rows := [], cursor := 0 }

def rebuild : Model ι :=
  let rows := Trafficmon.rows m.snap m.grouping
  let rows := filterListening rows m.showListening
  let rows := filterProto rows m.showTCP m.showUDP
  let rows := filterIPFamily rows m.showIPv4 m.showIPv6
  let rows := filterPrivate rows m.showPrivate
  let rows := filterIface rows m.activeInterfaces
  let rows := filterRows env.toLower rows m.filter env.hostname
  { m.setRows (sortRows rows m.sort) with rebuilds := m.rebuilds + 1 }

def cycleGrouping : Model ι := ({ m with grouping := m.grouping.next }.resetRows).rebuild env

def setSort (k : SortKey) : Model ι := { m with sort := k }.rebuild env

def toggleListening : Model ι := { m with showListening := !m.showListening }.rebuild env

def toggleTCP : Model ι := { m with showTCP := !m.showTCP }.rebuild env

def toggleUDP : Model ι := { m with showUDP := !m.showUDP }.rebuild env

def toggleIPv4 : Model ι := { m with showIPv4 := !m.showIPv4 }.rebuild env

def toggleIPv6 : Model ι := { m with showIPv6 := !m.showIPv6 }.rebuild env

def togglePrivate : Model ι := { m with showPrivate := !m.showPrivate }.rebuild env

def toggleActiveInterface : Model ι :=
  if m.ifaceCursor < 0 then m
  else
    match m.interfaces[m.ifaceCursor.toNat]? with
    | none => m
    | some name =>
      { m with
        activeInterfaces := m.activeInterfaces.insert name !(m.activeInterfaces.lookup name).getD false }.rebuild env

/-- Adds the events of `snap` to the history. A cursor on the latest event stays on the latest. -/
def appendEvents (snap : Snapshot) : Model ι :=
  let followLatest := m.events.items = [] ∨ m.eventsCursor = m.events.items.length - 1
  let events := (eventRecords snap).foldl EventRing.push m.events
  let cursor : Int := if followLatest ∧ events.items ≠ [] then events.items.length - 1 else m.eventsCursor
  { m with
    events := events
    eventsCursor := cursor
    eventsWindowTop := eventsWindowStart m.eventsWindowTop cursor events.items.length m.eventsRowLines }

def refresh (now : Int) (snap : Snapshot) : Model ι :=
  if m.agg then { m.appendEvents snap with snap := snap, now := now }.rebuild env else m

/-! ### The filter input -/

def openFilter : Model ι :=
  { m with
    filterBefore := m.filter
    filtering := true
    input := env.focusInput (env.setValue m.input "")
    filter := "" }.rebuild env

def commitFilter : Model ι := { m with filtering := false, input := env.blurInput m.input }

def cancelFilter : Model ι :=
  { m with filtering := false, input := env.blurInput m.input, filter := m.filterBefore }.rebuild env

def handleFilterKey (msg : KeyMsg) : Model ι × Cmd :=
  match msg.type with
  | .ctrlC => (m, .quit)
  | .esc => (m.cancelFilter env, .nil)
  | .enter => (m.commitFilter env, .nil)
  | _ =>
    let input := env.updateInput m.input msg
    ({ m with input := input, filter := env.value input }.rebuild env, .input)

/-! ### Messages -/

def handleIfacePickerKey (msg : KeyMsg) : Model ι × Cmd :=
  if msg.hits .quit then (m, .quit)
  else if msg.hits .interfaces ∨ msg.type = .esc then ({ m with showIfacePicker := false }, .nil)
  else if msg.hits .up then (m.moveIfaceCursor (-1), .nil)
  else if msg.hits .down then (m.moveIfaceCursor 1, .nil)
  else if msg.type = .space ∨ msg.type = .enter then (m.toggleActiveInterface env, .nil)
  else (m, .nil)

/-- The bindings that the table has, in the order in which they are tried. -/
def tableKeys : List Key :=
  [.quit, .up, .down, .pageUp, .pageDown, .home, .end, .focusNext, .zoom, .grouping, .sort, .rateSort, .filter,
    .toggleListening, .toggleTCP, .toggleUDP, .toggleIPv4, .toggleIPv6, .togglePrivate, .pause, .help, .interfaces]

/-- What the table does on a binding; `unzoom` is not one of its own. -/
def applyTableKey : Key → Model ι × Cmd
  | .quit => (m, .quit)
  | .up => (m.moveSelection (-1), .nil)
  | .down => (m.moveSelection 1, .nil)
  | .pageUp => (m.moveSelection (-m.pageSize), .nil)
  | .pageDown => (m.moveSelection m.pageSize, .nil)
  | .home => (m.moveSelection (-m.selectionLen), .nil)
  | .end => (m.moveSelection m.selectionLen, .nil)
  | .focusNext => (if m.zoomed then m else m.toggleFocus, .nil)
  | .zoom => ({ m with zoomed := true }, .nil)
  | .grouping => (m.cycleGrouping env, .nil)
  | .sort => (m.setSort env m.sort.next, .nil)
  | .rateSort => (m.setSort env m.sort.toggleRate, .nil)
  | .filter => (m.openFilter env, .input)
  | .toggleListening => (m.toggleListening env, .nil)
  | .toggleTCP => (m.toggleTCP env, .nil)
  | .toggleUDP => (m.toggleUDP env, .nil)
  | .toggleIPv4 => (m.toggleIPv4 env, .nil)
  | .toggleIPv6 => (m.toggleIPv6 env, .nil)
  | .togglePrivate => (m.togglePrivate env, .nil)
  | .pause => ({ m with paused := !m.paused }, .nil)
  | .help => ({ m with showHelp := !m.showHelp }, .nil)
  | .interfaces => ({ m with showIfacePicker := !m.showIfacePicker }, .nil)
  | .unzoom => (m, .nil)

def handleTableKey (msg : KeyMsg) : Model ι × Cmd :=
  match tableKeys.find? msg.hits with
  | some k => m.applyTableKey env k
  | none => (m, .nil)

def handleKey (msg : KeyMsg) : Model ι × Cmd :=
  if m.filtering then m.handleFilterKey env msg
  else if m.showHelp then
    if msg.hits .quit then (m, .quit)
    else if msg.hits .help ∨ msg.type = .esc then ({ m with showHelp := false }, .nil)
    else (m, .nil)
  else if m.showIfacePicker then m.handleIfacePickerKey env msg
  else if m.zoomed ∧ msg.hits .unzoom then ({ m with zoomed := false }, .nil)
  else m.handleTableKey env msg

def update : Msg → Model ι × Cmd
  | .windowSize width height => (m.resizePanels width height, .nil)
  | .mouse action y => m.handleMouse action y
  | .tick now snap => (if m.paused then m else m.refresh env now snap, .tick)
  | .key msg => m.handleKey env msg
  | .other => (m, .nil)

end Model

def newModel {ι : Type*} (env : Env ι) (agg : Bool) (interfaces : List String) : Model ι where
  agg := agg
  interfaces := interfaces
  activeInterfaces := GoMap.insertAll ∅ (interfaces.map fun name => (name, true))
  input := env.newInput

end Trafficmon.Tui
