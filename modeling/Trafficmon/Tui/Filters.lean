import Mathlib.Data.List.Infix
import Trafficmon.Aggregate.Rows
import Trafficmon.Lib.ParseAddr

/-!
# The filters (`tui/filters.go`)

Each filter goes over the rows and keeps some of them, in their order. Which ones is a question about
the row alone (`filterListening_eq` to `filterRows_eq`), so the filters can be applied in any order.
-/

namespace Trafficmon

def listenState : String := "LISTEN"

def filterListening (rows : List Row) (shown : Bool) : List Row :=
  if shown then rows else rows.filter fun r => r.state ≠ listenState

def filterProto (rows : List Row) (showTCP showUDP : Bool) : List Row :=
  if showTCP ∧ showUDP then rows
  else rows.filter fun r => if r.proto = "tcp" then showTCP else if r.proto = "udp" then showUDP else true

def filterIPFamily (rows : List Row) (showIPv4 showIPv6 : Bool) : List Row :=
  if showIPv4 ∧ showIPv6 then rows
  else rows.filter fun r =>
    match Addr.parseIP r.remoteAddr with
    | none => true
    | some ip => if ip.isIPv4 then showIPv4 else showIPv6

def filterPrivate (rows : List Row) (shown : Bool) : List Row :=
  if shown then rows
  else rows.filter fun r =>
    match Addr.parseIP r.remoteAddr with
    | none => true
    | some ip => !ip.isPrivate

def filterIface (rows : List Row) (active : GoMap String Bool) : List Row :=
  rows.filter fun r => r.iface = "" ∨ (active.lookup r.iface).getD false

/-- `strings.Contains`. -/
def contains (s substr : String) : Bool := substr.toList <:+: s.toList

/-- `toLower` is `strings.ToLower`. -/
def filterRows (toLower : String → String) (rows : List Row) (q : String) (hostname : Row → String) : List Row :=
  if q = "" then rows
  else rows.filter fun r =>
    contains (toLower r.label) (toLower q) ∨ contains (toLower (hostname r)) (toLower q)

/-! ### What each filter asks of a row -/

namespace Row

def showsListening (r : Row) (shown : Bool) : Bool := shown ∨ r.state ≠ listenState

/-- Rows that are neither TCP nor UDP are never hidden. -/
def showsProto (r : Row) (showTCP showUDP : Bool) : Bool :=
  (r.proto = "tcp" → showTCP) ∧ (r.proto = "udp" → showUDP)

/-- Rows whose remote address does not parse are never hidden. -/
def showsIPFamily (r : Row) (showIPv4 showIPv6 : Bool) : Bool :=
  (Addr.parseIP r.remoteAddr).all fun ip => if ip.isIPv4 then showIPv4 else showIPv6

def showsPrivate (r : Row) (shown : Bool) : Bool :=
  shown ∨ (Addr.parseIP r.remoteAddr).all fun ip => !ip.isPrivate

/-- Rows without traffic yet are never hidden. -/
def showsIface (r : Row) (active : GoMap String Bool) : Bool := r.iface = "" ∨ (active.lookup r.iface).getD false

def showsText (r : Row) (toLower : String → String) (q : String) (hostname : Row → String) : Bool :=
  q = "" ∨ contains (toLower r.label) (toLower q) ∨ contains (toLower (hostname r)) (toLower q)

end Row

theorem filter_of_forall {p : Row → Bool} {rows : List Row} (h : ∀ r, p r = true) : rows.filter p = rows :=
  List.filter_eq_self.2 fun r _ => h r

variable (rows : List Row)

theorem filterListening_eq (shown : Bool) : filterListening rows shown = rows.filter (·.showsListening shown) := by
  unfold filterListening
  split
  · exact (filter_of_forall fun r => by simp [Row.showsListening, ‹shown = true›]).symm
  · exact congrArg (rows.filter ·) (funext fun r => by simp [Row.showsListening, ‹¬ shown = true›])

theorem filterProto_eq (showTCP showUDP : Bool) :
    filterProto rows showTCP showUDP = rows.filter (·.showsProto showTCP showUDP) := by
  unfold filterProto
  split
  · exact (filter_of_forall fun r => by simp [Row.showsProto, ‹showTCP ∧ showUDP›]).symm
  · refine congrArg (rows.filter ·) (funext fun r => ?_)
    by_cases htcp : r.proto = "tcp"
    · simp [Row.showsProto, htcp]
    · by_cases hudp : r.proto = "udp" <;> simp [Row.showsProto, htcp, hudp]

theorem filterIPFamily_eq (showIPv4 showIPv6 : Bool) :
    filterIPFamily rows showIPv4 showIPv6 = rows.filter (·.showsIPFamily showIPv4 showIPv6) := by
  unfold filterIPFamily
  split
  · refine (filter_of_forall fun r => ?_).symm
    cases hip : Addr.parseIP r.remoteAddr <;> simp [Row.showsIPFamily, hip, ‹showIPv4 ∧ showIPv6›]
  · refine congrArg (rows.filter ·) (funext fun r => ?_)
    cases hip : Addr.parseIP r.remoteAddr <;> simp [Row.showsIPFamily, hip]

theorem filterPrivate_eq (shown : Bool) : filterPrivate rows shown = rows.filter (·.showsPrivate shown) := by
  unfold filterPrivate
  split
  · exact (filter_of_forall fun r => by simp [Row.showsPrivate, ‹shown = true›]).symm
  · refine congrArg (rows.filter ·) (funext fun r => ?_)
    cases hip : Addr.parseIP r.remoteAddr <;> simp [Row.showsPrivate, hip, ‹¬ shown = true›]

theorem filterIface_eq (active : GoMap String Bool) : filterIface rows active = rows.filter (·.showsIface active) := rfl

theorem filterRows_eq (toLower : String → String) (q : String) (hostname : Row → String) :
    filterRows toLower rows q hostname = rows.filter (·.showsText toLower q hostname) := by
  unfold filterRows
  split
  · exact (filter_of_forall fun r => by simp [Row.showsText, ‹q = ""›]).symm
  · exact congrArg (rows.filter ·) (funext fun r => by simp [Row.showsText, ‹¬ q = ""›])

end Trafficmon
