import Trafficmon.Lib.Layout
import Trafficmon.Procinfo.Poller

/-!
# The owner tables of Windows (`procinfo/libproc_windows.go`)

`GetExtendedTcpTable` and `GetExtendedUdpTable` fill a buffer with a count and that many rows, each with
its owner's PID; the table may have outgrown the buffer by then, and the two calls are made again. A
row keeps addresses in network order and a port, in network order too, in the lower half of a word whose
upper half means nothing. What comes out are the tables' bound sockets (`socketsForPID_eq`), and a poll
distributes them: each once, under the process that owns it (`poll_tables`).
-/

namespace Trafficmon.Windows

structure MibTCPRow where
  state : UInt32
  localAddr : UInt32
  localPort : UInt32
  remoteAddr : UInt32
  remotePort : UInt32
  owningPID : UInt32
deriving DecidableEq, Repr

structure MibTCP6Row where
  localAddr : Vector UInt8 16
  localScopeID : UInt32
  localPort : UInt32
  remoteAddr : Vector UInt8 16
  remoteScopeID : UInt32
  remotePort : UInt32
  state : UInt32
  owningPID : UInt32
deriving DecidableEq, Repr

structure MibUDPRow where
  localAddr : UInt32
  localPort : UInt32
  owningPID : UInt32
deriving DecidableEq, Repr

structure MibUDP6Row where
  localAddr : Vector UInt8 16
  localScopeID : UInt32
  localPort : UInt32
  owningPID : UInt32
deriving DecidableEq, Repr

open Layout in
def MibTCPRow.layout : Layout MibTCPRow :=
  (uint32.pair <| uint32.pair <| uint32.pair <| uint32.pair <| uint32.pair uint32).map
    ⟨fun f => ⟨f.1, f.2.1, f.2.2.1, f.2.2.2.1, f.2.2.2.2.1, f.2.2.2.2.2⟩,
      fun r => (r.state, r.localAddr, r.localPort, r.remoteAddr, r.remotePort, r.owningPID), fun _ => rfl, fun _ => rfl⟩

open Layout in
def MibTCP6Row.layout : Layout MibTCP6Row :=
  ((Layout.bytes 16).pair <| uint32.pair <| uint32.pair <| (Layout.bytes 16).pair <| uint32.pair <| uint32.pair <|
    uint32.pair uint32).map
    ⟨fun f => ⟨f.1, f.2.1, f.2.2.1, f.2.2.2.1, f.2.2.2.2.1, f.2.2.2.2.2.1, f.2.2.2.2.2.2.1, f.2.2.2.2.2.2.2⟩,
      fun r => (r.localAddr, r.localScopeID, r.localPort, r.remoteAddr, r.remoteScopeID, r.remotePort, r.state,
        r.owningPID), fun _ => rfl, fun _ => rfl⟩

open Layout in
def MibUDPRow.layout : Layout MibUDPRow :=
  (uint32.pair <| uint32.pair uint32).map
    ⟨fun f => ⟨f.1, f.2.1, f.2.2⟩, fun r => (r.localAddr, r.localPort, r.owningPID), fun _ => rfl, fun _ => rfl⟩

open Layout in
def MibUDP6Row.layout : Layout MibUDP6Row :=
  ((Layout.bytes 16).pair <| uint32.pair <| uint32.pair uint32).map
    ⟨fun f => ⟨f.1, f.2.1, f.2.2.1, f.2.2.2⟩, fun r => (r.localAddr, r.localScopeID, r.localPort, r.owningPID),
      fun _ => rfl, fun _ => rfl⟩

/-! ### The two calls -/

/-- What the two calls of one round return, the size the first asks for, and what the second writes. -/
structure Round where
  sizing : UInt32
  size : UInt32
  fill : UInt32
  written : List UInt8

def errorInsufficientBuffer : UInt32 := 122

inductive Failure
  | err (msg : String)
  | panic
deriving DecidableEq, Repr

def fillBuf (size : ℕ) (written : List UInt8) : List UInt8 :=
  written.take size ++ List.replicate (size - written.length) 0

/-- The rounds from `i` on, of which there are `left` left. -/
def getExtendedTableFrom (name : String) (rounds : ℕ → Round) : ℕ → ℕ → Except Failure (Option (List UInt8))
  | 0, _ => .error (.err (name ++ ": table kept growing across every retry"))
  | left + 1, i =>
    let r := rounds i
    if r.sizing ≠ errorInsufficientBuffer then
      .error (.err (name ++ ": sizing call returned " ++ toString r.sizing))
    else if r.size = 0 then .ok none
    else if r.fill = 0 then .ok (some (fillBuf r.size.toNat r.written))
    else if r.fill = errorInsufficientBuffer then getExtendedTableFrom name rounds left (i + 1)
    else .error (.err (name ++ ": " ++ toString r.fill))

def getExtendedTable (name : String) (rounds : ℕ → Round) : Except Failure (Option (List UInt8)) :=
  getExtendedTableFrom name rounds 8 0

/-! ### Rows -/

def ipv4Addr (raw : UInt32) : Addr :=
  .v4 #v[raw.toUInt8, (raw >>> 8).toUInt8, (raw >>> 16).toUInt8, (raw >>> 24).toUInt8]

def swapPort (raw : UInt32) : UInt16 := Layout.swap16 raw.toUInt16

def tcpStateName (state : UInt32) : String :=
  match state.toNat with
  | 1 => "CLOSED"
  | 2 => "LISTEN"
  | 3 => "SYN_SENT"
  | 4 => "SYN_RCVD"
  | 5 => "ESTABLISHED"
  | 6 => "FIN_WAIT1"
  | 7 => "FIN_WAIT2"
  | 8 => "CLOSE_WAIT"
  | 9 => "CLOSING"
  | 10 => "LAST_ACK"
  | 11 => "TIME_WAIT"
  | _ => ""

def ipv4Unspecified : Addr := .ipv4 0 0 0 0

def ipv6Unspecified : Addr := .v6 (Vector.replicate 16 0) ""

def MibTCPRow.socket (r : MibTCPRow) : Socket where
  pid := r.owningPID.toInt32
  localAddr := ipv4Addr r.localAddr
  localPort := swapPort r.localPort
  remoteAddr := ipv4Addr r.remoteAddr
  remotePort := swapPort r.remotePort
  proto := .tcp
  state := tcpStateName r.state

def MibTCP6Row.socket (r : MibTCP6Row) : Socket where
  pid := r.owningPID.toInt32
  localAddr := (Addr.v6 r.localAddr "").unmap
  localPort := swapPort r.localPort
  remoteAddr := (Addr.v6 r.remoteAddr "").unmap
  remotePort := swapPort r.remotePort
  proto := .tcp
  state := tcpStateName r.state

def MibUDPRow.socket (r : MibUDPRow) : Socket where
  pid := r.owningPID.toInt32
  localAddr := ipv4Addr r.localAddr
  localPort := swapPort r.localPort
  remoteAddr := ipv4Unspecified
  remotePort := 0
  proto := .udp
  state := ""

def MibUDP6Row.socket (r : MibUDP6Row) : Socket where
  pid := r.owningPID.toInt32
  localAddr := (Addr.v6 r.localAddr "").unmap
  localPort := swapPort r.localPort
  remoteAddr := ipv6Unspecified
  remotePort := 0
  proto := .udp
  state := ""

/-- The body `tcpTable` and `udpTable` share, for the rows of one family. -/
def readTable {α : Type} (L : Layout α) (socket : α → Socket) (name : String) (rounds : ℕ → Round) :
    Except Failure (List Socket) :=
  match getExtendedTable name rounds with
  | .error err => .error err
  | .ok none => .ok []
  | .ok (some buf) =>
    if buf.length < 4 then .error .panic
    else
      let numEntries := Layout.uint32.decode (buf.take 4)
      if numEntries = 0 then .ok []
      else .ok (((L.readAll numEntries.toNat (buf.drop 4)).map socket).filter fun s => s.localPort ≠ 0)

inductive Family
  | inet | inet6
deriving DecidableEq, Repr

def tcpTable (family : Family) (rounds : ℕ → Round) : Except Failure (List Socket) :=
  match family with
  | .inet6 => readTable MibTCP6Row.layout MibTCP6Row.socket "GetExtendedTcpTable" rounds
  | .inet => readTable MibTCPRow.layout MibTCPRow.socket "GetExtendedTcpTable" rounds

def udpTable (family : Family) (rounds : ℕ → Round) : Except Failure (List Socket) :=
  match family with
  | .inet6 => readTable MibUDP6Row.layout MibUDP6Row.socket "GetExtendedUdpTable" rounds
  | .inet => readTable MibUDPRow.layout MibUDPRow.socket "GetExtendedUdpTable" rounds

/-- The rounds of each of the four queries. -/
abbrev Queries := SockProto → Family → ℕ → Round

def allSockets (q : Queries) : Except Failure (List Socket) := do
  let tcp4 ← tcpTable .inet (q .tcp .inet)
  let tcp6 ← tcpTable .inet6 (q .tcp .inet6)
  let udp4 ← udpTable .inet (q .udp .inet)
  let udp6 ← udpTable .inet6 (q .udp .inet6)
  return tcp4 ++ tcp6 ++ udp4 ++ udp6

def socketsForPID (q : Queries) (pid : Int32) : Except Failure (List Socket) :=
  (allSockets q).map fun sockets => sockets.filter fun s => s.pid = pid

/-- The entries of a process snapshot, and whether the walk over it ended with `ERROR_NO_MORE_FILES`. -/
structure Toolhelp where
  entries : List (UInt32 × String)
  complete : Bool

def listPIDs (snapshot : Except String Toolhelp) : Except String (List Int32) :=
  match snapshot with
  | .error err => .error ("CreateToolhelp32Snapshot: " ++ err)
  | .ok t =>
    if t.complete then .ok ((t.entries.filter fun e => e.1 > 0).map fun e => e.1.toInt32)
    else .error "Process32Next"

def processName (snapshot : Except String Toolhelp) (pid : Int32) : Option String :=
  match snapshot with
  | .error _ => none
  | .ok t => (t.entries.find? fun e => e.1.toInt32 = pid).map (·.2)

/-- The system as the poller asks for it: a snapshot for the list and one for each name, and the
tables anew for every process. -/
def procfs (list : Except String Toolhelp) (names : Int32 → Except String Toolhelp) (q : Int32 → Queries) : Procfs where
  listPIDs := listPIDs list
  socketsForPID pid := (socketsForPID (q pid) pid).toOption
  processName pid := processName (names pid) pid

/-! ### The system's side -/

/-- `raw` has `port` in network order in its lower half. -/
def HoldsPort (raw : UInt32) (port : UInt16) : Prop :=
  (Layout.uint32.encode raw).take 2 = (Layout.uint16.encode port).reverse

instance (raw : UInt32) (port : UInt16) : Decidable (HoldsPort raw port) := inferInstanceAs (Decidable (_ = _))

def HoldsAddr (raw : UInt32) (a : Addr) : Prop := ∃ b : Vector UInt8 4, a = .v4 b ∧ Layout.uint32.encode raw = b.toList

/-- `r` is the row of the socket `s`. -/
structure MibTCPRow.Of (r : MibTCPRow) (s : Socket) : Prop where
  pid : s.pid = r.owningPID.toInt32
  localAddr : HoldsAddr r.localAddr s.localAddr
  localPort : HoldsPort r.localPort s.localPort
  remoteAddr : HoldsAddr r.remoteAddr s.remoteAddr
  remotePort : HoldsPort r.remotePort s.remotePort
  proto : s.proto = .tcp
  state : s.state = tcpStateName r.state

structure MibTCP6Row.Of (r : MibTCP6Row) (s : Socket) : Prop where
  pid : s.pid = r.owningPID.toInt32
  localAddr : s.localAddr = (Addr.v6 r.localAddr "").unmap
  localPort : HoldsPort r.localPort s.localPort
  remoteAddr : s.remoteAddr = (Addr.v6 r.remoteAddr "").unmap
  remotePort : HoldsPort r.remotePort s.remotePort
  proto : s.proto = .tcp
  state : s.state = tcpStateName r.state

structure MibUDPRow.Of (r : MibUDPRow) (s : Socket) : Prop where
  pid : s.pid = r.owningPID.toInt32
  localAddr : HoldsAddr r.localAddr s.localAddr
  localPort : HoldsPort r.localPort s.localPort
  remote : s.remoteAddr = ipv4Unspecified ∧ s.remotePort = 0
  proto : s.proto = .udp
  state : s.state = ""

structure MibUDP6Row.Of (r : MibUDP6Row) (s : Socket) : Prop where
  pid : s.pid = r.owningPID.toInt32
  localAddr : s.localAddr = (Addr.v6 r.localAddr "").unmap
  localPort : HoldsPort r.localPort s.localPort
  remote : s.remoteAddr = ipv6Unspecified ∧ s.remotePort = 0
  proto : s.proto = .udp
  state : s.state = ""

/-- The rounds of a query for a table with these rows: the buffer is too small at most seven times, then
it is filled, with anything behind the rows, or there is nothing to fill. -/
structure Filled {α : Type} (L : Layout α) (rows : List α) (rounds : ℕ → Round) (n : ℕ) : Prop where
  lt : n < 8
  grown : ∀ i < n, (rounds i).sizing = errorInsufficientBuffer ∧ (rounds i).size ≠ 0 ∧
    (rounds i).fill = errorInsufficientBuffer
  sizing : (rounds n).sizing = errorInsufficientBuffer
  written : (rounds n).size = 0 ∧ rows = [] ∨ (rounds n).size ≠ 0 ∧ (rounds n).fill = 0 ∧ rows.length < 2 ^ 32 ∧
    (rounds n).written.length ≤ (rounds n).size.toNat ∧
    ∃ junk, (rounds n).written = Layout.uint32.encode (UInt32.ofNat rows.length) ++ (rows.flatMap L.encode ++ junk)

/-- The table of `socks`, as some query finds it. -/
def Table {α : Type} (L : Layout α) (Of : α → Socket → Prop) (socks : List Socket) (rounds : ℕ → Round) : Prop :=
  ∃ rows n, List.Forall₂ Of rows socks ∧ Filled L rows rounds n

/-- All four tables. -/
structure Tables (socks : SockProto → Family → List Socket) (q : Queries) : Prop where
  tcp : Table MibTCPRow.layout MibTCPRow.Of (socks .tcp .inet) (q .tcp .inet)
  tcp6 : Table MibTCP6Row.layout MibTCP6Row.Of (socks .tcp .inet6) (q .tcp .inet6)
  udp : Table MibUDPRow.layout MibUDPRow.Of (socks .udp .inet) (q .udp .inet)
  udp6 : Table MibUDP6Row.layout MibUDP6Row.Of (socks .udp .inet6) (q .udp .inet6)

def bound (socks : SockProto → Family → List Socket) : List Socket :=
  (socks .tcp .inet ++ socks .tcp .inet6 ++ socks .udp .inet ++ socks .udp .inet6).filter fun s => s.localPort ≠ 0

/-! ### Rows read back -/

theorem swapPort_eq {raw : UInt32} {port : UInt16} (h : HoldsPort raw port) : swapPort raw = port := by
  refine Layout.swap16_eq ((?_ : _ = (Layout.uint32.encode raw).take 2).trans h)
  -- the lower half of the word is its first two bytes
  simp only [Layout.uint16, Layout.uint32, Layout.word, leBytes, List.take_succ_cons, List.take_zero, List.cons.injEq,
    and_true]
  constructor <;> refine UInt8.toNat_inj.1 ?_ <;>
    rw [UInt8.toNat_ofNat', UInt8.toNat_ofNat', UInt32.toNat_toUInt16] <;> omega

theorem ipv4Addr_eq {raw : UInt32} {a : Addr} (h : HoldsAddr raw a) : ipv4Addr raw = a := by
  obtain ⟨b, rfl, hb⟩ := h
  have hbytes : Layout.uint32.encode raw =
      [raw.toUInt8, (raw >>> 8).toUInt8, (raw >>> 16).toUInt8, (raw >>> 24).toUInt8] := by
    simp only [Layout.uint32, Layout.word, leBytes, List.cons.injEq, and_true]
    refine ⟨?_, ?_, ?_, ?_⟩ <;> refine UInt8.toNat_inj.1 ?_ <;>
      simp [Nat.shiftRight_eq_div_pow, Nat.div_div_eq_div_mul]
  refine congrArg Addr.v4 (Vector.toList_inj.1 ?_)
  rw [← hb, hbytes]
  rfl

theorem MibTCPRow.Of.socket_eq {r : MibTCPRow} {s : Socket} (h : r.Of s) : r.socket = s := by
  cases s
  simp only [MibTCPRow.socket, ipv4Addr_eq h.localAddr, ipv4Addr_eq h.remoteAddr, swapPort_eq h.localPort,
    swapPort_eq h.remotePort, ← h.pid, ← h.proto, ← h.state]

theorem MibTCP6Row.Of.socket_eq {r : MibTCP6Row} {s : Socket} (h : r.Of s) : r.socket = s := by
  cases s
  simp only [MibTCP6Row.socket, ← h.localAddr, ← h.remoteAddr, swapPort_eq h.localPort, swapPort_eq h.remotePort, ← h.pid,
    ← h.proto, ← h.state]

theorem MibUDPRow.Of.socket_eq {r : MibUDPRow} {s : Socket} (h : r.Of s) : r.socket = s := by
  cases s
  simp only [MibUDPRow.socket, ipv4Addr_eq h.localAddr, swapPort_eq h.localPort, ← h.remote.1, ← h.remote.2, ← h.pid,
    ← h.proto, ← h.state]

theorem MibUDP6Row.Of.socket_eq {r : MibUDP6Row} {s : Socket} (h : r.Of s) : r.socket = s := by
  cases s
  obtain ⟨rfl, rfl, hport, ⟨rfl, rfl⟩, rfl, rfl⟩ := h
  simp only [MibUDP6Row.socket, swapPort_eq hport]

/-! ### Tables read back -/

section
variable {α : Type} {L : Layout α} {rows : List α} {rounds : ℕ → Round} {n : ℕ} {Of : α → Socket → Prop}
  {socket : α → Socket} {socks : List Socket} {name : String}

theorem fillBuf_append {size : ℕ} {written : List UInt8} (h : written.length ≤ size) :
    fillBuf size written = written ++ List.replicate (size - written.length) 0 := by
  rw [fillBuf, List.take_of_length_le h]

/-- Rounds that find the buffer too small are passed over. -/
theorem getExtendedTableFrom_grown (name : String) (left i : ℕ)
    (h : ∀ j < n, (rounds (i + j)).sizing = errorInsufficientBuffer ∧ (rounds (i + j)).size ≠ 0 ∧
      (rounds (i + j)).fill = errorInsufficientBuffer) :
    getExtendedTableFrom name rounds (n + left) i = getExtendedTableFrom name rounds left (i + n) := by
  induction n generalizing i with
  | zero => rw [Nat.zero_add, Nat.add_zero]
  | succ n ih =>
    obtain ⟨h1, h2, h3⟩ := h 0 (by omega)
    rw [Nat.add_zero] at h1 h2 h3
    rw [show n + 1 + left = n + left + 1 by omega, getExtendedTableFrom]
    simp only [h1, h2, h3, ne_eq, not_true, if_false, if_true, show ¬errorInsufficientBuffer = 0 by decide]
    rw [ih (i + 1) fun j hj => by rw [show i + 1 + j = i + (j + 1) by omega]; exact h (j + 1) (by omega)]
    rw [show i + 1 + n = i + (n + 1) by omega]

theorem Filled.readTable_eq (h : Filled L rows rounds n) :
    readTable L socket name rounds = .ok ((rows.map socket).filter fun s => s.localPort ≠ 0) := by
  have hget : getExtendedTable name rounds = getExtendedTableFrom name rounds (8 - n - 1 + 1) n := by
    have hlt := h.lt
    have hskip := getExtendedTableFrom_grown name (8 - n) 0 fun j hj => by
      rw [Nat.zero_add]
      exact h.grown j hj
    rw [getExtendedTable, show 8 - n - 1 + 1 = 8 - n by omega]
    rwa [show n + (8 - n) = 8 by omega, Nat.zero_add] at hskip
  rw [readTable, hget, getExtendedTableFrom]
  rcases h.written with ⟨h0, rfl⟩ | ⟨h0, hfill, hcount, hlen, junk, hw⟩
  · simp [h.sizing, h0]
  · have hnat : (UInt32.ofNat rows.length).toNat = rows.length := UInt32.toNat_ofNat_of_lt' hcount
    obtain ⟨rest, hbuf⟩ : ∃ rest, fillBuf (rounds n).size.toNat (rounds n).written =
        Layout.uint32.encode (UInt32.ofNat rows.length) ++ (rows.flatMap L.encode ++ rest) := by
      rw [fillBuf_append hlen, hw]
      exact ⟨_, by simp only [List.append_assoc]; rfl⟩
    have h4 : (Layout.uint32.encode (UInt32.ofNat rows.length)).length = 4 := Layout.uint32.length_encode _
    simp only [h.sizing, h0, hfill, ne_eq, not_true, if_false, if_true, hbuf]
    rw [if_neg (by rw [List.length_append, h4]; omega), List.take_left' h4, List.drop_left' h4,
      Layout.decode_encode, hnat, Layout.readAll_encode]
    split_ifs with hz
    · have : rows.length = 0 := by rw [← hnat, hz]; rfl
      rw [List.length_eq_zero_iff.1 this]
      rfl
    · rfl

/-- A table is read back as its bound sockets. -/
theorem Table.readTable_eq (hsock : ∀ r s, Of r s → socket r = s) (h : Table L Of socks rounds) (name : String) :
    readTable L socket name rounds = .ok (socks.filter fun s => s.localPort ≠ 0) := by
  obtain ⟨rows, n, hrows, hfill⟩ := h
  have hmap : rows.map socket = socks := by
    rw [← List.forall₂_eq_eq_eq, List.forall₂_map_left_iff]
    exact hrows.imp hsock
  rw [hfill.readTable_eq, hmap]

end

/-- What the queries return is what the tables hold, less the unbound sockets, and what they return for
one process is what it owns. -/
theorem socketsForPID_eq (socks : SockProto → Family → List Socket) (q : Queries) (h : Tables socks q) :
    allSockets q = .ok (bound socks) ∧
      ∀ pid, socketsForPID q pid = .ok ((bound socks).filter fun s => s.pid = pid) := by
  have htcp := h.tcp.readTable_eq (fun _ _ hr => hr.socket_eq) "GetExtendedTcpTable"
  have htcp6 := h.tcp6.readTable_eq (fun _ _ hr => hr.socket_eq) "GetExtendedTcpTable"
  have hudp := h.udp.readTable_eq (fun _ _ hr => hr.socket_eq) "GetExtendedUdpTable"
  have hudp6 := h.udp6.readTable_eq (fun _ _ hr => hr.socket_eq) "GetExtendedUdpTable"
  have hall : allSockets q = .ok (bound socks) := by
    simp only [allSockets, tcpTable, udpTable, htcp, htcp6, hudp, hudp6, bound, List.filter_append]
    rfl
  refine ⟨hall, fun pid => ?_⟩
  rw [socketsForPID, hall]
  rfl

/-! ### A poll -/

/-- Going through the keys, one takes every element once, by its key. -/
theorem flatMap_filter_perm {α κ : Type*} [DecidableEq κ] (key : α → κ) (l : List α) {ks : List κ} (h : ks.Nodup) :
    (ks.flatMap fun k => l.filter fun a => key a = k).Perm (l.filter fun a => key a ∈ ks) := by
  induction ks with
  | nil => simp
  | cons k ks ih =>
    obtain ⟨hk, hnd⟩ := List.nodup_cons.1 h
    rw [List.flatMap_cons]
    refine ((ih hnd).append_left _).trans ?_
    refine List.Perm.trans (.of_eq ?_) (List.filter_append_perm (fun a => key a = k) (l.filter fun a => key a ∈ k :: ks))
    rw [List.filter_filter, List.filter_filter]
    congr 1
    · refine List.filter_congr fun a _ => ?_
      by_cases ha : key a = k <;> simp [ha]
    · refine List.filter_congr fun a _ => ?_
      by_cases ha : key a = k <;> simp [ha, hk]

/-- While the tables stand as they are, a poll has every bound socket of a listed process once, under the
process that owns it, and no other. -/
theorem poll_tables (socks : SockProto → Family → List Socket) (list : Except String Toolhelp)
    (names : Int32 → Except String Toolhelp) (q : Int32 → Queries) (h : ∀ pid, Tables socks (q pid)) (pids : List Int32)
    (hlist : listPIDs list = .ok pids) (hnodup : pids.Nodup) (p : Poller) :
    let name := Poller.nameOf (procfs list names q) p.names
    (p.poll (procfs list names q)).2 = .ok () ∧
    (p.poll (procfs list names q)).1.connections.Perm
      (((bound socks).filter fun s => s.pid ∈ pids).map fun s => s.connection s.pid (name s.pid)) := by
  intro name
  have hseen : (procfs list names q).seen name = fun pid =>
      ((bound socks).filter fun s => s.pid = pid).map fun s => s.connection s.pid (name s.pid) := by
    funext pid
    have hsocks : (procfs list names q).socketsForPID pid = some ((bound socks).filter fun s => s.pid = pid) := by
      simp only [procfs, (socketsForPID_eq socks (q pid) (h pid)).2 pid]
      rfl
    rw [Procfs.seen, hsocks, Option.getD_some]
    refine List.map_congr_left fun s hs => ?_
    obtain rfl : s.pid = pid := by simpa using (List.mem_filter.1 hs).2
    rfl
  have hpids : (procfs list names q).listPIDs = .ok pids := hlist
  have hconns := (pollAll_eq (procfs list names q) p.names pids).1
  rw [hseen] at hconns
  simp only [Poller.poll, hpids]
  refine ⟨trivial, ?_⟩
  rw [Poller.connections, hconns, ← List.map_flatMap]
  exact (flatMap_filter_perm Socket.pid (bound socks) hnodup).map _

/-! A server's socket, read on the second round from a row with noise in the upper halves of its ports. -/

def serverRow : MibTCPRow where
  state := 5
  localAddr := 0x0100007f
  localPort := 0xbeef5000
  remoteAddr := 0x0200000a
  remotePort := 0xdead901f
  owningPID := 4242

def serverSocket : Socket where
  pid := 4242
  localAddr := .ipv4 127 0 0 1
  localPort := 80
  remoteAddr := .ipv4 10 0 0 2
  remotePort := 8080
  proto := .tcp
  state := "ESTABLISHED"

def serverTables : SockProto → Family → List Socket
  | .tcp, .inet => [serverSocket]
  | _, _ => []

def emptyRound : Round := ⟨errorInsufficientBuffer, 0, 0, []⟩

def serverQueries : Queries
  | .tcp, .inet, 0 => ⟨errorInsufficientBuffer, 4, errorInsufficientBuffer, []⟩
  | .tcp, .inet, _ => ⟨errorInsufficientBuffer, 64, 0, Layout.uint32.encode 1 ++ (MibTCPRow.layout.encode serverRow ++ [])⟩
  | _, _, _ => emptyRound

theorem table_empty {α : Type} (L : Layout α) (Of : α → Socket → Prop) : Table L Of [] fun _ => emptyRound :=
  ⟨[], 0, .nil, by omega, by simp, rfl, .inl ⟨rfl, rfl⟩⟩

theorem serverTables_serverQueries : Tables serverTables serverQueries where
  tcp := by
    refine ⟨[serverRow], 1, .cons ⟨rfl, ?_, by decide, ?_, by decide, rfl, rfl⟩ .nil, by omega, ?_, rfl, .inr ?_⟩
    · exact ⟨#v[127, 0, 0, 1], rfl, by decide⟩
    · exact ⟨#v[10, 0, 0, 2], rfl, by decide⟩
    · intro i hi
      obtain rfl : i = 0 := by omega
      exact ⟨rfl, by decide, rfl⟩
    · exact ⟨by decide, rfl, by decide, by decide, [], rfl⟩
  tcp6 := table_empty _ _
  udp := table_empty _ _
  udp6 := table_empty _ _

def serverProcesses : Toolhelp := ⟨[(0, "System"), (4242, "server.exe")], true⟩

theorem poll_tables_server :
    (({} : Poller).poll
      (procfs (.ok serverProcesses) (fun _ => .ok serverProcesses) fun _ => serverQueries)).1.connections =
      [serverSocket.connection 4242 "server.exe"] := by
  have h := (poll_tables serverTables (.ok serverProcesses) (fun _ => .ok serverProcesses) (fun _ => serverQueries)
    (fun _ => serverTables_serverQueries) [4242] (by decide) (by decide) {}).2
  exact List.perm_singleton.1 h

end Trafficmon.Windows
