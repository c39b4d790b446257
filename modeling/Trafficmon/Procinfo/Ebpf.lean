import Trafficmon.Lib.GoMap
import Trafficmon.Lib.Netip

/-!
# The eBPF connection table (`procinfo/ebpf_linux.go`)

`EBPFSource.handleEvent` applies one socket event to two maps: `conns`, the open connections by
4-tuple, and `skToKey`, the 4-tuple each kernel socket last reported. `ProcessName`, a procfs read,
is a parameter; in a run it may answer differently at every event.
-/

namespace Trafficmon

/-- The `Proto` of a socket: procinfo reports nothing but `"tcp"` and `"udp"`. -/
inductive SockProto
  | tcp | udp
deriving DecidableEq, Repr

def SockProto.string : SockProto → String
  | .tcp => "tcp"
  | .udp => "udp"

/-- One open socket with its owner (`procinfo/poller.go`). -/
structure Connection where
  pid : Int32
  processName : String
  localAddr : Addr
  localPort : UInt16
  remoteAddr : Addr
  remotePort : UInt16
  proto : SockProto
  state : String
deriving DecidableEq, Repr

structure EbpfEvent where
  skAddr : UInt64
  pid : UInt32
  ipVer : UInt8
  localPort : UInt16
  remotePort : UInt16
  localAddr : Vector UInt8 16
  remoteAddr : Vector UInt8 16
  newState : UInt32
deriving DecidableEq, Repr

structure EbpfConnKey where
  localAddr : Addr
  localPort : UInt16
  remoteAddr : Addr
  remotePort : UInt16
deriving DecidableEq, Repr

structure EBPFSource where
  conns : GoMap EbpfConnKey Connection := ∅
  skToKey : GoMap UInt64 EbpfConnKey := ∅
  /-- Cached executable names. -/
  names : GoMap Int32 String := ∅
  eventCount : Nat := 0

/-- The kernel's TCP states by their Linux names; anything else has no state. -/
def tcpStateName (state : Nat) : String :=
  match state with
  | 0x01 => "ESTABLISHED"
  | 0x02 => "SYN_SENT"
  | 0x03 => "SYN_RECV"
  | 0x04 => "FIN_WAIT1"
  | 0x05 => "FIN_WAIT2"
  | 0x06 => "TIME_WAIT"
  | 0x07 => "CLOSE"
  | 0x08 => "CLOSE_WAIT"
  | 0x09 => "LAST_ACK"
  | 0x0A => "LISTEN"
  | 0x0B => "CLOSING"
  | _ => ""

def terminalTCPState (state : String) : Bool :=
  state ∈ ["CLOSE_WAIT", "LAST_ACK", "CLOSING", "TIME_WAIT", "FIN_WAIT1", "FIN_WAIT2", "CLOSE"]

def addrFromEventBytes (ipVer : UInt8) (raw : Vector UInt8 16) : Option Addr :=
  if ipVer = 4 then some (.v4 #v[raw[0], raw[1], raw[2], raw[3]])
  else if ipVer = 6 then some (Addr.v6 raw "").unmap
  else none

namespace EbpfEvent

/-- The 4-tuple an event reports; `none` when its addresses do not decode. -/
def key (ev : EbpfEvent) : Option EbpfConnKey :=
  match addrFromEventBytes ev.ipVer ev.localAddr with
  | none => none
  | some localAddr =>
    match addrFromEventBytes ev.ipVer ev.remoteAddr with
    | none => none
    | some remoteAddr => some ⟨localAddr, ev.localPort, remoteAddr, ev.remotePort⟩

def state (ev : EbpfEvent) : String := tcpStateName ev.newState.toNat

def terminal (ev : EbpfEvent) : Bool := terminalTCPState ev.state

end EbpfEvent

namespace EBPFSource

/-- Resolves and caches `pid`'s name; a failed lookup is not cached. -/
def processNameLocked (processName : Int32 → Option String) (s : EBPFSource) (pid : Int32) :
    EBPFSource × String :=
  match s.names.lookup pid with
  | some name => (s, name)
  | none =>
    match processName pid with
    | none => (s, "?")
    | some name => ({ s with names := s.names.insert pid name }, name)

def handleEvent (processName : Int32 → Option String) (s : EBPFSource) (ev : EbpfEvent) : EBPFSource :=
  let s := { s with eventCount := s.eventCount + 1 }
  match ev.key with
  | none => s
  | some key =>
    let oldKey := s.skToKey.lookup ev.skAddr
    if terminalTCPState ev.state then
      match oldKey with
      | some oldKey => { s with conns := s.conns.erase oldKey, skToKey := s.skToKey.erase ev.skAddr }
      | none => { s with conns := s.conns.erase key }
    else
      let (pid, conns) :=
        match oldKey with
        | some oldKey =>
          ((s.conns.lookup oldKey).elim ev.pid.toInt32 (·.pid),
            if oldKey ≠ key then s.conns.erase oldKey else s.conns)
        | none => ((s.conns.lookup key).elim ev.pid.toInt32 (·.pid), s.conns)
      let (s, name) := processNameLocked processName s pid
      { s with
        conns := conns.insert key
          { pid := pid, processName := name, localAddr := key.localAddr, localPort := ev.localPort,
            remoteAddr := key.remoteAddr, remotePort := ev.remotePort, proto := .tcp, state := ev.state }
        skToKey := s.skToKey.insert ev.skAddr key }

/-- `handleEvent` in a run: the `n`-th event overall sees `processName n`. -/
def handleNext (processName : Nat → Int32 → Option String) (s : EBPFSource) (ev : EbpfEvent) : EBPFSource :=
  s.handleEvent (processName s.eventCount) ev

def handleEvents (processName : Nat → Int32 → Option String) (evs : List EbpfEvent) : EBPFSource :=
  evs.foldl (handleNext processName) {}

/-! ### One event -/

variable {processName : Int32 → Option String} {s : EBPFSource} {ev : EbpfEvent} {key : EbpfConnKey}

/-- The 4-tuple an event takes out of `conns`: on a terminal state where the socket was, or else the
event's own; on a live one where the socket was, unless it is still there. -/
def dropped (s : EBPFSource) (ev : EbpfEvent) : Option EbpfConnKey :=
  match ev.key with
  | none => none
  | some key =>
    if ev.terminal then some ((s.skToKey.lookup ev.skAddr).getD key)
    else (s.skToKey.lookup ev.skAddr).filter (· ≠ key)

def pidFor (s : EBPFSource) (ev : EbpfEvent) (key : EbpfConnKey) : Int32 :=
  (s.conns.lookup ((s.skToKey.lookup ev.skAddr).getD key)).elim ev.pid.toInt32 (·.pid)

theorem processNameLocked_frame (s : EBPFSource) (pid : Int32) :
    (processNameLocked processName s pid).1.conns = s.conns ∧
      (processNameLocked processName s pid).1.skToKey = s.skToKey := by
  unfold processNameLocked
  split
  · exact ⟨rfl, rfl⟩
  · split <;> exact ⟨rfl, rfl⟩

theorem processNameLocked_eventCount (s : EBPFSource) (n : Nat) (pid : Int32) :
    (processNameLocked processName { s with eventCount := n } pid).2 =
      (processNameLocked processName s pid).2 := by
  simp only [processNameLocked]
  split
  · rfl
  · split <;> rfl

def connFor (processName : Int32 → Option String) (s : EBPFSource) (ev : EbpfEvent) (key : EbpfConnKey) :
    Connection where
  pid := s.pidFor ev key
  processName := (s.processNameLocked processName (s.pidFor ev key)).2
  localAddr := key.localAddr
  localPort := key.localPort
  remoteAddr := key.remoteAddr
  remotePort := key.remotePort
  proto := .tcp
  state := ev.state

theorem handleEvent_undecodable (hk : ev.key = none) :
    (s.handleEvent processName ev).conns = s.conns ∧ (s.handleEvent processName ev).skToKey = s.skToKey := by
  simp [handleEvent, hk]

theorem skToKey_terminal (hk : ev.key = some key) (ht : ev.terminal = true) (sk : UInt64) :
    (s.handleEvent processName ev).skToKey.lookup sk =
      if sk = ev.skAddr then none else s.skToKey.lookup sk := by
  have ht' : terminalTCPState ev.state = true := ht
  simp only [handleEvent, hk, ht', if_true]
  split
  · exact GoMap.lookup_erase_eq _ _ _
  · split
    · subst sk; assumption
    · rfl

theorem skToKey_live (hk : ev.key = some key) (ht : ev.terminal = false) (sk : UInt64) :
    (s.handleEvent processName ev).skToKey.lookup sk =
      if sk = ev.skAddr then some key else s.skToKey.lookup sk := by
  have ht' : terminalTCPState ev.state = false := ht
  simp only [handleEvent, hk, ht', Bool.false_eq_true, if_false]
  split <;> rw [GoMap.lookup_insert_eq, (processNameLocked_frame _ _).2]

theorem conns_terminal (hk : ev.key = some key) (ht : ev.terminal = true) (k : EbpfConnKey) :
    (s.handleEvent processName ev).conns.lookup k =
      if some k = s.dropped ev then none else s.conns.lookup k := by
  have ht' : terminalTCPState ev.state = true := ht
  simp only [handleEvent, dropped, hk, ht, ht', if_true]
  split <;> rename_i h <;> simp only [h] <;> rw [GoMap.lookup_erase_eq] <;> simp

theorem EbpfEvent.key_ports (hk : ev.key = some key) :
    key.localPort = ev.localPort ∧ key.remotePort = ev.remotePort := by
  simp only [EbpfEvent.key] at hk
  split at hk
  · cases hk
  · split at hk
    · cases hk
    · cases hk; exact ⟨rfl, rfl⟩

theorem conns_live (hk : ev.key = some key) (ht : ev.terminal = false) (k : EbpfConnKey) :
    (s.handleEvent processName ev).conns.lookup k =
      if k = key then some (s.connFor processName ev key)
      else if some k = s.dropped ev then none else s.conns.lookup k := by
  have ht' : terminalTCPState ev.state = false := ht
  obtain ⟨hl, hr⟩ := EbpfEvent.key_ports hk
  simp only [handleEvent, dropped, connFor, pidFor, hk, ht, ht', Bool.false_eq_true, if_false, hl, hr]
  cases ho : s.skToKey.lookup ev.skAddr with
  | none =>
    simp only [Option.getD_none, processNameLocked_eventCount, GoMap.lookup_insert_eq]
    simp
  | some oldKey =>
    simp only [Option.getD_some, processNameLocked_eventCount, GoMap.lookup_insert_eq]
    by_cases hok : oldKey = key
    · subst hok; simp [Option.filter]
    · by_cases hk : k = oldKey <;> simp [hok, hk, GoMap.lookup_erase_eq, Option.filter]

end EBPFSource
end Trafficmon
