import Trafficmon.Capture.Flow

/-!
# Event rings (`capture/synevents.go`, `rstevents.go`, `dns_queries.go`, `dns_errors.go`, `dns_answers.go`)

Five bounded queues with one behaviour: past capacity `push` drops the oldest event, `drain` takes
everything and leaves the ring empty.
-/

namespace Trafficmon

def eventRingCapacity : Nat := 4096

structure EventRing (α : Type) where
  items : List α := []
deriving Repr

namespace EventRing
variable {α : Type}

def push (r : EventRing α) (e : α) : EventRing α :=
  ⟨(if eventRingCapacity ≤ r.items.length then r.items.tail else r.items) ++ [e]⟩

def drain (r : EventRing α) : EventRing α × List α := (⟨[]⟩, r.items)

end EventRing

structure SYNEvent where
  iface : String
  localAddr : Addr
  localPort : UInt16
  remoteAddr : Addr
  remotePort : UInt16
  atTime : Int
deriving DecidableEq, Repr

structure RSTEvent where
  iface : String
  localAddr : Addr
  localPort : UInt16
  remoteAddr : Addr
  remotePort : UInt16
  atTime : Int
deriving DecidableEq, Repr

structure QueryFinding where
  name : String
  qType : String
  clientAddr : String
  serverAddr : String
  atTime : Int
deriving DecidableEq, Repr

structure DNSErrorFinding where
  name : String
  qType : String
  rCode : String
  serverAddr : String
  atTime : Int
deriving DecidableEq, Repr

structure DNSAnswerFinding where
  name : String
  qType : String
  answer : String
  ttl : UInt32
  serverAddr : String
  atTime : Int
deriving DecidableEq, Repr

end Trafficmon
