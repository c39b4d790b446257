import Trafficmon.Aggregate.Join

/-!
# Data points (`receiver/translate.go`)

A connection's totals leave as a pair of `network.io` points, one per direction, in a cumulative
series that starts at the connection's `firstSeen`. A point's value is an `int64`.
-/

namespace Trafficmon

def attrNetworkIODirection : String := "network.io.direction"
def attrNetworkInterfaceName : String := "network.interface.name"
def attrDirectionTransmit : String := "transmit"
def attrDirectionReceive : String := "receive"

inductive AttrValue
  | str (s : String)
  | int (i : Int)
  | bool (b : Bool)
deriving DecidableEq, Repr

structure NumberDataPoint where
  startTimestamp : Int
  timestamp : Int
  intValue : Int64
  attributes : List (String × AttrValue)
deriving DecidableEq

def ioDataPoint (rec : ConnectionRecord) (now : Int) (direction : String) (bytes : UInt64) : NumberDataPoint where
  startTimestamp := rec.firstSeen
  timestamp := now
  intValue := bytes.toInt64
  attributes :=
    [(attrNetworkIODirection, .str direction), ("network.transport", .str rec.proto)] ++
    (if rec.iface ≠ "" then [(attrNetworkInterfaceName, .str rec.iface)] else []) ++
    [("network.peer.address", .str rec.remoteAddr), ("network.peer.port", .int rec.remotePort.toNat)] ++
    (if rec.pid ≠ 0 then
      [("process.pid", .int rec.pid.toInt), ("process.executable.name", .str rec.processName)]
    else [])

def addIODataPoint (points : List NumberDataPoint) (rec : ConnectionRecord) (now : Int) : List NumberDataPoint :=
  points ++ [ioDataPoint rec now attrDirectionTransmit rec.bytesOutTotal,
    ioDataPoint rec now attrDirectionReceive rec.bytesInTotal]

def NumberDataPoint.Follows (p p' : NumberDataPoint) : Prop :=
  p.startTimestamp = p'.startTimestamp ∧ p.intValue ≤ p'.intValue

theorem toInt_toInt64_of_lt {a : UInt64} (h : a.toNat < 2 ^ 63) : a.toInt64.toInt = a.toNat :=
  BitVec.toInt_eq_toNat_of_lt (x := a.toBitVec) (by rw [UInt64.toNat_toBitVec]; omega)

theorem toInt64_le {a b : UInt64} (hab : a ≤ b) (hb : b.toNat < 2 ^ 63) : a.toInt64 ≤ b.toInt64 := by
  have hle : a.toNat ≤ b.toNat := UInt64.le_iff_toNat_le.1 hab
  rw [Int64.le_iff_toInt_le, toInt_toInt64_of_lt hb, toInt_toInt64_of_lt (hle.trans_lt hb)]
  exact_mod_cast hle

theorem addIODataPoint_follows {r r' : ConnectionRecord} {now now' : Int} (hfirst : r.firstSeen = r'.firstSeen)
    (hin : r.bytesInTotal ≤ r'.bytesInTotal) (hout : r.bytesOutTotal ≤ r'.bytesOutTotal)
    (hin' : r'.bytesInTotal.toNat < 2 ^ 63) (hout' : r'.bytesOutTotal.toNat < 2 ^ 63) :
    List.Forall₂ NumberDataPoint.Follows (addIODataPoint [] r now) (addIODataPoint [] r' now') :=
  .cons ⟨hfirst, toInt64_le hout hout'⟩ (.cons ⟨hfirst, toInt64_le hin hin'⟩ .nil)

end Trafficmon
