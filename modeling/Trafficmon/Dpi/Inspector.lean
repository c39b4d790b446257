import Trafficmon.Capture.Events

/-!
# Inspectors (`dpi/dpi.go`)

What a packet looks like to an inspector, and the two kinds of inspectors. The protocols they know
are not modelled: their functions are arbitrary.
-/

namespace Trafficmon

structure CandidatePacket where
  isTCP : Bool
  srcPort : UInt16
  dstPort : UInt16
  outbound : Bool := false
  datagramLen : Int
  payload : List UInt8 := []
deriving DecidableEq, Repr

/-- Finds the hostname of a flow in its own packets. -/
structure Inspector where
  name : String
  candidate : CandidatePacket → Bool
  inspect : List UInt8 → Option String

structure HostnameFinding where
  ip : String
  hostname : String
deriving DecidableEq, Repr

/-- Learns about other endpoints. The three functions are there if the inspector implements
`QueryPassiveInspector`, `ErrorPassiveInspector` and `AnswerPassiveInspector`. -/
structure PassiveInspector where
  name : String
  candidate : CandidatePacket → Bool
  inspect : List UInt8 → List HostnameFinding
  inspectQuery : Option (List UInt8 → String → String → Int → List QueryFinding) := none
  inspectError : Option (List UInt8 → String → Int → List DNSErrorFinding) := none
  inspectAnswer : Option (List UInt8 → String → Int → List DNSAnswerFinding) := none

end Trafficmon
