import Trafficmon.Capture.Events
import Trafficmon.Lib.Chan

/-!
# The log feed (`capture/logfeed.go`)

Two bounded channels beside the event rings. A full channel drops the newest event and counts it.
-/

namespace Trafficmon

def logFeedCapacity : Nat := 1024

structure LogFeed where
  syn : Chan SYNEvent logFeedCapacity := {}
  dnsQuery : Chan QueryFinding logFeedCapacity := {}
  synOverflow : UInt64 := 0
  dnsQueryOverflow : UInt64 := 0

namespace LogFeed

def sendSYN (f : LogFeed) (e : SYNEvent) : LogFeed :=
  let (syn, overflow) := f.syn.countingSend f.synOverflow e
  { f with syn := syn, synOverflow := overflow }

def sendDNSQuery (f : LogFeed) (q : QueryFinding) : LogFeed :=
  let (dnsQuery, overflow) := f.dnsQuery.countingSend f.dnsQueryOverflow q
  { f with dnsQuery := dnsQuery, dnsQueryOverflow := overflow }

def overflow (f : LogFeed) : UInt64 × UInt64 := (f.synOverflow, f.dnsQueryOverflow)

end LogFeed
end Trafficmon
