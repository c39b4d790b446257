import Trafficmon.Receiver.Metrics

/-!
# Log records (`receiver/translate.go`, `receiver/synattempts.go`)

`buildLogBatch` makes one record for every DNS query, then one for every SYN event, and counts the
SYNs of each 4-tuple within the last three minutes.
-/

namespace Trafficmon

def attrSYNAttemptCount : String := "network.syn.attempt_count"

/-! ### The attempt cache -/

def synAttemptWindow : Int := 180 * GoTime.second

structure SynAttemptKey where
  localAddr : String
  remoteAddr : String
  localPort : UInt16
  remotePort : UInt16
deriving DecidableEq, Repr

structure SynAttemptCache where
  attempts : GoMap SynAttemptKey (List Int) := ∅

/-- The times after `cutoff`. -/
def pruneBefore (hist : List Int) (cutoff : Int) : List Int := hist.filter fun t => cutoff < t

namespace SynAttemptCache

def record (c : SynAttemptCache) (key : SynAttemptKey) (atTime : Int) : SynAttemptCache × Nat :=
  let hist := (c.attempts.lookup key).getD []
  let hist := pruneBefore (hist ++ [atTime]) (atTime - synAttemptWindow)
  ({ c with attempts := c.attempts.insert key hist }, hist.length)

/-- Every turn of the loop touches its own key only, so the order does not matter. -/
def prune (c : SynAttemptCache) (now : Int) : SynAttemptCache :=
  let cutoff := now - synAttemptWindow
  { c with
    attempts := c.attempts.entries.foldl (fun attempts e =>
      let hist := pruneBefore e.2 cutoff
      if hist.length = 0 then attempts.erase e.1 else attempts.insert e.1 hist) c.attempts }

end SynAttemptCache

def synAttemptKeyFor (ev : SYNEvent) : SynAttemptKey where
  localAddr := ev.localAddr.string
  localPort := ev.localPort
  remoteAddr := ev.remoteAddr.string
  remotePort := ev.remotePort

/-- `10.0.0.5:51423 -> 93.184.216.34:443` -/
def SynAttemptKey.string (k : SynAttemptKey) : String :=
  k.localAddr ++ ":" ++ toString k.localPort.toNat ++ " -> " ++ k.remoteAddr ++ ":" ++ toString k.remotePort.toNat

/-! ### Records -/

structure LogRecord where
  timestamp : Int
  observedTimestamp : Int
  severityNumber : Nat
  severityText : String
  body : String
  attributes : List (String × AttrValue)
deriving DecidableEq, Repr

structure Logs where
  scope : String
  records : List LogRecord

/-- `plog.SeverityNumberInfo` -/
def severityInfo : Nat × String := (9, "Info")

def dnsQueryLogRecord (now : Int) (pidByLocalAddr : GoMap String Int32) (q : QueryFinding) : LogRecord where
  timestamp := q.atTime
  observedTimestamp := now
  severityNumber := severityInfo.1
  severityText := severityInfo.2
  body := q.name
  attributes :=
    [("dns.question.name", .str q.name), (attrDNSQuestionType, .str q.qType), ("network.peer.address", .str q.serverAddr)] ++
    match pidByLocalAddr.lookup q.clientAddr with
    | some pid => if pid ≠ 0 then [("network.local.address", .str q.clientAddr)] else []
    | none => []

def synLogRecord (now : Int) (ev : SYNEvent) (key : SynAttemptKey) (attemptCount : Nat) : LogRecord where
  timestamp := ev.atTime
  observedTimestamp := now
  severityNumber := severityInfo.1
  severityText := severityInfo.2
  body := "SYN " ++ toString attemptCount ++ " " ++ key.string ++ " (last 3m0s)"
  attributes :=
    [("network.peer.address", .str ev.remoteAddr.string), ("network.peer.port", .int ev.remotePort.toNat),
      (attrNetworkInterfaceName, .str ev.iface), ("network.local.port", .int ev.localPort.toNat),
      (attrSYNAttemptCount, .int attemptCount)]

def addDNSQueryLogRecord (records : List LogRecord) (q : QueryFinding) (now : Int)
    (pidByLocalAddr : GoMap String Int32) : List LogRecord :=
  records ++ [dnsQueryLogRecord now pidByLocalAddr q]

def addSYNLogRecord (records : List LogRecord) (ev : SYNEvent) (now : Int) (key : SynAttemptKey) (attemptCount : Nat) :
    List LogRecord :=
  records ++ [synLogRecord now ev key attemptCount]

/-- The turn of `buildLogBatch`'s second loop. -/
def countSYN (now : Int) (acc : SynAttemptCache × List LogRecord) (ev : SYNEvent) : SynAttemptCache × List LogRecord :=
  let key := synAttemptKeyFor ev
  let (synAttempts, count) := acc.1.record key ev.atTime
  (synAttempts, addSYNLogRecord acc.2 ev now key count)

def buildLogBatch (synEvents : List SYNEvent) (dnsQueries : List QueryFinding) (now : Int)
    (synAttempts : SynAttemptCache) (pidByLocalAddr : GoMap String Int32) : SynAttemptCache × Logs :=
  let records := dnsQueries.foldl (fun records q => addDNSQueryLogRecord records q now pidByLocalAddr) []
  let (synAttempts, records) := synEvents.foldl (countSYN now) (synAttempts.prune now, records)
  (synAttempts, ⟨scopeName, records⟩)

/-- The records are those of the queries, then those of the SYN events, in order. -/
def Logs.Shows (logs : Logs) (synEvents : List SYNEvent) (dnsQueries : List QueryFinding) : Prop :=
  ∃ (now : Int) (pidByLocalAddr : GoMap String Int32) (counts : List Nat), counts.length = synEvents.length ∧
    logs.records = dnsQueries.map (dnsQueryLogRecord now pidByLocalAddr) ++
      List.zipWith (fun ev n => synLogRecord now ev (synAttemptKeyFor ev) n) synEvents counts

theorem buildLogBatch_shows (synEvents : List SYNEvent) (dnsQueries : List QueryFinding) (now : Int)
    (synAttempts : SynAttemptCache) (pidByLocalAddr : GoMap String Int32) :
    (buildLogBatch synEvents dnsQueries now synAttempts pidByLocalAddr).2.Shows synEvents dnsQueries := by
  have hdns : dnsQueries.foldl (fun records q => addDNSQueryLogRecord records q now pidByLocalAddr) [] =
      dnsQueries.map (dnsQueryLogRecord now pidByLocalAddr) := by
    induction dnsQueries using List.reverseRecOn with
    | nil => rfl
    | append_singleton qs q ih =>
      rw [List.foldl_append, ih, List.map_append]
      rfl
  have hsyn : ∀ acc : SynAttemptCache × List LogRecord, ∃ counts : List Nat, counts.length = synEvents.length ∧
      (synEvents.foldl (countSYN now) acc).2 =
        acc.2 ++ List.zipWith (fun ev n => synLogRecord now ev (synAttemptKeyFor ev) n) synEvents counts := by
    intro acc
    induction synEvents generalizing acc with
    | nil => exact ⟨[], rfl, by simp⟩
    | cons ev evs ih =>
      obtain ⟨counts, hlen, hrec⟩ := ih (countSYN now acc ev)
      refine ⟨(acc.1.record (synAttemptKeyFor ev) ev.atTime).2 :: counts, by simp [hlen], ?_⟩
      rw [List.foldl_cons, hrec]
      simp [countSYN, addSYNLogRecord]
  obtain ⟨counts, hlen, hrec⟩ := hsyn (synAttempts.prune now, dnsQueries.map (dnsQueryLogRecord now pidByLocalAddr))
  refine ⟨now, pidByLocalAddr, counts, hlen, ?_⟩
  rw [← hrec, buildLogBatch, hdns]

theorem Logs.Shows.length {logs : Logs} {synEvents : List SYNEvent} {dnsQueries : List QueryFinding}
    (h : logs.Shows synEvents dnsQueries) : logs.records.length = synEvents.length + dnsQueries.length := by
  obtain ⟨now, pids, counts, hlen, hrec⟩ := h
  rw [hrec, List.length_append, List.length_map, List.length_zipWith, hlen, Nat.min_self, Nat.add_comm]

end Trafficmon
