import Trafficmon.Capture.Sections
import Trafficmon.Receiver.Counts
import Trafficmon.Receiver.ForwardLogs

/-!
# The receiver at work (`receiver/receiver.go`, `capture/pcap.go`)

A goroutine for each interface (`captureOn`), the one that collects (`collect`, with `Aggregator.Refresh` in it) and
the one that forwards logs run side by side. A `Move` is one call of one of them on what they share; a run is any
sequence of moves. A tick of `collect` that nothing comes in between is `refresh`, `publishPidByLocalAddr` and
`buildMetrics` (`collect_alone`).
-/

namespace Trafficmon

/-! ### Capturing -/

def statsSampleInterval : Int := GoTime.second

def shouldSampleStats (last now interval : Int) : Bool := last = 0 ∨ now - last ≥ interval

/-- The loop of `captureOn` on an interface: its decoder, and what is left to do for the packet it has read. -/
structure CaptureLoop where
  iface : String
  dec : FlowDecoder
  lastStatsUpdate : Int := 0
  todo : List CaptureOp := []

/-- `stats` is what the handle answers when it is asked. -/
def Capturer.maybeSampleStats (c : Capturer) (stats : Option PacketStats) (iface : String) (last now : Int) :
    Capturer × Int :=
  if ! shouldSampleStats last now statsSampleInterval then (c, last)
  else
    match stats with
    | some st => ({ c with packetStats := c.packetStats.insert iface st }, now)
    | none => (c, now)

/-! ### Collecting -/

def pidByLocalAddrFrom (conns : List ConnectionRecord) : GoMap String Int32 :=
  GoMap.insertAll ∅ (conns.map fun rec => (rec.localAddr, rec.pid))

/-- What `collect` does next. -/
inductive CollectPoint
  | drainSYNEvents | drainRSTEvents | drainDNSQueries | drainDNSErrors | drainDNSAnswers | packetStats | evict
  | publish | build
deriving DecidableEq, Repr

/-- A tick of `collect` under way, with what there is of its snapshot. -/
structure Collecting where
  point : CollectPoint
  now : Int
  conns : List Connection
  snap : Snapshot

/-- The calls of `Refresh` after the join. -/
def Collecting.call (r : Collecting) (c : Capturer) : Capturer × Collecting :=
  match r.point with
  | .drainSYNEvents =>
    let (ring, events) := c.synEvents.drain
    ({ c with synEvents := ring }, { r with point := .drainRSTEvents, snap := { r.snap with synEvents := events } })
  | .drainRSTEvents =>
    let (ring, events) := c.rstEvents.drain
    ({ c with rstEvents := ring }, { r with point := .drainDNSQueries, snap := { r.snap with rstEvents := events } })
  | .drainDNSQueries =>
    let (ring, events) := c.dnsQueries.drain
    ({ c with dnsQueries := ring }, { r with point := .drainDNSErrors, snap := { r.snap with dnsQueries := events } })
  | .drainDNSErrors =>
    let (ring, events) := c.dnsErrors.drain
    ({ c with dnsErrors := ring }, { r with point := .drainDNSAnswers, snap := { r.snap with dnsErrors := events } })
  | .drainDNSAnswers =>
    let (ring, events) := c.dnsAnswers.drain
    ({ c with dnsAnswers := ring }, { r with point := .packetStats, snap := { r.snap with dnsAnswers := events } })
  | .packetStats => (c, { r with point := .evict, snap := { r.snap with packetStats := c.packetStats } })
  | .evict => ((c.evict (r.now - gracePeriod) (openFlowKeys r.conns)).1, { r with point := .publish })
  | .publish => (c, r)
  | .build => (c, r)

/-! ### All of them -/

/-- What a receiver was started with. -/
structure Setup where
  dfb : LayerDecoders
  newPacket : NewPacket
  isLocal : Addr → Bool
  inspect : InspectConfig
  cfg : Config
  metricsConsumer : Bool
  logsConsumer : Bool
  ifaces : List (String × FlowDecoder)
  start : Int

structure Receiving where
  loops : List CaptureLoop
  capturer : Capturer
  agg : Aggregator := {}
  metrics : MetricsState
  collecting : Option Collecting := none
  pidByLocalAddr : GoMap String Int32 := ∅
  /-- Only if there is a consumer for logs. -/
  logs : Option LogSystem
  consumed : List Metrics := []
  /-- The calls for all the packets that were read; no part of the program, nor is what follows. -/
  read : List CaptureOp := []
  ticks : List Tick := []
  published : Option Snapshot := none

inductive Move
  | sample (i : ℕ) (now : Int) (stats : Option PacketStats)
  | read (i : ℕ) (data : List UInt8) (timestamp clock : Int)
  | work (i : ℕ)
  /-- The ticker of `collect`: the connections are those the source has, the flows are taken in some order. -/
  | tick (now : Int) (conns : List Connection) (o₁ o₂ : MapOrder FlowKey FlowStats)
  | collect (orders : RangeOrders)
  | cancelLogs
  | recvSYN
  | recvDNS
  | tickLogs
  | proceedLogs (now : Int)

/-- What a capture goroutine's call means for the log system. -/
def LogSystem.send (s : LogSystem) : CaptureOp → LogSystem
  | .sendSYN ev => s.step (.sendSYN ev)
  | .sendDNSQuery q => s.step (.sendDNSQuery q)
  | _ => s

namespace Receiving
variable (E : Setup) (s : Receiving)

def moveLogs (st : LogStep) : Receiving := { s with logs := s.logs.map (·.step st) }

/-- The end of a tick. -/
def finish (r : Collecting) (orders : RangeOrders) : Receiving :=
  let s := { s with collecting := none, ticks := s.ticks ++ [⟨r.snap, r.now, E.cfg, orders⟩] }
  if E.metricsConsumer then
    let (metrics, md) := s.metrics.buildMetrics r.snap r.now E.cfg orders
    { s with metrics := metrics, consumed := s.consumed ++ [md] }
  else s

/-- One move; one that is not possible where its goroutine is changes nothing. -/
def step : Move → Receiving
  | .sample i now stats =>
    match s.loops[i]? with
    | none => s
    | some l =>
      if l.todo ≠ [] then s
      else
        let (capturer, last) := s.capturer.maybeSampleStats stats l.iface l.lastStatsUpdate now
        { s with capturer := capturer, loops := s.loops.set i { l with lastStatsUpdate := last } }
  | .read i data timestamp clock =>
    match s.loops[i]? with
    | none => s
    | some l =>
      if l.todo ≠ [] then s
      else
        let p : CapturedPacket := ⟨l.dec, l.iface, data, timestamp, clock⟩
        let ops := p.ops E.dfb E.newPacket E.isLocal E.inspect.passiveInspectors
        { s with
          loops := s.loops.set i { l with dec := (l.dec.decode E.dfb data).1, todo := ops }
          read := s.read ++ ops }
  | .work i =>
    match s.loops[i]? with
    | none => s
    | some l =>
      match l.todo with
      | [] => s
      | op :: todo =>
        { s with
          loops := s.loops.set i { l with todo := todo }
          capturer := s.capturer.perform E.newPacket op
          logs := s.logs.map (·.send op) }
  | .tick now conns o₁ o₂ =>
    match s.collecting with
    | some _ => s
    | none =>
      let (capturer, flows) := s.capturer.snapshot now
      let (agg, snap) := s.agg.join conns flows o₁ o₂ now
      { s with capturer := capturer, agg := agg, collecting := some ⟨.drainSYNEvents, now, conns, snap⟩ }
  | .collect orders =>
    match s.collecting with
    | none => s
    | some r =>
      match r.point with
      | .publish =>
        { s with
          pidByLocalAddr := pidByLocalAddrFrom r.snap.connections
          published := some r.snap
          collecting := some { r with point := .build } }
      | .build => s.finish E r orders
      | _ =>
        let (capturer, r) := r.call s.capturer
        { s with capturer := capturer, collecting := some r }
  | .cancelLogs => s.moveLogs .cancelled
  | .recvSYN => s.moveLogs .recvSYN
  | .recvDNS => s.moveLogs .recvDNS
  | .tickLogs => s.moveLogs .tick
  | .proceedLogs now => s.moveLogs (.proceed now s.pidByLocalAddr)

end Receiving

/-- `Start`, with every interface open. -/
def Setup.initial (E : Setup) : Receiving where
  loops := E.ifaces.map fun i => { iface := i.1, dec := i.2 }
  capturer := { cfg := E.inspect }
  metrics := { start := E.start }
  logs := if E.logsConsumer then some {} else none

def Setup.run (E : Setup) (moves : List Move) : Receiving := moves.foldl (Receiving.step E) E.initial

/-! ### What a move does -/

/-- What is left to do for the packets that were read. -/
def Receiving.todo (s : Receiving) : List CaptureOp := s.loops.flatMap CaptureLoop.todo

/-- A move of the log loop: it sends nothing, and a flush reads the PIDs published last. -/
structure LogStep.Own (st : LogStep) (s : Receiving) : Prop where
  syn : sentSYN [st] = []
  dns : sentDNSQuery [st] = []
  pids : ∀ now pids, st = .proceed now pids → pids = s.pidByLocalAddr

/-- All that a move can do. -/
inductive Effect (E : Setup) (s : Receiving) : Receiving → Prop
  | idle : Effect E s s
  | sampled {i : ℕ} {l : CaptureLoop} (hl : s.loops[i]? = some l) (last : Int) (stats : GoMap String PacketStats) :
    Effect E s { s with
      capturer := { s.capturer with packetStats := stats }
      loops := s.loops.set i { l with lastStatsUpdate := last } }
  | read {i : ℕ} {l : CaptureLoop} (hl : s.loops[i]? = some l) (htodo : l.todo = []) (dec : FlowDecoder)
    (ops : List CaptureOp) :
    Effect E s { s with loops := s.loops.set i { l with dec := dec, todo := ops }, read := s.read ++ ops }
  | worked {i : ℕ} {l : CaptureLoop} {op : CaptureOp} {todo : List CaptureOp} (hl : s.loops[i]? = some l)
    (htodo : l.todo = op :: todo) :
    Effect E s { s with
      loops := s.loops.set i { l with todo := todo }
      capturer := s.capturer.perform E.newPacket op
      logs := s.logs.map (·.send op) }
  | ticked (hidle : s.collecting = none) (now : Int) (conns : List Connection) (flows : GoMap FlowKey ByteCounter)
    (agg : Aggregator) (snap : Snapshot) (hsnap : snap.connections = sortedRecords agg.records) :
    Effect E s { s with
      capturer := { s.capturer with flows := flows }
      agg := agg
      collecting := some ⟨.drainSYNEvents, now, conns, snap⟩ }
  | called {r : Collecting} (hr : s.collecting = some r) :
    Effect E s { s with capturer := (r.call s.capturer).1, collecting := some (r.call s.capturer).2 }
  | published {r : Collecting} (hr : s.collecting = some r) (hpoint : r.point = .publish) :
    Effect E s { s with
      pidByLocalAddr := pidByLocalAddrFrom r.snap.connections
      published := some r.snap
      collecting := some { r with point := .build } }
  | finished {r : Collecting} (hr : s.collecting = some r) (hpoint : r.point = .build) (orders : RangeOrders) :
    Effect E s (s.finish E r orders)
  | logged {st : LogStep} (hst : st.Own s) : Effect E s (s.moveLogs st)

namespace Receiving
variable {E : Setup} {s : Receiving}

theorem sample_effect (E : Setup) (s : Receiving) (i : ℕ) (now : Int) (stats : Option PacketStats) :
    Effect E s (s.step E (.sample i now stats)) := by
  simp only [step]
  cases hl : s.loops[i]? with
  | none => exact .idle
  | some l =>
    dsimp only
    split_ifs with htodo
    · exact .idle
    · unfold Capturer.maybeSampleStats
      split_ifs
      · exact .sampled hl l.lastStatsUpdate s.capturer.packetStats
      · cases stats with
        | none => exact .sampled hl now s.capturer.packetStats
        | some st => exact .sampled hl now _

theorem collect_effect (E : Setup) (s : Receiving) (orders : RangeOrders) : Effect E s (s.step E (.collect orders)) := by
  simp only [step]
  cases hr : s.collecting with
  | none => exact .idle
  | some r =>
    dsimp only
    cases hpoint : r.point with
    | publish => exact .published hr hpoint
    | build => exact .finished hr hpoint orders
    | _ => exact .called hr

theorem step_effect (E : Setup) (s : Receiving) (m : Move) : Effect E s (s.step E m) := by
  cases m with
  | sample i now stats => exact sample_effect E s i now stats
  | read i data timestamp clock =>
    simp only [step]
    cases hl : s.loops[i]? with
    | none => exact .idle
    | some l =>
      dsimp only
      split_ifs with htodo
      · exact .idle
      · exact .read hl (not_not.1 htodo) _ _
  | work i =>
    simp only [step]
    cases hl : s.loops[i]? with
    | none => exact .idle
    | some l =>
      dsimp only
      cases htodo : l.todo with
      | nil => exact .idle
      | cons op todo => exact .worked hl htodo
  | tick now conns o₁ o₂ =>
    simp only [step]
    cases hidle : s.collecting with
    | some r => exact .idle
    | none => exact .ticked hidle now conns _ _ _ rfl
  | collect orders => exact collect_effect E s orders
  | cancelLogs => exact .logged ⟨rfl, rfl, nofun⟩
  | recvSYN => exact .logged ⟨rfl, rfl, nofun⟩
  | recvDNS => exact .logged ⟨rfl, rfl, nofun⟩
  | tickLogs => exact .logged ⟨rfl, rfl, nofun⟩
  | proceedLogs now => exact .logged ⟨rfl, rfl, fun _ _ h => (LogStep.proceed.inj h).2.symm⟩

/-- The other goroutines have to do what they had. -/
theorem todo_set {i : ℕ} {l : CaptureLoop} (h : s.loops[i]? = some l) : ∃ pre post, s.todo = pre ++ l.todo ++ post ∧
    ∀ l', (s.loops.set i l').flatMap CaptureLoop.todo = pre ++ l'.todo ++ post := by
  obtain ⟨hi, hget⟩ := List.getElem?_eq_some_iff.1 h
  refine ⟨(s.loops.take i).flatMap CaptureLoop.todo, (s.loops.drop (i + 1)).flatMap CaptureLoop.todo, ?_, fun l' => ?_⟩
  · have hsplit : s.loops = s.loops.take i ++ l :: s.loops.drop (i + 1) := by
      rw [← hget, List.cons_getElem_drop_succ, List.take_append_drop]
    rw [todo]
    conv_lhs => rw [hsplit]
    simp
  · rw [List.set_eq_take_append_cons_drop, if_pos hi]
    simp

section Kind
variable {α : Type} {i : ℕ} {l : CaptureLoop} (hl : s.loops[i]? = some l) (f : CaptureOp → Option α)
include hl

/-- A goroutine that has read a packet has all of it to do. -/
theorem todo_read (htodo : l.todo = []) (dec : FlowDecoder) (ops : List CaptureOp) :
    (((s.loops.set i { l with dec := dec, todo := ops }).flatMap CaptureLoop.todo).filterMap f).Perm
      (s.todo.filterMap f ++ ops.filterMap f) := by
  obtain ⟨pre, post, heq, hset⟩ := todo_set hl
  rw [hset, heq, htodo, List.append_nil, ← List.filterMap_append]
  refine List.Perm.filterMap _ ?_
  rw [List.append_assoc, List.append_assoc]
  exact List.perm_append_comm.append_left pre

theorem todo_worked {op : CaptureOp} {todo : List CaptureOp} (htodo : l.todo = op :: todo) :
    (s.todo.filterMap f).Perm
      ((f op).toList ++ ((s.loops.set i { l with todo := todo }).flatMap CaptureLoop.todo).filterMap f) := by
  obtain ⟨pre, post, heq, hset⟩ := todo_set hl
  rw [hset, heq, htodo]
  have hperm : ((pre ++ op :: todo ++ post).filterMap f).Perm ((op :: (pre ++ todo ++ post)).filterMap f) := by
    refine List.Perm.filterMap _ ?_
    rw [List.append_assoc, List.append_assoc]
    exact List.perm_middle
  refine hperm.trans (.of_eq ?_)
  cases hop : f op with
  | none => rw [List.filterMap_cons_none hop]; rfl
  | some a => rw [List.filterMap_cons_some hop]; rfl

end Kind

end Receiving

theorem Setup.todo_initial (E : Setup) : E.initial.todo = [] := by
  rw [Receiving.todo, initial, List.flatMap_eq_nil_iff]
  intro l hl
  obtain ⟨i, -, rfl⟩ := List.mem_map.1 hl
  rfl

/-- A property of the state that every move keeps holds after every run. -/
theorem Setup.run_induction (E : Setup) {P : List Move → Receiving → Prop} (h0 : P [] E.initial)
    (hstep : ∀ moves m s, s = E.run moves → P moves s → P (moves ++ [m]) (s.step E m)) (moves : List Move) :
    P moves (E.run moves) := by
  induction moves using List.reverseRecOn with
  | nil => exact h0
  | append_singleton moves m ih =>
    rw [run, List.foldl_append]
    exact hstep moves m _ rfl ih

/-! ### A tick on its own -/

/-- The moves of one tick. -/
def tickMoves (now : Int) (conns : List Connection) (o₁ o₂ : MapOrder FlowKey FlowStats) (orders : RangeOrders) :
    List Move :=
  .tick now conns o₁ o₂ :: List.replicate 9 (.collect orders)

theorem collect_alone (E : Setup) (s : Receiving) (hidle : s.collecting = none) (now : Int) (conns : List Connection)
    (o₁ o₂ : MapOrder FlowKey FlowStats) (orders : RangeOrders) :
    let (agg, capturer, snap) := s.agg.refresh s.capturer conns o₁ o₂ now
    (tickMoves now conns o₁ o₂ orders).foldl (Receiving.step E) s =
      Receiving.finish E
        { s with
          agg := agg, capturer := capturer, pidByLocalAddr := pidByLocalAddrFrom snap.connections
          published := some snap }
        ⟨.build, now, conns, snap⟩ orders := by
  obtain ⟨loops, capturer, agg, metrics, collecting, pids, logs, consumed, read, ticks, published⟩ := s
  obtain rfl : collecting = none := hidle
  rfl

end Trafficmon
