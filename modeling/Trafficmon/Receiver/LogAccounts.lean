import Trafficmon.Aggregate.RecordOrder
import Trafficmon.Dpi.Defaults
import Trafficmon.Receiver.Collect

/-!
# From packets to logs

Under every interleaving of the receiver's goroutines, an attempt or a query that was read is still to be sent, in its
channel, pending, exported or counted as dropped (`packets_logged`). The record of a query has the client's address just
when the snapshot published last has a connection from there and the greatest PID of those is not 0 (`client_logged`).
-/

namespace Trafficmon
open Receiving

def CaptureOp.sentSYN? : CaptureOp → Option SYNEvent
  | .sendSYN ev => some ev
  | _ => none

def CaptureOp.sentDNSQuery? : CaptureOp → Option QueryFinding
  | .sendDNSQuery f => some f
  | _ => none

/-! ### Nothing is lost silently -/

/-- What came in was sent, or is still to be. -/
def Receiving.Sent {α : Type} (s : Receiving) (sent? : CaptureOp → Option α) (sent : List α) : Prop :=
  (s.read.filterMap sent?).Perm (sent ++ s.todo.filterMap sent?)

/-- The log system has got what `steps` have sent, and these have sent what the packets had. -/
structure Receiving.LogsAt (s : Receiving) (L : LogSystem) (steps : List LogStep) : Prop where
  conserves : L.Conserves steps
  syn : s.Sent CaptureOp.sentSYN? (sentSYN steps)
  dns : s.Sent CaptureOp.sentDNSQuery? (sentDNSQuery steps)

section Sent
variable {E : Setup} {s s' : Receiving} {α : Type} {sent? : CaptureOp → Option α} {sent : List α}

theorem Receiving.Sent.worked (h : s.Sent sent? sent) {i : ℕ} {l : CaptureLoop} {op : CaptureOp}
    {todo : List CaptureOp} (hl : s.loops[i]? = some l) (htodo : l.todo = op :: todo) (c : Capturer)
    (logs : Option LogSystem) :
    Receiving.Sent { s with loops := s.loops.set i { l with todo := todo }, capturer := c, logs := logs } sent?
      (sent ++ (sent? op).toList) := by
  refine List.Perm.trans h ?_
  rw [List.append_assoc]
  exact (todo_worked hl sent? htodo).append_left sent

/-- To the logs a move is a call of a capture goroutine, one of their own, or nothing. -/
theorem Effect.logs_cases (he : Effect E s s') :
    (∃ i l op todo, s.loops[i]? = some l ∧ l.todo = op :: todo ∧ s' = { s with
      loops := s.loops.set i { l with todo := todo }
      capturer := s.capturer.perform E.newPacket op
      logs := s.logs.map (·.send op) }) ∨
    (∃ st : LogStep, st.Own s ∧ s' = s.moveLogs st) ∨
    (s'.logs = s.logs ∧ ∀ (α : Type) (sent? : CaptureOp → Option α) sent, s.Sent sent? sent → s'.Sent sent? sent) := by
  cases he with
  | worked hl htodo => exact .inl ⟨_, _, _, _, hl, htodo, rfl⟩
  | logged hst => exact .inr (.inl ⟨_, hst, rfl⟩)
  | sampled hl last stats =>
    obtain ⟨pre, post, htodo, hset⟩ := todo_set hl
    refine .inr (.inr ⟨rfl, fun α sent? sent h => ?_⟩)
    unfold Sent todo at h ⊢
    rw [hset, ← htodo]
    exact h
  | read hl htodo dec ops =>
    refine .inr (.inr ⟨rfl, fun α sent? sent h => ?_⟩)
    unfold Sent at h ⊢
    rw [List.filterMap_append]
    refine (h.append_right _).trans ?_
    rw [List.append_assoc]
    exact (todo_read hl sent? htodo dec ops).symm.append_left sent
  | finished hr hpoint orders =>
    refine .inr (.inr ?_)
    unfold finish
    dsimp only
    split_ifs
    · exact ⟨rfl, fun _ _ _ h => h⟩
    · exact ⟨rfl, fun _ _ _ h => h⟩
  | _ => exact .inr (.inr ⟨rfl, fun _ _ _ h => h⟩)

end Sent

section Logs
variable {E : Setup} {s s' : Receiving} {L : LogSystem} {steps : List LogStep}

theorem sentSYN_concat (steps : List LogStep) (st : LogStep) : sentSYN (steps ++ [st]) = sentSYN steps ++ sentSYN [st] :=
  List.filterMap_append

theorem sentDNSQuery_concat (steps : List LogStep) (st : LogStep) :
    sentDNSQuery (steps ++ [st]) = sentDNSQuery steps ++ sentDNSQuery [st] :=
  List.filterMap_append

theorem Receiving.LogsAt.send (h : s.LogsAt L steps) {i : ℕ} {l : CaptureLoop} {op : CaptureOp} {todo : List CaptureOp}
    (hl : s.loops[i]? = some l) (htodo : l.todo = op :: todo) (c : Capturer) (logs : Option LogSystem) :
    ∃ steps', Receiving.LogsAt
      { s with loops := s.loops.set i { l with todo := todo }, capturer := c, logs := logs } (L.send op) steps' := by
  have hsyn := h.syn.worked hl htodo c logs
  have hdns := h.dns.worked hl htodo c logs
  cases op with
  | sendSYN ev =>
    refine ⟨steps ++ [.sendSYN ev], h.conserves.step (.sendSYN ev), ?_, ?_⟩
    · rw [sentSYN_concat]
      exact hsyn
    · rw [sentDNSQuery_concat]
      exact hdns
  | sendDNSQuery q =>
    refine ⟨steps ++ [.sendDNSQuery q], h.conserves.step (.sendDNSQuery q), ?_, ?_⟩
    · rw [sentSYN_concat]
      exact hsyn
    · rw [sentDNSQuery_concat]
      exact hdns
  | _ => exact ⟨steps, h.conserves, by simpa [CaptureOp.sentSYN?] using hsyn, by simpa [CaptureOp.sentDNSQuery?] using hdns⟩

theorem Receiving.LogsAt.effect (h : s.LogsAt L steps) (hL : s.logs = some L) (he : Effect E s s') :
    ∃ L' steps', s'.logs = some L' ∧ s'.LogsAt L' steps' := by
  rcases he.logs_cases with ⟨i, l, op, todo, hl, htodo, rfl⟩ | ⟨st, hst, rfl⟩ | ⟨hlogs, hsent⟩
  · obtain ⟨steps', hsteps⟩ := h.send hl htodo (s.capturer.perform E.newPacket op) (s.logs.map (·.send op))
    exact ⟨L.send op, steps', congrArg (Option.map (·.send op)) hL, hsteps⟩
  · refine ⟨L.step st, steps ++ [st], by rw [moveLogs, hL]; rfl, h.conserves.step st, ?_, ?_⟩
    · rw [sentSYN_concat, hst.syn, List.append_nil]
      exact h.syn
    · rw [sentDNSQuery_concat, hst.dns, List.append_nil]
      exact h.dns
  · exact ⟨L, steps, hlogs.trans hL, h.conserves, hsent _ _ _ h.syn, hsent _ _ _ h.dns⟩

theorem logsAt_run (hconsumer : E.logsConsumer = true) (moves : List Move) :
    ∃ L steps, (E.run moves).logs = some L ∧ (E.run moves).LogsAt L steps := by
  refine E.run_induction (P := fun _ s => ∃ L steps, s.logs = some L ∧ s.LogsAt L steps) ?_ ?_ moves
  · have hinit : (LogSystem.Conserves [] {}) := ⟨.nil, .nil, nofun, Nat.zero_le _, fun _ => by decide⟩
    have htodo : E.initial.todo = [] := E.todo_initial
    refine ⟨{}, [], if_pos hconsumer, hinit, ?_, ?_⟩
    · rw [Receiving.Sent, htodo]
      exact .nil
    · rw [Receiving.Sent, htodo]
      exact .nil
  · rintro moves m s - ⟨L, steps, hL, h⟩
    exact h.effect hL (s.step_effect E m)

end Logs

/-- What has become of the events of a kind that are logged: `sent` were sent to the channel. -/
structure Receiving.Logged {α : Type} (s : Receiving) (sent? : CaptureOp → Option α) (accepted exported pending : List α)
    (c : Chan α logFeedCapacity) (overflow : UInt64) (sent : List α) : Prop where
  all : s.Sent sent? sent
  ledger : Chan.Ledger sent accepted exported pending c overflow

/-- Under every interleaving, with a consumer for logs. -/
theorem packets_logged (E : Setup) (hconsumer : E.logsConsumer = true) (moves : List Move) :
    ∃ L syn dns, (E.run moves).logs = some L ∧
      (E.run moves).Logged CaptureOp.sentSYN? L.acceptedSYN (L.consumed.flatMap LogBatch.syn) L.loop.pendingSYN L.feed.syn
        L.feed.synOverflow syn ∧
      (E.run moves).Logged CaptureOp.sentDNSQuery? L.acceptedDNS (L.consumed.flatMap LogBatch.dns) L.loop.pendingDNS
        L.feed.dnsQuery L.feed.dnsQueryOverflow dns ∧
      ∀ b ∈ L.consumed, b.logs.Shows b.syn b.dns := by
  obtain ⟨L, steps, hL, h⟩ := logsAt_run hconsumer moves
  exact ⟨L, sentSYN steps, sentDNSQuery steps, hL, ⟨h.syn, h.conserves.syn⟩, ⟨h.dns, h.conserves.dns⟩,
    fun b hb => (h.conserves.batches b hb).1⟩

/-! ### A query

It asks for the address of `a`, and 192.168.1.10:51000 sends it to 8.8.8.8. -/

def queryMessage : List UInt8 := [0, 1, 1, 0, 0, 1, 0, 0, 0, 0, 0, 0, 1, 0x61, 0, 0, 1, 0, 1]

def queryPacket : List UInt8 :=
  [0x45, 0, 0, 47, 0, 0, 0, 0, 64, 17, 0, 0, 192, 168, 1, 10, 8, 8, 8, 8] ++ [0xc7, 0x38, 0, 53, 0, 27, 0, 0] ++
    queryMessage

def queryParsers : Parsers where
  unmarshal _ := .error
  readClientHello _ := .error
  decodeFromBytes b := if b = queryMessage then .ok ⟨false, 0, [⟨"a", 1⟩], []⟩ else .error
  dnsTypeString _ := "A"
  dnsResponseCodeString _ := "No Error"

def clientSetup : Setup where
  dfb := ipv4Decoders
  newPacket data _ := { udp := some (data.drop 28) }
  isLocal a := a = .ipv4 192 168 1 10
  inspect := { passiveInspectors := [dnsQueryInspector queryParsers] }
  cfg := {}
  metricsConsumer := true
  logsConsumer := true
  ifaces := [("en0", rawDecoder)]
  start := 0

/-- The socket is seen, then the query is captured and logged. -/
def queryMoves : List Move :=
  tickMoves 1 [⟨77, "dig", .ipv4 192 168 1 10, 51000, .ipv4 8 8 8 8, 53, .udp, ""⟩] .held .held ⟨.held, .held, .held⟩ ++
    .read 0 queryPacket 2 2 :: List.replicate 4 (.work 0) ++ [.recvDNS, .proceedLogs 3, .tickLogs, .proceedLogs 4]

theorem packets_logged_query : clientSetup.logsConsumer = true ∧
    ∃ L syn dns, (clientSetup.run queryMoves).logs = some L ∧
      (clientSetup.run queryMoves).Logged CaptureOp.sentSYN? L.acceptedSYN (L.consumed.flatMap LogBatch.syn)
        L.loop.pendingSYN L.feed.syn L.feed.synOverflow syn ∧
      (clientSetup.run queryMoves).Logged CaptureOp.sentDNSQuery? L.acceptedDNS (L.consumed.flatMap LogBatch.dns)
        L.loop.pendingDNS L.feed.dnsQuery L.feed.dnsQueryOverflow dns ∧
      ∀ b ∈ L.consumed, b.logs.Shows b.syn b.dns :=
  ⟨rfl, packets_logged clientSetup rfl queryMoves⟩

/-! ### Whose query it was -/

/-- Of the connections from an address, the one with the greatest PID has a process. -/
def HeldByProcess (conns : List ConnectionRecord) (addr : String) : Prop :=
  ∃ r ∈ conns, r.localAddr = addr ∧ r.pid ≠ 0 ∧ ∀ r' ∈ conns, r'.localAddr = addr → r'.pid ≤ r.pid

/-- By PID. -/
def InOrder (conns : List ConnectionRecord) : Prop := conns.Pairwise fun r r' => r.pid ≤ r'.pid

theorem inOrder_sortedRecords (m : Records) : InOrder (sortedRecords m) := by
  refine (ConnectionRecord.less_ranks.sorted_stableSort (m.entries.map (·.2))).2.imp fun {r r'} h => ?_
  by_contra hlt
  have hlt : r'.pid < r.pid := Int32.not_le.1 hlt
  refine h ?_
  rw [ConnectionRecord.less, if_pos (Int32.ne_of_lt hlt)]
  exact decide_eq_true hlt

/-- The connections are gone through in order, and the last one stays. -/
theorem lookup_pidByLocalAddrFrom {conns : List ConnectionRecord} (h : InOrder conns) (addr : String) :
    (∃ pid, (pidByLocalAddrFrom conns).lookup addr = some pid ∧ pid ≠ 0) ↔ HeldByProcess conns addr := by
  have hlookup : (pidByLocalAddrFrom conns).lookup addr =
      GoMap.lastOf (conns.map fun rec => (rec.localAddr, rec.pid)) addr := by
    rw [pidByLocalAddrFrom, GoMap.lookup_insertAll]
    exact Option.or_none
  rw [hlookup]
  clear hlookup
  induction conns using List.reverseRecOn with
  | nil =>
    constructor
    · rintro ⟨_, hpid, -⟩
      cases hpid
    · rintro ⟨_, hr, -⟩
      cases hr
  | append_singleton conns r ih =>
    obtain ⟨hconns, -, hlast⟩ := List.pairwise_append.1 h
    rw [List.map_append, List.map_singleton, GoMap.lastOf_concat]
    split_ifs with haddr
    · constructor
      · rintro ⟨pid, hpid, hne⟩
        obtain rfl := Option.some.inj hpid
        refine ⟨r, by simp, haddr, hne, fun r' hr' _ => ?_⟩
        rcases List.mem_append.1 hr' with hr' | hr'
        · exact hlast r' hr' r (List.mem_singleton_self r)
        · rw [List.mem_singleton.1 hr']
          exact Int32.le_refl _
      · rintro ⟨r', hr', haddr', hne, hmax⟩
        refine ⟨r.pid, rfl, ?_⟩
        have hle : r.pid ≤ r'.pid := hmax r (by simp) haddr
        rcases List.mem_append.1 hr' with hmem | hmem
        · rw [Int32.le_antisymm hle (hlast r' hmem r (List.mem_singleton_self r))]
          exact hne
        · rw [← List.mem_singleton.1 hmem]
          exact hne
    · refine (ih hconns).trans ?_
      constructor
      · rintro ⟨r', hr', haddr', hne, hmax⟩
        refine ⟨r', List.mem_append_left _ hr', haddr', hne, fun r'' hr'' haddr'' => ?_⟩
        rcases List.mem_append.1 hr'' with hr'' | hr''
        · exact hmax r'' hr'' haddr''
        · rw [List.mem_singleton.1 hr''] at haddr''
          exact absurd haddr'' haddr
      · rintro ⟨r', hr', haddr', hne, hmax⟩
        rcases List.mem_append.1 hr' with hr' | hr'
        · exact ⟨r', hr', haddr', hne, fun r'' hr'' => hmax r'' (List.mem_append_left _ hr'')⟩
        · rw [List.mem_singleton.1 hr'] at haddr'
          exact absurd haddr' haddr

/-- The PIDs are those of the snapshot published last, and snapshots are in order. -/
structure Receiving.Publishes (s : Receiving) : Prop where
  pids : s.pidByLocalAddr = s.published.elim ∅ fun snap => pidByLocalAddrFrom snap.connections
  published : ∀ snap, s.published = some snap → InOrder snap.connections
  collecting : ∀ r, s.collecting = some r → InOrder r.snap.connections

section Publishes
variable {E : Setup} {s s' : Receiving}

theorem connections_call (r : Collecting) (c : Capturer) : (r.call c).2.snap.connections = r.snap.connections := by
  obtain ⟨point, now, conns, snap⟩ := r
  cases point <;> rfl

theorem Receiving.Publishes.effect (h : s.Publishes) (he : Effect E s s') : s'.Publishes := by
  cases he with
  | ticked hidle now conns flows agg snap hsnap =>
    refine ⟨h.pids, h.published, fun r hr => ?_⟩
    obtain rfl := Option.some.inj hr
    rw [hsnap]
    exact inOrder_sortedRecords _
  | @called r hr =>
    refine ⟨h.pids, h.published, fun r' hr' => ?_⟩
    obtain rfl := Option.some.inj hr'
    rw [connections_call]
    exact h.collecting r hr
  | @published r hr hpoint =>
    refine ⟨rfl, fun snap hsnap => ?_, fun r' hr' => ?_⟩
    · obtain rfl := Option.some.inj hsnap
      exact h.collecting r hr
    · obtain rfl := Option.some.inj hr'
      exact h.collecting r hr
  | finished hr hpoint orders =>
    unfold finish
    dsimp only
    split_ifs
    · exact ⟨h.pids, h.published, nofun⟩
    · exact ⟨h.pids, h.published, nofun⟩
  | _ => exact ⟨h.pids, h.published, h.collecting⟩

theorem publishes_run (E : Setup) (moves : List Move) : (E.run moves).Publishes :=
  E.run_induction (P := fun _ s => s.Publishes) ⟨rfl, nofun, nofun⟩ (fun _ m s _ h => h.effect (s.step_effect E m)) moves

end Publishes

/-! ### The records of the queries -/

/-- The first records of a batch are those of its queries, made with these PIDs. -/
def LogBatch.MadeWith (b : LogBatch) (pids : GoMap String Int32) : Prop :=
  ∃ now rest, b.logs.records = b.dns.map (dnsQueryLogRecord now pids) ++ rest

theorem buildLogBatch_madeWith (syn : List SYNEvent) (dns : List QueryFinding) (now : Int) (c : SynAttemptCache)
    (pids : GoMap String Int32) : LogBatch.MadeWith ⟨syn, dns, (buildLogBatch syn dns now c pids).2⟩ pids := by
  have hdns : dns.foldl (fun records q => addDNSQueryLogRecord records q now pids) [] =
      dns.map (dnsQueryLogRecord now pids) := by
    induction dns using List.reverseRecOn with
    | nil => rfl
    | append_singleton dns q ih =>
      rw [List.foldl_append, ih, List.map_append]
      rfl
  have hsyn : ∀ acc : SynAttemptCache × List LogRecord, ∃ rest, (syn.foldl (countSYN now) acc).2 = acc.2 ++ rest := by
    induction syn using List.reverseRecOn with
    | nil => exact fun acc => ⟨[], (List.append_nil _).symm⟩
    | append_singleton syn ev ih =>
      intro acc
      obtain ⟨rest, hrest⟩ := ih acc
      refine ⟨rest ++ [synLogRecord now ev (synAttemptKeyFor ev)
        ((syn.foldl (countSYN now) acc).1.record (synAttemptKeyFor ev) ev.atTime).2], ?_⟩
      rw [List.foldl_append, List.foldl_cons, List.foldl_nil, ← List.append_assoc, ← hrest]
      rfl
  obtain ⟨rest, hrest⟩ := hsyn (c.prune now, dns.map (dnsQueryLogRecord now pids))
  refine ⟨now, rest, ?_⟩
  rw [← hrest, ← hdns]
  rfl

theorem consumed_flush (L : LogSystem) (now : Int) (pids : GoMap String Int32) :
    ∃ bs, (L.flush now pids).consumed = L.consumed ++ bs ∧ ∀ b ∈ bs, b.MadeWith pids := by
  unfold LogSystem.flush
  split_ifs with hempty
  · exact ⟨[], (List.append_nil _).symm, nofun⟩
  · refine ⟨_, rfl, fun b hb => ?_⟩
    rw [List.mem_singleton.1 hb]
    exact buildLogBatch_madeWith _ _ now _ pids

/-- A move of the log loop hands on no batch, or one made with the PIDs it has read. -/
theorem consumed_step {s : Receiving} {st : LogStep} (hst : st.Own s) (L : LogSystem) :
    ∃ bs, (L.step st).consumed = L.consumed ++ bs ∧ ∀ b ∈ bs, b.MadeWith s.pidByLocalAddr := by
  have hnone : ∀ L' : LogSystem, L'.consumed = L.consumed →
      ∃ bs, L'.consumed = L.consumed ++ bs ∧ ∀ b ∈ bs, b.MadeWith s.pidByLocalAddr :=
    fun L' h => ⟨[], h.trans (List.append_nil _).symm, nofun⟩
  cases st with
  | sendSYN ev => cases hst.syn
  | sendDNSQuery q => cases hst.dns
  | cancelled | tick =>
    simp only [LogSystem.step]
    split <;> exact hnone _ rfl
  | recvSYN =>
    simp only [LogSystem.step]
    split
    · exact hnone _ rfl
    · cases L.feed.syn.recv <;> exact hnone _ rfl
  | recvDNS =>
    simp only [LogSystem.step]
    split
    · exact hnone _ rfl
    · cases L.feed.dnsQuery.recv <;> exact hnone _ rfl
  | proceed now pids =>
    obtain rfl := hst.pids now pids rfl
    simp only [LogSystem.step]
    split
    · split
      · exact consumed_flush L now _
      · exact hnone _ rfl
    · exact consumed_flush L now _
    · refine hnone _ ?_
      unfold LogSystem.checkOverflow
      dsimp only
      split <;> rfl
    · exact hnone _ rfl
    · exact hnone _ rfl

/-- Every batch was made with the PIDs that were published when it was. -/
theorem batches_run (E : Setup) (moves : List Move) : ∀ L, (E.run moves).logs = some L →
    ∀ b ∈ L.consumed, ∃ pre, pre <+: moves ∧ b.MadeWith (E.run pre).pidByLocalAddr := by
  refine E.run_induction (P := fun moves s => ∀ L, s.logs = some L →
    ∀ b ∈ L.consumed, ∃ pre, pre <+: moves ∧ b.MadeWith (E.run pre).pidByLocalAddr) ?_ ?_ moves
  · intro L hL b hb
    unfold Setup.initial at hL
    dsimp only at hL
    split_ifs at hL
    obtain rfl := Option.some.inj hL
    cases hb
  · intro moves m s hs h L' hL' b hb
    have hlonger : ∀ L, s.logs = some L → b ∈ L.consumed →
        ∃ pre, pre <+: moves ++ [m] ∧ b.MadeWith (E.run pre).pidByLocalAddr := fun L hL hb => by
      obtain ⟨pre, hpre, hmade⟩ := h L hL b hb
      exact ⟨pre, hpre.trans (List.prefix_append _ _), hmade⟩
    rcases (s.step_effect E m).logs_cases with ⟨i, l, op, todo, hl, htodo, heq⟩ | ⟨st, hst, heq⟩ | ⟨hlogs, -⟩
    · rw [heq] at hL'
      obtain ⟨L, hL, rfl⟩ := Option.map_eq_some_iff.1 hL'
      refine hlonger L hL ?_
      cases op <;> exact hb
    · rw [heq] at hL'
      obtain ⟨L, hL, rfl⟩ := Option.map_eq_some_iff.1 hL'
      obtain ⟨bs, hbs, hmade⟩ := consumed_step hst L
      rw [hbs] at hb
      rcases List.mem_append.1 hb with hb | hb
      · exact hlonger L hL hb
      · exact ⟨moves, List.prefix_append _ _, by rw [← hs]; exact hmade b hb⟩
    · exact hlonger L' (hlogs ▸ hL') hb

def attrLocalAddress : String := "network.local.address"

theorem mem_attributes_iff (now : Int) (pids : GoMap String Int32) (q : QueryFinding) :
    (attrLocalAddress, AttrValue.str q.clientAddr) ∈ (dnsQueryLogRecord now pids q).attributes ↔
      ∃ pid, pids.lookup q.clientAddr = some pid ∧ pid ≠ 0 := by
  have hother : ∀ name ∈ ["dns.question.name", attrDNSQuestionType, "network.peer.address"], attrLocalAddress ≠ name := by
    decide
  have hfirst : (attrLocalAddress, AttrValue.str q.clientAddr) ∉
      [("dns.question.name", AttrValue.str q.name), (attrDNSQuestionType, .str q.qType),
        ("network.peer.address", .str q.serverAddr)] := by
    simp only [List.mem_cons, Prod.mk.injEq, List.not_mem_nil, or_false]
    rintro (⟨h, -⟩ | ⟨h, -⟩ | ⟨h, -⟩)
    · exact hother _ (by simp) h
    · exact hother _ (by simp) h
    · exact hother _ (by simp) h
  rw [dnsQueryLogRecord, List.mem_append, or_iff_right hfirst]
  cases hpid : pids.lookup q.clientAddr with
  | none => simp
  | some pid =>
    dsimp only
    by_cases hzero : pid = 0
    · simp [hzero]
    · simp [hzero, attrLocalAddress]

/-- Under every interleaving, of every query that was logged: when its batch was made, the snapshot published last, if
any, decided whether its record has the client's address. -/
theorem client_logged (E : Setup) (moves : List Move) (L : LogSystem) (hL : (E.run moves).logs = some L) (b : LogBatch)
    (hb : b ∈ L.consumed) : ∃ pre, pre <+: moves ∧ ∀ (i : ℕ) q, b.dns[i]? = some q →
      ∃ rec, b.logs.records[i]? = some rec ∧ rec.body = q.name ∧
        ((attrLocalAddress, .str q.clientAddr) ∈ rec.attributes ↔
          ∃ snap, (E.run pre).published = some snap ∧ HeldByProcess snap.connections q.clientAddr) := by
  obtain ⟨pre, hpre, now, rest, hrecords⟩ := batches_run E moves L hL b hb
  have hpub := publishes_run E pre
  refine ⟨pre, hpre, fun i q hq => ⟨dnsQueryLogRecord now (E.run pre).pidByLocalAddr q, ?_, rfl, ?_⟩⟩
  · obtain ⟨hi, -⟩ := List.getElem?_eq_some_iff.1 hq
    rw [hrecords, List.getElem?_append_left (by simpa using hi), List.getElem?_map, hq]
    rfl
  · rw [mem_attributes_iff, hpub.pids]
    cases hsnap : (E.run pre).published with
    | none =>
      constructor
      · rintro ⟨pid, hpid, -⟩
        cases hpid
      · rintro ⟨snap, h, -⟩
        cases h
    | some snap =>
      rw [Option.elim_some, lookup_pidByLocalAddrFrom (hpub.published snap hsnap)]
      exact ⟨fun h => ⟨snap, rfl, h⟩, fun ⟨snap', h, hheld⟩ => Option.some.inj h ▸ hheld⟩

def queryLogs : LogSystem := (clientSetup.run queryMoves).logs.getD {}

def queryBatch : LogBatch := queryLogs.consumed.headD ⟨[], [], ⟨"", []⟩⟩

theorem client_logged_query : queryBatch.dns = [⟨"a", "A", "192.168.1.10", "8.8.8.8", 2⟩] ∧
    ∃ pre, pre <+: queryMoves ∧ ∀ (i : ℕ) q, queryBatch.dns[i]? = some q →
      ∃ rec, queryBatch.logs.records[i]? = some rec ∧ rec.body = q.name ∧
        ((attrLocalAddress, .str q.clientAddr) ∈ rec.attributes ↔
          ∃ snap, (clientSetup.run pre).published = some snap ∧ HeldByProcess snap.connections q.clientAddr) :=
  ⟨by decide +kernel, client_logged clientSetup queryMoves queryLogs rfl queryBatch
    (show queryBatch ∈ [queryBatch] from List.mem_singleton_self _)⟩

end Trafficmon
