import Trafficmon.Lib.DropOldest
import Trafficmon.Receiver.Collect

/-!
# From packets to metrics

Under every interleaving of the receiver's goroutines, an event of a packet that was read is still to be pushed, in its
ring, in a snapshot or counted; it is lost only where its ring is full (`packets_counted`).
-/

namespace Trafficmon
open DropOldest

/-! ### Kinds of events -/

/-- Calls that push an event. -/
def CaptureOp.isEvent : CaptureOp → Bool
  | .syn _ | .rst _ | .dnsQuery _ | .dnsError _ | .dnsAnswer _ => true
  | _ => false

/-- A kind of event: the calls that push one, the ring, where a snapshot has them, and when it has. -/
structure EventStream (α : Type) where
  pushed? : CaptureOp → Option α
  ring : Capturer → EventRing α
  events : Snapshot → List α
  taken : CollectPoint → Bool

namespace EventStream

def syn : EventStream SYNEvent where
  pushed? | .syn ev => some ev | _ => none
  ring := Capturer.synEvents
  events := Snapshot.synEvents
  taken | .drainSYNEvents => false | _ => true

def rst : EventStream RSTEvent where
  pushed? | .rst ev => some ev | _ => none
  ring := Capturer.rstEvents
  events := Snapshot.rstEvents
  taken | .drainSYNEvents | .drainRSTEvents => false | _ => true

def dnsQuery : EventStream QueryFinding where
  pushed? | .dnsQuery f => some f | _ => none
  ring := Capturer.dnsQueries
  events := Snapshot.dnsQueries
  taken | .drainSYNEvents | .drainRSTEvents | .drainDNSQueries => false | _ => true

def dnsError : EventStream DNSErrorFinding where
  pushed? | .dnsError f => some f | _ => none
  ring := Capturer.dnsErrors
  events := Snapshot.dnsErrors
  taken | .drainSYNEvents | .drainRSTEvents | .drainDNSQueries | .drainDNSErrors => false | _ => true

def dnsAnswer : EventStream DNSAnswerFinding where
  pushed? | .dnsAnswer f => some f | _ => none
  ring := Capturer.dnsAnswers
  events := Snapshot.dnsAnswers
  taken
    | .drainSYNEvents | .drainRSTEvents | .drainDNSQueries | .drainDNSErrors | .drainDNSAnswers => false
    | _ => true

variable {α : Type} (K : EventStream α)

/-- Of the kind `K`, a call of `Refresh` does nothing, or it drains the ring. -/
def CallOk (r : Collecting) (c : Capturer) : Prop :=
  (K.ring (r.call c).1 = K.ring c ∧ K.taken (r.call c).2.point = K.taken r.point ∧
    K.events (r.call c).2.snap = K.events r.snap) ∨
  (K.ring (r.call c).1 = {} ∧ K.taken r.point = false ∧ K.taken (r.call c).2.point = true ∧
    K.events (r.call c).2.snap = (K.ring c).items)

/-- Nothing but its own calls touches the ring. -/
structure Lawful : Prop where
  perform : ∀ newPacket c op, K.ring (Capturer.perform newPacket c op) =
    (K.pushed? op).elim (K.ring c) (K.ring c).push
  frame : ∀ c flows stats, K.ring { c with flows := flows, packetStats := stats } = K.ring c
  call : ∀ r c, K.CallOk r c
  taken : K.taken .drainSYNEvents = false ∧ K.taken .publish = true ∧ K.taken .build = true
  fresh : ∀ cfg, K.ring { cfg := cfg } = {}
  event : ∀ op, (K.pushed? op).isSome → op.isEvent = true

theorem lawful_syn : syn.Lawful where
  perform _ c op := by cases op <;> rfl
  frame _ _ _ := rfl
  call r c := by
    obtain ⟨point, now, conns, snap⟩ := r
    cases point with
    | drainSYNEvents => exact .inr ⟨rfl, rfl, rfl, rfl⟩
    | _ => exact .inl ⟨rfl, rfl, rfl⟩
  taken := ⟨rfl, rfl, rfl⟩
  fresh _ := rfl
  event op h := by cases op <;> first | rfl | cases h

theorem lawful_rst : rst.Lawful where
  perform _ c op := by cases op <;> rfl
  frame _ _ _ := rfl
  call r c := by
    obtain ⟨point, now, conns, snap⟩ := r
    cases point with
    | drainRSTEvents => exact .inr ⟨rfl, rfl, rfl, rfl⟩
    | _ => exact .inl ⟨rfl, rfl, rfl⟩
  taken := ⟨rfl, rfl, rfl⟩
  fresh _ := rfl
  event op h := by cases op <;> first | rfl | cases h

theorem lawful_dnsQuery : dnsQuery.Lawful where
  perform _ c op := by cases op <;> rfl
  frame _ _ _ := rfl
  call r c := by
    obtain ⟨point, now, conns, snap⟩ := r
    cases point with
    | drainDNSQueries => exact .inr ⟨rfl, rfl, rfl, rfl⟩
    | _ => exact .inl ⟨rfl, rfl, rfl⟩
  taken := ⟨rfl, rfl, rfl⟩
  fresh _ := rfl
  event op h := by cases op <;> first | rfl | cases h

theorem lawful_dnsError : dnsError.Lawful where
  perform _ c op := by cases op <;> rfl
  frame _ _ _ := rfl
  call r c := by
    obtain ⟨point, now, conns, snap⟩ := r
    cases point with
    | drainDNSErrors => exact .inr ⟨rfl, rfl, rfl, rfl⟩
    | _ => exact .inl ⟨rfl, rfl, rfl⟩
  taken := ⟨rfl, rfl, rfl⟩
  fresh _ := rfl
  event op h := by cases op <;> first | rfl | cases h

theorem lawful_dnsAnswer : dnsAnswer.Lawful where
  perform _ c op := by cases op <;> rfl
  frame _ _ _ := rfl
  call r c := by
    obtain ⟨point, now, conns, snap⟩ := r
    cases point with
    | drainDNSAnswers => exact .inr ⟨rfl, rfl, rfl, rfl⟩
    | _ => exact .inl ⟨rfl, rfl, rfl⟩
  taken := ⟨rfl, rfl, rfl⟩
  fresh _ := rfl
  event op h := by cases op <;> first | rfl | cases h

/-! ### Where they are -/

/-- The events in the snapshot that is being made. -/
def inFlight (s : Receiving) : List (List α) :=
  s.collecting.elim [] fun r => if K.taken r.point then [K.events r.snap] else []

def books (s : Receiving) : Books α where
  came := s.read.filterMap K.pushed?
  pending := s.todo.filterMap K.pushed?
  queue := (K.ring s.capturer).items
  drained := s.ticks.map (fun t => K.events t.snap) ++ K.inFlight s

/-- Where the events of the kind are. -/
def Accounted (s : Receiving) : Prop := Books.Ledger eventRingCapacity (K.books s)

variable {K} {E : Setup} {s s' : Receiving}

theorem Accounted.initial (hK : K.Lawful) (E : Setup) : K.Accounted E.initial := by
  rw [Accounted, books, E.todo_initial]
  show Books.Ledger _ ⟨[], [], (K.ring { cfg := E.inspect }).items, []⟩
  rw [hK.fresh]
  exact .nil _

/-- What a move does to the events of one kind. -/
theorem books_effect (hK : K.Lawful) (he : Effect E s s') :
    Books.Step eventRingCapacity (K.books s) (K.books s') := by
  cases he with
  | idle => exact .refl _
  | sampled hl last stats =>
    obtain ⟨pre, post, htodo, hset⟩ := Receiving.todo_set hl
    have hring := congrArg EventRing.items (hK.frame s.capturer s.capturer.flows stats)
    unfold books Receiving.todo
    dsimp only at hring ⊢
    rw [hset, ← htodo, hring]
    exact .refl _
  | read hl htodo dec ops =>
    unfold books
    rw [List.filterMap_append]
    exact .come _ (Receiving.todo_read hl K.pushed? htodo dec ops)
  | @worked i l op todo hl htodo =>
    have hperm := Receiving.todo_worked hl K.pushed? htodo
    unfold books
    rw [hK.perform]
    cases hop : K.pushed? op with
    | none =>
      rw [hop] at hperm
      exact .perm hperm
    | some a =>
      rw [hop] at hperm
      exact .push a hperm
  | ticked hidle now conns flows agg snap hsnap =>
    unfold books inFlight
    rw [hidle, hK.frame s.capturer flows s.capturer.packetStats]
    simp only [Option.elim_some, hK.taken.1]
    exact .refl _
  | @called r hr =>
    unfold books inFlight
    rw [hr]
    simp only [Option.elim_some]
    rcases hK.call r s.capturer with ⟨hring, htaken, hevents⟩ | ⟨hring, hbefore, hafter, hevents⟩
    · rw [hring, htaken, hevents]
      exact .refl _
    · rw [hring, hafter, hevents, hbefore, if_pos rfl, if_neg (by decide), List.append_nil]
      exact .drain
  | @published r hr hpoint =>
    unfold books inFlight
    rw [hr]
    simp only [Option.elim_some, hpoint, hK.taken.2.1, hK.taken.2.2]
    exact .refl _
  | @finished r hr hpoint orders =>
    have hfinish : K.books { s with collecting := none, ticks := s.ticks ++ [⟨r.snap, r.now, E.cfg, orders⟩] } =
        K.books s := by
      unfold books inFlight
      rw [hr]
      simp only [Option.elim_none, Option.elim_some, hpoint, hK.taken.2.2, if_true, List.map_append,
        List.map_singleton, List.append_nil]
      rfl
    unfold Receiving.finish
    dsimp only
    split_ifs
    · exact hfinish ▸ .refl _
    · exact hfinish ▸ .refl _
  | logged hst => exact .refl _

theorem accounted_run (hK : K.Lawful) (E : Setup) (moves : List Move) : K.Accounted (E.run moves) :=
  E.run_induction (P := fun _ s => K.Accounted s) (.initial hK E)
    (fun _ m s _ h => Books.Ledger.step h (by decide) (books_effect hK (s.step_effect E m))) moves

/-- The snapshots have no more events than the packets had. -/
theorem Accounted.length_le (h : K.Accounted s) :
    (s.ticks.flatMap fun t => K.events t.snap).length ≤ (s.read.filterMap K.pushed?).length := by
  have hle := Books.Ledger.length_le h
  unfold books at hle
  dsimp only at hle
  rw [List.flatten_append, List.length_append] at hle
  rw [List.flatMap_def]
  omega

theorem Lawful.length_pushed_le (hK : K.Lawful) (ops : List CaptureOp) :
    (ops.filterMap K.pushed?).length ≤ (ops.filter CaptureOp.isEvent).length := by
  induction ops with
  | nil => exact le_rfl
  | cons op ops ih =>
    have hevent := hK.event op
    cases hop : K.pushed? op with
    | none =>
      rw [List.filterMap_cons_none hop]
      exact ih.trans (List.sublist_cons_self op ops |>.filter _).length_le
    | some a =>
      rw [List.filterMap_cons_some hop, List.filter_cons_of_pos (hevent (by rw [hop]; rfl))]
      exact Nat.succ_le_succ ih

/-- No event of the kind was pushed onto a full ring. -/
def NoneOverwritten (K : EventStream α) (E : Setup) (moves : List Move) : Prop :=
  ∀ i < moves.length,
    ¬ Books.Overwrites eventRingCapacity (K.books (E.run (moves.take i))) (K.books (E.run (moves.take (i + 1))))

instance (E : Setup) (moves : List Move) : Decidable (K.NoneOverwritten E moves) := Nat.decidableBallLT _ _

theorem whole_run (hK : K.Lawful) (E : Setup) (moves : List Move) :
    K.NoneOverwritten E moves → (K.books (E.run moves)).Whole := by
  refine E.run_induction (P := fun moves s => K.NoneOverwritten E moves → (K.books s).Whole) (fun _ => ?_) ?_ moves
  · rw [Books.Whole, books, E.todo_initial]
    show ([] : List α).Perm (([] : List (List α)).flatten ++ (K.ring { cfg := E.inspect }).items ++ [])
    rw [hK.fresh]
    exact .nil
  · rintro moves m s rfl ih hnone
    have hbefore : K.NoneOverwritten E moves := fun i hi => by
      have hno := hnone i (by rw [List.length_append]; omega)
      rwa [List.take_append_of_le_length (by omega), List.take_append_of_le_length (by omega)] at hno
    have hlast := hnone moves.length (by simp)
    rw [List.take_left, List.take_of_length_le (by simp)] at hlast
    have hrun : E.run (moves ++ [m]) = (E.run moves).step E m := by rw [Setup.run, List.foldl_append]; rfl
    rw [hrun] at hlast
    exact (ih hbefore).step (books_effect hK ((E.run moves).step_effect E m)) hlast

/-- Nothing of the kind is under way, and nothing was overwritten. -/
structure Settled (K : EventStream α) (E : Setup) (moves : List Move) : Prop where
  collecting : (E.run moves).collecting = none
  todo : (E.run moves).todo = []
  ring : (K.ring (E.run moves).capturer).items = []
  none : K.NoneOverwritten E moves

/-- Then the snapshots have had the events of all the packets. -/
theorem Settled.perm {moves : List Move} (hs : K.Settled E moves) (hK : K.Lawful) :
    ((E.run moves).read.filterMap K.pushed?).Perm ((E.run moves).ticks.flatMap fun t => K.events t.snap) := by
  have hwhole := whole_run hK E moves hs.none
  unfold Books.Whole books inFlight at hwhole
  dsimp only at hwhole
  rw [hs.collecting, hs.todo, hs.ring, Option.elim_none] at hwhole
  rwa [List.filterMap_nil, List.append_nil, List.append_nil, List.append_nil, ← List.flatMap_def] at hwhole

end EventStream

/-! ### Metrics -/

theorem metrics_effect {E : Setup} {s s' : Receiving} (hconsumer : E.metricsConsumer = true)
    (h : s.metrics = MetricsState.run E.start s.ticks) (he : Effect E s s') :
    s'.metrics = MetricsState.run E.start s'.ticks := by
  cases he with
  | @finished r hr hpoint orders =>
    unfold Receiving.finish
    dsimp only
    rw [if_pos hconsumer, run_concat, ← h]
    rfl
  | _ => exact h

theorem metrics_run {E : Setup} (hconsumer : E.metricsConsumer = true) (moves : List Move) :
    (E.run moves).metrics = MetricsState.run E.start (E.run moves).ticks :=
  E.run_induction (P := fun _ s => s.metrics = MetricsState.run E.start s.ticks) rfl
    (fun _ m s _ h => metrics_effect hconsumer h (s.step_effect E m)) moves

/-- Every event is somewhere, and the metrics have counted those of the ticks: where all is settled, those of all the
packets. -/
structure Setup.Counts (E : Setup) (moves : List Move) : Prop where
  syn : EventStream.syn.Accounted (E.run moves)
  rst : EventStream.rst.Accounted (E.run moves)
  dnsQuery : EventStream.dnsQuery.Accounted (E.run moves)
  dnsError : EventStream.dnsError.Accounted (E.run moves)
  dnsAnswer : EventStream.dnsAnswer.Accounted (E.run moves)
  conserved : Conserved (E.run moves).ticks (E.run moves).metrics
  attempts : EventStream.syn.Settled E moves →
    (E.run moves).metrics.synCounts.total + (E.run moves).metrics.synOverflowCount.toNat =
      ((E.run moves).read.filterMap EventStream.syn.pushed?).length
  resets : EventStream.rst.Settled E moves →
    (E.run moves).metrics.rstCounts.total + (E.run moves).metrics.rstOverflowCount.toNat =
      ((E.run moves).read.filterMap EventStream.rst.pushed?).length
  queries : EventStream.dnsQuery.Settled E moves → ∀ k, (((E.run moves).metrics.dnsCounts.lookup k).getD 0).toNat =
    (((E.run moves).read.filterMap EventStream.dnsQuery.pushed?).map QueryFinding.key).count k
  errors : EventStream.dnsError.Settled E moves → ∀ k,
    (((E.run moves).metrics.dnsErrorCounts.lookup k).getD 0).toNat =
      (((E.run moves).read.filterMap EventStream.dnsError.pushed?).map DNSErrorFinding.key).count k

/-- Under every interleaving, with a consumer for metrics and fewer than `2 ^ 63` events. -/
theorem packets_counted (E : Setup) (hconsumer : E.metricsConsumer = true) (moves : List Move)
    (hfew : ((E.run moves).read.filter CaptureOp.isEvent).length < 2 ^ 63) : E.Counts moves := by
  have hsyn := EventStream.accounted_run EventStream.lawful_syn E moves
  have hrst := EventStream.accounted_run EventStream.lawful_rst E moves
  have hquery := EventStream.accounted_run EventStream.lawful_dnsQuery E moves
  have herror := EventStream.accounted_run EventStream.lawful_dnsError E moves
  have hanswer := EventStream.accounted_run EventStream.lawful_dnsAnswer E moves
  have hkeys : ∀ {α κ : Type} (key : α → κ) (events : Snapshot → List α) (ticks : List Tick),
      (ticks.flatMap fun t => (events t.snap).map key) = (ticks.flatMap fun t => events t.snap).map key :=
    fun key events ticks => List.map_flatMap.symm
  have hlen : ∀ {α κ : Type} {K : EventStream α} (key : α → κ), K.Lawful → K.Accounted (E.run moves) →
      ((E.run moves).ticks.flatMap fun t => (K.events t.snap).map key).length < 2 ^ 63 := fun key hK h => by
    rw [hkeys, List.length_map]
    exact (h.length_le.trans (hK.length_pushed_le _)).trans_lt hfew
  have hconserved : Conserved (E.run moves).ticks (E.run moves).metrics := by
    rw [metrics_run hconsumer]
    exact (counted_run E.start _).conserved (countsFit_of_length
      (hlen QueryFinding.key EventStream.lawful_dnsQuery hquery)
      (hlen DNSErrorFinding.key EventStream.lawful_dnsError herror)
      (hlen SYNEvent.key EventStream.lawful_syn hsyn) (hlen RSTEvent.key EventStream.lawful_rst hrst))
  refine ⟨hsyn, hrst, hquery, herror, hanswer, hconserved, fun hs => ?_, fun hs => ?_, fun hs k => ?_, fun hs k => ?_⟩
  · rw [hconserved.syn, (hs.perm EventStream.lawful_syn).length_eq]
    exact (congrArg List.length (hkeys SYNEvent.key _ _)).trans (List.length_map _)
  · rw [hconserved.rst, (hs.perm EventStream.lawful_rst).length_eq]
    exact (congrArg List.length (hkeys RSTEvent.key _ _)).trans (List.length_map _)
  · rw [hconserved.dns, ((hs.perm EventStream.lawful_dnsQuery).map _).count_eq]
    exact congrArg (List.count k) (hkeys QueryFinding.key _ _)
  · rw [hconserved.dnsError, ((hs.perm EventStream.lawful_dnsError).map _).count_eq]
    exact congrArg (List.count k) (hkeys DNSErrorFinding.key _ _)

/-- A server with one interface. -/
def serverSetup : Setup where
  dfb := ipv4Decoders
  newPacket _ _ := {}
  isLocal := isServer
  inspect := {}
  cfg := {}
  metricsConsumer := true
  logsConsumer := true
  ifaces := [("en0", rawDecoder)]
  start := 0

/-- An attempt comes in, and is counted. -/
def attemptMoves : List Move :=
  .read 0 synPacket 1 1 :: List.replicate 4 (.work 0) ++ tickMoves 2 [] .held .held ⟨.held, .held, .held⟩

theorem packets_counted_attempt : serverSetup.Counts attemptMoves ∧
    (serverSetup.run attemptMoves).metrics.synCounts.total +
      (serverSetup.run attemptMoves).metrics.synOverflowCount.toNat = 1 := by
  have hread : ((serverSetup.run attemptMoves).read.filterMap EventStream.syn.pushed?).length = 1 ∧
      ((serverSetup.run attemptMoves).read.filter CaptureOp.isEvent).length = 1 := by decide +kernel
  have hcounts := packets_counted serverSetup rfl attemptMoves (by rw [hread.2]; decide)
  refine ⟨hcounts, (hcounts.attempts ⟨?_, ?_, ?_, ?_⟩).trans hread.1⟩
  · rfl
  · rfl
  · rfl
  · decide +kernel

end Trafficmon
