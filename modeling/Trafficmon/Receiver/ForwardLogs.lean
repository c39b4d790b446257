import Trafficmon.Capture.LogFeed
import Trafficmon.Lib.Run
import Trafficmon.Receiver.Logs

/-!
# The log loop (`trafficmonReceiver.forwardLogs`)

Capture goroutines send to the feed's channels while `forwardLogs` receives from them, batches and
hands batches on. The loop is a state machine with a point for every place where other goroutines
may come in between: at the `select`, after a receive, after a tick and after that tick's flush.
`step` is one move of any of them; the runs are all interleavings. What the channels took is kept
beside the state (`acceptedSYN`, `acceptedDNS`).
-/

namespace Trafficmon

def logBatchCap : Nat := 500

inductive LoopPoint
  | select | appended | ticked | flushed | returned
deriving DecidableEq, Repr

structure ForwardLogs where
  point : LoopPoint := .select
  synAttempts : SynAttemptCache := {}
  pendingSYN : List SYNEvent := []
  pendingDNS : List QueryFinding := []
  lastSYNOverflow : UInt64 := 0
  lastDNSOverflow : UInt64 := 0

/-- What one `ConsumeLogs` call got, with the events it was made from. -/
structure LogBatch where
  syn : List SYNEvent
  dns : List QueryFinding
  logs : Logs

structure LogSystem where
  feed : LogFeed := {}
  loop : ForwardLogs := {}
  consumed : List LogBatch := []
  /-- The counts of the "dropped log events" warnings. -/
  warnings : List (UInt64 × UInt64) := []
  acceptedSYN : List SYNEvent := []
  acceptedDNS : List QueryFinding := []

inductive LogStep
  | sendSYN (e : SYNEvent)
  | sendDNSQuery (q : QueryFinding)
  | cancelled
  | recvSYN
  | recvDNS
  | tick
  /-- The loop goes on from where it is; a flush reads the clock and the published PIDs. -/
  | proceed (now : Int) (pidByLocalAddr : GoMap String Int32)

namespace LogSystem

def pendingCount (s : LogSystem) : Nat := s.loop.pendingSYN.length + s.loop.pendingDNS.length

def flush (s : LogSystem) (now : Int) (pidByLocalAddr : GoMap String Int32) : LogSystem :=
  if s.loop.pendingSYN.length = 0 ∧ s.loop.pendingDNS.length = 0 then s
  else
    let (synAttempts, logs) :=
      buildLogBatch s.loop.pendingSYN s.loop.pendingDNS now s.loop.synAttempts pidByLocalAddr
    { s with
      loop := { s.loop with synAttempts := synAttempts, pendingSYN := [], pendingDNS := [] }
      consumed := s.consumed ++ [⟨s.loop.pendingSYN, s.loop.pendingDNS, logs⟩] }

def goto (s : LogSystem) (point : LoopPoint) : LogSystem := { s with loop := { s.loop with point := point } }

/-- The end of a tick: warns if the overflow counters moved. -/
def checkOverflow (s : LogSystem) : LogSystem :=
  let (syn, dnsQuery) := s.feed.overflow
  if syn ≠ s.loop.lastSYNOverflow ∨ dnsQuery ≠ s.loop.lastDNSOverflow then
    { s with
      warnings := s.warnings ++ [(syn - s.loop.lastSYNOverflow, dnsQuery - s.loop.lastDNSOverflow)]
      loop := { s.loop with lastSYNOverflow := syn, lastDNSOverflow := dnsQuery } }
  else s

/-- One step; one that is not possible where the loop is changes nothing. -/
def step (s : LogSystem) : LogStep → LogSystem
  | .sendSYN e => { s with feed := s.feed.sendSYN e, acceptedSYN := s.feed.syn.accept s.acceptedSYN e }
  | .sendDNSQuery q => { s with feed := s.feed.sendDNSQuery q, acceptedDNS := s.feed.dnsQuery.accept s.acceptedDNS q }
  | .cancelled => if s.loop.point = .select then s.goto .returned else s
  | .recvSYN =>
    if s.loop.point ≠ .select then s
    else
      match s.feed.syn.recv with
      | none => s
      | some (ev, syn) =>
        { s with
          feed := { s.feed with syn := syn }
          loop := { s.loop with pendingSYN := s.loop.pendingSYN ++ [ev], point := .appended } }
  | .recvDNS =>
    if s.loop.point ≠ .select then s
    else
      match s.feed.dnsQuery.recv with
      | none => s
      | some (q, dnsQuery) =>
        { s with
          feed := { s.feed with dnsQuery := dnsQuery }
          loop := { s.loop with pendingDNS := s.loop.pendingDNS ++ [q], point := .appended } }
  | .tick => if s.loop.point = .select then s.goto .ticked else s
  | .proceed now pidByLocalAddr =>
    match s.loop.point with
    | .appended => (if logBatchCap ≤ s.pendingCount then s.flush now pidByLocalAddr else s).goto .select
    | .ticked => (s.flush now pidByLocalAddr).goto .flushed
    | .flushed => s.checkOverflow.goto .select
    | .select => s
    | .returned => s

def run (steps : List LogStep) : LogSystem := steps.foldl step {}

end LogSystem

/-- The events of the `sendSYN` calls among `steps`. -/
def sentSYN (steps : List LogStep) : List SYNEvent :=
  steps.filterMap fun | .sendSYN e => some e | _ => none

def sentDNSQuery (steps : List LogStep) : List QueryFinding :=
  steps.filterMap fun | .sendDNSQuery q => some q | _ => none

/-! ### The invariant -/

/-- Where the events of `steps` are in `s`. -/
structure LogSystem.Conserves (steps : List LogStep) (s : LogSystem) : Prop where
  syn : Chan.Ledger (sentSYN steps) s.acceptedSYN (s.consumed.flatMap LogBatch.syn) s.loop.pendingSYN s.feed.syn
    s.feed.synOverflow
  dns : Chan.Ledger (sentDNSQuery steps) s.acceptedDNS (s.consumed.flatMap LogBatch.dns) s.loop.pendingDNS
    s.feed.dnsQuery s.feed.dnsQueryOverflow
  batches : ∀ b ∈ s.consumed, b.logs.Shows b.syn b.dns ∧ b.logs.records.length ≤ logBatchCap
  pending_le : s.pendingCount ≤ logBatchCap
  pending_lt : s.loop.point ≠ .appended → s.pendingCount < logBatchCap

namespace LogSystem.Conserves
variable {steps : List LogStep} {s : LogSystem}

/-- A step that sends nothing has only to keep the state's side. -/
theorem of_silent {st : LogStep} (h : s.Conserves steps) (hsyn : sentSYN [st] = []) (hdns : sentDNSQuery [st] = []) :
    s.Conserves (steps ++ [st]) := by
  have hsyn' : sentSYN (steps ++ [st]) = sentSYN steps := by
    rw [sentSYN, List.filterMap_append]
    exact (congrArg _ hsyn).trans (List.append_nil _)
  have hdns' : sentDNSQuery (steps ++ [st]) = sentDNSQuery steps := by
    rw [sentDNSQuery, List.filterMap_append]
    exact (congrArg _ hdns).trans (List.append_nil _)
  exact ⟨hsyn' ▸ h.syn, hdns' ▸ h.dns, h.batches, h.pending_le, h.pending_lt⟩

theorem goto (h : s.Conserves steps) {point : LoopPoint} (hlt : point ≠ .appended → s.pendingCount < logBatchCap) :
    (s.goto point).Conserves steps := ⟨h.syn, h.dns, h.batches, h.pending_le, hlt⟩

theorem flush (h : s.Conserves steps) (now : Int) (pids : GoMap String Int32) :
    (s.flush now pids).Conserves steps ∧ (s.flush now pids).pendingCount = 0 := by
  unfold LogSystem.flush
  split
  · rename_i h0
    exact ⟨h, by simp [pendingCount, h0.1, h0.2]⟩
  · have hshows := buildLogBatch_shows s.loop.pendingSYN s.loop.pendingDNS now s.loop.synAttempts pids
    refine ⟨⟨?_, ?_, ?_, Nat.zero_le _, fun _ => (by decide : 0 < logBatchCap)⟩, rfl⟩
    · rw [List.flatMap_append, List.flatMap_singleton]
      exact h.syn.flush
    · rw [List.flatMap_append, List.flatMap_singleton]
      exact h.dns.flush
    · intro b hb
      rcases List.mem_append.1 hb with hb | hb
      · exact h.batches b hb
      · rw [List.mem_singleton.1 hb]
        refine ⟨hshows, ?_⟩
        rw [hshows.length]
        exact h.pending_le

theorem sendSYN (h : s.Conserves steps) (e : SYNEvent) : (s.step (.sendSYN e)).Conserves (steps ++ [.sendSYN e]) := by
  have hsyn : sentSYN (steps ++ [.sendSYN e]) = sentSYN steps ++ [e] := by simp [sentSYN]
  have hdns : sentDNSQuery (steps ++ [.sendSYN e]) = sentDNSQuery steps := by simp [sentDNSQuery]
  exact ⟨hsyn ▸ h.syn.countingSend e, hdns ▸ h.dns, h.batches, h.pending_le, h.pending_lt⟩

theorem sendDNSQuery (h : s.Conserves steps) (q : QueryFinding) :
    (s.step (.sendDNSQuery q)).Conserves (steps ++ [.sendDNSQuery q]) := by
  have hsyn : sentSYN (steps ++ [.sendDNSQuery q]) = sentSYN steps := by simp [sentSYN]
  have hdns : Trafficmon.sentDNSQuery (steps ++ [.sendDNSQuery q]) = Trafficmon.sentDNSQuery steps ++ [q] := by
    simp [Trafficmon.sentDNSQuery]
  exact ⟨hsyn ▸ h.syn, hdns ▸ h.dns.countingSend q, h.batches, h.pending_le, h.pending_lt⟩

/-- At the `select` there is room for one more. -/
theorem room (h : s.Conserves steps) (hsel : ¬ s.loop.point ≠ .select) : s.pendingCount + 1 ≤ logBatchCap := by
  rw [not_not] at hsel
  exact h.pending_lt (by rw [hsel]; decide)

theorem recvSYN (h : s.Conserves steps) : (s.step .recvSYN).Conserves steps := by
  simp only [LogSystem.step]
  split
  · exact h
  · have hroom := h.room ‹_›
    cases hr : s.feed.syn.recv with
    | none => exact h
    | some r =>
      obtain ⟨ev, syn⟩ := r
      refine ⟨h.syn.recv hr, h.dns, h.batches, ?_, fun hne => absurd rfl hne⟩
      simp only [pendingCount, List.length_append, List.length_singleton] at hroom ⊢
      omega

theorem recvDNS (h : s.Conserves steps) : (s.step .recvDNS).Conserves steps := by
  simp only [LogSystem.step]
  split
  · exact h
  · have hroom := h.room ‹_›
    cases hr : s.feed.dnsQuery.recv with
    | none => exact h
    | some r =>
      obtain ⟨q, dnsQuery⟩ := r
      refine ⟨h.syn, h.dns.recv hr, h.batches, ?_, fun hne => absurd rfl hne⟩
      simp only [pendingCount, List.length_append, List.length_singleton] at hroom ⊢
      omega

theorem checkOverflow_point (s : LogSystem) : s.checkOverflow.loop.point = s.loop.point := by
  unfold LogSystem.checkOverflow
  dsimp only
  split <;> rfl

theorem checkOverflow (h : s.Conserves steps) : s.checkOverflow.Conserves steps := by
  unfold LogSystem.checkOverflow
  dsimp only
  split
  · exact ⟨h.syn, h.dns, h.batches, h.pending_le, h.pending_lt⟩
  · exact h

/-- The loop leaves the `select` without having received anything. -/
theorem leave (h : s.Conserves steps) (point : LoopPoint) :
    (if s.loop.point = .select then s.goto point else s).Conserves steps := by
  split
  · rename_i hsel
    exact h.goto fun _ => h.pending_lt (by rw [hsel]; decide)
  · exact h

theorem proceed (h : s.Conserves steps) (now : Int) (pids : GoMap String Int32) :
    (s.step (.proceed now pids)).Conserves steps := by
  obtain ⟨hflush, hempty⟩ := h.flush now pids
  have hroom : ∀ point : LoopPoint, point ≠ .appended → (s.flush now pids).pendingCount < logBatchCap := by
    intro _ _
    rw [hempty]
    decide
  simp only [LogSystem.step]
  split
  · split
    · exact hflush.goto (hroom _)
    · exact h.goto fun _ => by omega
  · exact hflush.goto (hroom _)
  · rename_i hpoint
    have hcheck := h.checkOverflow
    refine hcheck.goto fun _ => hcheck.pending_lt ?_
    rw [checkOverflow_point, hpoint]
    decide
  · exact h
  · exact h

theorem step (h : s.Conserves steps) (st : LogStep) : (s.step st).Conserves (steps ++ [st]) := by
  cases st with
  | sendSYN e => exact h.sendSYN e
  | sendDNSQuery q => exact h.sendDNSQuery q
  | cancelled => exact (h.leave .returned).of_silent rfl rfl
  | recvSYN => exact h.recvSYN.of_silent rfl rfl
  | recvDNS => exact h.recvDNS.of_silent rfl rfl
  | tick => exact (h.leave .ticked).of_silent rfl rfl
  | proceed now pids => exact (h.proceed now pids).of_silent rfl rfl

end LogSystem.Conserves

/-- After any interleaving: of each stream, what its channel took is in the batches handed on, the
pending slice and the channel, in that order; what it did not take is counted; a batch has a record
for each of its events and at most `logBatchCap` of them, and between two turns of the loop fewer are
pending. -/
theorem logFeed_conserves (steps : List LogStep) : (LogSystem.run steps).Conserves steps := by
  induction steps using List.reverseRecOn with
  | nil => exact ⟨.nil, .nil, nofun, Nat.zero_le _, fun _ => by decide⟩
  | append_singleton steps st ih =>
    rw [LogSystem.run, List.foldl_append, List.foldl_cons, List.foldl_nil]
    exact ih.step st

end Trafficmon
