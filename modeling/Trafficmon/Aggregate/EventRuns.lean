import Trafficmon.Aggregate.Join
import Trafficmon.Lib.DropOldest

/-!
# Events over a run (`capture/synevents.go`, `rstevents.go`, `dns_queries.go`, `Aggregator.Refresh`)

The capture goroutines push onto the rings while `Refresh` drains them; every call holds the ring's
lock, so a run is any interleaving of pushes and drains. `rings_deliver_once`: what is drained is what
was pushed, in order and once, less what the capacity drops.
-/

namespace Trafficmon
open DropOldest

namespace EventRing
variable {α : Type}

/-- A call on a ring, with what the drains returned so far. -/
def call (s : EventRing α × List (List α)) : DropOldest.Call α → EventRing α × List (List α)
  | .push e => (s.1.push e, s.2)
  | .drain =>
    let (r, items) := s.1.drain
    (r, s.2 ++ [items])

end EventRing

/-- What the drains of a run returned. -/
structure DeliversOnce {α : Type} (calls : List (DropOldest.Call α)) (drained : List (List α)) : Prop where
  /-- Each returns the last `eventRingCapacity` of the events pushed since the one before. -/
  last : List.Forall₂ (fun es out => out <:+ es ∧ out.length = min es.length eventRingCapacity)
    (pushedBetween calls) drained
  subsequence : drained.flatten.Sublist (pushes calls)
  /-- An event that is missing was followed by `eventRingCapacity` others before the drain. -/
  missing : List.Forall₂ (fun es out => ∀ lost, es = lost ++ out → ∀ pre e post, lost = pre ++ e :: post →
    eventRingCapacity ≤ (post ++ out).length) (pushedBetween calls) drained

section Ring
variable {α : Type}

/-- The library's queue with the ring's capacity. -/
theorem call_eq (s : EventRing α × List (List α)) (c : DropOldest.Call α) :
    EventRing.call s c = (⟨(DropOldest.call eventRingCapacity (s.1.items, s.2) c).1⟩,
      (DropOldest.call eventRingCapacity (s.1.items, s.2) c).2) := by
  cases c <;> rfl

theorem run_items (calls : List (DropOldest.Call α)) (s : EventRing α × List (List α)) :
    ((calls.foldl EventRing.call s).1.items, (calls.foldl EventRing.call s).2) =
      calls.foldl (DropOldest.call eventRingCapacity) (s.1.items, s.2) := by
  induction calls generalizing s with
  | nil => rfl
  | cons c calls ih =>
    rw [List.foldl_cons, ih, call_eq]
    rfl

theorem drained_eq (calls : List (DropOldest.Call α)) :
    (calls.foldl EventRing.call ({}, [])).2 = (pushedBetween calls).map (·.rtake eventRingCapacity) := by
  have hrun := run_items calls ({}, [])
  rw [run_eq (by decide)] at hrun
  exact congrArg Prod.snd hrun

theorem ring_delivers (calls : List (DropOldest.Call α)) :
    DeliversOnce calls (calls.foldl EventRing.call ({}, [])).2 := by
  rw [drained_eq]
  refine ⟨?_, ?_, ?_⟩
  · rw [List.forall₂_map_right_iff, List.forall₂_same]
    exact fun es _ => ⟨rtake_suffix _ _, length_rtake _ _⟩
  · rw [pushes_eq]
    exact (flatten_rtake_sublist _ _).trans (List.sublist_append_left _ _)
  · rw [List.forall₂_map_right_iff, List.forall₂_same]
    exact fun es _ lost hlost pre e post hpre => lost_of_rtake hlost hpre

theorem delivers_of_run {calls : List (DropOldest.Call α)} {r : EventRing α} {drained : List (List α)}
    (h : (r, drained) = calls.foldl EventRing.call ({}, [])) : DeliversOnce calls drained := by
  have hring := ring_delivers calls
  rw [← h] at hring
  exact hring

end Ring

/-! ### The capturer's rings -/

/-- A call on one of the rings: a push by an interface's goroutine, or a drain by `Refresh`. -/
inductive RingStep
  | syn (c : DropOldest.Call SYNEvent)
  | rst (c : DropOldest.Call RSTEvent)
  | dnsQuery (c : DropOldest.Call QueryFinding)

namespace RingStep

def syn? : RingStep → Option (DropOldest.Call SYNEvent)
  | syn c => some c
  | _ => none

def rst? : RingStep → Option (DropOldest.Call RSTEvent)
  | rst c => some c
  | _ => none

def dnsQuery? : RingStep → Option (DropOldest.Call QueryFinding)
  | dnsQuery c => some c
  | _ => none

end RingStep

/-- A capturer, and what was drained from its rings. -/
structure RingRun where
  capturer : Capturer
  synDrained : List (List SYNEvent) := []
  rstDrained : List (List RSTEvent) := []
  dnsQueriesDrained : List (List QueryFinding) := []

def RingRun.step (s : RingRun) : RingStep → RingRun
  | .syn c =>
    let (ring, drained) := EventRing.call (s.capturer.synEvents, s.synDrained) c
    { s with capturer := { s.capturer with synEvents := ring }, synDrained := drained }
  | .rst c =>
    let (ring, drained) := EventRing.call (s.capturer.rstEvents, s.rstDrained) c
    { s with capturer := { s.capturer with rstEvents := ring }, rstDrained := drained }
  | .dnsQuery c =>
    let (ring, drained) := EventRing.call (s.capturer.dnsQueries, s.dnsQueriesDrained) c
    { s with capturer := { s.capturer with dnsQueries := ring }, dnsQueriesDrained := drained }

/-- The capturer before the first event. -/
def Capturer.ringsEmpty (c : Capturer) : Capturer := { c with synEvents := {}, rstEvents := {}, dnsQueries := {} }

/-- Calls on one ring do not touch the others. -/
theorem run_projections (steps : List RingStep) (s : RingRun) :
    ((steps.foldl RingRun.step s).capturer.synEvents, (steps.foldl RingRun.step s).synDrained) =
        (steps.filterMap RingStep.syn?).foldl EventRing.call (s.capturer.synEvents, s.synDrained) ∧
      ((steps.foldl RingRun.step s).capturer.rstEvents, (steps.foldl RingRun.step s).rstDrained) =
        (steps.filterMap RingStep.rst?).foldl EventRing.call (s.capturer.rstEvents, s.rstDrained) ∧
      ((steps.foldl RingRun.step s).capturer.dnsQueries, (steps.foldl RingRun.step s).dnsQueriesDrained) =
        (steps.filterMap RingStep.dnsQuery?).foldl EventRing.call (s.capturer.dnsQueries, s.dnsQueriesDrained) := by
  induction steps generalizing s with
  | nil => exact ⟨rfl, rfl, rfl⟩
  | cons step steps ih =>
    rw [List.foldl_cons]
    obtain ⟨hsyn, hrst, hdns⟩ := ih (s.step step)
    rw [hsyn, hrst, hdns]
    cases step <;> exact ⟨rfl, rfl, rfl⟩

/-- What `Refresh` does to the rings: a drain of each. -/
def refreshSteps : List RingStep := [.syn .drain, .rst .drain, .dnsQuery .drain]

def RefreshDrains : Prop :=
  ∀ (a : Aggregator) (c : Capturer) (conns : List Connection) (o₁ o₂ : MapOrder FlowKey FlowStats) (now : Int),
    let (_, c', snap) := a.refresh c conns o₁ o₂ now
    let s := refreshSteps.foldl RingRun.step { capturer := c }
    (c'.synEvents, [snap.synEvents]) = (s.capturer.synEvents, s.synDrained) ∧
      (c'.rstEvents, [snap.rstEvents]) = (s.capturer.rstEvents, s.rstDrained) ∧
      (c'.dnsQueries, [snap.dnsQueries]) = (s.capturer.dnsQueries, s.dnsQueriesDrained)

/-- On a ring alone, and on the three rings of a capturer under any interleaving of pushes and drains, of which a
`Refresh` does one on each. -/
theorem rings_deliver_once :
    (∀ (α : Type) (calls : List (DropOldest.Call α)), DeliversOnce calls (calls.foldl EventRing.call ({}, [])).2) ∧
    (∀ (c : Capturer) (steps : List RingStep),
      let s := steps.foldl RingRun.step { capturer := c.ringsEmpty }
      DeliversOnce (steps.filterMap RingStep.syn?) s.synDrained ∧
        DeliversOnce (steps.filterMap RingStep.rst?) s.rstDrained ∧
        DeliversOnce (steps.filterMap RingStep.dnsQuery?) s.dnsQueriesDrained) ∧
    RefreshDrains := by
  refine ⟨fun α calls => ring_delivers calls, fun c steps => ?_, fun a c conns o₁ o₂ now => ⟨rfl, rfl, rfl⟩⟩
  obtain ⟨hsyn, hrst, hdns⟩ := run_projections steps { capturer := c.ringsEmpty }
  exact ⟨delivers_of_run hsyn, delivers_of_run hrst, delivers_of_run hdns⟩

end Trafficmon
