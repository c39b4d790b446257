import Trafficmon.Lib.Run
import Trafficmon.Receiver.Metrics

/-!
# One receiver for two signals (`receiver/receiver.go`, `receiver/factory.go`)

The metrics and the logs component of one `Config` share one `trafficmonReceiver`, which counts its
references in `refs` and keeps the cancel function of the engine it started last. It does not know
which component a call comes from, so a `Shutdown` too many takes away the other component's
reference. `SharedReceiver` adds to the receiver what the property is about: which components are started,
and whether a call never returned.
-/

namespace Trafficmon
open Run

/-- `capture.Any` -/
def captureAny : String := "any"

inductive Signal
  | metrics | logs
deriving DecidableEq, Repr

/-- Everything one first `Start` launches on one context. -/
structure Engine where
  id : Nat
  enableLogFeed : Bool
deriving DecidableEq, Repr

/-- `fmt.Errorf("resolve interfaces %q: %w", spec, err)` -/
structure StartError where
  spec : String
  err : String
deriving DecidableEq, Repr

structure TrafficmonReceiver where
  metricsConsumer : Bool := false
  logsConsumer : Bool := false
  refs : Int := 0
  /-- The engine that `cancel` cancels. -/
  cancel : Option Engine := none
  /-- The engines whose context is not cancelled; `wg` waits for all of them. -/
  running : List Engine := []
  launched : Nat := 0
deriving DecidableEq, Repr

namespace TrafficmonReceiver

def start (cfg : Config) (resolveInterfaces : String → Except String Unit) (r : TrafficmonReceiver) :
    TrafficmonReceiver × Except StartError Unit :=
  let r := { r with refs := r.refs + 1 }
  if 1 < r.refs then (r, .ok ())
  else
    let spec := if cfg.interface = "" then captureAny else cfg.interface
    match resolveInterfaces spec with
    | .error err => ({ r with refs := r.refs - 1 }, .error ⟨spec, err⟩)
    | .ok () =>
      let engine : Engine := ⟨r.launched, r.logsConsumer⟩
      ({ r with cancel := some engine, running := r.running ++ [engine], launched := r.launched + 1 }, .ok ())

/-- The flag is `false` when `wg.Wait` waits for an engine that nothing will cancel. -/
def shutdown (r : TrafficmonReceiver) : TrafficmonReceiver × Bool :=
  let r := { r with refs := r.refs - 1 }
  if r.refs ≠ 0 then (r, true)
  else
    match r.cancel with
    | none => (r, true)
    | some engine =>
      let r := { r with running := r.running.erase engine }
      (r, r.running.isEmpty)

def refCount (r : TrafficmonReceiver) : Int := r.refs

end TrafficmonReceiver

structure SharedReceiver where
  receiver : TrafficmonReceiver := {}
  /-- `instances` has an entry for the configuration. -/
  shared : Bool := false
  /-- How often a component was started successfully since it was last shut down. -/
  held : Signal → Nat := fun _ => 0
  hung : Bool := false

inductive SignalCall
  | start (signal : Signal) (resolveInterfaces : String → Except String Unit)
  | shutdown (signal : Signal)

namespace SharedReceiver

/-- `createMetricsReceiver` and `createLogsReceiver`, before any component is shut down. -/
def create (s : SharedReceiver) : Signal → SharedReceiver
  | .metrics => { s with shared := true, receiver := { s.receiver with metricsConsumer := true } }
  | .logs => { s with shared := true, receiver := { s.receiver with logsConsumer := true } }

/-- One call on a component; after one that never returned there is no next. -/
def call (cfg : Config) (s : SharedReceiver) (c : SignalCall) : SharedReceiver :=
  if s.hung then s
  else
    match c with
    | .start signal resolveInterfaces =>
      match s.receiver.start cfg resolveInterfaces with
      | (r, .ok ()) => { s with receiver := r, held := Function.update s.held signal (s.held signal + 1) }
      | (r, .error _) => { s with receiver := r }
    | .shutdown signal =>
      match s.receiver.shutdown with
      | (r, true) =>
        { s with
          receiver := r
          shared := if r.refCount = 0 then false else s.shared
          held := Function.update s.held signal 0 }
      | (r, false) => { s with receiver := r, held := Function.update s.held signal 0, hung := true }

/-- The components `signals` were created and `calls` made on them. -/
def after (cfg : Config) (signals : List Signal) (calls : List SignalCall) : SharedReceiver :=
  calls.foldl (call cfg) (signals.foldl create {})

def Started (s : SharedReceiver) : Prop := ∃ signal, 0 < s.held signal

/-- A `Shutdown` is of a component that was started, and once only, since it was last shut down. -/
def HeldOnce (s : SharedReceiver) : SignalCall → Prop
  | .start _ _ => True
  | .shutdown signal => s.held signal = 1

/-! ### The invariant -/

def holders (s : SharedReceiver) : Nat := s.held .metrics + s.held .logs

structure Inv (s : SharedReceiver) : Prop where
  refs_eq : s.receiver.refs = s.holders
  running_eq : s.receiver.running = if s.receiver.refs = 0 then [] else s.receiver.cancel.toList
  cancel_some : s.receiver.refs ≠ 0 → s.receiver.cancel.isSome
  returned : s.hung = false

variable {cfg : Config} {s : SharedReceiver} {signals : List Signal} {calls : List SignalCall}

theorem started_iff : s.Started ↔ s.holders ≠ 0 := by
  constructor
  · rintro ⟨_ | _, h⟩ <;> simp only [holders] <;> omega
  · intro h
    by_cases hm : 0 < s.held .metrics
    · exact ⟨.metrics, hm⟩
    · exact ⟨.logs, by simp only [holders] at h; omega⟩

theorem inv_create (signals : List Signal) : (signals.foldl create {}).Inv ∧ ¬ (signals.foldl create {}).Started := by
  have hcreate : ∀ s signal, (create s signal).receiver.refs = s.receiver.refs ∧
      (create s signal).receiver.running = s.receiver.running ∧ (create s signal).receiver.cancel = s.receiver.cancel ∧
      (create s signal).held = s.held ∧ (create s signal).hung = s.hung := by
    rintro s (_ | _) <;> exact ⟨rfl, rfl, rfl, rfl, rfl⟩
  induction signals using List.reverseRecOn with
  | nil => exact ⟨⟨rfl, rfl, fun h => absurd rfl h, rfl⟩, by rw [started_iff]; decide⟩
  | append_singleton signals signal ih =>
    obtain ⟨hrefs, hrun, hcancel, hheld, hhung⟩ := hcreate (signals.foldl create {}) signal
    rw [started_iff] at ih ⊢
    rw [List.foldl_append, List.foldl_cons, List.foldl_nil]
    refine ⟨⟨?_, ?_, ?_, ?_⟩, ?_⟩
    · rw [hrefs, holders, hheld]; exact ih.1.refs_eq
    · rw [hrun, hrefs, hcancel]; exact ih.1.running_eq
    · rw [hrefs, hcancel]; exact ih.1.cancel_some
    · rw [hhung]; exact ih.1.returned
    · rw [holders, hheld]; exact ih.2

/-! ### What a call can do -/

def start (s : SharedReceiver) (signal : Signal) (receiver : TrafficmonReceiver) : SharedReceiver :=
  { s with receiver := receiver, held := Function.update s.held signal (s.held signal + 1) }

/-- A `Start` fails, joins a running engine or launches the only one. -/
theorem call_start (cfg : Config) (h : s.Inv) (signal : Signal) (f : String → Except String Unit) :
    s.call cfg (.start signal f) = s ∨
    (s.receiver.refs ≠ 0 ∧
      s.call cfg (.start signal f) = s.start signal { s.receiver with refs := s.receiver.refs + 1 }) ∨
    (s.receiver.refs = 0 ∧ ∃ engine, s.call cfg (.start signal f) = s.start signal
      { s.receiver with
        refs := s.receiver.refs + 1
        cancel := some engine
        running := s.receiver.running ++ [engine]
        launched := s.receiver.launched + 1 }) := by
  have hrefs := h.refs_eq
  have hhung : ¬ s.hung = true := by simp [h.returned]
  simp only [call, if_neg hhung, TrafficmonReceiver.start]
  by_cases h0 : s.receiver.refs = 0
  · rw [if_neg (by omega)]
    cases f (if cfg.interface = "" then captureAny else cfg.interface) with
    | error err =>
      left
      simp only [Int.add_sub_cancel]
    | ok _ => exact .inr (.inr ⟨h0, _, rfl⟩)
  · rw [if_pos (by omega)]
    exact .inr (.inl ⟨h0, rfl⟩)

def stop (s : SharedReceiver) (signal : Signal) (receiver : TrafficmonReceiver) : SharedReceiver :=
  { s with receiver := receiver, held := Function.update s.held signal 0 }

/-- A `Shutdown` leaves the engine running, or stops it with the last reference. -/
theorem call_shutdown (cfg : Config) (h : s.Inv) (signal : Signal) :
    (s.receiver.refs ≠ 1 ∧
      s.call cfg (.shutdown signal) = s.stop signal { s.receiver with refs := s.receiver.refs - 1 }) ∨
    (s.receiver.refs = 1 ∧ s.call cfg (.shutdown signal) =
      { s.stop signal { s.receiver with refs := 0, running := [] } with shared := false }) := by
  have hhung : ¬ s.hung = true := by simp [h.returned]
  simp only [call, if_neg hhung, TrafficmonReceiver.shutdown]
  by_cases h1 : s.receiver.refs = 1
  · right
    have hne : s.receiver.refs ≠ 0 := by omega
    have hrun := h.running_eq
    rw [if_neg hne] at hrun
    obtain ⟨engine, hengine⟩ := Option.isSome_iff_exists.1 (h.cancel_some hne)
    rw [hengine] at hrun
    simp [h1, hengine, hrun, stop, TrafficmonReceiver.refCount]
  · left
    have hsub : s.receiver.refs - 1 ≠ 0 := by omega
    simp [h1, hsub, stop, TrafficmonReceiver.refCount]

@[simp] theorem receiver_start (signal : Signal) (r : TrafficmonReceiver) : (s.start signal r).receiver = r := rfl

@[simp] theorem receiver_stop (signal : Signal) (r : TrafficmonReceiver) : (s.stop signal r).receiver = r := rfl

theorem holders_start (signal : Signal) (r : TrafficmonReceiver) : (s.start signal r).holders = s.holders + 1 := by
  cases signal <;> simp [holders, start, Function.update] <;> omega

theorem holders_stop {signal : Signal} (honce : s.held signal = 1) (r : TrafficmonReceiver) :
    (s.stop signal r).holders + 1 = s.holders := by
  cases signal <;> simp [holders, stop, Function.update, honce, Nat.add_comm]

theorem inv_start (h : s.Inv) (signal : Signal) (f : String → Except String Unit) :
    (s.call cfg (.start signal f)).Inv := by
  have hrefs := h.refs_eq
  obtain hfail | ⟨hne, hjoin⟩ | ⟨h0, engine, hlaunch⟩ := call_start cfg h signal f
  · rw [hfail]
    exact h
  · rw [hjoin]
    have hne' : s.receiver.refs + 1 ≠ 0 := by omega
    refine ⟨?_, ?_, fun _ => h.cancel_some hne, h.returned⟩
    · rw [holders_start, receiver_start, hrefs]
      rfl
    · have hrun := h.running_eq
      rw [if_neg hne] at hrun
      simp only [start, if_neg hne', hrun]
  · rw [hlaunch]
    have hrun := h.running_eq
    rw [if_pos h0] at hrun
    refine ⟨?_, ?_, fun _ => rfl, h.returned⟩
    · rw [holders_start, receiver_start, hrefs]
      rfl
    · simp [start, h0, hrun]

theorem inv_shutdown (h : s.Inv) {signal : Signal} (honce : s.held signal = 1) :
    (s.call cfg (.shutdown signal)).Inv := by
  have hrefs := h.refs_eq
  have hstop := holders_stop honce
  obtain ⟨hne, hleave⟩ | ⟨h1, hlast⟩ := call_shutdown cfg h signal
  · rw [hleave]
    have hpos := hstop s.receiver
    have hne0 : s.receiver.refs ≠ 0 := by omega
    have hne' : s.receiver.refs - 1 ≠ 0 := by omega
    refine ⟨?_, ?_, fun _ => h.cancel_some hne0, h.returned⟩
    · have := hstop { s.receiver with refs := s.receiver.refs - 1 }
      simp only [stop] at this ⊢
      omega
    · have hrun := h.running_eq
      rw [if_neg hne0] at hrun
      simp only [stop, if_neg hne', hrun]
  · rw [hlast]
    refine ⟨?_, by simp [stop], fun hne => absurd rfl hne, h.returned⟩
    have := hstop { s.receiver with refs := 0, running := [] }
    simp only [holders, stop] at this hrefs ⊢
    omega

/-- Once a component was shut down, the entry is there only while some component is started. -/
def Dropped (calls : List SignalCall) (s : SharedReceiver) : Prop :=
  (∃ signal, .shutdown signal ∈ calls) → ¬ s.Started → s.shared = false

/-- The lifecycle in the state that `calls` led to. -/
structure Sound (calls : List SignalCall) (s : SharedReceiver) : Prop where
  returned : s.hung = false
  refs_nonneg : 0 ≤ s.receiver.refs
  one_engine : s.Started → s.receiver.running.length = 1
  no_engine : ¬ s.Started → s.receiver.running = []
  dropped : Dropped calls s

theorem Inv.started_iff (h : s.Inv) : s.Started ↔ s.receiver.refs ≠ 0 := by
  rw [SharedReceiver.started_iff, h.refs_eq]
  omega

theorem Inv.sound (h : s.Inv) (hdropped : Dropped calls s) : Sound calls s where
  returned := h.returned
  refs_nonneg := by
    rw [h.refs_eq]
    omega
  one_engine hstarted := by
    have hne := h.started_iff.1 hstarted
    obtain ⟨engine, hengine⟩ := Option.isSome_iff_exists.1 (h.cancel_some hne)
    rw [h.running_eq, if_neg hne, hengine]
    rfl
  no_engine hnot := by
    rw [h.running_eq, if_pos (not_not.1 fun hne => hnot (h.started_iff.2 hne))]
  dropped := hdropped

theorem dropped_start (h : s.Inv) (hdropped : Dropped calls s) (signal : Signal) (f : String → Except String Unit) :
    Dropped (calls ++ [.start signal f]) (s.call cfg (.start signal f)) := by
  rintro ⟨signal', hmem⟩ hnot
  have hmem' : .shutdown signal' ∈ calls := by simpa using hmem
  have hstarted : ∀ r, (s.start signal r).Started := by
    intro r
    rw [SharedReceiver.started_iff, holders_start]
    omega
  obtain hfail | ⟨-, hjoin⟩ | ⟨-, engine, hlaunch⟩ := call_start cfg h signal f
  · rw [hfail] at hnot ⊢
    exact hdropped ⟨signal', hmem'⟩ hnot
  · rw [hjoin] at hnot
    exact absurd (hstarted _) hnot
  · rw [hlaunch] at hnot
    exact absurd (hstarted _) hnot

theorem dropped_shutdown (h : s.Inv) {signal : Signal} (honce : s.held signal = 1) :
    Dropped (calls ++ [.shutdown signal]) (s.call cfg (.shutdown signal)) := by
  rintro - hnot
  rw [(inv_shutdown h honce).started_iff, not_not] at hnot
  obtain ⟨hne, hleave⟩ | ⟨-, hlast⟩ := call_shutdown cfg h signal
  · rw [hleave, receiver_stop] at hnot
    exact absurd hnot (by dsimp only; omega)
  · rw [hlast]

theorem after_concat (c : SignalCall) : after cfg signals (calls ++ [c]) = (after cfg signals calls).call cfg c := by
  simp [after]

theorem inv_after (hmeets : Meets (call cfg) HeldOnce (signals.foldl create {}) calls) :
    (after cfg signals calls).Inv ∧ Dropped calls (after cfg signals calls) := by
  refine hmeets.history (P := fun calls => (after cfg signals calls).Inv ∧ Dropped calls (after cfg signals calls))
    ⟨(inv_create signals).1, nofun⟩ ?_
  rintro pre c ⟨hinv, hdropped⟩ hc
  simp only [after_concat]
  cases c with
  | start signal f => exact ⟨inv_start hinv signal f, dropped_start hinv hdropped signal f⟩
  | shutdown signal => exact ⟨inv_shutdown hinv hc, dropped_shutdown hinv hc⟩

/-- An engine is launched only when no component holds a reference. -/
theorem running_of_launched (h : s.Inv) (c : SignalCall)
    (hlt : s.receiver.launched < (s.call cfg c).receiver.launched) : s.receiver.running = [] := by
  cases c with
  | start signal f =>
    obtain hfail | ⟨-, hjoin⟩ | ⟨h0, -⟩ := call_start cfg h signal f
    · rw [hfail] at hlt
      exact absurd hlt (Nat.lt_irrefl _)
    · rw [hjoin] at hlt
      exact absurd hlt (Nat.lt_irrefl _)
    · rw [h.running_eq, if_pos h0]
  | shutdown signal =>
    obtain ⟨-, hleave⟩ | ⟨-, hlast⟩ := call_shutdown cfg h signal
    · rw [hleave] at hlt
      exact absurd hlt (Nat.lt_irrefl _)
    · rw [hlast] at hlt
      exact absurd hlt (Nat.lt_irrefl _)

end SharedReceiver

open SharedReceiver in
/-- As long as a component is shut down only when it was started, and once, since its last shutdown:
there is one engine while some component is started and none otherwise, it is launched only when none
is running, and the entry is gone when the last component is. -/
theorem lifecycle_sound (cfg : Config) (signals : List Signal) (calls : List SignalCall)
    (hmeets : Meets (SharedReceiver.call cfg) HeldOnce (signals.foldl create {}) calls) :
    ∀ pre, pre <+: calls → Sound pre (after cfg signals pre) ∧
      ∀ c, pre ++ [c] <+: calls →
        (after cfg signals pre).receiver.launched < (after cfg signals (pre ++ [c])).receiver.launched →
        (after cfg signals pre).receiver.running = [] := by
  intro pre hpre
  obtain ⟨hinv, hdropped⟩ := inv_after (hmeets.of_prefix hpre)
  refine ⟨hinv.sound hdropped, fun c _ hlt => ?_⟩
  rw [SharedReceiver.after_concat] at hlt
  exact running_of_launched hinv c hlt

/-- Both components are started and shut down. -/
theorem startStop_sound : SharedReceiver.Sound
    [.start .metrics fun _ => .ok (), .start .logs fun _ => .ok (), .shutdown .metrics, .shutdown .logs]
    (SharedReceiver.after {} [.metrics, .logs]
      [.start .metrics fun _ => .ok (), .start .logs fun _ => .ok (), .shutdown .metrics, .shutdown .logs]) := by
  refine (lifecycle_sound {} [.metrics, .logs] _ ?_ _ (List.prefix_refl _)).1
  rw [meets_cons, meets_cons, meets_cons, meets_cons]
  exact ⟨trivial, trivial, rfl, rfl, .nil⟩

/-- The first `Start` fails and both components are shut down; started again, each launches an
engine. -/
theorem failedStart_unsound :
    (¬ SharedReceiver.Sound [.start .metrics fun _ => .error "no such interface", .shutdown .metrics]
      (SharedReceiver.after {} [.metrics, .logs]
        [.start .metrics fun _ => .error "no such interface", .shutdown .metrics])) ∧
    (SharedReceiver.after {} [.metrics, .logs]
      [.start .metrics fun _ => .error "no such interface", .shutdown .metrics, .shutdown .logs,
        .start .metrics fun _ => .ok (), .start .logs fun _ => .ok ()]).receiver.running.length = 2 := by
  refine ⟨fun h => ?_, by decide⟩
  exact absurd h.refs_nonneg (by decide)

end Trafficmon
