import Trafficmon.Procinfo.EbpfInv

/-!
# Two rings, one table

`EBPFSource.Run` drains the connect ring and the sockstate ring in two goroutines. Each ring keeps
its own order; nothing orders one against the other, because the decoders drop the kernel's
timestamp. A `Delivery` is one kernel event on its ring, `Consumes hist handled` says that `handled`
is an order in which `handleEvent` may get to see the sockets' histories, and `noEntry_iff` that a
socket whose history ends in a terminal state is gone from the table iff the last of its events to
be *handled*, when it came over the other ring, is terminal as well.
-/

namespace Trafficmon
open EBPFSource

structure KernelEvent where
  timestampNs : UInt64
  skaddr : UInt64
  pid : UInt32
  proto : UInt8
  ipVer : UInt8
  localPort : UInt16
  remotePort : UInt16
  localAddr : Vector UInt8 16
  remoteAddr : Vector UInt8 16
  newState : UInt32
  source : UInt8
deriving DecidableEq, Repr

/-- The decoders keep everything but the timestamp, the protocol and the source. -/
def KernelEvent.decode (e : KernelEvent) : EbpfEvent :=
  ⟨e.skaddr, e.pid, e.ipVer, e.localPort, e.remotePort, e.localAddr, e.remoteAddr, e.newState⟩

def decodeFentryEvent : KernelEvent → EbpfEvent := KernelEvent.decode
def decodeSockstateEvent : KernelEvent → EbpfEvent := KernelEvent.decode

inductive Ring
  | connect | sockstate
deriving DecidableEq, Repr

structure Delivery where
  ring : Ring
  event : KernelEvent
deriving DecidableEq, Repr

namespace Delivery

def decode (d : Delivery) : EbpfEvent :=
  match d.ring with
  | .connect => decodeFentryEvent d.event
  | .sockstate => decodeSockstateEvent d.event

theorem decode_skAddr (d : Delivery) : d.decode.skAddr = d.event.skaddr := by
  unfold decode; split <;> rfl

end Delivery

/-- `handled` takes every socket's events off each ring in the order the ring carries them. -/
def Consumes (hist : UInt64 → List Delivery) (handled : List Delivery) : Prop :=
  ∀ sk r, handled.filter (fun d => d.event.skaddr = sk ∧ d.ring = r) = (hist sk).filter fun d => d.ring = r

def lastHandled (handled : List Delivery) (sk : UInt64) : Option Delivery :=
  (handled.filter fun d => d.event.skaddr = sk ∧ d.decode.key.isSome).getLast?

/-- `sk` is not in `skToKey`, and every tuple in `conns` is another socket's. -/
def NoEntry (s : EBPFSource) (sk : UInt64) : Prop :=
  s.skToKey.lookup sk = none ∧
    ∀ k c, s.conns.lookup k = some c → ∃ sk', sk' ≠ sk ∧ s.skToKey.lookup sk' = some k

variable {processName : Nat → Int32 → Option String} {handled : List Delivery} {sk : UInt64}

theorem latest_map_decode : latest (handled.map Delivery.decode) sk = (lastHandled handled sk).map Delivery.decode := by
  simp only [latest, lastHandled, List.filter_map, List.getLast?_map]
  congr 3
  funext d
  simp [Delivery.decode_skAddr]

theorem noEntry_iff_skToKey (evs : List EbpfEvent) :
    NoEntry (handleEvents processName evs) sk ↔ (handleEvents processName evs).skToKey.lookup sk = none := by
  refine ⟨fun h => h.1, fun h => ⟨h, fun k c hc => ?_⟩⟩
  obtain ⟨sk', hsk'⟩ := owned_handleEvents evs k c hc
  exact ⟨sk', fun he => (by rw [he, h] at hsk'; cases hsk'), hsk'⟩

theorem noEntry_iff_lastHandled : NoEntry (handleEvents processName (handled.map Delivery.decode)) sk ↔
    ∀ d, lastHandled handled sk = some d → d.decode.terminal = true := by
  rw [noEntry_iff_skToKey, skToKey_eq, latest_map_decode]
  cases hd : lastHandled handled sk with
  | none => simp
  | some d =>
    have hk : d.decode.key.isSome := by
      have hmem := (List.mem_filter.1 (List.mem_of_getLast? hd)).2
      exact (of_decide_eq_true hmem).2
    cases ht : d.decode.terminal with
    | true => simp [ht]
    | false => simpa [ht, Option.isSome_iff_exists, Option.ne_none_iff_exists'] using hk

theorem getLast?_filter {α : Type*} {l : List α} {a : α} {p : α → Bool} (h : l.getLast? = some a)
    (hp : p a = true) : (l.filter p).getLast? = some a := by
  obtain ⟨l', rfl⟩ := List.getLast?_eq_some_iff.1 h
  simp [hp]

/-- A socket's events on one ring are handled in order, so the last one handled from the ring that
carried the end of the history *is* the end of the history. -/
theorem Consumes.lastHandled_eq {hist : UInt64 → List Delivery} {last d : Delivery} (h : Consumes hist handled)
    (hlast : (hist sk).getLast? = some last) (hdec : last.decode.key.isSome)
    (hd : lastHandled handled sk = some d) (hr : d.ring = last.ring) : d = last := by
  have h1 := getLast?_filter (p := fun x => x.ring = last.ring) hd (by simpa using hr)
  have h2 := getLast?_filter (p := fun x => x.ring = last.ring) hlast (by simp)
  rw [← h sk last.ring] at h2
  have h3 := getLast?_filter (p := fun x => x.decode.key.isSome) h2 hdec
  rw [List.filter_filter] at h1 h3
  refine Option.some.inj (h1.symm.trans (Eq.trans ?_ h3))
  congr 2
  funext x
  simp only [Bool.decide_and, Bool.decide_eq_true]
  ac_rfl

/-- Once both rings are drained, a socket whose history ends in a terminal event is gone from the
table iff the last of its events to be handled is terminal too, unless it came from the ring of that
(decodable) end, when it is the end itself. -/
theorem noEntry_iff (processName : Nat → Int32 → Option String) (hist : UInt64 → List Delivery)
    (handled : List Delivery) (h : Consumes hist handled) (sk : UInt64) (last : Delivery)
    (hlast : (hist sk).getLast? = some last) (hterm : last.decode.terminal = true) :
    NoEntry (handleEvents processName (handled.map Delivery.decode)) sk ↔
      ∀ d, lastHandled handled sk = some d → (last.decode.key.isSome → d.ring ≠ last.ring) →
        d.decode.terminal = true := by
  rw [noEntry_iff_lastHandled]
  refine ⟨fun h d hd _ => h d hd, fun hcond d hd => ?_⟩
  by_cases hdec : last.decode.key.isSome
  · by_cases hr : d.ring = last.ring
    · rw [h.lastHandled_eq hlast hdec hd hr]
      exact hterm
    · exact hcond d hd fun _ => hr
  · exact hcond d hd fun h => absurd h hdec

/-- Socket 1 connects, which the connect ring reports, -/
def connected : Delivery := ⟨.connect, ⟨10, 1, 100, 0, 4, 40000, 443, raw4 10 0 0 1, raw4 1 1 1 1, 2, 0⟩⟩

/-- and later closes, which the sockstate ring reports. -/
def reset : Delivery := ⟨.sockstate, ⟨20, 1, 100, 0, 4, 40000, 443, raw4 10 0 0 1, raw4 1 1 1 1, 7, 1⟩⟩

def oneSocket (sk : UInt64) : List Delivery := if sk = 1 then [connected, reset] else []

theorem oneSocket_consumes : Consumes oneSocket [connected, reset] ∧ Consumes oneSocket [reset, connected] := by
  refine ⟨fun sk r => ?_, fun sk r => ?_⟩ <;> by_cases h : sk = 1
  · subst h; cases r <;> decide
  · simp [oneSocket, h, Ne.symm h, connected, reset]
  · subst h; cases r <;> decide
  · simp [oneSocket, h, Ne.symm h, connected, reset]

theorem inOrder_noEntry :
    NoEntry (handleEvents (fun _ _ => none) ([connected, reset].map Delivery.decode)) 1 :=
  (noEntry_iff _ oneSocket _ oneSocket_consumes.1 1 reset rfl (by decide)).2 fun d hd hr => by
    obtain rfl : reset = d := Option.some.inj hd
    exact absurd rfl (hr rfl)

/-- The close is handled first: the connect then puts the socket into the table for good. -/
theorem overtaken_keeps_entry : Consumes oneSocket [reset, connected] ∧ (oneSocket 1).getLast? = some reset ∧
    reset.decode.terminal = true ∧
    ¬ NoEntry (handleEvents (fun _ _ => none) ([reset, connected].map Delivery.decode)) 1 := by
  refine ⟨oneSocket_consumes.2, rfl, by decide, fun h => ?_⟩
  exact absurd h.1 (by decide)

end Trafficmon
