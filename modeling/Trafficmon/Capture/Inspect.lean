import Trafficmon.Capture.Decode
import Trafficmon.Dpi.HostnameCache
import Trafficmon.Dpi.Inspector

/-!
# Hostname detection (`capture/dpi_dispatch.go`)

`inspect` shows a flow's packets to the inspectors until one of them has looked at a whole record or
the flow has turned out to carry none. The state it works on is the flow's `ByteCounter` and the
hostname cache; `calls` is what it has asked the inspectors and the assembler so far. `inspect_cases`
says what one packet can do; everything after it goes by these cases.
-/

namespace Trafficmon

/-- What `gopacket.NewPacket` finds in a packet: the TCP layer's sequence number and payload, the
UDP layer's payload. -/
structure PacketLayers where
  tcp : Option (UInt32 × List UInt8) := none
  udp : Option (List UInt8) := none
deriving DecidableEq, Repr

abbrev NewPacket := List UInt8 → LinkType → PacketLayers

def extractPayload (newPacket : NewPacket) (data : List UInt8) (linkType : LinkType) (isTCP : Bool) :
    Option (UInt32 × List UInt8) :=
  let packet := newPacket data linkType
  if isTCP then packet.tcp else packet.udp.map fun payload => (0, payload)

def minPayloadDatagramLen : Int := 120

structure InspectInput where
  data : List UInt8
  info : PacketInfo
  inbound : Bool
  linkType : LinkType
  ts : Int
deriving DecidableEq, Repr

/-- A call of an inspector, or of the assembler on its behalf. -/
inductive DpiCall
  | candidate (insp : Inspector)
  | feed (insp : Inspector) (outbound : Bool) (seq : UInt32) (payload : List UInt8)
  | inspect (insp : Inspector) (payload : List UInt8)

def DpiCall.inspector : DpiCall → Inspector
  | .candidate insp => insp
  | .feed insp _ _ _ => insp
  | .inspect insp _ => insp

/-- What the assembler was fed came from a packet of this direction. -/
def DpiCall.FedBy (outbound : Bool) : DpiCall → Prop
  | .feed _ dir _ _ => dir = outbound
  | _ => True

/-- Anyone may be asked whether it wants a packet; all else is for `insp`. -/
def DpiCall.AsksOr (call : DpiCall) (insp : Inspector) : Prop :=
  match call with
  | .candidate _ => True
  | _ => call.inspector = insp

def DpiCall.isInspect : DpiCall → Bool
  | .inspect _ _ => true
  | _ => false

structure Inspection where
  ctr : ByteCounter
  hostnameCache : HostnameCache
  calls : List DpiCall := []

namespace InspectInput

def isTCP (inp : InspectInput) : Bool := inp.info.proto = .tcp

def extract (newPacket : NewPacket) (inp : InspectInput) : Option (UInt32 × List UInt8) :=
  extractPayload newPacket inp.data inp.linkType inp.isTCP

def cand (inp : InspectInput) : CandidatePacket where
  isTCP := inp.isTCP
  srcPort := inp.info.srcPort
  dstPort := inp.info.dstPort
  outbound := ! inp.inbound
  datagramLen := inp.info.bytes.toInt64.toInt

end InspectInput

namespace Inspection

def log (s : Inspection) (call : DpiCall) : Inspection := { s with calls := s.calls ++ [call] }

def mark (s : Inspection) : Inspection := { s with ctr := s.ctr.markHostnameAttempted }

/-- Asks `insp` for a hostname and keeps what it finds. -/
def ask (s : Inspection) (insp : Inspector) (payload : List UInt8) (remote : Addr) (ts : Int) : Inspection :=
  let s := s.log (.inspect insp payload)
  match insp.inspect payload with
  | some host =>
    { s with ctr := s.ctr.setHostname host, hostnameCache := s.hostnameCache.put remote.string host ts }
  | none => s

/-- The end of the loop's body, with an inspector that takes the packet. -/
def examine (s : Inspection) (insp : Inspector) (inp : InspectInput) (remote : Addr) (seq : UInt32)
    (payload : List UInt8) : Inspection :=
  if ¬ inp.isTCP then s.mark.ask insp payload remote inp.ts
  else
    let (ctr, ready, done) := s.ctr.addHelloSegment insp.name seq payload
    let s := { s with ctr := ctr }.log (.feed insp (! inp.inbound) seq payload)
    let s :=
      match ready with
      | some ready => s.ask insp ready remote inp.ts
      | none => s
    if done then s.mark else s

/-- The loop over the inspectors; `want` is the one a reassembly is under way for. -/
def offer (s : Inspection) (want : Option String) (inp : InspectInput) (remote : Addr) (seq : UInt32)
    (payload : List UInt8) : List Inspector → Inspection
  | [] => if want.isNone then s.mark else s
  | insp :: rest =>
    match want with
    | some name =>
      if inp.inbound ∨ insp.name ≠ name then s.offer want inp remote seq payload rest
      else s.examine insp inp remote seq payload
    | none =>
      let s := s.log (.candidate insp)
      if ¬ insp.candidate { inp.cand with payload := payload } then s.offer want inp remote seq payload rest
      else s.examine insp inp remote seq payload

end Inspection

def Inspection.inspect (inspectors : List Inspector) (newPacket : NewPacket) (s : Inspection)
    (inp : InspectInput) (remote : Addr) : Inspection :=
  if inspectors.length = 0 ∨ ¬ s.ctr.needsHostnameInspection then s
  else
    let inProgress := inp.isTCP && s.ctr.helloInProgress
    let want := if inProgress then some s.ctr.helloInspector else none
    if ¬ inProgress ∧ inp.isTCP ∧ inp.cand.datagramLen ≤ minPayloadDatagramLen then s
    else
      match inp.extract newPacket with
      | none => if inProgress then s.mark else s
      | some (seq, payload) => s.offer want inp remote seq payload inspectors

/-! ### What one packet can do -/

namespace Inspection

/-- `s` after the inspectors `asked` were asked whether they want the packet. -/
def askedAll (s : Inspection) (asked : List Inspector) : Inspection :=
  { s with calls := s.calls ++ asked.map .candidate }

section Cases
variable {inspectors : List Inspector} {newPacket : NewPacket} {s : Inspection} {inp : InspectInput} {remote : Addr}
  {seq : UInt32} {payload : List UInt8}

/-- A reassembly under way takes outbound packets only, for its own inspector only. -/
theorem offer_some (name : String) (insps : List Inspector) :
    s.offer (some name) inp remote seq payload insps = s ∨
    ∃ insp ∈ insps, insp.name = name ∧ inp.inbound = false ∧
      s.offer (some name) inp remote seq payload insps = s.examine insp inp remote seq payload := by
  induction insps with
  | nil => exact .inl rfl
  | cons insp rest ih =>
    simp only [offer]
    split
    · rcases ih with h | ⟨insp', hmem, hown⟩
      · exact .inl h
      · exact .inr ⟨insp', List.mem_cons_of_mem _ hmem, hown⟩
    · rename_i hown
      simp only [not_or, Bool.not_eq_true, not_not] at hown
      exact .inr ⟨insp, List.mem_cons_self, hown.2, hown.1, rfl⟩

theorem offer_none (insps : List Inspector) (s : Inspection) :
    (∃ asked, s.offer none inp remote seq payload insps = (s.askedAll asked).mark) ∨
    ∃ asked, ∃ insp ∈ insps,
      s.offer none inp remote seq payload insps = (s.askedAll asked).examine insp inp remote seq payload := by
  induction insps generalizing s with
  | nil => exact .inl ⟨[], by simp [offer, askedAll]⟩
  | cons insp rest ih =>
    have hlog : ∀ asked, (s.log (.candidate insp)).askedAll asked = s.askedAll (insp :: asked) := by
      intro asked
      simp [log, askedAll]
    simp only [offer]
    split
    · rcases ih (s.log (.candidate insp)) with ⟨asked, h⟩ | ⟨asked, insp', hmem, h⟩
      · exact .inl ⟨insp :: asked, by rw [h, hlog]⟩
      · exact .inr ⟨insp :: asked, insp', List.mem_cons_of_mem _ hmem, by rw [h, hlog]⟩
    · exact .inr ⟨[insp], insp, List.mem_cons_self, rfl⟩

/-- One packet is passed over, ends the search unseen, or is examined by one inspector. Under way, a
reassembly asks nobody and is left only to its own inspector and outbound packets. -/
theorem inspect_cases (inspectors : List Inspector) (newPacket : NewPacket) (s : Inspection) (inp : InspectInput)
    (remote : Addr) :
    s.inspect inspectors newPacket inp remote = s ∨
    (s.ctr.needsHostnameInspection = true ∧ ∃ asked,
      (inp.isTCP = true → s.ctr.helloInProgress = true → asked = []) ∧
      s.inspect inspectors newPacket inp remote = (s.askedAll asked).mark) ∨
    (s.ctr.needsHostnameInspection = true ∧ ∃ asked, ∃ insp ∈ inspectors, ∃ seq payload,
      (inp.isTCP = true → s.ctr.helloInProgress = true →
        asked = [] ∧ insp.name = s.ctr.helloInspector ∧ inp.inbound = false) ∧
      s.inspect inspectors newPacket inp remote = (s.askedAll asked).examine insp inp remote seq payload) := by
  unfold inspect
  split
  · exact .inl rfl
  · rename_i hneeds
    simp only [not_or, not_not] at hneeds
    dsimp only
    split
    · exact .inl rfl
    · have hnil : s.askedAll [] = s := by simp [askedAll]
      cases hp : (inp.isTCP && s.ctr.helloInProgress) with
      | true =>
        simp only [if_true]
        cases inp.extract newPacket with
        | none => exact .inr (.inl ⟨hneeds.2, [], fun _ _ => rfl, by rw [hnil]⟩)
        | some r =>
          rcases offer_some s.ctr.helloInspector inspectors with h | ⟨insp, hmem, hname, hout, h⟩
          · exact .inl h
          · exact .inr (.inr ⟨hneeds.2, [], insp, hmem, r.1, r.2, fun _ _ => ⟨rfl, hname, hout⟩, by rw [hnil]; exact h⟩)
      | false =>
        have hfresh : inp.isTCP = true → s.ctr.helloInProgress = true → False := by
          intro h h'
          simp [h, h'] at hp
        simp only [Bool.false_eq_true, if_false]
        cases inp.extract newPacket with
        | none => exact .inl rfl
        | some r =>
          rcases offer_none inspectors s with ⟨asked, h⟩ | ⟨asked, insp, hmem, h⟩
          · exact .inr (.inl ⟨hneeds.2, asked, fun ht hh => (hfresh ht hh).elim, h⟩)
          · exact .inr (.inr ⟨hneeds.2, asked, insp, hmem, r.1, r.2, fun ht hh => (hfresh ht hh).elim, h⟩)

end Cases

/-! ### What an examination leaves -/

section Examine
variable {s : Inspection} {insp : Inspector} {inp : InspectInput} {remote : Addr} {seq : UInt32} {payload : List UInt8}

theorem ask_calls (ts : Int) : (s.ask insp payload remote ts).calls = s.calls ++ [.inspect insp payload] := by
  simp only [ask]
  split <;> rfl

theorem ask_ctr (ts : Int) :
    (s.ask insp payload remote ts).ctr = (insp.inspect payload).elim s.ctr s.ctr.setHostname := by
  simp only [ask]
  cases insp.inspect payload <;> rfl

theorem ask_frame (s : Inspection) (insp : Inspector) (payload : List UInt8) (remote : Addr) (ts : Int) :
    (s.ask insp payload remote ts).ctr.hostnameAttempted = s.ctr.hostnameAttempted ∧
      (s.ask insp payload remote ts).ctr.helloInProgress = s.ctr.helloInProgress ∧
      (s.ask insp payload remote ts).ctr.helloInspector = s.ctr.helloInspector := by
  have hset : ∀ host, (s.ctr.setHostname host).hostnameAttempted = s.ctr.hostnameAttempted ∧
      (s.ctr.setHostname host).helloInProgress = s.ctr.helloInProgress ∧
      (s.ctr.setHostname host).helloInspector = s.ctr.helloInspector := by
    intro host
    unfold ByteCounter.setHostname ByteCounter.helloInProgress
    split <;> exact ⟨rfl, rfl, rfl⟩
  rw [ask_ctr]
  cases insp.inspect payload with
  | none => exact ⟨rfl, rfl, rfl⟩
  | some host => exact hset host

theorem ask_hostname (insp : Inspector) (payload : List UInt8) (remote : Addr) (ts : Int) (h : s.ctr.hostname = "") :
    (s.ask insp payload remote ts).ctr.hostname = (insp.inspect payload).getD "" := by
  rw [ask_ctr]
  cases insp.inspect payload with
  | none => exact h
  | some host => simp [ByteCounter.setHostname, h]

/-- What `insp` does to the state when it takes a packet: its calls, which include at most one
`Inspect` and then end the search; the hostname, which is what that call returned; and the
reassembly, which is its own if it is new. -/
structure Examined (s : Inspection) (insp : Inspector) (inp : InspectInput) (s' : Inspection) (later : List DpiCall) :
    Prop where
  calls : s'.calls = s.calls ++ later
  own : ∀ call ∈ later, call.inspector = insp ∧ call.FedBy (! inp.inbound)
  fed : inp.isTCP = true → ∃ seq payload, .feed insp (! inp.inbound) seq payload ∈ later
  once : later.countP DpiCall.isInspect ≤ 1
  attempted : later.countP DpiCall.isInspect = 1 → s'.ctr.hostnameAttempted = true
  hostname : s'.ctr.hostname = "" ∨
    ∃ payload, .inspect insp payload ∈ later ∧ insp.inspect payload = some s'.ctr.hostname
  hello : s'.ctr.helloInProgress = (inp.isTCP || s.ctr.helloInProgress)
  inspector : s'.ctr.helloInspector =
    if inp.isTCP && ! s.ctr.helloInProgress then insp.name else s.ctr.helloInspector

theorem examine_datagram (hhost : s.ctr.hostname = "") (htcp : inp.isTCP = false) :
    Examined s insp inp (s.examine insp inp remote seq payload) [.inspect insp payload] := by
  have hex : s.examine insp inp remote seq payload = s.mark.ask insp payload remote inp.ts := by
    simp [examine, htcp]
  obtain ⟨hatt, hhello, hinsp⟩ := ask_frame s.mark insp payload remote inp.ts
  rw [hex]
  constructor
  · rw [ask_calls]
    rfl
  · intro call hcall
    rw [List.mem_singleton.1 hcall]
    exact ⟨rfl, trivial⟩
  · rw [htcp]
    exact nofun
  · exact Nat.le_refl _
  · intro _
    rw [hatt]
    rfl
  · rw [ask_hostname (s := s.mark) _ _ _ _ hhost]
    cases hi : insp.inspect payload with
    | none => exact .inl rfl
    | some host => exact .inr ⟨payload, List.mem_singleton_self _, hi⟩
  · rw [hhello, htcp]
    rfl
  · rw [hinsp, htcp]
    rfl

section Segment
variable {ctr : ByteCounter} (htcp : inp.isTCP = true) (hhost : ctr.hostname = "") (hhello : ctr.helloInProgress = true)
  (hinsp : ctr.helloInspector = if inp.isTCP && ! s.ctr.helloInProgress then insp.name else s.ctr.helloInspector)
include htcp hhost hhello hinsp

/-- The record is not complete, or given up on. -/
theorem examined_feed (done : Bool) (seq : UInt32) (payload : List UInt8) :
    Examined s insp inp
      (if done then ({ s with ctr := ctr }.log (.feed insp (! inp.inbound) seq payload)).mark
        else { s with ctr := ctr }.log (.feed insp (! inp.inbound) seq payload))
      [.feed insp (! inp.inbound) seq payload] := by
  have hctr : (if done then ({ s with ctr := ctr }.log (.feed insp (! inp.inbound) seq payload)).mark
      else { s with ctr := ctr }.log (.feed insp (! inp.inbound) seq payload)) =
      { s with
        ctr := { ctr with hostnameAttempted := done || ctr.hostnameAttempted }
        calls := s.calls ++ [.feed insp (! inp.inbound) seq payload] } := by
    cases done <;> rfl
  rw [hctr]
  refine ⟨rfl, ?_, fun _ => ⟨_, _, List.mem_cons_self⟩, by simp [DpiCall.isInspect], by simp [DpiCall.isInspect],
    .inl hhost, ?_, hinsp⟩
  · intro call hcall
    rw [List.mem_singleton.1 hcall]
    exact ⟨rfl, rfl⟩
  · rw [htcp]
    exact hhello

/-- The record is complete: its inspector looks at it, and the search is over. -/
theorem examined_record (seq : UInt32) (payload ready : List UInt8) (remote : Addr) :
    Examined s insp inp
      (({ s with ctr := ctr }.log (.feed insp (! inp.inbound) seq payload)).ask insp ready remote inp.ts).mark
      [.feed insp (! inp.inbound) seq payload, .inspect insp ready] := by
  obtain ⟨-, hhello', hinsp'⟩ := ask_frame ({ s with ctr := ctr }.log (.feed insp (! inp.inbound) seq payload)) insp
    ready remote inp.ts
  have hfound := ask_hostname (s := { s with ctr := ctr }.log (.feed insp (! inp.inbound) seq payload)) insp ready
    remote inp.ts hhost
  refine ⟨?_, ?_, fun _ => ⟨_, _, List.mem_cons_self⟩, by simp [DpiCall.isInspect], fun _ => rfl, ?_, ?_, hinsp'.trans hinsp⟩
  · simp only [mark, ask_calls, log, List.append_assoc, List.cons_append, List.nil_append]
  · intro call hcall
    simp only [List.mem_cons, List.not_mem_nil, or_false] at hcall
    rcases hcall with rfl | rfl <;> exact ⟨rfl, by trivial⟩
  · simp only [mark, ByteCounter.markHostnameAttempted] at hfound ⊢
    rw [hfound]
    cases hi : insp.inspect ready with
    | none => exact .inl rfl
    | some host => exact .inr ⟨ready, by simp, hi⟩
  · rw [htcp]
    exact hhello'.trans hhello

end Segment

theorem examine_segment (hhost : s.ctr.hostname = "") (htcp : inp.isTCP = true) :
    ∃ later, Examined s insp inp (s.examine insp inp remote seq payload) later := by
  obtain ⟨hhost', -, hhello', hinsp'⟩ := ByteCounter.addHelloSegment_frame s.ctr insp.name seq payload
  have hdone := @ByteCounter.addHelloSegment_done s.ctr insp.name seq payload
  simp only [examine, htcp, not_true_eq_false, if_false]
  generalize s.ctr.addHelloSegment insp.name seq payload = fed at hhost' hhello' hinsp' hdone
  obtain ⟨ctr, ready, done⟩ := fed
  dsimp only at hhost' hhello' hinsp' hdone ⊢
  rw [hhost] at hhost'
  have hinspector : ctr.helloInspector =
      if inp.isTCP && ! s.ctr.helloInProgress then insp.name else s.ctr.helloInspector := by
    rw [hinsp', htcp]
    cases s.ctr.helloInProgress <;> rfl
  cases ready with
  | none => exact ⟨_, examined_feed htcp hhost' hhello' hinspector done seq payload⟩
  | some ready =>
    obtain rfl : done = true := hdone rfl
    exact ⟨_, examined_record htcp hhost' hhello' hinspector seq payload ready remote⟩

theorem examine_spec (insp : Inspector) (inp : InspectInput) (remote : Addr) (seq : UInt32) (payload : List UInt8)
    (hhost : s.ctr.hostname = "") : ∃ later, Examined s insp inp (s.examine insp inp remote seq payload) later := by
  cases htcp : inp.isTCP with
  | false => exact ⟨_, examine_datagram hhost htcp⟩
  | true => exact examine_segment hhost htcp

end Examine

/-! ### One packet -/

/-- What a packet does to the search, with the calls it made. -/
structure Step (inspectors : List Inspector) (inp : InspectInput) (s s' : Inspection) (later : List DpiCall) : Prop where
  calls : s'.calls = s.calls ++ later
  once : later.countP DpiCall.isInspect ≤ 1
  attempted : later.countP DpiCall.isInspect = 1 → s'.ctr.hostnameAttempted = true
  hostname : s'.ctr.hostname = s.ctr.hostname ∨ s.ctr.hostname = "" ∧
    ∃ insp payload, .inspect insp payload ∈ later ∧ insp.inspect payload = some s'.ctr.hostname
  started : s.ctr.helloInProgress = false → s'.ctr.helloInProgress = true → inp.isTCP = true ∧
    ∃ insp ∈ inspectors, s'.ctr.helloInspector = insp.name ∧
      (∃ seq payload, .feed insp (! inp.inbound) seq payload ∈ later) ∧ ∀ call ∈ later, call.AsksOr insp
  underway : inp.isTCP = true → s.ctr.helloInProgress = true →
    s'.ctr.helloInProgress = true ∧ s'.ctr.helloInspector = s.ctr.helloInspector ∧
    ∀ call ∈ later, call.inspector ∈ inspectors ∧ call.inspector.name = s.ctr.helloInspector ∧ call.FedBy true

section Step
variable {inspectors : List Inspector} {newPacket : NewPacket} {s : Inspection} {inp : InspectInput} {remote : Addr}

theorem Step.refl : Step inspectors inp s s [] where
  calls := (List.append_nil _).symm
  once := Nat.zero_le _
  attempted := nofun
  hostname := .inl rfl
  started h h' := absurd (h.symm.trans h') Bool.false_ne_true
  underway _ h := ⟨h, rfl, nofun⟩

theorem countP_candidates (asked : List Inspector) :
    (asked.map DpiCall.candidate).countP DpiCall.isInspect = 0 := by
  rw [List.countP_eq_zero]
  intro call hcall
  obtain ⟨insp, -, rfl⟩ := List.mem_map.1 hcall
  exact Bool.false_ne_true

theorem Step.mark {asked : List Inspector} (hown : inp.isTCP = true → s.ctr.helloInProgress = true → asked = []) :
    Step inspectors inp s (s.askedAll asked).mark (asked.map .candidate) where
  calls := rfl
  once := by rw [countP_candidates]; exact Nat.zero_le _
  attempted _ := rfl
  hostname := .inl rfl
  started h h' := absurd (h.symm.trans h') Bool.false_ne_true
  underway ht h := ⟨h, rfl, by rw [hown ht h]; exact nofun⟩

theorem Step.examine {asked : List Inspector} {insp : Inspector} {s' : Inspection} {later : List DpiCall}
    (hneeds : s.ctr.needsHostnameInspection = true) (hinsp : insp ∈ inspectors)
    (hown : inp.isTCP = true → s.ctr.helloInProgress = true →
      asked = [] ∧ insp.name = s.ctr.helloInspector ∧ inp.inbound = false)
    (h : Examined (s.askedAll asked) insp inp s' later) :
    Step inspectors inp s s' (asked.map .candidate ++ later) := by
  have hhost : s.ctr.hostname = "" := (ByteCounter.needsHostnameInspection_iff.1 hneeds).1
  have hcount : (asked.map DpiCall.candidate ++ later).countP DpiCall.isInspect = later.countP DpiCall.isInspect := by
    rw [List.countP_append, countP_candidates, Nat.zero_add]
  constructor
  · rw [h.calls, askedAll, List.append_assoc]
  · rw [hcount]
    exact h.once
  · rw [hcount]
    exact h.attempted
  · rcases h.hostname with he | ⟨payload, hmem, hfound⟩
    · exact .inl (he.trans hhost.symm)
    · exact .inr ⟨hhost, insp, payload, List.mem_append_right _ hmem, hfound⟩
  · intro hnot hnow
    have htcp : inp.isTCP = true := by
      rw [h.hello] at hnow
      simpa [askedAll, hnot] using hnow
    obtain ⟨seq, payload, hfed⟩ := h.fed htcp
    refine ⟨htcp, insp, hinsp, ?_, ⟨seq, payload, List.mem_append_right _ hfed⟩, fun call hcall => ?_⟩
    · rw [h.inspector, htcp]
      simp [askedAll, hnot]
    · rcases List.mem_append.1 hcall with hcall | hcall
      · obtain ⟨other, -, rfl⟩ := List.mem_map.1 hcall
        exact trivial
      · have hself := (h.own call hcall).1
        cases call with
        | candidate other => exact trivial
        | feed | inspect => exact hself
  · intro htcp hunder
    obtain ⟨rfl, hname, hout⟩ := hown htcp hunder
    refine ⟨?_, ?_, fun call hcall => ?_⟩
    · rw [h.hello, htcp]
      rfl
    · rw [h.inspector]
      simp [askedAll, hunder]
    · obtain ⟨rfl, hfed⟩ := h.own call (by simpa using hcall)
      rw [hout] at hfed
      exact ⟨hinsp, hname, hfed⟩

theorem inspect_step (inspectors : List Inspector) (newPacket : NewPacket) (s : Inspection) (inp : InspectInput)
    (remote : Addr) : ∃ later, Step inspectors inp s (s.inspect inspectors newPacket inp remote) later := by
  rcases inspect_cases inspectors newPacket s inp remote with h | ⟨-, asked, hown, h⟩ |
    ⟨hneeds, asked, insp, hinsp, seq, payload, hown, h⟩
  · rw [h]
    exact ⟨_, .refl⟩
  · rw [h]
    exact ⟨_, .mark hown⟩
  · have hhost : (s.askedAll asked).ctr.hostname = "" := (ByteCounter.needsHostnameInspection_iff.1 hneeds).1
    obtain ⟨later, hex⟩ := examine_spec insp inp remote seq payload hhost
    rw [h]
    exact ⟨_, .examine hneeds hinsp hown hex⟩

theorem inspect_settled (h : s.ctr.needsHostnameInspection = false) :
    s.inspect inspectors newPacket inp remote = s := by
  rw [inspect, if_pos (.inr (by simp [h]))]

end Step
end Inspection
end Trafficmon
