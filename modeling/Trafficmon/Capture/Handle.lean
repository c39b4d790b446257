import Trafficmon.Capture.DecodeMemory
import Trafficmon.Capture.Inspect
import Trafficmon.Capture.Pcap

/-!
# One packet (`Capturer.handlePacket`)

A decoded packet is recorded, shown to the inspectors and reported: a SYN without ACK and the
queries the passive inspectors find go to a ring and to the log feed. `Handled` keeps, beside the
capturer, what this packet was reported with. Nothing on the way to a report looks at the packet's
direction (`reports_outbound_iff`).
-/

namespace Trafficmon

structure Handled where
  capturer : Capturer
  synReported : List SYNEvent := []
  queriesReported : List QueryFinding := []

namespace Handled

def reportSYN (h : Handled) (ev : SYNEvent) : Handled where
  capturer :=
    { h.capturer with
      synEvents := h.capturer.synEvents.push ev
      logFeed := h.capturer.logFeed.map (·.sendSYN ev) }
  synReported := h.synReported ++ [ev]
  queriesReported := h.queriesReported

def reportQuery (h : Handled) (f : QueryFinding) : Handled where
  capturer :=
    { h.capturer with
      dnsQueries := h.capturer.dnsQueries.push f
      logFeed := h.capturer.logFeed.map (·.sendDNSQuery f) }
  synReported := h.synReported
  queriesReported := h.queriesReported ++ [f]

def pushRST (h : Handled) (ev : RSTEvent) : Handled :=
  { h with capturer := { h.capturer with rstEvents := h.capturer.rstEvents.push ev } }

end Handled

/-! ### Passive inspection -/

def passiveCandidate (info : PacketInfo) : CandidatePacket where
  isTCP := info.proto = .tcp
  srcPort := info.srcPort
  dstPort := info.dstPort
  datagramLen := info.bytes.toInt64.toInt

/-- The message in a packet: DNS over TCP puts its length first. -/
def passivePayload (newPacket : NewPacket) (data : List UInt8) (linkType : LinkType) (isTCP : Bool) :
    Option (List UInt8) :=
  match extractPayload newPacket data linkType isTCP with
  | none => none
  | some (_, payload) =>
    if isTCP then if payload.length < 2 then none else some (payload.drop 2)
    else some payload

namespace PassiveInspector

/-! An inspector that does not implement one of the further interfaces finds nothing of its kind. -/

def queriesIn (insp : PassiveInspector) (payload : List UInt8) (clientAddr serverAddr : String) (ts : Int) :
    List QueryFinding :=
  insp.inspectQuery.elim [] fun inspectQuery => inspectQuery payload clientAddr serverAddr ts

def errorsIn (insp : PassiveInspector) (payload : List UInt8) (serverAddr : String) (ts : Int) : List DNSErrorFinding :=
  insp.inspectError.elim [] fun inspectError => inspectError payload serverAddr ts

def answersIn (insp : PassiveInspector) (payload : List UInt8) (serverAddr : String) (ts : Int) : List DNSAnswerFinding :=
  insp.inspectAnswer.elim [] fun inspectAnswer => inspectAnswer payload serverAddr ts

end PassiveInspector

/-- The body of `inspectPassive`'s loop. -/
def Handled.passive (newPacket : NewPacket) (data : List UInt8) (info : PacketInfo) (linkType : LinkType) (ts : Int)
    (h : Handled) (insp : PassiveInspector) : Handled :=
  let cand := passiveCandidate info
  if ¬ insp.candidate cand then h
  else
    match passivePayload newPacket data linkType cand.isTCP with
    | none => h
    | some payload =>
      let cache := (insp.inspect payload).foldl (fun cache f => cache.put f.ip f.hostname ts) h.capturer.hostnameCache
      let h := { h with capturer := { h.capturer with hostnameCache := cache } }
      let h := (insp.queriesIn payload info.src.string info.dst.string ts).foldl reportQuery h
      { h with capturer := { h.capturer with
        dnsErrors := (insp.errorsIn payload info.src.string ts).foldl EventRing.push h.capturer.dnsErrors
        dnsAnswers := (insp.answersIn payload info.src.string ts).foldl EventRing.push h.capturer.dnsAnswers } }

def Capturer.inspectPassive (newPacket : NewPacket) (c : Capturer) (data : List UInt8) (info : PacketInfo)
    (linkType : LinkType) (ts : Int) : Handled :=
  c.cfg.passiveInspectors.foldl (Handled.passive newPacket data info linkType ts) { capturer := c }

/-! ### Handling -/

/-- `inspect` on the flow's counter. The source holds the pointer that `record` returned; here the counter is looked up
by its key and put back, which is the same as long as no sweep comes in between. -/
def Capturer.inspectFlow (newPacket : NewPacket) (c : Capturer) (key : FlowKey) (inp : InspectInput) : Capturer :=
  let s := Inspection.inspect c.cfg.inspectors newPacket ⟨(c.flows.lookup key).getD {}, c.hostnameCache, []⟩ inp
    key.remoteAddr
  { c with flows := c.flows.insert key s.ctr, hostnameCache := s.hostnameCache }

/-- What `handlePacket` does with a packet of a flow. -/
def Capturer.handleFlow (newPacket : NewPacket) (c : Capturer) (linkType : LinkType) (iface : String)
    (data : List UInt8) (info : PacketInfo) (key : FlowKey) (inbound : Bool) (ts : Int) : Handled :=
  let c := c.record key ts info.bytes inbound
  let c := c.inspectFlow newPacket key ⟨data, info, inbound, linkType, ts⟩
  let h := c.inspectPassive newPacket data info linkType ts
  let h :=
    if info.proto = .tcp ∧ info.syn ∧ ¬ info.ack then
      h.reportSYN ⟨iface, key.localAddr, key.localPort, key.remoteAddr, key.remotePort, ts⟩
    else h
  if info.proto = .tcp ∧ info.rst then
    h.pushRST ⟨iface, key.localAddr, key.localPort, key.remoteAddr, key.remotePort, ts⟩
  else h

/-- `timestamp` is the packet's capture time, `clock` what `time.Now` would say. -/
def Capturer.handlePacket (dfb : LayerDecoders) (newPacket : NewPacket) (c : Capturer) (dec : FlowDecoder)
    (iface : String) (isLocal : Addr → Bool) (data : List UInt8) (timestamp clock : Int) : FlowDecoder × Handled :=
  match dec.decode dfb data with
  | (dec', none) => (dec', { capturer := c })
  | (dec', some info) =>
    match normalise info iface isLocal with
    | none => (dec', { capturer := c })
    | some (key, inbound) =>
      let ts := if timestamp = 0 then clock else timestamp
      (dec', c.handleFlow newPacket dec.linkType iface data info key inbound ts)

/-! ### What a packet is reported with -/

/-- The queries one inspector finds in a packet. -/
def PassiveInspector.queries (newPacket : NewPacket) (data : List UInt8) (info : PacketInfo) (linkType : LinkType)
    (ts : Int) (insp : PassiveInspector) : List QueryFinding :=
  if ¬ insp.candidate (passiveCandidate info) then []
  else
    match passivePayload newPacket data linkType (passiveCandidate info).isTCP with
    | none => []
    | some payload => insp.queriesIn payload info.src.string info.dst.string ts

/-- The rings and the feed are those of `c` with the reports pushed. -/
structure Handled.Reports (h : Handled) (c : Capturer) : Prop where
  syn : h.capturer.synEvents = h.synReported.foldl EventRing.push c.synEvents
  dns : h.capturer.dnsQueries = h.queriesReported.foldl EventRing.push c.dnsQueries
  feed : h.capturer.logFeed = c.logFeed.map fun f =>
    h.synReported.foldl LogFeed.sendSYN (h.queriesReported.foldl LogFeed.sendDNSQuery f)

/-- They are just these. -/
structure Handled.ReportedWith (h : Handled) (c : Capturer) (syns : List SYNEvent) (queries : List QueryFinding) :
    Prop extends Handled.Reports h c where
  syns_eq : h.synReported = syns
  queries_eq : h.queriesReported = queries

section Reports
variable {newPacket : NewPacket} {c : Capturer} {h : Handled} {syns : List SYNEvent} {queries : List QueryFinding}

namespace Handled.ReportedWith

theorem nil (c : Capturer) : Handled.ReportedWith { capturer := c } c [] [] :=
  ⟨⟨rfl, rfl, by cases c.logFeed <;> rfl⟩, rfl, rfl⟩

theorem query (hr : h.ReportedWith c [] queries) (f : QueryFinding) :
    (h.reportQuery f).ReportedWith c [] (queries ++ [f]) := by
  refine ⟨⟨hr.syn, ?_, ?_⟩, hr.syns_eq, ?_⟩
  · simp [reportQuery, hr.dns]
  · simp only [reportQuery, hr.feed, hr.syns_eq, Option.map_map, List.foldl_append, List.foldl_cons, List.foldl_nil]
    rfl
  · rw [reportQuery, hr.queries_eq]

theorem synEvent (hr : h.ReportedWith c syns queries) (ev : SYNEvent) :
    (h.reportSYN ev).ReportedWith c (syns ++ [ev]) queries := by
  refine ⟨⟨?_, hr.dns, ?_⟩, ?_, hr.queries_eq⟩
  · simp [reportSYN, hr.syn]
  · simp only [reportSYN, hr.feed, Option.map_map, List.foldl_append, List.foldl_cons, List.foldl_nil]
    rfl
  · rw [reportSYN, hr.syns_eq]

/-- A reset is no report. -/
theorem rstEvent (hr : h.ReportedWith c syns queries) (ev : RSTEvent) : (h.pushRST ev).ReportedWith c syns queries :=
  ⟨⟨hr.syn, hr.dns, hr.feed⟩, hr.syns_eq, hr.queries_eq⟩

theorem queryAll (hr : h.ReportedWith c [] queries) (fs : List QueryFinding) :
    (fs.foldl reportQuery h).ReportedWith c [] (queries ++ fs) := by
  induction fs generalizing h queries with
  | nil =>
    rw [List.append_nil]
    exact hr
  | cons f fs ih =>
    have hall := ih (hr.query f)
    rw [List.append_assoc, List.singleton_append] at hall
    exact hall

/-- The hostname cache, the errors and the answers are no reports. -/
theorem passive (hr : h.ReportedWith c [] queries) (newPacket : NewPacket) (data : List UInt8) (info : PacketInfo)
    (linkType : LinkType) (ts : Int) (insp : PassiveInspector) :
    (h.passive newPacket data info linkType ts insp).ReportedWith c []
      (queries ++ insp.queries newPacket data info linkType ts) := by
  unfold Handled.passive PassiveInspector.queries
  dsimp only
  split
  · rw [List.append_nil]
    exact hr
  · cases passivePayload newPacket data linkType (passiveCandidate info).isTCP with
    | none =>
      rw [List.append_nil]
      exact hr
    | some payload =>
      have hcache : ∀ cache,
          Handled.ReportedWith { h with capturer := { h.capturer with hostnameCache := cache } } c [] queries :=
        fun _ => ⟨⟨hr.syn, hr.dns, hr.feed⟩, hr.syns_eq, hr.queries_eq⟩
      have hall := (hcache ((insp.inspect payload).foldl (fun cache f => cache.put f.ip f.hostname ts)
        h.capturer.hostnameCache)).queryAll (insp.queriesIn payload info.src.string info.dst.string ts)
      exact ⟨⟨hall.syn, hall.dns, hall.feed⟩, hall.syns_eq, hall.queries_eq⟩

end Handled.ReportedWith

theorem inspectPassive_reports (newPacket : NewPacket) (c : Capturer) (data : List UInt8) (info : PacketInfo)
    (linkType : LinkType) (ts : Int) :
    (c.inspectPassive newPacket data info linkType ts).ReportedWith c []
      (c.cfg.passiveInspectors.flatMap (PassiveInspector.queries newPacket data info linkType ts)) := by
  unfold Capturer.inspectPassive
  induction c.cfg.passiveInspectors using List.reverseRecOn with
  | nil => exact .nil c
  | append_singleton insps insp ih =>
    rw [List.foldl_append, List.foldl_cons, List.foldl_nil, List.flatMap_append, List.flatMap_singleton]
    exact ih.passive newPacket data info linkType ts insp

/-- What a packet of a flow is reported with does not depend on its direction. -/
theorem handleFlow_reports (newPacket : NewPacket) (c : Capturer) (linkType : LinkType) (iface : String)
    (data : List UInt8) (info : PacketInfo) (key : FlowKey) (inbound : Bool) (ts : Int) :
    (c.handleFlow newPacket linkType iface data info key inbound ts).ReportedWith c
      (if info.proto = .tcp ∧ info.syn ∧ ¬ info.ack then
        [⟨iface, key.localAddr, key.localPort, key.remoteAddr, key.remotePort, ts⟩] else [])
      (c.cfg.passiveInspectors.flatMap (PassiveInspector.queries newPacket data info linkType ts)) := by
  unfold Capturer.handleFlow
  dsimp only
  have hr := inspectPassive_reports newPacket ((c.record key ts info.bytes inbound).inspectFlow newPacket key
    ⟨data, info, inbound, linkType, ts⟩) data info linkType ts
  generalize Capturer.inspectPassive newPacket _ data info linkType ts = h at hr
  -- recording and inspecting touch neither the rings nor the feed
  have hr' : h.ReportedWith c [] (c.cfg.passiveInspectors.flatMap
      (PassiveInspector.queries newPacket data info linkType ts)) :=
    ⟨⟨hr.syn, hr.dns, hr.feed⟩, hr.syns_eq, hr.queries_eq⟩
  by_cases hsyn : info.proto = .tcp ∧ info.syn ∧ ¬ info.ack
  · rw [if_pos hsyn, if_pos hsyn]
    split
    · exact (hr'.synEvent _).rstEvent _
    · exact hr'.synEvent _
  · rw [if_neg hsyn, if_neg hsyn]
    split
    · exact hr'.rstEvent _
    · exact hr'

end Reports

/-! ### Direction -/

/-- `normalise` takes the packet for one that leaves the host. -/
def Outbound (dfb : LayerDecoders) (dec : FlowDecoder) (iface : String) (isLocal : Addr → Bool) (data : List UInt8) :
    Prop :=
  ∃ info key, (dec.decode dfb data).2 = some info ∧ normalise info iface isLocal = some (key, false)

section Direction
variable {dfb : LayerDecoders} {newPacket : NewPacket} {c : Capturer} {dec : FlowDecoder} {iface : String}
  {isLocal : Addr → Bool} {data : List UInt8} {timestamp clock : Int} {info : PacketInfo} {key : FlowKey} {inbound : Bool}

/-- A packet is of no flow and left alone, or of one and handled. -/
theorem handlePacket_cases (dfb : LayerDecoders) (newPacket : NewPacket) (c : Capturer) (dec : FlowDecoder)
    (iface : String) (isLocal : Addr → Bool) (data : List UInt8) (timestamp clock : Int) :
    (c.handlePacket dfb newPacket dec iface isLocal data timestamp clock).2 = { capturer := c } ∨
    ∃ info key inbound, (dec.decode dfb data).2 = some info ∧ normalise info iface isLocal = some (key, inbound) := by
  unfold Capturer.handlePacket
  split
  · exact .inl rfl
  · rename_i dec' info hd
    cases hn : normalise info iface isLocal with
    | none => exact .inl rfl
    | some r => exact .inr ⟨info, r.1, r.2, by rw [hd], hn⟩

theorem handlePacket_flow (hd : (dec.decode dfb data).2 = some info)
    (hn : normalise info iface isLocal = some (key, inbound)) :
    (c.handlePacket dfb newPacket dec iface isLocal data timestamp clock).2 =
      c.handleFlow newPacket dec.linkType iface data info key inbound (if timestamp = 0 then clock else timestamp) := by
  rcases hdec : dec.decode dfb data with ⟨dec', o⟩
  rw [hdec] at hd
  obtain rfl : o = some info := hd
  simp only [Capturer.handlePacket, hdec, hn]

/-- The rings and the feed get exactly what a packet is reported with. -/
theorem handlePacket_reports (dfb : LayerDecoders) (newPacket : NewPacket) (c : Capturer) (dec : FlowDecoder)
    (iface : String) (isLocal : Addr → Bool) (data : List UInt8) (timestamp clock : Int) :
    (c.handlePacket dfb newPacket dec iface isLocal data timestamp clock).2.Reports c := by
  rcases handlePacket_cases dfb newPacket c dec iface isLocal data timestamp clock with h | ⟨info, key, inbound, hd, hn⟩
  · rw [h]
    exact (Handled.ReportedWith.nil c).toReports
  · rw [handlePacket_flow hd hn]
    exact (handleFlow_reports _ _ _ _ _ _ _ _ _).toReports

/-- Everything a packet is reported with comes from an outbound packet iff, should it be inbound, it
is no connection attempt and no passive inspector finds a query in it. -/
theorem reports_outbound_iff (dfb : LayerDecoders) (newPacket : NewPacket) (c : Capturer) (dec : FlowDecoder)
    (iface : String) (isLocal : Addr → Bool) (data : List UInt8) (timestamp clock : Int) :
    ((∀ ev ∈ (c.handlePacket dfb newPacket dec iface isLocal data timestamp clock).2.synReported,
        Outbound dfb dec iface isLocal data) ∧
      ∀ f ∈ (c.handlePacket dfb newPacket dec iface isLocal data timestamp clock).2.queriesReported,
        Outbound dfb dec iface isLocal data) ↔
    ∀ info key, (dec.decode dfb data).2 = some info → normalise info iface isLocal = some (key, true) →
      ¬ (info.proto = .tcp ∧ info.syn = true ∧ info.ack = false) ∧
      ∀ insp ∈ c.cfg.passiveInspectors, insp.queries newPacket data info dec.linkType
        (if timestamp = 0 then clock else timestamp) = [] := by
  constructor
  · rintro ⟨hsyn, hqueries⟩ info key hd hn
    have hin : ¬ Outbound dfb dec iface isLocal data := by
      rintro ⟨info', key', hd', hn'⟩
      obtain rfl := Option.some.inj (hd.symm.trans hd')
      exact absurd (hn.symm.trans hn') (by simp)
    have hreports := handleFlow_reports newPacket c dec.linkType iface data info key true
      (if timestamp = 0 then clock else timestamp)
    rw [handlePacket_flow hd hn, hreports.syns_eq] at hsyn
    rw [handlePacket_flow hd hn, hreports.queries_eq] at hqueries
    refine ⟨fun hattempt => ?_, fun insp hinsp => ?_⟩
    · rw [if_pos (by simpa using hattempt)] at hsyn
      exact hin (hsyn _ (List.mem_singleton_self _))
    · refine List.eq_nil_iff_forall_not_mem.2 fun f hf => ?_
      exact hin (hqueries f (List.mem_flatMap.2 ⟨insp, hinsp, hf⟩))
  · intro h
    rcases handlePacket_cases dfb newPacket c dec iface isLocal data timestamp clock with
      hnone | ⟨info, key, inbound, hd, hn⟩
    · rw [hnone]
      exact ⟨nofun, nofun⟩
    · cases inbound with
      | false => exact ⟨fun _ _ => ⟨info, key, hd, hn⟩, fun _ _ => ⟨info, key, hd, hn⟩⟩
      | true =>
        obtain ⟨hattempt, hquery⟩ := h info key hd hn
        have hreports := handleFlow_reports newPacket c dec.linkType iface data info key true
          (if timestamp = 0 then clock else timestamp)
        rw [handlePacket_flow hd hn, hreports.syns_eq, hreports.queries_eq, if_neg (by simpa using hattempt)]
        refine ⟨nofun, fun f hf => ?_⟩
        obtain ⟨insp, hinsp, hf⟩ := List.mem_flatMap.1 hf
        rw [hquery insp hinsp] at hf
        cases hf

end Direction

/-- The host that `synPacket` is addressed to. -/
def isServer (a : Addr) : Bool := a = .ipv4 140 82 112 3

def synPacketInfo : PacketInfo where
  src := .ipv4 192 168 1 10
  dst := .ipv4 140 82 112 3
  srcPort := 51000
  dstPort := 443
  proto := .tcp
  syn := true
  bytes := 40

/-- There the packet is inbound, and reported as an attempt. -/
theorem inbound_syn_reported :
    ¬ ((∀ ev ∈ (({} : Capturer).handlePacket ipv4Decoders (fun _ _ => {}) rawDecoder "en0" isServer synPacket 1 1).2.synReported,
        Outbound ipv4Decoders rawDecoder "en0" isServer synPacket) ∧
      ∀ f ∈ (({} : Capturer).handlePacket ipv4Decoders (fun _ _ => {}) rawDecoder "en0" isServer synPacket 1 1).2.queriesReported,
        Outbound ipv4Decoders rawDecoder "en0" isServer synPacket) := by
  rintro ⟨hsyn, -⟩
  have hd : (rawDecoder.decode ipv4Decoders synPacket).2 = some synPacketInfo := by decide
  have hn : normalise synPacketInfo "en0" isServer =
      some (⟨.ipv4 140 82 112 3, 443, .ipv4 192 168 1 10, 51000, .tcp, "en0"⟩, true) := by decide
  rw [handlePacket_flow hd hn, (handleFlow_reports _ _ _ _ _ _ _ _ _).syns_eq, if_pos (by decide)] at hsyn
  obtain ⟨info, key, hd', hn'⟩ := hsyn _ (List.mem_singleton_self _)
  obtain rfl := Option.some.inj (hd.symm.trans hd')
  exact absurd (hn.symm.trans hn') (by simp)

end Trafficmon
