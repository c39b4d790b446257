import Trafficmon.Capture.FlowTable
import Trafficmon.Dpi.Defaults

/-!
# What a DNS message is reported as (`capture/dpi_dispatch.go`, `dpi/dns.go`, `dpi/dns_query.go`)

The two default passive inspectors decode a message up to four times over and each time look for one
kind of finding. `dns_reports` puts these together over any packets: a message is reported as one kind of event
only, by its header and the port it came from or went to, and the rings hold just these reports.
Hostnames are learned from every response that has addresses, also one with an error code, which no answer
event reports.
-/

namespace Trafficmon

/-- What one message is reported as, and what is learned from it. -/
structure DnsReport where
  hostnames : List HostnameFinding := []
  queries : List QueryFinding := []
  errors : List DNSErrorFinding := []
  answers : List DNSAnswerFinding := []

namespace DnsReport

/-- A message to port 53 that is a query; a response from port 53, by its code. -/
def ofMessage (P : Parsers) (info : PacketInfo) (ts : Int) (msg : DnsMessage) : DnsReport :=
  if msg.qr then
    if info.srcPort ≠ dnsPort then {}
    else if msg.responseCode = dnsResponseCodeNoErr then
      { hostnames := msg.hostnames, answers := msg.answerFindings P info.src.string ts }
    else { hostnames := msg.hostnames, errors := msg.errorFindings P info.src.string ts }
  else if info.dstPort ≠ dnsPort then {}
  else { queries := msg.queryFindings P info.src.string info.dst.string ts }

/-- Of the message in a packet, if there is one that decodes. -/
def ofPacket (P : Parsers) (newPacket : NewPacket) (data : List UInt8) (info : PacketInfo) (linkType : LinkType)
    (ts : Int) : DnsReport :=
  match passivePayload newPacket data linkType (passiveCandidate info).isTCP with
  | none => {}
  | some payload => (P.decodeFromBytes payload).toOption.elim {} (ofMessage P info ts)

/-- Events of one kind at most. -/
structure OneKind (r : DnsReport) : Prop where
  query : r.queries ≠ [] → r.hostnames = [] ∧ r.errors = [] ∧ r.answers = []
  error : r.errors ≠ [] → r.queries = [] ∧ r.answers = []
  /-- The answers are what is learned. -/
  answer : r.answers ≠ [] → r.queries = [] ∧ r.errors = [] ∧ r.answers.map (fun a => ⟨a.answer, a.name⟩) = r.hostnames

theorem OneKind.empty : OneKind {} := ⟨fun h => absurd rfl h, fun h => absurd rfl h, fun h => absurd rfl h⟩

theorem hostnames_of_answers (P : Parsers) (msg : DnsMessage) (serverAddr : String) (ts : Int) :
    (msg.answerFindings P serverAddr ts).map (fun a => (⟨a.answer, a.name⟩ : HostnameFinding)) = msg.hostnames := by
  rw [DnsMessage.answerFindings, DnsMessage.hostnames, List.map_filterMap]
  refine List.filterMap_congr fun a _ => ?_
  rw [Option.map_map]
  rfl

theorem ofMessage_oneKind (P : Parsers) (info : PacketInfo) (ts : Int) (msg : DnsMessage) :
    (ofMessage P info ts msg).OneKind := by
  unfold ofMessage
  split
  · split
    · exact .empty
    · split
      · exact ⟨fun h => absurd rfl h, fun h => absurd rfl h, fun _ => ⟨rfl, rfl, hostnames_of_answers P msg _ ts⟩⟩
      · exact ⟨fun h => absurd rfl h, fun _ => ⟨rfl, rfl⟩, fun h => absurd rfl h⟩
  · split
    · exact .empty
    · exact ⟨fun _ => ⟨rfl, rfl, rfl⟩, fun h => absurd rfl h, fun h => absurd rfl h⟩

section
variable {P : Parsers} {info : PacketInfo} {ts : Int} {msg : DnsMessage}

theorem ofMessage_query (hqr : msg.qr = false) :
    ofMessage P info ts msg =
      { queries := if info.dstPort = dnsPort then msg.queryFindings P info.src.string info.dst.string ts else [] } := by
  simp only [ofMessage, hqr, Bool.false_eq_true, if_false]
  by_cases hport : info.dstPort = dnsPort <;> simp [hport]

theorem ofMessage_elsewhere (hqr : msg.qr = true) (hport : info.srcPort ≠ dnsPort) : ofMessage P info ts msg = {} := by
  simp [ofMessage, hqr, hport]

theorem ofMessage_answer (hqr : msg.qr = true) (hport : info.srcPort = dnsPort)
    (hcode : msg.responseCode = dnsResponseCodeNoErr) :
    ofMessage P info ts msg = { hostnames := msg.hostnames, answers := msg.answerFindings P info.src.string ts } := by
  simp [ofMessage, hqr, hport, hcode]

theorem ofMessage_error (hqr : msg.qr = true) (hport : info.srcPort = dnsPort)
    (hcode : msg.responseCode ≠ dnsResponseCodeNoErr) :
    ofMessage P info ts msg = { hostnames := msg.hostnames, errors := msg.errorFindings P info.src.string ts } := by
  simp [ofMessage, hqr, hport, hcode]

/-- Responses are not among the queries. -/
theorem queries_of_response (hqr : msg.qr = true) : (ofMessage P info ts msg).queries = [] := by
  by_cases hport : info.srcPort = dnsPort
  · by_cases hcode : msg.responseCode = dnsResponseCodeNoErr
    · rw [ofMessage_answer hqr hport hcode]
    · rw [ofMessage_error hqr hport hcode]
  · rw [ofMessage_elsewhere hqr hport]

end

theorem ofPacket_oneKind (P : Parsers) (newPacket : NewPacket) (data : List UInt8) (info : PacketInfo)
    (linkType : LinkType) (ts : Int) : (ofPacket P newPacket data info linkType ts).OneKind := by
  unfold ofPacket
  split
  · exact .empty
  · rename_i payload _
    cases (P.decodeFromBytes payload).toOption with
    | none => exact .empty
    | some msg => exact ofMessage_oneKind P info ts msg

end DnsReport

/-! ### The two inspectors -/

section Passive
variable {P : Parsers} {newPacket : NewPacket} {data : List UInt8} {info : PacketInfo} {linkType : LinkType} {ts : Int}
  {h : Handled}

/-- `dnsAnswerInspector` leaves the queries to the other one. -/
theorem passive_dnsAnswer :
    h.passive newPacket data info linkType ts (dnsAnswerInspector P) =
      let r := DnsReport.ofPacket P newPacket data info linkType ts
      { h with capturer := { h.capturer with
        hostnameCache := r.hostnames.foldl (fun cache f => cache.put f.ip f.hostname ts) h.capturer.hostnameCache
        dnsErrors := r.errors.foldl EventRing.push h.capturer.dnsErrors
        dnsAnswers := r.answers.foldl EventRing.push h.capturer.dnsAnswers } } := by
  unfold Handled.passive DnsReport.ofPacket
  dsimp only
  cases passivePayload newPacket data linkType (passiveCandidate info).isTCP with
  | none => split <;> rfl
  | some payload =>
    by_cases hport : info.srcPort = dnsPort
    · have hcand : (dnsAnswerInspector P).candidate (passiveCandidate info) = true := decide_eq_true hport
      rw [if_neg (not_not.2 hcand)]
      dsimp only [dnsAnswerInspector, PassiveInspector.queriesIn, PassiveInspector.errorsIn, PassiveInspector.answersIn,
        Option.elim, Parsers.inspectMessage, List.foldl_nil]
      cases (P.decodeFromBytes payload).toOption with
      | none => rfl
      | some msg =>
        cases hqr : msg.qr with
        | false => simp [DnsReport.ofMessage_query hqr, hqr]
        | true =>
          by_cases hcode : msg.responseCode = dnsResponseCodeNoErr
          · simp [DnsReport.ofMessage_answer hqr hport hcode, hqr, hcode]
          · simp [DnsReport.ofMessage_error hqr hport hcode, hqr, hcode]
    · have hcand : (dnsAnswerInspector P).candidate (passiveCandidate info) = false := decide_eq_false hport
      rw [if_pos (by rw [hcand]; exact Bool.false_ne_true)]
      dsimp only
      cases (P.decodeFromBytes payload).toOption with
      | none => rfl
      | some msg =>
        cases hqr : msg.qr with
        | false => simp [DnsReport.ofMessage_query hqr]
        | true => simp [DnsReport.ofMessage_elsewhere hqr hport]

theorem passive_dnsQuery :
    h.passive newPacket data info linkType ts (dnsQueryInspector P) =
      (DnsReport.ofPacket P newPacket data info linkType ts).queries.foldl Handled.reportQuery h := by
  unfold Handled.passive DnsReport.ofPacket
  dsimp only
  cases passivePayload newPacket data linkType (passiveCandidate info).isTCP with
  | none => split <;> rfl
  | some payload =>
    by_cases hport : info.dstPort = dnsPort
    · have hcand : (dnsQueryInspector P).candidate (passiveCandidate info) = true := decide_eq_true hport
      rw [if_neg (not_not.2 hcand)]
      dsimp only [dnsQueryInspector, PassiveInspector.queriesIn, PassiveInspector.errorsIn, PassiveInspector.answersIn,
        Option.elim, Parsers.inspectMessage, List.foldl_nil]
      cases (P.decodeFromBytes payload).toOption with
      | none => rfl
      | some msg =>
        cases hqr : msg.qr with
        | false => simp [DnsReport.ofMessage_query hqr, hqr, hport]
        | true => simp [DnsReport.queries_of_response hqr, hqr]
    · have hcand : (dnsQueryInspector P).candidate (passiveCandidate info) = false := decide_eq_false hport
      rw [if_pos (by rw [hcand]; exact Bool.false_ne_true)]
      dsimp only
      cases (P.decodeFromBytes payload).toOption with
      | none => rfl
      | some msg =>
        cases hqr : msg.qr with
        | false => simp [DnsReport.ofMessage_query hqr, hport]
        | true => simp [DnsReport.queries_of_response hqr]

end Passive

/-! ### Packets -/

namespace Capturer

def withPassive (c : Capturer) (insps : List PassiveInspector) : Capturer :=
  { c with cfg := { c.cfg with passiveInspectors := insps } }

end Capturer

/-- What a packet is reported as: nothing, unless it decodes and has a local end. -/
def CapturedPacket.dnsReport (P : Parsers) (dfb : LayerDecoders) (newPacket : NewPacket) (isLocal : Addr → Bool)
    (p : CapturedPacket) : DnsReport :=
  match p.info dfb with
  | none => {}
  | some info =>
    if (normalise info p.iface isLocal).isNone then {}
    else DnsReport.ofPacket P newPacket p.data info p.dec.linkType p.ts

theorem CapturedPacket.dnsReport_oneKind (P : Parsers) (dfb : LayerDecoders) (newPacket : NewPacket)
    (isLocal : Addr → Bool) (p : CapturedPacket) : (p.dnsReport P dfb newPacket isLocal).OneKind := by
  unfold CapturedPacket.dnsReport
  split
  · exact .empty
  · split
    · exact .empty
    · exact DnsReport.ofPacket_oneKind P newPacket _ _ _ _

/-- What a packet with this report does to the parts of a capturer that hold DNS. -/
structure DnsReport.Step (r : DnsReport) (ts : Int) (c c' : Capturer) : Prop where
  cfg : c'.cfg = c.cfg
  queries : c'.dnsQueries = r.queries.foldl EventRing.push c.dnsQueries
  errors : c'.dnsErrors = r.errors.foldl EventRing.push c.dnsErrors
  answers : c'.dnsAnswers = r.answers.foldl EventRing.push c.dnsAnswers
  cache : c'.hostnameCache = r.hostnames.foldl (fun cache f => cache.put f.ip f.hostname ts) c.hostnameCache

theorem reportQueries_step (fs : List QueryFinding) (h : Handled) :
    DnsReport.Step { queries := fs } 0 h.capturer (fs.foldl Handled.reportQuery h).capturer := by
  induction fs generalizing h with
  | nil => exact ⟨rfl, rfl, rfl, rfl, rfl⟩
  | cons f fs ih =>
    have hrest := ih (h.reportQuery f)
    exact ⟨hrest.cfg, hrest.queries, hrest.errors, hrest.answers, hrest.cache⟩

theorem inspectPassive_step (P : Parsers) (newPacket : NewPacket) (c : Capturer) (data : List UInt8) (info : PacketInfo)
    (linkType : LinkType) (ts : Int) (hc : c.cfg.passiveInspectors = defaultPassiveInspectors P) :
    (DnsReport.ofPacket P newPacket data info linkType ts).Step ts c
      (c.inspectPassive newPacket data info linkType ts).capturer := by
  rw [Capturer.inspectPassive, hc, defaultPassiveInspectors, List.foldl_cons, List.foldl_cons, List.foldl_nil,
    passive_dnsAnswer, passive_dnsQuery]
  have h := reportQueries_step (DnsReport.ofPacket P newPacket data info linkType ts).queries
    { capturer := { c with
        hostnameCache := (DnsReport.ofPacket P newPacket data info linkType ts).hostnames.foldl
          (fun cache f => cache.put f.ip f.hostname ts) c.hostnameCache
        dnsErrors := (DnsReport.ofPacket P newPacket data info linkType ts).errors.foldl EventRing.push c.dnsErrors
        dnsAnswers := (DnsReport.ofPacket P newPacket data info linkType ts).answers.foldl EventRing.push c.dnsAnswers } }
  exact ⟨h.cfg, h.queries, h.errors, h.answers, h.cache⟩

/-- The capturer as `inspect` leaves it, before the passive inspectors are asked. -/
def CapturedPacket.inspected (dfb : LayerDecoders) (newPacket : NewPacket) (isLocal : Addr → Bool) (c : Capturer)
    (p : CapturedPacket) : Capturer :=
  match p.info dfb with
  | none => c
  | some info =>
    match normalise info p.iface isLocal with
    | none => c
    | some (key, inbound) =>
      (c.record key p.ts info.bytes inbound).inspectFlow newPacket key ⟨p.data, info, inbound, p.dec.linkType, p.ts⟩

/-- `inspect` touches nothing of DNS, but the cache. -/
theorem CapturedPacket.inspected_frame (dfb : LayerDecoders) (newPacket : NewPacket) (isLocal : Addr → Bool)
    (c : Capturer) (p : CapturedPacket) :
    (p.inspected dfb newPacket isLocal c).cfg = c.cfg ∧
    (p.inspected dfb newPacket isLocal c).dnsQueries = c.dnsQueries ∧
    (p.inspected dfb newPacket isLocal c).dnsErrors = c.dnsErrors ∧
    (p.inspected dfb newPacket isLocal c).dnsAnswers = c.dnsAnswers ∧
    (c.cfg.inspectors = [] → (p.inspected dfb newPacket isLocal c).hostnameCache = c.hostnameCache) := by
  unfold CapturedPacket.inspected
  cases p.info dfb with
  | none => exact ⟨rfl, rfl, rfl, rfl, fun _ => rfl⟩
  | some info =>
    dsimp only
    cases normalise info p.iface isLocal with
    | none => exact ⟨rfl, rfl, rfl, rfl, fun _ => rfl⟩
    | some kd =>
      refine ⟨rfl, rfl, rfl, rfl, fun hnone => ?_⟩
      have hcfg : (c.record kd.1 p.ts info.bytes kd.2).cfg.inspectors = [] := hnone
      simp only [Capturer.inspectFlow, hcfg, Inspection.inspect, List.length_nil, true_or, if_true]
      rfl

theorem handleFlow_step (P : Parsers) (newPacket : NewPacket) (c : Capturer)
    (hc : c.cfg.passiveInspectors = defaultPassiveInspectors P) (linkType : LinkType) (iface : String) (data : List UInt8)
    (info : PacketInfo) (key : FlowKey) (inbound : Bool) (ts : Int) :
    (DnsReport.ofPacket P newPacket data info linkType ts).Step ts
      ((c.record key ts info.bytes inbound).inspectFlow newPacket key ⟨data, info, inbound, linkType, ts⟩)
      (c.handleFlow newPacket linkType iface data info key inbound ts).capturer := by
  have h := inspectPassive_step P newPacket
    ((c.record key ts info.bytes inbound).inspectFlow newPacket key ⟨data, info, inbound, linkType, ts⟩) data info linkType
    ts hc
  unfold Capturer.handleFlow
  dsimp only
  split_ifs <;> exact ⟨h.cfg, h.queries, h.errors, h.answers, h.cache⟩

theorem handle_step (P : Parsers) (dfb : LayerDecoders) (newPacket : NewPacket) (isLocal : Addr → Bool) (c : Capturer)
    (hc : c.cfg.passiveInspectors = defaultPassiveInspectors P) (p : CapturedPacket) :
    (p.dnsReport P dfb newPacket isLocal).Step p.ts (p.inspected dfb newPacket isLocal c)
      (c.handle dfb newPacket isLocal p) := by
  have hrefl : ∀ c, DnsReport.Step {} p.ts c c := fun _ => ⟨rfl, rfl, rfl, rfl, rfl⟩
  unfold Capturer.handle Capturer.handlePacket CapturedPacket.dnsReport CapturedPacket.inspected CapturedPacket.info
  cases p.dec.decode dfb p.data with
  | mk dec' info =>
    cases info with
    | none => exact hrefl c
    | some info =>
      dsimp only
      cases normalise info p.iface isLocal with
      | none => exact hrefl c
      | some kd =>
        exact handleFlow_step P newPacket c hc p.dec.linkType p.iface p.data info kd.1 kd.2 p.ts

/-- With the default passive inspectors, over any packets: the rings have exactly the findings of the messages
reported so, in order, and every message is reported as one kind of event at most, answers with just the names
and addresses that are learned. Where no other inspector writes the hostname cache, it is what the reports put there. -/
theorem dns_reports (P : Parsers) (dfb : LayerDecoders) (newPacket : NewPacket) (isLocal : Addr → Bool) (c : Capturer)
    (ps : List CapturedPacket) :
    let c' := ps.foldl (Capturer.handle dfb newPacket isLocal) (c.withPassive (defaultPassiveInspectors P))
    let reports := ps.map fun p => p.dnsReport P dfb newPacket isLocal
    c'.dnsQueries = (reports.flatMap (·.queries)).foldl EventRing.push c.dnsQueries ∧
    c'.dnsErrors = (reports.flatMap (·.errors)).foldl EventRing.push c.dnsErrors ∧
    c'.dnsAnswers = (reports.flatMap (·.answers)).foldl EventRing.push c.dnsAnswers ∧
    (∀ r ∈ reports, r.OneKind) ∧
    (c.cfg.inspectors = [] → c'.hostnameCache =
      ps.foldl (fun cache p => (p.dnsReport P dfb newPacket isLocal).hostnames.foldl
        (fun cache f => cache.put f.ip f.hostname p.ts) cache) c.hostnameCache) := by
  intro c' reports
  suffices h : c'.cfg = (c.withPassive (defaultPassiveInspectors P)).cfg ∧
      c'.dnsQueries = (reports.flatMap (·.queries)).foldl EventRing.push c.dnsQueries ∧
      c'.dnsErrors = (reports.flatMap (·.errors)).foldl EventRing.push c.dnsErrors ∧
      c'.dnsAnswers = (reports.flatMap (·.answers)).foldl EventRing.push c.dnsAnswers ∧
      (c.cfg.inspectors = [] → c'.hostnameCache =
        ps.foldl (fun cache p => (p.dnsReport P dfb newPacket isLocal).hostnames.foldl
          (fun cache f => cache.put f.ip f.hostname p.ts) cache) c.hostnameCache) by
    obtain ⟨-, hq, he, ha, hcache⟩ := h
    refine ⟨hq, he, ha, fun r hr => ?_, hcache⟩
    obtain ⟨p, -, rfl⟩ := List.mem_map.1 hr
    exact p.dnsReport_oneKind P dfb newPacket isLocal
  induction ps using List.reverseRecOn with
  | nil => exact ⟨rfl, rfl, rfl, rfl, fun _ => rfl⟩
  | append_singleton ps p ih =>
    obtain ⟨hcfg, hq, he, ha, hcache⟩ := ih
    generalize hmid : ps.foldl (Capturer.handle dfb newPacket isLocal) (c.withPassive (defaultPassiveInspectors P)) = mid
      at hcfg hq he ha hcache
    have hstep := handle_step P dfb newPacket isLocal mid (by rw [hcfg]; rfl) p
    have hins := p.inspected_frame dfb newPacket isLocal mid
    have hc' : c' = mid.handle dfb newPacket isLocal p := by
      simp only [c', List.foldl_append, hmid, List.foldl_cons, List.foldl_nil]
    have hreports : reports = (ps.map fun p => p.dnsReport P dfb newPacket isLocal) ++
        [p.dnsReport P dfb newPacket isLocal] := by simp [reports]
    rw [hc', hreports]
    simp only [List.flatMap_append, List.flatMap_cons, List.flatMap_nil, List.append_nil, List.foldl_append,
      List.foldl_cons, List.foldl_nil]
    refine ⟨?_, ?_, ?_, ?_, fun hnone => ?_⟩
    · rw [hstep.cfg, hins.1, hcfg]
    · rw [hstep.queries, hins.2.1, hq]
    · rw [hstep.errors, hins.2.2.1, he]
    · rw [hstep.answers, hins.2.2.2.1, ha]
    · rw [hstep.cache, hins.2.2.2.2 (by rw [hcfg]; exact hnone), hcache hnone]

end Trafficmon
