import Trafficmon.Capture.FlowTable

/-!
# A packet, call by call (`Capturer.handlePacket`)

The capture goroutines share the flow table, the hostname cache, the rings and the log feed, each behind a
lock of its own, so that others may come in between two calls. `packetOps` lists the calls for a packet;
made in a row they are `handlePacket` (`handle_eq`).
-/

namespace Trafficmon

inductive CaptureOp
  | record (key : FlowKey) (ts : Int) (n : UInt64) (inbound : Bool)
  | inspect (key : FlowKey) (inp : InspectInput)
  | learn (f : HostnameFinding) (ts : Int)
  | dnsQuery (f : QueryFinding)
  | sendDNSQuery (f : QueryFinding)
  | dnsError (f : DNSErrorFinding)
  | dnsAnswer (f : DNSAnswerFinding)
  | syn (ev : SYNEvent)
  | sendSYN (ev : SYNEvent)
  | rst (ev : RSTEvent)

/-- A call. Where a sweep has evicted a flow between `record` and `inspect`, the source writes to a counter that is in
no table, and this puts a new one into the table; no event depends on it (`Capture.Race` has the pointer). -/
def Capturer.perform (newPacket : NewPacket) (c : Capturer) : CaptureOp → Capturer
  | .record key ts n inbound => c.record key ts n inbound
  | .inspect key inp => c.inspectFlow newPacket key inp
  | .learn f ts => { c with hostnameCache := c.hostnameCache.put f.ip f.hostname ts }
  | .dnsQuery f => { c with dnsQueries := c.dnsQueries.push f }
  | .sendDNSQuery f => { c with logFeed := c.logFeed.map (·.sendDNSQuery f) }
  | .dnsError f => { c with dnsErrors := c.dnsErrors.push f }
  | .dnsAnswer f => { c with dnsAnswers := c.dnsAnswers.push f }
  | .syn ev => { c with synEvents := c.synEvents.push ev }
  | .sendSYN ev => { c with logFeed := c.logFeed.map (·.sendSYN ev) }
  | .rst ev => { c with rstEvents := c.rstEvents.push ev }

/-! ### The calls for a packet -/

section Ops
variable (newPacket : NewPacket) (data : List UInt8) (info : PacketInfo) (linkType : LinkType) (ts : Int)

/-- Those of a turn of `inspectPassive`'s loop. -/
def PassiveInspector.ops (insp : PassiveInspector) : List CaptureOp :=
  if ¬ insp.candidate (passiveCandidate info) then []
  else
    match passivePayload newPacket data linkType (passiveCandidate info).isTCP with
    | none => []
    | some payload =>
      (insp.inspect payload).map (.learn · ts) ++
        (insp.queriesIn payload info.src.string info.dst.string ts).flatMap (fun f => [.dnsQuery f, .sendDNSQuery f]) ++
        (insp.errorsIn payload info.src.string ts).map .dnsError ++
        (insp.answersIn payload info.src.string ts).map .dnsAnswer

/-- Those for a packet of a flow. -/
def flowOps (insps : List PassiveInspector) (iface : String) (key : FlowKey) (inbound : Bool) : List CaptureOp :=
  [.record key ts info.bytes inbound, .inspect key ⟨data, info, inbound, linkType, ts⟩] ++
    insps.flatMap (PassiveInspector.ops newPacket data info linkType ts) ++
    (if info.proto = .tcp ∧ info.syn ∧ ¬ info.ack then
      let ev : SYNEvent := ⟨iface, key.localAddr, key.localPort, key.remoteAddr, key.remotePort, ts⟩
      [.syn ev, .sendSYN ev]
    else []) ++
    (if info.proto = .tcp ∧ info.rst then
      [.rst ⟨iface, key.localAddr, key.localPort, key.remoteAddr, key.remotePort, ts⟩]
    else [])

end Ops

def CapturedPacket.ops (dfb : LayerDecoders) (newPacket : NewPacket) (isLocal : Addr → Bool)
    (insps : List PassiveInspector) (p : CapturedPacket) : List CaptureOp :=
  match p.info dfb with
  | none => []
  | some info =>
    match normalise info p.iface isLocal with
    | none => []
    | some (key, inbound) => flowOps newPacket p.data info p.dec.linkType p.ts insps p.iface key inbound

/-! ### Made in a row -/

section Row
variable (newPacket : NewPacket)

theorem foldl_learn (fs : List HostnameFinding) (ts : Int) (c : Capturer) :
    (fs.map (CaptureOp.learn · ts)).foldl (Capturer.perform newPacket) c =
      { c with hostnameCache := fs.foldl (fun cache f => cache.put f.ip f.hostname ts) c.hostnameCache } := by
  induction fs generalizing c with
  | nil => rfl
  | cons f fs ih => exact ih _

theorem foldl_dnsError (fs : List DNSErrorFinding) (c : Capturer) :
    (fs.map CaptureOp.dnsError).foldl (Capturer.perform newPacket) c =
      { c with dnsErrors := fs.foldl EventRing.push c.dnsErrors } := by
  induction fs generalizing c with
  | nil => rfl
  | cons f fs ih => exact ih _

theorem foldl_dnsAnswer (fs : List DNSAnswerFinding) (c : Capturer) :
    (fs.map CaptureOp.dnsAnswer).foldl (Capturer.perform newPacket) c =
      { c with dnsAnswers := fs.foldl EventRing.push c.dnsAnswers } := by
  induction fs generalizing c with
  | nil => rfl
  | cons f fs ih => exact ih _

theorem foldl_dnsQuery (fs : List QueryFinding) (h : Handled) :
    (fs.flatMap fun f => [CaptureOp.dnsQuery f, .sendDNSQuery f]).foldl (Capturer.perform newPacket) h.capturer =
      (fs.foldl Handled.reportQuery h).capturer := by
  induction fs generalizing h with
  | nil => rfl
  | cons f fs ih =>
    rw [List.flatMap_cons, List.foldl_append, List.foldl_cons]
    exact ih (h.reportQuery f)

variable (data : List UInt8) (info : PacketInfo) (linkType : LinkType) (ts : Int)

theorem passive_eq (h : Handled) (insp : PassiveInspector) :
    (h.passive newPacket data info linkType ts insp).capturer =
      (insp.ops newPacket data info linkType ts).foldl (Capturer.perform newPacket) h.capturer := by
  unfold Handled.passive PassiveInspector.ops
  dsimp only
  by_cases hcand : insp.candidate (passiveCandidate info)
  · rw [if_neg (not_not.2 hcand), if_neg (not_not.2 hcand)]
    cases passivePayload newPacket data linkType (passiveCandidate info).isTCP with
    | none => rfl
    | some payload =>
      dsimp only
      rw [List.foldl_append, List.foldl_append, List.foldl_append, foldl_learn, foldl_dnsAnswer, foldl_dnsError,
        ← foldl_dnsQuery]
  · rw [if_pos hcand, if_pos hcand]
    rfl

theorem inspectPassive_eq (c : Capturer) :
    (c.inspectPassive newPacket data info linkType ts).capturer =
      (c.cfg.passiveInspectors.flatMap (PassiveInspector.ops newPacket data info linkType ts)).foldl
        (Capturer.perform newPacket) c := by
  unfold Capturer.inspectPassive
  generalize c.cfg.passiveInspectors = insps
  suffices h : ∀ h : Handled, (insps.foldl (Handled.passive newPacket data info linkType ts) h).capturer =
      (insps.flatMap (PassiveInspector.ops newPacket data info linkType ts)).foldl (Capturer.perform newPacket)
        h.capturer from h { capturer := c }
  induction insps with
  | nil => exact fun _ => rfl
  | cons insp insps ih =>
    intro h
    rw [List.foldl_cons, ih, passive_eq, List.flatMap_cons, List.foldl_append]

theorem handleFlow_eq (c : Capturer) (iface : String) (key : FlowKey) (inbound : Bool) :
    (c.handleFlow newPacket linkType iface data info key inbound ts).capturer =
      (flowOps newPacket data info linkType ts c.cfg.passiveInspectors iface key inbound).foldl
        (Capturer.perform newPacket) c := by
  unfold Capturer.handleFlow flowOps
  dsimp only
  rw [List.foldl_append, List.foldl_append, List.foldl_append]
  have hpassive := inspectPassive_eq newPacket data info linkType ts
    ((c.record key ts info.bytes inbound).inspectFlow newPacket key ⟨data, info, inbound, linkType, ts⟩)
  generalize Capturer.inspectPassive newPacket _ data info linkType ts = h at hpassive ⊢
  -- recording and inspecting leave the configuration alone
  replace hpassive : h.capturer =
      (c.cfg.passiveInspectors.flatMap (PassiveInspector.ops newPacket data info linkType ts)).foldl
        (Capturer.perform newPacket) ((c.record key ts info.bytes inbound).inspectFlow newPacket key
          ⟨data, info, inbound, linkType, ts⟩) := hpassive
  split_ifs <;> simp only [List.foldl_cons, List.foldl_nil, Capturer.perform, ← hpassive] <;> rfl

end Row

theorem handle_eq (dfb : LayerDecoders) (newPacket : NewPacket) (isLocal : Addr → Bool) (c : Capturer)
    (p : CapturedPacket) : c.handle dfb newPacket isLocal p =
      (p.ops dfb newPacket isLocal c.cfg.passiveInspectors).foldl (Capturer.perform newPacket) c := by
  unfold Capturer.handle Capturer.handlePacket CapturedPacket.ops CapturedPacket.info
  cases p.dec.decode dfb p.data with
  | mk dec' info =>
    cases info with
    | none => rfl
    | some info =>
      dsimp only
      cases normalise info p.iface isLocal with
      | none => rfl
      | some kd => exact handleFlow_eq newPacket p.data info p.dec.linkType p.ts c p.iface kd.1 kd.2

end Trafficmon
