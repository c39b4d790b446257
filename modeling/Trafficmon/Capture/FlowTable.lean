import Mathlib.Data.Sym.Sym2
import Trafficmon.Capture.Handle

/-!
# The flow table over a run (`Capturer.handlePacket`, `normalise`)

Packets of any number of interfaces, handled one after the other with no eviction between them. Each
comes with the decoder of its interface as it is at that moment. A packet with a local end is credited
to one flow in one direction (`credit`), and the table is the fold of the credits (`flowTable_fold`).
-/

namespace Trafficmon

structure CapturedPacket where
  dec : FlowDecoder
  iface : String
  data : List UInt8
  timestamp : Int
  clock : Int

/-- What a packet adds to which counter. -/
structure Credit where
  key : FlowKey
  inbound : Bool
  ts : Int
  bytes : UInt64
deriving DecidableEq, Repr

namespace CapturedPacket

def info (dfb : LayerDecoders) (p : CapturedPacket) : Option PacketInfo := (p.dec.decode dfb p.data).2

def ts (p : CapturedPacket) : Int := if p.timestamp = 0 then p.clock else p.timestamp

def credit (dfb : LayerDecoders) (isLocal : Addr → Bool) (p : CapturedPacket) : Option Credit := do
  let info ← p.info dfb
  let (key, inbound) ← normalise info p.iface isLocal
  return ⟨key, inbound, p.ts, info.bytes⟩

end CapturedPacket

def Capturer.handle (dfb : LayerDecoders) (newPacket : NewPacket) (isLocal : Addr → Bool) (c : Capturer)
    (p : CapturedPacket) : Capturer :=
  (c.handlePacket dfb newPacket p.dec p.iface isLocal p.data p.timestamp p.clock).2.capturer

def credits (dfb : LayerDecoders) (isLocal : Addr → Bool) (ps : List CapturedPacket) : List Credit :=
  ps.filterMap (CapturedPacket.credit dfb isLocal)

/-- The bytes credited to a flow in one direction. -/
def creditedBytes (crs : List Credit) (k : FlowKey) (inbound : Bool) : ℕ :=
  ((crs.filter fun cr => cr.key = k ∧ cr.inbound = inbound).map fun cr => cr.bytes.toNat).sum

def creditedTimes (crs : List Credit) (k : FlowKey) : List Int := (crs.filter fun cr => cr.key = k).map Credit.ts

/-- The two endpoints of a packet, in no order. -/
def PacketInfo.ends (info : PacketInfo) : Sym2 (Addr × UInt16) := s((info.src, info.srcPort), (info.dst, info.dstPort))

/-- A packet with a local end is credited to exactly one flow in exactly one direction, any other to none. -/
def CreditedOnce (dfb : LayerDecoders) (isLocal : Addr → Bool) : Prop :=
  ∀ p info, CapturedPacket.info dfb p = some info →
    if isLocal info.src ∨ isLocal info.dst then
      ∃! kd : FlowKey × Bool, p.credit dfb isLocal = some ⟨kd.1, kd.2, p.ts, info.bytes⟩
    else p.credit dfb isLocal = none

/-- The two directions of a connection with one local end share a key. -/
def OppositesShareKey (isLocal : Addr → Bool) : Prop :=
  ∀ info info' iface, info'.src = info.dst → info'.dst = info.src → info'.srcPort = info.dstPort →
    info'.dstPort = info.srcPort → info'.proto = info.proto → isLocal info.src ≠ isLocal info.dst →
    ∃ k inbound, normalise info iface isLocal = some (k, inbound) ∧ normalise info' iface isLocal = some (k, ! inbound)

/-- Packets that share a key have the same two ends, protocol and interface. -/
def KeysDistinguish (isLocal : Addr → Bool) : Prop :=
  ∀ info info' iface iface' k inbound inbound', normalise info iface isLocal = some (k, inbound) →
    normalise info' iface' isLocal = some (k, inbound') →
    info.ends = info'.ends ∧ info.proto = info'.proto ∧ iface = iface'

/-! ### What handling a packet does to the counters -/

/-- The part of a counter that hostname detection leaves alone. -/
def ByteCounter.seen (c : ByteCounter) : UInt64 × UInt64 × Int := (c.bytesIn, c.bytesOut, c.lastSeen)

namespace Inspection
variable {s : Inspection} {insp : Inspector} {inp : InspectInput} {remote : Addr} {seq : UInt32} {payload : List UInt8}

theorem ask_seen (ts : Int) : (s.ask insp payload remote ts).ctr.seen = s.ctr.seen := by
  rw [ask_ctr]
  cases insp.inspect payload with
  | none => rfl
  | some host =>
    show (s.ctr.setHostname host).seen = _
    unfold ByteCounter.setHostname
    split <;> rfl

theorem addHelloSegment_seen (c : ByteCounter) (name : String) (seq : UInt32) (payload : List UInt8) :
    (c.addHelloSegment name seq payload).1.seen = c.seen := by
  unfold ByteCounter.addHelloSegment
  cases c.assembler <;> rfl

theorem examine_seen : (s.examine insp inp remote seq payload).ctr.seen = s.ctr.seen := by
  have hmark : ∀ s : Inspection, s.mark.ctr.seen = s.ctr.seen := fun _ => rfl
  unfold examine
  split
  · rw [ask_seen, hmark]
  · have hfed := addHelloSegment_seen s.ctr insp.name seq payload
    rcases hseg : s.ctr.addHelloSegment insp.name seq payload with ⟨ctr, ready, done⟩
    rw [hseg] at hfed
    cases ready <;> cases done <;> simp only [Bool.false_eq_true, if_true, if_false, hmark, ask_seen] <;> exact hfed

theorem inspect_seen (inspectors : List Inspector) (newPacket : NewPacket) (s : Inspection) (inp : InspectInput)
    (remote : Addr) : (s.inspect inspectors newPacket inp remote).ctr.seen = s.ctr.seen := by
  rcases inspect_cases inspectors newPacket s inp remote with
    h | ⟨-, asked, -, h⟩ | ⟨-, asked, insp, -, seq, payload, -, h⟩
  · rw [h]
  · rw [h]
    rfl
  · rw [h, examine_seen]
    rfl

end Inspection

theorem flows_reportQueries (fs : List QueryFinding) (h : Handled) :
    (fs.foldl Handled.reportQuery h).capturer.flows = h.capturer.flows := by
  induction fs generalizing h with
  | nil => rfl
  | cons f fs ih => exact ih _

theorem flows_inspectPassive (newPacket : NewPacket) (c : Capturer) (data : List UInt8) (info : PacketInfo)
    (linkType : LinkType) (ts : Int) : (c.inspectPassive newPacket data info linkType ts).capturer.flows = c.flows := by
  unfold Capturer.inspectPassive
  induction c.cfg.passiveInspectors using List.reverseRecOn with
  | nil => rfl
  | append_singleton insps insp ih =>
    rw [List.foldl_append, List.foldl_cons, List.foldl_nil]
    refine Eq.trans ?_ ih
    generalize insps.foldl (Handled.passive newPacket data info linkType ts) { capturer := c } = h
    unfold Handled.passive
    dsimp only
    split
    · rfl
    · split
      · rfl
      · exact flows_reportQueries _ _

/-- What the table says of a flow. -/
def Capturer.seenAt (c : Capturer) (k : FlowKey) : Option (UInt64 × UInt64 × Int) :=
  (c.flows.lookup k).map ByteCounter.seen

/-- A counter's part after a credit. -/
def Credit.apply (cr : Credit) (o : Option (UInt64 × UInt64 × Int)) : UInt64 × UInt64 × Int :=
  let (bytesIn, bytesOut, lastSeen) := o.getD (0, 0, 0)
  (if cr.inbound then bytesIn + cr.bytes else bytesIn, if cr.inbound then bytesOut else bytesOut + cr.bytes,
    max lastSeen cr.ts)

section Handling
variable {dfb : LayerDecoders} {newPacket : NewPacket} {isLocal : Addr → Bool} {c : Capturer} {p : CapturedPacket}
  {k : FlowKey} {cr : Credit}

theorem seenAt_handleFlow (newPacket : NewPacket) (c : Capturer) (linkType : LinkType) (iface : String)
    (data : List UInt8) (info : PacketInfo) (key : FlowKey) (inbound : Bool) (ts : Int) (k : FlowKey) :
    (c.handleFlow newPacket linkType iface data info key inbound ts).capturer.seenAt k =
      if k = key then some ((⟨key, inbound, ts, info.bytes⟩ : Credit).apply (c.seenAt key)) else c.seenAt k := by
  have hflows : (c.handleFlow newPacket linkType iface data info key inbound ts).capturer.flows =
      ((c.record key ts info.bytes inbound).inspectFlow newPacket key ⟨data, info, inbound, linkType, ts⟩).flows := by
    refine Eq.trans ?_ (flows_inspectPassive newPacket _ data info linkType ts)
    unfold Capturer.handleFlow
    dsimp only
    split <;> split <;> rfl
  rw [Capturer.seenAt, hflows, Capturer.inspectFlow, GoMap.lookup_insert_eq]
  by_cases hk : k = key
  · rw [if_pos hk, if_pos hk, Option.map_some, Inspection.inspect_seen, Capturer.lookup_record, if_pos rfl,
      Option.getD_some]
    have hadd : ∀ ctr : ByteCounter, (ctr.add ts info.bytes inbound).seen =
        (⟨key, inbound, ts, info.bytes⟩ : Credit).apply (some ctr.seen) := fun ctr => by
      simp [ByteCounter.seen, Credit.apply]
    rw [hadd, Capturer.seenAt]
    cases c.flows.lookup key <;> rfl
  · rw [if_neg hk, if_neg hk, Capturer.lookup_record, if_neg hk]
    rfl

/-- A packet with a credit changes the one counter, one without changes nothing. -/
theorem seenAt_handle (dfb : LayerDecoders) (newPacket : NewPacket) (isLocal : Addr → Bool) (c : Capturer)
    (p : CapturedPacket) (k : FlowKey) :
    (c.handle dfb newPacket isLocal p).seenAt k =
      match p.credit dfb isLocal with
      | none => c.seenAt k
      | some cr => if k = cr.key then some (cr.apply (c.seenAt cr.key)) else c.seenAt k := by
  unfold CapturedPacket.credit CapturedPacket.info
  rcases hdec : p.dec.decode dfb p.data with ⟨dec', o⟩
  cases o with
  | none => simp [Capturer.handle, Capturer.handlePacket, hdec]
  | some info =>
    cases hn : normalise info p.iface isLocal with
    | none => simp [Capturer.handle, Capturer.handlePacket, hdec, hn]
    | some r =>
      rw [Capturer.handle, handlePacket_flow (by rw [hdec]) hn, seenAt_handleFlow]
      simp [hn, CapturedPacket.ts]

/-! ### The fold -/

theorem creditedBytes_concat (crs : List Credit) (cr : Credit) (k : FlowKey) (inbound : Bool) :
    creditedBytes (crs ++ [cr]) k inbound =
      creditedBytes crs k inbound + if cr.key = k ∧ cr.inbound = inbound then cr.bytes.toNat else 0 := by
  rw [creditedBytes, List.filter_append, List.map_append, List.sum_append, creditedBytes]
  congr 1
  by_cases h : cr.key = k ∧ cr.inbound = inbound <;> simp [h]

theorem creditedTimes_concat (crs : List Credit) (cr : Credit) (k : FlowKey) :
    creditedTimes (crs ++ [cr]) k = creditedTimes crs k ++ if cr.key = k then [cr.ts] else [] := by
  rw [creditedTimes, List.filter_append, List.map_append, creditedTimes]
  congr 1
  by_cases h : cr.key = k <;> simp [h]

/-- The counter that the credits of `k` fold up to. -/
structure FoldOf (crs : List Credit) (k : FlowKey) (ctr : UInt64 × UInt64 × Int) : Prop where
  bytesIn : ctr.1.toNat = creditedBytes crs k true % 2 ^ 64
  bytesOut : ctr.2.1.toNat = creditedBytes crs k false % 2 ^ 64
  lastSeen : ctr.2.2 = (creditedTimes crs k).foldl max 0

theorem foldOf_concat {crs : List Credit} {o : Option (UInt64 × UInt64 × Int)}
    (h : FoldOf crs cr.key (o.getD (0, 0, 0))) : FoldOf (crs ++ [cr]) cr.key (cr.apply o) := by
  obtain ⟨hin, hout, hlast⟩ := h
  rw [Credit.apply]
  refine ⟨?_, ?_, ?_⟩
  · rw [creditedBytes_concat]
    cases cr.inbound <;> simp [hin]
  · rw [creditedBytes_concat]
    cases cr.inbound <;> simp [hout]
  · rw [creditedTimes_concat, if_pos rfl, List.foldl_append, ← hlast]
    rfl

theorem foldOf_concat_ne {crs : List Credit} {ctr : UInt64 × UInt64 × Int} (hk : k ≠ cr.key) (h : FoldOf crs k ctr) :
    FoldOf (crs ++ [cr]) k ctr := by
  obtain ⟨hin, hout, hlast⟩ := h
  refine ⟨?_, ?_, ?_⟩
  · rw [creditedBytes_concat, if_neg fun e => hk e.1.symm, Nat.add_zero, hin]
  · rw [creditedBytes_concat, if_neg fun e => hk e.1.symm, Nat.add_zero, hout]
  · rw [creditedTimes_concat, if_neg fun e => hk e.symm, List.append_nil, hlast]

/-- A flow is in the table if a packet was credited to it, with the fold of its credits. -/
theorem seenAt_run (dfb : LayerDecoders) (newPacket : NewPacket) (isLocal : Addr → Bool) (hc : c.flows = ∅)
    (ps : List CapturedPacket) (k : FlowKey) :
    ((ps.foldl (Capturer.handle dfb newPacket isLocal) c).seenAt k).isSome =
        decide (∃ cr ∈ credits dfb isLocal ps, cr.key = k) ∧
      FoldOf (credits dfb isLocal ps) k
        (((ps.foldl (Capturer.handle dfb newPacket isLocal) c).seenAt k).getD (0, 0, 0)) := by
  induction ps using List.reverseRecOn generalizing k with
  | nil =>
    have hnone : c.seenAt k = none := by rw [Capturer.seenAt, hc]; rfl
    rw [List.foldl_nil, hnone]
    exact ⟨by simp [credits], rfl, rfl, rfl⟩
  | append_singleton ps p ih =>
    rw [List.foldl_append, List.foldl_cons, List.foldl_nil, seenAt_handle]
    have hcredits : credits dfb isLocal (ps ++ [p]) = credits dfb isLocal ps ++ (p.credit dfb isLocal).toList := by
      rw [credits, List.filterMap_append, credits]
      cases h : p.credit dfb isLocal <;> simp [h]
    rw [hcredits]
    cases p.credit dfb isLocal with
    | none =>
      rw [Option.toList_none, List.append_nil]
      exact ih k
    | some cr =>
      rw [Option.toList_some]
      dsimp only
      by_cases hk : k = cr.key
      · subst hk
        rw [if_pos rfl]
        exact ⟨by simp, foldOf_concat (ih _).2⟩
      · rw [if_neg hk]
        refine ⟨?_, foldOf_concat_ne hk (ih k).2⟩
        rw [(ih k).1, decide_eq_decide]
        constructor
        · rintro ⟨cr', hcr', hkey⟩
          exact ⟨cr', List.mem_append_left _ hcr', hkey⟩
        · rintro ⟨cr', hcr', hkey⟩
          rcases List.mem_append.1 hcr' with hcr' | hcr'
          · exact ⟨cr', hcr', hkey⟩
          · rw [List.mem_singleton.1 hcr'] at hkey
            exact absurd hkey.symm hk

/-! ### Attribution -/

theorem creditedOnce (dfb : LayerDecoders) (isLocal : Addr → Bool) : CreditedOnce dfb isLocal := by
  intro p info hinfo
  have hcredit : p.credit dfb isLocal =
      (normalise info p.iface isLocal).map fun r => ⟨r.1, r.2, p.ts, info.bytes⟩ := by
    rw [CapturedPacket.credit, hinfo]
    cases hn : normalise info p.iface isLocal <;> simp [hn]
  have hunique : ∀ r : FlowKey × Bool, normalise info p.iface isLocal = some r →
      ∃! kd : FlowKey × Bool, p.credit dfb isLocal = some ⟨kd.1, kd.2, p.ts, info.bytes⟩ := by
    intro r hr
    rw [hcredit, hr]
    refine ⟨r, rfl, fun kd hkd => ?_⟩
    simp only [Option.map_some, Option.some.injEq, Credit.mk.injEq, and_true] at hkd
    exact Prod.ext hkd.1.symm hkd.2.symm
  by_cases hsrc : isLocal info.src
  · rw [if_pos (.inl hsrc)]
    exact hunique _ (if_pos hsrc)
  · by_cases hdst : isLocal info.dst
    · rw [if_pos (.inr hdst)]
      exact hunique _ ((if_neg hsrc).trans (if_pos hdst))
    · rw [if_neg (by simp [hsrc, hdst]), hcredit, normalise, if_neg hsrc, if_neg hdst]
      rfl

theorem oppositesShareKey (isLocal : Addr → Bool) : OppositesShareKey isLocal := by
  intro info info' iface hsrc hdst hsp hdp hproto hone
  unfold normalise
  rw [hsrc, hdst, hsp, hdp, hproto]
  cases h : isLocal info.src <;> cases h' : isLocal info.dst
  · exact absurd (h.trans h'.symm) hone
  · exact ⟨⟨info.dst, info.dstPort, info.src, info.srcPort, info.proto, iface⟩, true, by simp, by simp⟩
  · exact ⟨⟨info.src, info.srcPort, info.dst, info.dstPort, info.proto, iface⟩, false, by simp, by simp⟩
  · exact absurd (h.trans h'.symm) hone

/-- The key a packet is folded onto has its two ends, its protocol and its interface. -/
theorem ends_of_normalise {info : PacketInfo} {iface : String} {inbound : Bool}
    (h : normalise info iface isLocal = some (k, inbound)) :
    info.ends = s((k.localAddr, k.localPort), (k.remoteAddr, k.remotePort)) ∧ info.proto = k.proto ∧
      iface = k.iface := by
  unfold normalise at h
  split at h
  · cases h
    exact ⟨rfl, rfl, rfl⟩
  · split at h
    · cases h
      exact ⟨Sym2.eq_swap, rfl, rfl⟩
    · cases h

theorem keysDistinguish (isLocal : Addr → Bool) : KeysDistinguish isLocal := by
  intro info info' iface iface' k inbound inbound' h h'
  obtain ⟨hends, hproto, hiface⟩ := ends_of_normalise h
  obtain ⟨hends', hproto', hiface'⟩ := ends_of_normalise h'
  exact ⟨hends.trans hends'.symm, hproto.trans hproto'.symm, hiface.trans hiface'.symm⟩

/-- From an empty table, over any packets: the flows in the table are those credited, each with the bytes credited to
it either way modulo `2 ^ 64` and the latest of the times and the zero time; and the credits go where they should. -/
theorem flowTable_fold (dfb : LayerDecoders) (newPacket : NewPacket) (isLocal : Addr → Bool) (c : Capturer)
    (hc : c.flows = ∅) (ps : List CapturedPacket) :
    (∀ k, ((ps.foldl (Capturer.handle dfb newPacket isLocal) c).flows.lookup k).isSome ↔
      ∃ cr ∈ credits dfb isLocal ps, cr.key = k) ∧
    (∀ k ctr, (ps.foldl (Capturer.handle dfb newPacket isLocal) c).flows.lookup k = some ctr →
      ctr.bytesIn.toNat = creditedBytes (credits dfb isLocal ps) k true % 2 ^ 64 ∧
      ctr.bytesOut.toNat = creditedBytes (credits dfb isLocal ps) k false % 2 ^ 64 ∧
      ctr.lastSeen = (creditedTimes (credits dfb isLocal ps) k).foldl max 0) ∧
    CreditedOnce dfb isLocal ∧ OppositesShareKey isLocal ∧ KeysDistinguish isLocal := by
  refine ⟨fun k => ?_, fun k ctr hctr => ?_, creditedOnce dfb isLocal, oppositesShareKey isLocal,
    keysDistinguish isLocal⟩
  · obtain ⟨hsome, -⟩ := seenAt_run dfb newPacket isLocal hc ps k
    rw [Capturer.seenAt, Option.isSome_map] at hsome
    rw [hsome, decide_eq_true_iff]
  · obtain ⟨-, hfold⟩ := seenAt_run dfb newPacket isLocal hc ps k
    rw [Capturer.seenAt, hctr] at hfold
    exact ⟨hfold.bytesIn, hfold.bytesOut, hfold.lastSeen⟩

end Handling

/-- The connection attempt `synPacket`, seen by the client at `timestamp`. -/
def synCapture (timestamp : Int) : CapturedPacket := ⟨rawDecoder, "en0", synPacket, timestamp, 0⟩

def isClient (a : Addr) : Bool := a = .ipv4 192 168 1 10

def synCaptureKey : FlowKey := ⟨.ipv4 192 168 1 10, 51000, .ipv4 140 82 112 3, 443, .tcp, "en0"⟩

theorem credits_synCapture (ts : List Int) :
    credits ipv4Decoders isClient (ts.map synCapture) = ts.map fun t => ⟨synCaptureKey, false, t, 40⟩ := by
  have hinfo : ∀ t, (synCapture t).info ipv4Decoders = some synPacketInfo := fun _ => by
    show (rawDecoder.decode ipv4Decoders synPacket).2 = some synPacketInfo
    decide
  have hn : normalise synPacketInfo "en0" isClient = some (synCaptureKey, false) := by decide
  have hts : ∀ t, (synCapture t).ts = t := fun t => by
    show (if t = 0 then 0 else t) = t
    split <;> omega
  have hcredit : ∀ t, (synCapture t).credit ipv4Decoders isClient = some ⟨synCaptureKey, false, t, 40⟩ := fun t => by
    rw [CapturedPacket.credit, hinfo, Option.bind_eq_bind, Option.bind_some, hts]
    show (normalise synPacketInfo "en0" isClient).bind _ = _
    rw [hn]
    rfl
  rw [credits, List.filterMap_map]
  simp [hcredit]

theorem flowTable_fold_syn : ∃ ctr, ([synCapture 5, synCapture 3].foldl
    (Capturer.handle ipv4Decoders (fun _ _ => {}) isClient) {}).flows.lookup synCaptureKey = some ctr ∧
      ctr.bytesOut.toNat = 80 ∧ ctr.lastSeen = 5 := by
  obtain ⟨hkeys, hfold, -⟩ := flowTable_fold ipv4Decoders (fun _ _ => {}) isClient {} rfl [synCapture 5, synCapture 3]
  rw [show [synCapture 5, synCapture 3] = [5, 3].map synCapture from rfl, credits_synCapture] at hkeys hfold
  obtain ⟨ctr, hctr⟩ := Option.isSome_iff_exists.1 ((hkeys synCaptureKey).2 ⟨_, List.mem_cons_self, rfl⟩)
  obtain ⟨-, hout, hlast⟩ := hfold _ ctr hctr
  exact ⟨ctr, hctr, hout, hlast⟩

/-- A packet from before the zero time leaves its flow last seen at the zero time. -/
theorem lastSeen_before_zero : ∃ ctr, ([synCapture (-1)].foldl
    (Capturer.handle ipv4Decoders (fun _ _ => {}) isClient) {}).flows.lookup synCaptureKey = some ctr ∧
      creditedTimes (credits ipv4Decoders isClient [synCapture (-1)]) synCaptureKey = [-1] ∧ ctr.lastSeen = 0 := by
  have hcredits : credits ipv4Decoders isClient [synCapture (-1)] = [⟨synCaptureKey, false, -1, 40⟩] :=
    credits_synCapture [-1]
  obtain ⟨hsome, hfold⟩ :=
    seenAt_run ipv4Decoders (fun _ _ => {}) isClient (c := {}) rfl [synCapture (-1)] synCaptureKey
  rw [hcredits] at hsome hfold
  rw [Capturer.seenAt] at hsome hfold
  cases hctr : ([synCapture (-1)].foldl (Capturer.handle ipv4Decoders (fun _ _ => {}) isClient) {}).flows.lookup
    synCaptureKey with
  | none =>
    rw [hctr] at hsome
    cases hsome
  | some ctr =>
    rw [hctr] at hfold
    exact ⟨ctr, rfl, by rw [hcredits]; decide, hfold.lastSeen⟩

end Trafficmon
