import Trafficmon.Capture.FlowTable
import Trafficmon.Capture.InspectRun
import Trafficmon.Dpi.Defaults

/-!
# Which inspectors, in which order (`capture/dpi_dispatch.go`, `dpi.DefaultInspectors`)

`inspect` asks only the first inspector that takes a packet, so that in general their order matters.
It does not when no packet is a candidate of two of them and no two have one name: whatever
packets come, the capturer is then the same under every order (`inspectors_perm`). The comment on
`inspect` relies on this for `DefaultInspectors`.

The same inspectors take outbound packets only. What the remote end sends can then end the search for a
flow's hostname, but can neither supply the hostname nor change it (`inbound_only_ends`).
-/

namespace Trafficmon

/-- When at most one element satisfies `p`, every order finds it. -/
theorem find?_perm {α : Type*} {p : α → Bool} {l l' : List α} (h : l.Perm l')
    (hone : ∀ a ∈ l, ∀ b ∈ l, p a → p b → a = b) : l.find? p = l'.find? p := by
  cases hf : l.find? p with
  | none =>
    rw [List.find?_eq_none] at hf
    exact (List.find?_eq_none.2 fun a ha => hf a (h.mem_iff.2 ha)).symm
  | some a =>
    have ha := List.mem_of_find?_eq_some hf
    have hpa := List.find?_some hf
    obtain ⟨b, hb⟩ := Option.isSome_iff_exists.1 (List.find?_isSome.2 ⟨a, h.mem_iff.1 ha, hpa⟩)
    rw [hb, hone a ha b (h.mem_iff.2 (List.mem_of_find?_eq_some hb)) hpa (List.find?_some hb)]

instance : Std.Symm fun a b : Inspector => ∀ p, ¬ (a.candidate p = true ∧ b.candidate p = true) :=
  ⟨fun _ _ h p hp => h p hp.symm⟩

theorem Inspectors.Disjoint.perm {insps insps' : List Inspector} (hdisj : Inspectors.Disjoint insps)
    (h : insps.Perm insps') : Inspectors.Disjoint insps' :=
  List.Pairwise.perm hdisj h fun hab p hp => hab p hp.symm

namespace Inspection

/-- The search but for what has been asked. -/
def quiet (s : Inspection) : Inspection := { s with calls := [] }

/-- Whether an inspector takes the packet. -/
def takes (want : Option String) (inp : InspectInput) (payload : List UInt8) (insp : Inspector) : Bool :=
  match want with
  | some name => ! inp.inbound && insp.name = name
  | none => insp.candidate { inp.cand with payload := payload }

section
variable {s s' : Inspection} {inp : InspectInput} {remote : Addr} {seq : UInt32} {payload : List UInt8}

theorem log_quiet (s : Inspection) (call : DpiCall) : (s.log call).quiet = s.quiet := rfl

theorem ask_congr (h : s.quiet = s'.quiet) (insp : Inspector) (payload : List UInt8) (remote : Addr) (ts : Int) :
    (s.ask insp payload remote ts).quiet = (s'.ask insp payload remote ts).quiet := by
  obtain ⟨ctr, cache, calls⟩ := s
  obtain ⟨ctr', cache', calls'⟩ := s'
  obtain ⟨rfl, rfl, -⟩ := Inspection.mk.inj h
  unfold ask
  dsimp only
  split <;> rfl

theorem mark_congr (h : s.quiet = s'.quiet) : s.mark.quiet = s'.mark.quiet := congrArg mark h

/-- What an examination does, it does whatever has been asked before. -/
theorem examine_congr (h : s.quiet = s'.quiet) (insp : Inspector) (inp : InspectInput) (remote : Addr) (seq : UInt32)
    (payload : List UInt8) :
    (s.examine insp inp remote seq payload).quiet = (s'.examine insp inp remote seq payload).quiet := by
  obtain ⟨hctr, hcache, -⟩ := Inspection.mk.inj h
  unfold examine
  rw [hctr]
  split
  · exact ask_congr (mark_congr h) insp payload remote inp.ts
  · generalize s'.ctr.addHelloSegment insp.name seq payload = fed
    obtain ⟨ctr, ready, done⟩ := fed
    have hfed : ({ s with ctr := ctr }.log (.feed insp (! inp.inbound) seq payload)).quiet =
        ({ s' with ctr := ctr }.log (.feed insp (! inp.inbound) seq payload)).quiet := by
      rw [log_quiet, log_quiet, quiet, quiet, hcache]
    have hasked := fun ready => ask_congr hfed insp ready remote inp.ts
    cases ready with
    | none =>
      cases done with
      | false => exact hfed
      | true => exact mark_congr hfed
    | some ready =>
      cases done with
      | false => exact hasked ready
      | true => exact mark_congr (hasked ready)

/-- The loop over the inspectors, by the one that takes the packet. -/
theorem offer_quiet (want : Option String) (inp : InspectInput) (remote : Addr) (seq : UInt32) (payload : List UInt8)
    (insps : List Inspector) (s : Inspection) :
    (s.offer want inp remote seq payload insps).quiet =
      ((insps.find? (takes want inp payload)).elim (if want.isNone then s.mark else s)
        fun insp => s.examine insp inp remote seq payload).quiet := by
  induction insps generalizing s with
  | nil => rfl
  | cons insp rest ih =>
    cases want with
    | some name =>
      rw [offer, List.find?_cons]
      by_cases hown : inp.inbound ∨ insp.name ≠ name
      · have hskip : takes (some name) inp payload insp = false := by
          rcases hown with hin | hname
          · simp [takes, hin]
          · simp [takes, hname]
        rw [if_pos hown, hskip]
        exact ih s
      · have htake : takes (some name) inp payload insp = true := by
          simp only [not_or, not_not] at hown
          simp [takes, hown]
        rw [if_neg hown, htake]
        rfl
    | none =>
      have hasked : (s.log (.candidate insp)).quiet = s.quiet := rfl
      rw [offer, List.find?_cons]
      dsimp only
      by_cases hcand : insp.candidate { inp.cand with payload := payload } = true
      · rw [if_neg (not_not.2 hcand), show takes none inp payload insp = true from hcand]
        exact examine_congr hasked insp inp remote seq payload
      · rw [if_pos hcand, show takes none inp payload insp = false from Bool.eq_false_iff.2 hcand, ih]
        cases rest.find? (takes none inp payload) with
        | none => rfl
        | some insp' => exact examine_congr hasked insp' inp remote seq payload

theorem takes_unique {insps : List Inspector} (hdisj : Inspectors.Disjoint insps) (hnames : (insps.map (·.name)).Nodup)
    (want : Option String) (inp : InspectInput) (payload : List UInt8) :
    ∀ a ∈ insps, ∀ b ∈ insps, takes want inp payload a → takes want inp payload b → a = b := by
  intro a ha b hb hta htb
  cases want with
  | some name =>
    simp only [takes, Bool.and_eq_true, decide_eq_true_eq] at hta htb
    exact List.inj_on_of_nodup_map hnames ha hb (hta.2.trans htb.2.symm)
  | none =>
    by_contra hne
    exact List.Pairwise.forall hdisj ha hb hne _ ⟨hta, htb⟩

/-- One packet under two orders of the inspectors. -/
theorem inspect_perm {insps insps' : List Inspector} (h : insps.Perm insps') (hdisj : Inspectors.Disjoint insps)
    (hnames : (insps.map (·.name)).Nodup) (newPacket : NewPacket) (s : Inspection) (inp : InspectInput) (remote : Addr) :
    (s.inspect insps newPacket inp remote).quiet = (s.inspect insps' newPacket inp remote).quiet := by
  unfold inspect
  rw [h.length_eq]
  split
  · rfl
  · dsimp only
    split
    · rfl
    · cases inp.extract newPacket with
      | none => rfl
      | some r =>
        dsimp only
        rw [offer_quiet, offer_quiet, find?_perm h (takes_unique hdisj hnames _ inp r.2)]

/-- A packet does to the search what it does whatever has been asked before. -/
theorem inspect_congr (h : s.quiet = s'.quiet) (insps : List Inspector) (newPacket : NewPacket) (inp : InspectInput)
    (remote : Addr) :
    (s.inspect insps newPacket inp remote).quiet = (s'.inspect insps newPacket inp remote).quiet := by
  obtain ⟨hctr, -, -⟩ := Inspection.mk.inj h
  unfold inspect
  rw [hctr]
  split
  · exact h
  · dsimp only
    split
    · exact h
    · cases inp.extract newPacket with
      | none =>
        dsimp only
        split
        · exact mark_congr h
        · exact h
      | some r =>
        dsimp only
        generalize (if (inp.isTCP && s'.ctr.helloInProgress) = true then some s'.ctr.helloInspector else none) = want
        rw [offer_quiet, offer_quiet]
        cases insps.find? (takes want inp r.2) with
        | some insp => exact examine_congr h insp inp remote r.1 r.2
        | none =>
          cases want with
          | some name => exact h
          | none => exact mark_congr h

end

/-! ### Inbound packets -/

/-- The search is over, and has found nothing. -/
def Over (s : Inspection) : Prop := s.ctr.hostname = "" ∧ s.ctr.hostnameAttempted = true

/-- No inspector takes an inbound packet. -/
def OutboundOnly (insps : List Inspector) : Prop := ∀ insp ∈ insps, ∀ p, insp.candidate p = true → p.outbound = true

section
variable {insps : List Inspector} {newPacket : NewPacket} {remote : Addr} {s s' : Inspection} {inp : InspectInput}

theorem Over.inspect (h : s.Over) : s.inspect insps newPacket inp remote = s :=
  inspect_settled (needs_false_of_attempted h.2)

/-- An inbound packet does nothing to the search or ends it. -/
theorem inspect_of_inbound (hout : OutboundOnly insps) (hin : inp.inbound = true) :
    (s.inspect insps newPacket inp remote).quiet = s.quiet ∨ (s.inspect insps newPacket inp remote).Over := by
  unfold inspect
  split
  · exact .inl rfl
  · rename_i hneeds
    simp only [not_or, not_not] at hneeds
    have hover : s.mark.Over := ⟨(ByteCounter.needsHostnameInspection_iff.1 hneeds.2).1, rfl⟩
    dsimp only
    split
    · exact .inl rfl
    · cases inp.extract newPacket with
      | none =>
        dsimp only
        split
        · exact .inr hover
        · exact .inl rfl
      | some r =>
        dsimp only
        generalize (if (inp.isTCP && s.ctr.helloInProgress) = true then some s.ctr.helloInspector else none) = want
        have hnone : insps.find? (takes want inp r.2) = none := by
          refine List.find?_eq_none.2 fun insp hmem htakes => ?_
          cases want with
          | some name => simp [takes, hin] at htakes
          | none =>
            have hp : (! inp.inbound) = true := hout insp hmem { inp.cand with payload := r.2 } htakes
            rw [hin] at hp
            cases hp
        have hoffer : ∀ s : Inspection, (s.offer want inp remote r.1 r.2 insps).quiet =
            (if want.isNone then s.mark else s).quiet := fun s => by rw [offer_quiet, hnone]; rfl
        cases want with
        | some name => exact .inl (hoffer s)
        | none =>
          refine .inr ?_
          obtain ⟨hctr, -, -⟩ := Inspection.mk.inj (hoffer s)
          rw [Over, hctr]
          exact hover

/-- With inspectors that take outbound packets only: over any packets of a flow, the search has either ended with
nothing, or it is where the outbound packets alone have brought it. A hostname that is found is the one
that would have been found without the inbound packets. -/
theorem inbound_only_ends (insps : List Inspector) (hout : OutboundOnly insps) (newPacket : NewPacket) (remote : Addr)
    (s : Inspection) (ps : List InspectInput) :
    (s.run insps newPacket remote ps).Over ∨
      (s.run insps newPacket remote ps).quiet =
        (s.run insps newPacket remote (ps.filter fun p => ! p.inbound)).quiet := by
  induction ps using List.reverseRecOn with
  | nil => exact .inr rfl
  | append_singleton ps inp ih =>
    rw [run_concat]
    rcases ih with hover | hsame
    · rw [hover.inspect]
      exact .inl hover
    · cases hin : inp.inbound with
      | false =>
        rw [List.filter_append, List.filter_cons_of_pos (by simp [hin]), List.filter_nil, run_concat]
        exact .inr (inspect_congr hsame insps newPacket inp remote)
      | true =>
        rw [List.filter_append, List.filter_cons_of_neg (by simp [hin]), List.filter_nil, List.append_nil]
        rcases inspect_of_inbound hout hin with hquiet | hover
        · exact .inr (hquiet.trans hsame)
        · exact .inl hover

end

end Inspection

theorem defaultInspectors_outboundOnly (P : Parsers) : Inspection.OutboundOnly (defaultInspectors P) := by
  intro insp hmem p hcand
  simp only [defaultInspectors, List.mem_cons, List.not_mem_nil, or_false] at hmem
  rcases hmem with rfl | rfl
  · simp only [tlsSNIInspector, Bool.and_eq_true] at hcand
    exact hcand.1.2
  · simp only [quicSNIInspector, Bool.and_eq_true] at hcand
    exact hcand.1.1.2

/-- Parsers that find one name in everything. -/
def sniParsers : Parsers :=
  ⟨fun _ => .ok "example.org", fun _ => .ok "example.org", fun _ => .error, fun _ => "", fun _ => ""⟩

/-- A packet of a QUIC flow, each way. -/
def quicPacket (inbound : Bool) : InspectInput where
  data := []
  info :=
    if inbound then
      { src := .ipv4 140 82 112 3, dst := .ipv4 192 168 1 10, srcPort := 443, dstPort := 51000, proto := .udp,
        bytes := 1200 }
    else
      { src := .ipv4 192 168 1 10, dst := .ipv4 140 82 112 3, srcPort := 51000, dstPort := 443, proto := .udp,
        bytes := 1200 }
  inbound := inbound
  linkType := .raw
  ts := 1

def quicLayers : NewPacket := fun _ _ => { udp := some [0xC3, 0, 0, 0, 1] }

theorem inbound_only_ends_quic :
    (Inspection.run (defaultInspectors sniParsers) quicLayers (.ipv4 140 82 112 3) ⟨{}, newHostnameCache 8 60, []⟩
      [quicPacket false, quicPacket true]).ctr.hostname =
    (Inspection.run (defaultInspectors sniParsers) quicLayers (.ipv4 140 82 112 3) ⟨{}, newHostnameCache 8 60, []⟩
      [quicPacket false]).ctr.hostname := by
  rcases Inspection.inbound_only_ends (defaultInspectors sniParsers) (defaultInspectors_outboundOnly _) quicLayers
    (.ipv4 140 82 112 3) ⟨{}, newHostnameCache 8 60, []⟩ [quicPacket false, quicPacket true] with hover | hsame
  · exact absurd hover.1 (by decide)
  · exact congrArg (fun s => s.ctr.hostname) hsame

/-! ### The capturer -/

namespace Capturer

def withInspectors (c : Capturer) (insps : List Inspector) : Capturer :=
  { c with cfg := { c.cfg with inspectors := insps } }

end Capturer

def Handled.withInspectors (h : Handled) (insps : List Inspector) : Handled :=
  { h with capturer := h.capturer.withInspectors insps }

section Passive
variable {newPacket : NewPacket} {c : Capturer} {h : Handled} {insps insps' : List Inspector}

theorem reportQueries_withInspectors (fs : List QueryFinding) (h : Handled) :
    fs.foldl Handled.reportQuery (h.withInspectors insps) = (fs.foldl Handled.reportQuery h).withInspectors insps := by
  induction fs generalizing h with
  | nil => rfl
  | cons f fs ih => exact ih (h.reportQuery f)

theorem passive_withInspectors (data : List UInt8) (info : PacketInfo) (linkType : LinkType) (ts : Int)
    (insp : PassiveInspector) :
    (h.withInspectors insps).passive newPacket data info linkType ts insp =
      (h.passive newPacket data info linkType ts insp).withInspectors insps := by
  unfold Handled.passive
  dsimp only
  split
  · rfl
  · cases passivePayload newPacket data linkType (passiveCandidate info).isTCP with
    | none => rfl
    | some payload =>
      have hcache : ∀ cache, ({ h.withInspectors insps with
          capturer := { (h.withInspectors insps).capturer with hostnameCache := cache } } : Handled) =
          Handled.withInspectors { h with capturer := { h.capturer with hostnameCache := cache } } insps := fun _ => rfl
      dsimp only
      rw [hcache, reportQueries_withInspectors]
      rfl

theorem inspectPassive_withInspectors (data : List UInt8) (info : PacketInfo) (linkType : LinkType) (ts : Int) :
    (c.withInspectors insps).inspectPassive newPacket data info linkType ts =
      (c.inspectPassive newPacket data info linkType ts).withInspectors insps := by
  have hfold : ∀ (ps : List PassiveInspector) (h : Handled),
      ps.foldl (Handled.passive newPacket data info linkType ts) (h.withInspectors insps) =
        (ps.foldl (Handled.passive newPacket data info linkType ts) h).withInspectors insps := by
    intro ps
    induction ps with
    | nil => exact fun _ => rfl
    | cons p ps ih =>
      intro h
      rw [List.foldl_cons, List.foldl_cons, passive_withInspectors, ih]
  exact hfold c.cfg.passiveInspectors { capturer := c }

end Passive

namespace Capturer
variable {dfb : LayerDecoders} {newPacket : NewPacket} {c : Capturer} {insps insps' : List Inspector}

theorem inspectFlow_perm (h : insps.Perm insps') (hdisj : Inspectors.Disjoint insps)
    (hnames : (insps.map (·.name)).Nodup) (key : FlowKey) (inp : InspectInput) :
    (c.withInspectors insps).inspectFlow newPacket key inp =
      ((c.withInspectors insps').inspectFlow newPacket key inp).withInspectors insps := by
  have hsame := Inspection.inspect_perm h hdisj hnames newPacket
    ⟨(c.flows.lookup key).getD {}, c.hostnameCache, []⟩ inp key.remoteAddr
  obtain ⟨hctr, hcache, -⟩ := Inspection.mk.inj hsame
  simp only [inspectFlow, withInspectors, hctr, hcache]

theorem handle_perm (h : insps.Perm insps') (hdisj : Inspectors.Disjoint insps) (hnames : (insps.map (·.name)).Nodup)
    (isLocal : Addr → Bool) (p : CapturedPacket) :
    (c.withInspectors insps).handle dfb newPacket isLocal p =
      ((c.withInspectors insps').handle dfb newPacket isLocal p).withInspectors insps := by
  have hrecord : ∀ insps key ts n inbound, (c.withInspectors insps).record key ts n inbound =
      (c.record key ts n inbound).withInspectors insps := fun _ _ _ _ _ => rfl
  unfold handle handlePacket
  cases p.dec.decode dfb p.data with
  | mk dec' info =>
    cases info with
    | none => rfl
    | some info =>
      dsimp only
      cases normalise info p.iface isLocal with
      | none => rfl
      | some kd =>
        dsimp only
        unfold handleFlow
        dsimp only
        rw [hrecord, hrecord, inspectFlow_perm h hdisj hnames, inspectPassive_withInspectors]
        split_ifs <;> rfl

end Capturer

/-- What happens to a capturer's table: packets, and the aggregator's sweeps. -/
inductive TableOp
  | packet (p : CapturedPacket)
  | evict (before : Int) (keep : GoMap FlowKey Unit)

def TableOp.apply (dfb : LayerDecoders) (newPacket : NewPacket) (isLocal : Addr → Bool) (c : Capturer) :
    TableOp → Capturer
  | .packet p => c.handle dfb newPacket isLocal p
  | .evict before keep => (c.evict before keep).1

theorem TableOp.apply_perm {dfb : LayerDecoders} {newPacket : NewPacket} {isLocal : Addr → Bool}
    {insps insps' : List Inspector} (h : insps.Perm insps') (hdisj : Inspectors.Disjoint insps)
    (hnames : (insps.map (·.name)).Nodup) (c : Capturer) (op : TableOp) :
    op.apply dfb newPacket isLocal (c.withInspectors insps) =
      (op.apply dfb newPacket isLocal (c.withInspectors insps')).withInspectors insps := by
  cases op with
  | packet p => exact Capturer.handle_perm h hdisj hnames isLocal p
  | evict before keep => rfl

/-- Under whatever order inspectors with disjoint candidates and distinct names are configured, any
sequence of packets and sweeps makes the same capturer: the same flows with the same hostnames, the same cache
and the same events. -/
theorem inspectors_perm (dfb : LayerDecoders) (newPacket : NewPacket) (isLocal : Addr → Bool) (c : Capturer)
    (insps insps' : List Inspector) (h : insps.Perm insps') (hdisj : Inspectors.Disjoint insps)
    (hnames : (insps.map (·.name)).Nodup) (ops : List TableOp) :
    ops.foldl (TableOp.apply dfb newPacket isLocal) (c.withInspectors insps) =
      (ops.foldl (TableOp.apply dfb newPacket isLocal) (c.withInspectors insps')).withInspectors insps := by
  induction ops generalizing c with
  | nil => rfl
  | cons op ops ih =>
    -- the capturer after one step still has its own inspectors
    have hown : op.apply dfb newPacket isLocal (c.withInspectors insps') =
        (op.apply dfb newPacket isLocal (c.withInspectors insps')).withInspectors insps' :=
      TableOp.apply_perm (.refl _) (hdisj.perm h) ((h.map _).nodup_iff.1 hnames) c op
    rw [List.foldl_cons, List.foldl_cons, TableOp.apply_perm h hdisj hnames, ih, ← hown]

/-- A packet that starts a QUIC flow, of the same endpoints as `quicPacket`. -/
def quicCapture : CapturedPacket :=
  ⟨rawDecoder, "en0", [0x45, 0, 0x04, 0xb0, 0, 0, 0, 0, 64, 17, 0, 0, 192, 168, 1, 10, 140, 82, 112, 3,
    0xc7, 0x38, 0x01, 0xbb, 0x04, 0x9c, 0, 0] ++ List.replicate 1172 0, 5, 0⟩

def quicCaptureKey : FlowKey := ⟨.ipv4 192 168 1 10, 51000, .ipv4 140 82 112 3, 443, .udp, "en0"⟩

/-- The name is found whichever of the default inspectors comes first. -/
theorem inspectors_perm_default :
    (([TableOp.packet quicCapture, .evict 3 ∅].foldl (TableOp.apply ipv4Decoders quicLayers isClient)
      (Capturer.withInspectors {} (defaultInspectors sniParsers).reverse)).flows.lookup quicCaptureKey).map
        (·.hostname) = some "example.org" ∧
    [TableOp.packet quicCapture, .evict 3 ∅].foldl (TableOp.apply ipv4Decoders quicLayers isClient)
        (Capturer.withInspectors {} (defaultInspectors sniParsers)) =
      ([TableOp.packet quicCapture, .evict 3 ∅].foldl (TableOp.apply ipv4Decoders quicLayers isClient)
        (Capturer.withInspectors {} (defaultInspectors sniParsers).reverse)).withInspectors
          (defaultInspectors sniParsers) := by
  refine ⟨by decide +kernel, ?_⟩
  exact inspectors_perm ipv4Decoders quicLayers isClient {} _ _ (List.reverse_perm _).symm
    (defaultInspectors_disjoint sniParsers) (by decide) _

end Trafficmon
