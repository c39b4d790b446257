import Trafficmon.Capture.Inspect
import Trafficmon.Lib.Run

/-!
# Packet after packet of one flow

A run gives the packets of one flow to `inspect` one after the other. A flow gets one `Inspect` call
at most (`inspection_one_shot`). Inbound packets leave a reassembly under way alone, except for one
that `extractPayload` fails on: that one ends the search (`hello_undisturbed_iff`).
-/

namespace Trafficmon
namespace Inspection

def run (inspectors : List Inspector) (newPacket : NewPacket) (remote : Addr) (s : Inspection)
    (ps : List InspectInput) : Inspection :=
  ps.foldl (fun s inp => s.inspect inspectors newPacket inp remote) s

section Run
variable {inspectors : List Inspector} {newPacket : NewPacket} {remote : Addr} {s : Inspection}
  {ps pre post : List InspectInput} {inp : InspectInput}

theorem run_append : s.run inspectors newPacket remote (pre ++ post) =
    (s.run inspectors newPacket remote pre).run inspectors newPacket remote post := List.foldl_append

theorem run_concat : s.run inspectors newPacket remote (ps ++ [inp]) =
    (s.run inspectors newPacket remote ps).inspect inspectors newPacket inp remote := by
  simp [run]

theorem run_settled (h : s.ctr.needsHostnameInspection = false) : s.run inspectors newPacket remote ps = s := by
  induction ps with
  | nil => rfl
  | cons inp ps ih =>
    rw [run, List.foldl_cons, inspect_settled h]
    exact ih

theorem needs_false_of_attempted (h : s.ctr.hostnameAttempted = true) : s.ctr.needsHostnameInspection = false := by
  simp [ByteCounter.needsHostnameInspection, h]

def inspections (s : Inspection) : Nat := s.calls.countP DpiCall.isInspect

/-- An `Inspect` call ends the search, so there is no second. -/
theorem inspections_run (inspectors : List Inspector) (newPacket : NewPacket) (remote : Addr) (s : Inspection)
    (ps : List InspectInput) :
    (s.run inspectors newPacket remote ps).inspections = s.inspections ∨
    (s.run inspectors newPacket remote ps).inspections = s.inspections + 1 ∧
      (s.run inspectors newPacket remote ps).ctr.hostnameAttempted = true := by
  induction ps using List.reverseRecOn with
  | nil => exact .inl rfl
  | append_singleton ps inp ih =>
    rw [run_concat]
    rcases ih with ih | ⟨ih, hatt⟩
    · obtain ⟨later, hstep⟩ := inspect_step inspectors newPacket (s.run inspectors newPacket remote ps) inp remote
      have hcount : ((s.run inspectors newPacket remote ps).inspect inspectors newPacket inp remote).inspections =
          s.inspections + later.countP DpiCall.isInspect := by
        rw [← ih, inspections, hstep.calls, List.countP_append]
        rfl
      have honce := hstep.once
      rcases Nat.le_one_iff_eq_zero_or_eq_one.1 honce with h0 | h1
      · exact .inl (by rw [hcount, h0, Nat.add_zero])
      · exact .inr ⟨by rw [hcount, h1], hstep.attempted h1⟩
    · rw [inspect_settled (needs_false_of_attempted hatt)]
      exact .inr ⟨ih, hatt⟩

/-- What a run adds to the calls; while a reassembly is under way it is all for one inspector. -/
theorem run_underway (inspectors : List Inspector) (newPacket : NewPacket) (remote : Addr)
    (hps : ∀ p ∈ ps, p.isTCP = true) (h : s.ctr.helloInProgress = true) :
    (s.run inspectors newPacket remote ps).ctr.helloInProgress = true ∧
    (s.run inspectors newPacket remote ps).ctr.helloInspector = s.ctr.helloInspector ∧
    ∃ later, (s.run inspectors newPacket remote ps).calls = s.calls ++ later ∧
      ∀ call ∈ later, call.inspector ∈ inspectors ∧ call.inspector.name = s.ctr.helloInspector ∧ call.FedBy true := by
  induction ps using List.reverseRecOn with
  | nil => exact ⟨h, rfl, [], (List.append_nil _).symm, nofun⟩
  | append_singleton ps inp ih =>
    obtain ⟨hunder, hinsp, later, hcalls, hown⟩ := ih fun p hp => hps p (List.mem_append_left _ hp)
    obtain ⟨later', hstep⟩ := inspect_step inspectors newPacket (s.run inspectors newPacket remote ps) inp remote
    obtain ⟨hunder', hinsp', hown'⟩ := hstep.underway (hps inp (by simp)) hunder
    rw [run_concat]
    refine ⟨hunder', hinsp'.trans hinsp, later ++ later', ?_, fun call hcall => ?_⟩
    · rw [hstep.calls, hcalls, List.append_assoc]
    · rcases List.mem_append.1 hcall with hcall | hcall
      · exact hown call hcall
      · rw [← hinsp]
        exact hown' call hcall

theorem run_calls (inspectors : List Inspector) (newPacket : NewPacket) (remote : Addr) (s : Inspection)
    (ps : List InspectInput) : ∃ later, (s.run inspectors newPacket remote ps).calls = s.calls ++ later := by
  induction ps using List.reverseRecOn with
  | nil => exact ⟨[], (List.append_nil _).symm⟩
  | append_singleton ps inp ih =>
    obtain ⟨later, hcalls⟩ := ih
    obtain ⟨later', hstep⟩ := inspect_step inspectors newPacket (s.run inspectors newPacket remote ps) inp remote
    exact ⟨later ++ later', by rw [run_concat, hstep.calls, hcalls, List.append_assoc]⟩

/-- A packet's calls are still there at the end of the run. -/
theorem run_step (inspectors : List Inspector) (newPacket : NewPacket) (remote : Addr) (s : Inspection)
    (h : pre ++ [inp] <+: ps) :
    ∃ later, Step inspectors inp (s.run inspectors newPacket remote pre)
      (s.run inspectors newPacket remote (pre ++ [inp])) later ∧
      ∀ call ∈ later, call ∈ (s.run inspectors newPacket remote ps).calls := by
  obtain ⟨post, rfl⟩ := h
  obtain ⟨later, hstep⟩ := inspect_step inspectors newPacket (s.run inspectors newPacket remote pre) inp remote
  rw [← run_concat] at hstep
  obtain ⟨rest, hrest⟩ := run_calls inspectors newPacket remote (s.run inspectors newPacket remote (pre ++ [inp])) post
  refine ⟨later, hstep, fun call hcall => ?_⟩
  rw [run_append, hrest, hstep.calls]
  simp [hcall]

/-- A reassembly is under way on TCP flows only. -/
theorem tcp_of_underway {proto : Proto} (hs : s.ctr.helloInProgress = true → proto = .tcp)
    (hps : ∀ p ∈ ps, p.info.proto = proto) (h : (s.run inspectors newPacket remote ps).ctr.helloInProgress = true) :
    proto = .tcp := by
  induction ps using List.reverseRecOn with
  | nil => exact hs h
  | append_singleton ps inp ih =>
    have ih := ih fun p hp => hps p (List.mem_append_left _ hp)
    cases hu : (s.run inspectors newPacket remote ps).ctr.helloInProgress with
    | true => exact ih hu
    | false =>
      obtain ⟨later, hstep⟩ := inspect_step inspectors newPacket (s.run inspectors newPacket remote ps) inp remote
      rw [run_concat] at h
      have htcp := (hstep.started hu h).1
      rw [InspectInput.isTCP, hps inp (by simp)] at htcp
      simpa using htcp

end Run
end Inspection

open Inspection in
/-- A flow's search over any packets of it: one `Inspect` call at most; the hostname changes only from
empty to what that call returned; once it is known or the search is over nothing changes and nobody
is called; a reassembly belongs to the inspector that started it, and everything fed to it later
comes from outbound packets. A counter with a reassembly under way is one of a TCP flow. -/
theorem inspection_one_shot (inspectors : List Inspector) (hnames : (inspectors.map Inspector.name).Nodup)
    (newPacket : NewPacket) (remote : Addr) (ctr : ByteCounter) (cache : HostnameCache) (proto : Proto)
    (hctr : ctr.helloInProgress = true → proto = .tcp) (ps : List InspectInput)
    (hps : ∀ p ∈ ps, p.info.proto = proto) :
    let after := run inspectors newPacket remote ⟨ctr, cache, []⟩
    (after ps).inspections ≤ 1 ∧
    (∀ pre p, pre ++ [p] <+: ps → (after (pre ++ [p])).ctr.hostname = (after pre).ctr.hostname ∨
      (after pre).ctr.hostname = "" ∧ ∃ insp payload, .inspect insp payload ∈ (after ps).calls ∧
        insp.inspect payload = some (after (pre ++ [p])).ctr.hostname) ∧
    (∀ pre, pre <+: ps → ((after pre).ctr.hostname ≠ "" ∨ (after pre).ctr.hostnameAttempted = true) →
      after ps = after pre) ∧
    (∀ pre p, pre ++ [p] <+: ps → (after pre).ctr.helloInProgress = false →
      (after (pre ++ [p])).ctr.helloInProgress = true → ∃ insp ∈ inspectors,
        (after (pre ++ [p])).ctr.helloInspector = insp.name ∧
        (∃ seq payload, .feed insp (! p.inbound) seq payload ∈ (after ps).calls) ∧
        ∃ later, (after (pre ++ [p])).calls = (after pre).calls ++ later ∧ ∀ call ∈ later, call.AsksOr insp) ∧
    (∀ pre, pre <+: ps → (after pre).ctr.helloInProgress = true → ∀ insp ∈ inspectors,
      insp.name = (after pre).ctr.helloInspector → ∃ later, (after ps).calls = (after pre).calls ++ later ∧
        ∀ call ∈ later, call.inspector = insp ∧ call.FedBy true) := by
  intro after
  have htcp : ∀ pre, pre <+: ps → (after pre).ctr.helloInProgress = true → proto = .tcp := fun pre hpre =>
    tcp_of_underway hctr fun p hp => hps p (hpre.subset hp)
  refine ⟨?_, fun pre p hpre => ?_, fun pre hpre hsettled => ?_, fun pre p hpre hnot hnow => ?_,
    fun pre hpre hunder insp hinsp hname => ?_⟩
  · have h0 : inspections ⟨ctr, cache, []⟩ = 0 := rfl
    rcases inspections_run inspectors newPacket remote ⟨ctr, cache, []⟩ ps with h | ⟨h, -⟩
    · exact (h.trans h0).trans_le (Nat.zero_le _)
    · exact (h.trans (congrArg (· + 1) h0)).le
  · obtain ⟨later, hstep, hmem⟩ := run_step inspectors newPacket remote ⟨ctr, cache, []⟩ hpre
    rcases hstep.hostname with h | ⟨h, insp, payload, hcall, hfound⟩
    · exact .inl h
    · exact .inr ⟨h, insp, payload, hmem _ hcall, hfound⟩
  · obtain ⟨post, rfl⟩ := hpre
    have hneeds : (after pre).ctr.needsHostnameInspection = false := by
      rcases hsettled with h | h
      · simp [ByteCounter.needsHostnameInspection, h]
      · exact needs_false_of_attempted h
    exact run_append.trans (run_settled hneeds)
  · obtain ⟨later, hstep, hmem⟩ := run_step inspectors newPacket remote ⟨ctr, cache, []⟩ hpre
    obtain ⟨-, insp, hinsp, hname, ⟨seq, payload, hfed⟩, hown⟩ := hstep.started hnot hnow
    exact ⟨insp, hinsp, hname, ⟨seq, payload, hmem _ hfed⟩, later, hstep.calls, hown⟩
  · have hproto := htcp pre hpre hunder
    obtain ⟨post, rfl⟩ := hpre
    have hpost : ∀ p ∈ post, p.isTCP = true := by
      intro p hp
      rw [InspectInput.isTCP, hps p (List.mem_append_right _ hp), hproto]
      rfl
    obtain ⟨-, -, later, hcalls, hown⟩ := run_underway inspectors newPacket remote hpost hunder
    refine ⟨later, (congrArg Inspection.calls run_append).trans hcalls, fun call hcall => ?_⟩
    obtain ⟨hmem, hname', hfed⟩ := hown call hcall
    exact ⟨List.inj_on_of_nodup_map hnames hmem hinsp (hname'.trans hname.symm), hfed⟩

/-- The TCP layer of a raw IPv4 packet without options. -/
def rawTCP : NewPacket := fun data _ =>
  if data.length < 40 then {}
  else
    { tcp := some ((data.getD 24 0).toUInt32 <<< 24 ||| (data.getD 25 0).toUInt32 <<< 16 |||
        (data.getD 26 0).toUInt32 <<< 8 ||| (data.getD 27 0).toUInt32, data.drop 40) }

/-- Finds `example.org` in every handshake record. -/
def handshakeInspector : Inspector where
  name := "tls-sni"
  candidate p := p.payload.head? = some tlsHandshakeRecordType
  inspect _ := some "example.org"

/-- A segment with this sequence number and payload, in a packet whose headers are otherwise zero. -/
def segmentOf (inbound : Bool) (seq : UInt8) (payload : List UInt8) : InspectInput where
  data := List.replicate 27 0 ++ [seq] ++ List.replicate 12 0 ++ payload
  info := { proto := .tcp, bytes := UInt64.ofNat (40 + payload.length) }
  inbound := inbound
  linkType := .raw
  ts := 1

/-- A handshake record of 205 bytes. -/
def helloRecord : List UInt8 := [0x16, 3, 1, 0, 200] ++ List.replicate 200 1

def emptyInspection : Inspection := ⟨{}, { capacity := 2048, ttl := 600 * GoTime.second }, []⟩

/-- A record in two segments, and one packet more. -/
theorem twoSegments_once :
    (Inspection.run [handshakeInspector] rawTCP (.ipv4 1 1 1 1) emptyInspection
      [segmentOf false 1 (helloRecord.take 100), segmentOf false 101 (helloRecord.drop 100), segmentOf false 206 [0]]) =
    (Inspection.run [handshakeInspector] rawTCP (.ipv4 1 1 1 1) emptyInspection
      [segmentOf false 1 (helloRecord.take 100), segmentOf false 101 (helloRecord.drop 100)]) :=
  (inspection_one_shot [handshakeInspector] (by decide) rawTCP (.ipv4 1 1 1 1) {}
    { capacity := 2048, ttl := 600 * GoTime.second } .tcp (fun _ => rfl)
    [segmentOf false 1 (helloRecord.take 100), segmentOf false 101 (helloRecord.drop 100), segmentOf false 206 [0]]
    (by decide)).2.2.1
    [segmentOf false 1 (helloRecord.take 100), segmentOf false 101 (helloRecord.drop 100)] ⟨[segmentOf false 206 [0]], rfl⟩
    (.inl (by decide +kernel))

/-! ### Inbound packets -/

namespace Inspection
section Inbound
variable {inspectors : List Inspector} {newPacket : NewPacket} {remote : Addr} {s : Inspection}
  {ps : List InspectInput} {inp : InspectInput}

theorem offer_inbound (hin : inp.inbound = true) (name : String) (seq : UInt32) (payload : List UInt8)
    (insps : List Inspector) : s.offer (some name) inp remote seq payload insps = s := by
  induction insps with
  | nil => rfl
  | cons insp rest ih =>
    rw [offer, if_pos (.inl hin)]
    exact ih

/-- An inbound packet ends the search if its payload cannot be extracted, and does nothing else. -/
theorem inspect_inbound (htcp : inp.isTCP = true) (hin : inp.inbound = true) (h : s.ctr.helloInProgress = true) :
    s.inspect inspectors newPacket inp remote =
      if inspectors ≠ [] ∧ s.ctr.needsHostnameInspection = true ∧ inp.extract newPacket = none then s.mark else s := by
  have hprog : (inp.isTCP && s.ctr.helloInProgress) = true := by rw [htcp, h]; rfl
  unfold inspect
  simp only [hprog, if_true, not_true_eq_false, false_and, if_false, List.length_eq_zero_iff]
  split
  · rename_i hskip
    rw [if_neg fun hs => hskip.elim hs.1 fun hn => hn hs.2.1]
  · rename_i hlook
    simp only [not_or, not_not] at hlook
    cases hx : inp.extract newPacket with
    | none => rw [if_pos ⟨hlook.1, hlook.2, rfl⟩]
    | some r =>
      rw [if_neg fun hs => nomatch hs.2.2]
      exact offer_inbound hin _ _ _ _

/-- Inbound packets that can all be extracted leave no trace in a run. -/
theorem run_filter (h : s.ctr.helloInProgress = true) (hps : ∀ p ∈ ps, p.isTCP = true)
    (hx : inspectors ≠ [] → s.ctr.needsHostnameInspection = true →
      ∀ p ∈ ps, p.inbound = true → p.extract newPacket ≠ none) :
    s.run inspectors newPacket remote ps = s.run inspectors newPacket remote (ps.filter fun p => ! p.inbound) := by
  induction ps generalizing s with
  | nil => rfl
  | cons p ps ih =>
    have htcp := hps p List.mem_cons_self
    have hps' : ∀ p ∈ ps, p.isTCP = true := fun q hq => hps q (List.mem_cons_of_mem _ hq)
    cases hin : p.inbound with
    | true =>
      have hsame : s.inspect inspectors newPacket p remote = s := by
        rw [inspect_inbound htcp hin h]
        exact if_neg fun hs => hx hs.1 hs.2.1 p List.mem_cons_self hin hs.2.2
      rw [List.filter_cons_of_neg (by simp [hin]), run, List.foldl_cons, hsame]
      exact ih h hps' fun h1 h2 q hq => hx h1 h2 q (List.mem_cons_of_mem _ hq)
    | false =>
      obtain ⟨later, hstep⟩ := inspect_step inspectors newPacket s p remote
      rw [List.filter_cons_of_pos (by simp [hin])]
      refine ih (hstep.underway htcp h).1 hps' fun h1 h2 q hq => hx h1 ?_ q (List.mem_cons_of_mem _ hq)
      -- a search that is over stays so
      by_contra hover
      dsimp only at h2
      rw [inspect_settled (Bool.not_eq_true _ ▸ hover)] at h2
      exact hover h2

/-- A run of inbound packets alone. -/
theorem run_inbound (h : s.ctr.helloInProgress = true) (hps : ∀ p ∈ ps, p.isTCP = true ∧ p.inbound = true)
    (hneeds : s.ctr.needsHostnameInspection = true) (hinsp : inspectors ≠ [])
    (hx : ∃ p ∈ ps, p.extract newPacket = none) : s.run inspectors newPacket remote ps = s.mark := by
  induction ps with
  | nil =>
    obtain ⟨p, hp, -⟩ := hx
    cases hp
  | cons p ps ih =>
    obtain ⟨htcp, hin⟩ := hps p List.mem_cons_self
    rw [run, List.foldl_cons, inspect_inbound htcp hin h]
    by_cases hp : p.extract newPacket = none
    · rw [if_pos ⟨hinsp, hneeds, hp⟩]
      exact run_settled (needs_false_of_attempted rfl)
    · rw [if_neg fun hs => hp hs.2.2]
      refine ih (fun q hq => hps q (List.mem_cons_of_mem _ hq)) ?_
      obtain ⟨q, hq, hnone⟩ := hx
      rcases List.mem_cons.1 hq with rfl | hq
      · exact absurd hnone hp
      · exact ⟨q, hq, hnone⟩

end Inbound
end Inspection

open Inspection in
/-- Inbound TCP packets put in anywhere leave the result of a reassembly under way as it is iff each
of them can be extracted, or the search is over already. -/
theorem hello_undisturbed_iff (inspectors : List Inspector) (newPacket : NewPacket) (remote : Addr) (s : Inspection)
    (hprog : s.ctr.helloInProgress = true) (ins : List InspectInput)
    (hins : ∀ p ∈ ins, p.isTCP = true ∧ p.inbound = true) :
    (∀ ps : List InspectInput, (∀ p ∈ ps, p.isTCP = true) → ps.filter (·.inbound) = ins →
      (run inspectors newPacket remote s ps).ctr.hostname =
        (run inspectors newPacket remote s (ps.filter fun p => ! p.inbound)).ctr.hostname ∧
      (run inspectors newPacket remote s ps).ctr.hostnameAttempted =
        (run inspectors newPacket remote s (ps.filter fun p => ! p.inbound)).ctr.hostnameAttempted) ↔
      (inspectors ≠ [] → s.ctr.needsHostnameInspection = true → ∀ p ∈ ins, p.extract newPacket ≠ none) := by
  constructor
  · intro h hinsp hneeds p hp hx
    have hin : ins.filter (·.inbound) = ins := List.filter_eq_self.2 fun p hp => (hins p hp).2
    have hout : ins.filter (fun p => ! p.inbound) = [] := List.filter_eq_nil_iff.2 fun p hp => by simp [(hins p hp).2]
    have hsame := (h ins (fun p hp => (hins p hp).1) hin).2
    rw [hout, run_inbound hprog hins hneeds hinsp ⟨p, hp, hx⟩] at hsame
    have hnot : s.ctr.hostnameAttempted = false := (ByteCounter.needsHostnameInspection_iff.1 hneeds).2
    exact Bool.false_ne_true (hnot.symm.trans hsame.symm)
  · intro h ps hps hin
    rw [run_filter hprog hps fun hinsp hneeds p hp hpin => h hinsp hneeds p (by rw [← hin]; simp [hp, hpin])]
    exact ⟨rfl, rfl⟩

/-- The search after the first segment of a record. -/
def helloUnderway : Inspection :=
  emptyInspection.run [handshakeInspector] rawTCP (.ipv4 1 1 1 1) [segmentOf false 1 (helloRecord.take 100)]

/-- A reply comes before the second segment. -/
def withReply : List InspectInput := [segmentOf true 90 [1, 2], segmentOf false 101 (helloRecord.drop 100)]

theorem reply_undisturbing :
    (helloUnderway.run [handshakeInspector] rawTCP (.ipv4 1 1 1 1) withReply).ctr.hostname =
    (helloUnderway.run [handshakeInspector] rawTCP (.ipv4 1 1 1 1) (withReply.filter fun p => ! p.inbound)).ctr.hostname :=
  ((hello_undisturbed_iff [handshakeInspector] rawTCP (.ipv4 1 1 1 1) helloUnderway (by decide +kernel)
    [segmentOf true 90 [1, 2]] (by decide)).2 (by decide) withReply (by decide) rfl).1

/-- A packet of the peer that ends after the ports. -/
def truncatedReply : InspectInput :=
  { segmentOf true 90 [] with data := List.replicate 24 0, info := { proto := .tcp, bytes := 24 } }

theorem truncated_disturbs : helloUnderway.ctr.helloInProgress = true ∧
    (helloUnderway.run [handshakeInspector] rawTCP (.ipv4 1 1 1 1)
      [segmentOf false 101 (helloRecord.drop 100)]).ctr.hostname = "example.org" ∧
    (helloUnderway.run [handshakeInspector] rawTCP (.ipv4 1 1 1 1)
      [truncatedReply, segmentOf false 101 (helloRecord.drop 100)]).ctr.hostname = "" := by
  decide +kernel

end Trafficmon
