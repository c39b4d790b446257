import Trafficmon.Receiver.Series

/-!
# Event counters over a run of ticks

A run feeds one tick after another to a fresh `MetricsState`. Its counters are functions of what was
fed (`Counted`): a key's counter is the number of its events that were not folded, an overflow
counter the number of those that were. So no event is lost or counted twice, and a series never goes
back from one tick to a later one (`counters_conserve`).
-/

namespace Trafficmon
open Distinct

def MetricsState.run (start : Int) (ticks : List Tick) : MetricsState := ticks.foldl tick { start := start }

namespace Tick

/-- The events of one kind that were counted under their own key, over a whole run. -/
def ownFed (keys : Tick → List PeerEventKey) (ticks : List Tick) : List PeerEventKey :=
  ticks.flatMap fun t => t.ownKeys (keys t)

def foldedFed (keys : Tick → List PeerEventKey) (ticks : List Tick) : List PeerEventKey :=
  ticks.flatMap fun t => t.foldedKeys (keys t)

theorem length_ownKeys_add (t : Tick) (ks : List PeerEventKey) :
    (t.ownKeys ks).length + (t.foldedKeys ks).length = ks.length := by
  simp only [ownKeys, foldedKeys, decide_not]
  exact (List.length_eq_length_filter_add _).symm

theorem length_fed (keys : Tick → List PeerEventKey) (ticks : List Tick) :
    (ownFed keys ticks).length + (foldedFed keys ticks).length = (ticks.flatMap keys).length := by
  induction ticks with
  | nil => rfl
  | cons t ts ih =>
    have h := length_ownKeys_add t (keys t)
    simp only [ownFed, foldedFed, List.flatMap_cons, List.length_append] at ih ⊢
    omega

end Tick

open Tick in
/-- `s` has counted the events of `ticks`. -/
structure Counted (ticks : List Tick) (s : MetricsState) : Prop where
  dns : s.dnsCounts.Tallies (ticks.flatMap dnsKeys)
  dnsError : s.dnsErrorCounts.Tallies (ticks.flatMap dnsErrorKeys)
  syn : s.synCounts.Tallies (ownFed synKeys ticks)
  rst : s.rstCounts.Tallies (ownFed rstKeys ticks)
  synOverflow : s.synOverflowCount = UInt64.ofNat (foldedFed synKeys ticks).length
  rstOverflow : s.rstOverflowCount = UInt64.ofNat (foldedFed rstKeys ticks).length

open Tick in
/-- No counter passes `2 ^ 63`. -/
structure CountsFit (ticks : List Tick) : Prop where
  dns : ∀ k, (ticks.flatMap dnsKeys).count k < 2 ^ 63
  dnsError : ∀ k, (ticks.flatMap dnsErrorKeys).count k < 2 ^ 63
  syn : ∀ k, (ownFed synKeys ticks).count k < 2 ^ 63
  rst : ∀ k, (ownFed rstKeys ticks).count k < 2 ^ 63
  synOverflow : (foldedFed synKeys ticks).length < 2 ^ 63
  rstOverflow : (foldedFed rstKeys ticks).length < 2 ^ 63

section Run
variable {start : Int} {ticks pre : List Tick} {t : Tick} {s : MetricsState}

theorem Counted.tick (h : Counted ticks s) (t : Tick) : Counted (ticks ++ [t]) (s.tick t) := by
  rw [tick_eq]
  constructor
  · simpa [MetricsState.after] using h.dns.bumpAll t.dnsKeys
  · simpa [MetricsState.after] using h.dnsError.bumpAll t.dnsErrorKeys
  · simpa [MetricsState.after, Tick.ownFed] using h.syn.bumpAll (t.ownKeys t.synKeys)
  · simpa [MetricsState.after, Tick.ownFed] using h.rst.bumpAll (t.ownKeys t.rstKeys)
  · simp [MetricsState.after, h.synOverflow, Tick.foldedFed]
  · simp [MetricsState.after, h.rstOverflow, Tick.foldedFed]

theorem run_concat : MetricsState.run start (ticks ++ [t]) = (MetricsState.run start ticks).tick t := by
  simp [MetricsState.run]

theorem counted_run (start : Int) (ticks : List Tick) : Counted ticks (MetricsState.run start ticks) := by
  induction ticks using List.reverseRecOn with
  | nil => exact ⟨.nil, .nil, .nil, .nil, rfl, rfl⟩
  | append_singleton ticks t ih => rw [run_concat]; exact ih.tick t

theorem run_start : (MetricsState.run start ticks).start = start := by
  induction ticks using List.reverseRecOn with
  | nil => rfl
  | append_singleton ticks t ih => rw [run_concat, tick_eq]; exact ih

/-! ### What a tick of a run emits -/

theorem peerPoints_perm (order : MapOrder PeerEventKey Unit) (counts : GoMap PeerEventKey UInt64)
    (overflowCount : UInt64) (keys : List PeerEventKey) :
    (if keys ≠ [] then t.peerPoints start order counts overflowCount keys else []).Perm
      (((firsts (t.ownKeys keys)).map fun k => sumPoint start t.now ((counts.lookup k).getD 0) k.attributes) ++
        if keys ≠ [] ∧ 0 < overflowCount then [sumPoint start t.now overflowCount [(attrPeerOverflow, .bool true)]]
        else []) := by
  by_cases hk : keys ≠ []
  · rw [if_pos hk, Tick.peerPoints]
    simp only [hk, ne_eq, not_false_eq_true, true_and]
    refine List.Perm.append_right _ ?_
    have hperm := (touchedBy_perm order (t.ownKeys keys)).map fun k =>
      sumPoint start t.now ((counts.lookup k).getD 0) k.attributes
    rwa [List.map_map] at hperm
  · rw [if_neg hk, if_neg fun h => hk h.1, not_not.1 hk]
    exact .refl _

/-- A later count of the same series is not smaller. -/
theorem sumPoint_le {now now' : Int} {n n' : Nat} {attrs attrs' : List (String × AttrValue)} (hle : n ≤ n')
    (hfit : n' < 2 ^ 63) : (sumPoint start now (UInt64.ofNat n) attrs).intValue ≤
      (sumPoint start now' (UInt64.ofNat n') attrs').intValue := by
  have hsize : UInt64.size = 2 ^ 64 := rfl
  have hn : (UInt64.ofNat n).toNat = n := UInt64.toNat_ofNat_of_lt' (by omega)
  have hn' : (UInt64.ofNat n').toNat = n' := UInt64.toNat_ofNat_of_lt' (by omega)
  exact toInt64_le (UInt64.le_iff_toNat_le.2 (by omega)) (by omega)

section Growth
variable {pre post : List Tick} {t t' : Tick} {p q : NumberDataPoint}

theorem dns_grows {κ : Type} [DecidableEq κ] {keys : Tick → List κ} {attrs : κ → List (String × AttrValue)}
    {counts counts' : GoMap κ UInt64} (hattrs : ∀ k k', (∀ a ∈ attrs k, a ∈ attrs k') → k = k')
    (hc : counts.Tallies (pre.flatMap keys)) (hc' : counts'.Tallies (post.flatMap keys)) (hpre : pre <+: post)
    (hfit : ∀ k, (post.flatMap keys).count k < 2 ^ 63) (hp : p ∈ t.dnsPoints start attrs counts (keys t))
    (hq : q ∈ t'.dnsPoints start attrs counts' (keys t')) (hsame : p.SameSeries q) : p.intValue ≤ q.intValue := by
  obtain ⟨k, -, rfl⟩ := List.mem_map.1 hp
  obtain ⟨k', -, rfl⟩ := List.mem_map.1 hq
  obtain rfl : k = k' := hattrs k k' hsame.1
  rw [hc.getD, hc'.getD]
  obtain ⟨rest, rfl⟩ := hpre
  refine sumPoint_le ?_ (hfit k)
  rw [List.flatMap_append, List.count_append]
  omega

theorem peer_grows {keys : Tick → List PeerEventKey} {order order' : MapOrder PeerEventKey Unit}
    {counts counts' : GoMap PeerEventKey UInt64} {n n' : UInt64}
    (hc : counts.Tallies (Tick.ownFed keys pre)) (hc' : counts'.Tallies (Tick.ownFed keys post))
    (ho : n = UInt64.ofNat (Tick.foldedFed keys pre).length)
    (ho' : n' = UInt64.ofNat (Tick.foldedFed keys post).length) (hpre : pre <+: post)
    (hfit : ∀ k, (Tick.ownFed keys post).count k < 2 ^ 63) (hfit' : (Tick.foldedFed keys post).length < 2 ^ 63)
    (hp : p ∈ t.peerPoints start order counts n (keys t))
    (hq : q ∈ t'.peerPoints start order' counts' n' (keys t')) (hsame : p.SameSeries q) :
    p.intValue ≤ q.intValue := by
  obtain ⟨rest, rfl⟩ := hpre
  rcases mem_peerPoints.1 hp with ⟨k, -, rfl⟩ | ⟨-, rfl⟩ <;> rcases mem_peerPoints.1 hq with ⟨k', -, rfl⟩ | ⟨-, rfl⟩
  · obtain rfl : k = k' := PeerEventKey.attributes_inj hsame.1
    rw [hc.getD, hc'.getD]
    refine sumPoint_le ?_ (hfit k)
    rw [Tick.ownFed, Tick.ownFed, List.flatMap_append, List.count_append]
    omega
  · exact absurd hsame.1 k.attributes_not_overflow
  · exact absurd hsame.2 k'.attributes_not_overflow
  · rw [ho, ho']
    refine sumPoint_le ?_ hfit'
    rw [Tick.foldedFed, Tick.foldedFed, List.flatMap_append, List.length_append]
    omega

end Growth
end Run

def eventMetrics : List String :=
  [metricDNSQueryCount, metricDNSQueryErrors, metricNetworkSYNCount, metricNetworkRSTCount]

/-- What was fed and what the counters say, in Nat. -/
structure Conserved (ticks : List Tick) (s : MetricsState) : Prop where
  syn : s.synCounts.total + s.synOverflowCount.toNat = (ticks.flatMap Tick.synKeys).length
  rst : s.rstCounts.total + s.rstOverflowCount.toNat = (ticks.flatMap Tick.rstKeys).length
  dns : ∀ k, ((s.dnsCounts.lookup k).getD 0).toNat = (ticks.flatMap Tick.dnsKeys).count k
  dnsError : ∀ k, ((s.dnsErrorCounts.lookup k).getD 0).toNat = (ticks.flatMap Tick.dnsErrorKeys).count k

/-- The points of a tick are one for each key of the tick that is not folded, with its counter after
the tick, and the overflow. -/
structure EmitsCounts (t : Tick) (s : MetricsState) (md : Metrics) : Prop where
  syn : (md.pointsOf metricNetworkSYNCount).Perm
    (((firsts (t.ownKeys t.synKeys)).map fun k => sumPoint s.start t.now ((s.synCounts.lookup k).getD 0) k.attributes) ++
      if t.synKeys ≠ [] ∧ 0 < s.synOverflowCount then
        [sumPoint s.start t.now s.synOverflowCount [(attrPeerOverflow, .bool true)]] else [])
  rst : (md.pointsOf metricNetworkRSTCount).Perm
    (((firsts (t.ownKeys t.rstKeys)).map fun k => sumPoint s.start t.now ((s.rstCounts.lookup k).getD 0) k.attributes) ++
      if t.rstKeys ≠ [] ∧ 0 < s.rstOverflowCount then
        [sumPoint s.start t.now s.rstOverflowCount [(attrPeerOverflow, .bool true)]] else [])
  dns : md.pointsOf metricDNSQueryCount = (firsts t.dnsKeys).map fun k =>
    sumPoint s.start t.now ((s.dnsCounts.lookup k).getD 0) k.attributes
  dnsError : md.pointsOf metricDNSQueryErrors = (firsts t.dnsErrorKeys).map fun k =>
    sumPoint s.start t.now ((s.dnsErrorCounts.lookup k).getD 0) k.attributes

section Run
variable {start : Int} {ticks pre : List Tick} {t : Tick} {s : MetricsState}

theorem Counted.conserved (h : Counted ticks s) (hfit : CountsFit ticks) : Conserved ticks s := by
  have hsize : UInt64.size = 2 ^ 64 := rfl
  have hlt : ∀ {n : Nat}, n < 2 ^ 63 → (UInt64.ofNat n).toNat = n := fun hn =>
    UInt64.toNat_ofNat_of_lt' (by omega)
  refine ⟨?_, ?_, fun k => ?_, fun k => ?_⟩
  · rw [h.syn.total fun k => (hfit.syn k).trans (by decide), h.synOverflow, hlt hfit.synOverflow]
    exact Tick.length_fed Tick.synKeys ticks
  · rw [h.rst.total fun k => (hfit.rst k).trans (by decide), h.rstOverflow, hlt hfit.rstOverflow]
    exact Tick.length_fed Tick.rstKeys ticks
  · rw [h.dns.getD, hlt (hfit.dns k)]
  · rw [h.dnsError.getD, hlt (hfit.dnsError k)]

theorem emitsCounts (s : MetricsState) (t : Tick) : EmitsCounts t (s.tick t) (s.emit t) := by
  obtain ⟨-, hdns, herr, hsyn, hrst⟩ := pointsOf_emit (s := s) (t := t)
  rw [tick_eq]
  refine ⟨?_, ?_, ?_, ?_⟩
  · rw [hsyn]
    exact peerPoints_perm _ _ _ _
  · rw [hrst]
    exact peerPoints_perm _ _ _ _
  · rw [hdns]
    rfl
  · rw [herr]
    rfl

end Run

/-- In every run whose counts stay below `2 ^ 63`, after every tick: the counters add up to what was
fed, the tick emits exactly the counters of its keys, and no series has gone back since an earlier
tick. -/
theorem counters_conserve (start : Int) (pre : List Tick) (t : Tick) (hfit : CountsFit (pre ++ [t])) :
    Conserved (pre ++ [t]) (MetricsState.run start (pre ++ [t])) ∧
    EmitsCounts t (MetricsState.run start (pre ++ [t])) ((MetricsState.run start pre).emit t) ∧
    ∀ pre' t', pre' ++ [t'] <+: pre → ∀ name ∈ eventMetrics,
      ∀ p ∈ ((MetricsState.run start pre').emit t').pointsOf name,
      ∀ q ∈ ((MetricsState.run start pre).emit t).pointsOf name, p.SameSeries q → p.intValue ≤ q.intValue := by
  have hcount := counted_run start (pre ++ [t])
  refine ⟨hcount.conserved hfit, ?_, ?_⟩
  · rw [run_concat]
    exact emitsCounts _ t
  · intro pre' t' hpre name hname p hp q hq hsame
    have hcount' := counted_run start (pre' ++ [t'])
    have hprefix : pre' ++ [t'] <+: pre ++ [t] := hpre.trans (List.prefix_append _ _)
    rw [run_concat, tick_eq] at hcount hcount'
    have hmem : ∀ {x : NumberDataPoint} {c : Prop} [Decidable c] {l : List NumberDataPoint},
        x ∈ (if c then l else []) → x ∈ l := by
      intro x c _ l hx
      split at hx
      · exact hx
      · cases hx
    obtain ⟨-, hdns, herr, hsyn, hrst⟩ := pointsOf_emit (s := MetricsState.run start pre) (t := t)
    obtain ⟨-, hdns', herr', hsyn', hrst'⟩ := pointsOf_emit (s := MetricsState.run start pre') (t := t')
    simp only [run_start] at hdns herr hsyn hrst hdns' herr' hsyn' hrst'
    simp only [eventMetrics, List.mem_cons, List.not_mem_nil, or_false] at hname
    rcases hname with rfl | rfl | rfl | rfl
    · rw [hdns'] at hp
      rw [hdns] at hq
      exact dns_grows (fun _ _ => DNSKey.attributes_inj) hcount'.dns hcount.dns hprefix hfit.dns hp hq hsame
    · rw [herr'] at hp
      rw [herr] at hq
      exact dns_grows (fun _ _ => DNSErrorKey.attributes_inj) hcount'.dnsError hcount.dnsError hprefix hfit.dnsError hp hq
        hsame
    · rw [hsyn'] at hp
      rw [hsyn] at hq
      exact peer_grows hcount'.syn hcount.syn hcount'.synOverflow hcount.synOverflow hprefix hfit.syn hfit.synOverflow
        (hmem hp) (hmem hq) hsame
    · rw [hrst'] at hp
      rw [hrst] at hq
      exact peer_grows hcount'.rst hcount.rst hcount'.rstOverflow hcount.rstOverflow hprefix hfit.rst hfit.rstOverflow
        (hmem hp) (hmem hq) hsame

/-- Counters cannot pass `2 ^ 63` on fewer events than that. -/
theorem countsFit_of_length {ticks : List Tick} (hdns : (ticks.flatMap Tick.dnsKeys).length < 2 ^ 63)
    (hdnsError : (ticks.flatMap Tick.dnsErrorKeys).length < 2 ^ 63)
    (hsyn : (ticks.flatMap Tick.synKeys).length < 2 ^ 63) (hrst : (ticks.flatMap Tick.rstKeys).length < 2 ^ 63) :
    CountsFit ticks := by
  have hsyn' := Tick.length_fed Tick.synKeys ticks
  have hrst' := Tick.length_fed Tick.rstKeys ticks
  constructor
  · exact fun k => List.count_le_length.trans_lt hdns
  · exact fun k => List.count_le_length.trans_lt hdnsError
  · exact fun k => List.count_le_length.trans_lt (by omega)
  · exact fun k => List.count_le_length.trans_lt (by omega)
  · omega
  · omega

/-- Two attempts at one peer. -/
def synTick : Tick :=
  let attempt : SYNEvent :=
    { iface := "en0", localAddr := .v4 #v[10, 0, 0, 1], localPort := 51000, remoteAddr := .v4 #v[1, 1, 1, 1]
      remotePort := 443, atTime := 1 }
  { tickOf [] 1 with snap := { takenAt := 1, connections := [], synEvents := [attempt, attempt] } }

theorem synTwice_conserved : Conserved [synTick, synTick] (MetricsState.run 0 [synTick, synTick]) :=
  (counters_conserve 0 [synTick] synTick
    (countsFit_of_length (by decide) (by decide) (by decide) (by decide))).1

end Trafficmon
