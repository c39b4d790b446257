import Mathlib.Logic.Function.Basic
import Trafficmon.Capture.Pcap
import Trafficmon.Lib.Run

/-!
# `record` against `Evict`

Each locked section is one step: `record` looks its counter up, inserts one if there is none, and
only then, with the map lock down, credits it; `Evict` scans, and then sweeps. The flow table holds
pointers into a heap of counters, so a counter that is swept while a `record` call holds it is still
credited, but no table points at it any more. `Spares` says that a sweep does no such thing to a
packet that is not stale; `no_packet_lost` that nothing is lost in runs that keep to it. Run alone,
the steps of a call are the call of `Capture.Pcap` (`record_alone`, `evict_alone`).
-/

namespace Trafficmon
open GoTime Run

inductive Call
  | record (key : FlowKey) (ts : Int) (n : UInt64) (inbound : Bool)
  | evict (before : Int) (keep : GoMap FlowKey Unit)

inductive Pc
  | start
  /-- `record` found no counter. -/
  | missing
  /-- `record` has its counter and has yet to credit it. -/
  | holding (ptr : Nat)
  /-- `Evict` has its candidates and has yet to delete them. -/
  | scanned (stale : List FlowKey)
  | done
deriving DecidableEq

structure Race where
  flows : GoMap FlowKey Nat := ∅
  heap : Nat → ByteCounter := fun _ => {}
  next : Nat := 0
  pc : Nat → Pc := fun _ => .start

namespace Race

def setPc (s : Race) (i : Nat) (pc : Pc) : Race := { s with pc := Function.update s.pc i pc }

def lastSeen (s : Race) (ptr : Nat) : Int := (s.heap ptr).lastSeen

def lookupSection (s : Race) (i : Nat) (key : FlowKey) : Race :=
  match s.flows.lookup key with
  | some ptr => s.setPc i (.holding ptr)
  | none => s.setPc i .missing

def insertSection (s : Race) (i : Nat) (key : FlowKey) : Race :=
  match s.flows.lookup key with
  | some ptr => s.setPc i (.holding ptr)
  | none =>
    { s with
      flows := s.flows.insert key s.next
      heap := Function.update s.heap s.next {}
      next := s.next + 1
      pc := Function.update s.pc i (.holding s.next) }

def addSection (s : Race) (i : Nat) (ptr : Nat) (ts : Int) (n : UInt64) (inbound : Bool) : Race :=
  { s with
    heap := Function.update s.heap ptr ((s.heap ptr).add ts n inbound)
    pc := Function.update s.pc i .done }

def scanSection (s : Race) (i : Nat) (before : Int) (keep : GoMap FlowKey Unit) : Race :=
  s.setPc i (.scanned (staleKeys s.lastSeen s.flows before keep))

def sweepSection (s : Race) (i : Nat) (before : Int) (stale : List FlowKey) : Race :=
  { s with
    flows := (sweep s.lastSeen before stale s.flows).1
    pc := Function.update s.pc i .done }

def step (calls : List Call) (s : Race) (i : Nat) : Race :=
  match calls[i]?, s.pc i with
  | some (.record key _ _ _), .start => s.lookupSection i key
  | some (.record key _ _ _), .missing => s.insertSection i key
  | some (.record _ ts n inbound), .holding ptr => s.addSection i ptr ts n inbound
  | some (.evict before keep), .start => s.scanSection i before keep
  | some (.evict before _), .scanned stale => s.sweepSection i before stale
  | _, _ => s

end Race

/-! ### What must not be lost -/

section Spec
variable (calls : List Call)

def PacketOn (k : FlowKey) (i : Nat) : Prop := ∃ ts n inbound, calls[i]? = some (.record k ts n inbound)

/-- Call `i` is a packet on `k` whose time is not before any cutoff used. -/
def Due (k : FlowKey) (i : Nat) : Prop :=
  ∃ ts n inbound, calls[i]? = some (.record k ts n inbound) ∧
    ∀ before keep, Call.evict before keep ∈ calls → before ≤ ts

def Call.bytes (dir : Bool) : Call → UInt64
  | .record _ _ n inbound => if inbound = dir then n else 0
  | .evict _ _ => 0

def bytesOf (dir : Bool) (S : List Nat) : UInt64 :=
  S.foldr (fun i total => (calls[i]?).elim 0 (Call.bytes dir) + total) 0

/-- For every key with due packets the table has a counter, whose totals are those of a set of
packets on the key, each counted once, that has every due one in it. -/
def NoneLost (s : Race) : Prop :=
  ∀ k, (∃ i, Due calls k i) → ∃ ptr S, s.flows.lookup k = some ptr ∧ S.Nodup ∧ (∀ i ∈ S, PacketOn calls k i) ∧
    (s.heap ptr).totals = (bytesOf calls true S, bytesOf calls false S) ∧ ∀ i, Due calls k i → i ∈ S

/-- A sweep that is about to run deletes no counter that a due packet's `record` holds uncredited. -/
def Spares (s : Race) (i : Nat) : Prop :=
  ∀ before keep stale, calls[i]? = some (.evict before keep) → s.pc i = .scanned stale →
    ∀ k ∈ stale, ∀ ptr, s.flows.lookup k = some ptr → s.lastSeen ptr < before →
      ∀ j, s.pc j = .holding ptr → ¬ Due calls k j

end Spec

variable {calls : List Call} {i : Nat} {k k' : FlowKey}

theorem PacketOn.unique (h : PacketOn calls k i) (h' : PacketOn calls k' i) : k = k' := by
  obtain ⟨ts, n, inbound, h⟩ := h
  obtain ⟨ts', n', inbound', h'⟩ := h'
  rw [h] at h'
  cases h'
  rfl

theorem Due.packetOn (h : Due calls k i) : PacketOn calls k i := by
  obtain ⟨ts, n, inbound, h, -⟩ := h
  exact ⟨ts, n, inbound, h⟩

/-! ### The invariant -/

/-- `owner` is the key each counter was made for, `credits` the packets credited to it. -/
structure Credited (calls : List Call) (s : Race) (owner : Nat → FlowKey) (credits : Nat → List Nat) : Prop where
  table : ∀ k ptr, s.flows.lookup k = some ptr → ptr < s.next ∧ owner ptr = k
  holding : ∀ i ptr, s.pc i = .holding ptr → ptr < s.next ∧ PacketOn calls (owner ptr) i
  totals : ∀ ptr < s.next, (s.heap ptr).totals =
    (bytesOf calls true (credits ptr), bytesOf calls false (credits ptr))
  nodup : ∀ ptr < s.next, (credits ptr).Nodup
  credited : ∀ ptr < s.next, ∀ i ∈ credits ptr, s.pc i = .done ∧
    ∃ ts n inbound, calls[i]? = some (.record (owner ptr) ts n inbound) ∧ ts ≤ s.lastSeen ptr
  due : ∀ k i, Due calls k i → s.pc i = .start ∨ s.pc i = .missing ∨
    ∃ ptr, s.flows.lookup k = some ptr ∧ (s.pc i = .holding ptr ∨ i ∈ credits ptr)

namespace Credited
variable {s : Race} {owner : Nat → FlowKey} {credits : Nat → List Nat} {ptr : Nat} {key : FlowKey} {ts : Int}
  {n : UInt64} {inbound : Bool} {before : Int} {keep : GoMap FlowKey Unit}
  {stale : List FlowKey} {pc : Pc}

/-- A step of a call that is not done changes nothing for the calls that are credited. -/
theorem ne_of_mem (h : Credited calls s owner credits) (hpc : s.pc i ≠ .done) (hptr : ptr < s.next) {j : Nat}
    (hj : j ∈ credits ptr) : j ≠ i := by
  rintro rfl
  exact hpc (h.credited ptr hptr j hj).1

theorem setPc (h : Credited calls s owner credits) (hpc : s.pc i ≠ .done)
    (hhold : ∀ ptr, pc = .holding ptr → ptr < s.next ∧ PacketOn calls (owner ptr) i)
    (hdue : ∀ k, Due calls k i → pc = .missing ∨ ∃ ptr, s.flows.lookup k = some ptr ∧ pc = .holding ptr) :
    Credited calls (s.setPc i pc) owner credits where
  table := h.table
  holding j ptr hj := by
    by_cases hji : j = i
    · subst hji
      exact hhold ptr (by simpa [Race.setPc] using hj)
    · exact h.holding j ptr (by simpa [Race.setPc, hji] using hj)
  totals := h.totals
  nodup := h.nodup
  credited ptr hptr j hj := by
    refine ⟨?_, (h.credited ptr hptr j hj).2⟩
    have hji := h.ne_of_mem hpc hptr hj
    simpa [Race.setPc, hji] using (h.credited ptr hptr j hj).1
  due k j hj := by
    by_cases hji : j = i
    · subst hji
      rcases hdue k hj with rfl | ⟨ptr, hk, rfl⟩
      · exact .inr (.inl (by simp [Race.setPc]))
      · exact .inr (.inr ⟨ptr, hk, .inl (by simp [Race.setPc])⟩)
    · simpa [Race.setPc, hji] using h.due k j hj

theorem holding_lookup (h : Credited calls s owner credits) (hi : calls[i]? = some (.record key ts n inbound))
    (hk : s.flows.lookup key = some ptr) (hpc : s.pc i ≠ .done) :
    Credited calls (s.setPc i (.holding ptr)) owner credits := by
  obtain ⟨hlt, hown⟩ := h.table key ptr hk
  have hon : PacketOn calls key i := ⟨ts, n, inbound, hi⟩
  refine h.setPc hpc (fun p hp => ?_) fun k hdue => ?_
  · obtain rfl := Pc.holding.inj hp
    exact ⟨hlt, hown ▸ hon⟩
  · obtain rfl := hdue.packetOn.unique hon
    exact .inr ⟨ptr, hk, rfl⟩

theorem lookupSection (h : Credited calls s owner credits) (hi : calls[i]? = some (.record key ts n inbound))
    (hpc : s.pc i = .start) : Credited calls (s.lookupSection i key) owner credits := by
  unfold Race.lookupSection
  split
  · exact h.holding_lookup hi ‹_› (by simp [hpc])
  · exact h.setPc (by simp [hpc]) nofun fun _ _ => .inl rfl

/-- A new counter has no credits, and no due packet of its key had another one: there was none. -/
theorem insertSection (h : Credited calls s owner credits) (hi : calls[i]? = some (.record key ts n inbound))
    (hpc : s.pc i = .missing) : ∃ owner credits, Credited calls (s.insertSection i key) owner credits := by
  unfold Race.insertSection
  split
  · exact ⟨owner, credits, h.holding_lookup hi ‹_› (by simp [hpc])⟩
  · rename_i hnone
    -- counters made before are not touched, so what is known of them stays
    have hold : ∀ {α : Type} (f : Nat → α) (v : α) {p}, p < s.next → Function.update f s.next v p = f p :=
      fun f v p hp => Function.update_of_ne (Nat.ne_of_lt hp) v f
    refine ⟨Function.update owner s.next key, Function.update credits s.next [], ?_, ?_, ?_, ?_, ?_, ?_⟩
    · intro k ptr hk
      rw [GoMap.lookup_insert_eq] at hk
      by_cases hkey : k = key
      · rw [if_pos hkey] at hk
        obtain rfl := Option.some.inj hk
        exact ⟨Nat.lt_succ_self _, (Function.update_self ..).trans hkey.symm⟩
      · rw [if_neg hkey] at hk
        obtain ⟨hlt, hown⟩ := h.table k ptr hk
        exact ⟨Nat.lt_succ_of_lt hlt, (hold owner key hlt).trans hown⟩
    · intro j ptr hj
      by_cases hji : j = i
      · subst hji
        obtain rfl : s.next = ptr := by simpa using hj
        rw [Function.update_self]
        exact ⟨Nat.lt_succ_self _, ts, n, inbound, hi⟩
      · obtain ⟨hlt, hon⟩ := h.holding j ptr (by simpa [hji] using hj)
        rw [hold owner key hlt]
        exact ⟨Nat.lt_succ_of_lt hlt, hon⟩
    · intro ptr hptr
      rcases Nat.lt_succ_iff_lt_or_eq.1 hptr with hlt | rfl
      · show (Function.update s.heap s.next {} ptr).totals = _
        rw [hold _ _ hlt, hold _ _ hlt]
        exact h.totals ptr hlt
      · simp [bytesOf, ByteCounter.totals]
    · intro ptr hptr
      rcases Nat.lt_succ_iff_lt_or_eq.1 hptr with hlt | rfl
      · rw [hold _ _ hlt]
        exact h.nodup ptr hlt
      · simp
    · intro ptr hptr j hj
      rcases Nat.lt_succ_iff_lt_or_eq.1 hptr with hlt | rfl
      · rw [hold _ _ hlt] at hj ⊢
        have hji := h.ne_of_mem (i := i) (by simp [hpc]) hlt hj
        simpa [Race.lastSeen, hji, hold _ _ hlt] using h.credited ptr hlt j hj
      · simp at hj
    · intro k j hj
      by_cases hji : j = i
      · subst hji
        obtain rfl := hj.packetOn.unique ⟨ts, n, inbound, hi⟩
        exact .inr (.inr ⟨s.next, AList.lookup_insert _, .inl (by simp)⟩)
      · rcases h.due k j hj with hst | hmi | ⟨ptr, hk, hor⟩
        · exact .inl (by simpa [hji] using hst)
        · exact .inr (.inl (by simpa [hji] using hmi))
        · have hkey : k ≠ key := by
            rintro rfl
            rw [hnone] at hk
            cases hk
          refine .inr (.inr ⟨ptr, (AList.lookup_insert_ne hkey).trans hk, ?_⟩)
          simpa [hji, hold _ _ (h.table k ptr hk).1] using hor

theorem bytesOf_cons {dir : Bool} {S : List Nat} (hi : calls[i]? = some (.record key ts n inbound)) :
    bytesOf calls dir (i :: S) = (if inbound = dir then n else 0) + bytesOf calls dir S := by
  simp [bytesOf, hi, Call.bytes]

/-- The credit reaches the counter the packet holds; if the packet is due, the table's. -/
theorem addSection (h : Credited calls s owner credits) (hi : calls[i]? = some (.record key ts n inbound))
    (hpc : s.pc i = .holding ptr) :
    Credited calls (s.addSection i ptr ts n inbound) owner (Function.update credits ptr (i :: credits ptr)) := by
  have hdone : s.pc i ≠ .done := by simp [hpc]
  obtain ⟨hlt, hon⟩ := h.holding i ptr hpc
  refine ⟨h.table, ?_, ?_, ?_, ?_, ?_⟩
  · intro j p hj
    by_cases hji : j = i
    · subst hji
      simp [Race.addSection] at hj
    · exact h.holding j p (by simpa [Race.addSection, hji] using hj)
  · intro p hp
    by_cases hne : p = ptr
    · subst hne
      have htot := Prod.mk.inj (h.totals p hp)
      simp only [Race.addSection, Function.update_self, ByteCounter.totals, ByteCounter.add_bytesIn,
        ByteCounter.add_bytesOut, bytesOf_cons hi, htot.1, htot.2]
      cases inbound <;> simp [UInt64.add_comm]
    · simpa [Race.addSection, hne] using h.totals p hp
  · intro p hp
    by_cases hne : p = ptr
    · subst hne
      simp only [Function.update_self, List.nodup_cons]
      exact ⟨fun hmem => h.ne_of_mem hdone hp hmem rfl, h.nodup p hp⟩
    · simpa [hne] using h.nodup p hp
  · intro p hp j hj
    by_cases hne : p = ptr
    · subst hne
      simp only [Function.update_self, List.mem_cons] at hj
      simp only [Race.addSection, Race.lastSeen, Function.update_self, ByteCounter.add_lastSeen]
      rcases hj with rfl | hj
      · obtain rfl : owner p = key := hon.unique ⟨ts, n, inbound, hi⟩
        exact ⟨by simp, ts, n, inbound, hi, le_max_right _ _⟩
      · obtain ⟨hd, ts', n', inbound', hc, hle⟩ := h.credited p hp j hj
        have hji := h.ne_of_mem hdone hp hj
        exact ⟨by simpa [hji] using hd, ts', n', inbound', hc, le_max_of_le_left hle⟩
    · simp only [Function.update_of_ne hne] at hj
      have hji := h.ne_of_mem hdone hp hj
      simpa [Race.addSection, Race.lastSeen, hne, hji] using h.credited p hp j hj
  · intro k j hj
    by_cases hji : j = i
    · subst hji
      rcases h.due k j hj with hst | hmi | ⟨p, hk, hh | hc⟩
      · rw [hpc] at hst
        cases hst
      · rw [hpc] at hmi
        cases hmi
      · obtain rfl : ptr = p := Pc.holding.inj (hpc.symm.trans hh)
        exact .inr (.inr ⟨ptr, hk, .inr (by simp)⟩)
      · exact absurd rfl (h.ne_of_mem hdone (h.table k p hk).1 hc)
    · rcases h.due k j hj with hst | hmi | ⟨p, hk, hor⟩
      · exact .inl (by simpa [Race.addSection, hji] using hst)
      · exact .inr (.inl (by simpa [Race.addSection, hji] using hmi))
      · refine .inr (.inr ⟨p, hk, ?_⟩)
        rcases hor with hh | hc
        · exact .inl (by simpa [Race.addSection, hji] using hh)
        · right
          by_cases hne : p = ptr
          · subst hne
            simp [hc]
          · simpa [hne] using hc

theorem scanSection (h : Credited calls s owner credits) (hi : calls[i]? = some (.evict before keep))
    (hpc : s.pc i = .start) : Credited calls (s.scanSection i before keep) owner credits := by
  refine h.setPc (by simp [hpc]) nofun fun k hdue => ?_
  obtain ⟨ts, n, inbound, hrec, -⟩ := hdue
  rw [hi] at hrec
  cases hrec

/-- A sweep leaves every due packet's counter: a credited one is not stale, a held one is spared. -/
theorem sweepSection (h : Credited calls s owner credits) (hi : calls[i]? = some (.evict before keep))
    (hpc : s.pc i = .scanned stale) (hs : Spares calls s i) :
    Credited calls (s.sweepSection i before stale) owner credits := by
  have hdone : s.pc i ≠ .done := by simp [hpc]
  have hsub : ∀ k ptr, (s.sweepSection i before stale).flows.lookup k = some ptr → s.flows.lookup k = some ptr := by
    intro k ptr hk
    rw [Race.sweepSection, lookup_sweep] at hk
    exact (Option.filter_eq_some_iff.1 hk).1
  have hkeep : ∀ k ptr, s.flows.lookup k = some ptr → ¬ (k ∈ stale ∧ s.lastSeen ptr < before) →
      (s.sweepSection i before stale).flows.lookup k = some ptr := by
    intro k ptr hk hcond
    rw [Race.sweepSection, lookup_sweep, hk]
    simpa [Option.filter_some] using hcond
  refine ⟨fun k ptr hk => h.table k ptr (hsub k ptr hk), ?_, h.totals, h.nodup, ?_, ?_⟩
  · intro j ptr hj
    by_cases hji : j = i
    · subst hji
      simp [Race.sweepSection] at hj
    · exact h.holding j ptr (by simpa [Race.sweepSection, hji] using hj)
  · intro ptr hptr j hj
    refine ⟨?_, (h.credited ptr hptr j hj).2⟩
    have hji := h.ne_of_mem hdone hptr hj
    simpa [Race.sweepSection, hji] using (h.credited ptr hptr j hj).1
  · intro k j hj
    have hji : j ≠ i := by
      rintro rfl
      obtain ⟨ts, n, inbound, hrec, -⟩ := hj
      rw [hi] at hrec
      cases hrec
    have hpcj : (s.sweepSection i before stale).pc j = s.pc j := by simp [Race.sweepSection, hji]
    rw [hpcj]
    rcases h.due k j hj with hst | hmi | ⟨ptr, hk, hor⟩
    · exact .inl hst
    · exact .inr (.inl hmi)
    · refine .inr (.inr ⟨ptr, hkeep k ptr hk ?_, hor⟩)
      rintro ⟨hstale, hlt⟩
      rcases hor with hh | hc
      · exact hs before keep stale hi hpc k hstale ptr hk hlt j hh hj
      · obtain ⟨-, ts, n, inbound, hrec, hle⟩ := h.credited ptr (h.table k ptr hk).1 j hc
        obtain ⟨ts', n', inbound', hrec', hcut⟩ := hj
        rw [hrec'] at hrec
        cases hrec
        have hbefore := hcut before keep (List.mem_of_getElem? hi)
        omega

theorem step (h : Credited calls s owner credits) (hs : Spares calls s i) :
    ∃ owner credits, Credited calls (s.step calls i) owner credits := by
  unfold Race.step
  split
  · exact ⟨owner, credits, h.lookupSection ‹_› ‹_›⟩
  · exact h.insertSection ‹_› ‹_›
  · exact ⟨owner, _, h.addSection ‹_› ‹_›⟩
  · exact ⟨owner, credits, h.scanSection ‹_› ‹_›⟩
  · exact ⟨owner, credits, h.sweepSection ‹_› ‹_› hs⟩
  · exact ⟨owner, credits, h⟩

theorem init : Credited calls {} (fun _ => ⟨.invalid, 0, .invalid, 0, .tcp, ""⟩) fun _ => [] where
  table := nofun
  holding := nofun
  totals := nofun
  nodup := nofun
  credited := nofun
  due := fun _ _ _ => .inl rfl

theorem noneLost (h : Credited calls s owner credits) (hdone : ∀ i < calls.length, s.pc i = .done) :
    NoneLost calls s := by
  -- where every call is done, a due packet has been credited to the table's counter
  have hcred : ∀ k i, Due calls k i → ∃ ptr, s.flows.lookup k = some ptr ∧ i ∈ credits ptr := by
    intro k i hdue
    obtain ⟨ts, n, inbound, hrec⟩ := hdue.packetOn
    have hpc := hdone i (List.getElem?_eq_some_iff.1 hrec).1
    rcases h.due k i hdue with hst | hmi | ⟨ptr, hk, hh | hc⟩
    · rw [hpc] at hst
      cases hst
    · rw [hpc] at hmi
      cases hmi
    · rw [hpc] at hh
      cases hh
    · exact ⟨ptr, hk, hc⟩
  rintro k ⟨i, hi⟩
  obtain ⟨ptr, hk, -⟩ := hcred k i hi
  obtain ⟨hlt, hown⟩ := h.table k ptr hk
  refine ⟨ptr, credits ptr, hk, h.nodup ptr hlt, fun j hj => ?_, h.totals ptr hlt, fun j hj => ?_⟩
  · obtain ⟨-, ts, n, inbound, hrec, -⟩ := h.credited ptr hlt j hj
    exact ⟨ts, n, inbound, hown ▸ hrec⟩
  · obtain ⟨ptr', hk', hc⟩ := hcred k j hj
    obtain rfl := Option.some.inj (hk.symm.trans hk')
    exact hc

end Credited

/-- In every interleaving whose sweeps spare the counters that due packets hold, no due packet is
lost once every call is done. -/
theorem no_packet_lost (calls : List Call) (sched : List Nat)
    (h : Meets (Race.step calls) (Spares calls) {} sched)
    (hdone : ∀ i < calls.length, (sched.foldl (Race.step calls) {}).pc i = .done) :
    NoneLost calls (sched.foldl (Race.step calls) {}) := by
  have hinv : ∃ owner credits, Credited calls (sched.foldl (Race.step calls) {}) owner credits := by
    refine h.history (P := fun pre => ∃ owner credits, Credited calls (pre.foldl (Race.step calls) {}) owner credits)
      ⟨_, _, .init⟩ fun pre i ⟨owner, credits, hpre⟩ hs => ?_
    rw [List.foldl_append]
    exact hpre.step hs
  obtain ⟨owner, credits, hcr⟩ := hinv
  exact hcr.noneLost hdone

/-- Two packets on a new flow, and a sweep that scans before either is credited. -/
def twoPackets : List Call :=
  [.record (flow443 "eth0") (10 * second) 100 true, .record (flow443 "eth0") (11 * second) 50 true,
    .evict (5 * second) ∅]

theorem twoPackets_due (i : Nat) (hi : i < 2) : Due twoPackets (flow443 "eth0") i := by
  have hcut : ∀ before keep, Call.evict before keep ∈ twoPackets → before = 5 * second := by
    intro before keep hmem
    simp only [twoPackets, List.mem_cons, List.not_mem_nil, or_false, reduceCtorEq, false_or, Call.evict.injEq] at hmem
    exact hmem.1
  rcases i with _ | _ | i
  · exact ⟨_, _, _, rfl, fun before keep hmem => by rw [hcut before keep hmem]; decide⟩
  · exact ⟨_, _, _, rfl, fun before keep hmem => by rw [hcut before keep hmem]; decide⟩
  · omega

theorem twoPackets_kept : NoneLost twoPackets ([0, 1, 0, 1, 2, 0, 1, 2].foldl (Race.step twoPackets) {}) := by
  have hrec : ∀ s i, i < 2 → Spares twoPackets s i := by
    rintro s (_ | _ | i) hi before keep stale hcall <;> first | cases hcall | omega
  have hscan : ∀ s, s.pc 2 = .start → Spares twoPackets s 2 := by
    intro s hpc before keep stale _ hpc'
    rw [hpc] at hpc'
    cases hpc'
  refine no_packet_lost twoPackets [0, 1, 0, 1, 2, 0, 1, 2] ?_ (by decide)
  refine meets_cons.2 ⟨hrec _ 0 (by decide), meets_cons.2 ⟨hrec _ 1 (by decide), meets_cons.2 ⟨hrec _ 0 (by decide),
    meets_cons.2 ⟨hrec _ 1 (by decide), meets_cons.2 ⟨hscan _ rfl, meets_cons.2 ⟨hrec _ 0 (by decide),
    meets_cons.2 ⟨hrec _ 1 (by decide), meets_cons.2 ⟨?_, .nil⟩⟩⟩⟩⟩⟩⟩⟩
  intro before keep stale hcall hpc k hk ptr hptr hlt
  cases hcall
  obtain rfl : [flow443 "eth0"] = stale := Pc.scanned.inj hpc
  obtain rfl : k = flow443 "eth0" := List.mem_singleton.1 hk
  obtain rfl : 0 = ptr := Option.some.inj hptr
  exact absurd hlt (by decide)

/-- The sweep runs before they are credited: their bytes go to a counter outside the table. -/
theorem twoPackets_lost : (∀ i < 3, ([0, 1, 0, 1, 2, 2, 0, 1].foldl (Race.step twoPackets) {}).pc i = .done) ∧
    ¬ NoneLost twoPackets ([0, 1, 0, 1, 2, 2, 0, 1].foldl (Race.step twoPackets) {}) := by
  refine ⟨by decide, fun h => ?_⟩
  obtain ⟨ptr, S, hk, -⟩ := h (flow443 "eth0") ⟨0, twoPackets_due 0 (by decide)⟩
  cases hk

/-! ### A call that runs alone -/

def Race.table (s : Race) (k : FlowKey) : Option ByteCounter := (s.flows.lookup k).map s.heap

section Alone
variable {s : Race} {c : Capturer} {key : FlowKey} {ts : Int} {n : UInt64} {inbound : Bool} {before : Int}
  {keep : GoMap FlowKey Unit} {owner : Nat → FlowKey} {credits : Nat → List Nat}

theorem record_alone (h : Credited calls s owner credits) (hc : ∀ k, c.flows.lookup k = s.table k)
    (hi : calls[i]? = some (.record key ts n inbound)) (hpc : s.pc i = .start) :
    ([i, i, i].foldl (Race.step calls) s).pc i = .done ∧
      ∀ k, (c.record key ts n inbound).flows.lookup k = ([i, i, i].foldl (Race.step calls) s).table k := by
  cases hk : s.flows.lookup key with
  | some ptr =>
    have h1 : s.step calls i = s.setPc i (.holding ptr) := by
      simp [Race.step, hi, hpc, Race.lookupSection, hk]
    have h2 : (s.setPc i (.holding ptr)).step calls i = (s.setPc i (.holding ptr)).addSection i ptr ts n inbound := by
      simp [Race.step, hi, Race.setPc]
    have h3 : ((s.setPc i (.holding ptr)).addSection i ptr ts n inbound).step calls i =
        (s.setPc i (.holding ptr)).addSection i ptr ts n inbound := by
      simp [Race.step, hi, Race.addSection]
    simp only [List.foldl_cons, List.foldl_nil, h1, h2, h3]
    refine ⟨by simp [Race.addSection], fun k => ?_⟩
    rw [Capturer.lookup_record, hc, hc]
    by_cases hkey : k = key
    · subst hkey
      simp [Race.table, Race.addSection, Race.setPc, hk]
    · rw [if_neg hkey]
      simp only [Race.table, Race.addSection, Race.setPc]
      cases hk' : s.flows.lookup k with
      | none => rfl
      | some ptr' =>
        have hne : ptr' ≠ ptr := by
          rintro rfl
          exact hkey ((h.table k _ hk').2.symm.trans (h.table key _ hk).2)
        simp [hne]
  | none =>
    have h1 : s.step calls i = s.setPc i .missing := by
      simp [Race.step, hi, hpc, Race.lookupSection, hk]
    have h2 : (s.setPc i .missing).step calls i = (s.setPc i .missing).insertSection i key := by
      simp [Race.step, hi, Race.setPc]
    have h3 : ((s.setPc i .missing).insertSection i key).step calls i =
        ((s.setPc i .missing).insertSection i key).addSection i s.next ts n inbound := by
      simp [Race.step, hi, Race.insertSection, Race.setPc, hk]
    simp only [List.foldl_cons, List.foldl_nil, h1, h2, h3]
    refine ⟨by simp [Race.addSection], fun k => ?_⟩
    rw [Capturer.lookup_record, hc, hc]
    have hins : (s.setPc i .missing).insertSection i key = { s with
        flows := s.flows.insert key s.next, heap := Function.update s.heap s.next {}, next := s.next + 1
        pc := Function.update (Function.update s.pc i .missing) i (.holding s.next) } := by
      simp [Race.insertSection, Race.setPc, hk]
    simp only [Race.table, Race.addSection, hins, GoMap.lookup_insert_eq]
    by_cases hkey : k = key
    · subst hkey
      simp [hk]
    · rw [if_neg hkey, if_neg hkey]
      cases hk' : s.flows.lookup k with
      | none => rfl
      | some ptr' =>
        have hne : ptr' ≠ s.next := Nat.ne_of_lt (h.table k _ hk').1
        simp [hne]

theorem evict_alone (hc : ∀ k, c.flows.lookup k = s.table k) (hi : calls[i]? = some (.evict before keep))
    (hpc : s.pc i = .start) :
    ([i, i].foldl (Race.step calls) s).pc i = .done ∧
      ∀ k, (c.evict before keep).1.flows.lookup k = ([i, i].foldl (Race.step calls) s).table k := by
  have h1 : s.step calls i = s.scanSection i before keep := by
    simp [Race.step, hi, hpc]
  have h2 : (s.scanSection i before keep).step calls i =
      (s.scanSection i before keep).sweepSection i before (staleKeys s.lastSeen s.flows before keep) := by
    simp [Race.step, hi, Race.scanSection, Race.setPc]
  simp only [List.foldl_cons, List.foldl_nil, h1, h2]
  refine ⟨by simp [Race.sweepSection], fun k => ?_⟩
  show _ = ((sweep s.lastSeen before (staleKeys s.lastSeen s.flows before keep) s.flows).1.lookup k).map s.heap
  rw [Capturer.lookup_evict, hc, lookup_evicted, Race.table, Option.filter_map]
  rfl

end Alone
end Trafficmon
