import Trafficmon.Lib.Run
import Trafficmon.Procinfo.Ebpf

/-!
# Invariants of the eBPF table

`skToKey` is a function of the history alone: a socket is in it iff its latest decodable event is
not terminal, and then under that event's tuple (`skToKey_eq`). `conns` is not, because sockets can
share a tuple. What survives sharing is `Owned`: every tuple in `conns` is held by some socket, so
the table never leaks. What does not survive it:

* an event can take a tuple out of `conns` that another socket still holds. `LiveKept`, every socket
  that is alone on its tuple has its entry, holds along a run exactly when no event leaves another
  socket alone on the tuple it drops (`liveKept_iff`);
* a socket's PID is carried over through the entry under its old tuple, whoever's that is. `PidSticky`
  holds along a run whose live events all find their socket's own entry (`pidSticky_of_ownEntry`).
-/

namespace Trafficmon
namespace EBPFSource
open Run

variable {processName : Nat → Int32 → Option String} {s : EBPFSource} {ev e : EbpfEvent}
  {evs : List EbpfEvent} {sk : UInt64} {k key : EbpfConnKey}

@[simp] theorem handleEvents_nil : handleEvents processName [] = {} := rfl

theorem handleEvents_concat (evs : List EbpfEvent) (ev : EbpfEvent) :
    handleEvents processName (evs ++ [ev]) =
      (handleEvents processName evs).handleEvent (processName (handleEvents processName evs).eventCount) ev := by
  simp [handleEvents, handleNext]

/-! ### The history of a socket -/

def latest (evs : List EbpfEvent) (sk : UInt64) : Option EbpfEvent :=
  (evs.filter fun e => e.skAddr = sk ∧ e.key.isSome).getLast?

theorem latest_concat (evs : List EbpfEvent) (ev : EbpfEvent) (sk : UInt64) :
    latest (evs ++ [ev]) sk = if ev.skAddr = sk ∧ ev.key.isSome then some ev else latest evs sk := by
  unfold latest
  rw [List.filter_append]
  by_cases h : ev.skAddr = sk ∧ ev.key.isSome = true
  · simp [h]
  · simp [h]

theorem mem_of_latest (h : latest evs sk = some e) : e ∈ evs ∧ e.skAddr = sk ∧ e.key.isSome := by
  have := List.mem_of_getLast? h
  simpa using this

/-- The first event of the span `sk` is live in: since its latest terminal event, if any. -/
def spanFirst (evs : List EbpfEvent) (sk : UInt64) : Option EbpfEvent :=
  evs.foldl (fun first e =>
    if e.skAddr = sk ∧ e.key.isSome then if e.terminal then none else first.or (some e) else first) none

theorem spanFirst_concat (evs : List EbpfEvent) (ev : EbpfEvent) (sk : UInt64) :
    spanFirst (evs ++ [ev]) sk = if ev.skAddr = sk ∧ ev.key.isSome then
      if ev.terminal then none else (spanFirst evs sk).or (some ev) else spanFirst evs sk := by
  simp [spanFirst]

/-- A socket is in `skToKey` under the tuple of its latest event, unless that one was terminal. -/
theorem skToKey_eq (evs : List EbpfEvent) (sk : UInt64) :
    (handleEvents processName evs).skToKey.lookup sk =
      (latest evs sk).bind fun e => if e.terminal then none else e.key := by
  induction evs using List.reverseRecOn with
  | nil => rfl
  | append_singleton evs ev ih =>
    rw [handleEvents_concat, latest_concat]
    cases hk : ev.key with
    | none => rw [(handleEvent_undecodable hk).2, ih]; simp
    | some key =>
      cases ht : ev.terminal with
      | true =>
        rw [skToKey_terminal hk ht, ih]
        by_cases h : sk = ev.skAddr
        · simp [h, ht]
        · simp [h, Ne.symm h]
      | false =>
        rw [skToKey_live hk ht, ih]
        by_cases h : sk = ev.skAddr
        · simp [h, ht, hk]
        · simp [h, Ne.symm h]

theorem holds_iff : (handleEvents processName evs).skToKey.lookup sk = some k ↔
    ∃ e, latest evs sk = some e ∧ e.terminal = false ∧ e.key = some k := by
  rw [skToKey_eq, Option.bind_eq_some_iff]
  constructor
  · rintro ⟨e, he, hk⟩
    split at hk
    · cases hk
    · rename_i ht
      exact ⟨e, he, Bool.eq_false_iff.2 ht, hk⟩
  · rintro ⟨e, he, ht, hk⟩
    exact ⟨e, he, by simp [ht, hk]⟩

/-! ### No leak -/

def Owned (s : EBPFSource) : Prop :=
  ∀ k c, s.conns.lookup k = some c → ∃ sk, s.skToKey.lookup sk = some k

theorem Owned.handleEvent {pn : Int32 → Option String} (h : s.Owned) (ev : EbpfEvent) :
    (s.handleEvent pn ev).Owned := by
  intro k c hc
  cases hk : ev.key with
  | none =>
    rw [(handleEvent_undecodable hk).1] at hc
    rw [(handleEvent_undecodable hk).2]
    exact h k c hc
  | some key =>
    cases ht : ev.terminal with
    | true =>
      rw [conns_terminal hk ht] at hc
      split at hc
      · cases hc
      · obtain ⟨sk, hsk⟩ := h k c hc
        refine ⟨sk, ?_⟩
        -- the holder is not the closing socket: that one's tuple is the one dropped
        have hne : sk ≠ ev.skAddr := by
          rintro rfl
          rename_i hd
          exact hd (by simp [dropped, hk, ht, hsk])
        rw [skToKey_terminal hk ht, if_neg hne, hsk]
    | false =>
      rw [conns_live hk ht] at hc
      split at hc
      · subst k; exact ⟨ev.skAddr, by rw [skToKey_live hk ht, if_pos rfl]⟩
      · split at hc
        · cases hc
        · obtain ⟨sk, hsk⟩ := h k c hc
          refine ⟨sk, ?_⟩
          have hne : sk ≠ ev.skAddr := by
            rintro rfl
            rename_i hkey hd
            exact hd (by simp [dropped, hk, ht, hsk, Option.filter, hkey])
          rw [skToKey_live hk ht, if_neg hne, hsk]

theorem owned_handleEvents (evs : List EbpfEvent) : (handleEvents processName evs).Owned := by
  induction evs using List.reverseRecOn with
  | nil => intro k c h; simp at h
  | append_singleton evs ev ih => rw [handleEvents_concat]; exact ih.handleEvent ev

/-- Every tuple in `conns` is held by a socket whose latest decodable event is live; once every
socket's latest decodable event is terminal, both maps are empty. -/
theorem conns_never_leak (processName : Nat → Int32 → Option String) (evs : List EbpfEvent) :
    (∀ k c, (handleEvents processName evs).conns.lookup k = some c →
      ∃ sk e, (handleEvents processName evs).skToKey.lookup sk = some k ∧
        latest evs sk = some e ∧ e.terminal = false) ∧
    ((∀ sk e, latest evs sk = some e → e.terminal = true) →
      (handleEvents processName evs).conns = ∅ ∧ (handleEvents processName evs).skToKey = ∅) := by
  have hown : (handleEvents processName evs).Owned := owned_handleEvents evs
  refine ⟨fun k c hc => ?_, fun hterm => ?_⟩
  · obtain ⟨sk, hsk⟩ := hown k c hc
    obtain ⟨e, he, ht, -⟩ := holds_iff.1 hsk
    exact ⟨sk, e, hsk, he, ht⟩
  · have hnone : ∀ sk, (handleEvents processName evs).skToKey.lookup sk = none := fun sk => by
      rw [skToKey_eq]
      cases he : latest evs sk with
      | none => rfl
      | some e => simp [hterm sk e he]
    refine ⟨GoMap.eq_empty_of_lookup fun k => ?_, GoMap.eq_empty_of_lookup hnone⟩
    cases hc : (handleEvents processName evs).conns.lookup k with
    | none => rfl
    | some c =>
      obtain ⟨sk, hsk⟩ := hown k c hc
      rw [hnone sk] at hsk
      cases hsk

/-! ### One event among other sockets

Where `sk` is not the event's socket, the event changes nothing about `sk` itself; it only may take
the entry under `sk`'s tuple away. -/

variable {pn : Int32 → Option String}

theorem skToKey_of_ne (h : sk ≠ ev.skAddr) :
    (s.handleEvent pn ev).skToKey.lookup sk = s.skToKey.lookup sk := by
  cases hk : ev.key with
  | none => rw [(handleEvent_undecodable hk).2]
  | some key =>
    cases ht : ev.terminal with
    | true => rw [skToKey_terminal hk ht, if_neg h]
    | false => rw [skToKey_live hk ht, if_neg h]

theorem skToKey_dropped (hd : s.dropped ev = some k) :
    (s.handleEvent pn ev).skToKey.lookup ev.skAddr ≠ some k := by
  cases hk : ev.key with
  | none => simp [dropped, hk] at hd
  | some key =>
    cases ht : ev.terminal with
    | true => rw [skToKey_terminal hk ht, if_pos rfl]; simp
    | false =>
      rw [skToKey_live hk ht, if_pos rfl]
      simp only [dropped, hk, ht, Bool.false_eq_true, if_false, Option.filter_eq_some_iff] at hd
      simpa using Ne.symm (by simpa using hd.2)

theorem conns_dropped (hd : s.dropped ev = some k) : (s.handleEvent pn ev).conns.lookup k = none := by
  have hne : (s.handleEvent pn ev).skToKey.lookup ev.skAddr ≠ some k := skToKey_dropped hd
  cases hk : ev.key with
  | none => simp [dropped, hk] at hd
  | some key =>
    cases ht : ev.terminal with
    | true => rw [conns_terminal hk ht, if_pos hd.symm]
    | false =>
      rw [skToKey_live hk ht, if_pos rfl] at hne
      rw [conns_live hk ht, if_neg (fun h => hne (by rw [h])), if_pos hd.symm]

theorem conns_of_ne (hd : s.dropped ev ≠ some k)
    (hm : (s.handleEvent pn ev).skToKey.lookup ev.skAddr ≠ some k) :
    (s.handleEvent pn ev).conns.lookup k = s.conns.lookup k := by
  cases hk : ev.key with
  | none => rw [(handleEvent_undecodable hk).1]
  | some key =>
    cases ht : ev.terminal with
    | true => rw [conns_terminal hk ht, if_neg (Ne.symm hd)]
    | false =>
      rw [skToKey_live hk ht, if_pos rfl] at hm
      rw [conns_live hk ht, if_neg (fun h => hm (by rw [h])), if_neg (Ne.symm hd)]

theorem dropped_of_left (h : s.skToKey.lookup ev.skAddr = some k)
    (h' : (s.handleEvent pn ev).skToKey.lookup ev.skAddr ≠ some k) : s.dropped ev = some k := by
  cases hk : ev.key with
  | none => rw [(handleEvent_undecodable hk).2] at h'; exact absurd h h'
  | some key =>
    cases ht : ev.terminal with
    | true => simp [dropped, hk, ht, h]
    | false =>
      rw [skToKey_live hk ht, if_pos rfl] at h'
      simp only [dropped, hk, ht, h, Bool.false_eq_true, if_false, Option.filter_eq_some_iff]
      exact ⟨trivial, by simpa using fun e => h' (by rw [e])⟩

def Alone (s : EBPFSource) (sk : UInt64) (k : EbpfConnKey) : Prop :=
  s.skToKey.lookup sk = some k ∧ ∀ sk', s.skToKey.lookup sk' = some k → sk' = sk

/-- A socket found alone after another socket's event was alone before it, or was left alone by it. -/
theorem Alone.before (h : (s.handleEvent pn ev).Alone sk k) (hne : sk ≠ ev.skAddr) :
    s.dropped ev = some k ∨ s.Alone sk k := by
  obtain ⟨hsk, honly⟩ := h
  by_cases hev : s.skToKey.lookup ev.skAddr = some k
  · exact .inl (dropped_of_left hev fun h' => hne (honly _ h').symm)
  · refine .inr ⟨by rwa [skToKey_of_ne hne] at hsk, fun sk' h' => ?_⟩
    by_cases he : sk' = ev.skAddr
    · exact absurd (he ▸ h') hev
    · exact honly sk' (by rwa [skToKey_of_ne he])

theorem latest_of_ne (h : sk ≠ ev.skAddr) : latest (evs ++ [ev]) sk = latest evs sk := by
  rw [latest_concat, if_neg fun h' => h h'.1.symm]

/-! ### Live sockets keep their entries -/

def tupleOf (c : Connection) : EbpfConnKey := ⟨c.localAddr, c.localPort, c.remoteAddr, c.remotePort⟩

/-- Every socket whose latest event is live, and whose tuple no other such socket's latest event
carries, has an entry under exactly that tuple with that event's state. -/
def LiveKept (s : EBPFSource) (evs : List EbpfEvent) : Prop :=
  ∀ sk e k, latest evs sk = some e → e.terminal = false → e.key = some k →
    (∀ sk' e', latest evs sk' = some e' → e'.terminal = false → e'.key = some k → sk' = sk) →
    ∃ c, s.conns.lookup k = some c ∧ tupleOf c = k ∧ c.state = e.state

/-- The event drops no tuple on which it leaves exactly one other socket. -/
def LeavesNoneAlone (s : EBPFSource) (ev : EbpfEvent) : Prop :=
  ∀ k, s.dropped ev = some k → ∀ sk, sk ≠ ev.skAddr → s.skToKey.lookup sk = some k →
    ∃ sk', sk' ≠ sk ∧ sk' ≠ ev.skAddr ∧ s.skToKey.lookup sk' = some k

theorem liveKept_iff_alone : LiveKept (handleEvents processName evs) evs ↔
    ∀ sk e k, latest evs sk = some e → (handleEvents processName evs).Alone sk k →
      ∃ c, (handleEvents processName evs).conns.lookup k = some c ∧ tupleOf c = k ∧ c.state = e.state := by
  constructor
  · intro h sk e k he ha
    obtain ⟨e', he', ht, hk⟩ := holds_iff.1 ha.1
    obtain rfl : e' = e := Option.some.inj (he'.symm.trans he)
    exact h sk e' k he ht hk fun sk' e'' h1 h2 h3 => ha.2 sk' (holds_iff.2 ⟨e'', h1, h2, h3⟩)
  · intro h sk e k he ht hk honly
    refine h sk e k he ⟨holds_iff.2 ⟨e, he, ht, hk⟩, fun sk' h' => ?_⟩
    obtain ⟨e', h1, h2, h3⟩ := holds_iff.1 h'
    exact honly sk' e' h1 h2 h3

/-- One more event keeps `LiveKept` exactly when it leaves no socket alone on the tuple it drops. -/
theorem liveKept_concat_iff (h : LiveKept (handleEvents processName evs) evs) :
    LiveKept (handleEvents processName (evs ++ [ev])) (evs ++ [ev]) ↔
      LeavesNoneAlone (handleEvents processName evs) ev := by
  rw [liveKept_iff_alone] at h ⊢
  rw [handleEvents_concat]
  set s := handleEvents processName evs with hs
  constructor
  · -- a socket left alone would be missing its entry
    intro h' k hd sk hne hsk
    by_contra hno
    obtain ⟨e, he, -, -⟩ := holds_iff.1 hsk
    have ha : (s.handleEvent (processName s.eventCount) ev).Alone sk k := by
      refine ⟨by rw [skToKey_of_ne hne]; exact hsk, fun sk' hsk' => ?_⟩
      have hne' : sk' ≠ ev.skAddr := fun e => skToKey_dropped hd (e ▸ hsk')
      rw [skToKey_of_ne hne'] at hsk'
      by_contra hx
      exact hno ⟨sk', hx, hne', hsk'⟩
    obtain ⟨c, hc, -⟩ := h' sk e k (by rw [latest_of_ne hne]; exact he) ha
    rw [conns_dropped hd] at hc
    cases hc
  · intro hC sk e k he ha
    by_cases hne : sk = ev.skAddr
    · -- the event's own socket: its entry has just been written
      subst hne
      rw [latest_concat] at he
      cases hk : ev.key with
      | none =>
        rw [hk] at he
        rw [(handleEvent_undecodable hk).1]
        refine h ev.skAddr e k (by simpa using he) ?_
        rwa [Alone, (handleEvent_undecodable hk).2] at ha
      | some key =>
        cases ht : ev.terminal with
        | true =>
          have := ha.1
          rw [skToKey_terminal hk ht, if_pos rfl] at this
          cases this
        | false =>
          have hkey := ha.1
          rw [skToKey_live hk ht, if_pos rfl] at hkey
          obtain rfl := Option.some.inj hkey
          obtain rfl : ev = e := by simpa [hk] using he
          exact ⟨_, by rw [conns_live hk ht, if_pos rfl], rfl, rfl⟩
    · rw [latest_of_ne hne] at he
      have hm : (s.handleEvent (processName s.eventCount) ev).skToKey.lookup ev.skAddr ≠ some k :=
        fun h' => hne (ha.2 _ h').symm
      have hsk : s.skToKey.lookup sk = some k := by rw [← skToKey_of_ne hne]; exact ha.1
      have hd : s.dropped ev ≠ some k := fun hd => by
        obtain ⟨sk', h1, h2, h3⟩ := hC k hd sk hne hsk
        exact h1 (ha.2 sk' (by rw [skToKey_of_ne h2]; exact h3))
      rw [conns_of_ne hd hm]
      exact h sk e k he ((ha.before hne).resolve_left hd)

/-- Along a run no live socket loses its entry iff no event leaves another socket alone on the tuple
it drops. -/
theorem liveKept_iff (processName : Nat → Int32 → Option String) (evs : List EbpfEvent) :
    (∀ pre, pre <+: evs → LiveKept (handleEvents processName pre) pre) ↔
      Meets (handleNext processName) LeavesNoneAlone {} evs :=
  forall_prefix_iff_meets (P := fun pre => LiveKept (handleEvents processName pre) pre)
    (by intro sk e k he; simp [latest] at he) fun _ _ h => liveKept_concat_iff h

/-- An IPv4 address in an event's 16-byte field. -/
def raw4 (a b c d : UInt8) : Vector UInt8 16 := #v[a, b, c, d, 0, 0, 0, 0, 0, 0, 0, 0, 0, 0, 0, 0]

def ev4 (sk : UInt64) (pid : UInt32) (localPort : UInt16) (newState : UInt32) : EbpfEvent where
  skAddr := sk
  pid := pid
  ipVer := 4
  localPort := localPort
  remotePort := 443
  localAddr := raw4 10 0 0 1
  remoteAddr := raw4 1 1 1 1
  newState := newState

def key4 (localPort : UInt16) : EbpfConnKey := ⟨.ipv4 10 0 0 1, localPort, .ipv4 1 1 1 1, 443⟩

/-- Two connecting sockets, both reported before the kernel has bound a local port; the first one's
port comes in. -/
def sharedThenMoved : List EbpfEvent := [ev4 1 100 0 2, ev4 2 200 0 2, ev4 1 100 40000 1]

/-- The second socket's entry went with the first one's move. -/
theorem sharedThenMoved_not_liveKept : (∀ e ∈ sharedThenMoved, e.key.isSome) ∧
    ¬ LiveKept (handleEvents (fun _ _ => none) sharedThenMoved) sharedThenMoved := by
  refine ⟨by decide, fun h => ?_⟩
  obtain ⟨c, hc, -⟩ := h 2 (ev4 2 200 0 2) (key4 0) (by decide) (by decide) (by decide)
    fun sk e he _ hk => by
      obtain ⟨hmem, rfl, -⟩ := mem_of_latest he
      simp only [sharedThenMoved, List.mem_cons, List.not_mem_nil, or_false] at hmem
      rcases hmem with rfl | rfl | rfl
      · exact absurd he (by decide)
      · rfl
      · exact absurd hk (by decide)
  exact absurd hc (by
    rw [show (handleEvents (fun _ _ => none) sharedThenMoved).conns.lookup (key4 0) = none by decide]
    simp)

/-! ### A socket keeps its first PID -/

/-- While a socket is live and alone on its tuple, the entry there carries the PID of the first
event of the span the socket is live in. -/
def PidSticky (s : EBPFSource) (evs : List EbpfEvent) : Prop :=
  ∀ sk e k c, spanFirst evs sk = some e → s.skToKey.lookup sk = some k → s.conns.lookup k = some c →
    (∀ sk', s.skToKey.lookup sk' = some k → sk' = sk) → c.pid = e.pid.toInt32

/-- A live event of a socket already in the table finds that socket's own entry: its tuple is in
`conns`, and no other socket holds it. -/
def OwnEntry (s : EBPFSource) (ev : EbpfEvent) : Prop :=
  ev.key.isSome → ev.terminal = false → ∀ k, s.skToKey.lookup ev.skAddr = some k →
    (∃ c, s.conns.lookup k = some c) ∧ ∀ sk, s.skToKey.lookup sk = some k → sk = ev.skAddr

theorem spanFirst_isSome_iff (evs : List EbpfEvent) (sk : UInt64) :
    (spanFirst evs sk).isSome ↔ ((handleEvents processName evs).skToKey.lookup sk).isSome := by
  induction evs using List.reverseRecOn with
  | nil => simp [spanFirst]
  | append_singleton evs ev ih =>
    rw [spanFirst_concat, handleEvents_concat]
    cases hk : ev.key with
    | none => rw [(handleEvent_undecodable hk).2, ← ih]; simp
    | some key =>
      by_cases h : sk = ev.skAddr
      · cases ht : ev.terminal with
        | true => rw [skToKey_terminal hk ht]; simp [h]
        | false => rw [skToKey_live hk ht]; simp [h]
      · rw [skToKey_of_ne h, ← ih]; simp [Ne.symm h]

theorem spanFirst_of_ne (h : sk ≠ ev.skAddr) : spanFirst (evs ++ [ev]) sk = spanFirst evs sk := by
  rw [spanFirst_concat, if_neg fun h' => h h'.1.symm]

theorem pidFor_eq (h : PidSticky (handleEvents processName evs) evs)
    (hC : OwnEntry (handleEvents processName evs) ev) (hk : ev.key = some key) (ht : ev.terminal = false)
    (hfree : ∀ sk, sk ≠ ev.skAddr → (handleEvents processName evs).skToKey.lookup sk ≠ some key)
    (he : (spanFirst evs ev.skAddr).or (some ev) = some e) :
    (handleEvents processName evs).pidFor ev key = e.pid.toInt32 := by
  cases ho : (handleEvents processName evs).skToKey.lookup ev.skAddr with
  | none =>
    have hspan : spanFirst evs ev.skAddr = none := by
      have hiff : _ ↔ ((handleEvents processName evs).skToKey.lookup ev.skAddr).isSome :=
        spanFirst_isSome_iff evs ev.skAddr
      rw [ho] at hiff
      simpa using hiff
    obtain rfl : ev = e := by simpa [hspan] using he
    -- a tuple no socket holds has no entry to inherit a PID from
    have hnone : (handleEvents processName evs).conns.lookup key = none := by
      cases hc : (handleEvents processName evs).conns.lookup key with
      | none => rfl
      | some c =>
        obtain ⟨sk, hsk⟩ := owned_handleEvents evs key c hc
        have hne : sk ≠ ev.skAddr := fun h => by rw [h, ho] at hsk; cases hsk
        exact absurd hsk (hfree sk hne)
    rw [pidFor, ho, Option.getD_none, hnone]
    rfl
  | some k =>
    obtain ⟨⟨c, hc⟩, honly⟩ := hC (by simp [hk]) ht k ho
    have hlive : ((handleEvents processName evs).skToKey.lookup ev.skAddr).isSome := by rw [ho]; rfl
    obtain ⟨e', hspan⟩ := Option.isSome_iff_exists.1 ((spanFirst_isSome_iff evs ev.skAddr).2 hlive)
    obtain rfl : e' = e := by simpa [hspan] using he
    rw [pidFor, ho, Option.getD_some, hc]
    exact h ev.skAddr e' k c hspan ho hc honly

theorem PidSticky.concat (h : PidSticky (handleEvents processName evs) evs)
    (hC : OwnEntry (handleEvents processName evs) ev) :
    PidSticky (handleEvents processName (evs ++ [ev])) (evs ++ [ev]) := by
  rw [handleEvents_concat]
  intro sk e k c he hsk hc honly
  by_cases hne : sk = ev.skAddr
  · subst hne
    cases hk : ev.key with
    | none =>
      rw [(handleEvent_undecodable hk).2] at hsk honly
      rw [(handleEvent_undecodable hk).1] at hc
      rw [spanFirst_concat] at he
      exact h ev.skAddr e k c (by simpa [hk] using he) hsk hc honly
    | some key =>
      cases ht : ev.terminal with
      | true =>
        rw [skToKey_terminal hk ht, if_pos rfl] at hsk
        cases hsk
      | false =>
        rw [skToKey_live hk ht, if_pos rfl] at hsk
        obtain rfl := Option.some.inj hsk
        rw [conns_live hk ht, if_pos rfl] at hc
        obtain rfl := Option.some.inj hc
        refine pidFor_eq h hC hk ht (fun sk hsk' hs => hsk' (honly sk ?_)) ?_
        · rw [skToKey_of_ne hsk']; exact hs
        · rw [spanFirst_concat] at he
          simpa [hk, ht] using he
  · rw [spanFirst_of_ne hne] at he
    have ha : Alone _ sk k := ⟨hsk, honly⟩
    rcases ha.before hne with hd | ha
    · rw [conns_dropped hd] at hc; cases hc
    · have hd : (handleEvents processName evs).dropped ev ≠ some k := fun hd => by
        rw [conns_dropped hd] at hc; cases hc
      rw [conns_of_ne hd fun h' => hne (honly _ h').symm] at hc
      exact h sk e k c he ha.1 hc ha.2

/-- In a run whose live events all find their socket's own entry, PIDs stick in every state. -/
theorem pidSticky_of_ownEntry (processName : Nat → Int32 → Option String) (evs : List EbpfEvent)
    (h : Meets (handleNext processName) OwnEntry {} evs) :
    ∀ pre, pre <+: evs → PidSticky (handleEvents processName pre) pre := by
  intro pre hpre
  exact (h.of_prefix hpre).history (P := fun pre => PidSticky (handleEvents processName pre) pre)
    (by intro sk e k c he; simp [spanFirst] at he) fun _ _ hP hC => hP.concat hC

/-- One socket, its port bound by its second event, which arrives under another task's PID. -/
def boundLate : List EbpfEvent := [ev4 1 100 0 2, ev4 1 7 40000 1]

theorem boundLate_pid : ∃ c, (handleEvents (fun _ _ => none) boundLate).conns.lookup (key4 40000) = some c ∧
    c.pid = 100 := by
  have hmeets : Meets (handleNext fun _ _ => none) OwnEntry {} boundLate := by
    refine meets_cons.2 ⟨fun _ _ k hk => by simp at hk, meets_cons.2 ⟨fun _ _ k hk => ?_, .nil⟩⟩
    obtain rfl : key4 0 = k := Option.some.inj hk
    refine ⟨⟨_, rfl⟩, fun sk hsk => ?_⟩
    have hsk' : (handleEvents (fun _ _ => none) [ev4 1 100 0 2]).skToKey.lookup sk = some (key4 0) := hsk
    obtain ⟨e, he, -, -⟩ := holds_iff.1 hsk'
    obtain ⟨hmem, rfl, -⟩ := mem_of_latest he
    rw [List.mem_singleton.1 hmem]; rfl
  refine ⟨_, rfl, ?_⟩
  have hsticky := pidSticky_of_ownEntry (fun _ _ => none) boundLate hmeets boundLate (List.prefix_refl _)
  refine hsticky 1 (ev4 1 100 0 2) (key4 40000) _ rfl rfl rfl fun sk hsk => ?_
  obtain ⟨e, he, -, -⟩ := holds_iff.1 hsk
  obtain ⟨hmem, rfl, -⟩ := mem_of_latest he
  simp only [boundLate, List.mem_cons, List.not_mem_nil, or_false] at hmem
  rcases hmem with rfl | rfl <;> rfl

/-- Two sockets on one tuple; the second moves off it. -/
def sharedThenLeft : List EbpfEvent := [ev4 1 100 0 2, ev4 2 200 0 2, ev4 2 200 40000 1]

/-- The second socket, alone on its new tuple, carries the first one's PID. -/
theorem sharedThenLeft_not_pidSticky :
    ¬ PidSticky (handleEvents (fun _ _ => none) sharedThenLeft) sharedThenLeft := by
  intro h
  have hpid := h 2 (ev4 2 200 0 2) (key4 40000) _ rfl rfl rfl fun sk hsk => by
    obtain ⟨e, he, -, hk⟩ := holds_iff.1 hsk
    obtain ⟨hmem, rfl, -⟩ := mem_of_latest he
    simp only [sharedThenLeft, List.mem_cons, List.not_mem_nil, or_false] at hmem
    rcases hmem with rfl | rfl | rfl
    · exact absurd hk (by decide)
    · rfl
    · rfl
  exact absurd hpid (by decide)

end EBPFSource
end Trafficmon
