import Trafficmon.Receiver.Logs

/-!
# Attempt counts over a run (`receiver/synattempts.go`, `buildLogBatch`)

Successive `buildLogBatch` calls on one cache. Times leave a history in two places: `record` drops what
is out of the window of the event it records, `prune` what is out of the window of the batch's own
clock. The first never touches what a later event counts; the second may, because a batch is flushed
some time after its events. `attemptCounts_iff` says exactly when the counts are those of the window.
-/

namespace Trafficmon

/-- The arguments of one `buildLogBatch` call. -/
structure Flush where
  synEvents : List SYNEvent
  dnsQueries : List QueryFinding
  now : Int
  pidByLocalAddr : GoMap String Int32

def buildLogBatches : SynAttemptCache → List Flush → List Logs
  | _, [] => []
  | c, b :: bs =>
    let (c, logs) := buildLogBatch b.synEvents b.dnsQueries b.now c b.pidByLocalAddr
    logs :: buildLogBatches c bs

def LogRecord.attemptCount (r : LogRecord) : Option AttrValue := r.attributes.lookup attrSYNAttemptCount

/-- The counts on a batch's SYN records; a DNS record carries none. -/
def Logs.attemptCounts (logs : Logs) : List AttrValue := logs.records.filterMap LogRecord.attemptCount

/-! ### The trailing window -/

/-- The same local and remote address and port. -/
def SYNEvent.SameTuple (e ev : SYNEvent) : Prop :=
  e.localAddr = ev.localAddr ∧ e.localPort = ev.localPort ∧ e.remoteAddr = ev.remoteAddr ∧ e.remotePort = ev.remotePort

instance SYNEvent.decidableSameTuple (e ev : SYNEvent) : Decidable (e.SameTuple ev) := inferInstanceAs (Decidable (_ ∧ _))

theorem synAttemptKeyFor_eq_iff {e ev : SYNEvent} : synAttemptKeyFor e = synAttemptKeyFor ev ↔ e.SameTuple ev := by
  simp only [synAttemptKeyFor, SynAttemptKey.mk.injEq, Addr.string_inj, SYNEvent.SameTuple]
  tauto

/-- The events of `ev`'s 4-tuple in the three minutes up to it. -/
def trailingCount (fed : List SYNEvent) (ev : SYNEvent) : Nat :=
  fed.countP fun e => e.SameTuple ev ∧ ev.atTime - synAttemptWindow < e.atTime ∧ e.atTime ≤ ev.atTime

/-- For every event in turn, the trailing count of what was fed so far, itself included. -/
def trailingCounts (fed : List SYNEvent) : List SYNEvent → List Nat
  | [] => []
  | ev :: evs => trailingCount (fed ++ [ev]) ev :: trailingCounts (fed ++ [ev]) evs

def eventsOf (bs : List Flush) : List SYNEvent := bs.flatMap Flush.synEvents

/-- Event times never decrease, and no batch is flushed before its events. -/
structure TimesInOrder (bs : List Flush) : Prop where
  events : (eventsOf bs).Pairwise fun e ev => e.atTime ≤ ev.atTime
  flushed : ∀ b ∈ bs, ∀ ev ∈ b.synEvents, ev.atTime ≤ b.now

/-- No batch is flushed three minutes or more after an earlier event that an event still to be recorded
has in its window. -/
def FlushedInWindow (bs : List Flush) : Prop :=
  ∀ pre b post, bs = pre ++ b :: post → ∀ e ∈ eventsOf pre, ∀ ev ∈ eventsOf (b :: post), e.SameTuple ev →
    ev.atTime - synAttemptWindow < e.atTime → b.now - synAttemptWindow < e.atTime

/-! ### The cache -/

def SynAttemptCache.history (c : SynAttemptCache) (key : SynAttemptKey) : List Int := (c.attempts.lookup key).getD []

theorem history_record (c : SynAttemptCache) (key key' : SynAttemptKey) (atTime : Int) :
    (c.record key atTime).1.history key' =
      if key' = key then pruneBefore (c.history key ++ [atTime]) (atTime - synAttemptWindow) else c.history key' := by
  simp only [SynAttemptCache.record, SynAttemptCache.history, GoMap.lookup_insert_eq]
  split <;> rfl

/-- A turn of `prune`'s loop. -/
def pruneEntry (cutoff : Int) (attempts : GoMap SynAttemptKey (List Int)) (e : Σ _ : SynAttemptKey, List Int) :
    GoMap SynAttemptKey (List Int) :=
  let hist := pruneBefore e.2 cutoff
  if hist.length = 0 then attempts.erase e.1 else attempts.insert e.1 hist

theorem getD_lookup_pruneEntry (cutoff : Int) (attempts : GoMap SynAttemptKey (List Int))
    (e : Σ _ : SynAttemptKey, List Int) (key : SynAttemptKey) :
    ((pruneEntry cutoff attempts e).lookup key).getD [] =
      if key = e.1 then pruneBefore e.2 cutoff else (attempts.lookup key).getD [] := by
  rw [pruneEntry]
  split_ifs with hlen hkey hkey
  · rw [GoMap.lookup_erase_eq, if_pos hkey, List.length_eq_zero_iff.1 hlen]
    rfl
  · rw [GoMap.lookup_erase_eq, if_neg hkey]
  · rw [GoMap.lookup_insert_eq, if_pos hkey]
    rfl
  · rw [GoMap.lookup_insert_eq, if_neg hkey]

theorem getD_lookup_pruneEntries (cutoff : Int) (key : SynAttemptKey) :
    ∀ (l : List (Σ _ : SynAttemptKey, List Int)) (attempts : GoMap SynAttemptKey (List Int)), l.NodupKeys →
      ((l.foldl (pruneEntry cutoff) attempts).lookup key).getD [] =
        ((l.dlookup key).map (pruneBefore · cutoff)).getD ((attempts.lookup key).getD [])
  | [], attempts, _ => rfl
  | e :: l, attempts, hnodup => by
    obtain ⟨hnot, hnodup⟩ := List.nodupKeys_cons.1 hnodup
    rw [List.foldl_cons, getD_lookup_pruneEntries cutoff key l _ hnodup, getD_lookup_pruneEntry]
    by_cases hkey : key = e.1
    · subst hkey
      rw [List.dlookup_eq_none.2 hnot, List.dlookup_cons_eq, if_pos rfl]
      rfl
    · rw [List.dlookup_cons_ne _ _ hkey, if_neg hkey]

theorem history_prune (c : SynAttemptCache) (now : Int) (key : SynAttemptKey) :
    (c.prune now).history key = pruneBefore (c.history key) (now - synAttemptWindow) := by
  have h := getD_lookup_pruneEntries (now - synAttemptWindow) key c.attempts.entries c.attempts c.attempts.nodupKeys
  change ((c.attempts.entries.foldl (pruneEntry (now - synAttemptWindow)) c.attempts).lookup key).getD [] = _
  rw [h, SynAttemptCache.history]
  change ((c.attempts.lookup key).map _).getD _ = _
  cases c.attempts.lookup key <;> rfl

theorem pruneBefore_append (l l' : List Int) (cutoff : Int) :
    pruneBefore (l ++ l') cutoff = pruneBefore l cutoff ++ pruneBefore l' cutoff :=
  List.filter_append ..

theorem pruneBefore_pruneBefore (l : List Int) {a b : Int} (h : a ≤ b) :
    pruneBefore (pruneBefore l a) b = pruneBefore l b := by
  simp only [pruneBefore, List.filter_filter]
  refine List.filter_congr fun t _ => ?_
  rw [Bool.eq_iff_iff]
  simp only [Bool.and_eq_true, decide_eq_true_eq, and_iff_left_iff_imp]
  omega

theorem pruneBefore_comm (l : List Int) (a b : Int) :
    pruneBefore (pruneBefore l a) b = pruneBefore (pruneBefore l b) a := by
  simp only [pruneBefore, List.filter_filter, Bool.and_comm]

theorem countP_eq_countP_iff {α : Type} {p q : α → Bool} {l : List α} (h : ∀ a ∈ l, p a → q a) :
    l.countP p = l.countP q ↔ ∀ a ∈ l, q a → p a := by
  induction l with
  | nil => simp
  | cons a l ih =>
    obtain ⟨ha, hl⟩ := List.forall_mem_cons.1 h
    have hle := List.countP_mono_left hl
    rw [List.forall_mem_cons, ← ih hl, List.countP_cons, List.countP_cons]
    by_cases hp : p a
    · simp [hp, ha hp]
    · by_cases hq : q a
      · simp only [hp, hq, if_true, if_false, Bool.false_eq_true]
        constructor
        · omega
        · exact fun hn => absurd (hn.1 trivial) not_false
      · simp [hp, hq]

/-! ### Marks

Every event fed so far, with the mark of those no `prune` has dropped. What `record` drops stays marked:
no later event has it in its window. -/

abbrev Marks := List (SYNEvent × Bool)

namespace Marks
variable {marks : Marks} {evs rest : List SYNEvent} {c : SynAttemptCache} {ev : SYNEvent}

def fed (marks : Marks) : List SYNEvent := marks.map Prod.fst

def heldTimes (marks : Marks) (ev : SYNEvent) : List Int :=
  (marks.filter fun m => m.2 ∧ m.1.SameTuple ev).map fun m => m.1.atTime

/-- In the window of an event still to come, the cache has the marked events. -/
def Holds (marks : Marks) (c : SynAttemptCache) (evs : List SYNEvent) : Prop :=
  ∀ ev ∈ evs, pruneBefore (c.history (synAttemptKeyFor ev)) (ev.atTime - synAttemptWindow) =
    pruneBefore (marks.heldTimes ev) (ev.atTime - synAttemptWindow)

/-- Nothing an event still to come has in its window was dropped. -/
def NoneLost (marks : Marks) (evs : List SYNEvent) : Prop :=
  ∀ m ∈ marks, ∀ ev ∈ evs, m.1.SameTuple ev → ev.atTime - synAttemptWindow < m.1.atTime → m.2 = true

def prune (marks : Marks) (now : Int) : Marks :=
  marks.map fun m => (m.1, m.2 && decide (now - synAttemptWindow < m.1.atTime))

theorem fed_prune (marks : Marks) (now : Int) : (marks.prune now).fed = marks.fed := by
  rw [fed, prune, List.map_map]
  rfl

theorem fed_append (marks marks' : Marks) : fed (marks ++ marks') = fed marks ++ fed marks' := List.map_append

theorem heldTimes_concat (marks : Marks) (e ev : SYNEvent) :
    heldTimes (marks ++ [(e, true)]) ev = marks.heldTimes ev ++ if e.SameTuple ev then [e.atTime] else [] := by
  rw [heldTimes, List.filter_append, List.map_append, heldTimes]
  congr 1
  by_cases h : e.SameTuple ev <;> simp [h]

theorem heldTimes_prune (marks : Marks) (now : Int) (ev : SYNEvent) :
    (marks.prune now).heldTimes ev = pruneBefore (marks.heldTimes ev) (now - synAttemptWindow) := by
  simp only [heldTimes, prune, pruneBefore, List.filter_map, List.map_map, List.filter_filter]
  refine congrArg _ (List.filter_congr fun m _ => ?_)
  rw [Bool.eq_iff_iff]
  simp only [Function.comp_apply, Bool.and_eq_true, decide_eq_true_eq]
  tauto

theorem Holds.prune (h : marks.Holds c evs) (now : Int) : (marks.prune now).Holds (c.prune now) evs := by
  intro ev hev
  rw [history_prune, heldTimes_prune, pruneBefore_comm, h ev hev, pruneBefore_comm]

theorem Holds.record (h : marks.Holds c (ev :: evs)) (hle : ∀ e ∈ evs, ev.atTime ≤ e.atTime) :
    Holds (marks ++ [(ev, true)]) (c.record (synAttemptKeyFor ev) ev.atTime).1 evs := by
  intro e he
  rw [history_record, heldTimes_concat]
  by_cases hkey : synAttemptKeyFor e = synAttemptKeyFor ev
  · have hsame := synAttemptKeyFor_eq_iff.1 hkey.symm
    have hcut : ev.atTime - synAttemptWindow ≤ e.atTime - synAttemptWindow := by
      have := hle e he
      omega
    rw [if_pos hkey, if_pos hsame, pruneBefore_pruneBefore _ hcut, pruneBefore_append, pruneBefore_append, ← hkey,
      h e (List.mem_cons_of_mem ev he)]
  · have hdiff : ¬ ev.SameTuple e := fun hs => hkey (synAttemptKeyFor_eq_iff.2 hs).symm
    rw [if_neg hkey, if_neg hdiff, List.append_nil]
    exact h e (List.mem_cons_of_mem ev he)

/-- The marked events of `ev`'s window. -/
def heldCount (marks : Marks) (ev : SYNEvent) : Nat :=
  marks.countP fun m => m.2 ∧ m.1.SameTuple ev ∧ ev.atTime - synAttemptWindow < m.1.atTime

theorem length_pruneBefore_heldTimes (marks : Marks) (ev : SYNEvent) :
    (pruneBefore (marks.heldTimes ev) (ev.atTime - synAttemptWindow)).length = marks.heldCount ev := by
  rw [pruneBefore, heldTimes, ← List.countP_eq_length_filter, List.countP_map, List.countP_filter, heldCount]
  refine List.countP_congr fun m _ => ?_
  simp only [Function.comp_apply, Bool.and_eq_true, decide_eq_true_eq]
  tauto

theorem Holds.record_count (h : marks.Holds c (ev :: evs)) :
    (c.record (synAttemptKeyFor ev) ev.atTime).2 = heldCount (marks ++ [(ev, true)]) ev := by
  have hsame : ev.SameTuple ev := ⟨rfl, rfl, rfl, rfl⟩
  rw [← length_pruneBefore_heldTimes, heldTimes_concat, if_pos hsame, pruneBefore_append, ← h ev List.mem_cons_self,
    ← pruneBefore_append]
  rfl

theorem heldCount_eq_iff (hle : ∀ e ∈ marks.fed, e.atTime ≤ ev.atTime) :
    marks.heldCount ev = trailingCount marks.fed ev ↔ marks.NoneLost [ev] := by
  have hsub : ∀ m ∈ marks, (m.2 ∧ m.1.SameTuple ev ∧ ev.atTime - synAttemptWindow < m.1.atTime) →
      m.1.SameTuple ev ∧ ev.atTime - synAttemptWindow < m.1.atTime ∧ m.1.atTime ≤ ev.atTime :=
    fun m hm h => ⟨h.2.1, h.2.2, hle m.1 (List.mem_map_of_mem hm)⟩
  rw [heldCount, trailingCount, fed, List.countP_map,
    countP_eq_countP_iff fun m hm hp => by simpa using hsub m hm (by simpa using hp)]
  simp only [NoneLost, List.mem_singleton, forall_eq, Function.comp_apply, decide_eq_true_eq]
  constructor
  · intro h m hm hs hw
    exact (h m hm ⟨hs, hw, hle m.1 (List.mem_map_of_mem hm)⟩).1
  · intro h m hm hp
    exact ⟨h m hm hp.1 hp.2.1, hp.1, hp.2.1⟩

theorem noneLost_concat : NoneLost (marks ++ [(ev, true)]) evs ↔ NoneLost marks evs := by
  simp only [NoneLost, List.forall_mem_append, List.forall_mem_singleton]
  exact and_iff_left fun _ _ _ _ => trivial

theorem noneLost_append : NoneLost (marks ++ evs.map (·, true)) rest ↔ NoneLost marks rest := by
  induction evs generalizing marks with
  | nil => rw [List.map_nil, List.append_nil]
  | cons e evs ih => rw [List.map_cons, List.append_cons, ih, noneLost_concat]

theorem noneLost_events_append : marks.NoneLost (evs ++ rest) ↔ marks.NoneLost evs ∧ marks.NoneLost rest := by
  simp only [NoneLost, List.forall_mem_append]
  exact ⟨fun h => ⟨fun m hm => (h m hm).1, fun m hm => (h m hm).2⟩, fun h m hm => ⟨h.1 m hm, h.2 m hm⟩⟩

theorem noneLost_prune {now : Int} : (marks.prune now).NoneLost evs ↔ marks.NoneLost evs ∧
    ∀ e ∈ marks.fed, ∀ ev ∈ evs, e.SameTuple ev → ev.atTime - synAttemptWindow < e.atTime →
      now - synAttemptWindow < e.atTime := by
  simp only [NoneLost, Marks.prune, fed, List.forall_mem_map, Bool.and_eq_true, decide_eq_true_eq]
  constructor
  · intro h
    exact ⟨fun m hm ev hev hs hw => (h m hm ev hev hs hw).1, fun m hm ev hev hs hw => (h m hm ev hev hs hw).2⟩
  · intro h m hm ev hev hs hw
    exact ⟨h.1 m hm ev hev hs hw, h.2 m hm ev hev hs hw⟩

end Marks

/-! ### One batch -/

/-- `record` for every event in turn, with the counts it returned. -/
def recordAll : SynAttemptCache → List SYNEvent → SynAttemptCache × List Nat
  | c, [] => (c, [])
  | c, ev :: evs =>
    let (c, count) := c.record (synAttemptKeyFor ev) ev.atTime
    let (c, counts) := recordAll c evs
    (c, count :: counts)

theorem length_recordAll (c : SynAttemptCache) (evs : List SYNEvent) : (recordAll c evs).2.length = evs.length := by
  induction evs generalizing c with
  | nil => rfl
  | cons ev evs ih => simp [recordAll, ih]

theorem foldl_countSYN (now : Int) (c : SynAttemptCache) (records : List LogRecord) (evs : List SYNEvent) :
    evs.foldl (countSYN now) (c, records) = ((recordAll c evs).1,
      records ++ List.zipWith (fun ev n => synLogRecord now ev (synAttemptKeyFor ev) n) evs (recordAll c evs).2) := by
  induction evs generalizing c records with
  | nil => simp [recordAll]
  | cons ev evs ih =>
    rw [List.foldl_cons]
    simp [countSYN, addSYNLogRecord, ih, recordAll]

theorem attemptCount_dnsQueryLogRecord (now : Int) (pids : GoMap String Int32) (q : QueryFinding) :
    (dnsQueryLogRecord now pids q).attemptCount = none := by
  simp only [LogRecord.attemptCount, dnsQueryLogRecord, List.lookup_append]
  split
  · split <;> rfl
  · rfl

theorem attemptCount_synLogRecord (now : Int) (ev : SYNEvent) (key : SynAttemptKey) (n : Nat) :
    (synLogRecord now ev key n).attemptCount = some (.int n) := rfl

theorem buildLogBatch_counts (b : Flush) (c : SynAttemptCache) :
    (buildLogBatch b.synEvents b.dnsQueries b.now c b.pidByLocalAddr).1 = (recordAll (c.prune b.now) b.synEvents).1 ∧
      (buildLogBatch b.synEvents b.dnsQueries b.now c b.pidByLocalAddr).2.attemptCounts =
        (recordAll (c.prune b.now) b.synEvents).2.map fun n : Nat => .int n := by
  have hdns : ∀ (qs : List QueryFinding) (records : List LogRecord),
      (qs.foldl (fun records q => addDNSQueryLogRecord records q b.now b.pidByLocalAddr) records).filterMap
        LogRecord.attemptCount = records.filterMap LogRecord.attemptCount := by
    intro qs
    induction qs with
    | nil => exact fun _ => rfl
    | cons q qs ih =>
      intro records
      rw [List.foldl_cons, ih, addDNSQueryLogRecord, List.filterMap_append]
      simp [attemptCount_dnsQueryLogRecord]
  have hsyn : ∀ (evs : List SYNEvent) (counts : List Nat), counts.length = evs.length →
      (List.zipWith (fun ev n => synLogRecord b.now ev (synAttemptKeyFor ev) n) evs counts).filterMap
        LogRecord.attemptCount = counts.map fun n : Nat => .int n := by
    intro evs
    induction evs with
    | nil =>
      intro counts hlen
      rw [List.length_eq_zero_iff.1 hlen]
      rfl
    | cons ev evs ih =>
      intro counts hlen
      cases counts with
      | nil => cases hlen
      | cons n counts => simp [attemptCount_synLogRecord, ih counts (Nat.succ_injective hlen)]
  simp only [buildLogBatch, foldl_countSYN, Logs.attemptCounts, true_and]
  rw [List.filterMap_append, hdns, hsyn _ _ (length_recordAll ..)]
  rfl

open Marks in
/-- The counts of a batch are the trailing ones just when no event in a window was dropped before. -/
theorem recordAll_spec {marks : Marks} {c : SynAttemptCache} {evs rest : List SYNEvent}
    (h : marks.Holds c (evs ++ rest)) (hord : (marks.fed ++ (evs ++ rest)).Pairwise fun e ev => e.atTime ≤ ev.atTime) :
    Holds (marks ++ evs.map (·, true)) (recordAll c evs).1 rest ∧
      ((recordAll c evs).2 = trailingCounts marks.fed evs ↔ marks.NoneLost evs) := by
  induction evs generalizing c marks with
  | nil =>
    refine ⟨by simpa [recordAll] using h, ?_⟩
    simp [recordAll, trailingCounts, Marks.NoneLost]
  | cons ev evs ih =>
    have hfed : fed (marks ++ [(ev, true)]) = marks.fed ++ [ev] := fed_append ..
    have hord' : (fed (marks ++ [(ev, true)]) ++ (evs ++ rest)).Pairwise fun e ev => e.atTime ≤ ev.atTime := by
      rwa [hfed, List.append_assoc]
    have hlater : ∀ e ∈ evs ++ rest, ev.atTime ≤ e.atTime :=
      (List.pairwise_cons.1 (List.pairwise_append.1 hord).2.1).1
    have hearlier : ∀ e ∈ fed (marks ++ [(ev, true)]), e.atTime ≤ ev.atTime := by
      rw [hfed]
      intro e he
      rcases List.mem_append.1 he with he | he
      · exact (List.pairwise_append.1 hord).2.2 e he ev List.mem_cons_self
      · rw [List.mem_singleton.1 he]
    obtain ⟨hholds, hcounts⟩ := ih (h.record hlater) hord'
    have hcount : (c.record (synAttemptKeyFor ev) ev.atTime).2 = trailingCount (marks.fed ++ [ev]) ev ↔
        marks.NoneLost [ev] := by
      rw [h.record_count, ← hfed, heldCount_eq_iff hearlier, noneLost_concat]
    refine ⟨by rwa [List.map_cons, List.append_cons], ?_⟩
    rw [hfed, noneLost_concat] at hcounts
    simp only [recordAll, trailingCounts, List.cons.injEq, hcount, hcounts]
    rw [← noneLost_events_append]
    rfl

/-! ### Runs -/

theorem trailingCounts_append (fed evs rest : List SYNEvent) :
    trailingCounts fed (evs ++ rest) = trailingCounts fed evs ++ trailingCounts (fed ++ evs) rest := by
  induction evs generalizing fed with
  | nil => simp [trailingCounts]
  | cons ev evs ih => simp [trailingCounts, ih]

theorem length_trailingCounts (fed evs : List SYNEvent) : (trailingCounts fed evs).length = evs.length := by
  induction evs generalizing fed with
  | nil => rfl
  | cons ev evs ih => simp [trailingCounts, ih]

/-- `FlushedInWindow` for a run that goes on after the events `fed`. -/
def FlushedAfter (fed : List SYNEvent) (bs : List Flush) : Prop :=
  ∀ pre b post, bs = pre ++ b :: post → ∀ e ∈ fed ++ eventsOf pre, ∀ ev ∈ eventsOf (b :: post), e.SameTuple ev →
    ev.atTime - synAttemptWindow < e.atTime → b.now - synAttemptWindow < e.atTime

theorem flushedAfter_cons {fed : List SYNEvent} {b : Flush} {bs : List Flush} :
    FlushedAfter fed (b :: bs) ↔ (∀ e ∈ fed, ∀ ev ∈ eventsOf (b :: bs), e.SameTuple ev →
      ev.atTime - synAttemptWindow < e.atTime → b.now - synAttemptWindow < e.atTime) ∧
        FlushedAfter (fed ++ b.synEvents) bs := by
  constructor
  · intro h
    refine ⟨fun e he => h [] b bs rfl e (List.mem_append_left _ he), ?_⟩
    rintro pre b' post rfl e he
    refine h (b :: pre) b' post rfl e ?_
    rwa [List.append_assoc] at he
  · rintro ⟨hhead, htail⟩ pre b' post hbs e he
    cases pre with
    | nil =>
      obtain ⟨rfl, rfl⟩ := List.cons.inj hbs
      exact hhead e (by simpa [eventsOf] using he)
    | cons b₀ pre =>
      obtain ⟨rfl, rfl⟩ := List.cons.inj hbs
      refine htail pre b' post rfl e ?_
      rwa [List.append_assoc]

theorem buildLogBatches_cons (c : SynAttemptCache) (b : Flush) (bs : List Flush) :
    buildLogBatches c (b :: bs) = (buildLogBatch b.synEvents b.dnsQueries b.now c b.pidByLocalAddr).2 ::
      buildLogBatches (buildLogBatch b.synEvents b.dnsQueries b.now c b.pidByLocalAddr).1 bs := rfl

theorem counts_run_iff {bs : List Flush} {marks : Marks} {c : SynAttemptCache} (h : marks.Holds c (eventsOf bs))
    (hord : (marks.fed ++ eventsOf bs).Pairwise fun e ev => e.atTime ≤ ev.atTime) :
    (buildLogBatches c bs).flatMap Logs.attemptCounts =
        (trailingCounts marks.fed (eventsOf bs)).map (fun n : Nat => .int n) ↔
      marks.NoneLost (eventsOf bs) ∧ FlushedAfter marks.fed bs := by
  induction bs generalizing c marks with
  | nil => simp [buildLogBatches, eventsOf, trailingCounts, Marks.NoneLost, FlushedAfter]
  | cons b bs ih =>
    have hev : eventsOf (b :: bs) = b.synEvents ++ eventsOf bs := List.flatMap_cons
    rw [hev] at h hord
    obtain ⟨hcache, hlogs⟩ := buildLogBatch_counts b c
    have hfed : Marks.fed (marks.prune b.now ++ b.synEvents.map (·, true)) = marks.fed ++ b.synEvents := by
      rw [Marks.fed_append, Marks.fed_prune, Marks.fed, Marks.fed, List.map_map]
      simp [Function.comp_def]
    obtain ⟨hholds, hbatch⟩ := recordAll_spec (h.prune b.now) (by rwa [Marks.fed_prune])
    have hrest := ih (c := (recordAll (c.prune b.now) b.synEvents).1) hholds
      (by rwa [hfed, List.append_assoc])
    rw [hfed, Marks.noneLost_append] at hrest
    rw [Marks.fed_prune] at hbatch
    have hinj : Function.Injective (fun n : Nat => AttrValue.int n) := fun m n hmn => by
      simpa using hmn
    have hlen : ((recordAll (c.prune b.now) b.synEvents).2.map fun n : Nat => AttrValue.int n).length =
        ((trailingCounts marks.fed b.synEvents).map fun n : Nat => AttrValue.int n).length := by
      rw [List.length_map, List.length_map, length_recordAll, length_trailingCounts]
    have hsplit : ∀ l l' : List AttrValue,
        (recordAll (c.prune b.now) b.synEvents).2.map (fun n : Nat => AttrValue.int n) ++ l =
        (trailingCounts marks.fed b.synEvents).map (fun n : Nat => AttrValue.int n) ++ l' ↔
          (recordAll (c.prune b.now) b.synEvents).2 = trailingCounts marks.fed b.synEvents ∧ l = l' := fun l l' => by
      rw [← hinj.list_map.eq_iff]
      exact ⟨fun heq => List.append_inj heq hlen, fun heq => by rw [heq.1, heq.2]⟩
    rw [hev, trailingCounts_append, List.map_append, buildLogBatches_cons, hcache, List.flatMap_cons, hlogs, hsplit,
      hbatch, hrest, ← and_assoc, ← Marks.noneLost_events_append, Marks.noneLost_prune, flushedAfter_cons, hev,
      and_assoc]

/-- Over every run whose times are in order, the counts on the records are those of the trailing windows just when no
batch is flushed too late for the window of an event it or a later batch records. -/
theorem attemptCounts_iff {bs : List Flush} (h : TimesInOrder bs) :
    (buildLogBatches {} bs).flatMap Logs.attemptCounts =
        (trailingCounts [] (eventsOf bs)).map (fun n : Nat => .int n) ↔ FlushedInWindow bs := by
  have hholds : Marks.Holds [] {} (eventsOf bs) := fun _ _ => rfl
  have hnone : Marks.NoneLost [] (eventsOf bs) := fun _ hm => absurd hm List.not_mem_nil
  have hrun := counts_run_iff hholds h.events
  rw [Marks.fed, List.map_nil] at hrun
  rw [hrun]
  exact and_iff_right hnone

/-- A SYN from 10.0.0.1:4000 to 10.0.0.2:443, `t` seconds in. -/
def synAt (t : Int) : SYNEvent where
  iface := "en0"
  localAddr := .ipv4 10 0 0 1
  localPort := 4000
  remoteAddr := .ipv4 10 0 0 2
  remotePort := 443
  atTime := t * GoTime.second

/-- One SYN at the start, flushed at once, and one at 100 s, flushed after `now` seconds. -/
def twoFlushes (now : Int) : List Flush :=
  [⟨[synAt 0], [], 0, ∅⟩, ⟨[synAt 100], [], now * GoTime.second, ∅⟩]

theorem timesInOrder_twoFlushes {now : Int} (h : 100 ≤ now) : TimesInOrder (twoFlushes now) where
  events := by simp [twoFlushes, eventsOf, synAt, GoTime.second]
  flushed := by
    simp only [twoFlushes, synAt, GoTime.second, List.mem_cons, List.not_mem_nil, or_false]
    rintro b (rfl | rfl) ev hev
    · rw [List.mem_singleton.1 hev]
      decide
    · rw [List.mem_singleton.1 hev]
      change 100 * 1000000000 ≤ now * 1000000000
      omega

theorem attemptCounts_twoFlushes : TimesInOrder (twoFlushes 101) ∧
    (buildLogBatches {} (twoFlushes 101)).flatMap Logs.attemptCounts = [.int 1, .int 2] ∧
    FlushedInWindow (twoFlushes 101) := by
  have h : TimesInOrder (twoFlushes 101) := timesInOrder_twoFlushes (by decide)
  exact ⟨h, by decide, (attemptCounts_iff h).1 (by decide)⟩

/-- Flushed at 200 s, the second batch drops the SYN at the start, which the SYN at 100 s has in its window. -/
theorem attemptCounts_late_flush : TimesInOrder (twoFlushes 200) ∧
    (buildLogBatches {} (twoFlushes 200)).flatMap Logs.attemptCounts = [.int 1, .int 1] ∧
    trailingCounts [] (eventsOf (twoFlushes 200)) = [1, 2] :=
  ⟨timesInOrder_twoFlushes (by decide), by decide, by decide⟩

end Trafficmon
