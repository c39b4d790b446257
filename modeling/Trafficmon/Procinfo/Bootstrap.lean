import Trafficmon.Procinfo.EbpfInv
import Trafficmon.Procinfo.Poller

/-!
# The table from start-up on (`NewEBPFSource`, `EBPFSource.bootstrap`, `handleEvent`)

`NewEBPFSource` fills the table from `/proc` and `Run` then applies events to it. A socket read from
`/proc` is in `conns` but not in `skToKey`, so the table is no longer owned in the sense of
`EbpfInv`. What the snapshot adds to a run is said here exactly: an entry no event has taken over is
there as it was read, and every other one is what the events alone would have left, up to its owner
(`booted_conns`). The owner is the snapshot's as long as the socket has the tuple to itself, whatever
PIDs its events carry (`booted_pid`).
-/

namespace Trafficmon
namespace EBPFSource
open Run

/-- The source after `bootstrap` and `evs`. -/
def booted (processName : Nat → Int32 → Option String) (v : Procfs) (evs : List EbpfEvent) : EBPFSource :=
  evs.foldl (handleNext processName) (bootstrap v {})

/-- The tuple `sk` has by its latest event. -/
def held (evs : List EbpfEvent) (sk : UInt64) : Option EbpfConnKey :=
  (latest evs sk).bind fun e => if e.terminal then none else e.key

/-- After `evs`, `ev` takes over the entry under `k`: it reports `k` as live, its socket has `k` (and
leaves it, or reports it again), or it closes `k` for a socket that has no tuple. -/
def Takes (evs : List EbpfEvent) (ev : EbpfEvent) (k : EbpfConnKey) : Prop :=
  ∃ key, ev.key = some key ∧
    (held evs ev.skAddr = some k ∨ key = k ∧ (ev.terminal = false ∨ held evs ev.skAddr = none))

def Taken (evs : List EbpfEvent) (k : EbpfConnKey) : Prop :=
  ∃ pre ev, pre ++ [ev] <+: evs ∧ Takes pre ev k

/-- A connection but for the process it belongs to. -/
def ownerless (c : Connection) : Connection := { c with pid := 0, processName := "" }

variable {processName : Nat → Int32 → Option String} {pn pn' : Int32 → Option String} {v : Procfs} {s s' : EBPFSource}
  {ev : EbpfEvent} {evs : List EbpfEvent} {sk : UInt64} {k : EbpfConnKey}

theorem taken_concat (evs : List EbpfEvent) (ev : EbpfEvent) (k : EbpfConnKey) :
    Taken (evs ++ [ev]) k ↔ Taken evs k ∨ Takes evs ev k := by
  constructor
  · rintro ⟨pre, e, hp, ht⟩
    rcases List.prefix_concat_iff.1 hp with heq | hp
    · obtain ⟨rfl, he⟩ := List.append_inj' heq rfl
      obtain rfl : e = ev := by simpa using he
      exact .inr ht
    · exact .inl ⟨pre, e, hp, ht⟩
  · rintro (⟨pre, e, hp, ht⟩ | ht)
    · exact ⟨pre, e, hp.trans (List.prefix_append _ _), ht⟩
    · exact ⟨evs, ev, List.prefix_refl _, ht⟩

theorem booted_concat (evs : List EbpfEvent) (ev : EbpfEvent) :
    booted processName v (evs ++ [ev]) =
      (booted processName v evs).handleEvent (processName (booted processName v evs).eventCount) ev := by
  simp [booted, handleNext]

/-! ### Sockets -/

theorem bootstrapPID_skToKey (s : EBPFSource) (pid : Int32) : (s.bootstrapPID v pid).skToKey = s.skToKey := by
  unfold bootstrapPID
  split
  · rfl
  · split
    · rfl
    · dsimp only
      rw [bootstrapSockets_eq]
      exact (processNameLocked_frame s pid).2

theorem bootstrap_skToKey (v : Procfs) : (bootstrap v {}).skToKey = ∅ := by
  unfold bootstrap
  split
  · rfl
  · rename_i pids hpids
    clear hpids
    induction pids using List.reverseRecOn with
    | nil => rfl
    | append_singleton pids pid ih =>
      rw [List.foldl_append, List.foldl_cons, List.foldl_nil, bootstrapPID_skToKey, ih]

/-- Events alone decide which tuple a socket has. -/
theorem skToKey_handleEvent (hs : ∀ sk, s.skToKey.lookup sk = held evs sk) (sk : UInt64) :
    (s.handleEvent pn ev).skToKey.lookup sk = held (evs ++ [ev]) sk := by
  rw [held, latest_concat]
  cases hk : ev.key with
  | none =>
    rw [(handleEvent_undecodable hk).2, hs]
    simp [held]
  | some key =>
    cases ht : ev.terminal with
    | true =>
      rw [skToKey_terminal hk ht, hs]
      by_cases h : sk = ev.skAddr
      · simp [h, ht]
      · simp [h, Ne.symm h, held]
    | false =>
      rw [skToKey_live hk ht, hs]
      by_cases h : sk = ev.skAddr
      · simp [h, ht, hk]
      · simp [h, Ne.symm h, held]

theorem booted_skToKey (evs : List EbpfEvent) (sk : UInt64) :
    (booted processName v evs).skToKey.lookup sk = held evs sk := by
  induction evs using List.reverseRecOn generalizing sk with
  | nil =>
    rw [booted, List.foldl_nil, bootstrap_skToKey]
    rfl
  | append_singleton evs ev ih =>
    rw [booted_concat]
    exact skToKey_handleEvent ih sk

/-! ### Entries -/

/-- An entry that is not taken over stays as it is. -/
theorem conns_of_not_takes (hs : ∀ sk, s.skToKey.lookup sk = held evs sk) (h : ¬ Takes evs ev k) :
    (s.handleEvent pn ev).conns.lookup k = s.conns.lookup k := by
  cases hk : ev.key with
  | none => rw [(handleEvent_undecodable hk).1]
  | some key =>
    have hheld : held evs ev.skAddr ≠ some k := fun hh => h ⟨key, hk, .inl hh⟩
    cases ht : ev.terminal with
    | true =>
      have hown : held evs ev.skAddr = none → key ≠ k := fun hn hkey => h ⟨key, hk, .inr ⟨hkey, .inr hn⟩⟩
      rw [conns_terminal hk ht, if_neg]
      simp only [dropped, hk, ht, if_true, hs]
      cases hh : held evs ev.skAddr with
      | none => simpa using (hown hh).symm
      | some k' =>
        rw [hh] at hheld
        simpa using fun he => hheld (by rw [he])
    | false =>
      have hne : k ≠ key := fun hkey => h ⟨key, hk, .inr ⟨hkey.symm, .inl ht⟩⟩
      rw [conns_live hk ht, if_neg hne, if_neg]
      intro hd
      simp only [dropped, hk, ht, Bool.false_eq_true, if_false, hs] at hd
      exact hheld (Option.filter_eq_some_iff.1 hd.symm).1

/-- An entry that is taken over is the event's, whatever was there. -/
theorem conns_of_takes (hs : ∀ sk, s.skToKey.lookup sk = held evs sk) (hs' : ∀ sk, s'.skToKey.lookup sk = held evs sk)
    (h : Takes evs ev k) :
    ((s.handleEvent pn ev).conns.lookup k).map ownerless = ((s'.handleEvent pn' ev).conns.lookup k).map ownerless := by
  obtain ⟨key, hk, h⟩ := h
  have hdropped : s.dropped ev = s'.dropped ev := by simp only [dropped, hs, hs']
  cases ht : ev.terminal with
  | true =>
    have hd : some k = s.dropped ev := by
      simp only [dropped, hk, ht, if_true, hs]
      rcases h with hh | ⟨rfl, hlive | hn⟩
      · rw [hh, Option.getD_some]
      · rw [ht] at hlive
        cases hlive
      · rw [hn, Option.getD_none]
    rw [conns_terminal hk ht, conns_terminal hk ht, if_pos hd, if_pos (hd.trans hdropped)]
  | false =>
    rw [conns_live hk ht, conns_live hk ht]
    by_cases hkey : k = key
    · rw [if_pos hkey, if_pos hkey]
      rfl
    · have hd : some k = s.dropped ev := by
        rcases h with hh | ⟨rfl, -⟩
        · simp [dropped, hk, ht, hs, hh, Option.filter_some, hkey]
        · exact absurd rfl hkey
      rw [if_neg hkey, if_neg hkey, if_pos hd, if_pos (hd.trans hdropped)]

theorem handleEvents_skToKey (evs : List EbpfEvent) (sk : UInt64) :
    (handleEvents processName evs).skToKey.lookup sk = held evs sk := skToKey_eq evs sk

theorem booted_of_not_taken (h : ¬ Taken evs k) :
    (booted processName v evs).conns.lookup k = (bootstrap v {}).conns.lookup k ∧
      (handleEvents processName evs).conns.lookup k = none := by
  induction evs using List.reverseRecOn with
  | nil => exact ⟨rfl, rfl⟩
  | append_singleton evs ev ih =>
    rw [taken_concat, not_or] at h
    rw [booted_concat, handleEvents_concat, conns_of_not_takes (booted_skToKey evs) h.2,
      conns_of_not_takes (handleEvents_skToKey evs) h.2]
    exact ih h.1

theorem booted_of_taken (h : Taken evs k) :
    ((booted processName v evs).conns.lookup k).map ownerless =
      ((handleEvents processName evs).conns.lookup k).map ownerless := by
  induction evs using List.reverseRecOn with
  | nil =>
    obtain ⟨pre, ev, hp, -⟩ := h
    simp at hp
  | append_singleton evs ev ih =>
    rw [booted_concat, handleEvents_concat]
    by_cases hstep : Takes evs ev k
    · exact conns_of_takes (booted_skToKey evs) (handleEvents_skToKey evs) hstep
    · rw [conns_of_not_takes (booted_skToKey evs) hstep, conns_of_not_takes (handleEvents_skToKey evs) hstep]
      exact ih (((taken_concat evs ev k).1 h).resolve_right hstep)

/-- What the snapshot adds to any run of events: an entry no event has taken over is the snapshot's,
and without it there would be none; any other is the one the events alone leave, but for its owner. Which
sockets are tracked, and under which tuples, does not depend on the snapshot. -/
theorem booted_conns (processName : Nat → Int32 → Option String) (v : Procfs) (evs : List EbpfEvent) :
    (∀ sk, (booted processName v evs).skToKey.lookup sk = (handleEvents processName evs).skToKey.lookup sk) ∧
    ∀ k, (¬ Taken evs k → (booted processName v evs).conns.lookup k = (bootstrap v {}).conns.lookup k ∧
        (handleEvents processName evs).conns.lookup k = none) ∧
      (Taken evs k → ((booted processName v evs).conns.lookup k).map ownerless =
        ((handleEvents processName evs).conns.lookup k).map ownerless) :=
  ⟨fun sk => (booted_skToKey evs sk).trans (handleEvents_skToKey evs sk).symm,
    fun _ => ⟨booted_of_not_taken, booted_of_taken⟩⟩

/-! ### Owners -/

/-- While `sk` has a tuple to itself, the entry there is `pid`'s. -/
def Keeps (s : EBPFSource) (sk : UInt64) (pid : Int32) : Prop :=
  ∀ k c, s.Alone sk k → s.conns.lookup k = some c → c.pid = pid

/-- `OwnEntry`, of the events of one socket. -/
def OwnEntryOf (sk : UInt64) (s : EBPFSource) (ev : EbpfEvent) : Prop := ev.skAddr = sk → OwnEntry s ev

/-- `sk` is tracked, and does not close. -/
def StaysOpen (sk : UInt64) (ev : EbpfEvent) : Prop := ev.skAddr = sk → ev.key.isSome → ev.terminal = false

theorem skToKey_isSome (hsk : (s.skToKey.lookup sk).isSome) (hopen : StaysOpen sk ev) :
    ((s.handleEvent pn ev).skToKey.lookup sk).isSome := by
  by_cases hne : sk = ev.skAddr
  · subst hne
    cases hk : ev.key with
    | none => rwa [(handleEvent_undecodable hk).2]
    | some key =>
      rw [skToKey_live hk (hopen rfl (by rw [hk]; rfl)), if_pos rfl]
      rfl
  · rwa [skToKey_of_ne hne]

theorem Keeps.handleEvent {pid : Int32} (h : s.Keeps sk pid) (hsk : (s.skToKey.lookup sk).isSome)
    (hopen : StaysOpen sk ev) (hown : OwnEntryOf sk s ev) : (s.handleEvent pn ev).Keeps sk pid := by
  intro k c halone hc
  by_cases hne : sk = ev.skAddr
  · subst hne
    cases hk : ev.key with
    | none =>
      rw [(handleEvent_undecodable hk).1] at hc
      obtain ⟨hsk', honly⟩ := halone
      rw [(handleEvent_undecodable hk).2] at hsk' honly
      exact h k c ⟨hsk', honly⟩ hc
    | some key =>
      have hlive : ev.terminal = false := hopen rfl (by rw [hk]; rfl)
      -- the entry it had is its own, and gives the new one its PID
      obtain ⟨k₀, hk₀⟩ := Option.isSome_iff_exists.1 hsk
      obtain ⟨⟨c₀, hc₀⟩, honly⟩ := hown rfl (by rw [hk]; rfl) hlive k₀ hk₀
      have hpid : c₀.pid = pid := h k₀ c₀ ⟨hk₀, honly⟩ hc₀
      have hkey : key = k := by
        have := halone.1
        rw [skToKey_live hk hlive, if_pos rfl] at this
        exact Option.some.inj this
      rw [conns_live hk hlive, if_pos hkey.symm] at hc
      obtain rfl := Option.some.inj hc
      rw [connFor, pidFor, hk₀, Option.getD_some, hc₀]
      exact hpid
  · rcases halone.before hne with hd | halone₀
    · rw [conns_dropped hd] at hc
      cases hc
    · have hd : s.dropped ev ≠ some k := fun hd => by
        rw [conns_dropped hd] at hc
        cases hc
      rw [conns_of_ne hd fun h' => hne (halone.2 _ h').symm] at hc
      exact h k c halone₀ hc

theorem Keeps.run {pid : Int32} (h : s.Keeps sk pid) (hsk : (s.skToKey.lookup sk).isSome)
    (hopen : ∀ ev ∈ evs, StaysOpen sk ev) (hown : Meets (handleNext processName) (OwnEntryOf sk) s evs) :
    (evs.foldl (handleNext processName) s).Keeps sk pid := by
  induction evs generalizing s with
  | nil => exact h
  | cons ev evs ih =>
    obtain ⟨hown, hrest⟩ := meets_cons.1 hown
    have hev : StaysOpen sk ev := hopen ev List.mem_cons_self
    exact ih (h.handleEvent hsk hev hown) (skToKey_isSome hsk hev) (fun e he => hopen e (List.mem_cons_of_mem _ he)) hrest

/-- A socket in the snapshot whose first event reports the tuple it was read under keeps the owner
read from `/proc`, under whatever tuples and PIDs its later events come, until it closes. -/
theorem booted_pid (processName : Nat → Int32 → Option String) (v : Procfs) (pre post : List EbpfEvent) (ev : EbpfEvent)
    (k₀ : EbpfConnKey) (c₀ : Connection) (hboot : (bootstrap v {}).conns.lookup k₀ = some c₀) (hfree : ¬ Taken pre k₀)
    (hkey : ev.key = some k₀) (hlive : ev.terminal = false) (hnew : held pre ev.skAddr = none)
    (hopen : ∀ e ∈ post, StaysOpen ev.skAddr e)
    (hown : Meets (handleNext processName) (OwnEntryOf ev.skAddr) (booted processName v (pre ++ [ev])) post) :
    ∀ k c, (booted processName v (pre ++ ev :: post)).Alone ev.skAddr k →
      (booted processName v (pre ++ ev :: post)).conns.lookup k = some c → c.pid = c₀.pid := by
  have hentry : (booted processName v pre).conns.lookup k₀ = some c₀ := by
    rw [(booted_of_not_taken hfree).1, hboot]
  have hfirst : (booted processName v (pre ++ [ev])).Keeps ev.skAddr c₀.pid := by
    intro k c halone hc
    rw [booted_concat] at halone hc
    have hk : k₀ = k := by
      have := halone.1
      rw [skToKey_live hkey hlive, if_pos rfl] at this
      exact Option.some.inj this
    rw [conns_live hkey hlive, if_pos hk.symm] at hc
    obtain rfl := Option.some.inj hc
    rw [connFor, pidFor, booted_skToKey, hnew, Option.getD_none, hentry]
    rfl
  have hsk : ((booted processName v (pre ++ [ev])).skToKey.lookup ev.skAddr).isSome := by
    rw [booted_concat, skToKey_live hkey hlive, if_pos rfl]
    rfl
  have hrun : booted processName v (pre ++ ev :: post) =
      post.foldl (handleNext processName) (booted processName v (pre ++ [ev])) := by
    simp [booted]
  rw [hrun]
  exact hfirst.run hsk hopen hown

/-- One process with one open connection. -/
def openAtBoot : Procfs where
  listPIDs := .ok [100]
  socketsForPID _ := some [⟨100, 40000, 443, .ipv4 10 0 0 1, .ipv4 1 1 1 1, .tcp, "ESTABLISHED"⟩]
  processName _ := some "server"

/-- Both its events come while other tasks run. -/
theorem booted_pid_softirq : ∃ c, (booted (fun _ _ => none) openAtBoot [ev4 1 7 40000 1, ev4 1 9 40000 1]).conns.lookup
    (key4 40000) = some c ∧ c.pid = 100 := by
  have halone : ∀ evs : List EbpfEvent, (∀ e ∈ evs, e.skAddr = 1) → ∀ sk k,
      (booted (fun _ _ => none) openAtBoot evs).skToKey.lookup sk = some k → sk = 1 := by
    intro evs hevs sk k hsk
    rw [booted_skToKey, held, Option.bind_eq_some_iff] at hsk
    obtain ⟨e, he, -⟩ := hsk
    obtain ⟨hmem, rfl, -⟩ := mem_of_latest he
    exact hevs e hmem
  refine ⟨_, rfl, booted_pid (fun _ _ => none) openAtBoot [] [ev4 1 9 40000 1] (ev4 1 7 40000 1) (key4 40000)
    ⟨100, "server", .ipv4 10 0 0 1, 40000, .ipv4 1 1 1 1, 443, .tcp, "ESTABLISHED"⟩ rfl ?_ rfl rfl rfl ?_ ?_
    (key4 40000) _ ⟨rfl, fun sk hsk => halone [ev4 1 7 40000 1, ev4 1 9 40000 1] (by decide) sk _ hsk⟩ rfl⟩
  · rintro ⟨pre, ev, hp, -⟩
    simp at hp
  · intro e he _ _
    rw [List.mem_singleton.1 he]
    rfl
  · refine meets_cons.2 ⟨fun _ _ _ k hk => ?_, .nil⟩
    obtain rfl : key4 40000 = k := Option.some.inj hk
    exact ⟨⟨_, rfl⟩, fun sk hsk => halone [ev4 1 7 40000 1] (by decide) sk _ hsk⟩

end EBPFSource
end Trafficmon
