import Trafficmon.Procinfo.EbpfInv

/-!
# Process names in the eBPF table (`EBPFSource.processNameLocked`)

`names` is filled by the first lookup of a PID that succeeds and never emptied, so it holds the name
of whoever had the PID then (`names_eq`). The system gives PIDs out again. `namesCurrent_iff` says in
which runs a PID that comes back to the table comes with the name of the process that has it now.
-/

namespace Trafficmon
namespace EBPFSource

variable {processName : Nat → Int32 → Option String} {s : EBPFSource} {ev : EbpfEvent} {evs : List EbpfEvent}
  {key : EbpfConnKey}

/-- The PID that a live event names, and what `ProcessName` says of it at that moment. -/
def asked (processName : Nat → Int32 → Option String) (s : EBPFSource) (ev : EbpfEvent) :
    Option (Int32 × Option String) :=
  if ev.terminal then none else ev.key.map fun key => (s.pidFor ev key, processName s.eventCount (s.pidFor ev key))

def askedAll (processName : Nat → Int32 → Option String) : EBPFSource → List EbpfEvent → List (Int32 × Option String)
  | _, [] => []
  | s, ev :: evs => (asked processName s ev).toList ++ askedAll processName (s.handleNext processName ev) evs

/-- The first name `ProcessName` gave for `pid` at one of its events. -/
def firstName (processName : Nat → Int32 → Option String) (evs : List EbpfEvent) (pid : Int32) : Option String :=
  (askedAll processName {} evs).findSome? fun a => if a.1 = pid then a.2 else none

/-- The event puts a connection of `pid` into the table, which had none of it. -/
structure Introduces (s : EBPFSource) (ev : EbpfEvent) (key : EbpfConnKey) (pid : Int32) : Prop where
  key_eq : ev.key = some key
  live : ev.terminal = false
  pid_eq : s.pidFor ev key = pid
  absent : ∀ k c, s.conns.lookup k = some c → c.pid ≠ pid

/-- Every PID that comes to the table comes with its current name. -/
def NamesCurrent (processName : Nat → Int32 → Option String) (evs : List EbpfEvent) : Prop :=
  ∀ pre ev post key pid, evs = pre ++ ev :: post → (handleEvents processName pre).Introduces ev key pid →
    ∃ c, (handleEvents processName (pre ++ [ev])).conns.lookup key = some c ∧ c.pid = pid ∧
      c.processName = (processName pre.length pid).getD "?"

/-- A PID that comes to the table has the name now that it was first found to have. -/
def FirstNameHolds (processName : Nat → Int32 → Option String) (evs : List EbpfEvent) : Prop :=
  ∀ pre ev post key pid, evs = pre ++ ev :: post → (handleEvents processName pre).Introduces ev key pid →
    ∀ name, firstName processName pre pid = some name → (processName pre.length pid).getD "?" = name

/-! ### The cache -/

theorem askedAll_append (s : EBPFSource) (evs evs' : List EbpfEvent) :
    askedAll processName s (evs ++ evs') =
      askedAll processName s evs ++ askedAll processName (evs.foldl (handleNext processName) s) evs' := by
  induction evs generalizing s with
  | nil => rfl
  | cons ev evs ih => simp [askedAll, ih]

theorem eventCount_handleEvents (evs : List EbpfEvent) : (handleEvents processName evs).eventCount = evs.length := by
  have hstep : ∀ (pn : Int32 → Option String) (s : EBPFSource) ev,
      (s.handleEvent pn ev).eventCount = s.eventCount + 1 := by
    intro pn s ev
    have hname : ∀ (s : EBPFSource) pid, (s.processNameLocked pn pid).1.eventCount = s.eventCount := by
      intro s pid
      unfold processNameLocked
      split
      · rfl
      · split <;> rfl
    unfold EBPFSource.handleEvent
    dsimp only
    split
    · rfl
    · split
      · split <;> rfl
      · split <;> exact hname _ _
  induction evs using List.reverseRecOn with
  | nil => rfl
  | append_singleton evs ev ih => rw [handleEvents_concat, hstep, ih, List.length_append, List.length_singleton]

theorem names_undecodable {pn : Int32 → Option String} (hk : ev.key = none) :
    (s.handleEvent pn ev).names = s.names := by
  simp [EBPFSource.handleEvent, hk]

theorem names_terminal {pn : Int32 → Option String} (hk : ev.key = some key) (ht : ev.terminal = true) :
    (s.handleEvent pn ev).names = s.names := by
  have ht' : terminalTCPState ev.state = true := ht
  simp only [EBPFSource.handleEvent, hk, ht', if_true]
  split <;> rfl

theorem names_processNameLocked {pn : Int32 → Option String} (s : EBPFSource) (pid' pid : Int32) :
    (s.processNameLocked pn pid').1.names.lookup pid =
      (s.names.lookup pid).or (if pid' = pid then pn pid else none) := by
  unfold processNameLocked
  split
  · rename_i name hname
    by_cases he : pid' = pid
    · subst he; simp [hname]
    · simp [he]
  · rename_i hnone
    split
    · rename_i hpn
      by_cases he : pid' = pid
      · subst he; simp [hpn, hnone]
      · simp [he]
    · rename_i name hpn
      by_cases he : pid' = pid
      · subst he; simp [hpn, hnone]
      · simp [he, Ne.symm he]

theorem names_live {pn : Int32 → Option String} (hk : ev.key = some key) (ht : ev.terminal = false) (pid : Int32) :
    (s.handleEvent pn ev).names.lookup pid =
      (s.names.lookup pid).or (if s.pidFor ev key = pid then pn pid else none) := by
  have ht' : terminalTCPState ev.state = false := ht
  simp only [EBPFSource.handleEvent, hk, ht', Bool.false_eq_true, if_false]
  rw [names_processNameLocked]
  split
  · rename_i oldKey ho
    have hpid : s.pidFor ev key = (s.conns.lookup oldKey).elim ev.pid.toInt32 (·.pid) := by rw [pidFor, ho]; rfl
    rw [hpid]
  · rename_i ho
    have hpid : s.pidFor ev key = (s.conns.lookup key).elim ev.pid.toInt32 (·.pid) := by rw [pidFor, ho]; rfl
    rw [hpid]

/-- The cache holds the first name found. -/
theorem names_eq (evs : List EbpfEvent) (pid : Int32) :
    (handleEvents processName evs).names.lookup pid = firstName processName evs pid := by
  induction evs using List.reverseRecOn with
  | nil => rfl
  | append_singleton evs ev ih =>
    have hnew : firstName processName (evs ++ [ev]) pid = (firstName processName evs pid).or
        ((asked processName (handleEvents processName evs) ev).toList.findSome?
          fun a => if a.1 = pid then a.2 else none) := by
      simp only [firstName, askedAll_append, List.findSome?_append, askedAll, List.append_nil]
      rfl
    rw [handleEvents_concat, hnew, ← ih]
    cases hk : ev.key with
    | none => rw [names_undecodable hk]; simp [asked, hk]
    | some key =>
      cases ht : ev.terminal with
      | true => rw [names_terminal hk ht]; simp [asked, ht]
      | false =>
        rw [names_live hk ht]
        by_cases he : (handleEvents processName evs).pidFor ev key = pid
        · simp [asked, hk, ht, he]
        · simp [asked, hk, ht, he]

/-! ### Names of PIDs that come back -/

theorem processNameLocked_snd {pn : Int32 → Option String} (s : EBPFSource) (pid : Int32) :
    (s.processNameLocked pn pid).2 = (s.names.lookup pid).getD ((pn pid).getD "?") := by
  unfold processNameLocked
  split
  · rename_i name hname; simp [hname]
  · rename_i hnone
    split
    · rename_i hpn; simp [hnone, hpn]
    · rename_i name hpn; simp [hnone, hpn]

/-- The connection an event puts in has the first name found for its PID; the current one only where
there is none yet. -/
theorem conns_introduced {pre : List EbpfEvent} {pid : Int32}
    (h : (handleEvents processName pre).Introduces ev key pid) :
    ∃ c, (handleEvents processName (pre ++ [ev])).conns.lookup key = some c ∧ c.pid = pid ∧
      c.processName = (firstName processName pre pid).getD ((processName pre.length pid).getD "?") := by
  refine ⟨(handleEvents processName pre).connFor (processName pre.length) ev key, ?_, h.pid_eq, ?_⟩
  · rw [handleEvents_concat, eventCount_handleEvents, conns_live h.key_eq h.live, if_pos rfl]
  · rw [connFor, processNameLocked_snd, h.pid_eq, names_eq]

/-- Every PID comes to the table with its current name exactly in the runs in which the first name
found for such a PID is still its name. -/
theorem namesCurrent_iff (processName : Nat → Int32 → Option String) (evs : List EbpfEvent) :
    NamesCurrent processName evs ↔ FirstNameHolds processName evs := by
  constructor
  · intro h pre ev post key pid hevs hin name hfirst
    obtain ⟨c, hc, -, hname⟩ := h pre ev post key pid hevs hin
    obtain ⟨c', hc', -, hname'⟩ := conns_introduced hin
    obtain rfl : c = c' := Option.some.inj (hc.symm.trans hc')
    rw [← hname, hname', hfirst, Option.getD_some]
  · intro h pre ev post key pid hevs hin
    obtain ⟨c, hc, hpid, hname⟩ := conns_introduced hin
    refine ⟨c, hc, hpid, ?_⟩
    cases hfirst : firstName processName pre pid with
    | none => rw [hname, hfirst, Option.getD_none]
    | some name => rw [hname, hfirst, Option.getD_some, h pre ev post key pid hevs hin name hfirst]

/-- PID 100 has a connection and closes it; then the PID is another process's, which opens one. -/
def pidReused : List EbpfEvent := [ev4 1 100 40000 1, ev4 1 100 40000 7, ev4 2 100 40001 1]

def reusedName (step : Nat) (_ : Int32) : Option String := if step < 2 then some "curl" else some "ssh"

/-- The new process goes under the old one's name. -/
theorem pidReused_not_current : (∀ e ∈ pidReused, e.key.isSome) ∧ ¬ NamesCurrent reusedName pidReused := by
  refine ⟨by decide, fun h => ?_⟩
  have hgone : (handleEvents reusedName (pidReused.take 2)).conns = ∅ := rfl
  obtain ⟨c, hc, -, hname⟩ := h (pidReused.take 2) (ev4 2 100 40001 1) [] (key4 40001) 100 rfl
    ⟨rfl, rfl, rfl, fun k c hc => by rw [hgone] at hc; simp at hc⟩
  have hold : (handleEvents reusedName pidReused).conns.lookup (key4 40001) =
      some ⟨100, "curl", .ipv4 10 0 0 1, 40001, .ipv4 1 1 1 1, 443, .tcp, "ESTABLISHED"⟩ := by decide
  obtain rfl := Option.some.inj (hold.symm.trans hc)
  exact absurd hname (by decide)

end EBPFSource
end Trafficmon
