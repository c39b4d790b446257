import Mathlib.Data.List.DropRight
import Trafficmon.Procinfo.Poller

/-!
# Poll after poll (`procinfo/poller.go`)

Every successful poll builds the ports and the connections afresh; only names live on, and only for
processes with sockets. `polls_current` says what is there after any sequence of polls: the walk of the
last one that could list the PIDs, under the names `known` gives: the first answer other than `"?"`
since the process was last seen without a socket. A port resolves to its owner in that walk; what
`Snapshot` has for a port number is the owner of one of its two protocols.
-/

namespace Trafficmon

namespace Poller

/-- The copy by port number; which protocol's owner it keeps is up to the order of the range. -/
def snapshot (p : Poller) (order : MapOrder PortKey Process) : GoMap UInt16 Process :=
  (order.list p.ports).foldl (fun out e => out.insert e.1.port e.2) ∅

def polls (vs : List Procfs) : Poller := vs.foldl (fun p v => (p.poll v).1) {}

end Poller

namespace Procfs

def listed (v : Procfs) : Bool := v.listPIDs.toOption.isSome

/-- The walk comes to a socket of `pid`. -/
def holds (pid : Int32) (v : Procfs) : Bool := pid ∈ v.pids ∧ (v.socketsForPID pid).getD [] ≠ []

def answer (pid : Int32) (v : Procfs) : Option String := (v.processName pid).filter (· ≠ "?")

/-- The walks since `pid` was last without a socket. -/
def since (pid : Int32) (vs : List Procfs) : List Procfs := vs.rtakeWhile (holds pid)

def known (pid : Int32) (vs : List Procfs) : Option String := (since pid vs).findSome? (answer pid)

theorem known_concat (pid : Int32) (vs : List Procfs) (v : Procfs) :
    known pid (vs ++ [v]) = if holds pid v then (known pid vs).or (v.answer pid) else none := by
  rw [known, since, List.rtakeWhile_concat]
  split_ifs with h
  · rw [List.findSome?_append, List.findSome?_singleton]
    rfl
  · rfl

theorem known_ne {pid : Int32} {vs : List Procfs} {name : String} (h : known pid vs = some name) : name ≠ "?" := by
  obtain ⟨v, -, hv⟩ := List.exists_of_findSome?_eq_some h
  exact of_decide_eq_true (Option.filter_eq_some_iff.1 hv).2

end Procfs

open Procfs

section Names

/-- The name a walk keeps for a process it comes to. -/
def kept (v : Procfs) (oldNames : GoMap Int32 String) (pid : Int32) : Option String :=
  if (v.socketsForPID pid).getD [] = [] then none else (some (Poller.nameOf v oldNames pid)).filter (· ≠ "?")

theorem names_addSockets (p : Poller) (pid : Int32) (name : String) (socks : List Socket) :
    (p.addSockets pid name socks).names = p.names := by
  rw [addSockets_eq]

theorem lookup_pollPID (v : Procfs) (oldNames : GoMap Int32 String) (p : Poller) (q pid : Int32) :
    (p.pollPID v oldNames q).names.lookup pid =
      if pid = q then (kept v oldNames pid).or (p.names.lookup pid) else p.names.lookup pid := by
  have hskip : ∀ x : Int32, kept v oldNames x = none → (if pid = x then (kept v oldNames pid).or (p.names.lookup pid)
      else p.names.lookup pid) = p.names.lookup pid := by
    intro x hx
    split_ifs with h
    · rw [h, hx, Option.none_or]
    · rfl
  unfold Poller.pollPID
  cases hs : v.socketsForPID q with
  | none => exact (hskip q (by simp [kept, hs])).symm
  | some socks =>
    by_cases hnil : socks.length = 0
    · simp only [hnil, if_true]
      exact (hskip q (by simp [kept, hs, List.length_eq_zero_iff.1 hnil])).symm
    have hne : (v.socketsForPID q).getD [] ≠ [] := by
      rw [hs, Option.getD_some]
      exact fun h => hnil (List.length_eq_zero_iff.2 h)
    simp only [hnil, if_false, names_addSockets]
    by_cases hq : Poller.nameOf v oldNames q = "?"
    · simp only [hq, ne_eq, not_true, if_false]
      exact (hskip q (by simp [kept, Option.filter_some, hq])).symm
    · simp only [hq, ne_eq, not_false_eq_true, if_true, GoMap.lookup_insert_eq]
      split_ifs with hp
      · simp [hp, kept, hne, Option.filter_some, hq]
      · rfl

/-- What one walk keeps of the names. -/
theorem lookup_pollAll (v : Procfs) (oldNames : GoMap Int32 String) (pids : List Int32) (pid : Int32) :
    (pids.foldl (Poller.pollPID v oldNames) {}).names.lookup pid = if pid ∈ pids then kept v oldNames pid else none := by
  induction pids using List.reverseRecOn with
  | nil => rfl
  | append_singleton pids q ih =>
    rw [List.foldl_append, List.foldl_cons, List.foldl_nil, lookup_pollPID, ih]
    by_cases hq : pid = q
    · subst hq
      by_cases hmem : pid ∈ pids <;> simp [hmem]
    · simp [hq]

end Names

/-! ### Runs -/

section Runs
variable {vs : List Procfs} {v : Procfs}

theorem poll_of_listed (h : v.listed) (p : Poller) : (p.poll v).1 = v.pids.foldl (Poller.pollPID v p.names) {} := by
  unfold Poller.poll Procfs.pids
  unfold Procfs.listed at h
  cases hl : v.listPIDs with
  | error err => rw [hl] at h; cases h
  | ok pids => rfl

theorem poll_of_not_listed (h : ¬v.listed) (p : Poller) : (p.poll v).1 = p := by
  unfold Poller.poll
  unfold Procfs.listed at h
  cases hl : v.listPIDs with
  | error err => rfl
  | ok pids => rw [hl] at h; exact absurd rfl h

theorem polls_concat (vs : List Procfs) (v : Procfs) : Poller.polls (vs ++ [v]) = ((Poller.polls vs).poll v).1 := by
  rw [Poller.polls, List.foldl_append]
  rfl

theorem nameOf_eq {oldNames : GoMap Int32 String} {pid : Int32} (h : oldNames.lookup pid = known pid vs)
    (hv : holds pid v) : Poller.nameOf v oldNames pid = (known pid (vs ++ [v])).getD "?" := by
  rw [known_concat, if_pos hv, Poller.nameOf, h]
  cases hk : known pid vs with
  | some name => rfl
  | none =>
    rw [Option.none_or, answer]
    cases hp : v.processName pid with
    | none => rfl
    | some name =>
      by_cases hq : name = "?"
      · simp [Option.filter_some, hq]
      · simp [Option.filter_some, hq]

/-- The cache after any polls: what is known of the processes that the last of them came to. -/
theorem lookup_names (vs : List Procfs) (pid : Int32) :
    (Poller.polls vs).names.lookup pid = known pid (vs.filter listed) := by
  induction vs using List.reverseRecOn with
  | nil => rfl
  | append_singleton vs v ih =>
    rw [polls_concat, List.filter_append, List.filter_singleton]
    by_cases hl : v.listed
    · rw [poll_of_listed hl, lookup_pollAll, hl, cond_true]
      by_cases hv : holds pid v
      · have hmem := of_decide_eq_true hv
        rw [if_pos hmem.1, kept, if_neg hmem.2, nameOf_eq ih hv]
        cases hk : known pid (vs.filter listed ++ [v]) with
        | none => rfl
        | some name => simp [Option.filter_some, known_ne hk]
      · rw [known_concat, if_neg hv]
        have hmem := of_decide_eq_false (Bool.not_eq_true _ ▸ hv)
        split_ifs with hp
        · rw [kept, if_pos (by_contra fun hne => hmem ⟨hp, hne⟩)]
        · rfl
    · rw [poll_of_not_listed hl, ih, Bool.eq_false_of_not_eq_true hl, cond_false, List.append_nil]

theorem walk_named (vs : List Procfs) (v : Procfs) : v.pids.flatMap (v.seen (Poller.nameOf v (Poller.polls vs).names)) =
    v.pids.flatMap (v.seen fun pid => (known pid (vs.filter listed ++ [v])).getD "?") := by
  refine List.flatMap_congr fun pid hp => ?_
  by_cases hs : (v.socketsForPID pid).getD [] = []
  · rw [Procfs.seen, Procfs.seen, hs, List.map_nil, List.map_nil]
  · rw [Procfs.seen, Procfs.seen, nameOf_eq (lookup_names vs pid) (decide_eq_true ⟨hp, hs⟩)]

/-- The sockets of the last walk that could list the PIDs, under the names known by then. -/
def current (vs : List Procfs) : List Connection :=
  (vs.filter listed).getLast?.elim [] fun v =>
    v.pids.flatMap (v.seen fun pid => (known pid (vs.filter listed)).getD "?")

theorem polls_eq (vs : List Procfs) : (Poller.polls vs).conns = current vs ∧
    (Poller.polls vs).ports = GoMap.insertAll ∅ ((current vs).map fun c => (c.portKey, c.owner)) := by
  induction vs using List.reverseRecOn with
  | nil => exact ⟨rfl, rfl⟩
  | append_singleton vs v ih =>
    rw [polls_concat]
    by_cases hl : v.listed
    · have hcur : current (vs ++ [v]) =
          v.pids.flatMap (v.seen fun pid => (known pid (vs.filter listed ++ [v])).getD "?") := by
        simp [current, hl]
      obtain ⟨hconns, hports⟩ := pollAll_eq v (Poller.polls vs).names v.pids
      rw [walk_named vs v] at hconns hports
      rw [poll_of_listed hl, hcur]
      exact ⟨hconns, hports⟩
    · have hcur : current (vs ++ [v]) = current vs := by simp [current, hl]
      rw [poll_of_not_listed hl, hcur]
      exact ih

theorem lookup_snapshot (p : Poller) (order : MapOrder PortKey Process) (port : UInt16) :
    (p.snapshot order).lookup port = GoMap.lastOf ((order.list p.ports).map fun e => (e.1.port, e.2)) port := by
  have hall : p.snapshot order = GoMap.insertAll ∅ ((order.list p.ports).map fun e => (e.1.port, e.2)) := by
    rw [Poller.snapshot, GoMap.insertAll, List.foldl_map]
  rw [hall, GoMap.lookup_insertAll, AList.lookup_empty, Option.or_none]

theorem snapshot_eq_none (p : Poller) (order : MapOrder PortKey Process) (port : UInt16) :
    (p.snapshot order).lookup port = none ↔ ∀ proto, p.lookup port proto = none := by
  rw [lookup_snapshot, GoMap.lastOf_eq_none]
  constructor
  · intro h proto
    refine Option.eq_none_iff_forall_ne_some.2 fun proc hp => ?_
    exact h (port, proc) (List.mem_map.2 ⟨⟨⟨port, proto⟩, proc⟩, MapOrder.mem_list.2 hp, rfl⟩) rfl
  · rintro h e he rfl
    obtain ⟨⟨key, proc⟩, hmem, rfl⟩ := List.mem_map.1 he
    have hp := MapOrder.mem_list.1 hmem
    exact absurd ((h key.proto).symm.trans hp) (by simp)

theorem lookup_of_snapshot {p : Poller} {order : MapOrder PortKey Process} {port : UInt16} {proc : Process}
    (h : (p.snapshot order).lookup port = some proc) : ∃ proto, p.lookup port proto = some proc := by
  rw [lookup_snapshot] at h
  obtain ⟨⟨key, proc'⟩, hmem, he⟩ := List.mem_map.1 (GoMap.mem_of_lastOf h)
  obtain ⟨rfl, rfl⟩ := Prod.mk.inj he
  exact ⟨key.proto, MapOrder.mem_list.1 hmem⟩

end Runs

/-- After any sequence of polls, failed ones included. -/
theorem polls_current (vs : List Procfs) :
    (Poller.polls vs).connections = current vs ∧
    (∀ port proto, (Poller.polls vs).lookup port proto =
      GoMap.lastOf ((current vs).map fun c => (c.portKey, c.owner)) ⟨port, proto⟩) ∧
    ∀ order port,
      (((Poller.polls vs).snapshot order).lookup port = none ↔ ∀ proto, (Poller.polls vs).lookup port proto = none) ∧
      ∀ proc, ((Poller.polls vs).snapshot order).lookup port = some proc →
        ∃ proto, (Poller.polls vs).lookup port proto = some proc := by
  obtain ⟨hconns, hports⟩ := polls_eq vs
  refine ⟨hconns, fun port proto => ?_, fun order port => ⟨snapshot_eq_none _ order port, fun proc => lookup_of_snapshot⟩⟩
  rw [Poller.lookup, hports, GoMap.lookup_insertAll, AList.lookup_empty, Option.or_none]

/-- One process, with these sockets and this answer from `ProcessName`. -/
def onePID (socks : List Socket) (name : Option String) : Procfs := ⟨.ok [7], fun _ => some socks, fun _ => name⟩

/-- A name is asked for until there is one, kept while the sockets last, and asked for anew after. -/
example : let s : Socket := ⟨7, 80, 0, .ipv4 0 0 0 0, .ipv4 0 0 0 0, .tcp, "LISTEN"⟩
    [[onePID [s] none], [onePID [s] none, onePID [s] (some "a")],
      [onePID [s] (some "a"), onePID [s] (some "b")],
      [onePID [s] (some "a"), onePID [] (some "a"), onePID [s] (some "b")]].map
        (fun vs => (Poller.polls vs).connections.map (·.processName)) = [["?"], ["a"], ["a"], ["b"]] := by
  decide

end Trafficmon
