import Trafficmon.Lib.Generations

/-!
# The reverse resolver (`dns/resolver.go`)

`Resolver` is what its mutex guards, and how many slots of the semaphore are held. A `Lookup` is one
locked section; the `resolve` it starts is a task of its own: it waits for the answer of its query or
for the query's context, enters its locked section, and hands its slot back after that. `System` has
the resolver, the tasks and the contexts cancelled so far; its events are the steps of the tasks, the
calls of `Lookup` and what comes from outside (an answer, a deadline, a cancellation), in any order.
-/

namespace Trafficmon

/-- A completed lookup. -/
structure LookupResult where
  name : String
  resolved : Bool
deriving DecidableEq, Repr

structure Resolver where
  cur : GoMap String LookupResult := ∅
  prev : GoMap String LookupResult := ∅
  inflight : GoMap String Unit := ∅
  /-- The elements in the channel `sem`. -/
  held : Nat := 0
  maxConcurrent : Nat := 8
  maxCacheEntries : Nat := 4096

/-- `Option`; the timeout only bounds when a deadline passes, which is left open here. -/
inductive ResolverOption
  | withLookupTimeout (d : Int)
  | withMaxConcurrent (n : Int)
  | withMaxCacheEntries (n : Int)
deriving DecidableEq, Repr

/-- What a query ends with: the names, and whether there was an error. -/
structure Answer where
  names : List String
  err : Bool
deriving DecidableEq, Repr

namespace Resolver

def withOption (r : Resolver) : ResolverOption → Resolver
  | .withLookupTimeout _ => r
  | .withMaxConcurrent n => { r with maxConcurrent := (max n 1).toNat }
  | .withMaxCacheEntries n => { r with maxCacheEntries := (max n 1).toNat }

def newResolverWith (opts : List ResolverOption) : Resolver := opts.foldl withOption {}

def put (r : Resolver) (ip : String) (res : LookupResult) : Resolver :=
  let r :=
    if r.maxCacheEntries ≤ r.cur.keys.length then { r with prev := r.cur, cur := ∅ } else r
  { r with cur := r.cur.insert ip res }

def get (r : Resolver) (ip : String) : Resolver × Option LookupResult :=
  match r.cur.lookup ip with
  | some res => (r, some res)
  | none =>
    match r.prev.lookup ip with
    | some res => (r.put ip res, some res)
    | none => (r, none)

def shown (ip : String) (res : LookupResult) : String := if res.resolved then res.name else ip

/-- `Lookup`: what it returns, and whether it starts a `resolve`. -/
def lookup (r : Resolver) (ip : String) : Resolver × String × Bool :=
  if ip = "" then (r, ip, false)
  else
    match r.get ip with
    | (r, some res) => (r, shown ip res, false)
    | (r, none) =>
      if (r.inflight.lookup ip).isSome then (r, ip, false)
      else if r.held < r.maxConcurrent then
        ({ r with held := r.held + 1, inflight := r.inflight.insert ip () }, ip, true)
      else (r, ip, false)

def trimDot (name : String) : String :=
  if name.toList.getLast? = some '.' then String.ofList name.toList.dropLast else name

def firstName : List String → String
  | [] => ""
  | name :: _ => trimDot name

def resultOf (a : Answer) : LookupResult := ⟨firstName a.names, !a.err && firstName a.names ≠ ""⟩

/-- The locked section of `resolve`; `cancelled` says whether the parent context is. -/
def record (r : Resolver) (cancelled : Bool) (ip : String) (a : Answer) : Resolver :=
  let r := { r with inflight := r.inflight.erase ip }
  if cancelled then r else r.put ip (resultOf a)

end Resolver

/-! ### Tasks -/

/-- How far a `resolve` is. -/
inductive Phase
  /-- In the `select`, with the query under way. -/
  | querying
  /-- Out of the `select`, before the locked section. -/
  | decided (a : Answer)
  /-- Past the locked section, still with its slot. -/
  | recorded
  | finished
deriving DecidableEq, Repr

structure Task where
  ip : String
  ctx : Nat
  /-- What the query's goroutine sent on `done`, read or not. -/
  sent : Option Answer := none
  /-- The deadline of `queryCtx` has passed. -/
  expired : Bool := false
  phase : Phase := .querying
deriving DecidableEq, Repr

/-- Before its locked section. -/
def Task.pending (t : Task) : Bool :=
  match t.phase with
  | .querying | .decided _ => true
  | .recorded | .finished => false

structure ResolverSystem where
  resolver : Resolver
  tasks : List Task := []
  cancelled : List Nat := []

inductive ResolverEvent
  | lookup (ctx : Nat) (ip : String)
  /-- The query of task `i` ends. -/
  | answer (i : Nat) (a : Answer)
  | deadline (i : Nat)
  | cancel (ctx : Nat)
  /-- The `select` of task `i` takes the answer. -/
  | take (i : Nat)
  /-- The `select` of task `i` takes the end of `queryCtx`. -/
  | giveUp (i : Nat)
  | record (i : Nat)
  | release (i : Nat)
deriving DecidableEq, Repr

namespace ResolverSystem

def onTask (s : ResolverSystem) (i : Nat) (f : Task → Task) : ResolverSystem :=
  { s with tasks := s.tasks.modify i f }

def take (t : Task) : Task :=
  match t.phase, t.sent with
  | .querying, some a => { t with phase := .decided a }
  | _, _ => t

/-- `queryCtx.Done()` is ready once the deadline has passed or the parent is cancelled. -/
def giveUp (cancelled : List Nat) (t : Task) : Task :=
  if t.phase = .querying ∧ (t.expired ∨ t.ctx ∈ cancelled) then { t with phase := .decided ⟨[], true⟩ } else t

/-- The goroutine of the query sends once. -/
def send (a : Answer) (t : Task) : Task := if t.sent = none then { t with sent := some a } else t

def step (s : ResolverSystem) : ResolverEvent → ResolverSystem
  | .lookup ctx ip =>
    { s with
      resolver := (s.resolver.lookup ip).1
      tasks := if (s.resolver.lookup ip).2.2 then s.tasks ++ [{ ip := ip, ctx := ctx }] else s.tasks }
  | .answer i a => s.onTask i (send a)
  | .deadline i => s.onTask i fun t => { t with expired := true }
  | .cancel ctx => { s with cancelled := ctx :: s.cancelled }
  | .take i => s.onTask i take
  | .giveUp i => s.onTask i (giveUp s.cancelled)
  | .record i =>
    match s.tasks[i]? with
    | some t =>
      match t.phase with
      | .decided a =>
        { s with
          resolver := s.resolver.record (t.ctx ∈ s.cancelled) t.ip a
          tasks := s.tasks.set i { t with phase := .recorded } }
      | _ => s
    | none => s
  | .release i =>
    match s.tasks[i]? with
    | some t =>
      match t.phase with
      | .recorded =>
        { s with
          resolver := { s.resolver with held := s.resolver.held - 1 }
          tasks := s.tasks.set i { t with phase := .finished } }
      | _ => s
    | none => s

def run (s : ResolverSystem) (es : List ResolverEvent) : ResolverSystem := es.foldl step s

end ResolverSystem

def newSystem (opts : List ResolverOption) : ResolverSystem := { resolver := .newResolverWith opts }

end Trafficmon
