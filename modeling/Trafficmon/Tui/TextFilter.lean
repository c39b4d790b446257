import Trafficmon.Dns.Resolver
import Trafficmon.Dpi.HostnameCache
import Trafficmon.Lib.InPlace
import Trafficmon.Tui.Filters

/-!
# The text filter and the names of destinations (`tui/model.go`, `filters.go`)

`hostname` names a row's destination: the row's own name, the fallback cache, the reverse resolver, and
only then the address. Both of the sources change when they are asked, and by others between two rows
(`interfere`), so `filterRowsLive` carries them along the loop. The filter looks at the label and at
that name; the address is found only where it is the name (`findsText_iff`).
-/

namespace Trafficmon

structure HostnameSources where
  resolver : Option Resolver
  hostnameCache : Option HostnameCache

namespace HostnameSources

def fromCache (now : Int) (src : HostnameSources) (addr : String) : HostnameSources × Option String :=
  match src.hostnameCache with
  | none => (src, none)
  | some c =>
    let (c, host, ok) := c.get addr now
    ({ src with hostnameCache := some c }, if ok then some host else none)

/-- `Hostname`. -/
def hostname (now : Int) (src : HostnameSources) (r : Row) : HostnameSources × String :=
  if r.hostname ≠ "" then (src, r.hostname)
  else if r.remoteAddr = "" then (src, r.remoteAddr)
  else
    match src.fromCache now r.remoteAddr with
    | (src, some host) => (src, host)
    | (src, none) =>
      match src.resolver with
      | none => (src, r.remoteAddr)
      | some res =>
        ({ src with resolver := some (res.lookup r.remoteAddr).1 }, (res.lookup r.remoteAddr).2.1)

end HostnameSources

section Filter
variable (toLower : String → String) (q : String) (now : Int) (interfere : ℕ → HostnameSources → HostnameSources)

/-- The body of the loop at the `i`-th row: the sources are asked only where the label does not match. -/
def keepRow (i : ℕ) (src : HostnameSources) (r : Row) : Bool × HostnameSources :=
  if contains (toLower r.label) (toLower q) then (true, src)
  else
    let (src, name) := (interfere i src).hostname now r
    (contains (toLower name) (toLower q), src)

/-- `filterRows` with `resolveHostname`. -/
def filterRowsLive (rows : List Row) (src : HostnameSources) : List Row × HostnameSources :=
  if q = "" then (rows, src) else InPlace.filter (keepRow toLower q now interfere) rows src

/-- The rows with the sources they find at their turns. -/
def rowTurns (rows : List Row) (src : HostnameSources) : List (HostnameSources × Row) :=
  (InPlace.turns (keepRow toLower q now interfere) 0 src rows).map fun t => (interfere t.1 t.2.1, t.2.2)

/-- The query is in the process name, the remote address or the resolved hostname. -/
def rowMatches (src : HostnameSources) (r : Row) : Bool :=
  contains (toLower r.label) (toLower q) ∨ contains (toLower r.remoteAddr) (toLower q) ∨
    contains (toLower (src.hostname now r).2) (toLower q)

/-- The filter keeps exactly the rows that match, in their order. -/
def FindsText (rows : List Row) (src : HostnameSources) : Prop :=
  (filterRowsLive toLower q now interfere rows src).1 =
    ((rowTurns toLower q now interfere rows src).filter fun t => rowMatches toLower q now t.1 t.2).map Prod.snd

end Filter

/-! ### What is known of a destination -/

/-- A name in the fallback cache that has not expired. -/
def HostnameCache.unexpired (c : HostnameCache) (addr : String) (now : Int) : Option String :=
  ((c.index.lookup addr).bind c.elems.lookup).bind fun e => if e.expires < now then none else some e.hostname

/-- A name that the resolver has found. -/
def Resolver.found (r : Resolver) (addr : String) : Option String :=
  ((r.cur.lookup addr).or (r.prev.lookup addr)).bind fun res => if res.resolved then some res.name else none

/-- The name known for the destination of a row. -/
def HostnameSources.known (now : Int) (src : HostnameSources) (r : Row) : Option String :=
  if r.hostname ≠ "" then some r.hostname
  else if r.remoteAddr = "" then none
  else (src.hostnameCache.bind (·.unexpired r.remoteAddr now)).or (src.resolver.bind (·.found r.remoteAddr))

theorem HostnameCache.get_spec (c : HostnameCache) (addr : String) (now : Int) :
    (if (c.get addr now).2.2 then some (c.get addr now).2.1 else none) = c.unexpired addr now := by
  rcases hel : c.index.lookup addr with _ | el
  · simp [HostnameCache.get, HostnameCache.unexpired, hel]
  · rcases he : c.elems.lookup el with _ | e
    · simp [HostnameCache.get, HostnameCache.unexpired, hel, he]
    · by_cases hexp : e.expires < now <;> simp [HostnameCache.get, HostnameCache.unexpired, hel, he, hexp]

theorem Resolver.lookup_spec (r : Resolver) {addr : String} (h : addr ≠ "") :
    (r.lookup addr).2.1 = (r.found addr).getD addr := by
  have hget : (r.get addr).2 = (r.cur.lookup addr).or (r.prev.lookup addr) := by
    unfold Resolver.get
    cases r.cur.lookup addr with
    | some res => rfl
    | none =>
      dsimp only [Option.none_or]
      cases r.prev.lookup addr <;> rfl
  unfold Resolver.lookup Resolver.found
  rw [if_neg h, ← hget]
  rcases r.get addr with ⟨r', _ | res⟩
  · dsimp only
    split
    · rfl
    · split <;> rfl
  · dsimp only [Option.bind_some, Resolver.shown]
    split <;> rfl

/-- The name shown is the one known, or else the address. -/
theorem HostnameSources.hostname_spec (now : Int) (src : HostnameSources) (r : Row) :
    (src.hostname now r).2 = (src.known now r).getD r.remoteAddr := by
  unfold hostname known
  by_cases hown : r.hostname = ""
  · rw [if_neg (not_not.2 hown), if_neg (not_not.2 hown)]
    by_cases haddr : r.remoteAddr = ""
    · rw [if_pos haddr, if_pos haddr]; rfl
    · rw [if_neg haddr, if_neg haddr]
      have hcache : (src.fromCache now r.remoteAddr).2 = src.hostnameCache.bind (·.unexpired r.remoteAddr now) := by
        unfold fromCache
        cases src.hostnameCache with
        | none => rfl
        | some c => exact c.get_spec r.remoteAddr now
      have hres : (src.fromCache now r.remoteAddr).1.resolver = src.resolver := by
        unfold fromCache
        cases src.hostnameCache <;> rfl
      rw [← hcache]
      rcases hfrom : src.fromCache now r.remoteAddr with ⟨src', _ | host⟩
      · rw [hfrom] at hres
        dsimp only at hres ⊢
        rw [hres, Option.none_or]
        cases src.resolver with
        | none => rfl
        | some res => exact res.lookup_spec haddr
      · rfl
  · rw [if_pos hown, if_pos hown]; rfl

/-! ### What the filter finds -/

section Finds
variable {toLower : String → String} {q : String} {now : Int}
  {interfere : ℕ → HostnameSources → HostnameSources} {rows : List Row} {src : HostnameSources}

/-- What the filter asks of a row. -/
def rowPasses (toLower : String → String) (q : String) (now : Int) (src : HostnameSources) (r : Row) : Bool :=
  contains (toLower r.label) (toLower q) ∨ contains (toLower (src.hostname now r).2) (toLower q)

theorem keepRow_fst (i : ℕ) (src : HostnameSources) (r : Row) :
    (keepRow toLower q now interfere i src r).1 = rowPasses toLower q now (interfere i src) r := by
  unfold keepRow rowPasses
  by_cases h : contains (toLower r.label) (toLower q) <;> simp [h]

theorem filterRowsLive_fst (hq : q ≠ "") (rows : List Row) (src : HostnameSources) :
    (filterRowsLive toLower q now interfere rows src).1 =
      ((rowTurns toLower q now interfere rows src).filter fun t => rowPasses toLower q now t.1 t.2).map Prod.snd := by
  rw [filterRowsLive, if_neg hq, InPlace.filter_fst, InPlace.kept, rowTurns, List.filter_map, List.map_map]
  simp only [keepRow_fst]
  rfl

theorem map_rowTurns (rows : List Row) (src : HostnameSources) :
    (rowTurns toLower q now interfere rows src).map Prod.snd = rows := by
  rw [rowTurns, List.map_map]
  exact InPlace.map_turns _ 0 src rows

/-- Where every row finds the name that `name` has for it, this is `filterRows`. -/
theorem filterRowsLive_eq {name : Row → String}
    (h : ∀ t ∈ rowTurns toLower q now interfere rows src, (t.1.hostname now t.2).2 = name t.2) :
    (filterRowsLive toLower q now interfere rows src).1 = filterRows toLower rows q name := by
  by_cases hq : q = ""
  · rw [filterRowsLive, filterRows, if_pos hq, if_pos hq]
  · have hrows : (rowTurns toLower q now interfere rows src).map Prod.snd = rows := map_rowTurns rows src
    rw [filterRowsLive_fst hq, filterRows, if_neg hq]
    conv_rhs => rw [← hrows]
    rw [List.filter_map]
    refine congrArg (List.map Prod.snd) (List.filter_congr fun t ht => ?_)
    rw [rowPasses, h t ht]
    rfl

/-- Of two filters of which the first keeps less, the results are the same only if they keep the same. -/
theorem map_filter_eq_iff {α β : Type*} {f : α → β} {p p' : α → Bool} {l : List α} (h : ∀ a ∈ l, p a → p' a) :
    (l.filter p).map f = (l.filter p').map f ↔ ∀ a ∈ l, p' a → p a := by
  constructor
  · intro heq
    have hlen := congrArg List.length heq
    have hsub : l.filter p = (l.filter p').filter p := by
      rw [List.filter_filter]
      exact List.filter_congr fun a ha => by by_cases hp : p a <;> simp [hp, h a ha]
    rw [List.length_map, List.length_map, hsub, List.length_filter_eq_length_iff] at hlen
    exact fun a ha hp' => hlen a (List.mem_filter.2 ⟨ha, hp'⟩)
  · intro h'
    rw [List.filter_congr fun a ha => Bool.eq_iff_iff.2 ⟨h a ha, h' a ha⟩]

/-- The filter finds what it should exactly when, of the rows whose address has the query while their
label does not, no name is known that does not have it. -/
theorem findsText_iff (toLower : String → String) (q : String) (now : Int)
    (interfere : ℕ → HostnameSources → HostnameSources) (rows : List Row) (src : HostnameSources) (hq : q ≠ "") :
    FindsText toLower q now interfere rows src ↔
      ∀ t ∈ rowTurns toLower q now interfere rows src, contains (toLower t.2.remoteAddr) (toLower q) →
        ¬ contains (toLower t.2.label) (toLower q) → ∀ name, t.1.known now t.2 = some name →
          contains (toLower name) (toLower q) := by
  have hless : ∀ t ∈ rowTurns toLower q now interfere rows src, rowPasses toLower q now t.1 t.2 →
      rowMatches toLower q now t.1 t.2 := by
    intro t _ h
    rcases of_decide_eq_true h with h | h
    · exact decide_eq_true (.inl h)
    · exact decide_eq_true (.inr (.inr h))
  rw [FindsText, filterRowsLive_fst hq, map_filter_eq_iff hless]
  refine forall₂_congr fun t _ => ?_
  simp only [rowMatches, rowPasses, HostnameSources.hostname_spec, decide_eq_true_eq]
  constructor
  · intro h haddr hlabel name hname
    rcases h (.inr (.inl haddr)) with h | h
    · exact absurd h hlabel
    · rwa [hname] at h
  · rintro h (hlabel | haddr | hname)
    · exact .inl hlabel
    · by_cases hlabel : contains (toLower t.2.label) (toLower q)
      · exact .inl hlabel
      · -- the address is the name where none is known
        refine .inr ?_
        cases hknown : t.1.known now t.2 with
        | none => exact haddr
        | some name => exact h haddr hlabel name hknown
    · exact .inr hname

def asciiLower (s : String) : String := String.ofList (s.toList.map Char.toLower)

def githubRow : Row :=
  { key := "1", label := "curl", remoteAddr := "140.82.112.3", remotePort := 443, hostname := "lb.github.com",
    iface := "en0" }

def noSources : HostnameSources := ⟨none, none⟩

/-- By the name it is found. -/
theorem findsText_by_name : FindsText asciiLower "GitHub" 0 (fun _ => id) [githubRow] noSources :=
  (findsText_iff asciiLower "GitHub" 0 (fun _ => id) [githubRow] noSources (by decide)).2 (by decide +kernel)

/-- By its address it is not, once its name is known. -/
theorem not_findsText_by_address : ¬ FindsText asciiLower "140.82" 0 (fun _ => id) [githubRow] noSources := by
  intro h
  have hnone : (filterRowsLive asciiLower "140.82" 0 (fun _ => id) [githubRow] noSources).1 = [] := by decide +kernel
  have hsome : ((rowTurns asciiLower "140.82" 0 (fun _ => id) [githubRow] noSources).filter fun t =>
      rowMatches asciiLower "140.82" 0 t.1 t.2).map Prod.snd = [githubRow] := by decide +kernel
  rw [FindsText, hnone, hsome] at h
  cases h

end Finds

end Trafficmon
