import Trafficmon.Dpi.HostnameCache
import Trafficmon.Lib.Lru

/-!
# The hostname cache is an LRU cache (`dpi/hostname_cache.go`)

`Linked` says that the list and the index hold the same elements, each address once. The operations
keep it, and what the list holds then changes as an abstract LRU list of entries does (`Lru.put`,
`Lru.drop`): `Put` and a hit of `Get` put the entry to the front, an expired `Get` drops it.
-/

namespace Trafficmon
namespace HostnameCache
variable {c : HostnameCache} {el : Nat} {e : HostnameCacheEntry}

structure Linked (c : HostnameCache) : Prop where
  nodup : c.ll.Nodup
  fresh : ∀ el ∈ c.ll, el < c.nextElem
  live : ∀ el ∈ c.ll, ∃ e, c.elems.lookup el = some e
  indexed : ∀ ip el, c.index.lookup ip = some el ↔
    el ∈ c.ll ∧ ∃ e, c.elems.lookup el = some e ∧ e.ip = ip

theorem Linked.new (capacity ttl : Int) : Linked (newHostnameCache capacity ttl) := by
  refine ⟨List.nodup_nil, nofun, nofun, fun ip el => ?_⟩
  constructor
  · intro h
    cases h
  · rintro ⟨h, -⟩
    cases h

/-- Elements of the list with the same address are the same. -/
theorem Linked.el_eq (h : Linked c) {el' : Nat} {e' : HostnameCacheEntry} (hel : el ∈ c.ll)
    (he : c.elems.lookup el = some e) (hel' : el' ∈ c.ll) (he' : c.elems.lookup el' = some e') (hip : e'.ip = e.ip) :
    el' = el := by
  have h1 := (h.indexed e.ip el).2 ⟨hel, e, he, rfl⟩
  have h2 := (h.indexed e.ip el').2 ⟨hel', e', he', hip⟩
  rw [h1] at h2
  exact (Option.some.inj h2).symm

/-- Without `el`, the list holds the other addresses' entries. -/
theorem Linked.entries_erase (h : Linked c) (hel : el ∈ c.ll) (he : c.elems.lookup el = some e) :
    (c.ll.erase el).filterMap c.elems.lookup = Lru.drop HostnameCacheEntry.ip c.entries e.ip := by
  rw [h.nodup.erase_eq_filter, List.filterMap_filter, Lru.drop, entries, List.filter_filterMap]
  refine List.filterMap_congr fun el' hel' => ?_
  obtain ⟨e', he'⟩ := h.live el' hel'
  rw [he', Option.filter_some]
  by_cases heq : el' = el
  · subst heq
    rw [he] at he'
    simp [Option.some.inj he']
  · have hne : e'.ip ≠ e.ip := fun hip => heq (h.el_eq hel he hel' he' hip)
    simp [heq, hne]

theorem Linked.index_isSome_iff (h : Linked c) {ip : String} :
    (∃ el, c.index.lookup ip = some el) ↔ ip ∈ c.entries.map HostnameCacheEntry.ip := by
  simp only [h.indexed, List.mem_map, entries, List.mem_filterMap]
  constructor
  · rintro ⟨el, hel, e, he, hip⟩
    exact ⟨e, ⟨el, hel, he⟩, hip⟩
  · rintro ⟨e, ⟨el, hel, he⟩, hip⟩
    exact ⟨el, hel, e, he, hip⟩

theorem Linked.length_entries (h : Linked c) : c.entries.length = c.ll.length := by
  rw [entries, List.filterMap_length_eq_length]
  intro el hel
  obtain ⟨e, he⟩ := h.live el hel
  rw [he]
  rfl

/-! ### The list operations -/

theorem Linked.remove (h : Linked c) (hel : el ∈ c.ll) (he : c.elems.lookup el = some e) :
    Linked { c with ll := c.ll.erase el, index := c.index.erase e.ip } where
  nodup := h.nodup.erase el
  fresh x hx := h.fresh x (List.mem_of_mem_erase hx)
  live x hx := h.live x (List.mem_of_mem_erase hx)
  indexed ip x := by
    show (c.index.erase e.ip).lookup ip = some x ↔ x ∈ c.ll.erase el ∧ ∃ e', c.elems.lookup x = some e' ∧ e'.ip = ip
    rw [GoMap.lookup_erase_eq, h.nodup.mem_erase_iff]
    split
    · subst ip
      refine ⟨nofun, ?_⟩
      rintro ⟨⟨hne, hx⟩, e', he', hip⟩
      exact absurd (h.el_eq hel he hx he' hip) hne
    · rw [h.indexed]
      refine ⟨?_, fun ⟨⟨_, hx⟩, he'⟩ => ⟨hx, he'⟩⟩
      rintro ⟨hx, e', he', hip⟩
      refine ⟨⟨?_, hx⟩, e', he', hip⟩
      rintro rfl
      rw [he] at he'
      exact ‹¬ ip = e.ip› (by rw [← hip, Option.some.inj he'])

theorem moveToFront_eq (hel : el ∈ c.ll) : c.moveToFront el = { c with ll := el :: c.ll.erase el } := by
  rw [moveToFront, if_pos hel]

theorem Linked.moveToFront (h : Linked c) (hel : el ∈ c.ll) : Linked (c.moveToFront el) := by
  have hmem : ∀ x, x ∈ el :: c.ll.erase el ↔ x ∈ c.ll := by
    intro x
    rw [List.mem_cons]
    by_cases hx : x = el
    · simp [hx, hel]
    · simp [hx, List.mem_erase_of_ne hx]
  rw [moveToFront_eq hel]
  refine ⟨List.nodup_cons.2 ⟨h.nodup.not_mem_erase, h.nodup.erase el⟩, fun x hx => h.fresh x ((hmem x).1 hx),
    fun x hx => h.live x ((hmem x).1 hx), fun ip x => ?_⟩
  show c.index.lookup ip = some x ↔ x ∈ el :: c.ll.erase el ∧ _
  rw [h.indexed, hmem]

theorem Linked.entries_moveToFront (h : Linked c) (hel : el ∈ c.ll) (he : c.elems.lookup el = some e) :
    (c.moveToFront el).entries = e :: Lru.drop HostnameCacheEntry.ip c.entries e.ip := by
  rw [← h.entries_erase hel he, moveToFront_eq hel]
  exact List.filterMap_cons_some (f := fun a => c.elems.lookup a) he

/-- An element may change what it holds, but not its address. -/
theorem Linked.set (h : Linked c) (he : c.elems.lookup el = some e) {e' : HostnameCacheEntry} (hip : e'.ip = e.ip) :
    Linked { c with elems := c.elems.insert el e' } where
  nodup := h.nodup
  fresh := h.fresh
  live x hx := by
    show ∃ e, (c.elems.insert el e').lookup x = some e
    rw [GoMap.lookup_insert_eq]
    split
    · exact ⟨e', rfl⟩
    · exact h.live x hx
  indexed ip x := by
    show c.index.lookup ip = some x ↔ x ∈ c.ll ∧ ∃ e, (c.elems.insert el e').lookup x = some e ∧ e.ip = ip
    rw [h.indexed, GoMap.lookup_insert_eq]
    by_cases hx : x = el
    · subst hx
      simp [he, hip]
    · simp [hx]

theorem Linked.entries_set (h : Linked c) {rest : List Nat} (hll : c.ll = el :: rest) (e' : HostnameCacheEntry) :
    entries { c with elems := c.elems.insert el e' } = e' :: c.entries.tail := by
  have hnd := h.nodup
  rw [hll, List.nodup_cons] at hnd
  obtain ⟨e, he⟩ := h.live el (by simp [hll])
  rw [entries, entries, hll, List.filterMap_cons_some (f := fun a => c.elems.lookup a) he, List.tail_cons]
  rw [List.filterMap_cons_some (f := fun a => (c.elems.insert el e').lookup a) (AList.lookup_insert _)]
  congr 1
  refine List.filterMap_congr fun x hx => ?_
  rw [GoMap.lookup_insert_eq, if_neg]
  rintro rfl
  exact hnd.1 hx

theorem Linked.push (h : Linked c) (hnew : c.index.lookup e.ip = none) :
    Linked { (c.pushFront e).1 with index := (c.pushFront e).1.index.insert e.ip (c.pushFront e).2 } where
  nodup := List.nodup_cons.2 ⟨fun hm => Nat.lt_irrefl _ (h.fresh _ hm), h.nodup⟩
  fresh x hx := by
    show x < c.nextElem + 1
    rcases List.mem_cons.1 hx with rfl | hx
    · exact Nat.lt_succ_self _
    · exact Nat.lt_succ_of_lt (h.fresh x hx)
  live x hx := by
    show ∃ e', (c.elems.insert c.nextElem e).lookup x = some e'
    rw [GoMap.lookup_insert_eq]
    split
    · exact ⟨e, rfl⟩
    · exact h.live x ((List.mem_cons.1 hx).resolve_left ‹_›)
  indexed ip x := by
    show (c.index.insert e.ip c.nextElem).lookup ip = some x ↔
      x ∈ c.nextElem :: c.ll ∧ ∃ e', (c.elems.insert c.nextElem e).lookup x = some e' ∧ e'.ip = ip
    rw [GoMap.lookup_insert_eq, GoMap.lookup_insert_eq]
    by_cases hx : x = c.nextElem
    · subst hx
      have hold : c.index.lookup ip ≠ some c.nextElem := by
        intro hi
        exact Nat.lt_irrefl _ (h.fresh _ ((h.indexed ip _).1 hi).1)
      by_cases hip : ip = e.ip <;> simp [hip, hold, eq_comm]
    · have hne : c.nextElem ≠ x := fun he => hx he.symm
      rw [if_neg hx, List.mem_cons, or_iff_right hx, ← h.indexed]
      by_cases hip : ip = e.ip
      · subst hip
        simp [hnew, hne]
      · simp [hip]

theorem Linked.entries_push (h : Linked c) (e : HostnameCacheEntry) : (c.pushFront e).1.entries = e :: c.entries := by
  show (c.nextElem :: c.ll).filterMap (c.elems.insert c.nextElem e).lookup = _
  rw [List.filterMap_cons_some (f := fun a => (c.elems.insert c.nextElem e).lookup a) (AList.lookup_insert _)]
  congr 1
  refine List.filterMap_congr fun x hx => ?_
  rw [GoMap.lookup_insert_eq, if_neg (Nat.ne_of_lt (h.fresh x hx))]

theorem Linked.entries_eraseLast (h : Linked c) {back : Nat} (hback : c.ll.getLast? = some back) :
    (c.ll.erase back).filterMap c.elems.lookup = c.entries.dropLast := by
  obtain ⟨init, hinit⟩ := List.getLast?_eq_some_iff.1 hback
  obtain ⟨e, he⟩ := h.live back (by simp [hinit])
  have hnot : back ∉ init := by
    have hnd := h.nodup
    rw [hinit, List.nodup_append] at hnd
    exact fun hm => hnd.2.2 back hm back (List.mem_singleton.2 rfl) rfl
  rw [entries, hinit, List.erase_append_right _ hnot, List.filterMap_append, List.filterMap_append]
  simp [he]

/-! ### `Put` and `Get` -/

theorem Linked.put (h : Linked c) (cap : Nat) (hcap : c.capacity = cap) (ip hostname : String) (now : Int) :
    Linked (c.put ip hostname now) ∧
      (c.put ip hostname now).entries = Lru.put cap HostnameCacheEntry.ip c.entries ⟨ip, hostname, now + c.ttl⟩ ∧
      (c.put ip hostname now).capacity = c.capacity ∧ (c.put ip hostname now).ttl = c.ttl := by
  unfold HostnameCache.put
  cases hi : c.index.lookup ip with
  | some el =>
    obtain ⟨hel, e, he, rfl⟩ := (h.indexed ip el).1 hi
    have hmem : e.ip ∈ c.entries.map HostnameCacheEntry.ip := h.index_isSome_iff.1 ⟨el, hi⟩
    have hfront := h.moveToFront hel
    have hentries := h.entries_moveToFront hel he
    dsimp only
    rw [moveToFront_eq hel] at hfront hentries ⊢
    dsimp only
    rw [he, Lru.put, if_pos hmem]
    refine ⟨hfront.set he rfl, ?_, rfl, rfl⟩
    rw [hfront.entries_set rfl, hentries]
    rfl
  | none =>
    have hmem : ip ∉ c.entries.map HostnameCacheEntry.ip := by
      intro hm
      obtain ⟨el, hel⟩ := h.index_isSome_iff.2 hm
      rw [hi] at hel
      cases hel
    dsimp only
    have hpush := h.push (e := ⟨ip, hostname, now + c.ttl⟩) hi
    have hentries := h.entries_push ⟨ip, hostname, now + c.ttl⟩
    have hlen : (c.pushFront ⟨ip, hostname, now + c.ttl⟩).1.ll.length = c.entries.length + 1 := by
      rw [h.length_entries]
      rfl
    rw [Lru.put, if_neg hmem]
    split
    · rename_i hfull
      rw [hlen, show (c.pushFront ⟨ip, hostname, now + c.ttl⟩).1.capacity = cap from hcap] at hfull
      rw [if_pos (by omega)]
      split
      · -- the list is not empty
        rename_i hback
        cases List.getLast?_eq_none_iff.1 hback
      · rename_i back hback
        obtain ⟨e, he⟩ := hpush.live back (List.mem_of_getLast? hback)
        have hlast := hpush.entries_eraseLast hback
        have hremove := hpush.remove (List.mem_of_getLast? hback) he
        dsimp only at he
        rw [he]
        refine ⟨hremove, hlast.trans ?_, rfl, rfl⟩
        exact congrArg List.dropLast hentries
    · rename_i hroom
      rw [hlen, show (c.pushFront ⟨ip, hostname, now + c.ttl⟩).1.capacity = cap from hcap] at hroom
      rw [if_neg (by omega)]
      exact ⟨hpush, hentries, rfl, rfl⟩

/-- The three ways a `Get` can end. -/
theorem Linked.get (h : Linked c) (cap : Nat) (ip : String) (now : Int) :
    (ip ∉ c.entries.map HostnameCacheEntry.ip ∧ c.get ip now = (c, "", false)) ∨
      (∃ e ∈ c.entries, e.ip = ip ∧ e.expires < now ∧ (c.get ip now).2 = ("", false) ∧ Linked (c.get ip now).1 ∧
        (c.get ip now).1.entries = Lru.drop HostnameCacheEntry.ip c.entries ip ∧
        (c.get ip now).1.capacity = c.capacity ∧ (c.get ip now).1.ttl = c.ttl) ∨
      ∃ e ∈ c.entries, e.ip = ip ∧ now ≤ e.expires ∧ (c.get ip now).2 = (e.hostname, true) ∧
        Linked (c.get ip now).1 ∧ (c.get ip now).1.entries = Lru.put cap HostnameCacheEntry.ip c.entries e ∧
        (c.get ip now).1.capacity = c.capacity ∧ (c.get ip now).1.ttl = c.ttl := by
  unfold HostnameCache.get
  cases hi : c.index.lookup ip with
  | none =>
    refine .inl ⟨fun hm => ?_, rfl⟩
    obtain ⟨el, hel⟩ := h.index_isSome_iff.2 hm
    rw [hi] at hel
    cases hel
  | some el =>
    obtain ⟨hel, e, he, rfl⟩ := (h.indexed ip el).1 hi
    have hmem : e ∈ c.entries := List.mem_filterMap.2 ⟨el, hel, he⟩
    dsimp only
    rw [he]
    dsimp only
    right
    split
    · exact .inl ⟨e, hmem, rfl, ‹_›, rfl, h.remove hel he, h.entries_erase hel he, rfl, rfl⟩
    · right
      refine ⟨e, hmem, rfl, Int.not_lt.1 ‹_›, rfl, h.moveToFront hel, ?_, ?_⟩
      · rw [h.entries_moveToFront hel he, Lru.put, if_pos (List.mem_map_of_mem hmem)]
      · rw [moveToFront_eq hel]
        exact ⟨rfl, rfl⟩

/-! ### Runs -/

end HostnameCache

inductive CacheCall
  | put (ip hostname : String) (now : Int)
  | get (ip : String) (now : Int)
deriving DecidableEq, Repr

/-- What a call did: a `Get` found the entry, found it expired, or found nothing. -/
inductive CacheEvent
  | put (ip hostname : String) (now : Int)
  | hit (ip : String)
  | expired (ip : String)
  | absent (ip : String)
deriving DecidableEq, Repr

namespace CacheEvent

/-- The address the event put or hit. -/
def uses : CacheEvent → Option String
  | .put ip _ _ => some ip
  | .hit ip => some ip
  | .expired _ => none
  | .absent _ => none

def puts (ip : String) : CacheEvent → Option (String × Int)
  | .put ip' hostname now => if ip' = ip then some (hostname, now) else none
  | _ => none

/-- The hostname and the time of the last `Put` of `ip`; histories have the newest event first. -/
def lastPut (ip : String) (evs : List CacheEvent) : Option (String × Int) := evs.findSome? (puts ip)

/-- A `Get` since the last `Put` of `ip` found its entry expired. -/
def expiredSincePut (ip : String) (evs : List CacheEvent) : Bool :=
  .expired ip ∈ evs.takeWhile fun e => (e.puts ip).isNone

/-- The addresses put or hit since `ip` last was. -/
def usedSince (ip : String) (evs : List CacheEvent) : List String :=
  (evs.takeWhile fun e => e.uses ≠ some ip).filterMap uses

end CacheEvent

namespace HostnameCache
variable {c : HostnameCache}

def call (c : HostnameCache) : CacheCall → HostnameCache
  | .put ip hostname now => c.put ip hostname now
  | .get ip now => (c.get ip now).1

def event (c : HostnameCache) : CacheCall → CacheEvent
  | .put ip hostname now => .put ip hostname now
  | .get ip now =>
    if (c.get ip now).2.2 then .hit ip
    else if (c.index.lookup ip).isSome then .expired ip
    else .absent ip

/-- The cache after the calls, and what they did, newest first. -/
def run (c : HostnameCache) (calls : List CacheCall) : HostnameCache × List CacheEvent :=
  calls.foldl (fun r call => (r.1.call call, r.1.event call :: r.2)) (c, [])

/-! ### The history as an LRU list has it -/

def lruEvents (evs : List CacheEvent) : List (Lru.Event String) :=
  evs.filterMap fun
    | .put ip _ _ => some (.used ip)
    | .hit ip => some (.used ip)
    | .expired ip => some (.dropped ip)
    | .absent _ => none

theorem usedSince_lruEvents (ip : String) (evs : List CacheEvent) :
    Lru.usedSince ip (lruEvents evs) = CacheEvent.usedSince ip evs := by
  induction evs with
  | nil => rfl
  | cons e evs ih =>
    have hused : ∀ ip', e.uses = some ip' → lruEvents (e :: evs) = .used ip' :: lruEvents evs →
        Lru.usedSince ip (lruEvents (e :: evs)) = CacheEvent.usedSince ip (e :: evs) := by
      intro ip' huses hlru
      rw [hlru]
      by_cases hip : ip' = ip
      · subst hip
        rw [CacheEvent.usedSince, List.takeWhile_cons_of_neg (by simp [huses])]
        simp [Lru.usedSince, Lru.since]
      · rw [Lru.usedSince_used hip, ih, CacheEvent.usedSince, CacheEvent.usedSince,
          List.takeWhile_cons_of_pos (by simp [huses, hip]), List.filterMap_cons_some huses]
    have hother : e.uses = none → CacheEvent.usedSince ip (e :: evs) = CacheEvent.usedSince ip evs := by
      intro huses
      rw [CacheEvent.usedSince, List.takeWhile_cons_of_pos (by simp [huses]), List.filterMap_cons_none huses]
      rfl
    cases e with
    | put ip' _ _ => exact hused ip' rfl rfl
    | hit ip' => exact hused ip' rfl rfl
    | expired ip' =>
      rw [hother rfl, ← ih]
      exact Lru.usedSince_dropped ip'
    | absent ip' =>
      rw [hother rfl, ← ih]
      rfl

/-- No `Put` of an address comes without a use of it, so what happened since the last use happened
since the last `Put`. -/
theorem expired_of_dropped {ip : String} {evs : List CacheEvent}
    (h : Lru.Event.dropped ip ∈ Lru.since ip (lruEvents evs)) : CacheEvent.expiredSincePut ip evs = true := by
  rw [CacheEvent.expiredSincePut, decide_eq_true_eq]
  induction evs with
  | nil => cases h
  | cons e evs ih =>
    have hused : ∀ ip', lruEvents (e :: evs) = .used ip' :: lruEvents evs →
        Lru.Event.dropped ip ∈ Lru.since ip (lruEvents evs) ∧ ip' ≠ ip := by
      intro ip' hlru
      rw [hlru] at h
      by_cases hip : ip' = ip
      · simp [Lru.since, hip] at h
      · rw [Lru.since_cons _ (by simpa using hip)] at h
        exact ⟨by simpa using h, hip⟩
    cases e with
    | put ip' hostname now =>
      obtain ⟨h, hip⟩ := hused ip' rfl
      rw [List.takeWhile_cons_of_pos (by simp [CacheEvent.puts, hip])]
      exact List.mem_cons_of_mem _ (ih h)
    | hit ip' =>
      rw [List.takeWhile_cons_of_pos rfl]
      exact List.mem_cons_of_mem _ (ih (hused ip' rfl).1)
    | expired ip' =>
      rw [List.takeWhile_cons_of_pos rfl]
      change Lru.Event.dropped ip ∈ Lru.since ip (.dropped ip' :: lruEvents evs) at h
      rw [Lru.since_cons _ (by simp)] at h
      rcases List.mem_cons.1 h with heq | h
      · rw [Lru.Event.dropped.inj heq]
        exact List.mem_cons_self
      · exact List.mem_cons_of_mem _ (ih h)
    | absent ip' =>
      rw [List.takeWhile_cons_of_pos rfl]
      exact List.mem_cons_of_mem _ (ih h)

theorem used_of_lastPut {ip : String} {evs : List CacheEvent} {p : String × Int}
    (h : CacheEvent.lastPut ip evs = some p) : Lru.Event.used ip ∈ lruEvents evs := by
  obtain ⟨e, he, hp⟩ := List.exists_of_findSome?_eq_some h
  refine List.mem_filterMap.2 ⟨e, he, ?_⟩
  cases e with
  | put ip' hostname now =>
    by_cases hip : ip' = ip
    · rw [hip]
    · simp [CacheEvent.puts, hip] at hp
  | hit ip' => cases hp
  | expired ip' => cases hp
  | absent ip' => cases hp

/-! ### What a run keeps -/

structure Caches (capacity ttl : Int) (c : HostnameCache) (evs : List CacheEvent) : Prop where
  linked : Linked c
  capacity_eq : c.capacity = capacity
  ttl_eq : c.ttl = ttl
  lru : Lru.Keeps capacity.toNat HostnameCacheEntry.ip c.entries (lruEvents evs)
  value : ∀ e ∈ c.entries, ∃ t, CacheEvent.lastPut e.ip evs = some (e.hostname, t) ∧ e.expires = t + ttl

variable {capacity ttl : Int} {evs : List CacheEvent}

theorem lastPut_cons {e : CacheEvent} {ip : String} (h : e.puts ip = none) :
    CacheEvent.lastPut ip (e :: evs) = CacheEvent.lastPut ip evs := by
  rw [CacheEvent.lastPut, List.findSome?_cons_of_isNone (by simp [h])]
  rfl

theorem Caches.put (h : Caches capacity ttl c evs) (hcap : 1 ≤ capacity) (ip hostname : String) (now : Int) :
    Caches capacity ttl (c.put ip hostname now) (.put ip hostname now :: evs) := by
  obtain ⟨hlinked, hentries, hcapacity, httl⟩ :=
    h.linked.put capacity.toNat (by rw [h.capacity_eq]; omega) ip hostname now
  refine ⟨hlinked, hcapacity.trans h.capacity_eq, httl.trans h.ttl_eq, ?_, ?_⟩
  · rw [hentries]
    exact h.lru.put (by omega) _
  · intro e he
    rw [hentries, h.ttl_eq] at he
    rcases Lru.eq_or_of_mem_put he with rfl | ⟨he, hne⟩
    · refine ⟨now, ?_, rfl⟩
      simp [CacheEvent.lastPut, CacheEvent.puts]
    · rw [lastPut_cons (by simpa [CacheEvent.puts] using Ne.symm hne)]
      exact h.value e he

theorem Caches.get (h : Caches capacity ttl c evs) (hcap : 1 ≤ capacity) (ip : String) (now : Int) :
    Caches capacity ttl (c.get ip now).1 (c.event (.get ip now) :: evs) := by
  have hindex : (c.index.lookup ip).isSome ↔ ip ∈ c.entries.map HostnameCacheEntry.ip := by
    rw [Option.isSome_iff_exists, h.linked.index_isSome_iff]
  rcases h.linked.get capacity.toNat ip now with
    ⟨habsent, hget⟩ | ⟨e, he, rfl, hlate, hget, hlinked, hentries, hcapacity, httl⟩ |
    ⟨e, he, rfl, hlive, hget, hlinked, hentries, hcapacity, httl⟩
  · have hev : c.event (.get ip now) = .absent ip := by
      simp [event, hget, hindex, habsent]
    rw [hev, hget]
    exact ⟨h.linked, h.capacity_eq, h.ttl_eq, h.lru, h.value⟩
  · have hev : c.event (.get e.ip now) = .expired e.ip := by
      simp [event, hget, hindex.2 (List.mem_map_of_mem he)]
    rw [hev]
    refine ⟨hlinked, hcapacity.trans h.capacity_eq, httl.trans h.ttl_eq, ?_, fun e' he' => ?_⟩
    · rw [hentries]
      exact h.lru.drop e.ip
    · rw [hentries] at he'
      exact h.value e' (Lru.mem_drop.1 he').1
  · have hev : c.event (.get e.ip now) = .hit e.ip := by
      simp [event, hget]
    rw [hev]
    refine ⟨hlinked, hcapacity.trans h.capacity_eq, httl.trans h.ttl_eq, ?_, fun e' he' => ?_⟩
    · rw [hentries]
      exact h.lru.put (by omega) e
    · rw [hentries] at he'
      rcases Lru.eq_or_of_mem_put he' with rfl | ⟨he', -⟩
      · exact h.value e' he
      · exact h.value e' he'

theorem caches_run (hcap : 1 ≤ capacity) (ttl : Int) (calls : List CacheCall) :
    Caches capacity ttl ((newHostnameCache capacity ttl).run calls).1 ((newHostnameCache capacity ttl).run calls).2 := by
  induction calls using List.reverseRecOn with
  | nil => exact ⟨.new capacity ttl, rfl, rfl, .nil, nofun⟩
  | append_singleton calls call ih =>
    rw [run, List.foldl_append]
    cases call with
    | put ip hostname now => exact ih.put hcap ip hostname now
    | get ip now => exact ih.get hcap ip now

/-- After any calls the list and the index hold the same entries, each address once and at most
`capacity` of them; a hit is the last name put for the address, in its time; a miss has one of four
reasons; and a `Put` pushes out the entry whose last use is the oldest. -/
theorem lru_of_calls {capacity : Int} (hcap : 1 ≤ capacity) (ttl : Int) (calls : List CacheCall) :
    let c := ((newHostnameCache capacity ttl).run calls).1
    let evs := ((newHostnameCache capacity ttl).run calls).2
    Linked c ∧ (c.entries.map HostnameCacheEntry.ip).Nodup ∧ c.ll.length ≤ capacity ∧
      (∀ ip now c' hostname, c.get ip now = (c', hostname, true) →
        ∃ t, CacheEvent.lastPut ip evs = some (hostname, t) ∧ now ≤ t + ttl) ∧
      (∀ ip now c' hostname, c.get ip now = (c', hostname, false) →
        CacheEvent.lastPut ip evs = none ∨
        (∃ hostname t, CacheEvent.lastPut ip evs = some (hostname, t) ∧ t + ttl < now) ∨
        CacheEvent.expiredSincePut ip evs ∨
        capacity ≤ (CacheEvent.usedSince ip evs).dedup.length) ∧
      ∀ ip hostname now, ∀ e ∈ c.entries,
        e.ip ∉ (c.put ip hostname now).entries.map HostnameCacheEntry.ip →
        ∀ e' ∈ c.entries, e'.ip ≠ e.ip → e'.ip ∈ CacheEvent.usedSince e.ip evs := by
  intro c evs
  have h : Caches capacity ttl c evs := caches_run hcap ttl calls
  have hlength : c.ll.length ≤ capacity := by
    have := h.lru.length_le
    rw [h.linked.length_entries] at this
    omega
  refine ⟨h.linked, h.lru.nodup, hlength, ?_, ?_, ?_⟩
  · intro ip now c' hostname hit
    rcases h.linked.get capacity.toNat ip now with ⟨-, hget⟩ | ⟨e, he, rfl, -, hget, -⟩ | ⟨e, he, rfl, hlive, hget, -⟩
    · rw [hget] at hit
      cases hit
    · rw [hit] at hget
      cases hget
    · rw [hit] at hget
      obtain ⟨t, hput, ht⟩ := h.value e he
      refine ⟨t, ?_, by omega⟩
      rw [hput, (Prod.mk.inj hget).1]
  · intro ip now c' hostname hmiss
    rcases h.linked.get capacity.toNat ip now with ⟨habsent, -⟩ | ⟨e, he, rfl, hlate, -⟩ | ⟨e, he, rfl, -, hget, -⟩
    · cases hput : CacheEvent.lastPut ip evs with
      | none => exact .inl rfl
      | some p =>
        right; right
        rcases h.lru.absent ip habsent (used_of_lastPut hput) with hdropped | hpushed
        · exact .inl (expired_of_dropped hdropped)
        · rw [usedSince_lruEvents] at hpushed
          exact .inr (by omega)
    · obtain ⟨t, hput, ht⟩ := h.value e he
      exact .inr (.inl ⟨e.hostname, t, hput, by omega⟩)
    · rw [hmiss] at hget
      cases hget
  · intro ip hostname now e he hout e' he' hne
    obtain ⟨-, hentries, -⟩ := h.linked.put capacity.toNat (by rw [h.capacity_eq]; omega) ip hostname now
    rw [hentries] at hout
    rw [← usedSince_lruEvents]
    exact h.lru.evicts_oldest he hout he' hne

/-- A cache of two entries: the hit on the first saves it from the third `Put`, which evicts the second. -/
theorem lru_of_calls_two :
    (1 : Int) ≤ 2 ∧
      (((newHostnameCache 2 10).run [.put "a" "x" 0, .put "b" "y" 1, .get "a" 2, .put "c" "z" 3]).1.entries.map
        HostnameCacheEntry.ip) = ["c", "a"] ∧
      "a" ∈ CacheEvent.usedSince "b" ((newHostnameCache 2 10).run [.put "a" "x" 0, .put "b" "y" 1, .get "a" 2]).2 := by
  refine ⟨by decide, by decide +kernel, ?_⟩
  obtain ⟨-, -, -, -, -, hevicted⟩ :=
    lru_of_calls (show (1 : Int) ≤ 2 by decide) 10 [.put "a" "x" 0, .put "b" "y" 1, .get "a" 2]
  exact hevicted "c" "z" 3 ⟨"b", "y", 11⟩ (by decide +kernel) (by decide +kernel) ⟨"a", "x", 10⟩ (by decide +kernel)
    (by decide)

end HostnameCache
end Trafficmon
