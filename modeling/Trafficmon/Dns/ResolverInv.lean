import Trafficmon.Dns.Resolver

/-!
# What every interleaving of lookups and resolves keeps (`dns/resolver.go`)

`Inv` relates the marks in `inflight`, the slots held and the tasks: a mark stands for the one task of
its address that is before its locked section, and a slot for a task that has not finished. The cache
is a `Generations` (`Resolver.cache`), and no address is marked and cached at once, so a task never
records an address that is cached.
-/

namespace Trafficmon

namespace Resolver
variable {r : Resolver} {ip : String}

def cache (r : Resolver) : Generations String LookupResult := ⟨r.cur, r.prev, r.maxCacheEntries⟩

def withCache (r : Resolver) (g : Generations String LookupResult) : Resolver := { r with cur := g.cur, prev := g.prev }

/-! ### One locked section -/

theorem put_eq (r : Resolver) (ip : String) (res : LookupResult) : r.put ip res = r.withCache (r.cache.put ip res) := by
  unfold put Generations.put withCache cache
  dsimp only
  split <;> rfl

theorem get_eq (r : Resolver) (ip : String) : r.get ip = (r.withCache (r.cache.get ip).1, r.cache.find ip) := by
  have hfind : r.cache.find ip = (r.cur.lookup ip).or (r.prev.lookup ip) := rfl
  unfold get Generations.get
  rw [hfind, show r.cache.cur = r.cur from rfl, show r.cache.prev = r.prev from rfl]
  cases r.cur.lookup ip with
  | some res => rfl
  | none =>
    cases r.prev.lookup ip with
    | some res => exact congrArg (·, some res) (put_eq r ip res)
    | none => rfl

theorem cache_withCache {g : Generations String LookupResult} (h : g.max = r.maxCacheEntries) :
    (r.withCache g).cache = g := by
  obtain ⟨cur, prev, max⟩ := g
  obtain rfl : max = r.maxCacheEntries := h
  rfl

theorem cache_put (r : Resolver) (ip : String) (res : LookupResult) : (r.put ip res).cache = r.cache.put ip res := by
  rw [put_eq, cache_withCache (Generations.put_max _ _ _)]

theorem cache_get (r : Resolver) (ip : String) : (r.withCache (r.cache.get ip).1).cache = (r.cache.get ip).1 :=
  cache_withCache (Generations.step_max r.cache (.get ip))

/-- What a `Lookup` can do: nothing, find the address in the cache, or start a `resolve`. -/
theorem lookup_cases (r : Resolver) (ip : String) :
    (r.lookup ip = (r, ip, false) ∧ (ip = "" ∨ r.cache.find ip = none)) ∨
      (∃ res, ip ≠ "" ∧ r.cache.find ip = some res ∧
        r.lookup ip = (r.withCache (r.cache.get ip).1, shown ip res, false)) ∨
      (r.cache.find ip = none ∧ ip ∉ r.inflight ∧ r.held < r.maxConcurrent ∧
        r.lookup ip = ({ r with held := r.held + 1, inflight := r.inflight.insert ip () }, ip, true)) := by
  unfold lookup
  by_cases hip : ip = ""
  · rw [if_pos hip]
    exact .inl ⟨rfl, .inl hip⟩
  · rw [if_neg hip, get_eq]
    cases hf : r.cache.find ip with
    | some res => exact .inr (.inl ⟨res, hip, rfl, rfl⟩)
    | none =>
      have hget : r.withCache (r.cache.get ip).1 = r := by
        obtain ⟨-, ⟨hg, -⟩ | ⟨v, -, hv, -⟩⟩ := r.cache.get_cases ip
        · rw [hg]
          rfl
        · rw [hf] at hv
          cases hv
      rw [hget]
      dsimp only
      by_cases hbusy : ip ∈ r.inflight
      · rw [if_pos (AList.lookup_isSome.2 hbusy)]
        exact .inl ⟨rfl, .inr rfl⟩
      · rw [if_neg (fun h => hbusy (AList.lookup_isSome.1 h))]
        split
        · exact .inr (.inr ⟨rfl, hbusy, ‹_›, rfl⟩)
        · exact .inl ⟨rfl, .inr rfl⟩

/-- The locked section takes the mark back; it writes to the cache unless the context is cancelled. -/
theorem record_cache (r : Resolver) (cancelled : Bool) (ip : String) (a : Answer) :
    (r.record cancelled ip a).cache = if cancelled then r.cache else r.cache.put ip (resultOf a) := by
  cases cancelled with
  | true => rfl
  | false => exact cache_put _ ip (resultOf a)

theorem record_frame (r : Resolver) (cancelled : Bool) (ip : String) (a : Answer) :
    (r.record cancelled ip a).inflight = r.inflight.erase ip ∧ (r.record cancelled ip a).held = r.held ∧
      (r.record cancelled ip a).maxConcurrent = r.maxConcurrent := by
  cases cancelled with
  | true => exact ⟨rfl, rfl, rfl⟩
  | false =>
    show (Resolver.put _ _ _).inflight = _ ∧ (Resolver.put _ _ _).held = _ ∧ (Resolver.put _ _ _).maxConcurrent = _
    rw [put_eq]
    exact ⟨rfl, rfl, rfl⟩

end Resolver

namespace ResolverSystem
variable {s : ResolverSystem} {i : Nat} {t : Task} {ip : String}

/-! ### What a step can do -/

theorem step_lookup_cases (s : ResolverSystem) (ctx : Nat) (ip : String) :
    s.step (.lookup ctx ip) = s ∨
      (∃ res, s.resolver.cache.find ip = some res ∧
        s.step (.lookup ctx ip) = { s with resolver := s.resolver.withCache (s.resolver.cache.get ip).1 }) ∨
      (s.resolver.cache.find ip = none ∧ ip ∉ s.resolver.inflight ∧ s.resolver.held < s.resolver.maxConcurrent ∧
        s.step (.lookup ctx ip) =
          { s with
            resolver :=
              { s.resolver with
                held := s.resolver.held + 1
                inflight := s.resolver.inflight.insert ip () }
            tasks := s.tasks ++ [{ ip := ip, ctx := ctx }] }) := by
  rcases s.resolver.lookup_cases ip with ⟨hl, -⟩ | ⟨res, -, hfind, hl⟩ | ⟨hfind, hfree, hroom, hl⟩
  · left
    rw [step, hl]
    rfl
  · right; left
    refine ⟨res, hfind, ?_⟩
    rw [step, hl]
    rfl
  · right; right
    refine ⟨hfind, hfree, hroom, ?_⟩
    rw [step, hl]
    rfl

theorem step_record_cases (s : ResolverSystem) (i : Nat) :
    s.step (.record i) = s ∨ ∃ t a, s.tasks[i]? = some t ∧ t.phase = .decided a ∧
      s.step (.record i) =
        { s with
          resolver := s.resolver.record (t.ctx ∈ s.cancelled) t.ip a
          tasks := s.tasks.set i { t with phase := .recorded } } := by
  cases ht : s.tasks[i]? with
  | none => exact .inl (by simp only [step, ht])
  | some t =>
    cases hp : t.phase with
    | decided a => exact .inr ⟨t, a, rfl, hp, by simp only [step, ht, hp]⟩
    | querying => exact .inl (by simp only [step, ht, hp])
    | recorded => exact .inl (by simp only [step, ht, hp])
    | finished => exact .inl (by simp only [step, ht, hp])

theorem step_release_cases (s : ResolverSystem) (i : Nat) :
    s.step (.release i) = s ∨ ∃ t, s.tasks[i]? = some t ∧ t.phase = .recorded ∧
      s.step (.release i) =
        { s with
          resolver := { s.resolver with held := s.resolver.held - 1 }
          tasks := s.tasks.set i { t with phase := .finished } } := by
  cases ht : s.tasks[i]? with
  | none => exact .inl (by simp only [step, ht])
  | some t =>
    cases hp : t.phase with
    | recorded => exact .inr ⟨t, rfl, hp, by simp only [step, ht, hp]⟩
    | querying => exact .inl (by simp only [step, ht, hp])
    | decided a => exact .inl (by simp only [step, ht, hp])
    | finished => exact .inl (by simp only [step, ht, hp])

/-! ### The invariant -/

structure Inv (s : ResolverSystem) : Prop where
  valid : s.resolver.cache.Valid
  apart : ∀ ip ∈ s.resolver.inflight, s.resolver.cache.find ip = none
  /-- A mark stands for the one task of its address that is before its locked section. -/
  marked : ∀ ip, s.tasks.countP (fun t => t.pending ∧ t.ip = ip) = if ip ∈ s.resolver.inflight then 1 else 0
  marks : s.resolver.inflight.keys.length = s.tasks.countP Task.pending
  slots : s.resolver.held = s.tasks.countP fun t => t.phase ≠ .finished
  bound : s.resolver.held ≤ s.resolver.maxConcurrent

theorem Inv.new (opts : List ResolverOption) : Inv (newSystem opts) := by
  have hnew : ∀ r : Resolver, r = Resolver.newResolverWith opts → r.cur = ∅ ∧ r.prev = ∅ ∧ r.inflight = ∅ ∧
      r.held = 0 ∧ 1 ≤ r.maxConcurrent ∧ 1 ≤ r.maxCacheEntries := by
    rintro r rfl
    unfold Resolver.newResolverWith
    induction opts using List.reverseRecOn with
    | nil => exact ⟨rfl, rfl, rfl, rfl, by decide, by decide⟩
    | append_singleton opts opt ih =>
      obtain ⟨hc, hp, hi, hh, hm, he⟩ := ih
      rw [List.foldl_append]
      cases opt with
      | withLookupTimeout d => exact ⟨hc, hp, hi, hh, hm, he⟩
      | withMaxConcurrent n => exact ⟨hc, hp, hi, hh, by show 1 ≤ (max n 1).toNat; omega, he⟩
      | withMaxCacheEntries n => exact ⟨hc, hp, hi, hh, hm, by show 1 ≤ (max n 1).toNat; omega⟩
  obtain ⟨hc, hp, hi, hh, hm, he⟩ := hnew _ rfl
  refine ⟨?_, ?_, ?_, ?_, hh, by rw [show (newSystem opts).resolver.held = 0 from hh]; exact Nat.zero_le _⟩
  · show Generations.Valid ⟨_, _, _⟩
    rw [show (newSystem opts).resolver.cur = ∅ from hc, show (newSystem opts).resolver.prev = ∅ from hp]
    exact .empty he
  · intro ip hip
    rw [show (newSystem opts).resolver.inflight = ∅ from hi] at hip
    cases hip
  · intro ip
    rw [show (newSystem opts).resolver.inflight = ∅ from hi]
    rfl
  · rw [show (newSystem opts).resolver.inflight = ∅ from hi]
    rfl

theorem countP_modify {p : Task → Bool} {f : Task → Task} (h : ∀ t, p (f t) = p t) (l : List Task) (i : Nat) :
    (l.modify i f).countP p = l.countP p := by
  induction l generalizing i with
  | nil => simp
  | cons t l ih =>
    cases i with
    | zero => simp [List.countP_cons, h]
    | succ i => simp [List.countP_cons, ih]

/-- A change to one task that leaves alone its address and whether it has recorded or finished. -/
theorem Inv.onTask (h : Inv s) {f : Task → Task}
    (hf : ∀ t, (f t).ip = t.ip ∧ (f t).pending = t.pending ∧ ((f t).phase = .finished ↔ t.phase = .finished)) (i : Nat) :
    Inv (s.onTask i f) where
  valid := h.valid
  apart := h.apart
  marked ip := by
    refine Eq.trans ?_ (h.marked ip)
    refine countP_modify (fun t => ?_) s.tasks i
    rw [(hf t).1, (hf t).2.1]
  marks := by
    rw [show (s.onTask i f).tasks = s.tasks.modify i f from rfl, countP_modify fun t => (hf t).2.1]
    exact h.marks
  slots := by
    rw [show (s.onTask i f).tasks = s.tasks.modify i f from rfl, countP_modify]
    · exact h.slots
    · intro t
      simp [(hf t).2.2]
  bound := h.bound

theorem Inv.lookup (h : Inv s) (ctx : Nat) (ip : String) : Inv (s.step (.lookup ctx ip)) := by
  rcases s.step_lookup_cases ctx ip with hl | ⟨res, hfind, hl⟩ | ⟨hfind, hfree, hroom, hl⟩
  · rw [hl]
    exact h
  · rw [hl]
    refine ⟨?_, ?_, h.marked, h.marks, h.slots, h.bound⟩
    · show Generations.Valid (Resolver.cache _)
      rw [Resolver.cache_get]
      exact h.valid.get ip
    · intro j hj
      show (Resolver.cache _).find j = none
      rw [Resolver.cache_get]
      cases hg : (s.resolver.cache.get ip).1.find j with
      | none => rfl
      | some w =>
        have := h.apart j hj
        rw [Generations.find_of_find_get hg] at this
        cases this
  · -- a new mark, a new task and a slot for it
    rw [hl]
    refine ⟨h.valid, ?_, ?_, ?_, ?_, hroom⟩
    · intro j hj
      rcases (AList.mem_insert _).1 hj with rfl | hj
      · exact hfind
      · exact h.apart j hj
    · intro j
      dsimp only
      rw [List.countP_append, h.marked j]
      by_cases hj : j = ip
      · subst hj
        simp [hfree, Task.pending]
      · simp [hj, Ne.symm hj, AList.mem_insert]
    · dsimp only
      rw [AList.keys_insert, List.length_cons, List.erase_of_not_mem (fun hm => hfree (AList.mem_keys.2 hm)), h.marks,
        List.countP_append]
      rfl
    · dsimp only
      rw [h.slots, List.countP_append]
      rfl

/-- The tasks that `p` counts when task `i` stops being one of them. -/
theorem countP_set_of_pos {p : Task → Bool} (t' : Task) (ht : s.tasks[i]? = some t) (hp : p t = true)
    (hp' : p t' = false) :
    (s.tasks.set i t').countP p + 1 = s.tasks.countP p := by
  obtain ⟨hi, hget⟩ := List.getElem?_eq_some_iff.1 ht
  have hpos : 0 < s.tasks.countP p := List.countP_pos_iff.2 ⟨t, List.mem_of_getElem? ht, hp⟩
  rw [List.countP_set hi, hget, hp, hp']
  simp
  omega

theorem countP_set_of_eq {p : Task → Bool} (t' : Task) (ht : s.tasks[i]? = some t) (hp : p t' = p t) :
    (s.tasks.set i t').countP p = s.tasks.countP p := by
  obtain ⟨hi, hget⟩ := List.getElem?_eq_some_iff.1 ht
  have hpos : p t = true → 0 < s.tasks.countP p := fun h => List.countP_pos_iff.2 ⟨t, List.mem_of_getElem? ht, h⟩
  rw [List.countP_set hi, hget, hp]
  cases hpt : p t with
  | false => simp
  | true =>
    have := hpos hpt
    simp
    omega

/-- The address of a task before its locked section is marked, and it is the only such task. -/
theorem Inv.mem_inflight (h : Inv s) (ht : s.tasks[i]? = some t) (hp : t.pending) : t.ip ∈ s.resolver.inflight := by
  by_contra hnot
  have hzero := h.marked t.ip
  rw [if_neg hnot, List.countP_eq_zero] at hzero
  exact hzero t (List.mem_of_getElem? ht) (by simp [hp])

theorem Inv.record (h : Inv s) (i : Nat) : Inv (s.step (.record i)) := by
  rcases s.step_record_cases i with hr | ⟨t, a, ht, hphase, hr⟩
  · rw [hr]
    exact h
  · have hpending : t.pending := by simp [Task.pending, hphase]
    have hmark := h.mem_inflight ht hpending
    have hfind := h.apart t.ip hmark
    obtain ⟨hinflight, hheld, hmax⟩ := s.resolver.record_frame (t.ctx ∈ s.cancelled) t.ip a
    have hcache := s.resolver.record_cache (t.ctx ∈ s.cancelled) t.ip a
    rw [hr]
    refine ⟨?_, ?_, ?_, ?_, ?_, ?_⟩
    · dsimp only
      rw [hcache]
      split
      · exact h.valid
      · -- nothing was cached for the address
        exact h.valid.put fun w hw => by rw [hfind] at hw; cases hw
    · intro j hj
      dsimp only at hj ⊢
      rw [hinflight, AList.mem_erase] at hj
      rw [hcache]
      split
      · exact h.apart j hj.2
      · cases hg : (s.resolver.cache.put t.ip (Resolver.resultOf a)).find j with
        | none => rfl
        | some w =>
          have := h.apart j hj.2
          rw [Generations.find_of_find_put hj.1 hg] at this
          cases this
    · intro j
      simp only [hinflight, AList.mem_erase]
      by_cases hj : j = t.ip
      · subst hj
        have hone := h.marked t.ip
        rw [if_pos hmark] at hone
        have hless := countP_set_of_pos (p := fun u => u.pending ∧ u.ip = t.ip) { t with phase := .recorded } ht
          (by simp [hpending]) (by simp [Task.pending])
        rw [if_neg (fun hne => hne.1 rfl)]
        omega
      · rw [countP_set_of_eq _ ht (by simp [Ne.symm hj]), h.marked j]
        simp [hj]
    · dsimp only
      rw [hinflight, AList.keys_erase, List.length_erase_of_mem (AList.mem_keys.1 hmark), h.marks]
      have hless := countP_set_of_pos (p := Task.pending) { t with phase := .recorded } ht hpending rfl
      omega
    · dsimp only
      rw [hheld, h.slots, countP_set_of_eq _ ht]
      simp [hphase]
    · dsimp only
      rw [hheld, hmax]
      exact h.bound

theorem Inv.release (h : Inv s) (i : Nat) : Inv (s.step (.release i)) := by
  rcases s.step_release_cases i with hr | ⟨t, ht, hphase, hr⟩
  · rw [hr]
    exact h
  · have hpending : ({ t with phase := .finished } : Task).pending = t.pending := by simp [Task.pending, hphase]
    rw [hr]
    refine ⟨h.valid, h.apart, fun ip => ?_, ?_, ?_, ?_⟩
    · dsimp only
      rw [countP_set_of_eq _ ht (by rw [hpending]), h.marked ip]
    · dsimp only
      rw [countP_set_of_eq _ ht hpending]
      exact h.marks
    · dsimp only
      have hless := countP_set_of_pos (p := fun u => u.phase ≠ .finished) { t with phase := .finished } ht
        (by simp [hphase]) (by simp)
      rw [h.slots]
      omega
    · exact Nat.le_trans (Nat.sub_le _ _) h.bound

/-- The steps of a task outside the resolver's lock. -/
theorem task_frame (t : Task) (a : Answer) (cancelled : List Nat) :
    ∀ t' ∈ [send a t, take t, giveUp cancelled t, { t with expired := true }],
      t'.ip = t.ip ∧ t'.pending = t.pending ∧ (t'.phase = .finished ↔ t.phase = .finished) := by
  intro t' ht'
  simp only [List.mem_cons, List.not_mem_nil, or_false] at ht'
  rcases ht' with rfl | rfl | rfl | rfl
  · unfold send
    split <;> exact ⟨rfl, rfl, Iff.rfl⟩
  · unfold take
    split
    · simp [Task.pending, *]
    · exact ⟨rfl, rfl, Iff.rfl⟩
  · unfold giveUp
    split
    · rename_i hq
      simp [Task.pending, hq.1]
    · exact ⟨rfl, rfl, Iff.rfl⟩
  · exact ⟨rfl, rfl, Iff.rfl⟩

theorem Inv.step (h : Inv s) (e : ResolverEvent) : Inv (s.step e) := by
  cases e with
  | lookup ctx ip => exact h.lookup ctx ip
  | answer i a => exact h.onTask (fun t => task_frame t a s.cancelled _ (by simp)) i
  | deadline i => exact h.onTask (fun t => task_frame t ⟨[], true⟩ s.cancelled _ (by simp)) i
  | cancel ctx => exact ⟨h.valid, h.apart, h.marked, h.marks, h.slots, h.bound⟩
  | take i => exact h.onTask (fun t => task_frame t ⟨[], true⟩ s.cancelled _ (by simp)) i
  | giveUp i => exact h.onTask (fun t => task_frame t ⟨[], true⟩ s.cancelled _ (by simp)) i
  | record i => exact h.record i
  | release i => exact h.release i

theorem Inv.run (h : Inv s) (es : List ResolverEvent) : Inv (s.run es) := by
  induction es generalizing s with
  | nil => exact h
  | cons e es ih => exact ih (h.step e)

theorem Inv.inflight_le_held (h : Inv s) : s.resolver.inflight.keys.length ≤ s.resolver.held := by
  rw [h.marks, h.slots]
  refine List.countP_mono_left fun t _ hp => ?_
  cases hphase : t.phase <;> simp [Task.pending, hphase] at hp ⊢

end ResolverSystem
end Trafficmon
