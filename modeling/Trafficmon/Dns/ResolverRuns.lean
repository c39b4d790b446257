import Trafficmon.Dns.ResolverInv

/-!
# What lookups return over a run (`dns/resolver.go`)

An answer that comes after its task left the `select` changes nothing later on: `settle` forgets such
answers, and a step does not see the difference. A cached name can be lost but not change, so lookups
of an address that stays cached agree; and a name just used stays for as many puts as one generation
of the cache holds.
-/

namespace Trafficmon
namespace ResolverSystem
variable {s : ResolverSystem} {ip : String}

/-! ### Late answers -/

/-- The task without an answer that nobody reads any more. -/
def settled (t : Task) : Task := if t.phase = .querying then t else { t with sent := none }

def settle (s : ResolverSystem) : ResolverSystem := { s with tasks := s.tasks.map settled }

@[simp] theorem settled_phase (t : Task) : (settled t).phase = t.phase := by
  unfold settled
  split <;> rfl

theorem settled_frame (t : Task) : (settled t).ip = t.ip ∧ (settled t).ctx = t.ctx := by
  unfold settled
  split <;> exact ⟨rfl, rfl⟩

theorem settled_of_ne {t : Task} (h : t.phase ≠ .querying) : settled t = { t with sent := none } := if_neg h

@[simp] theorem settled_settled (t : Task) : settled (settled t) = settled t := by
  by_cases h : t.phase = .querying
  · simp [settled, h]
  · simp [settled, h]

/-- `f` does to a task what it does to the settled task. -/
def Blind (f : Task → Task) : Prop := ∀ t, settled (f (settled t)) = settled (f t)

theorem settle_onTask {f : Task → Task} (hf : Blind f) (s : ResolverSystem) (i : Nat) :
    (s.settle.onTask i f).settle = (s.onTask i f).settle := by
  have hmodify : ∀ l : List Task, ((l.map settled).modify i f).map settled = (l.modify i f).map settled := by
    intro l
    induction l generalizing i with
    | nil => simp
    | cons t l ih =>
      cases i with
      | zero => simp [hf t]
      | succ i => simp [ih]
  show ({ s with tasks := _ } : ResolverSystem) = { s with tasks := _ }
  rw [ResolverSystem.mk.injEq]
  exact ⟨rfl, hmodify s.tasks, rfl⟩

/-- Where the task is still in the `select`, settling it changes nothing. -/
theorem blind_of_ne {f : Task → Task} (hf : ∀ t, t.phase ≠ .querying → settled (f (settled t)) = settled (f t)) :
    Blind f := by
  intro t
  by_cases h : t.phase = .querying
  · rw [show settled t = t from if_pos h]
  · exact hf t h

theorem settled_send {t : Task} (h : t.phase ≠ .querying) (a : Answer) : settled (send a t) = settled t := by
  unfold send
  split
  · rw [settled_of_ne h, settled_of_ne (by exact h)]
  · rfl

theorem blind_send (a : Answer) : Blind (send a) := by
  refine blind_of_ne fun t h => ?_
  rw [settled_send h, settled_send (by simpa using h), settled_settled]

theorem blind_deadline : Blind fun t => { t with expired := true } := by
  refine blind_of_ne fun t h => ?_
  rw [settled_of_ne h, settled_of_ne (by exact h), settled_of_ne (by exact h)]

theorem blind_take : Blind take := by
  have htake : ∀ u : Task, u.phase ≠ .querying → take u = u := by
    intro u hu
    unfold take
    split
    · exact absurd ‹_› hu
    · rfl
  refine blind_of_ne fun t h => ?_
  rw [htake t h, htake (settled t) (by simpa using h), settled_settled]

theorem blind_giveUp (cancelled : List Nat) : Blind (giveUp cancelled) := by
  have hgive : ∀ u : Task, u.phase ≠ .querying → giveUp cancelled u = u := fun u hu => if_neg fun hq => hu hq.1
  refine blind_of_ne fun t h => ?_
  rw [hgive t h, hgive (settled t) (by simpa using h), settled_settled]

theorem settle_settle (s : ResolverSystem) : s.settle.settle = s.settle := by
  simp [settle]

/-- A task past the `select` goes through its locked section, and on, whatever was sent to it. -/
theorem settled_with_phase {t : Task} {p : Phase} (hp : p ≠ .querying) (ht : t.phase ≠ .querying) :
    settled { settled t with phase := p } = settled { t with phase := p } := by
  rw [settled_of_ne ht, settled_of_ne (by exact hp), settled_of_ne (by exact hp)]

theorem map_settled_set (l : List Task) (i : Nat) {t : Task} {p : Phase} (hp : p ≠ .querying) (ht : t.phase ≠ .querying) :
    ((l.map settled).set i { settled t with phase := p }).map settled = (l.set i { t with phase := p }).map settled := by
  rw [List.map_set, List.map_set, settled_with_phase hp ht, List.map_map]
  congr 1
  exact List.map_congr_left fun u _ => settled_settled u

theorem settle_step (s : ResolverSystem) (e : ResolverEvent) : (s.settle.step e).settle = (s.step e).settle := by
  cases e with
  | lookup ctx ip =>
    show ({ s with resolver := _, tasks := _ } : ResolverSystem) = { s with resolver := _, tasks := _ }
    rw [ResolverSystem.mk.injEq]
    refine ⟨rfl, ?_, rfl⟩
    show List.map settled (if (s.resolver.lookup ip).2.2 then s.tasks.map settled ++ _ else s.tasks.map settled) =
      List.map settled (if (s.resolver.lookup ip).2.2 then _ else _)
    split <;> simp
  | answer i a => exact settle_onTask (blind_send a) s i
  | deadline i => exact settle_onTask blind_deadline s i
  | cancel ctx => simp [settle, step]
  | take i => exact settle_onTask blind_take s i
  | giveUp i => exact settle_onTask (blind_giveUp s.cancelled) s i
  | record i =>
    have hget : s.settle.tasks[i]? = s.tasks[i]?.map settled := List.getElem?_map
    simp only [step, hget]
    cases ht : s.tasks[i]? with
    | none => exact settle_settle s
    | some t =>
      simp only [Option.map_some, settled_phase]
      cases hp : t.phase with
      | decided a =>
        have hset := map_settled_set s.tasks i (t := t) (p := .recorded) (by simp) (by simp [hp])
        show ({ s with
            resolver := s.resolver.record ((settled t).ctx ∈ s.cancelled) (settled t).ip a
            tasks := _ } : ResolverSystem) =
          { s with
            resolver := s.resolver.record (t.ctx ∈ s.cancelled) t.ip a
            tasks := _ }
        rw [ResolverSystem.mk.injEq]
        refine ⟨?_, hset, rfl⟩
        simp only [(settled_frame t).1, (settled_frame t).2]
      | querying => exact settle_settle s
      | recorded => exact settle_settle s
      | finished => exact settle_settle s
  | release i =>
    have hget : s.settle.tasks[i]? = s.tasks[i]?.map settled := List.getElem?_map
    simp only [step, hget]
    cases ht : s.tasks[i]? with
    | none => exact settle_settle s
    | some t =>
      simp only [Option.map_some, settled_phase]
      cases hp : t.phase with
      | recorded =>
        have hset := map_settled_set s.tasks i (t := t) (p := .finished) (by simp) (by simp [hp])
        show ({ s with
            resolver := { s.resolver with held := s.resolver.held - 1 }
            tasks := _ } : ResolverSystem) =
          { s with
            resolver := { s.resolver with held := s.resolver.held - 1 }
            tasks := _ }
        rw [ResolverSystem.mk.injEq]
        exact ⟨rfl, hset, rfl⟩
      | querying => exact settle_settle s
      | decided a => exact settle_settle s
      | finished => exact settle_settle s

theorem settle_run {s s' : ResolverSystem} (h : s.settle = s'.settle) (es : List ResolverEvent) :
    (s.run es).settle = (s'.run es).settle := by
  induction es generalizing s s' with
  | nil => exact h
  | cons e es ih =>
    refine ih ?_
    rw [← settle_step s, ← settle_step s', h]

/-- An answer for a task that is out of its `select` leaves every later resolver as it is. -/
theorem late_answer {i : Nat} {t : Task} (ht : s.tasks[i]? = some t) (hphase : t.phase ≠ .querying) (a : Answer)
    (es : List ResolverEvent) : ((s.step (.answer i a)).run es).resolver = (s.run es).resolver := by
  have hsettle : (s.step (.answer i a)).settle = s.settle := by
    have hmodify : (s.tasks.modify i (send a)).map settled = s.tasks.map settled := by
      refine List.ext_getElem? fun j => ?_
      rw [List.getElem?_map, List.getElem?_map, List.getElem?_modify]
      by_cases hj : i = j
      · subst hj
        rw [ht]
        simp [settled_send hphase]
      · simp [hj]
    show ({ s with tasks := _ } : ResolverSystem) = { s with tasks := _ }
    rw [ResolverSystem.mk.injEq]
    exact ⟨rfl, hmodify, rfl⟩
  have hrun := congrArg ResolverSystem.resolver (settle_run hsettle es)
  exact hrun

/-! ### A cached name does not change -/

def Cached (r : Resolver) (ip : String) : Prop := ip ∈ r.cur ∨ ip ∈ r.prev

theorem cached_iff {r : Resolver} : Cached r ip ↔ ∃ res, r.cache.find ip = some res := by
  unfold Cached Generations.find
  rw [← AList.lookup_isSome, ← AList.lookup_isSome, ← Option.isSome_iff_exists, Option.isSome_or, Bool.or_eq_true]
  rfl

theorem Inv.find_step (h : Inv s) {e : ResolverEvent} {res res' : LookupResult}
    (hres : s.resolver.cache.find ip = some res) (hres' : (s.step e).resolver.cache.find ip = some res') :
    res' = res := by
  have hsame : (s.step e).resolver.cache = s.resolver.cache → res' = res := by
    intro heq
    rw [heq, hres] at hres'
    exact (Option.some.inj hres').symm
  cases e with
  | lookup ctx j =>
    rcases s.step_lookup_cases ctx j with hl | ⟨-, -, hl⟩ | ⟨-, -, -, hl⟩
    · exact hsame (by rw [hl])
    · rw [hl] at hres'
      change (Resolver.cache _).find ip = some res' at hres'
      rw [Resolver.cache_get] at hres'
      rw [Generations.find_of_find_get hres'] at hres
      exact Option.some.inj hres
    · exact hsame (by rw [hl]; rfl)
  | record i =>
    rcases s.step_record_cases i with hr | ⟨t, a, ht, hphase, hr⟩
    · exact hsame (by rw [hr])
    · rw [hr] at hres'
      dsimp only at hres'
      rw [Resolver.record_cache] at hres'
      split at hres'
      · rw [hres] at hres'
        exact (Option.some.inj hres').symm
      · have hne : ip ≠ t.ip := by
          -- a task records an address that is not cached
          rintro rfl
          have hnone := h.apart t.ip (h.mem_inflight ht (by simp [Task.pending, hphase]))
          rw [hres] at hnone
          cases hnone
        rw [Generations.find_of_find_put hne hres'] at hres
        exact Option.some.inj hres
  | release i =>
    rcases s.step_release_cases i with hr | ⟨t, -, -, hr⟩
    · exact hsame (by rw [hr])
    · exact hsame (by rw [hr]; rfl)
  | answer i a => exact hsame rfl
  | deadline i => exact hsame rfl
  | cancel ctx => exact hsame rfl
  | take i => exact hsame rfl
  | giveUp i => exact hsame rfl

theorem Inv.find_run (h : Inv s) {es : List ResolverEvent} {res : LookupResult}
    (hres : s.resolver.cache.find ip = some res) (hstay : ∀ pre, pre <+: es → Cached (s.run pre).resolver ip) :
    (s.run es).resolver.cache.find ip = some res := by
  induction es using List.reverseRecOn with
  | nil => exact hres
  | append_singleton es e ih =>
    have hprev := ih fun pre hp => hstay pre (hp.trans (List.prefix_append _ _))
    obtain ⟨res', hres'⟩ := cached_iff.1 (hstay _ (List.prefix_refl _))
    have hstep : s.run (es ++ [e]) = (s.run es).step e := by
      rw [ResolverSystem.run, List.foldl_append]
      rfl
    rw [hstep] at hres' ⊢
    rw [hres', (h.run es).find_step hprev hres']

theorem lookup_of_find {r : Resolver} {res : LookupResult} (h : r.cache.find ip = some res) :
    (r.lookup ip).2.1 = if ip = "" then "" else Resolver.shown ip res := by
  unfold Resolver.lookup
  by_cases hip : ip = ""
  · rw [if_pos hip, if_pos hip]
    exact hip
  · rw [if_neg hip, if_neg hip, Resolver.get_eq, h]

/-- In every interleaving: marks and cached addresses are apart, a mark stands for exactly one task
before its locked section, marks and slots are bounded, and the generations are bounded and agree. A
cancelled task writes nothing, a late answer changes nothing, and lookups of an address agree as long
as it stays cached. -/
theorem resolver_invariant (opts : List ResolverOption) (es : List ResolverEvent) :
    let s := (newSystem opts).run es
    (∀ ip ∈ s.resolver.inflight, ip ∉ s.resolver.cur ∧ ip ∉ s.resolver.prev) ∧
      (∀ ip ∈ s.resolver.inflight, s.tasks.countP (fun t => t.pending ∧ t.ip = ip) = 1) ∧
      s.resolver.inflight.keys.length ≤ s.resolver.held ∧ s.resolver.held ≤ s.resolver.maxConcurrent ∧
      s.resolver.cur.keys.length ≤ s.resolver.maxCacheEntries ∧
      s.resolver.prev.keys.length ≤ s.resolver.maxCacheEntries ∧
      (∀ ip res res', s.resolver.cur.lookup ip = some res → s.resolver.prev.lookup ip = some res' → res = res') ∧
      (∀ (i : Nat) (t : Task), s.tasks[i]? = some t → t.ctx ∈ s.cancelled →
        (s.step (.record i)).resolver.cur = s.resolver.cur ∧ (s.step (.record i)).resolver.prev = s.resolver.prev) ∧
      (∀ (i : Nat) (t : Task) (a : Answer) (es' : List ResolverEvent), s.tasks[i]? = some t → t.phase ≠ .querying →
        ((s.step (.answer i a)).run es').resolver = (s.run es').resolver) ∧
      ∀ (ip : String) (es' : List ResolverEvent), (∀ pre, pre <+: es' → Cached (s.run pre).resolver ip) →
        ((s.run es').resolver.lookup ip).2.1 = (s.resolver.lookup ip).2.1 := by
  intro s
  have h : Inv s := (Inv.new opts).run es
  refine ⟨fun ip hip => ?_, fun ip hip => ?_, h.inflight_le_held, h.bound, h.valid.cur_le, h.valid.prev_le,
    h.valid.agree, fun i t ht hcancel => ?_, fun i t a es' ht hphase => late_answer ht hphase a es', ?_⟩
  · have hnot : ¬ Cached s.resolver ip := by
      rw [cached_iff, h.apart ip hip]
      rintro ⟨res, hres⟩
      cases hres
    exact not_or.1 hnot
  · rw [h.marked ip, if_pos hip]
  · rcases s.step_record_cases i with hr | ⟨t', a, ht', -, hr⟩
    · rw [hr]
      exact ⟨rfl, rfl⟩
    · obtain rfl : t = t' := Option.some.inj (ht.symm.trans ht')
      rw [hr]
      simp [hcancel, Resolver.record]
  · intro ip es' hstay
    obtain ⟨res, hres⟩ := cached_iff.1 (hstay [] (List.nil_prefix))
    change s.resolver.cache.find ip = some res at hres
    have hend := h.find_run hres hstay
    rw [lookup_of_find hres, lookup_of_find hend]

/-! ### A name just used stays -/

def applyOp (r : Resolver) : Generations.Op String LookupResult → Resolver
  | .get ip => (r.get ip).1
  | .put ip res => r.put ip res

theorem cache_applyOps (r : Resolver) (ops : List (Generations.Op String LookupResult)) :
    (ops.foldl applyOp r).cache = ops.foldl Generations.step r.cache := by
  induction ops generalizing r with
  | nil => rfl
  | cons op ops ih =>
    rw [List.foldl_cons, List.foldl_cons, ih]
    congr 1
    cases op with
    | get ip =>
      show (r.get ip).1.cache = _
      rw [Resolver.get_eq]
      exact Resolver.cache_get r ip
    | put ip res => exact Resolver.cache_put r ip res

/-- The step is a `Lookup` that finds `ip` in the cache, or a `resolve` that records it. -/
def Uses (s : ResolverSystem) (e : ResolverEvent) (ip : String) (res : LookupResult) : Prop :=
  (∃ ctx, e = .lookup ctx ip ∧ ip ≠ "" ∧ (s.resolver.get ip).2 = some res) ∨
    ∃ i t a, e = .record i ∧ s.tasks[i]? = some t ∧ t.phase = .decided a ∧ t.ctx ∉ s.cancelled ∧ t.ip = ip ∧
      Resolver.resultOf a = res

theorem cur_of_uses {e : ResolverEvent} {res : LookupResult} (h : Uses s e ip res) :
    (s.step e).resolver.cache.cur.lookup ip = some res := by
  rcases h with ⟨ctx, rfl, hip, hget⟩ | ⟨i, t, a, rfl, ht, hphase, hlive, rfl, rfl⟩
  · rw [Resolver.get_eq] at hget
    rcases s.resolver.lookup_cases ip with ⟨-, hl⟩ | ⟨res', -, hfind, hl⟩ | ⟨hfind, -⟩
    · rcases hl with hl | hl
      · exact absurd hl hip
      · rw [hl] at hget
        cases hget
    · have hstep : (s.step (.lookup ctx ip)).resolver = s.resolver.withCache (s.resolver.cache.get ip).1 := by
        rw [step, hl]
      rw [hstep, Resolver.cache_get]
      obtain ⟨-, ⟨hg, hcur⟩ | ⟨v, -, hv, hg⟩⟩ := s.resolver.cache.get_cases ip
      · rw [hg, hcur]
        exact hget
      · rw [hg, (Generations.put_cases _ _ _).1, ← hv]
        exact hget
    · rw [hfind] at hget
      cases hget
  · have hstep : (s.step (.record i)).resolver = s.resolver.record (t.ctx ∈ s.cancelled) t.ip a := by
      simp only [step, ht, hphase]
    rw [hstep, Resolver.record_cache]
    simp only [hlive, decide_false, Bool.false_eq_true, if_false]
    exact (Generations.put_cases _ _ _).1

/-- A name that was just found or recorded is found again after gets and puts of other addresses, as
long as they put no more than one generation holds. -/
theorem used_name_survives (opts : List ResolverOption) (es : List ResolverEvent) {e : ResolverEvent} {ip : String}
    {res : LookupResult} (huse : Uses ((newSystem opts).run es) e ip res)
    {ops : List (Generations.Op String LookupResult)} (hops : ∀ op ∈ ops, op.key ≠ ip)
    (hputs : (((newSystem opts).run es).step e).resolver.cache.countPuts ops ≤
      (((newSystem opts).run es).step e).resolver.maxCacheEntries) :
    ((ops.foldl applyOp (((newSystem opts).run es).step e).resolver).get ip).2 = some res := by
  rw [Resolver.get_eq, cache_applyOps]
  exact Generations.survives (cur_of_uses huse) hops hputs

/-- A resolve of one address, up to its locked section. -/
def oneAnswer : List ResolverEvent := [.lookup 0 "10.0.0.1", .answer 0 ⟨["host."], false⟩, .take 0]

/-- With one entry in a generation, the name recorded outlives the rotation by another address. -/
theorem used_name_survives_rotation :
    Uses ((newSystem [.withMaxCacheEntries 1]).run oneAnswer) (.record 0) "10.0.0.1" ⟨"host", true⟩ ∧
      ((([.put "10.0.0.2" ⟨"", false⟩] : List (Generations.Op String LookupResult)).foldl applyOp
        (((newSystem [.withMaxCacheEntries 1]).run oneAnswer).step (.record 0)).resolver).get "10.0.0.1").2 =
        some ⟨"host", true⟩ := by
  have huse : Uses ((newSystem [.withMaxCacheEntries 1]).run oneAnswer) (.record 0) "10.0.0.1" ⟨"host", true⟩ :=
    .inr ⟨0, { ip := "10.0.0.1", ctx := 0, sent := some ⟨["host."], false⟩, phase := .decided ⟨["host."], false⟩ },
      ⟨["host."], false⟩, rfl, by decide +kernel, rfl, by decide, rfl, by decide +kernel⟩
  exact ⟨huse, used_name_survives _ _ huse (by decide) (by decide +kernel)⟩

end ResolverSystem
end Trafficmon
