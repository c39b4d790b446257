import Mathlib.Data.List.Induction
import Trafficmon.Capture.Decode

/-!
# Capture runs (`capture/pcap.go`)

`Run` starts one `captureOn` per interface in an errgroup and waits for them. The steps are those of
the caller (its context ends) and of the captures: opening the handle, the look at the context at the
head of the loop, and a read. What a handle answers is input. `reportsEnd_iff` says in which runs the
error `Run` returns tells how capturing ended.
-/

namespace Trafficmon

/-- `ctx.Err()` of a context that is done. -/
inductive CtxErr
  | canceled | deadlineExceeded
deriving DecidableEq, Repr

inductive RunErr
  | ctx (e : CtxErr)
  | text (msg : String)
deriving DecidableEq, Repr

/-! ### One interface -/

/-- `OpenLive`, then `SetBPFFilter`, then the handle's link type. -/
inductive OpenOutcome
  | openErr (e : String)
  | filterErr (e : String)
  | opened (linkType : LinkType)
deriving DecidableEq, Repr

/-- `ZeroCopyReadPacketData`; what `handlePacket` makes of a packet is of no concern here. -/
inductive ReadOutcome
  | packet | timeout | eof
  | err (e : String)
deriving DecidableEq, Repr

inductive CaptureState
  | opening | checking | reading
  | ended (err : RunErr)
deriving DecidableEq, Repr

inductive CaptureEvent
  | openLive (o : OpenOutcome)
  | check
  | read (r : ReadOutcome)
deriving DecidableEq, Repr

/-- A step of `captureOn` on `iface`, under a context with this error; `none` where it is not at that step. -/
def captureOn (iface : String) (ctxErr : Option CtxErr) : CaptureState → CaptureEvent → Option CaptureState
  | .opening, .openLive (.openErr e) => some (.ended (.text ("open " ++ iface ++ ": " ++ e)))
  | .opening, .openLive (.filterErr e) => some (.ended (.text ("set filter on " ++ iface ++ ": " ++ e)))
  | .opening, .openLive (.opened linkType) =>
    match newFlowDecoder linkType with
    | .error e => some (.ended (.text ("decode " ++ iface ++ ": " ++ e)))
    | .ok _ => some .checking
  | .checking, .check =>
    match ctxErr with
    | some e => some (.ended (.ctx e))
    | none => some .reading
  | .reading, .read .packet | .reading, .read .timeout => some .checking
  | .reading, .read .eof => some (.ended (.text ("capture on " ++ iface ++ " ended")))
  | .reading, .read (.err e) => some (.ended (.text ("read from " ++ iface ++ ": " ++ e)))
  | _, _ => none

def CaptureState.isEnded : CaptureState → Bool
  | ended _ => true
  | _ => false

/-- The step ends the capture, whatever the context. -/
def CaptureEvent.fails : CaptureEvent → Bool
  | openLive (.openErr _) | openLive (.filterErr _) | read .eof | read (.err _) => true
  | openLive (.opened linkType) => (newFlowDecoder linkType).toOption.isNone
  | _ => false

/-! ### The group -/

structure CaptureRun where
  /-- `Err()` of the caller's context. -/
  ctxErr : Option CtxErr := none
  /-- `Err()` of the group's context, which the captures see. -/
  groupCtxErr : Option CtxErr := none
  /-- The first error one of the group's functions returned. -/
  groupErr : Option RunErr := none
  captures : List (String × CaptureState)
deriving DecidableEq, Repr

inductive RunEvent
  | cancel (e : CtxErr)
  | capture (i : Nat) (ev : CaptureEvent)
deriving DecidableEq, Repr

namespace CaptureRun

def bestEffort (s : CaptureRun) : Bool := 1 < s.captures.length

/-- errgroup: the first non-nil error is kept and ends the group's context. -/
def returned (s : CaptureRun) : Option RunErr → CaptureRun
  | none => s
  | some err =>
    { s with groupErr := s.groupErr.or (some err), groupCtxErr := s.groupCtxErr.or (some .canceled) }

def step (s : CaptureRun) : RunEvent → Option CaptureRun
  | .cancel e => some { s with ctxErr := s.ctxErr.or (some e), groupCtxErr := s.groupCtxErr.or (some e) }
  | .capture i ev => do
    let (iface, st) ← s.captures[i]?
    let st ← captureOn iface s.groupCtxErr st ev
    let s := { s with captures := s.captures.set i (iface, st) }
    match st with
    | .ended err => some (s.returned (if s.bestEffort then none else some err))
    | _ => some s

/-- `g.Wait()`: the group's error once every function has returned. -/
def wait (s : CaptureRun) : Option (Option RunErr) :=
  if s.captures.all fun c => c.2.isEnded then some s.groupErr else none

end CaptureRun

def maxInt32 : Int := 2147483647

/-- `Run` up to the group: an error returned at once, or the group as it starts. -/
def startRun (snapLen : Int) (resolveInterfaces : Except String (List String))
    (localAddrSet : List String → Except String (List Addr)) : Except RunErr CaptureRun := do
  if snapLen < 1 ∨ maxInt32 < snapLen then
    throw (.text ("SnapLen " ++ toString snapLen ++ " out of range [1, " ++ toString maxInt32 ++ "]"))
  let ifaces ← resolveInterfaces.mapError .text
  let _ ← (localAddrSet ifaces).mapError .text
  return { captures := ifaces.map (·, .opening) }

/-! ### What `Run` reports -/

namespace RunEvent

def fails : RunEvent → Bool
  | cancel _ => false
  | capture _ ev => ev.fails

/-- The caller's context is done, or a capture fails. -/
def stops : RunEvent → Bool
  | cancel _ => true
  | capture _ ev => ev.fails

end RunEvent

/-- When `Run` returns, it returns the context's error if that came before any failure, and some error otherwise; and
with several interfaces it goes on, and stops none of them, as long as one is capturing. -/
structure ReportsEnd (ifaces : List String) (es : List RunEvent) (s : CaptureRun) : Prop where
  cancelled : ∀ r e, s.wait = some r → es.find? RunEvent.stops = some (.cancel e) → r = some (.ctx e)
  failed : ∀ r, s.wait = some r → (∀ e, es.find? RunEvent.stops ≠ some (.cancel e)) → r ≠ none
  keepsRunning : 1 < ifaces.length → (∃ c ∈ s.captures, c.2.isEnded = false) →
    s.wait = none ∧ (s.ctxErr = none → s.groupCtxErr = none)

/-! ### Steps -/

section Steps
variable {iface : String} {c : Option CtxErr} {st st' : CaptureState} {cev : CaptureEvent} {s s' s₀ : CaptureRun}
  {ev : RunEvent} {es : List RunEvent} {ifaces : List String}

/-- A capture fails, or sees its context done, or goes on. -/
theorem captureOn_cases (h : captureOn iface c st cev = some st') : st.isEnded = false ∧
    ((cev.fails = true ∧ ∃ msg, st' = .ended (.text msg)) ∨
      (cev.fails = false ∧ ∃ e, c = some e ∧ st' = .ended (.ctx e)) ∨ (cev.fails = false ∧ st'.isEnded = false)) := by
  unfold captureOn at h
  split at h
  case h_3 linkType =>
    refine ⟨rfl, ?_⟩
    split at h <;> rename_i hnew <;> obtain rfl := Option.some.inj h
    · exact .inl ⟨by rw [CaptureEvent.fails, hnew]; rfl, _, rfl⟩
    · exact .inr (.inr ⟨by rw [CaptureEvent.fails, hnew]; rfl, rfl⟩)
  case h_4 =>
    refine ⟨rfl, ?_⟩
    split at h <;> obtain rfl := Option.some.inj h
    · exact .inr (.inl ⟨rfl, _, rfl, rfl⟩)
    · exact .inr (.inr ⟨rfl, rfl⟩)
  case h_9 => cases h
  all_goals obtain rfl := Option.some.inj h
  case h_5 | h_6 => exact ⟨rfl, .inr (.inr ⟨rfl, rfl⟩)⟩
  all_goals exact ⟨rfl, .inl ⟨rfl, _, rfl⟩⟩

theorem step_capture_cases {i : Nat} (h : s.step (.capture i cev) = some s') :
    ∃ iface st st', s.captures[i]? = some (iface, st) ∧ captureOn iface s.groupCtxErr st cev = some st' ∧
      s'.captures = s.captures.set i (iface, st') ∧ s'.ctxErr = s.ctxErr ∧
      ((∃ err, st' = .ended err ∧ s.captures.length ≤ 1 ∧ s'.groupErr = s.groupErr.or (some err) ∧
          s'.groupCtxErr = s.groupCtxErr.or (some .canceled)) ∨
        ((st'.isEnded = false ∨ 1 < s.captures.length) ∧ s'.groupErr = s.groupErr ∧
          s'.groupCtxErr = s.groupCtxErr)) := by
  obtain ⟨⟨iface, st⟩, hi, h⟩ := Option.bind_eq_some_iff.1 h
  obtain ⟨st', hst', h⟩ := Option.bind_eq_some_iff.1 h
  refine ⟨iface, st, st', hi, hst', ?_⟩
  cases st' with
  | ended err =>
    obtain rfl := Option.some.inj h
    by_cases hbest : 1 < s.captures.length
    · simp [CaptureRun.bestEffort, hbest, CaptureRun.returned]
    · simp [CaptureRun.bestEffort, hbest, CaptureRun.returned, not_lt.1 hbest]
  | _ =>
    obtain rfl := Option.some.inj h
    exact ⟨rfl, rfl, .inr ⟨.inl rfl, rfl, rfl⟩⟩

theorem length_captures_step (h : s.step ev = some s') : s'.captures.length = s.captures.length := by
  cases ev with
  | cancel e =>
    obtain rfl := Option.some.inj h
    rfl
  | capture i cev =>
    obtain ⟨iface, st, st', -, -, hcap, -⟩ := step_capture_cases h
    rw [hcap, List.length_set]

/-- A run one event longer. -/
theorem captureRun_concat (h : (es ++ [ev]).foldlM CaptureRun.step s₀ = some s') :
    ∃ s, es.foldlM CaptureRun.step s₀ = some s ∧ s.step ev = some s' := by
  rw [List.foldlM_append] at h
  obtain ⟨s, hs, h⟩ := Option.bind_eq_some_iff.1 h
  refine ⟨s, hs, ?_⟩
  simpa using h

theorem length_captures_run (h : es.foldlM CaptureRun.step s₀ = some s) : s.captures.length = s₀.captures.length := by
  induction es using List.reverseRecOn generalizing s with
  | nil =>
    obtain rfl := Option.some.inj h
    rfl
  | append_singleton es ev ih =>
    obtain ⟨s₁, hs₁, hstep⟩ := captureRun_concat h
    rw [length_captures_step hstep, ih hs₁]

/-! ### Several interfaces -/

/-- No function of the group returns an error, and its context is the caller's. -/
theorem multi_run (h : es.foldlM CaptureRun.step s₀ = some s) (hmany : 1 < s₀.captures.length)
    (h₀ : s₀.groupErr = none ∧ s₀.groupCtxErr = s₀.ctxErr) : s.groupErr = none ∧ s.groupCtxErr = s.ctxErr := by
  induction es using List.reverseRecOn generalizing s with
  | nil =>
    obtain rfl := Option.some.inj h
    exact h₀
  | append_singleton es ev ih =>
    obtain ⟨s₁, hs₁, hstep⟩ := captureRun_concat h
    obtain ⟨herr, hctx⟩ := ih hs₁
    cases ev with
    | cancel e =>
      obtain rfl := Option.some.inj hstep
      exact ⟨herr, by rw [hctx]⟩
    | capture i cev =>
      obtain ⟨iface, st, st', -, -, -, hsame, hcase⟩ := step_capture_cases hstep
      rcases hcase with ⟨err, -, hone, -⟩ | ⟨-, herr', hctx'⟩
      · rw [length_captures_run hs₁] at hone
        omega
      · rw [herr', hctx', hsame]
        exact ⟨herr, hctx⟩

/-! ### One interface -/

/-- A single capture: before it ends nothing failed; it ends with the caller's error if it did not fail after that. -/
def SingleInv (es : List RunEvent) (s : CaptureRun) : CaptureState → Prop
  | .ended err => s.groupErr = some err ∧
    ((∃ e, es.find? RunEvent.stops = some (.cancel e) ∧ err = .ctx e ∧ ∀ ev ∈ es, ev.fails = false) ∨
      ((∃ msg, err = .text msg) ∧ (∃ ev ∈ es, ev.fails = true) ∧ es.find? RunEvent.stops ≠ none))
  | _ => s.groupErr = none ∧ (∀ ev ∈ es, ev.fails = false) ∧
    es.find? RunEvent.stops = s.groupCtxErr.map RunEvent.cancel

theorem find_concat_of_not_stops (h : ev.stops = false) :
    (es ++ [ev]).find? RunEvent.stops = es.find? RunEvent.stops := by
  rw [List.find?_append, List.find?_cons_of_neg (by simp [h]), List.find?_nil, Option.or_none]

theorem forall_concat_fails (h : ∀ ev ∈ es, ev.fails = false) (hev : ev.fails = false) :
    ∀ ev' ∈ es ++ [ev], ev'.fails = false := by
  intro ev' hev'
  rcases List.mem_append.1 hev' with hmem | hmem
  · exact h ev' hmem
  · rw [List.mem_singleton.1 hmem]
    exact hev

theorem SingleInv.cancel {e : CtxErr} (h : SingleInv es s st) :
    SingleInv (es ++ [.cancel e])
      { s with ctxErr := s.ctxErr.or (some e), groupCtxErr := s.groupCtxErr.or (some e) } st := by
  have hfind : (es ++ [RunEvent.cancel e]).find? RunEvent.stops = (es.find? RunEvent.stops).or (some (.cancel e)) := by
    rw [List.find?_append]
    rfl
  cases st with
  | ended err =>
    obtain ⟨herr, hcase⟩ := h
    refine ⟨herr, ?_⟩
    rw [hfind]
    rcases hcase with ⟨e', hfirst, rfl, hno⟩ | ⟨hmsg, ⟨ev, hev, hfail⟩, hsome⟩
    · exact .inl ⟨e', by rw [hfirst]; rfl, rfl, forall_concat_fails hno rfl⟩
    · refine .inr ⟨hmsg, ⟨ev, List.mem_append_left _ hev, hfail⟩, ?_⟩
      cases hf : es.find? RunEvent.stops with
      | none => exact absurd hf hsome
      | some ev' => exact Option.some_ne_none _
  | _ =>
    obtain ⟨herr, hno, hctx⟩ := h
    refine ⟨herr, forall_concat_fails hno rfl, ?_⟩
    rw [hfind, hctx]
    cases s.groupCtxErr <;> rfl

theorem SingleInv.running (h : SingleInv es s st) (hst : st.isEnded = false) : s.groupErr = none ∧
    (∀ ev ∈ es, ev.fails = false) ∧ es.find? RunEvent.stops = s.groupCtxErr.map RunEvent.cancel := by
  cases st with
  | ended err => cases hst
  | _ => exact h

theorem singleInv_of_running (hst : st.isEnded = false) (h : s.groupErr = none ∧ (∀ ev ∈ es, ev.fails = false) ∧
    es.find? RunEvent.stops = s.groupCtxErr.map RunEvent.cancel) : SingleInv es s st := by
  cases st with
  | ended err => cases hst
  | _ => exact h

theorem SingleInv.capture {i : Nat} (h : SingleInv es s st) (hcap : s.captures = [(iface, st)])
    (hstep : s.step (.capture i cev) = some s') :
    ∃ st', s'.captures = [(iface, st')] ∧ SingleInv (es ++ [.capture i cev]) s' st' := by
  obtain ⟨iface', st₁, st', hi, hon, hset, -, hcase⟩ := step_capture_cases hstep
  rw [hcap] at hi hset hcase
  obtain ⟨rfl, hhead⟩ : i = 0 ∧ (iface, st) = (iface', st₁) := by
    cases i with
    | zero => exact ⟨rfl, Option.some.inj hi⟩
    | succ i => cases hi
  obtain ⟨rfl, rfl⟩ := Prod.mk.inj hhead
  obtain ⟨hrun, hon⟩ := captureOn_cases hon
  obtain ⟨hnil, hno, hctx⟩ := h.running hrun
  refine ⟨st', hset, ?_⟩
  rcases hon with ⟨hfail, msg, rfl⟩ | ⟨hfail, e, he, rfl⟩ | ⟨hfail, hgo⟩
  · rcases hcase with ⟨err, herr, -, hgroup, -⟩ | ⟨hmany, -⟩
    · obtain rfl := CaptureState.ended.inj herr
      rw [hnil] at hgroup
      refine ⟨hgroup, .inr ⟨⟨msg, rfl⟩, ⟨_, List.mem_append_right _ (List.mem_singleton_self _), hfail⟩, ?_⟩⟩
      have hstops : (RunEvent.capture 0 cev).stops = true := hfail
      simp [List.find?_append, hstops]
    · exact absurd hmany (by simp [CaptureState.isEnded])
  · rcases hcase with ⟨err, herr, -, hgroup, -⟩ | ⟨hmany, -⟩
    · obtain rfl := CaptureState.ended.inj herr
      rw [hnil] at hgroup
      refine ⟨hgroup, .inl ⟨e, ?_, rfl, forall_concat_fails hno hfail⟩⟩
      have hstops : (RunEvent.capture 0 cev).stops = false := hfail
      rw [find_concat_of_not_stops hstops, hctx, he]
      rfl
    · exact absurd hmany (by simp [CaptureState.isEnded])
  · rcases hcase with ⟨err, rfl, -⟩ | ⟨-, hgroup, hgctx⟩
    · cases hgo
    · refine singleInv_of_running hgo ⟨hgroup.trans hnil, forall_concat_fails hno hfail, ?_⟩
      have hstops : (RunEvent.capture 0 cev).stops = false := hfail
      rw [find_concat_of_not_stops hstops, hctx, hgctx]

theorem single_run (h : es.foldlM CaptureRun.step { captures := [(iface, .opening)] } = some s) :
    ∃ st, s.captures = [(iface, st)] ∧ SingleInv es s st := by
  induction es using List.reverseRecOn generalizing s with
  | nil =>
    obtain rfl := Option.some.inj h
    exact ⟨.opening, rfl, rfl, fun _ hev => absurd hev List.not_mem_nil, rfl⟩
  | append_singleton es ev ih =>
    obtain ⟨s₁, hs₁, hstep⟩ := captureRun_concat h
    obtain ⟨st, hcap, hinv⟩ := ih hs₁
    cases ev with
    | cancel e =>
      obtain rfl := Option.some.inj hstep
      exact ⟨st, hcap, hinv.cancel⟩
    | capture i cev => exact hinv.capture hcap hstep

theorem captures_startRun {snapLen : Int} {resolved : Except String (List String)}
    {localAddrSet : List String → Except String (List Addr)} (hres : resolved = .ok ifaces)
    (h : startRun snapLen resolved localAddrSet = .ok s₀) : s₀ = { captures := ifaces.map (·, .opening) } := by
  subst hres
  unfold startRun at h
  split at h
  · cases h
  · simp only [Except.mapError, bind, Except.bind] at h
    split at h
    · cases h
    · exact (Except.ok.inj h).symm

theorem wait_isSome : s.wait.isSome ↔ ∀ c ∈ s.captures, c.2.isEnded = true := by
  rw [CaptureRun.wait, ← List.all_eq_true]
  split_ifs with h
  · simp [h]
  · simp [h]

theorem wait_eq {r : Option RunErr} (h : s.wait = some r) : r = s.groupErr := by
  rw [CaptureRun.wait] at h
  split at h
  · exact (Option.some.inj h).symm
  · cases h

/-- What `Run` returns of a single capture. -/
theorem single_wait {r : Option RunErr} (h : es.foldlM CaptureRun.step { captures := [(iface, .opening)] } = some s)
    (hr : s.wait = some r) :
    ∃ err, r = some err ∧
      ((∃ e, es.find? RunEvent.stops = some (.cancel e) ∧ err = .ctx e ∧ ∀ ev ∈ es, ev.fails = false) ∨
        ((∃ msg, err = .text msg) ∧ ∃ ev ∈ es, ev.fails = true)) := by
  obtain ⟨st, hcap, hinv⟩ := single_run h
  have hended := wait_isSome.1 (Option.isSome_iff_exists.2 ⟨r, hr⟩) (iface, st)
    (by rw [hcap]; exact List.mem_singleton_self _)
  cases st with
  | ended err =>
    obtain ⟨hsome, hcase⟩ := hinv
    refine ⟨err, (wait_eq hr).trans hsome, ?_⟩
    rcases hcase with hcancel | ⟨hmsg, hfail, -⟩
    · exact .inl hcancel
    · exact .inr ⟨hmsg, hfail⟩
  | _ => cases hended

/-- Several interfaces: `Run` has no error to return, and goes on while one of them does. -/
theorem multi_wait (h : es.foldlM CaptureRun.step { captures := ifaces.map (·, .opening) } = some s)
    (hmany : 1 < ifaces.length) :
    (∀ r, s.wait = some r → r = none) ∧
      ((∃ c ∈ s.captures, c.2.isEnded = false) → s.wait = none ∧ (s.ctxErr = none → s.groupCtxErr = none)) := by
  obtain ⟨hnil, hctx⟩ := multi_run h (by simpa using hmany) ⟨rfl, rfl⟩
  refine ⟨fun r hr => (wait_eq hr).trans hnil, ?_⟩
  rintro ⟨c, hc, hended⟩
  refine ⟨?_, fun h => hctx.trans h⟩
  by_contra hwait
  have hall := wait_isSome.1 (Option.isSome_iff_ne_none.2 hwait) c hc
  rw [hended] at hall
  cases hall

/-- With several interfaces `Run` never tells how capturing ended. With one it does, unless the capture fails between
the end of the context and its next look at it. -/
theorem reportsEnd_iff {snapLen : Int} {resolved : Except String (List String)}
    {localAddrSet : List String → Except String (List Addr)} (hres : resolved = .ok ifaces) (hne : ifaces ≠ [])
    (hstart : startRun snapLen resolved localAddrSet = .ok s₀) (hrun : es.foldlM CaptureRun.step s₀ = some s) :
    ReportsEnd ifaces es s ↔ (s.wait.isSome → ifaces.length = 1 ∧
      ∀ e, es.find? RunEvent.stops = some (.cancel e) → ∀ ev ∈ es, ev.fails = false) := by
  obtain rfl := captures_startRun hres hstart
  have hlen : 0 < ifaces.length := List.length_pos_iff.2 hne
  constructor
  · intro hrep hwait
    obtain ⟨r, hr⟩ := Option.isSome_iff_exists.1 hwait
    by_cases hmany : 1 < ifaces.length
    · -- the group has no error to report
      obtain rfl := (multi_wait hrun hmany).1 r hr
      by_cases hfirst : ∃ e, es.find? RunEvent.stops = some (.cancel e)
      · obtain ⟨e, he⟩ := hfirst
        cases hrep.cancelled none e hr he
      · exact absurd rfl (hrep.failed none hr fun e he => hfirst ⟨e, he⟩)
    · refine ⟨by omega, fun e he => ?_⟩
      obtain ⟨iface, rfl⟩ : ∃ iface, ifaces = [iface] := List.length_eq_one_iff.1 (by omega)
      obtain ⟨err, rfl, ⟨e', -, -, hno⟩ | ⟨⟨msg, rfl⟩, -⟩⟩ := single_wait hrun hr
      · exact hno
      · cases hrep.cancelled _ e hr he
  · intro hcond
    have hsingle : ∀ r, s.wait = some r → ∃ iface, ifaces = [iface] := fun r hr =>
      List.length_eq_one_iff.1 (hcond (Option.isSome_iff_exists.2 ⟨r, hr⟩)).1
    refine ⟨fun r e hr he => ?_, fun r hr _ => ?_, fun hmany => (multi_wait hrun hmany).2⟩
    · obtain ⟨iface, rfl⟩ := hsingle r hr
      obtain ⟨err, rfl, ⟨e', he', rfl, -⟩ | ⟨-, ev, hev, hfail⟩⟩ := single_wait hrun hr
      · rw [he] at he'
        cases he'
        rfl
      · rw [(hcond (Option.isSome_iff_exists.2 ⟨_, hr⟩)).2 e he ev hev] at hfail
        cases hfail
    · obtain ⟨iface, rfl⟩ := hsingle r hr
      obtain ⟨err, rfl, -⟩ := single_wait hrun hr
      exact Option.some_ne_none _

end Steps

/-- One interface, opened and cancelled: the capture notices. -/
def cancelledCapture : List RunEvent :=
  [.capture 0 (.openLive (.opened .ethernet)), .cancel .canceled, .capture 0 .check]

theorem cancelledCapture_reports : ∃ s, cancelledCapture.foldlM CaptureRun.step { captures := [("en0", .opening)] } =
    some s ∧ s.wait = some (some (.ctx .canceled)) ∧ ReportsEnd ["en0"] cancelledCapture s := by
  have hstart : startRun 65536 (.ok ["en0"]) (fun _ => .ok []) = .ok { captures := [("en0", .opening)] } := rfl
  have hrun : cancelledCapture.foldlM CaptureRun.step { captures := [("en0", .opening)] } =
      some ⟨some .canceled, some .canceled, some (.ctx .canceled), [("en0", .ended (.ctx .canceled))]⟩ := rfl
  exact ⟨_, hrun, rfl, (reportsEnd_iff rfl (by decide) hstart hrun).2 fun _ => ⟨rfl, fun _ _ => by decide⟩⟩

/-- Two interfaces, and neither can be opened: `Run` returns no error. -/
def failedCaptures : List RunEvent :=
  [.capture 0 (.openLive (.openErr "permission denied")), .capture 1 (.openLive (.openErr "permission denied"))]

theorem failedCaptures_unreported :
    startRun 65536 (.ok ["en0", "en1"]) (fun _ => .ok []) = .ok { captures := [("en0", .opening), ("en1", .opening)] } ∧
      ∃ s, failedCaptures.foldlM CaptureRun.step { captures := [("en0", .opening), ("en1", .opening)] } = some s ∧
        s.wait = some none ∧ ¬ ReportsEnd ["en0", "en1"] failedCaptures s := by
  refine ⟨rfl, _, rfl, rfl, fun h => ?_⟩
  exact h.failed none rfl (fun e he => by cases he) rfl

end Trafficmon
