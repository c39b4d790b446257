import Trafficmon.Lib.Ledger
import Mathlib.Algebra.Order.Group.Multiset
import Mathlib.Tactic.Abel

/-!
# Attaching the eBPF programs (`procinfo/ebpf_linux.go`, `procinfo/ebpf_kprobe_linux.go`)

`NewEBPFSource` loads up to three programs and hooks each up by links and a ring buffer's reader; any of
these calls may fail, and what has been opened by then is to be closed again. `Kernel` is what the calls
return. `ebpf_lifecycle` says for every kernel when a source comes out of it, that nothing is ever
closed twice, that `Run` leaves nothing open, and that a failed start leaves nothing open but one
reader: `closeAll` closes links and objects only, so the connect ring's reader stays behind when the
sockstate program does not attach.
-/

namespace Trafficmon
open Ledger

inductive EbpfProgram
  | fentry | kprobe | sockstate
deriving DecidableEq, Repr

inductive EbpfPart
  | objects
  | link (name : String)
  | reader
deriving DecidableEq, Repr

structure EbpfResource where
  program : EbpfProgram
  part : EbpfPart
deriving DecidableEq, Repr

/-- An error of `cilium/ebpf`, and the verifier's own account where it is one of the verifier's. -/
structure EbpfError where
  text : String
  verifier : Option String := none

/-- What the calls `NewEBPFSource` makes return. No resource is asked for twice. -/
structure EbpfKernel where
  removeMemlock : Except String Unit
  btfAvailable : Bool
  /-- Built for amd64 or arm64. -/
  kprobeArch : Bool
  opens : EbpfResource → Except EbpfError Unit

inductive EbpfAttachMode
  | fentry | kprobe
deriving DecidableEq, Repr

def EbpfAttachMode.program : EbpfAttachMode → EbpfProgram
  | .fentry => .fentry
  | .kprobe => .kprobe

/-- An `EBPFSource` as far as it holds resources, and what has been opened and closed so far. -/
structure Attached where
  mode : Option EbpfAttachMode := none
  rings : List EbpfResource := []
  closers : List EbpfResource := []
  trace : List (Op EbpfResource) := []

structure EbpfProbe where
  name : String
  /-- What the error says was being done. -/
  attaching : String

def describeVerifierError (err : EbpfError) : String :=
  match err.verifier with
  | some ve => "verifier rejected program: " ++ ve
  | none => err.text

/-- The links of the probes, one after the other, up to the first that fails. -/
def attachLinks (k : EbpfKernel) (p : EbpfProgram) :
    List EbpfProbe → List EbpfResource → List (Op EbpfResource) →
      Except String Unit × List EbpfResource × List (Op EbpfResource)
  | [], links, trace => (.ok (), links, trace)
  | probe :: probes, links, trace =>
    let l : EbpfResource := ⟨p, .link probe.name⟩
    match k.opens l with
    | .error err => (.error (probe.attaching ++ ": " ++ err.text), links, trace)
    | .ok () => attachLinks k p probes (links ++ [l]) (trace ++ [.opened l])

/-- The body the three `attach` functions share. -/
def attachProgram (k : EbpfKernel) (p : EbpfProgram) (loading opening : String) (probes : List EbpfProbe)
    (s : Attached) : Except String Unit × Attached :=
  let objs : EbpfResource := ⟨p, .objects⟩
  match k.opens objs with
  | .error err => (.error (loading ++ ": " ++ describeVerifierError err), s)
  | .ok () =>
    let (linked, links, trace) := attachLinks k p probes [] (s.trace ++ [.opened objs])
    match linked with
    | .error err => (.error err, { s with trace := trace ++ (links ++ [objs]).map .closed })
    | .ok () =>
      let r : EbpfResource := ⟨p, .reader⟩
      match k.opens r with
      | .error err =>
        (.error (opening ++ ": " ++ err.text), { s with trace := trace ++ (links ++ [objs]).map .closed })
      | .ok () =>
        (.ok (), { s with
          trace := trace ++ [.opened r]
          closers := s.closers ++ (links ++ [objs])
          rings := s.rings ++ [r] })

def fentryProbes : List EbpfProbe :=
  [⟨"fexit_tcp_v4_connect", "attaching fexit_tcp_v4_connect"⟩,
   ⟨"fexit_tcp_v6_connect", "attaching fexit_tcp_v6_connect"⟩]

def attachFentry (k : EbpfKernel) : Attached → Except String Unit × Attached :=
  attachProgram k .fentry "loading fentry/fexit objects" "opening fentry ring buffer" fentryProbes

def kprobeProbes : List EbpfProbe :=
  [⟨"kprobe_tcp_v4_connect", "attaching \"kprobe_tcp_v4_connect\" to tcp_v4_connect"⟩,
   ⟨"kprobe_tcp_v6_connect", "attaching \"kprobe_tcp_v6_connect\" to tcp_v6_connect"⟩,
   ⟨"kretprobe_tcp_v4_connect", "attaching \"kretprobe_tcp_v4_connect\" to tcp_v4_connect"⟩,
   ⟨"kretprobe_tcp_v6_connect", "attaching \"kretprobe_tcp_v6_connect\" to tcp_v6_connect"⟩]

def attachKprobeConnect (k : EbpfKernel) (s : Attached) : Except String Unit × Attached :=
  if k.kprobeArch then
    attachProgram k .kprobe "loading kprobe/kretprobe objects" "opening kprobe ring buffer" kprobeProbes s
  else
    (.error "kprobe/kretprobe fallback is not available on this architecture (amd64/arm64 only for now)", s)

def sockstateProbes : List EbpfProbe :=
  [⟨"tracepoint_inet_sock_set_state", "attaching inet_sock_set_state tracepoint"⟩]

def attachSockstate (k : EbpfKernel) : Attached → Except String Unit × Attached :=
  attachProgram k .sockstate "loading sockstate tracepoint objects" "opening sockstate ring buffer" sockstateProbes

/-- `attach`'s first choice, where the kernel has BTF, and the error it leaves. -/
def attachPreferred (k : EbpfKernel) (s : Attached) : Option String × Attached :=
  if k.btfAvailable then
    match attachFentry k s with
    | (.error err, s) => (some err, s)
    | (.ok (), s) => (none, { s with mode := some .fentry })
  else (none, s)

def fallbackError (fentryErr : Option String) (err : String) : String :=
  match fentryErr with
  | some fentryErr => "fentry/fexit attach failed (" ++ fentryErr ++ "), kprobe fallback also failed: " ++ err
  | none => "kprobe fallback failed: " ++ err

/-- `attach`'s second choice, when the first has left no mode. -/
def attachFallback (k : EbpfKernel) (fentryErr : Option String) (s : Attached) : Except String Unit × Attached :=
  if s.mode = none then
    match attachKprobeConnect k s with
    | (.error err, s) => (.error (fallbackError fentryErr err), s)
    | (.ok (), s) => (.ok (), { s with mode := some .kprobe })
  else (.ok (), s)

def attach (k : EbpfKernel) (s : Attached) : Except String Unit × Attached :=
  let (fentryErr, s) := attachPreferred k s
  match attachFallback k fentryErr s with
  | (.error err, s) => (.error err, s)
  | (.ok (), s) =>
    match attachSockstate k s with
    | (.error err, s) => (.error ("attaching sockstate tracepoint: " ++ err), s)
    | (.ok (), s) => (.ok (), s)

namespace Attached

def closeAll (s : Attached) : Attached := { s with trace := s.trace ++ s.closers.reverse.map .closed }

/-- `Run`, once its context is cancelled: the readers, which ends their goroutines, and then the rest. -/
def run (s : Attached) : Attached := closeAll { s with trace := s.trace ++ s.rings.map .closed }

end Attached

def newEBPFSource (k : EbpfKernel) : Except String Unit × Attached :=
  match k.removeMemlock with
  | .error err => (.error ("procinfo: removing memlock rlimit: " ++ err), {})
  | .ok () =>
    match attach k {} with
    | (.error err, s) => (.error err, s.closeAll)
    | (.ok (), s) => (.ok (), s)

/-! ### One program -/

/-- Every call for the program succeeds. -/
def EbpfKernel.Attaches (k : EbpfKernel) (p : EbpfProgram) (probes : List EbpfProbe) : Prop :=
  k.opens ⟨p, .objects⟩ = .ok () ∧ (∀ probe ∈ probes, k.opens ⟨p, .link probe.name⟩ = .ok ()) ∧
    k.opens ⟨p, .reader⟩ = .ok ()

/-- What is open is what the source holds, and all of it belongs to the programs `ps`. -/
def Attached.Holds (s : Attached) (ps : List EbpfProgram) : Prop :=
  ∃ seen, replay s.trace = some ((s.rings : Multiset EbpfResource) + s.closers, seen) ∧ ∀ r ∈ seen, r.program ∈ ps

variable {k : EbpfKernel} {p : EbpfProgram} {s : Attached} {ps : List EbpfProgram}

theorem attachLinks_isOk (probes : List EbpfProbe) (links : List EbpfResource) (trace : List (Op EbpfResource)) :
    (attachLinks k p probes links trace).1 = .ok () ↔
      ∀ probe ∈ probes, k.opens ⟨p, .link probe.name⟩ = .ok () := by
  induction probes generalizing links trace with
  | nil => simp [attachLinks]
  | cons probe probes ih =>
    rw [attachLinks, List.forall_mem_cons]
    cases k.opens ⟨p, .link probe.name⟩ with
    | error err => simp
    | ok u => simp [ih]

/-- The links opened are those handed back, each of them new. -/
theorem attachLinks_replay {probes : List EbpfProbe} {links : List EbpfResource} {trace : List (Op EbpfResource)}
    {live seen : Multiset EbpfResource} (hnd : (probes.map (·.name)).Nodup)
    (h : replay trace = some (live + links, seen)) (hseen : ∀ probe ∈ probes, ⟨p, .link probe.name⟩ ∉ seen) :
    ∃ seen', replay (attachLinks k p probes links trace).2.2 =
        some (live + (attachLinks k p probes links trace).2.1, seen') ∧
      ∀ r ∈ seen', r ∈ seen ∨ r.program = p ∧ r.part ≠ .reader := by
  induction probes generalizing links trace seen with
  | nil => exact ⟨seen, h, fun r hr => .inl hr⟩
  | cons probe probes ih =>
    obtain ⟨hname, hnd⟩ := List.nodup_cons.1 hnd
    rw [attachLinks]
    cases hopen : k.opens ⟨p, .link probe.name⟩ with
    | error err => exact ⟨seen, h, fun r hr => .inl hr⟩
    | ok u =>
      have hlive : live + ((links ++ [⟨p, .link probe.name⟩] : List EbpfResource) : Multiset EbpfResource) =
          (⟨p, .link probe.name⟩ : EbpfResource) ::ₘ (live + links) := by
        rw [← Multiset.coe_add, Multiset.coe_singleton, ← add_assoc, add_comm, Multiset.singleton_add]
      have hnew := replay_opened h (hseen probe List.mem_cons_self)
      rw [← hlive] at hnew
      obtain ⟨seen', hreplay, hmem⟩ := ih hnd hnew fun probe' hp => by
        rw [Multiset.mem_cons, not_or]
        refine ⟨fun he => hname ?_, hseen probe' (List.mem_cons_of_mem _ hp)⟩
        have heq : probe'.name = probe.name := by simpa using he
        exact List.mem_map.2 ⟨probe', hp, heq⟩
      refine ⟨seen', hreplay, fun r hr => ?_⟩
      rcases hmem r hr with hr | hr
      · rcases Multiset.mem_cons.1 hr with rfl | hr
        · exact .inr ⟨rfl, by simp⟩
        · exact .inl hr
      · exact .inr hr

theorem attachProgram_isOk (loading opening : String) (probes : List EbpfProbe) (s : Attached) :
    (attachProgram k p loading opening probes s).1 = .ok () ↔ k.Attaches p probes := by
  have hlinks := attachLinks_isOk (k := k) (p := p) probes [] (s.trace ++ [.opened ⟨p, .objects⟩])
  rw [attachProgram, EbpfKernel.Attaches]
  cases k.opens ⟨p, .objects⟩ with
  | error err => simp
  | ok u =>
    dsimp only
    rw [← hlinks]
    split
    · rename_i herr
      simp [herr]
    · rename_i hok
      cases k.opens ⟨p, .reader⟩ with
      | error err => simp
      | ok u => simp [hok]

/-- What an attempt to attach `p` does: what is open afterwards is what the source holds, and it holds one
more reader iff the attempt succeeded. -/
structure Attempted (p : EbpfProgram) (ps : List EbpfProgram) (s : Attached) (res : Except String Unit × Attached) :
    Prop where
  holds : res.2.Holds (p :: ps)
  mode : res.2.mode = s.mode
  failed : ∀ err, res.1 = .error err → res.2.rings = s.rings
  ok : res.1 = .ok () → res.2.rings = s.rings ++ [⟨p, .reader⟩]

theorem attempted_failed {res : Except String Unit × Attached} {err : String} {seen : Multiset EbpfResource}
    {trace : List (Op EbpfResource)} (hres : res = (.error err, { s with trace := trace }))
    (hreplay : replay trace = some ((s.rings : Multiset EbpfResource) + s.closers, seen))
    (hseen : ∀ r ∈ seen, r.program ∈ p :: ps) : Attempted p ps s res := by
  subst hres
  exact ⟨⟨seen, hreplay, hseen⟩, rfl, fun _ _ => rfl, nofun⟩

theorem attachProgram_attempted (loading opening : String) {probes : List EbpfProbe}
    (hnd : (probes.map (·.name)).Nodup) (hp : p ∉ ps) (h : s.Holds ps) :
    Attempted p ps s (attachProgram k p loading opening probes s) := by
  obtain ⟨seen, hreplay, hseen⟩ := h
  have hfresh : ∀ part, (⟨p, part⟩ : EbpfResource) ∉ seen := fun part hr => hp (hseen _ hr)
  rw [attachProgram]
  cases k.opens ⟨p, .objects⟩ with
  | error err => exact attempted_failed rfl hreplay fun r hr => List.mem_cons_of_mem _ (hseen r hr)
  | ok u =>
    have hobjs := replay_opened hreplay (hfresh .objects)
    rw [← add_zero (_ ::ₘ _), ← Multiset.coe_nil] at hobjs
    obtain ⟨seen', hlinks, hnew⟩ := attachLinks_replay (k := k) (p := p) hnd hobjs fun probe _ => by
      simp [hfresh]
    have hprog : ∀ r ∈ seen', r.program ∈ p :: ps := by
      intro r hr
      rcases hnew r hr with hr | ⟨rfl, -⟩
      · rcases Multiset.mem_cons.1 hr with rfl | hr
        · exact List.mem_cons_self
        · exact List.mem_cons_of_mem _ (hseen r hr)
      · exact List.mem_cons_self
    have hreader : (⟨p, .reader⟩ : EbpfResource) ∉ seen' := by
      intro hr
      rcases hnew _ hr with hr | ⟨-, hpart⟩
      · rcases Multiset.mem_cons.1 hr with he | hr
        · simp at he
        · exact hfresh _ hr
      · exact hpart rfl
    dsimp only
    generalize attachLinks k p probes [] (s.trace ++ [.opened ⟨p, .objects⟩]) = linked at hlinks
    obtain ⟨linked, links, trace⟩ := linked
    -- the links and the objects, together, are what would be closed again
    have hopen : replay trace = some ((s.rings : Multiset EbpfResource) + s.closers +
        ((links ++ [⟨p, .objects⟩] : List EbpfResource) : Multiset EbpfResource), seen') := by
      rw [hlinks, ← Multiset.coe_add, Multiset.coe_singleton, ← Multiset.singleton_add]
      refine congrArg (fun l => some (l, seen')) ?_
      abel
    have hundo := replay_closeAll _ hopen
    cases linked with
    | error err => exact attempted_failed rfl hundo hprog
    | ok u =>
      dsimp only
      cases k.opens ⟨p, .reader⟩ with
      | error err => exact attempted_failed rfl hundo hprog
      | ok u =>
        refine ⟨⟨(⟨p, .reader⟩ : EbpfResource) ::ₘ seen', ?_, ?_⟩, rfl, nofun, fun _ => rfl⟩
        · rw [replay_opened hopen hreader]
          refine congrArg (fun l => some (l, _)) ?_
          simp only [← Multiset.coe_add, Multiset.coe_singleton, ← Multiset.singleton_add]
          abel
        · intro r hr
          rcases Multiset.mem_cons.1 hr with rfl | hr
          · exact List.mem_cons_self
          · exact hprog r hr

/-! ### The source -/

theorem Attached.Holds.mono {ps' : List EbpfProgram} (h : s.Holds ps) (hsub : ps ⊆ ps') : s.Holds ps' := by
  obtain ⟨seen, hreplay, hseen⟩ := h
  exact ⟨seen, hreplay, fun r hr => hsub (hseen r hr)⟩

theorem attachKprobeConnect_attempted (hp : .kprobe ∉ ps) (h : s.Holds ps) :
    Attempted .kprobe ps s (attachKprobeConnect k s) := by
  unfold attachKprobeConnect
  split
  · exact attachProgram_attempted _ _ (by decide) hp h
  · exact ⟨h.mono (List.subset_cons_self _ _), rfl, fun _ _ => rfl, nofun⟩

theorem attachKprobeConnect_isOk : (attachKprobeConnect k s).1 = .ok () ↔
    k.kprobeArch = true ∧ k.Attaches .kprobe kprobeProbes := by
  unfold attachKprobeConnect
  split
  · rename_i harch
    rw [attachProgram_isOk, and_iff_right harch]
  · simp [*]

/-- The reader of the connect ring, once there is one. -/
def Attached.connectReader (s : Attached) : List EbpfResource := s.mode.toList.map fun m => ⟨m.program, .reader⟩

/-- A source that has a mode has that mode's reader, and no other yet. -/
def Attached.Ready (s : Attached) : Prop := s.rings = s.connectReader

theorem attachPreferred_ready (k : EbpfKernel) :
    (attachPreferred k {}).2.Holds [.fentry] ∧ (attachPreferred k {}).2.Ready ∧
    ((attachPreferred k {}).2.mode ≠ none ↔ k.btfAvailable = true ∧ k.Attaches .fentry fentryProbes) := by
  have h0 : ({} : Attached).Holds [] := ⟨0, rfl, by simp⟩
  have hatt : Attempted .fentry [] {} (attachFentry k {}) := attachProgram_attempted _ _ (by decide) List.not_mem_nil h0
  have hok : (attachFentry k {}).1 = .ok () ↔ _ := attachProgram_isOk _ _ _ _
  unfold attachPreferred
  split
  · rename_i hbtf
    generalize attachFentry k {} = res at hatt hok
    obtain ⟨_ | _, s⟩ := res
    · have hrings : s.rings = [] := hatt.failed _ rfl
      have hmode : s.mode = none := hatt.mode
      refine ⟨hatt.holds, ?_, by simpa [hmode, hbtf] using hok⟩
      rw [Attached.Ready, hrings, Attached.connectReader, hmode]
      rfl
    · have hrings : s.rings = [] ++ [⟨.fentry, .reader⟩] := hatt.ok rfl
      refine ⟨hatt.holds, ?_, by simpa [hbtf] using hok⟩
      rw [Attached.Ready, hrings]
      rfl
  · rename_i hbtf
    exact ⟨h0.mono (List.nil_subset _), rfl, by simp [hbtf]⟩

theorem attachFallback_ready (fentryErr : Option String) (hp : .kprobe ∉ ps) (h : s.Holds ps) (hready : s.Ready) :
    (attachFallback k fentryErr s).2.Holds (.kprobe :: ps) ∧ (attachFallback k fentryErr s).2.Ready ∧
    ((attachFallback k fentryErr s).1 = .ok () ↔
      s.mode ≠ none ∨ k.kprobeArch = true ∧ k.Attaches .kprobe kprobeProbes) ∧
    ((attachFallback k fentryErr s).1 = .ok () ↔ (attachFallback k fentryErr s).2.mode ≠ none) := by
  have hatt : Attempted .kprobe ps s (attachKprobeConnect k s) := attachKprobeConnect_attempted hp h
  have hok := attachKprobeConnect_isOk (k := k) (s := s)
  unfold attachFallback
  split
  · rename_i hmode
    generalize attachKprobeConnect k s = res at hatt hok
    obtain ⟨_ | _, s'⟩ := res
    · have hrings : s'.rings = s.rings := hatt.failed _ rfl
      have hmode' : s'.mode = s.mode := hatt.mode
      refine ⟨hatt.holds, ?_, by simpa [hmode] using hok, by simp [hmode', hmode]⟩
      rw [Attached.Ready, hrings, Attached.connectReader, hmode']
      exact hready
    · have hrings : s'.rings = s.rings ++ [⟨.kprobe, .reader⟩] := hatt.ok rfl
      rw [Attached.Ready, Attached.connectReader, hmode] at hready
      refine ⟨hatt.holds, ?_, by simpa [hmode] using hok, by simp⟩
      rw [Attached.Ready, hrings, hready]
      rfl
  · rename_i hmode
    exact ⟨h.mono (List.subset_cons_self _ _), hready, by simp [hmode], by simp [hmode]⟩

/-- What is open once `attach` is done, and when it succeeds. -/
theorem attach_holds (k : EbpfKernel) :
    (attach k {}).2.Holds [.sockstate, .kprobe, .fentry] ∧
    ((attach k {}).1 = .ok () ↔ (k.btfAvailable = true ∧ k.Attaches .fentry fentryProbes ∨
      k.kprobeArch = true ∧ k.Attaches .kprobe kprobeProbes) ∧ k.Attaches .sockstate sockstateProbes) ∧
    ((attach k {}).1 = .ok () → ∃ m, (attach k {}).2.mode = some m ∧
      (attach k {}).2.rings = [⟨m.program, .reader⟩, ⟨.sockstate, .reader⟩]) ∧
    (∀ err, (attach k {}).1 = .error err → (attach k {}).2.Ready) := by
  obtain ⟨hpref, hready, hmode⟩ := attachPreferred_ready k
  obtain ⟨hfall, hready', hok, hsome⟩ := attachFallback_ready (k := k) (attachPreferred k {}).1 (by decide) hpref hready
  rw [hmode] at hok
  unfold attach
  dsimp only
  generalize attachFallback k (attachPreferred k {}).1 (attachPreferred k {}).2 = res at hfall hready' hok hsome
  obtain ⟨_ | _, s⟩ := res
  · have hno : ¬ (k.btfAvailable = true ∧ k.Attaches .fentry fentryProbes ∨
        k.kprobeArch = true ∧ k.Attaches .kprobe kprobeProbes) := by simpa using hok
    refine ⟨hfall.mono (List.subset_cons_self _ _), ?_, nofun, fun _ _ => hready'⟩
    simp [hno]
  · have hyes := hok.1 rfl
    have hatt : Attempted .sockstate [.kprobe, .fentry] s (attachSockstate k s) :=
      attachProgram_attempted _ _ (by decide) (by decide) hfall
    have hsock : (attachSockstate k s).1 = .ok () ↔ _ := attachProgram_isOk _ _ _ _
    obtain ⟨m, hm⟩ := Option.ne_none_iff_exists'.1 (hsome.1 rfl)
    have hrings : s.rings = [⟨m.program, .reader⟩] := by
      have : s.mode = some m := hm
      rw [show s.rings = _ from hready', Attached.connectReader, this]
      rfl
    dsimp only
    generalize attachSockstate k s = res' at hatt hsock
    obtain ⟨_ | _, s'⟩ := res'
    · have hmode' : s'.mode = s.mode := hatt.mode
      have hrings' : s'.rings = s.rings := hatt.failed _ rfl
      have hno : ¬ k.Attaches .sockstate sockstateProbes := by simpa using hsock
      refine ⟨hatt.holds, by simp [hno], nofun, fun _ _ => ?_⟩
      rw [Attached.Ready, hrings', Attached.connectReader, hmode']
      exact hready'
    · have hrings' : s'.rings = s.rings ++ [⟨.sockstate, .reader⟩] := hatt.ok rfl
      have hmode' : s'.mode = some m := hatt.mode.trans hm
      refine ⟨hatt.holds, ?_, fun _ => ⟨m, hmode', by rw [hrings', hrings]; rfl⟩, nofun⟩
      exact ⟨fun _ => ⟨hyes, hsock.1 rfl⟩, fun _ => rfl⟩

theorem Attached.Holds.closeAll (h : s.Holds ps) :
    ∃ seen, replay s.closeAll.trace = some ((s.rings : Multiset EbpfResource), seen) := by
  obtain ⟨seen, hreplay, -⟩ := h
  refine ⟨seen, replay_closeAll _ ?_⟩
  rw [hreplay, Multiset.coe_reverse]

theorem Attached.Holds.run (h : s.Holds ps) : ∃ seen, replay s.run.trace = some (0, seen) := by
  obtain ⟨seen, hreplay, -⟩ := h
  refine ⟨seen, replay_closeAll _ ?_⟩
  rw [Multiset.coe_reverse, zero_add]
  exact replay_closeAll _ (by rw [hreplay, add_comm])

/-- Whatever the kernel answers: a source comes out iff the memory limit is lifted and the sockstate
program and one of the connect programs attach; it then reads the connect ring and the sockstate
ring, and once `Run` has ended nothing is open. When none comes out, all that is left open is the
connect ring's reader, if the connect hooks had been attached. On the way nothing is opened or closed twice. -/
theorem ebpf_lifecycle (k : EbpfKernel) :
    ((newEBPFSource k).1 = .ok () ↔ k.removeMemlock = .ok () ∧
      (k.btfAvailable = true ∧ k.Attaches .fentry fentryProbes ∨
        k.kprobeArch = true ∧ k.Attaches .kprobe kprobeProbes) ∧ k.Attaches .sockstate sockstateProbes) ∧
    ((newEBPFSource k).1 = .ok () →
      (∃ m, (newEBPFSource k).2.mode = some m ∧
        (newEBPFSource k).2.rings = [⟨m.program, .reader⟩, ⟨.sockstate, .reader⟩]) ∧
      (∃ seen, replay (newEBPFSource k).2.trace =
        some (((newEBPFSource k).2.rings : Multiset EbpfResource) + (newEBPFSource k).2.closers, seen)) ∧
      ∃ seen, replay (newEBPFSource k).2.run.trace = some (0, seen)) ∧
    ∀ err, (newEBPFSource k).1 = .error err → ∃ seen, replay (newEBPFSource k).2.trace =
      some (((newEBPFSource k).2.connectReader : Multiset EbpfResource), seen) := by
  obtain ⟨hholds, hok, hrings, hready⟩ := attach_holds k
  unfold newEBPFSource
  cases hmem : k.removeMemlock with
  | error err => exact ⟨by simp, nofun, fun _ _ => ⟨0, rfl⟩⟩
  | ok u =>
    dsimp only
    generalize attach k {} = res at hholds hok hrings hready
    obtain ⟨_ | _, s⟩ := res
    · refine ⟨?_, nofun, fun _ _ => ?_⟩
      · simpa using hok
      · obtain ⟨seen, hclosed⟩ := hholds.closeAll
        have hrings' : s.rings = _ := hready _ rfl
        exact ⟨seen, by rw [hclosed, hrings']; rfl⟩
    · refine ⟨?_, fun _ => ⟨hrings rfl, ?_, hholds.run⟩, nofun⟩
      · simpa using hok
      · obtain ⟨seen, hreplay, -⟩ := hholds
        exact ⟨seen, hreplay⟩

end Trafficmon
