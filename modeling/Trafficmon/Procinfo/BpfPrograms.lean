import Trafficmon.Lib.Layout
import Trafficmon.Lib.Mealy
import Trafficmon.Procinfo.EbpfRings

/-!
# The BPF programs (`procinfo/bpf/*.c`)

A program runs in the kernel, fills a `struct event` in ring memory it reserved and submits it; the
Go side reads the packed bytes back. Two things are proved across that border. What reaches the
connection table is the socket's own 4-tuple, whatever the ring memory held before
(`table_sees_socket`): an IPv4 event leaves twelve bytes of each address unwritten. And the
kprobe/kretprobe pair, which hands the socket from entry to return through `connect_args_map`,
reports what fexit reports (`kprobe_reports_fexit`).

`tcp_v6_connect` calls `tcp_v4_connect` on the same socket for a mapped address. Both hooks then run
twice; the pair has given its map entry away at the inner return and reports nothing at the outer.
-/

namespace Trafficmon
open EBPFSource

/-! ### The sample -/

def eventFields : (UInt64 × UInt64 × UInt32 × UInt8 × UInt8 × UInt16 × UInt16 × Vector UInt8 16 × Vector UInt8 16 ×
    UInt32 × UInt8) ≃ KernelEvent where
  toFun f := ⟨f.1, f.2.1, f.2.2.1, f.2.2.2.1, f.2.2.2.2.1, f.2.2.2.2.2.1, f.2.2.2.2.2.2.1, f.2.2.2.2.2.2.2.1,
    f.2.2.2.2.2.2.2.2.1, f.2.2.2.2.2.2.2.2.2.1, f.2.2.2.2.2.2.2.2.2.2⟩
  invFun e := (e.timestampNs, e.skaddr, e.pid, e.proto, e.ipVer, e.localPort, e.remotePort, e.localAddr, e.remoteAddr,
    e.newState, e.source)
  left_inv _ := rfl
  right_inv _ := rfl

/-- `struct event`, packed; all three objects declare it alike. -/
def eventLayout : Layout KernelEvent :=
  (Layout.uint64.pair <| Layout.uint64.pair <| Layout.uint32.pair <| Layout.uint8.pair <| Layout.uint8.pair <|
    Layout.uint16.pair <| Layout.uint16.pair <| (Layout.bytes 16).pair <| (Layout.bytes 16).pair <|
    Layout.uint32.pair Layout.uint8).map eventFields

example : eventLayout.size = 63 := rfl

def decodeKprobeEvent : KernelEvent → EbpfEvent := KernelEvent.decode

/-- `binary.Read` of a sample, and the copy into an `ebpfEvent`. -/
def decodeSample (decode : KernelEvent → EbpfEvent) (raw : List UInt8) : Except Layout.ReadError EbpfEvent :=
  (eventLayout.read raw).map decode

/-! ### The programs -/

/-- What the programs read of `struct sock_common`, the `__be` fields as the machine loads them. -/
structure SockCommon where
  skcDaddr : UInt32
  skcRcvSaddr : UInt32
  skcDport : UInt16
  skcNum : UInt16
  skcState : UInt8
  skcV6Daddr : Vector UInt8 16
  skcV6RcvSaddr : Vector UInt8 16
deriving DecidableEq, Repr

/-- The fields of `trace_event_raw_inet_sock_set_state` that are read. -/
structure SetStateArgs where
  skaddr : UInt64
  newstate : Int32
  sport : UInt16
  dport : UInt16
  family : UInt16
  protocol : UInt16
  saddr : Vector UInt8 4
  daddr : Vector UInt8 4
  saddrV6 : Vector UInt8 16
  daddrV6 : Vector UInt8 16

/-- The helpers' answers in one run of a program. `reserve` is null when the ring is full; else it is
memory with what an earlier sample left there. -/
structure BpfCtx where
  ktimeNs : UInt64
  pidTgid : UInt64
  sock : UInt64 → SockCommon
  reserve : Option KernelEvent

namespace BpfCtx

def pid (ctx : BpfCtx) : UInt32 := (ctx.pidTgid >>> 32).toUInt32

def tid (ctx : BpfCtx) : UInt32 := ctx.pidTgid.toUInt32

end BpfCtx

def bpfNtohs (x : UInt16) : UInt16 := Layout.swap16 x

/-- `memcpy` to the start of an address field. -/
def memcpy (dst : Vector UInt8 16) (src : List UInt8) : Vector UInt8 16 := Vector.ofFn fun i => src.getD i dst[i]

def fillAddrsV4 (ev : KernelEvent) (saddr daddr : UInt32) : KernelEvent :=
  { ev with
    ipVer := 4
    localAddr := memcpy ev.localAddr (Layout.uint32.encode saddr)
    remoteAddr := memcpy ev.remoteAddr (Layout.uint32.encode daddr) }

def fillAddrsV6 (ev : KernelEvent) (saddr daddr : Vector UInt8 16) : KernelEvent :=
  { ev with
    ipVer := 6
    localAddr := saddr
    remoteAddr := daddr }

/-- From `bpf_ringbuf_reserve` on, `emit_connect_event` and `kretprobe_connect_exit` are the same text. -/
def submitConnect (ctx : BpfCtx) (sk : UInt64) (ipVer : Int32) : Option KernelEvent :=
  match ctx.reserve with
  | none => none
  | some ev =>
    let c := ctx.sock sk
    let ev := { ev with
      timestampNs := ctx.ktimeNs
      skaddr := sk
      pid := ctx.pid
      proto := 0
      source := 0
      newState := c.skcState.toUInt32
      localPort := c.skcNum
      remotePort := bpfNtohs c.skcDport }
    if ipVer = 4 then some (fillAddrsV4 ev c.skcRcvSaddr c.skcDaddr)
    else some (fillAddrsV6 ev c.skcV6RcvSaddr c.skcV6Daddr)

def emitConnectEvent (ctx : BpfCtx) (sk : UInt64) (ret ipVer : Int32) : Option KernelEvent :=
  if ret ≠ 0 then none else submitConnect ctx sk ipVer

abbrev ConnectArgs := GoMap UInt32 UInt64

def connectArgsMaxEntries : ℕ := 4096

/-- `bpf_map_update_elem` with `BPF_ANY`: a full map takes no new key. -/
def mapUpdateElem (m : ConnectArgs) (tid : UInt32) (skp : UInt64) : ConnectArgs :=
  if tid ∈ m ∨ m.keys.length < connectArgsMaxEntries then m.insert tid skp else m

def kprobeConnectEntry (m : ConnectArgs) (ctx : BpfCtx) (sk : UInt64) : ConnectArgs := mapUpdateElem m ctx.tid sk

def kretprobeConnectExit (m : ConnectArgs) (ctx : BpfCtx) (ret ipVer : Int32) : ConnectArgs × Option KernelEvent :=
  match m.lookup ctx.tid with
  | none => (m, none)
  | some sk => (m.erase ctx.tid, if ret ≠ 0 ∨ sk = 0 then none else submitConnect ctx sk ipVer)

def afInet : UInt16 := 2

def ipprotoTCP : UInt16 := 6

def tracepointInetSockSetState (ctx : BpfCtx) (args : SetStateArgs) : Option KernelEvent :=
  if args.protocol ≠ ipprotoTCP then none
  else
    match ctx.reserve with
    | none => none
    | some ev =>
      let ev := { ev with
        timestampNs := ctx.ktimeNs
        skaddr := args.skaddr
        pid := ctx.pid
        proto := 0
        source := 1
        newState := args.newstate.toUInt32
        localPort := args.sport
        remotePort := args.dport }
      if args.family = afInet then
        some (fillAddrsV4 ev (Layout.uint32.decode args.saddr.toList) (Layout.uint32.decode args.daddr.toList))
      else some (fillAddrsV6 ev args.saddrV6 args.daddrV6)

/-! ### The socket's tuple -/

/-- A socket's own 4-tuple, the addresses in network order. -/
inductive SockTuple
  | v4 (localAddr : Vector UInt8 4) (localPort : UInt16) (remoteAddr : Vector UInt8 4) (remotePort : UInt16)
  | v6 (localAddr : Vector UInt8 16) (localPort : UInt16) (remoteAddr : Vector UInt8 16) (remotePort : UInt16)

namespace SockTuple

def ipVer : SockTuple → Int32
  | .v4 .. => 4
  | .v6 .. => 6

def key : SockTuple → EbpfConnKey
  | .v4 la lp ra rp => ⟨.v4 la, lp, .v4 ra, rp⟩
  | .v6 la lp ra rp => ⟨(Addr.v6 la "").unmap, lp, (Addr.v6 ra "").unmap, rp⟩

/-- The tuple as an event with nothing left over behind an IPv4 address. -/
def event (t : SockTuple) (sk : UInt64) (pid newState : UInt32) : EbpfEvent :=
  match t with
  | .v4 la lp ra rp =>
    ⟨sk, pid, 4, lp, rp, memcpy (Vector.replicate 16 0) la.toList, memcpy (Vector.replicate 16 0) ra.toList, newState⟩
  | .v6 la lp ra rp => ⟨sk, pid, 6, lp, rp, la, ra, newState⟩

end SockTuple

/-- `struct sock` keeps addresses and the remote port in network order, the local port in the machine's. -/
def SockCommon.Holds (c : SockCommon) : SockTuple → Prop
  | .v4 la lp ra rp => Layout.uint32.encode c.skcRcvSaddr = la.toList ∧ Layout.uint32.encode c.skcDaddr = ra.toList ∧
      c.skcNum = lp ∧ Layout.uint16.encode c.skcDport = (Layout.uint16.encode rp).reverse
  | .v6 la lp ra rp => c.skcV6RcvSaddr = la ∧ c.skcV6Daddr = ra ∧
      c.skcNum = lp ∧ Layout.uint16.encode c.skcDport = (Layout.uint16.encode rp).reverse

def afInet6 : UInt16 := 10

/-- The tracepoint gives both ports in the machine's order. -/
def SetStateArgs.Holds (a : SetStateArgs) : SockTuple → Prop
  | .v4 la lp ra rp => a.family = afInet ∧ a.saddr = la ∧ a.daddr = ra ∧ a.sport = lp ∧ a.dport = rp
  | .v6 la lp ra rp => a.family = afInet6 ∧ a.saddrV6 = la ∧ a.daddrV6 = ra ∧ a.sport = lp ∧ a.dport = rp

/-- A program run in `ctx` submits `ev` for the socket `sk` of tuple `t`, in the TCP state given. -/
inductive Submits (ctx : BpfCtx) (t : SockTuple) (sk : UInt64) : UInt32 → KernelEvent → Prop
  | fexit {ret ev} (holds : (ctx.sock sk).Holds t) (emit : emitConnectEvent ctx sk ret t.ipVer = some ev) :
      Submits ctx t sk (ctx.sock sk).skcState.toUInt32 ev
  | kretprobe {m : ConnectArgs} {ret ev} (stored : m.lookup ctx.tid = some sk) (holds : (ctx.sock sk).Holds t)
      (emit : (kretprobeConnectExit m ctx ret t.ipVer).2 = some ev) :
      Submits ctx t sk (ctx.sock sk).skcState.toUInt32 ev
  | setState {args : SetStateArgs} {ev} (same : args.skaddr = sk) (holds : args.Holds t)
      (emit : tracepointInetSockSetState ctx args = some ev) : Submits ctx t sk args.newstate.toUInt32 ev

theorem addrFromEventBytes_memcpy {dst : Vector UInt8 16} {src : List UInt8} {b : Vector UInt8 4}
    (h : src = b.toList) : addrFromEventBytes 4 (memcpy dst src) = some (.v4 b) := by
  subst h
  rw [addrFromEventBytes, if_pos rfl]
  refine congrArg (some ∘ Addr.v4) ?_
  ext i hi
  match i, hi with
  | 0, _ | 1, _ | 2, _ | 3, _ => simp [memcpy]

/-- An event matters by its tuple, its socket, its PID and its state. -/
theorem handleEvent_congr {e e' : EbpfEvent} (hkey : e.key = e'.key) (hsk : e.skAddr = e'.skAddr)
    (hpid : e.pid = e'.pid) (hstate : e.newState = e'.newState) (processName : Int32 → Option String) (s : EBPFSource) :
    s.handleEvent processName e = s.handleEvent processName e' := by
  have hports : ∀ {x : EbpfEvent} {k}, x.key = some k → x.localPort = k.localPort ∧ x.remotePort = k.remotePort := by
    intro x k hk
    unfold EbpfEvent.key at hk
    split at hk
    · cases hk
    split at hk
    · cases hk
    obtain rfl := Option.some.inj hk
    exact ⟨rfl, rfl⟩
  have hst : e.state = e'.state := by rw [EbpfEvent.state, EbpfEvent.state, hstate]
  cases hk : e.key with
  | none => simp only [handleEvent, ← hkey, hk]
  | some k =>
    obtain ⟨h1, h2⟩ := hports hk
    obtain ⟨h3, h4⟩ := hports (hkey ▸ hk)
    simp only [handleEvent, ← hkey, hk, ← hst, ← hpid, h1, h2, h3, h4]
    rw [hsk]

theorem submitConnect_decode {ctx : BpfCtx} {t : SockTuple} {sk : UInt64} {ev : KernelEvent}
    (holds : (ctx.sock sk).Holds t) (h : submitConnect ctx sk t.ipVer = some ev) :
    ev.decode.key = some t.key ∧ ev.decode.skAddr = sk ∧ ev.decode.pid = ctx.pid ∧
      ev.decode.newState = (ctx.sock sk).skcState.toUInt32 := by
  unfold submitConnect at h
  split at h
  · cases h
  cases t with
  | v4 la lp ra rp =>
    obtain ⟨hs, hd, rfl, hp⟩ := holds
    simp only [SockTuple.ipVer, ↓reduceIte] at h
    obtain rfl := Option.some.inj h
    refine ⟨?_, rfl, rfl, rfl⟩
    simp only [EbpfEvent.key, KernelEvent.decode, fillAddrsV4, addrFromEventBytes_memcpy hs,
      addrFromEventBytes_memcpy hd, bpfNtohs, Layout.swap16_eq hp, SockTuple.key]
  | v6 la lp ra rp =>
    obtain ⟨rfl, rfl, rfl, hp⟩ := holds
    simp only [SockTuple.ipVer, show ¬(6 : Int32) = 4 by decide, ↓reduceIte] at h
    obtain rfl := Option.some.inj h
    refine ⟨?_, rfl, rfl, rfl⟩
    rw [SockTuple.key, ← Layout.swap16_eq hp]
    rfl

theorem setState_decode {ctx : BpfCtx} {t : SockTuple} {args : SetStateArgs} {ev : KernelEvent} (holds : args.Holds t)
    (h : tracepointInetSockSetState ctx args = some ev) :
    ev.decode.key = some t.key ∧ ev.decode.skAddr = args.skaddr ∧ ev.decode.pid = ctx.pid ∧
      ev.decode.newState = args.newstate.toUInt32 := by
  unfold tracepointInetSockSetState at h
  split at h
  · cases h
  split at h
  · cases h
  have hcopy : ∀ b : Vector UInt8 4, Layout.uint32.encode (Layout.uint32.decode b.toList) = b.toList :=
    fun b => Layout.uint32.encode_decode _ b.length_toList
  cases t with
  | v4 la lp ra rp =>
    obtain ⟨hf, rfl, rfl, rfl, rfl⟩ := holds
    rw [if_pos hf] at h
    obtain rfl := Option.some.inj h
    refine ⟨?_, rfl, rfl, rfl⟩
    simp only [EbpfEvent.key, KernelEvent.decode, fillAddrsV4, addrFromEventBytes_memcpy (hcopy _), SockTuple.key]
  | v6 la lp ra rp =>
    obtain ⟨hf, rfl, rfl, rfl, rfl⟩ := holds
    rw [if_neg (by rw [hf]; decide)] at h
    obtain rfl := Option.some.inj h
    exact ⟨rfl, rfl, rfl, rfl⟩

/-- What the decoders make of a submitted event: the tuple of the socket. -/
theorem Submits.decode_eq {ctx : BpfCtx} {t : SockTuple} {sk : UInt64} {st : UInt32} {ev : KernelEvent}
    (h : Submits ctx t sk st ev) : ev.decode.key = some t.key ∧ ev.decode.skAddr = sk ∧ ev.decode.pid = ctx.pid ∧
      ev.decode.newState = st := by
  cases h with
  | fexit holds emit =>
    unfold emitConnectEvent at emit
    split_ifs at emit
    exact submitConnect_decode holds emit
  | kretprobe stored holds emit =>
    simp only [kretprobeConnectExit, stored] at emit
    split_ifs at emit
    exact submitConnect_decode holds emit
  | setState same holds emit =>
    subst same
    exact setState_decode holds emit

theorem SockTuple.key_event (t : SockTuple) (sk : UInt64) (pid newState : UInt32) :
    (t.event sk pid newState).key = some t.key := by
  cases t with
  | v4 la lp ra rp =>
    simp only [EbpfEvent.key, SockTuple.event, addrFromEventBytes_memcpy rfl, SockTuple.key]
  | v6 la lp ra rp => rfl

/-- Whichever program submits an event for a socket, every decoder reads its sample back, whatever
follows it, as the socket's own 4-tuple, and the table takes it as the event that says just that: what
the reserved memory held before does not show. -/
theorem table_sees_socket (ctx : BpfCtx) (t : SockTuple) (sk : UInt64) (st : UInt32) (ev : KernelEvent)
    (h : Submits ctx t sk st ev) (rest : List UInt8) : ∃ e : EbpfEvent,
      (∀ decode ∈ [decodeFentryEvent, decodeKprobeEvent, decodeSockstateEvent],
        decodeSample decode (eventLayout.encode ev ++ rest) = .ok e) ∧
      e.key = some t.key ∧
      ∀ processName s, handleEvent processName s e = handleEvent processName s (t.event sk ctx.pid st) := by
  obtain ⟨hkey, hsk, hpid, hst⟩ := h.decode_eq
  refine ⟨ev.decode, fun decode hd => ?_, hkey, fun processName s => ?_⟩
  · rw [decodeSample, eventLayout.read_encode_append]
    simp only [List.mem_cons, List.not_mem_nil, or_false] at hd
    rcases hd with rfl | rfl | rfl <;> rfl
  · refine handleEvent_congr (hkey.trans (t.key_event sk ctx.pid st).symm) ?_ ?_ ?_ processName s
    · rw [hsk]; cases t <;> rfl
    · rw [hpid]; cases t <;> rfl
    · rw [hst]; cases t <;> rfl

/-- 10.0.0.2:40000 connected to 9.9.9.9:443, as the machine loads it. -/
def loadedSock : SockCommon :=
  ⟨0x09090909, 0x0200000a, 0xbb01, 40000, 1, Vector.replicate 16 0, Vector.replicate 16 0⟩

/-- Process 100, thread 101; the ring memory is full of an old sample. -/
def dirtyCtx : BpfCtx where
  ktimeNs := 5
  pidTgid := 0x6400000065
  sock _ := loadedSock
  reserve := some ⟨1, 1, 1, 1, 1, 1, 1, Vector.replicate 16 0xaa, Vector.replicate 16 0xaa, 1, 1⟩

def loadedTuple : SockTuple := .v4 #v[10, 0, 0, 2] 40000 #v[9, 9, 9, 9] 443

theorem table_sees_socket_dirty : ∃ ev, Submits dirtyCtx loadedTuple 7 1 ev ∧ ∃ e : EbpfEvent,
    decodeSample decodeFentryEvent (eventLayout.encode ev ++ [0]) = .ok e ∧ e.key = some loadedTuple.key := by
  have holds : (dirtyCtx.sock 7).Holds loadedTuple := ⟨by decide, by decide, rfl, by decide⟩
  obtain ⟨ev, hev⟩ : ∃ ev, emitConnectEvent dirtyCtx 7 0 loadedTuple.ipVer = some ev :=
    Option.isSome_iff_exists.1 (by decide)
  have hs : Submits dirtyCtx loadedTuple 7 1 ev := .fexit holds hev
  obtain ⟨e, hdec, hkey, -⟩ := table_sees_socket dirtyCtx loadedTuple 7 1 ev hs [0]
  exact ⟨ev, hs, e, hdec _ (by simp), hkey⟩

/-! ### Entry and return -/

/-- `tcp_v4_connect` or `tcp_v6_connect` is entered or returns, in the thread of `ctx`. A call is `missed`
when the kernel had no free return instance for it: its kretprobe never runs. -/
inductive ConnectHook
  | enter (ctx : BpfCtx) (sk : UInt64)
  | leave (ctx : BpfCtx) (sk : UInt64) (ret ipVer : Int32) (missed : Bool)

/-- A call under way, and whether another was made inside it. -/
structure ConnectCall where
  sk : UInt64
  inner : Bool
deriving DecidableEq, Repr

/-- The calls each thread is in, innermost first. -/
abbrev Calls := UInt32 → List ConnectCall

namespace Calls

def step (calls : Calls) : ConnectHook → Calls
  | .enter ctx sk =>
    Function.update calls ctx.tid (⟨sk, false⟩ :: (calls ctx.tid).map fun c => { c with inner := true })
  | .leave ctx _ _ _ _ => Function.update calls ctx.tid (calls ctx.tid).tail

/-- What the kernel does: a thread returns from the call it is in, and what it calls from inside a
call is on the same socket. -/
def Pairs (calls : Calls) : ConnectHook → Prop
  | .enter ctx sk => sk ≠ 0 ∧ ∀ c ∈ calls ctx.tid, c.sk = sk
  | .leave ctx sk _ _ _ => sk ≠ 0 ∧ ∃ c, (calls ctx.tid).head? = some c ∧ c.sk = sk

/-- At most `n` threads are in a call. -/
def AtMost (n : ℕ) (calls : Calls) : Prop :=
  ∀ tids : List UInt32, tids.Nodup → (∀ t ∈ tids, calls t ≠ []) → tids.length ≤ n

end Calls

/-- The fexit programs: one event for each return. -/
def fexit : Mealy Calls ConnectHook (Option KernelEvent) where
  step := Calls.step
  output _
    | .enter _ _ => none
    | .leave ctx sk ret ipVer _ => emitConnectEvent ctx sk ret ipVer

/-- The same without the returns of calls that had another inside. -/
def fexitInnermost : Mealy Calls ConnectHook (Option KernelEvent) where
  step := Calls.step
  output calls
    | .enter _ _ => none
    | .leave ctx sk ret ipVer _ =>
      if ((calls ctx.tid).head?.map ConnectCall.inner) = some true then none else emitConnectEvent ctx sk ret ipVer

/-- The kprobe and kretprobe programs. -/
def kprobe : Mealy ConnectArgs ConnectHook (Option KernelEvent) where
  step m
    | .enter ctx sk => kprobeConnectEntry m ctx sk
    | .leave ctx _ ret ipVer missed => if missed then m else (kretprobeConnectExit m ctx ret ipVer).1
  output m
    | .enter _ _ => none
    | .leave ctx _ ret ipVer missed => if missed then none else (kretprobeConnectExit m ctx ret ipVer).2

def noCalls : Calls := fun _ => []

/-- The hooks of a kernel whose threads call `connect` one inside the other at most on one socket. -/
def Paired (trace : List ConnectHook) : Prop := Run.Meets Calls.step Calls.Pairs noCalls trace

def ConnectHook.missed : ConnectHook → Bool
  | .enter _ _ => false
  | .leave _ _ _ _ missed => missed

/-! ### What the map holds -/

/-- A thread's calls are all on one socket, the one the map has for it if it has any. -/
def Agrees (m : ConnectArgs) (calls : Calls) : Prop :=
  ∀ tid, ∃ sk, (∀ c ∈ calls tid, c.sk = sk) ∧ (calls tid ≠ [] → ∀ skp, m.lookup tid = some skp → skp = sk)

/-- The map has the socket of a thread's innermost call, until that call has returned. -/
def Current (m : ConnectArgs) (calls : Calls) : Prop :=
  ∀ tid, m.lookup tid = ((calls tid).head?.filter fun c => !c.inner).map ConnectCall.sk ∧
    ∀ c ∈ (calls tid).tail, c.inner = true

section Steps
variable {m : ConnectArgs} {calls : Calls} {ctx : BpfCtx} {sk : UInt64} {ret ipVer : Int32} {missed : Bool}

theorem lookup_mapUpdateElem_ne {tid t : UInt32} (h : t ≠ tid) (m : ConnectArgs) (sk : UInt64) :
    (mapUpdateElem m tid sk).lookup t = m.lookup t := by
  unfold mapUpdateElem
  split_ifs
  · exact AList.lookup_insert_ne h
  · rfl

/-- A thread the map has an entry of gets the new one even when the map is full. -/
theorem lookup_mapUpdateElem_self {tid : UInt32} {skp : UInt64} (h : (mapUpdateElem m tid sk).lookup tid = some skp) :
    skp = sk := by
  unfold mapUpdateElem at h
  split_ifs at h with hroom
  · rw [AList.lookup_insert] at h
    exact (Option.some.inj h).symm
  · exact absurd (.inl (GoMap.mem_iff_lookup.2 ⟨skp, h⟩)) hroom

theorem lookup_kretprobe_ne {tid : UInt32} (h : tid ≠ ctx.tid) :
    (kretprobeConnectExit m ctx ret ipVer).1.lookup tid = m.lookup tid := by
  unfold kretprobeConnectExit
  split
  · rfl
  · exact AList.lookup_erase_ne h

theorem lookup_kretprobe_self : (kretprobeConnectExit m ctx ret ipVer).1.lookup ctx.tid = none := by
  unfold kretprobeConnectExit
  split
  · assumption
  · exact AList.lookup_erase _ m

theorem Agrees.enter (h : Agrees m calls) (hp : calls.Pairs (.enter ctx sk)) :
    Agrees (kprobe.step m (.enter ctx sk)) (calls.step (.enter ctx sk)) := by
  intro tid
  by_cases ht : tid = ctx.tid
  · subst ht
    refine ⟨sk, fun c hc => ?_, fun _ skp => lookup_mapUpdateElem_self⟩
    rw [Calls.step, Function.update_self, List.mem_cons, List.mem_map] at hc
    rcases hc with rfl | ⟨c', hc', rfl⟩
    · rfl
    · exact hp.2 c' hc'
  · have hl := lookup_mapUpdateElem_ne ht m sk
    obtain ⟨sk', h1, h2⟩ := h tid
    refine ⟨sk', ?_, ?_⟩ <;> rw [Calls.step, Function.update_of_ne ht]
    · exact h1
    · exact fun hne skp hs => h2 hne skp (hl.symm.trans hs)

theorem Agrees.leave (h : Agrees m calls) :
    Agrees (kprobe.step m (.leave ctx sk ret ipVer missed)) (calls.step (.leave ctx sk ret ipVer missed)) := by
  intro tid
  obtain ⟨sk', h1, h2⟩ := h tid
  by_cases ht : tid = ctx.tid
  · subst ht
    refine ⟨sk', ?_, ?_⟩ <;> rw [Calls.step, Function.update_self]
    · exact fun c hc => h1 c (List.mem_of_mem_tail hc)
    · intro hne skp hs
      refine h2 (fun hnil => hne (by rw [hnil]; rfl)) skp ?_
      simp only [kprobe] at hs
      split_ifs at hs
      · exact hs
      · rw [lookup_kretprobe_self] at hs
        cases hs
  · refine ⟨sk', ?_, ?_⟩ <;> rw [Calls.step, Function.update_of_ne ht]
    · exact h1
    · intro hne skp hs
      refine h2 hne skp ?_
      simp only [kprobe] at hs
      split_ifs at hs
      · exact hs
      · rwa [lookup_kretprobe_ne ht] at hs

theorem Agrees.step (h : Agrees m calls) (e : ConnectHook) (hp : calls.Pairs e) :
    Agrees (kprobe.step m e) (calls.step e) := by
  cases e with
  | enter ctx sk => exact h.enter hp
  | leave ctx sk ret ipVer missed => exact h.leave

theorem Agrees.output (h : Agrees m calls) (e : ConnectHook) (hp : calls.Pairs e) :
    kprobe.output m e = none ∨ kprobe.output m e = fexit.output calls e := by
  cases e with
  | enter ctx sk => exact .inl rfl
  | leave ctx sk ret ipVer missed =>
    simp only [kprobe, fexit, kretprobeConnectExit]
    cases missed with
    | true => exact .inl rfl
    | false =>
      cases hl : m.lookup ctx.tid with
      | none => exact .inl rfl
      | some skp =>
        obtain ⟨h0, c, hc, rfl⟩ := hp
        obtain ⟨sk', h1, h2⟩ := h ctx.tid
        have hmem := List.mem_of_head? hc
        obtain rfl : skp = c.sk := (h2 (List.ne_nil_of_mem hmem) skp hl).trans (h1 c hmem).symm
        right
        simp [emitConnectEvent, h0]

theorem Current.ne_nil (h : Current m calls) {tid : UInt32} (ht : tid ∈ m.keys) : calls tid ≠ [] := by
  intro hnil
  have hl := (h tid).1
  rw [hnil] at hl
  exact AList.lookup_eq_none.1 hl (AList.mem_keys.2 ht)

/-- The map has room: each of its keys is a thread in a call, and so is the one that enters. -/
theorem Current.room (h : Current m calls) (hmost : (calls.step (.enter ctx sk)).AtMost connectArgsMaxEntries) :
    ctx.tid ∈ m ∨ m.keys.length < connectArgsMaxEntries := by
  by_cases hmem : ctx.tid ∈ m
  · exact .inl hmem
  · refine .inr (hmost (ctx.tid :: m.keys) (List.nodup_cons.2 ⟨hmem, m.keys_nodup⟩) fun t ht => ?_)
    rcases List.mem_cons.1 ht with rfl | ht
    · rw [Calls.step, Function.update_self]
      exact List.cons_ne_nil _ _
    · have hne : t ≠ ctx.tid := by rintro rfl; exact hmem (AList.mem_keys.2 ht)
      rw [Calls.step, Function.update_of_ne hne]
      exact h.ne_nil ht

theorem Current.enter (h : Current m calls) (hmost : (calls.step (.enter ctx sk)).AtMost connectArgsMaxEntries) :
    Current (kprobe.step m (.enter ctx sk)) (calls.step (.enter ctx sk)) := by
  intro tid
  by_cases ht : tid = ctx.tid
  · subst ht
    have hl : (mapUpdateElem m ctx.tid sk).lookup ctx.tid = some sk := by
      rw [mapUpdateElem, if_pos (h.room hmost), AList.lookup_insert]
    rw [Calls.step, Function.update_self]
    refine ⟨hl, fun c hc => ?_⟩
    obtain ⟨c', -, rfl⟩ := List.mem_map.1 hc
    rfl
  · rw [Calls.step, Function.update_of_ne ht]
    exact ⟨(lookup_mapUpdateElem_ne ht m sk).trans (h tid).1, (h tid).2⟩

theorem Current.leave (h : Current m calls) :
    Current (kprobe.step m (.leave ctx sk ret ipVer false)) (calls.step (.leave ctx sk ret ipVer false)) := by
  intro tid
  by_cases ht : tid = ctx.tid
  · subst ht
    rw [Calls.step, Function.update_self]
    refine ⟨lookup_kretprobe_self.trans ?_, fun c hc => (h ctx.tid).2 c (List.mem_of_mem_tail hc)⟩
    -- what is left are the calls around the one that returned
    cases htail : (calls ctx.tid).tail with
    | nil => rfl
    | cons c rest =>
      have hc : c.inner = true := (h ctx.tid).2 c (by rw [htail]; exact List.mem_cons_self)
      simp [hc]
  · rw [Calls.step, Function.update_of_ne ht]
    exact ⟨(lookup_kretprobe_ne ht).trans (h tid).1, (h tid).2⟩

theorem Current.output (h : Current m calls) (e : ConnectHook) (hp : calls.Pairs e) (hm : e.missed = false) :
    kprobe.output m e = fexitInnermost.output calls e := by
  cases e with
  | enter ctx sk => rfl
  | leave ctx sk ret ipVer missed =>
    obtain rfl : missed = false := hm
    obtain ⟨h0, c, hc, rfl⟩ := hp
    have hl := (h ctx.tid).1
    rw [hc] at hl
    simp only [kprobe, fexitInnermost, kretprobeConnectExit, hc]
    cases hi : c.inner with
    | true =>
      have hl' : m.lookup ctx.tid = none := by simpa [Option.filter_some, hi] using hl
      simp [hl', hi]
    | false =>
      have hl' : m.lookup ctx.tid = some c.sk := by simpa [Option.filter_some, hi] using hl
      simp [hl', hi, emitConnectEvent, h0]

end Steps

/-- The kprobe pair against fexit, over every interleaving of the threads' calls: at each return it
reports what fexit reports or nothing. When no return is missed and no more threads are in `connect` at
once than `connect_args_map` has room for, it reports exactly what fexit does, but for the returns of
calls around another one. -/
theorem kprobe_reports_fexit (trace : List ConnectHook) (h : Paired trace) :
    List.Forall₂ (fun k f => k = none ∨ k = f) (kprobe.run ∅ trace) (fexit.run noCalls trace) ∧
    ((∀ e ∈ trace, e.missed = false) →
      (∀ pre, pre <+: trace → (pre.foldl Calls.step noCalls).AtMost connectArgsMaxEntries) →
      kprobe.run ∅ trace = fexitInnermost.run noCalls trace) := by
  refine ⟨?_, fun hm hmost => ?_⟩
  · refine Mealy.forall₂_run (R := Agrees) (C := Calls.Pairs) (fun m calls e hR hC => hR.step e hC)
      (fun m calls e hR hC => hR.output e hC) (fun tid => ⟨0, ?_, ?_⟩) h
    · simp [noCalls]
    · simp [noCalls]
  · have hall : Run.Meets Calls.step (fun calls e => calls.Pairs e ∧ e.missed = false ∧
        (calls.step e).AtMost connectArgsMaxEntries) noCalls trace := by
      intro pre e post heq
      refine ⟨h pre e post heq, hm e (by simp [heq]), ?_⟩
      have := hmost (pre ++ [e]) ⟨post, by simp [heq]⟩
      rwa [List.foldl_append] at this
    refine List.forall₂_eq_eq_eq ▸ Mealy.forall₂_run (R := Current) (fun m calls e hR hC => ?_)
      (fun m calls e hR hC => hR.output e hC.1 hC.2.1) (fun tid => ⟨rfl, by simp [noCalls]⟩) hall
    cases e with
    | enter ctx sk => exact hR.enter hC.2.2
    | leave ctx sk ret ipVer missed =>
      obtain rfl : missed = false := hC.2.1
      exact hR.leave

/-- A connect to a mapped address: the outer call's return is reported by fexit alone. -/
def mappedConnect : List ConnectHook :=
  [.enter dirtyCtx 7, .enter dirtyCtx 7, .leave dirtyCtx 7 0 4 false, .leave dirtyCtx 7 0 6 false]

theorem paired_mappedConnect : Paired mappedConnect := by
  simp only [Paired, mappedConnect, Run.meets_cons, Run.Meets.nil, and_true]
  refine ⟨⟨by decide, by simp [noCalls]⟩, ⟨by decide, by simp [Calls.step, noCalls]⟩, ⟨by decide, ?_⟩, by decide, ?_⟩
  · exact ⟨_, rfl, rfl⟩
  · exact ⟨_, rfl, rfl⟩

theorem atMost_mappedConnect (pre : List ConnectHook) (h : pre <+: mappedConnect) :
    (pre.foldl Calls.step noCalls).AtMost connectArgsMaxEntries := by
  have hone : ∀ pre : List ConnectHook, (∀ e ∈ pre, e ∈ mappedConnect) →
      ∀ t ≠ dirtyCtx.tid, pre.foldl Calls.step noCalls t = [] := by
    intro pre hpre t ht
    induction pre using List.reverseRecOn with
    | nil => rfl
    | append_singleton pre e ih =>
      rw [List.foldl_append, List.foldl_cons, List.foldl_nil]
      have he := hpre e (by simp)
      have ih := ih fun e he => hpre e (List.mem_append_left _ he)
      simp only [mappedConnect, List.mem_cons, List.not_mem_nil, or_false] at he
      rcases he with rfl | rfl | rfl | rfl <;> rw [Calls.step, Function.update_of_ne ht, ih]
  intro tids hnodup hin
  have hall : ∀ t ∈ tids, t = dirtyCtx.tid := fun t ht => by
    by_contra hne
    exact hin t ht (hone pre (fun e he => h.subset he) t hne)
  have hsub : tids ⊆ [dirtyCtx.tid] := fun t ht => by simp [hall t ht]
  exact (hnodup.length_le_of_subset hsub).trans (by decide)

theorem kprobe_reports_fexit_mapped : Paired mappedConnect ∧
    kprobe.run ∅ mappedConnect = fexitInnermost.run noCalls mappedConnect ∧
    (fexitInnermost.run noCalls mappedConnect).map Option.isSome = [false, false, true, false] ∧
    (fexit.run noCalls mappedConnect).map Option.isSome = [false, false, true, true] :=
  ⟨paired_mappedConnect, (kprobe_reports_fexit _ paired_mappedConnect).2 (by decide) atMost_mappedConnect, by decide,
    by decide⟩

end Trafficmon
