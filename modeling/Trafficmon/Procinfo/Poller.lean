import Trafficmon.Procinfo.Ebpf

/-!
# The procfs walk (`procinfo/poller.go`, `EBPFSource.bootstrap`)

Both Linux sources read the open sockets off one walk over `/proc`: the `Poller` keeps what it saw as
a list, `EBPFSource.bootstrap` keeps the TCP sockets by 4-tuple. `Procfs` is one view of `/proc`,
the same for both. What the second has is what the first has of TCP, less all but the last of every
4-tuple (`bootstrap_keeps_last_tcp`).
-/

namespace Trafficmon

/-- One open socket of a process (`procinfo/libproc_linux.go`). -/
structure Socket where
  pid : Int32
  localPort : UInt16
  remotePort : UInt16
  localAddr : Addr
  remoteAddr : Addr
  proto : SockProto
  state : String
deriving DecidableEq, Repr

/-- What `ListPIDs`, `SocketsForPID` and `ProcessName` answer; the last two fail with `none`. -/
structure Procfs where
  listPIDs : Except String (List Int32)
  socketsForPID : Int32 → Option (List Socket)
  processName : Int32 → Option String

structure Process where
  pid : Int32
  name : String
deriving DecidableEq, Repr

structure PortKey where
  port : UInt16
  proto : SockProto
deriving DecidableEq, Repr

structure Poller where
  ports : GoMap PortKey Process := ∅
  /-- Cached executable names. -/
  names : GoMap Int32 String := ∅
  conns : List Connection := []

def Socket.connection (s : Socket) (pid : Int32) (name : String) : Connection where
  pid := pid
  processName := name
  localAddr := s.localAddr
  localPort := s.localPort
  remoteAddr := s.remoteAddr
  remotePort := s.remotePort
  proto := s.proto
  state := s.state

def Connection.portKey (c : Connection) : PortKey := ⟨c.localPort, c.proto⟩

def Connection.owner (c : Connection) : Process := ⟨c.pid, c.processName⟩

def Connection.ebpfKey (c : Connection) : EbpfConnKey := ⟨c.localAddr, c.localPort, c.remoteAddr, c.remotePort⟩

/-! ### The poller -/

namespace Poller

/-- The inner loop of `poll`, over the sockets of one process. -/
def addSockets (p : Poller) (pid : Int32) (name : String) (socks : List Socket) : Poller :=
  socks.foldl (fun p s =>
    { p with
      ports := p.ports.insert ⟨s.localPort, s.proto⟩ ⟨pid, name⟩
      conns := p.conns ++ [s.connection pid name] }) p

def nameOf (v : Procfs) (oldNames : GoMap Int32 String) (pid : Int32) : String :=
  match oldNames.lookup pid with
  | some name => name
  | none =>
    match v.processName pid with
    | some resolved => resolved
    | none => "?"

/-- The body of `poll`'s loop; `p` is what has been built so far. -/
def pollPID (v : Procfs) (oldNames : GoMap Int32 String) (p : Poller) (pid : Int32) : Poller :=
  match v.socketsForPID pid with
  | none => p
  | some socks =>
    if socks.length = 0 then p
    else
      let name := nameOf v oldNames pid
      let names := if name ≠ "?" then p.names.insert pid name else p.names
      addSockets { p with names := names } pid name socks

def poll (v : Procfs) (p : Poller) : Poller × Except String Unit :=
  match v.listPIDs with
  | .error err => (p, .error err)
  | .ok pids => (pids.foldl (pollPID v p.names) {}, .ok ())

def lookup (p : Poller) (localPort : UInt16) (proto : SockProto) : Option Process := p.ports.lookup ⟨localPort, proto⟩

def connections (p : Poller) : List Connection := p.conns

end Poller

/-! ### The eBPF source -/

namespace EBPFSource

def bootstrapSocket (pid : Int32) (name : String) (s : EBPFSource) (sock : Socket) : EBPFSource :=
  if sock.proto ≠ .tcp then s
  else
    let key : EbpfConnKey := ⟨sock.localAddr, sock.localPort, sock.remoteAddr, sock.remotePort⟩
    { s with conns := s.conns.insert key (sock.connection pid name) }

/-- The body of `bootstrap`'s loop. -/
def bootstrapPID (v : Procfs) (s : EBPFSource) (pid : Int32) : EBPFSource :=
  match v.socketsForPID pid with
  | none => s
  | some socks =>
    if socks.length = 0 then s
    else
      let (s, name) := s.processNameLocked v.processName pid
      socks.foldl (bootstrapSocket pid name) s

def bootstrap (v : Procfs) (s : EBPFSource) : EBPFSource :=
  match v.listPIDs with
  | .error _ => s
  | .ok pids => pids.foldl (bootstrapPID v) s

def connections (s : EBPFSource) (order : MapOrder EbpfConnKey Connection) : List Connection :=
  (order.list s.conns).map (·.2)

end EBPFSource

/-! ### What a walk sees -/

namespace Procfs

def pids (v : Procfs) : List Int32 := v.listPIDs.toOption.getD []

def name (v : Procfs) (pid : Int32) : String := (v.processName pid).getD "?"

def seen (v : Procfs) (name : Int32 → String) (pid : Int32) : List Connection :=
  ((v.socketsForPID pid).getD []).map fun s => s.connection pid (name pid)

/-- The open sockets in the order a walk comes to them. -/
def walk (v : Procfs) : List Connection := v.pids.flatMap (v.seen v.name)

def tcp (v : Procfs) : List Connection := v.walk.filter fun c => c.proto = .tcp

end Procfs

section Poll
variable {v : Procfs} {oldNames : GoMap Int32 String} {p : Poller} {pid : Int32}

theorem addSockets_eq (p : Poller) (pid : Int32) (name : String) (socks : List Socket) :
    p.addSockets pid name socks =
      { p with
        ports := p.ports.insertAll ((socks.map fun s => s.connection pid name).map fun c => (c.portKey, c.owner))
        conns := p.conns ++ socks.map fun s => s.connection pid name } := by
  induction socks using List.reverseRecOn with
  | nil => simp [Poller.addSockets, GoMap.insertAll]
  | append_singleton socks s ih =>
    rw [Poller.addSockets, List.foldl_append]
    rw [Poller.addSockets] at ih
    rw [ih]
    simp [GoMap.insertAll, Socket.connection, Connection.portKey, Connection.owner]

/-- A process that is skipped has no sockets to add. -/
theorem pollPID_eq (v : Procfs) (oldNames : GoMap Int32 String) (p : Poller) (pid : Int32) :
    (p.pollPID v oldNames pid).conns = p.conns ++ v.seen (Poller.nameOf v oldNames) pid ∧
    (p.pollPID v oldNames pid).ports =
      p.ports.insertAll ((v.seen (Poller.nameOf v oldNames) pid).map fun c => (c.portKey, c.owner)) := by
  unfold Poller.pollPID Procfs.seen
  cases v.socketsForPID pid with
  | none => simp [GoMap.insertAll]
  | some socks =>
    dsimp only
    split
    · rename_i h
      rw [List.length_eq_zero_iff.1 h]
      simp [GoMap.insertAll]
    · rw [addSockets_eq]
      exact ⟨rfl, rfl⟩

theorem pollAll_eq (v : Procfs) (oldNames : GoMap Int32 String) (pids : List Int32) :
    (pids.foldl (Poller.pollPID v oldNames) {}).conns = pids.flatMap (v.seen (Poller.nameOf v oldNames)) ∧
    (pids.foldl (Poller.pollPID v oldNames) {}).ports =
      GoMap.insertAll ∅ ((pids.flatMap (v.seen (Poller.nameOf v oldNames))).map fun c => (c.portKey, c.owner)) := by
  induction pids using List.reverseRecOn with
  | nil => exact ⟨rfl, rfl⟩
  | append_singleton pids pid ih =>
    obtain ⟨hconns, hports⟩ := pollPID_eq v oldNames (pids.foldl (Poller.pollPID v oldNames) {}) pid
    rw [List.foldl_append, List.foldl_cons, List.foldl_nil, hconns, hports, ih.1, ih.2]
    simp [GoMap.insertAll, List.foldl_append]

theorem nameOf_empty (v : Procfs) : Poller.nameOf v ∅ = v.name := by
  funext pid
  unfold Poller.nameOf Procfs.name
  rw [AList.lookup_empty]
  cases v.processName pid <;> rfl

/-- A first poll has the walk, and the last owner of every port in it. -/
theorem poll_first (v : Procfs) :
    (Poller.poll v {}).1.connections = v.walk ∧
    ∀ port proto, (Poller.poll v {}).1.lookup port proto =
      GoMap.lastOf (v.walk.map fun c => (c.portKey, c.owner)) ⟨port, proto⟩ := by
  unfold Poller.poll Procfs.walk Procfs.pids
  cases v.listPIDs with
  | error err => exact ⟨rfl, fun _ _ => rfl⟩
  | ok pids =>
    obtain ⟨hconns, hports⟩ := pollAll_eq v ∅ pids
    rw [nameOf_empty] at hconns hports
    refine ⟨hconns, fun port proto => ?_⟩
    rw [Poller.lookup, hports, GoMap.lookup_insertAll, AList.lookup_empty, Option.or_none]
    rfl

end Poll

namespace EBPFSource
variable {v : Procfs} {s : EBPFSource} {pid : Int32}

/-- The name cache has what `ProcessName` answers. -/
def NamesFrom (v : Procfs) (s : EBPFSource) : Prop :=
  ∀ pid name, s.names.lookup pid = some name → v.processName pid = some name

theorem processNameLocked_eq (h : s.NamesFrom v) (pid : Int32) :
    (s.processNameLocked v.processName pid).2 = v.name pid ∧
    (s.processNameLocked v.processName pid).1.NamesFrom v := by
  unfold processNameLocked Procfs.name
  split
  · rename_i name hname
    rw [h pid name hname]
    exact ⟨rfl, h⟩
  · cases hp : v.processName pid with
    | none => exact ⟨rfl, h⟩
    | some name =>
      refine ⟨rfl, fun pid' name' hl => ?_⟩
      rw [GoMap.lookup_insert_eq] at hl
      split at hl
      · subst pid'
        rw [hp, hl]
      · exact h pid' name' hl

theorem bootstrapSockets_eq (s : EBPFSource) (pid : Int32) (name : String) (socks : List Socket) :
    socks.foldl (bootstrapSocket pid name) s =
      { s with conns := s.conns.insertAll (((socks.map fun s => s.connection pid name).filter fun c =>
        c.proto = .tcp).map fun c => (c.ebpfKey, c)) } := by
  induction socks using List.reverseRecOn with
  | nil => rfl
  | append_singleton socks sock ih =>
    rw [List.foldl_append, ih]
    by_cases ht : sock.proto = .tcp
    · simp [bootstrapSocket, ht, GoMap.insertAll, Socket.connection, Connection.ebpfKey]
    · simp [bootstrapSocket, ht, Socket.connection]

theorem bootstrapPID_eq (h : s.NamesFrom v) (pid : Int32) :
    (s.bootstrapPID v pid).NamesFrom v ∧
    (s.bootstrapPID v pid).conns =
      s.conns.insertAll (((v.seen v.name pid).filter fun c => c.proto = .tcp).map fun c => (c.ebpfKey, c)) := by
  obtain ⟨hname, hnames⟩ := processNameLocked_eq h pid
  have hconns : (s.processNameLocked v.processName pid).1.conns = s.conns := (processNameLocked_frame s pid).1
  unfold bootstrapPID Procfs.seen
  cases v.socketsForPID pid with
  | none => exact ⟨h, rfl⟩
  | some socks =>
    dsimp only
    split
    · rename_i h0
      rw [List.length_eq_zero_iff.1 h0]
      exact ⟨h, rfl⟩
    · rw [bootstrapSockets_eq, hname, hconns]
      exact ⟨hnames, rfl⟩

theorem bootstrap_conns (v : Procfs) :
    (bootstrap v {}).conns = GoMap.insertAll ∅ (v.tcp.map fun c => (c.ebpfKey, c)) := by
  have hall : ∀ pids : List Int32, (pids.foldl (bootstrapPID v) {}).NamesFrom v ∧
      (pids.foldl (bootstrapPID v) {}).conns = GoMap.insertAll ∅
        (((pids.flatMap (v.seen v.name)).filter fun c => c.proto = .tcp).map fun c => (c.ebpfKey, c)) := by
    intro pids
    induction pids using List.reverseRecOn with
    | nil => exact ⟨nofun, rfl⟩
    | append_singleton pids pid ih =>
      obtain ⟨hnames, hconns⟩ := bootstrapPID_eq ih.1 pid
      rw [List.foldl_append, List.foldl_cons, List.foldl_nil]
      refine ⟨hnames, ?_⟩
      rw [hconns, ih.2]
      simp [GoMap.insertAll, List.foldl_append]
  unfold bootstrap Procfs.tcp Procfs.walk Procfs.pids
  cases v.listPIDs with
  | error err => rfl
  | ok pids => exact (hall pids).2

theorem lookup_bootstrap (v : Procfs) (k : EbpfConnKey) :
    (bootstrap v {}).conns.lookup k = GoMap.lastOf (v.tcp.map fun c => (c.ebpfKey, c)) k := by
  rw [bootstrap_conns, GoMap.lookup_insertAll, AList.lookup_empty, Option.or_none]

/-- Every connection is in the table under its own tuple. -/
theorem ebpfKey_of_lookup {k : EbpfConnKey} {c : Connection} (h : (bootstrap v {}).conns.lookup k = some c) :
    c.ebpfKey = k := by
  rw [lookup_bootstrap] at h
  obtain ⟨c', -, hc⟩ := List.mem_map.1 (GoMap.mem_of_lastOf h)
  obtain ⟨rfl, rfl⟩ := Prod.mk.inj hc
  rfl

theorem mem_connections {order : MapOrder EbpfConnKey Connection} {c : Connection} :
    c ∈ (bootstrap v {}).connections order ↔
      GoMap.lastOf (v.tcp.map fun c => (c.ebpfKey, c)) c.ebpfKey = some c := by
  rw [← lookup_bootstrap]
  constructor
  · intro h
    obtain ⟨⟨k, c⟩, he, rfl⟩ := List.mem_map.1 h
    rw [MapOrder.mem_list] at he
    rw [ebpfKey_of_lookup he]
    exact he
  · intro h
    exact List.mem_map.2 ⟨⟨c.ebpfKey, c⟩, MapOrder.mem_list.2 h, rfl⟩

theorem nodup_connections (v : Procfs) (order : MapOrder EbpfConnKey Connection) :
    ((bootstrap v {}).connections order).Nodup := by
  have hkeys : ((order.list (bootstrap v {}).conns).map (·.1)).Nodup :=
    ((order.perm _).map _).nodup_iff.2 (bootstrap v {}).conns.nodupKeys
  have hsame : (order.list (bootstrap v {}).conns).map (·.1) =
      ((bootstrap v {}).connections order).map Connection.ebpfKey := by
    rw [connections, List.map_map]
    refine List.map_congr_left ?_
    rintro ⟨k, c⟩ he
    exact (ebpfKey_of_lookup (MapOrder.mem_list.1 he)).symm
  rw [hsame] at hkeys
  exact List.Nodup.of_map _ hkeys

end EBPFSource

/-- `c` is in `l` and nothing after it has its 4-tuple. -/
def LastOnTuple (l : List Connection) (c : Connection) : Prop :=
  ∃ before after, l = before ++ c :: after ∧ ∀ c' ∈ after, c'.ebpfKey ≠ c.ebpfKey

theorem lastOf_eq_some {l : List Connection} {c : Connection} :
    GoMap.lastOf (l.map fun c => (c.ebpfKey, c)) c.ebpfKey = some c ↔ LastOnTuple l c := by
  induction l using List.reverseRecOn with
  | nil =>
    constructor
    · intro h
      cases h
    · rintro ⟨before, after, h, -⟩
      cases before <;> cases h
  | append_singleton l d ih =>
    rw [List.map_append, List.map_singleton, GoMap.lastOf_concat]
    constructor
    · intro h
      split at h
      · obtain rfl := Option.some.inj h
        exact ⟨l, [], rfl, fun _ h => absurd h List.not_mem_nil⟩
      · rename_i hne
        obtain ⟨before, after, rfl, hafter⟩ := ih.1 h
        refine ⟨before, after ++ [d], by simp, fun c' hc' => ?_⟩
        rcases List.mem_append.1 hc' with hc' | hc'
        · exact hafter c' hc'
        · rw [List.mem_singleton.1 hc']
          exact hne
    · rintro ⟨before, after, h, hafter⟩
      rcases List.eq_nil_or_concat after with rfl | ⟨after, d', rfl⟩
      · obtain ⟨-, hd⟩ := List.append_inj' h rfl
        obtain rfl : d = c := by simpa using hd
        rw [if_pos rfl]
      · rw [List.concat_eq_append, ← List.cons_append, ← List.append_assoc] at h
        obtain ⟨rfl, hd⟩ := List.append_inj' h rfl
        obtain rfl : d = d' := by simpa using hd
        rw [if_neg (hafter d (by simp)), ih.2 ⟨before, after, rfl, fun c' hc' => hafter c' (by simp [hc'])⟩]

/-- After `bootstrap` the eBPF source has the TCP connections of the poller's list that are the last
on their 4-tuple, each once; so it has the whole list iff every open socket is a TCP one and no 4-tuple
is open with two owners or states. -/
theorem bootstrap_keeps_last_tcp (v : Procfs) (order : MapOrder EbpfConnKey Connection) :
    ((EBPFSource.bootstrap v {}).connections order).Nodup ∧
    (∀ c, c ∈ (EBPFSource.bootstrap v {}).connections order ↔
      LastOnTuple ((Poller.poll v {}).1.connections.filter fun c => c.proto = .tcp) c) ∧
    ((∀ c, c ∈ (Poller.poll v {}).1.connections ↔ c ∈ (EBPFSource.bootstrap v {}).connections order) ↔
      (∀ c ∈ v.walk, c.proto = .tcp) ∧ ∀ c ∈ v.walk, ∀ c' ∈ v.walk, c.ebpfKey = c'.ebpfKey → c = c') := by
  have hlast : ∀ c, c ∈ (EBPFSource.bootstrap v {}).connections order ↔
      LastOnTuple ((Poller.poll v {}).1.connections.filter fun c => c.proto = .tcp) c := by
    intro c
    rw [(poll_first v).1, ← lastOf_eq_some, EBPFSource.mem_connections, Procfs.tcp]
  refine ⟨EBPFSource.nodup_connections v order, hlast, ?_⟩
  · rw [← (poll_first v).1]
    constructor
    · intro h
      refine ⟨fun c hc => ?_, fun c hc c' hc' hkey => ?_⟩
      · obtain ⟨before, after, hl, -⟩ := (hlast c).1 ((h c).1 hc)
        have hmem : c ∈ (Poller.poll v {}).1.connections.filter fun c => c.proto = .tcp := by simp [hl]
        simpa using (List.mem_filter.1 hmem).2
      · have hc := EBPFSource.mem_connections.1 ((h c).1 hc)
        have hc' := EBPFSource.mem_connections.1 ((h c').1 hc')
        rw [hkey, hc'] at hc
        exact (Option.some.inj hc).symm
    · rintro ⟨htcp, hinj⟩ c
      have hall : (Poller.poll v {}).1.connections.filter (fun c => c.proto = .tcp) = (Poller.poll v {}).1.connections :=
        List.filter_eq_self.2 fun c hc => by simpa using htcp c hc
      rw [hlast, hall]
      constructor
      · intro hc
        rw [← lastOf_eq_some]
        obtain ⟨c', hc'⟩ := GoMap.exists_lastOf (List.mem_map.2 ⟨c, hc, rfl⟩ :
          (c.ebpfKey, c) ∈ (Poller.poll v {}).1.connections.map fun c => (c.ebpfKey, c))
        obtain ⟨d, hd, he⟩ := List.mem_map.1 (GoMap.mem_of_lastOf hc')
        obtain ⟨hkey, rfl⟩ := Prod.mk.inj he
        rw [hc', hinj d hd c hc hkey]
      · rintro ⟨before, after, hl, -⟩
        rw [hl]
        simp

def listener (pid : Int32) (proto : SockProto) (port : UInt16) (state : String) : Socket where
  pid := pid
  localPort := port
  remotePort := 0
  localAddr := .v4 #v[0, 0, 0, 0]
  remoteAddr := .v4 #v[0, 0, 0, 0]
  proto := proto
  state := state

/-- A resolver on UDP port 53. -/
def resolverView : Procfs where
  listPIDs := .ok [7]
  socketsForPID pid := some [listener pid .udp 53 ""]
  processName _ := some "named"

/-- A listener inherited across a fork. -/
def forkedView : Procfs where
  listPIDs := .ok [7, 8]
  socketsForPID pid := some [listener pid .tcp 80 "LISTEN"]
  processName _ := some "nginx"

theorem sources_disagree :
    (¬ ∀ c, c ∈ (Poller.poll resolverView {}).1.connections ↔
      c ∈ (EBPFSource.bootstrap resolverView {}).connections .held) ∧
    ¬ ∀ c, c ∈ (Poller.poll forkedView {}).1.connections ↔
      c ∈ (EBPFSource.bootstrap forkedView {}).connections .held := by
  constructor
  · intro h
    exact absurd ((h ((listener 7 .udp 53 "").connection 7 "named")).1 (by decide)) (by decide)
  · intro h
    exact absurd ((h ((listener 7 .tcp 80 "LISTEN").connection 7 "nginx")).1 (by decide)) (by decide)

end Trafficmon
