import Trafficmon.Lib.Text
import Trafficmon.Procinfo.Poller
import Trafficmon.Procinfo.ProcNet

/-!
# Reading `/proc` (`procinfo/libproc_linux.go`)

`ListPIDs`, `SocketsForPID` and `ProcessName` are texts of `/proc` read and joined: the directory's
names, the four tables under `net`, the links under a process's `fd`, its `cmdline` and `comm`.
`ProcView` is what these reads return. A `Kernel` is what they are texts of, and `Kernel.Shows k v` says
that `v` is printed from `k`; `poll_reads_kernel` is the way back: a poll has, for every process and in
the order of its descriptors, the bound sockets the kernel has behind them, each as it is.
-/

namespace Trafficmon
open NumText GoString

/-- `strconv.ParseInt` in base 10. -/
def parseInt (bitSize : ℕ) (s : List UInt8) : Except NumError ℤ :=
  let neg := s.head? = some 0x2d
  let digits := if s.head? = some 0x2b ∨ s.head? = some 0x2d then s.tail else s
  match parseUint 10 bitSize digits with
  | .error err => .error err
  | .ok n =>
    if ¬neg ∧ 2 ^ (bitSize - 1) ≤ n ∨ neg ∧ 2 ^ (bitSize - 1) < n then .error .errRange
    else .ok (if neg then -n else n)

inductive NetFile
  | tcp | tcp6 | udp | udp6
deriving DecidableEq, Repr

namespace NetFile

def path : NetFile → String
  | .tcp => "/proc/net/tcp"
  | .tcp6 => "/proc/net/tcp6"
  | .udp => "/proc/net/udp"
  | .udp6 => "/proc/net/udp6"

def proto : NetFile → SockProto
  | .tcp | .tcp6 => .tcp
  | .udp | .udp6 => .udp

def all : List NetFile := [.tcp, .tcp6, .udp, .udp6]

end NetFile

/-- What opening and reading a file gives: a text that may end in a read error. -/
inductive FileRead
  | missing
  | failed (err : String)
  | text (s : List UInt8) (err : Option String)

/-- The reads of one walk; the tables are read again for every process. -/
structure ProcView where
  proc : Except String (List (List UInt8))
  net : Int32 → NetFile → FileRead
  fd : Int32 → Except String (List (List UInt8))
  readlink : Int32 → List UInt8 → Option (List UInt8)
  cmdline : Int32 → Option (List UInt8)
  comm : Int32 → Except String (List UInt8)

def bytes (s : String) : List UInt8 := ofRunes s.toList

/-- The entries of `/proc` that are PIDs. -/
def pidOf (name : List UInt8) : Option Int32 :=
  match parseInt 32 name with
  | .error _ => none
  | .ok pid => if pid ≤ 0 then none else some (Int32.ofInt pid)

def listPIDs (v : ProcView) : Except String (List Int32) :=
  match v.proc with
  | .error err => .error ("read /proc: " ++ err)
  | .ok entries => .ok (entries.filterMap pidOf)

/-- `parseProcNetFile` from the file's text. -/
def scanProcNetFile (f : NetFile) (file : FileRead) (out : GoMap UInt64 ProcNetEntry) :
    Except String (GoMap UInt64 ProcNetEntry) :=
  match file with
  | .missing => .ok out
  | .failed err => .error ("open " ++ f.path ++ ": " ++ err)
  | .text s err =>
    let (lines, through) := scanLines s
    let out := parseProcNetFile f.proto (lines.tail.map fields) out
    if ¬through then .error "bufio.Scanner: token too long"
    else
      match err with
      | some err => .error err
      | none => .ok out

/-- `readProcNet` from the files' texts. -/
def loadProcNet (files : NetFile → FileRead) : Except String (GoMap UInt64 ProcNetEntry) :=
  NetFile.all.foldlM (fun out f => scanProcNetFile f (files f) out) ∅

def cutPrefix (s lead : List UInt8) : Option (List UInt8) :=
  if s.take lead.length = lead then some (s.drop lead.length) else none

def trimSuffix (s tail : List UInt8) : List UInt8 :=
  if tail.length ≤ s.length ∧ s.drop (s.length - tail.length) = tail then s.take (s.length - tail.length) else s

/-- The inode a descriptor's link names, if it is a socket's. -/
def socketInode (target : List UInt8) : Option UInt64 :=
  match cutPrefix target (bytes "socket:[") with
  | none => none
  | some inodeStr =>
    match parseUint 10 64 (trimSuffix inodeStr (bytes "]")) with
    | .error _ => none
    | .ok inode => some (UInt64.ofNat inode)

/-- One descriptor of `pid`; `none` is every way to `continue`. -/
def socketForFd (byInode : GoMap UInt64 ProcNetEntry) (pid : Int32) (target : Option (List UInt8)) : Option Socket :=
  match target with
  | none => none
  | some target =>
    match socketInode target with
    | none => none
    | some inode =>
      match byInode.lookup inode with
      | none => none
      | some entry =>
        if entry.localPort = 0 then none
        else some ⟨pid, entry.localPort, entry.remotePort, entry.localAddr, entry.remoteAddr, entry.proto, entry.state⟩

def socketsForPID (v : ProcView) (pid : Int32) : Except String (List Socket) :=
  match loadProcNet (v.net pid) with
  | .error err => .error err
  | .ok byInode =>
    match v.fd pid with
    | .error err => .error ("read /proc/" ++ toString pid.toInt ++ "/fd: " ++ err)
    | .ok entries => .ok (entries.filterMap fun e => socketForFd byInode pid (v.readlink pid e))

def slash : UInt8 := 0x2f

/-- `filepath.Base`. -/
def filepathBase (path : List UInt8) : List UInt8 :=
  if path = [] then bytes "."
  else
    let path := (path.reverse.dropWhile (· = slash)).reverse
    let last := (path.reverse.takeWhile (· ≠ slash)).reverse
    if last = [] then [slash] else last

def argv0 (v : ProcView) (pid : Int32) : Option (List UInt8) :=
  match v.cmdline pid with
  | none => none
  | some buf =>
    if buf = [] then none
    else
      let field := buf.takeWhile (· ≠ 0)
      if field = [] then none else some field

def procNameBufSize : ℕ := 64

def processName (v : ProcView) (pid : Int32) : Except String (List UInt8) :=
  match argv0 v pid with
  | some name => .ok (filepathBase name)
  | none =>
    match v.comm pid with
    | .error err => .error ("read comm for pid " ++ toString pid.toInt ++ ": " ++ err)
    | .ok buf =>
      let name := trimSuffix buf [newline]
      if name = [] then .error ("empty comm for pid " ++ toString pid.toInt)
      else .ok (if procNameBufSize < name.length then name.take procNameBufSize else name)

/-- The view as the poller asks for it; `str` is how a byte string is written as text. -/
def ProcView.procfs (v : ProcView) (str : List UInt8 → String) : Procfs where
  listPIDs := Trafficmon.listPIDs v
  socketsForPID pid := (Trafficmon.socketsForPID v pid).toOption
  processName pid := ((Trafficmon.processName v pid).map str).toOption

/-! ### The kernel's side -/

/-- A socket and its line: the columns that are read, and between and around them whatever the kernel
prints there, each word with the blanks that widen its column. -/
structure KernelSocket where
  localAddr : List UInt8
  localPort : UInt16
  remoteAddr : List UInt8
  remotePort : UInt16
  state : UInt8
  inode : UInt64
  lead : ℕ
  sl : List UInt8
  /-- The queues, the timer, the retransmits, the owner and the timeout. -/
  unread : List (ℕ × List UInt8)
  more : List (ℕ × List UInt8)
  padding : ℕ
  isAddr_local : IsAddr localAddr
  isAddr_remote : IsAddr remoteAddr
  isWord_sl : IsWord sl
  length_unread : unread.length = 5
  isWord_unread : ∀ w ∈ unread, IsWord w.2
  isWord_more : ∀ w ∈ more, IsWord w.2

def addrOf (a : List UInt8) : Addr := ((Addr.ofSlice a).map Addr.unmap).getD .invalid

namespace KernelSocket

def words (k : KernelSocket) : List (ℕ × List UInt8) :=
  [(0, kernelAddrPort k.localAddr k.localPort), (0, kernelAddrPort k.remoteAddr k.remotePort),
    (0, hexFixed 2 k.state.toNat)] ++ k.unread ++ (0, dec k.inode.toNat) :: k.more

/-- `%4d: %08X:%04X %08X:%04X %02X %08X:%08X %02X:%08X %08X %5u %8d %lu ...`, padded. -/
def row (k : KernelSocket) : List UInt8 := blanks k.lead ++ (k.sl ++ (spread k.words ++ blanks k.padding))

def entry (proto : SockProto) (k : KernelSocket) : ProcNetEntry :=
  ⟨addrOf k.localAddr, k.localPort, addrOf k.remoteAddr, k.remotePort, proto,
    match proto with
    | .tcp => tcpStateName k.state.toNat
    | .udp => ""⟩

end KernelSocket

inductive Descriptor
  | socket (inode : UInt64)
  | other (target : List UInt8)
  /-- Closed between the listing and the read of its link. -/
  | gone

def Descriptor.link : Descriptor → Option (List UInt8)
  | .socket inode => some (bytes "socket:[" ++ (dec inode.toNat ++ bytes "]"))
  | .other target => some target
  | .gone => none

/-- What the walk finds. The tables are those of the moment a process is looked at; a process whose
descriptors may not be read has none. -/
structure Kernel where
  entries : List (Int32 ⊕ List UInt8)
  tables : Int32 → NetFile → List KernelSocket
  descriptors : Int32 → Option (List Descriptor)
  pid_pos : ∀ pid, .inl pid ∈ entries → 0 < pid.toInt
  /-- Everything in `/proc` that is no process starts with a letter. -/
  name_alpha : ∀ name, .inr name ∈ entries → ∃ c ∈ name.head?, 0x41 ≤ c
  inode_unique : ∀ pid f g, ∀ a ∈ tables pid f, ∀ b ∈ tables pid g, a.inode = b.inode → a.inode ≠ 0 →
    f = g ∧ a = b
  other_link : ∀ pid fds target, descriptors pid = some fds → .other target ∈ fds →
    cutPrefix target (bytes "socket:[") = none

namespace Kernel

def pids (k : Kernel) : List Int32 := k.entries.filterMap Sum.getLeft?

/-- The open socket behind an inode, as it is. -/
def socketAt (k : Kernel) (pid : Int32) (inode : UInt64) : Option ProcNetEntry :=
  if inode = 0 then none
  else NetFile.all.findSome? fun f => ((k.tables pid f).find? fun s => s.inode = inode).map (KernelSocket.entry f.proto)

def behind (k : Kernel) (pid : Int32) : Descriptor → Option ProcNetEntry
  | .socket inode => k.socketAt pid inode
  | _ => none

/-- The sockets behind a process's descriptors that own a port, one for each descriptor. -/
def bound (k : Kernel) (pid : Int32) : List ProcNetEntry :=
  (((k.descriptors pid).getD []).filterMap (k.behind pid)).filter fun e => e.localPort ≠ 0

/-- The texts are those the kernel prints: a header and a line for each socket, and the links of the
descriptors under the names they are listed by. -/
structure Shows (k : Kernel) (v : ProcView) : Prop where
  proc : v.proc = .ok (k.entries.map (Sum.elim (fun pid => dec pid.toInt.toNat) id))
  net : ∀ pid f, (k.tables pid f = [] ∧ v.net pid f = .missing) ∨
    ∃ header, IsLine header ∧ (∀ s ∈ k.tables pid f, s.row.length < maxScanTokenSize) ∧
      v.net pid f = .text (unlines (header :: (k.tables pid f).map KernelSocket.row)) none
  fd : ∀ pid, match k.descriptors pid with
    | none => ∃ err, v.fd pid = .error err
    | some fds => ∃ names, v.fd pid = .ok names ∧ names.map (v.readlink pid) = fds.map Descriptor.link

end Kernel

/-! ### One line -/

theorem visible_hexFixed {w n : ℕ} {c : UInt8} (h : c ∈ hexFixed w n) : 0x21 ≤ c ∧ c ≤ 0x7e := by
  have hall : ∀ d < 16, 0x21 ≤ upperDigit d ∧ upperDigit d ≤ 0x7e := by decide
  induction w generalizing n with
  | zero => simp [hexFixed] at h
  | succ w ih =>
    rcases List.mem_append.1 h with h | h
    · exact ih h
    · rw [List.mem_singleton.1 h]
      exact hall _ (Nat.mod_lt _ (by omega))

theorem visible_dec {n : ℕ} {c : UInt8} (h : c ∈ dec n) : 0x21 ≤ c ∧ c ≤ 0x7e := by
  obtain ⟨-, hlo, hhi⟩ := (dec_spec n).2.1 c h
  have hlo' : (0x21 : UInt8) ≤ 0x30 := by decide
  have hhi' : (0x39 : UInt8) ≤ 0x7e := by decide
  exact ⟨UInt8.le_trans hlo' hlo, UInt8.le_trans hhi hhi'⟩

theorem isWord_kernelAddrPort (a : List UInt8) (port : UInt16) : IsWord (kernelAddrPort a port) := by
  refine ⟨by simp [kernelAddrPort], fun c hc => ?_⟩
  rw [kernelAddrPort, List.mem_append, List.mem_cons, kernelAddr_eq] at hc
  rcases hc with hc | rfl | hc
  · obtain ⟨b, -, hb⟩ := List.mem_flatMap.1 hc
    exact visible_hexFixed hb
  · decide
  · exact visible_hexFixed hc

theorem parseHexAddrPort_kernel {a : List UInt8} (h : IsAddr a) (port : UInt16) :
    parseHexAddrPort (kernelAddrPort a port) = .ok (addrOf a, port) := by
  obtain ⟨x, hx⟩ := exists_ofSlice h
  refine parseHexAddrPort_eq_ok.2 ⟨a, encodes_kernelAddrPort h port, ?_⟩
  rw [addrOf, hx, Option.getD_some]

namespace KernelSocket

theorem isWord_words (k : KernelSocket) : ∀ w ∈ k.words, IsWord w.2 := by
  intro w hw
  simp only [words, List.mem_append, List.mem_cons, List.not_mem_nil, or_false] at hw
  rcases hw with ((rfl | rfl | rfl) | hw) | rfl | hw
  · exact isWord_kernelAddrPort _ _
  · exact isWord_kernelAddrPort _ _
  · exact ⟨by simp [hexFixed], fun c hc => visible_hexFixed hc⟩
  · exact k.isWord_unread w hw
  · exact ⟨(dec_spec _).1, fun c hc => visible_dec hc⟩
  · exact k.isWord_more w hw

theorem fields_row (k : KernelSocket) : fields k.row = k.sl :: k.words.map (·.2) :=
  fields_spread k.isWord_sl k.isWord_words _ _

/-- A line is read back as the socket it is of; a socket without an inode has no owner to find it. -/
theorem procNetRow_row (proto : SockProto) (k : KernelSocket) :
    procNetRow proto (fields k.row) = if k.inode = 0 then none else some (k.inode, k.entry proto) := by
  have hinode : parseUint 10 64 (dec k.inode.toNat) = .ok k.inode.toNat := parseUint_dec k.inode.toNat_lt
  have hstate : parseUint 16 8 (hexFixed 2 k.state.toNat) = .ok k.state.toNat :=
    (parseUint_eq_ok (by omega)).2 ⟨by simp [hexFixed], fun c => isSome_digit?_hexFixed,
      value_hexFixed (show k.state.toNat < 16 ^ 2 from k.state.toNat_lt), k.state.toNat_lt⟩
  have hzero : k.inode.toNat = 0 ↔ k.inode = 0 := by
    rw [← UInt64.toNat_inj]; rfl
  obtain ⟨u1, u2, u3, u4, u5, hu⟩ : ∃ u1 u2 u3 u4 u5, k.unread = [u1, u2, u3, u4, u5] := by
    have hlen := k.length_unread
    generalize k.unread = us at hlen ⊢
    rcases us with _ | ⟨u1, _ | ⟨u2, _ | ⟨u3, _ | ⟨u4, _ | ⟨u5, _ | ⟨u6, us⟩⟩⟩⟩⟩⟩ <;> simp at hlen
    exact ⟨u1, u2, u3, u4, u5, rfl⟩
  have hfields : fields k.row = [k.sl, kernelAddrPort k.localAddr k.localPort, kernelAddrPort k.remoteAddr k.remotePort,
      hexFixed 2 k.state.toNat, u1.2, u2.2, u3.2, u4.2, u5.2, dec k.inode.toNat] ++ k.more.map (·.2) := by
    rw [fields_row, words, hu]
    simp
  rw [hfields, procNetRow, if_neg (by simp)]
  simp only [List.cons_append, List.nil_append, List.getElem!_cons_succ, List.getElem!_cons_zero, hinode, hstate,
    parseHexAddrPort_kernel k.isAddr_local, parseHexAddrPort_kernel k.isAddr_remote, hzero, UInt64.ofNat_toNat]
  split_ifs
  · rfl
  · cases proto <;> rfl

theorem visible_row (k : KernelSocket) {b : UInt8} (h : b ∈ k.row) : b = blank ∨ 0x21 ≤ b ∧ b ≤ 0x7e := by
  simp only [row, blanks, List.mem_append, spread, List.mem_flatMap] at h
  rcases h with h | h | ⟨w, hw, h⟩ | h
  · exact .inl (List.eq_of_mem_replicate h)
  · exact .inr (k.isWord_sl.2 b h)
  · rw [List.mem_cons] at h
    rcases h with (h | h) | h
    · exact .inl h
    · exact .inl (List.eq_of_mem_replicate h)
    · exact .inr ((k.isWord_words w hw).2 b h)
  · exact .inl (List.eq_of_mem_replicate h)

theorem isLine_row (k : KernelSocket) (h : k.row.length < maxScanTokenSize) : IsLine k.row := by
  refine ⟨fun hmem => ?_, fun hlast => ?_, h⟩
  · exact absurd (k.visible_row hmem) (by decide)
  · exact absurd (k.visible_row (List.mem_of_getLast? hlast)) (by decide)

end KernelSocket

/-! ### The tables -/

namespace Kernel
variable {k : Kernel} {v : ProcView}

/-- The entries a table gives rise to. -/
def shown (k : Kernel) (pid : Int32) (f : NetFile) : List (UInt64 × ProcNetEntry) :=
  (k.tables pid f).filterMap fun s => if s.inode = 0 then none else some (s.inode, s.entry f.proto)

theorem scanProcNetFile_eq (h : k.Shows v) (pid : Int32) (f : NetFile) (out : GoMap UInt64 ProcNetEntry) :
    scanProcNetFile f (v.net pid f) out = .ok (out.insertAll (k.shown pid f)) := by
  rcases h.net pid f with ⟨hnil, hmiss⟩ | ⟨header, hhead, hshort, htext⟩
  · rw [hmiss, shown, hnil]
    rfl
  · have hlines : ∀ l ∈ header :: (k.tables pid f).map KernelSocket.row, IsLine l := by
      intro l hl
      rcases List.mem_cons.1 hl with rfl | hl
      · exact hhead
      · obtain ⟨s, hs, rfl⟩ := List.mem_map.1 hl
        exact s.isLine_row (hshort s hs)
    simp only [htext, scanProcNetFile, scanLines_unlines hlines, List.tail_cons, not_true, if_false]
    rw [parseProcNetFile_eq, shown, List.map_map, List.filterMap_map]
    simp only [Function.comp_def, KernelSocket.procNetRow_row]

theorem loadProcNet_eq (h : k.Shows v) (pid : Int32) :
    loadProcNet (v.net pid) = .ok (GoMap.insertAll ∅ (NetFile.all.flatMap (k.shown pid))) := by
  simp only [loadProcNet, NetFile.all, List.foldlM_cons, List.foldlM_nil, scanProcNetFile_eq h, List.flatMap_cons,
    List.flatMap_nil, List.append_nil, GoMap.insertAll, List.foldl_append]
  rfl

theorem mem_shown {pid : Int32} {inode : UInt64} {e : ProcNetEntry} :
    (inode, e) ∈ NetFile.all.flatMap (k.shown pid) ↔
      inode ≠ 0 ∧ ∃ f, ∃ s ∈ k.tables pid f, s.inode = inode ∧ s.entry f.proto = e := by
  have hall : ∀ f : NetFile, f ∈ NetFile.all := fun f => by cases f <;> decide
  simp only [List.mem_flatMap, shown, List.mem_filterMap, Option.ite_none_left_eq_some, Option.some.injEq, Prod.mk.injEq]
  constructor
  · rintro ⟨f, -, s, hs, hne, rfl, rfl⟩
    exact ⟨hne, f, s, hs, rfl, rfl⟩
  · rintro ⟨hne, f, s, hs, rfl, rfl⟩
    exact ⟨f, hall f, s, hs, hne, rfl, rfl⟩

theorem socketAt_eq_some {pid : Int32} {inode : UInt64} {e : ProcNetEntry} :
    k.socketAt pid inode = some e ↔ inode ≠ 0 ∧ ∃ f, ∃ s ∈ k.tables pid f, s.inode = inode ∧ s.entry f.proto = e := by
  have hall : ∀ f : NetFile, f ∈ NetFile.all := fun f => by cases f <;> decide
  unfold socketAt
  split_ifs with h0
  · simp [h0]
  constructor
  · intro h
    obtain ⟨f, -, hf⟩ := List.exists_of_findSome?_eq_some h
    obtain ⟨s, hs, rfl⟩ := Option.map_eq_some_iff.1 hf
    exact ⟨h0, f, s, List.mem_of_find?_eq_some hs, by simpa using List.find?_some hs, rfl⟩
  · rintro ⟨-, f, s, hs, rfl, rfl⟩
    -- something is found, and it can be nothing else
    cases hfound : NetFile.all.findSome? fun f =>
        ((k.tables pid f).find? fun s' => s'.inode = s.inode).map (KernelSocket.entry f.proto) with
    | none =>
      have hnone := List.findSome?_eq_none_iff.1 hfound f (hall f)
      rw [Option.map_eq_none_iff, List.find?_eq_none] at hnone
      exact absurd (decide_eq_true rfl) (hnone s hs)
    | some e =>
      obtain ⟨g, -, hg⟩ := List.exists_of_findSome?_eq_some hfound
      obtain ⟨s', hs', rfl⟩ := Option.map_eq_some_iff.1 hg
      have hsame : s'.inode = s.inode := by simpa using List.find?_some hs'
      obtain ⟨rfl, rfl⟩ := k.inode_unique pid g f s' (List.mem_of_find?_eq_some hs') s hs hsame (hsame ▸ h0)
      rfl

theorem lookup_loadProcNet (pid : Int32) (inode : UInt64) :
    (GoMap.insertAll ∅ (NetFile.all.flatMap (k.shown pid))).lookup inode = k.socketAt pid inode := by
  rw [GoMap.lookup_insertAll, AList.lookup_empty, Option.or_none]
  exact GoMap.lastOf_eq fun e => mem_shown.trans socketAt_eq_some.symm

end Kernel

/-! ### Links and names -/

theorem cutPrefix_append (lead s : List UInt8) : cutPrefix (lead ++ s) lead = some s := by
  rw [cutPrefix, List.take_left, if_pos rfl, List.drop_left]

theorem trimSuffix_append (s tail : List UInt8) : trimSuffix (s ++ tail) tail = s := by
  have hlen : (s ++ tail).length - tail.length = s.length := by rw [List.length_append]; omega
  rw [trimSuffix, hlen, List.drop_left, List.take_left, if_pos ⟨by simp, rfl⟩]

theorem socketInode_link (inode : UInt64) :
    socketInode (bytes "socket:[" ++ (dec inode.toNat ++ bytes "]")) = some inode := by
  rw [socketInode, cutPrefix_append]
  dsimp only
  rw [trimSuffix_append, parseUint_dec inode.toNat_lt]
  simp

theorem pidOf_dec {pid : Int32} (h : 0 < pid.toInt) : pidOf (dec pid.toInt.toNat) = some pid := by
  have hlt : pid.toInt.toNat < 2 ^ 31 := by have := pid.toInt_lt; omega
  have hhead : (dec pid.toInt.toNat).head? ≠ some 0x2b ∧ (dec pid.toInt.toNat).head? ≠ some 0x2d := by
    constructor
    all_goals
      intro hh
      obtain ⟨-, hlo, -⟩ := (dec_spec pid.toInt.toNat).2.1 _ (List.mem_of_head? hh)
      exact absurd hlo (by decide)
  have hparse : parseInt 32 (dec pid.toInt.toNat) = .ok pid.toInt := by
    simp only [parseInt, hhead.1, hhead.2, or_self, if_false, parseUint_dec (show pid.toInt.toNat < 2 ^ 32 by omega)]
    rw [if_neg (by omega)]
    exact congrArg _ (Int.toNat_of_nonneg h.le)
  rw [pidOf, hparse]
  simp only [not_le.2 h, if_false, Int32.ofInt_toInt]

theorem pidOf_alpha {name : List UInt8} {c : UInt8} (hc : c ∈ name.head?) (h : 0x41 ≤ c) : pidOf name = none := by
  have hdigit : ∀ n < 256, 0x41 ≤ n → digit? 10 (UInt8.ofNat n) = none := by decide +kernel
  have hnone : digit? 10 c = none := by
    simpa using hdigit c.toNat c.toNat_lt (UInt8.le_iff_toNat_le.1 h)
  have hplus : c ≠ 0x2b := by rintro rfl; exact absurd h (by decide)
  have hminus : c ≠ 0x2d := by rintro rfl; exact absurd h (by decide)
  have hhead : name.head? = some c := hc
  have herr : ∃ err, parseInt 32 name = .error err := by
    simp only [parseInt, hhead, Option.some.injEq, hplus, hminus, or_self, if_false]
    cases hp : parseUint 10 32 name with
    | error err => exact ⟨err, rfl⟩
    | ok n =>
      have := ((parseUint_eq_ok (by omega)).1 hp).2.1 c (List.mem_of_head? hhead)
      rw [hnone] at this
      cases this
  obtain ⟨err, herr⟩ := herr
  rw [pidOf, herr]

/-! ### The walk -/

def ProcNetEntry.socket (e : ProcNetEntry) (pid : Int32) : Socket :=
  ⟨pid, e.localPort, e.remotePort, e.localAddr, e.remoteAddr, e.proto, e.state⟩

namespace Kernel
variable {k : Kernel} {v : ProcView}

theorem listPIDs_eq (h : k.Shows v) : listPIDs v = .ok k.pids := by
  rw [listPIDs, h.proc, pids]
  dsimp only
  rw [List.filterMap_map]
  refine congrArg Except.ok (List.filterMap_congr fun e he => ?_)
  cases e with
  | inl pid => exact pidOf_dec (k.pid_pos pid he)
  | inr name =>
    obtain ⟨c, hc, hle⟩ := k.name_alpha name he
    exact pidOf_alpha hc hle

theorem socketForFd_link (pid : Int32) {fds : List Descriptor} (hfds : k.descriptors pid = some fds) {d : Descriptor}
    (hd : d ∈ fds) :
    socketForFd (GoMap.insertAll ∅ (NetFile.all.flatMap (k.shown pid))) pid d.link =
      ((k.behind pid d).filter fun e => e.localPort ≠ 0).map fun e => e.socket pid := by
  cases d with
  | gone => rfl
  | other target => simp [socketForFd, Descriptor.link, behind, socketInode, k.other_link pid fds target hfds hd]
  | socket inode =>
    simp only [socketForFd, Descriptor.link, socketInode_link, lookup_loadProcNet, behind]
    cases k.socketAt pid inode with
    | none => rfl
    | some e =>
      by_cases hp : e.localPort = 0
      · simp [Option.filter_some, hp]
      · simp [Option.filter_some, hp, ProcNetEntry.socket]

theorem socketsForPID_eq (h : k.Shows v) (pid : Int32) :
    ((socketsForPID v pid).toOption).getD [] = (k.bound pid).map fun e => e.socket pid := by
  have hfd := h.fd pid
  rw [socketsForPID, loadProcNet_eq h, bound]
  cases hfds : k.descriptors pid with
  | none =>
    rw [hfds] at hfd
    obtain ⟨err, herr⟩ := hfd
    simp only [herr]
    rfl
  | some fds =>
    rw [hfds] at hfd
    obtain ⟨names, hnames, hlinks⟩ := hfd
    simp only [hnames, Except.toOption, Option.getD_some]
    have hmap : names.filterMap (fun e => socketForFd (GoMap.insertAll ∅ (NetFile.all.flatMap (k.shown pid))) pid
        (v.readlink pid e)) = fds.filterMap fun d =>
          socketForFd (GoMap.insertAll ∅ (NetFile.all.flatMap (k.shown pid))) pid d.link := by
      have := congrArg (List.filterMap
        (socketForFd (GoMap.insertAll ∅ (NetFile.all.flatMap (k.shown pid))) pid)) hlinks
      rwa [List.filterMap_map, List.filterMap_map] at this
    rw [hmap, List.filterMap_congr fun d hd => socketForFd_link pid hfds hd, List.filter_filterMap,
      List.map_filterMap]

end Kernel

/-- A poll of the texts the kernel prints succeeds, whatever was polled before, and then has the kernel's
sockets: for each process and descriptor the bound socket behind it, as it is, and for each port the
last of these to hold it. -/
theorem poll_reads_kernel (k : Kernel) (v : ProcView) (h : k.Shows v) (str : List UInt8 → String) (p : Poller) :
    let name := Poller.nameOf (v.procfs str) p.names
    let conns := k.pids.flatMap fun pid => (k.bound pid).map fun e => (e.socket pid).connection pid (name pid)
    (p.poll (v.procfs str)).2 = .ok () ∧ (p.poll (v.procfs str)).1.connections = conns ∧
    ∀ port proto, (p.poll (v.procfs str)).1.lookup port proto =
      GoMap.lastOf (conns.map fun c => (c.portKey, c.owner)) ⟨port, proto⟩ := by
  intro name conns
  have hseen : (v.procfs str).seen name = fun pid =>
      (k.bound pid).map fun e => (e.socket pid).connection pid (name pid) := by
    funext pid
    rw [Procfs.seen]
    simp only [ProcView.procfs]
    rw [Kernel.socketsForPID_eq h, List.map_map]
    rfl
  have hlist : (v.procfs str).listPIDs = .ok k.pids := Kernel.listPIDs_eq h
  obtain ⟨hconns, hports⟩ := pollAll_eq (v.procfs str) p.names k.pids
  rw [hseen] at hconns hports
  simp only [Poller.poll, hlist]
  refine ⟨trivial, hconns, fun port proto => ?_⟩
  rw [Poller.lookup, hports, GoMap.lookup_insertAll, AList.lookup_empty, Option.or_none]

/-- A web server's listener. -/
def webListener : KernelSocket where
  localAddr := [127, 0, 0, 1]
  localPort := 80
  remoteAddr := [0, 0, 0, 0]
  remotePort := 0
  state := 0x0a
  inode := 9
  lead := 3
  sl := bytes "0:"
  unread := [(0, bytes "00000000:00000000"), (0, bytes "00:00000000"), (0, bytes "00000000"), (4, bytes "0"),
    (7, bytes "0")]
  more := [(0, bytes "1")]
  padding := 2
  isAddr_local := .inl rfl
  isAddr_remote := .inl rfl
  isWord_sl := by decide
  length_unread := rfl
  isWord_unread := by decide
  isWord_more := by decide

/-- Process 7 has the listener, a file and a descriptor it is about to close. -/
def serving : Kernel where
  entries := [.inl 7, .inr (bytes "self")]
  tables _
    | .tcp => [webListener]
    | _ => []
  descriptors pid := if pid = 7 then some [.socket 9, .other (bytes "/dev/null"), .gone] else none
  pid_pos pid h := by
    simp only [List.mem_cons, Sum.inl.injEq, reduceCtorEq, List.not_mem_nil, or_self, or_false] at h
    subst h
    decide
  name_alpha name h := by
    simp only [List.mem_cons, Sum.inr.injEq, reduceCtorEq, List.not_mem_nil, false_or, or_false] at h
    subst h
    exact ⟨0x73, by decide, by decide⟩
  inode_unique pid f g a ha b hb _ _ := by
    cases f <;> cases g <;> simp_all
  other_link pid fds target hfds ht := by
    split_ifs at hfds
    obtain rfl := Option.some.inj hfds
    simp only [List.mem_cons, reduceCtorEq, Descriptor.other.injEq, List.not_mem_nil, false_or, or_false] at ht
    subst ht
    decide

def servingView : ProcView where
  proc := .ok [bytes "7", bytes "self"]
  net _
    | .tcp => .text (unlines [bytes "  sl  local_address", webListener.row]) none
    | _ => .missing
  fd pid := if pid = 7 then .ok [bytes "0", bytes "1", bytes "2"] else .error "no such file or directory"
  readlink _ name :=
    if name = bytes "0" then some (bytes "socket:[9]") else if name = bytes "1" then some (bytes "/dev/null") else none
  cmdline _ := some (bytes "/usr/sbin/httpd")
  comm _ := .error ""

theorem serving_shows : serving.Shows servingView where
  proc := by decide
  net pid f := by
    cases f with
    | tcp =>
      refine .inr ⟨bytes "  sl  local_address", ⟨by decide, by decide, by decide⟩, fun s hs => ?_, rfl⟩
      rw [List.mem_singleton.1 hs]
      decide
    | tcp6 | udp | udp6 => exact .inl ⟨rfl, rfl⟩
  fd pid := by
    simp only [serving, servingView]
    by_cases hp : pid = 7
    · simp only [hp, if_true]
      exact ⟨_, rfl, by decide⟩
    · simp only [hp, if_false]
      exact ⟨_, rfl⟩

/-- Names as they are where they are UTF-8. -/
def goText (b : List UInt8) : String := String.ofList (runes b)

theorem poll_reads_kernel_serving : serving.Shows servingView ∧
    ((Poller.poll (servingView.procfs goText) {}).1.connections.map fun c => (c.pid, c.localAddr, c.localPort, c.state)) =
      [(7, .ipv4 127 0 0 1, 80, "LISTEN")] := by
  refine ⟨serving_shows, ?_⟩
  rw [(poll_reads_kernel serving servingView serving_shows goText {}).2.1]
  rfl

end Trafficmon
