import Trafficmon.Capture.CaptureRun
import Trafficmon.Lib.Netip
import Trafficmon.Lib.Rollup
import Trafficmon.Lib.Text

/-!
# Which interfaces are captured on (`capture/iface.go`, `route_linux.go`, `route_darwin.go`, `route_other.go`)

A spec names interfaces and kinds of them, which the system is asked about one after the other. `Run` opens what
`ResolveInterfaces` made of it, and takes the addresses of these interfaces for its own. Once it captures, it does so on
at least one interface, on none of them twice, and on those that the spec names (`capture_starts`).
-/

namespace Trafficmon
open GoString

/-! ### Texts -/

/-- `strings.TrimSpace`. -/
def trimSpace (s : String) : String :=
  String.ofList (((s.toList.dropWhile isSpace).reverse.dropWhile isSpace).reverse)

/-- `strings.Split`, with a separator of one character. -/
def splitText (s : String) (sep : Char) : List String := (s.toList.splitOn sep).map String.ofList

/-- `strings.Fields`. -/
def fieldsText (s : String) : List String := ((s.toList.splitOnP isSpace).filter (· ≠ [])).map String.ofList

/-! ### The default route -/

namespace Linux

/-- The field after a `dev`. -/
def deviceIn : List String → Option String
  | "dev" :: name :: _ => some name
  | _ :: fields => deviceIn fields
  | [] => none

/-- Of the output of `ip route show default`. -/
def parseRouteInterface (out : String) : Except String String :=
  match deviceIn (fieldsText ((splitText out '\n').headD "")) with
  | some name => .ok name
  | none => .error "no interface in route output"

end Linux

namespace Darwin

def interfacePrefix : String := "interface:"

/-- What follows `interface:` on a line. -/
def interfaceOn (line : String) : Option String :=
  if interfacePrefix.toList <+: (trimSpace line).toList then
    let name := trimSpace (String.ofList ((trimSpace line).toList.drop interfacePrefix.length))
    if name ≠ "" then some name else none
  else none

/-- Of the output of `route -n get default`. -/
def parseRouteInterface (out : String) : Except String String :=
  match (splitText out '\n').findSome? interfaceOn with
  | some name => .ok name
  | none => .error "no interface line in route output"

end Darwin

/-! ### Resolving a spec -/

/-- What the system answers. -/
structure Platform where
  listInterfaces : Except String (List String)
  /-- What the route command prints for IPv4, if it does not fail. -/
  runRoute : Option String
  runRoute6 : Option String
  parseRouteInterface : String → Except String String
  isLoopbackInterface : String → Bool
  loopbackDeviceName : Except String String

/-- The names so far. -/
structure Names where
  out : List String := []
  seen : GoMap String Unit := ∅

def Names.add (ns : Names) (name : String) : Names :=
  if (ns.seen.lookup name).isSome then ns else ⟨ns.out ++ [name], ns.seen.insert name ()⟩

/-- The interface of a default route, if the command and its output give one. -/
def Platform.routeInterface (P : Platform) : Option String → List String
  | none => []
  | some out =>
    match P.parseRouteInterface out with
    | .ok name => [name]
    | .error _ => []

/-- The first device that is not the loopback. -/
def Platform.firstDevice (P : Platform) : Except String (List String) :=
  match P.listInterfaces with
  | .error e => .error e
  | .ok names =>
    match names.find? fun n => ! P.isLoopbackInterface n with
    | some n => .ok [n]
    | none => .error "no capturable interface found"

def defaultInterfaces (P : Platform) : Except String (List String) :=
  let ns := (P.routeInterface P.runRoute).foldl Names.add {}
  let ns := (P.routeInterface P.runRoute6).foldl Names.add ns
  if ns.out ≠ [] then .ok ns.out else P.firstDevice

/-- The case of the `switch` that a token is for; `toLower` is `strings.ToLower`. -/
def expand (toLower : String → String) (P : Platform) (tok : String) : Except String (List String) :=
  if toLower tok = "any" then P.listInterfaces
  else if toLower tok = "default" then defaultInterfaces P
  else if toLower tok ∈ ["localhost", "local", "loopback"] then P.loopbackDeviceName.map ([·])
  else .ok [tok]

/-- The loop; the system answers the `i`-th token with `P i`. -/
def resolveFrom (toLower : String → String) (P : ℕ → Platform) : ℕ → Names → List String → Except String Names
  | _, ns, [] => .ok ns
  | i, ns, tok :: toks =>
    if trimSpace tok = "" then resolveFrom toLower P (i + 1) ns toks
    else
      match expand toLower (P i) (trimSpace tok) with
      | .error e => .error e
      | .ok names => resolveFrom toLower P (i + 1) (names.foldl Names.add ns) toks

/-- The tokens of a spec. -/
def specTokens (spec : String) : List String := splitText (if trimSpace spec = "" then "any" else spec) ','

def resolveInterfaces (toLower : String → String) (P : ℕ → Platform) (spec : String) : Except String (List String) :=
  (resolveFrom toLower P 0 {} (specTokens spec)).map Names.out

/-! ### Local addresses -/

/-- `addrs` has the addresses of an interface, as far as they are networks; there are none if it cannot be resolved. -/
def localAddrs (addrs : String → Option (List (Option (List UInt8)))) (names : List String) : List Addr :=
  names.flatMap fun name => ((addrs name).getD []).filterMap fun a => (a.bind Addr.ofSlice).map Addr.unmap

def localAddrSet (addrs : String → Option (List (Option (List UInt8)))) (names : List String) :
    Except String (GoMap Addr Unit) :=
  let set := GoMap.insertAll ∅ ((localAddrs addrs names).map (·, ()))
  if set.keys = [] then .error ("no IP addresses on " ++ ", ".intercalate names) else .ok set

/-! ### What a spec stands for -/

/-- What the tokens were expanded to, in their order. -/
def expansions (toLower : String → String) (P : ℕ → Platform) : ℕ → List String → List (Except String (List String))
  | _, [] => []
  | i, tok :: toks =>
    if trimSpace tok = "" then expansions toLower P (i + 1) toks
    else expand toLower (P i) (trimSpace tok) :: expansions toLower P (i + 1) toks

/-- The names are those of `l`, each where it comes first. -/
structure Names.Of (ns : Names) (l : List String) : Prop where
  out : ns.out = l.eraseDups
  seen : ∀ name, (ns.seen.lookup name).isSome ↔ name ∈ l

theorem Names.of_nil : Names.Of {} [] := ⟨rfl, fun name => by simp⟩

theorem Names.Of.add {ns : Names} {l : List String} (h : ns.Of l) (name : String) : (ns.add name).Of (l ++ [name]) := by
  have hconcat : Rollup.keys id (l ++ [name]) = _ := Rollup.keys_concat l name
  simp only [Rollup.keys, List.map_id, id_eq, List.mem_eraseDups] at hconcat
  unfold Names.add
  split_ifs with hseen
  · have hmem : name ∈ l := (h.seen name).1 hseen
    refine ⟨?_, fun name' => ?_⟩
    · rw [hconcat, if_pos hmem, h.out]
    · rw [h.seen, List.mem_append, List.mem_singleton]
      exact ⟨.inl, fun h' => h'.elim id fun heq => heq ▸ hmem⟩
  · have hmem : name ∉ l := fun hm => hseen ((h.seen name).2 hm)
    refine ⟨?_, fun name' => ?_⟩
    · rw [hconcat, if_neg hmem, h.out]
    · rw [GoMap.lookup_insert_eq, List.mem_append, List.mem_singleton, ← h.seen name']
      split_ifs with heq
      · simp [heq]
      · simp [heq]

theorem Names.Of.addAll {ns : Names} {l : List String} (h : ns.Of l) (names : List String) :
    (names.foldl Names.add ns).Of (l ++ names) := by
  induction names generalizing ns l with
  | nil => rwa [List.append_nil]
  | cons name names ih =>
    have h' := ih (h.add name)
    rwa [List.append_assoc] at h'

theorem mapM_ok {ε α : Type} (a : α) (rs : List (Except ε α)) :
    (.ok a :: rs).mapM id = (rs.mapM id).map (a :: ·) := by
  rw [List.mapM_cons]
  cases rs.mapM id <;> rfl

theorem mapM_error {ε α : Type} (e : ε) (rs : List (Except ε α)) : (.error e :: rs).mapM id = .error e := by
  rw [List.mapM_cons]
  rfl

theorem resolveFrom_eq (toLower : String → String) (P : ℕ → Platform) (i : ℕ) {ns : Names} {l : List String}
    (h : ns.Of l) (toks : List String) :
    (resolveFrom toLower P i ns toks).map Names.out =
      ((expansions toLower P i toks).mapM id).map fun ls => (l ++ ls.flatten).eraseDups := by
  induction toks generalizing i ns l with
  | nil =>
    show Except.ok ns.out = .ok (l ++ []).eraseDups
    rw [List.append_nil, h.out]
  | cons tok toks ih =>
    unfold resolveFrom expansions
    split_ifs with hblank
    · exact ih (i + 1) h
    · cases hexp : expand toLower (P i) (trimSpace tok) with
      | error e =>
        rw [mapM_error]
        rfl
      | ok names =>
        dsimp only
        rw [ih (i + 1) (h.addAll names), mapM_ok]
        cases (expansions toLower P (i + 1) toks).mapM id with
        | error e => rfl
        | ok ls =>
          show Except.ok (l ++ names ++ ls.flatten).eraseDups = .ok (l ++ (names :: ls).flatten).eraseDups
          rw [List.flatten_cons, List.append_assoc]

theorem resolveInterfaces_eq (toLower : String → String) (P : ℕ → Platform) (spec : String) :
    resolveInterfaces toLower P spec =
      ((expansions toLower P 0 (specTokens spec)).mapM id).map fun ls => ls.flatten.eraseDups :=
  resolveFrom_eq toLower P 0 Names.of_nil (specTokens spec)

/-- All of them, or the first error. -/
theorem mapM_cases {ε α : Type} (rs : List (Except ε α)) :
    (∃ as : List α, rs = as.map .ok ∧ rs.mapM id = .ok as) ∨
      ∃ (pre : List α) (e : ε) (post : List (Except ε α)),
        rs = pre.map .ok ++ .error e :: post ∧ rs.mapM id = .error e := by
  induction rs with
  | nil => exact .inl ⟨[], rfl, rfl⟩
  | cons r rs ih =>
    cases r with
    | error e => exact .inr ⟨[], e, rs, rfl, mapM_error e rs⟩
    | ok a =>
      rcases ih with ⟨as, rfl, has⟩ | ⟨pre, e, post, rfl, he⟩
      · refine .inl ⟨a :: as, rfl, ?_⟩
        rw [mapM_ok, has]
        rfl
      · refine .inr ⟨a :: pre, e, post, rfl, ?_⟩
        rw [mapM_ok, he]
        rfl

theorem nodup_eraseDups (l : List String) : l.eraseDups.Nodup := by
  have h : (Rollup.keys id l).Nodup := Rollup.nodup_keys l
  rwa [Rollup.keys, List.map_id] at h

/-! ### The default route is there -/

theorem eraseDups_ne_nil {l : List String} : l.eraseDups ≠ [] ↔ l ≠ [] := by
  rw [not_iff_not, List.eq_nil_iff_forall_not_mem, List.eq_nil_iff_forall_not_mem]
  exact forall_congr' fun a => not_congr List.mem_eraseDups

theorem defaultInterfaces_eq (P : Platform) {devs : List String}
    (h : P.routeInterface P.runRoute ++ P.routeInterface P.runRoute6 = devs) :
    defaultInterfaces P = if devs ≠ [] then .ok devs.eraseDups else P.firstDevice := by
  have hof := (Names.of_nil.addAll (P.routeInterface P.runRoute)).addAll (P.routeInterface P.runRoute6)
  rw [List.nil_append, h] at hof
  unfold defaultInterfaces
  dsimp only
  rw [hof.out]
  by_cases hdevs : devs ≠ []
  · rw [if_pos hdevs]
    exact if_pos (eraseDups_ne_nil.2 hdevs)
  · rw [if_neg hdevs]
    exact if_neg (mt eraseDups_ne_nil.1 hdevs)

theorem firstDevice_singleton {P : Platform} {names : List String} (h : P.firstDevice = .ok names) :
    ∃ n, names = [n] := by
  unfold Platform.firstDevice at h
  cases hlist : P.listInterfaces with
  | error e => rw [hlist] at h; cases h
  | ok devs =>
    rw [hlist] at h
    dsimp only at h
    cases hfind : devs.find? fun n => ! P.isLoopbackInterface n with
    | none => rw [hfind] at h; cases h
    | some n =>
      rw [hfind] at h
      cases h
      exact ⟨n, rfl⟩

theorem defaultInterfaces_ne_nil {P : Platform} {names : List String} (h : defaultInterfaces P = .ok names) :
    names ≠ [] := by
  rw [defaultInterfaces_eq P rfl] at h
  split_ifs at h with hdevs
  · cases h
    exact eraseDups_ne_nil.2 hdevs
  · obtain ⟨n, rfl⟩ := firstDevice_singleton h
    exact List.cons_ne_nil n []

/-- The index is never out of range. -/
def defaultInterface (P : Platform) : Except String String :=
  match h : defaultInterfaces P with
  | .error e => .error e
  | .ok names => .ok (names.head (defaultInterfaces_ne_nil h))

/-! ### Local addresses -/

section Local
variable {addrs : String → Option (List (Option (List UInt8)))} {names : List String}

theorem mem_localAddrs {a : Addr} : a ∈ localAddrs addrs names ↔
    ∃ name ∈ names, ∃ as b ip, addrs name = some as ∧ some b ∈ as ∧ Addr.ofSlice b = some ip ∧ ip.unmap = a := by
  simp only [localAddrs, List.mem_flatMap, List.mem_filterMap, Option.map_eq_some_iff, Option.bind_eq_some_iff]
  refine exists_congr fun name => and_congr_right fun _ => ?_
  constructor
  · rintro ⟨b?, hmem, ip, ⟨b, rfl, hip⟩, rfl⟩
    cases has : addrs name with
    | none => rw [has] at hmem; cases hmem
    | some as => exact ⟨as, b, ip, rfl, by rwa [has] at hmem, hip, rfl⟩
  · rintro ⟨as, b, ip, has, hmem, hip, rfl⟩
    exact ⟨some b, by rwa [has], ip, ⟨b, rfl, hip⟩, rfl⟩

theorem mem_addrSet (l : List Addr) (a : Addr) : a ∈ GoMap.insertAll ∅ (l.map (·, ())) ↔ a ∈ l := by
  induction l using List.reverseRecOn with
  | nil => exact ⟨fun h => absurd h (AList.notMem_empty a), nofun⟩
  | append_singleton l b ih =>
    rw [List.map_append, List.map_singleton, GoMap.insertAll_concat, AList.mem_insert, ih, List.mem_append,
      List.mem_singleton, or_comm]

theorem localAddrSet_cases (addrs : String → Option (List (Option (List UInt8)))) (names : List String) :
    (localAddrs addrs names = [] ∧
        localAddrSet addrs names = .error ("no IP addresses on " ++ ", ".intercalate names)) ∨
      ∃ set, localAddrSet addrs names = .ok set ∧ names ≠ [] ∧ ∀ a, a ∈ set ↔ a ∈ localAddrs addrs names := by
  have hset := mem_addrSet (localAddrs addrs names)
  unfold localAddrSet
  dsimp only
  split_ifs with hkeys
  · refine .inl ⟨List.eq_nil_iff_forall_not_mem.2 fun a ha => ?_, rfl⟩
    have hmem := AList.mem_keys.1 ((hset a).2 ha)
    rw [hkeys] at hmem
    cases hmem
  · refine .inr ⟨_, rfl, ?_, hset⟩
    rintro rfl
    exact hkeys rfl

end Local

/-! ### `Run` starts -/

theorem startRun_eq (snapLen : Int) (resolved : Except String (List String))
    (localAddrSet : List String → Except String (List Addr)) :
    startRun snapLen resolved localAddrSet =
      if snapLen < 1 ∨ maxInt32 < snapLen then
        .error (.text ("SnapLen " ++ toString snapLen ++ " out of range [1, " ++ toString maxInt32 ++ "]"))
      else
        match resolved with
        | .error e => .error (.text e)
        | .ok names =>
          match localAddrSet names with
          | .error e => .error (.text e)
          | .ok _ => .ok { captures := names.map (·, .opening) } := by
  unfold startRun
  by_cases hrange : snapLen < 1 ∨ maxInt32 < snapLen
  · rw [if_pos hrange, if_pos hrange]
    rfl
  rw [if_neg hrange, if_neg hrange]
  cases resolved with
  | error e => rfl
  | ok names =>
    dsimp only
    cases hlocal : localAddrSet names with
    | error e => simp only [Except.mapError, hlocal, bind, Except.bind]
    | ok as =>
      simp only [Except.mapError, hlocal, bind, Except.bind, pure, Except.pure]

section Start
variable (toLower : String → String) (P : ℕ → Platform) (addrs : String → Option (List (Option (List UInt8))))

/-- `Run` captures on the names that the tokens were expanded to, and `locals` are their addresses. -/
structure CapturesOn (spec : String) (s : CaptureRun) (names : List String) (locals : GoMap Addr Unit) : Prop where
  named : ∃ ls : List (List String),
    expansions toLower P 0 (specTokens spec) = ls.map .ok ∧ names = ls.flatten.eraseDups
  opened : s.captures = names.map (·, .opening)
  nonempty : names ≠ []
  once : names.Nodup
  addresses : localAddrSet addrs names = .ok locals
  isLocal : ∀ a, a ∈ locals ↔
    ∃ name ∈ names, ∃ as b ip, addrs name = some as ∧ some b ∈ as ∧ Addr.ofSlice b = some ip ∧ ip.unmap = a

/-- How `Run` starts, and why it does not: the length is checked first, then the tokens one by one, then the
addresses. -/
inductive RunStarts (snapLen : Int) (spec : String) : Except RunErr CaptureRun → Prop
  | captures {s : CaptureRun} {names : List String} {locals : GoMap Addr Unit}
    (hrange : 1 ≤ snapLen ∧ snapLen ≤ maxInt32) (h : CapturesOn toLower P addrs spec s names locals) :
    RunStarts snapLen spec (.ok s)
  | snapLen (hrange : snapLen < 1 ∨ maxInt32 < snapLen) :
    RunStarts snapLen spec
      (.error (.text ("SnapLen " ++ toString snapLen ++ " out of range [1, " ++ toString maxInt32 ++ "]")))
  | token {pre : List (List String)} {e : String} {post : List (Except String (List String))}
    (hrange : 1 ≤ snapLen ∧ snapLen ≤ maxInt32)
    (h : expansions toLower P 0 (specTokens spec) = pre.map .ok ++ .error e :: post) :
    RunStarts snapLen spec (.error (.text e))
  | noAddress {ls : List (List String)} (hrange : 1 ≤ snapLen ∧ snapLen ≤ maxInt32)
    (h : expansions toLower P 0 (specTokens spec) = ls.map .ok)
    (hnone : localAddrs addrs ls.flatten.eraseDups = []) :
    RunStarts snapLen spec (.error (.text ("no IP addresses on " ++ ", ".intercalate ls.flatten.eraseDups)))

/-- Whatever the system answers. -/
theorem capture_starts (snapLen : Int) (spec : String) :
    RunStarts toLower P addrs snapLen spec
      (startRun snapLen (resolveInterfaces toLower P spec) fun names => (localAddrSet addrs names).map AList.keys) := by
  rw [resolveInterfaces_eq, startRun_eq]
  by_cases hrange : snapLen < 1 ∨ maxInt32 < snapLen
  · rw [if_pos hrange]
    exact .snapLen hrange
  rw [if_neg hrange]
  have hbounds : 1 ≤ snapLen ∧ snapLen ≤ maxInt32 := ⟨by omega, by omega⟩
  rcases mapM_cases (expansions toLower P 0 (specTokens spec)) with ⟨ls, hls, hok⟩ | ⟨pre, e, post, hpost, herr⟩
  · rw [hok, Except.map]
    dsimp only
    rcases localAddrSet_cases addrs ls.flatten.eraseDups with ⟨hnone, herr⟩ | ⟨locals, hset, hne, hmem⟩
    · rw [herr, Except.map]
      exact .noAddress hbounds hls hnone
    · rw [hset, Except.map]
      have hlocal : ∀ a, a ∈ locals ↔ _ := fun a => (hmem a).trans mem_localAddrs
      exact .captures hbounds ⟨⟨ls, hls, rfl⟩, rfl, hne, nodup_eraseDups _, hset, hlocal⟩
  · rw [herr, Except.map]
    exact .token hbounds hpost

end Start

/-! ### The routes that `ip` prints -/

namespace Linux

/-- A default route: its device, and the words before and after it. -/
structure Route where
  before : List String
  dev : String
  after : List String

def Route.words (r : Route) : List String := r.before ++ "dev" :: r.dev :: r.after

/-- Every word has a blank behind it. -/
def Route.line (r : Route) : List Char := r.words.flatMap fun w => w.toList ++ [' ']

def printRoutes (rs : List Route) : String := String.ofList (rs.flatMap fun r => r.line ++ ['\n'])

def isWord (w : String) : Bool := ! w.toList.isEmpty && ! w.toList.any isSpace

theorem isWord_iff {w : String} : isWord w = true ↔ w.toList ≠ [] ∧ ∀ c ∈ w.toList, isSpace c = false := by
  simp [isWord, List.any_eq_false]

structure Route.Printable (r : Route) : Prop where
  words : ∀ w ∈ r.words, isWord w = true
  before : "dev" ∉ r.before

theorem splitOnP_words {ws : List String} (h : ∀ w ∈ ws, ∀ c ∈ w.toList, isSpace c = false) :
    (ws.flatMap fun w => w.toList ++ [' ']).splitOnP isSpace = ws.map String.toList ++ [[]] := by
  induction ws with
  | nil => exact List.splitOnP_nil
  | cons w ws ih =>
    have hw := h w List.mem_cons_self
    rw [List.flatMap_cons, List.append_assoc, List.singleton_append,
      List.splitOnP_append_cons_of_forall_mem hw ' ' (by decide), ih fun w' hw' => h w' (List.mem_cons_of_mem _ hw')]
    rfl

theorem Route.Printable.fields {r : Route} (h : r.Printable) : fieldsText (String.ofList r.line) = r.words := by
  have hne : ∀ l ∈ r.words.map String.toList, decide (l ≠ []) = true := by
    intro l hl
    obtain ⟨w, hw, rfl⟩ := List.mem_map.1 hl
    exact decide_eq_true (isWord_iff.1 (h.words w hw)).1
  rw [fieldsText, String.toList_ofList, Route.line, splitOnP_words fun w hw => (isWord_iff.1 (h.words w hw)).2,
    List.filter_append, List.filter_eq_self.2 hne]
  simp

theorem Route.Printable.newline {r : Route} (h : r.Printable) : '\n' ∉ r.line := by
  intro hmem
  obtain ⟨w, hw, hin⟩ := List.mem_flatMap.1 hmem
  rcases List.mem_append.1 hin with hin | hin
  · have hspace := (isWord_iff.1 (h.words w hw)).2 '\n' hin
    exact absurd hspace (by decide)
  · exact absurd (List.mem_singleton.1 hin) (by decide)

theorem deviceIn_words {before : List String} (h : "dev" ∉ before) (dev : String) (after : List String) :
    deviceIn (before ++ "dev" :: dev :: after) = some dev := by
  induction before with
  | nil => rfl
  | cons w before ih =>
    have hw : w ≠ "dev" := fun heq => h (heq ▸ List.mem_cons_self)
    rw [List.cons_append, deviceIn]
    · exact ih fun hm => h (List.mem_cons_of_mem _ hm)
    · exact fun name _ heq => absurd heq hw

theorem parseRouteInterface_print {r : Route} (h : r.Printable) (rs : List Route) :
    parseRouteInterface (printRoutes (r :: rs)) = .ok r.dev := by
  have hsplit : (splitText (printRoutes (r :: rs)) '\n').headD "" = String.ofList r.line := by
    rw [splitText, printRoutes, String.toList_ofList, List.flatMap_cons, List.append_assoc, List.singleton_append,
      List.splitOn_append_cons_self, List.splitOn_eq_singleton h.newline]
    rfl
  rw [parseRouteInterface, hsplit, h.fields, Route.words, deviceIn_words h.before]

def loopbackInterface : String := "lo"

/-- A host with these devices, and what its route command prints. -/
def host (devs : Except String (List String)) (out4 out6 : Option String) : Platform where
  listInterfaces := devs
  runRoute := out4
  runRoute6 := out6
  parseRouteInterface := parseRouteInterface
  isLoopbackInterface name := name = loopbackInterface
  loopbackDeviceName := .ok loopbackInterface

/-- The devices of the preferred routes, if there are any. -/
def routeDevices (rs4 rs6 : List Route) : List String := (rs4.head?.toList ++ rs6.head?.toList).map Route.dev

theorem routeInterface_print (devs : Except String (List String)) (out4 out6 : Option String) {rs : List Route}
    (h : ∀ r ∈ rs, r.Printable) :
    (host devs out4 out6).routeInterface (some (printRoutes rs)) = rs.head?.toList.map Route.dev := by
  have hparse : (host devs out4 out6).parseRouteInterface = parseRouteInterface := by simp only [host]
  rw [Platform.routeInterface, hparse]
  cases rs with
  | nil => rfl
  | cons r rs =>
    rw [parseRouteInterface_print (h r List.mem_cons_self)]
    rfl

/-- IPv4 goes out by Wi-Fi, IPv6 by a tunnel. -/
def wifiRoute : Route := ⟨["default", "via", "192.168.1.1"], "wlan0", ["proto", "dhcp", "metric", "600"]⟩

def tunnelRoute : Route := ⟨["default"], "wg0", ["metric", "1024", "pref", "medium"]⟩

instance (r : Route) : Decidable r.Printable :=
  decidable_of_iff ((∀ w ∈ r.words, isWord w = true) ∧ "dev" ∉ r.before) ⟨fun h => ⟨h.1, h.2⟩, fun h => ⟨h.1, h.2⟩⟩

end Linux

end Trafficmon
