import Mathlib.Data.Nat.ModEq
import Trafficmon.Tui.Coherence

/-!
# The connections on screen (`tui/state.go`, `tui/filters.go`, `aggregate/rows.go`)

The filters ask a row, and a row has the face of the first connection that rolled into it, without its protocol and
state where connections are grouped. So a connection is on screen just when the first one of its row passes what is left
to ask there, whatever became of the settings, the grouping and the snapshot on the way (`connections_shown`).
-/

namespace Trafficmon.Tui

/-- The first connection of the row that `c` is in. -/
def leader (snap : Snapshot) (g : Grouping) (c : ConnectionRecord) : ConnectionRecord :=
  (membersOf snap g (rowKey g c)).headD c

/-- What the settings ask of the connection that a row has its face from. -/
structure View.Admits (v : View) (toLower : String → String) (name : String → String → String) (d : ConnectionRecord) :
    Prop where
  listening : v.grouping = .none → v.showListening = false → d.state ≠ listenState
  tcp : v.grouping = .none → v.showTCP = false → d.proto ≠ "tcp"
  udp : v.grouping = .none → v.showUDP = false → d.proto ≠ "udp"
  family : ∀ ip, Addr.parseIP d.remoteAddr = some ip → (if ip.isIPv4 then v.showIPv4 else v.showIPv6) = true
  outside : v.showPrivate = false → ∀ ip, Addr.parseIP d.remoteAddr = some ip → ip.isPrivate = false
  iface : d.iface ≠ "" → v.activeInterfaces.lookup d.iface = some true
  text : v.filter ≠ "" → contains (toLower d.processName) (toLower v.filter) ∨
    contains (toLower (name d.hostname d.remoteAddr)) (toLower v.filter)

/-! ### The face of a row -/

/-- What the filters see of a row. -/
structure Row.Faces (r : Row) (g : Grouping) (d : ConnectionRecord) : Prop where
  label : r.label = d.processName
  remoteAddr : r.remoteAddr = d.remoteAddr
  hostname : r.hostname = d.hostname
  iface : r.iface = d.iface
  proto : r.proto = if g = .none then d.proto else ""
  state : r.state = if g = .none then d.state else ""

theorem faces_seedRow (g : Grouping) (d : ConnectionRecord) (key : String) : Row.Faces (seedRow g d key) g d := by
  cases g <;> exact ⟨rfl, rfl, rfl, rfl, rfl, rfl⟩

theorem Row.Faces.foldl {r : Row} {g : Grouping} {d : ConnectionRecord} (h : Row.Faces r g d)
    (ms : List ConnectionRecord) : Row.Faces (ms.foldl Row.accumulate r) g d := by
  induction ms generalizing r with
  | nil => exact h
  | cons c ms ih => exact ih ⟨h.label, h.remoteAddr, h.hostname, h.iface, h.proto, h.state⟩

/-- A connection's row has the face of its leader. -/
theorem faces_leader {snap : Snapshot} {g : Grouping} {r : Row} (hr : r ∈ rows snap g) {c : ConnectionRecord}
    (hkey : rowKey g c = r.key) : Row.Faces r g (leader snap g c) := by
  obtain ⟨d, ms, hm, hfold⟩ := exists_members hr
  have hleader : leader snap g c = d := by
    rw [leader, hkey, hm]
    rfl
  rw [hleader, hfold]
  exact (faces_seedRow g d r.key).foldl (d :: ms)

/-! ### What each filter asks -/

section Ask
variable {r : Row}

theorem showsListening_iff {shown : Bool} : r.showsListening shown = true ↔ (shown = false → r.state ≠ listenState) := by
  cases shown <;> simp [Row.showsListening]

theorem showsProto_iff {showTCP showUDP : Bool} : r.showsProto showTCP showUDP = true ↔
    (showTCP = false → r.proto ≠ "tcp") ∧ (showUDP = false → r.proto ≠ "udp") := by
  cases showTCP <;> cases showUDP <;> simp [Row.showsProto]

theorem showsIPFamily_iff {showIPv4 showIPv6 : Bool} : r.showsIPFamily showIPv4 showIPv6 = true ↔
    ∀ ip, Addr.parseIP r.remoteAddr = some ip → (if ip.isIPv4 then showIPv4 else showIPv6) = true := by
  rw [Row.showsIPFamily, Option.all_eq_true]

theorem showsPrivate_iff {shown : Bool} : r.showsPrivate shown = true ↔
    (shown = false → ∀ ip, Addr.parseIP r.remoteAddr = some ip → ip.isPrivate = false) := by
  cases shown <;> simp [Row.showsPrivate, Option.all_eq_true]

theorem showsIface_iff {active : GoMap String Bool} {iface : String} (h : r.iface = iface) :
    r.showsIface active = true ↔ (iface ≠ "" → active.lookup iface = some true) := by
  subst h
  rw [Row.showsIface, decide_eq_true_eq, or_iff_not_imp_left]
  cases active.lookup r.iface <;> simp

theorem showsText_iff {toLower : String → String} {q : String} {hostname : Row → String} :
    r.showsText toLower q hostname = true ↔
      (q ≠ "" → contains (toLower r.label) (toLower q) ∨ contains (toLower (hostname r)) (toLower q)) := by
  rw [Row.showsText, decide_eq_true_eq, or_iff_not_imp_left]

end Ask

section Shown
variable {ι : Type*} {env : Env ι} {name : String → String → String}

theorem shows_iff (hname : ∀ r, env.hostname r = name r.hostname r.remoteAddr) {v : View} {r : Row}
    {d : ConnectionRecord} (h : Row.Faces r v.grouping d) : v.shows env r = true ↔ v.Admits env.toLower name d := by
  have hungrouped : ∀ {s t : String}, t ≠ "" →
      ((if v.grouping = .none then s else "") ≠ t ↔ (v.grouping = .none → s ≠ t)) := fun {s t} ht => by
    split_ifs with hg
    · exact ⟨fun h _ => h, fun h => h hg⟩
    · exact ⟨fun _ h => absurd h hg, fun _ => ht.symm⟩
  simp only [View.shows, Bool.and_eq_true, showsListening_iff, showsProto_iff, showsIPFamily_iff, showsPrivate_iff,
    showsIface_iff h.iface, showsText_iff, hname, h.label, h.remoteAddr, h.hostname, h.proto, h.state]
  constructor
  · rintro ⟨⟨⟨⟨⟨hl, ht, hu⟩, hf⟩, ho⟩, hi⟩, hx⟩
    exact ⟨fun hg hs => (hungrouped (by decide)).1 (hl hs) hg, fun hg hs => (hungrouped (by decide)).1 (ht hs) hg,
      fun hg hs => (hungrouped (by decide)).1 (hu hs) hg, hf, ho, hi, hx⟩
  · rintro ⟨hl, ht, hu, hf, ho, hi, hx⟩
    exact ⟨⟨⟨⟨⟨fun hs => (hungrouped (by decide)).2 fun hg => hl hg hs,
      fun hs => (hungrouped (by decide)).2 fun hg => ht hg hs,
      fun hs => (hungrouped (by decide)).2 fun hg => hu hg hs⟩, hf⟩, ho⟩, hi⟩, hx⟩

/-! ### What is on screen -/

/-- The rows on screen say of the connections of the snapshot: -/
structure Model.ShowsConnections (env : Env ι) (name : String → String → String) (m : Model ι) : Prop where
  once : (m.rows.map Row.key).Nodup
  shown : ∀ c ∈ m.snap.connections,
    rowKey m.grouping c ∈ m.rows.map Row.key ↔ m.view.Admits env.toLower name (leader m.snap m.grouping c)
  /-- An IPv4 address as it is printed is told for one. -/
  ipv4 : m.view.showIPv4 = false → ∀ c ∈ m.snap.connections, ∀ b,
    (leader m.snap m.grouping c).remoteAddr = (Addr.v4 b).string → rowKey m.grouping c ∉ m.rows.map Row.key
  sums : ∀ r ∈ m.rows, r.Sums (membersOf m.snap m.grouping r.key)
  bytesIn : (m.rows.map fun r => r.bytesInTotal.toNat).sum ≡
    ((m.snap.connections.filter fun c => rowKey m.grouping c ∈ m.rows.map Row.key).map
      fun c => c.bytesInTotal.toNat).sum [MOD 2 ^ 64]
  bytesOut : (m.rows.map fun r => r.bytesOutTotal.toNat).sum ≡
    ((m.snap.connections.filter fun c => rowKey m.grouping c ∈ m.rows.map Row.key).map
      fun c => c.bytesOutTotal.toNat).sum [MOD 2 ^ 64]

variable {v : View}

theorem mem_table {r : Row} : r ∈ v.table env ↔ r ∈ rows v.snap v.grouping ∧ v.shows env r = true :=
  (SortBy.stableSort_perm _).mem_iff.trans List.mem_filter

theorem nodup_table (env : Env ι) (v : View) : ((v.table env).map Row.key).Nodup := by
  have hperm : ((v.table env).map Row.key).Perm (((rows v.snap v.grouping).filter (v.shows env)).map Row.key) :=
    (SortBy.stableSort_perm _).map _
  rw [hperm.nodup_iff]
  refine List.Nodup.sublist (List.filter_sublist.map _) ?_
  rw [rows_keys]
  exact Rollup.nodup_keys _

theorem mem_table_keys (hname : ∀ r, env.hostname r = name r.hostname r.remoteAddr) {c : ConnectionRecord}
    (hc : c ∈ v.snap.connections) : rowKey v.grouping c ∈ (v.table env).map Row.key ↔
      v.Admits env.toLower name (leader v.snap v.grouping c) := by
  constructor
  · intro h
    obtain ⟨r, hr, hkey⟩ := List.mem_map.1 h
    obtain ⟨hrow, hshown⟩ := mem_table.1 hr
    exact (shows_iff hname (faces_leader hrow hkey.symm)).1 hshown
  · intro h
    obtain ⟨r, hrow, hkey, -⟩ := exists_row hc v.grouping
    have hshown := (shows_iff hname (faces_leader hrow hkey.symm)).2 h
    exact List.mem_map.2 ⟨r, mem_table.2 ⟨hrow, hshown⟩, hkey⟩

/-- Rows with keys of their own that each stand for the sum over their members count every member once. -/
theorem sum_rows {snap : Snapshot} {g : Grouping} {rs : List Row} (hnodup : (rs.map Row.key).Nodup)
    (f : ConnectionRecord → ℕ) (total : Row → ℕ)
    (htotal : ∀ r ∈ rs, total r = ((membersOf snap g r.key).map f).sum % 2 ^ 64) :
    (rs.map total).sum ≡ ((snap.connections.filter fun c => rowKey g c ∈ rs.map Row.key).map f).sum [MOD 2 ^ 64] := by
  have hcount : ∀ c, rs.countP (fun r => decide (rowKey g c = r.key)) = (rs.map Row.key).count (rowKey g c) := fun c => by
    rw [List.count, List.countP_map]
    exact List.countP_congr fun r _ => by rw [Function.comp_apply, decide_eq_true_eq, beq_iff_eq, eq_comm]
  have honce : ∀ c ∈ snap.connections, rs.countP (fun r => decide (rowKey g c = r.key)) ≤ 1 := fun c _ => by
    rw [hcount]
    exact List.nodup_iff_count_le_one.1 hnodup (rowKey g c)
  have hany : ∀ c, (rs.any fun r => decide (rowKey g c = r.key)) = decide (rowKey g c ∈ rs.map Row.key) := fun c => by
    rw [Bool.eq_iff_iff, List.any_eq_true, decide_eq_true_eq, List.mem_map]
    exact exists_congr fun r => and_congr_right fun _ => by rw [decide_eq_true_eq, eq_comm]
  have hsum := Rollup.sum_sources_once (fun (r : Row) c => decide (rowKey g c = r.key)) f honce
  simp only [hany] at hsum
  rw [Nat.ModEq, ← hsum, List.map_congr_left htotal]
  conv_rhs => rw [List.sum_nat_mod, List.map_map]
  rfl

/-- After any messages; the name of a destination depends on the row's own name and on its address. -/
theorem connections_shown (env : Env ι) (name : String → String → String)
    (hname : ∀ r, env.hostname r = name r.hostname r.remoteAddr) (agg : Bool) (interfaces : List String)
    (msgs : List Msg) :
    (msgs.foldl (Model.step env) (newModel env agg interfaces)).ShowsConnections env name := by
  have hcoherent := Model.coherent_run env (Model.coherent_new env agg interfaces) msgs
  generalize msgs.foldl (Model.step env) (newModel env agg interfaces) = m at hcoherent ⊢
  have hrows : m.rows = m.view.table env := hcoherent.rows
  have hnodup : (m.rows.map Row.key).Nodup := by
    rw [hrows]
    exact nodup_table env m.view
  have hsums : ∀ r ∈ m.rows, r.Sums (membersOf m.snap m.grouping r.key) := by
    intro r hr
    rw [hrows] at hr
    exact sums_of_mem (mem_table.1 hr).1
  have hshown : ∀ c ∈ m.snap.connections, rowKey m.grouping c ∈ m.rows.map Row.key ↔
      m.view.Admits env.toLower name (leader m.snap m.grouping c) := fun c hc => by
    rw [hrows]
    exact mem_table_keys hname hc
  refine ⟨hnodup, hshown, fun hoff c hc b hb hmem => ?_, hsums, ?_, ?_⟩
  · have hon : m.view.showIPv4 = true :=
      ((hshown c hc).1 hmem).family (.v4 b) (hb ▸ Addr.parseIP_v4 b)
    rw [hoff] at hon
    cases hon
  · exact sum_rows hnodup _ _ fun r hr => (hsums r hr).bytesIn
  · exact sum_rows hnodup _ _ fun r hr => (hsums r hr).bytesOut

end Shown

/-! ### Two uplinks -/

/-- A process has two connections to one server, over an interface each. -/
def twoUplinks : Snapshot where
  takenAt := 9
  connections := [
    { pid := 7, processName := "sync", localAddr := "10.0.0.2", localPort := 50000, remoteAddr := "93.184.216.34",
      remotePort := 443, proto := "tcp", bytesInTotal := 900, lastSeen := 5, firstSeen := 1, iface := "en0",
      lastPolled := 9 },
    { pid := 7, processName := "sync", localAddr := "10.1.0.2", localPort := 50001, remoteAddr := "93.184.216.34",
      remotePort := 443, proto := "tcp", bytesInTotal := 70, lastSeen := 5, firstSeen := 1, iface := "en1",
      lastPolled := 9 }]

/-- `Hostname` without a cache and a resolver. -/
def ownName (hostname remoteAddr : String) : String := if hostname ≠ "" then hostname else remoteAddr

def bareEnv : Env Unit :=
  ⟨(), fun i _ => i, fun _ => "", fun i _ => i, id, id, fun r => ownName r.hostname r.remoteAddr, id⟩

/-- Grouped by PID, with the interface under the cursor off after `keys`. -/
def uplinksAfter (keys : List KeyMsg) : Model Unit :=
  (Msg.tick 9 twoUplinks :: ([⟨.other, "g"⟩, ⟨.other, "i"⟩] ++ keys ++ [⟨.space, " "⟩] : List KeyMsg).map Msg.key).foldl
    (Model.step bareEnv) (newModel bareEnv true ["en0", "en1"])

/-- Without `en0`, what goes over `en1` is hidden too; without `en1`, it is still counted. -/
theorem connections_shown_uplinks :
    ((uplinksAfter []).ShowsConnections bareEnv ownName ∧ (uplinksAfter []).rows = []) ∧
      (uplinksAfter [⟨.other, "j"⟩]).ShowsConnections bareEnv ownName ∧
        (uplinksAfter [⟨.other, "j"⟩]).rows.map Row.bytesInTotal = [970] :=
  ⟨⟨connections_shown bareEnv ownName (fun _ => rfl) true ["en0", "en1"] _, by decide +kernel⟩,
    connections_shown bareEnv ownName (fun _ => rfl) true ["en0", "en1"] _, by decide +kernel⟩

end Trafficmon.Tui
