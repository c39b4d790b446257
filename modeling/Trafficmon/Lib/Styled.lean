import Trafficmon.Lib.Runes

/-!
# Styled text

A text on its way to a screen is bytes, each with the styles it is shown in; what is sent to the terminal
for them is left open. `join` and `split` are `strings.Join` and `strings.Split` at line breaks, inverse to
each other on lines without any (`split_join`).
-/

namespace Styled
open GoString

/-- The styles of a byte are listed from the outermost in. -/
abbrev Text (σ : Type*) := List (UInt8 × List σ)

variable {σ : Type*}

def plain (s : List UInt8) : Text σ := s.map (·, [])

def inStyle (st : σ) (t : Text σ) : Text σ := t.map fun c => (c.1, st :: c.2)

/-- The text alone. -/
def unstyled (t : Text σ) : List UInt8 := t.map Prod.fst

def lineBreak : UInt8 := 0x0a

def join (lines : List (Text σ)) : Text σ := List.intercalate (plain [lineBreak]) lines

def split (t : Text σ) : List (Text σ) := t.splitOnP fun c => c.1 = lineBreak

/-- Without control characters. -/
def Printable (s : List UInt8) : Prop := ∀ b ∈ s, 0x20 ≤ b ∧ b ≠ 0x7f

instance (s : List UInt8) : Decidable (Printable s) := List.decidableBAll (fun b : UInt8 => 0x20 ≤ b ∧ b ≠ 0x7f) s

def OneLine (t : Text σ) : Prop := lineBreak ∉ unstyled t

section
variable {s s' : List UInt8} {t u : Text σ} {lines : List (Text σ)}

@[simp] theorem unstyled_plain (s : List UInt8) : unstyled (plain s : Text σ) = s := by
  rw [unstyled, plain, List.map_map]
  exact List.map_id s

@[simp] theorem unstyled_inStyle (st : σ) (t : Text σ) : unstyled (inStyle st t) = unstyled t := by
  simp [unstyled, inStyle]

@[simp] theorem unstyled_append (t u : Text σ) : unstyled (t ++ u) = unstyled t ++ unstyled u := List.map_append

theorem printable_append : Printable (s ++ s') ↔ Printable s ∧ Printable s' := by
  simp only [Printable, List.forall_mem_append]

theorem printable_intercalate {sep : List UInt8} {ss : List (List UInt8)} (hsep : Printable sep)
    (h : ∀ s ∈ ss, Printable s) : Printable (List.intercalate sep ss) := by
  induction ss with
  | nil => exact fun b hb => by cases hb
  | cons s ss ih =>
    obtain ⟨hs, hss⟩ := List.forall_mem_cons.1 h
    rcases eq_or_ne ss [] with rfl | hne
    · rwa [List.intercalate_singleton]
    · rw [List.intercalate_cons_of_ne_nil hne, printable_append, printable_append]
      exact ⟨⟨hs, hsep⟩, ih hss⟩

theorem OneLine.of_printable (h : Printable (unstyled t)) : OneLine t := fun hmem => by
  have := (h _ hmem).1
  revert this
  decide

/-! ### Lines -/

theorem split_append_lineBreak (t u : Text σ) : split (t ++ plain [lineBreak] ++ u) = split t ++ split u := by
  rw [List.append_assoc]
  exact List.splitOnP_append_cons t u (decide_eq_true rfl)

theorem OneLine.split (h : OneLine t) : split t = [t] :=
  List.splitOnP_eq_singleton fun c hc => by
    have hne : c.1 ≠ lineBreak := fun heq => h (heq ▸ List.mem_map_of_mem hc)
    simpa using hne

theorem split_join (hne : lines ≠ []) (h : ∀ l ∈ lines, OneLine l) : split (join lines) = lines := by
  induction lines with
  | nil => exact absurd rfl hne
  | cons l lines ih =>
    obtain ⟨hl, hlines⟩ := List.forall_mem_cons.1 h
    rcases eq_or_ne lines [] with rfl | hne'
    · rw [join, List.intercalate_singleton, hl.split]
    · rw [join, List.intercalate_cons_of_ne_nil hne', split_append_lineBreak, hl.split]
      exact congrArg (l :: ·) (ih hne' hlines)

/-- Lines that have line breaks in them are more than they were. -/
theorem length_le_split_join (lines : List (Text σ)) : lines.length ≤ (Styled.split (join lines)).length := by
  induction lines with
  | nil => exact Nat.zero_le _
  | cons l lines ih =>
    have hpos : 0 < (Styled.split l).length := List.length_pos_iff.2 (List.splitOnP_ne_nil _ l)
    rcases eq_or_ne lines [] with rfl | hne
    · rw [join, List.intercalate_singleton, List.length_singleton]
      exact hpos
    · rw [join, List.intercalate_cons_of_ne_nil hne, split_append_lineBreak, List.length_cons, List.length_append]
      rw [join] at ih
      omega

theorem oneLine_of_mem_split (h : u ∈ split t) : OneLine u := by
  induction t generalizing u with
  | nil =>
    rw [Styled.split, List.splitOnP_nil, List.mem_singleton] at h
    subst h
    exact List.not_mem_nil
  | cons c t ih =>
    rw [Styled.split, List.splitOnP_cons_eq_if_modifyHead] at h
    split_ifs at h with hc
    · rcases List.mem_cons.1 h with rfl | h
      · exact List.not_mem_nil
      · exact ih h
    · obtain ⟨v, vs, hv⟩ := List.exists_cons_of_ne_nil (List.splitOnP_ne_nil (fun c => c.1 = lineBreak) t)
      have ih' : ∀ u ∈ v :: vs, OneLine u := fun u hu => ih (by rw [Styled.split, hv]; exact hu)
      rw [hv, List.modifyHead_cons] at h
      rcases List.mem_cons.1 h with rfl | h
      · intro hmem
        rcases List.mem_cons.1 hmem with heq | hmem
        · exact hc (by simpa using heq.symm)
        · exact ih' v List.mem_cons_self hmem
      · exact ih' u (List.mem_cons_of_mem v h)

/-! ### Runes of printable texts -/

/-- A rune of a text is written with bytes of it, or stands for a byte that is no rune's. -/
theorem mem_of_mem_runes {r : Char} (h : r ∈ runes s) : r = '\uFFFD' ∨ ∀ b ∈ String.utf8EncodeChar r, b ∈ s := by
  induction hn : s.length using Nat.strong_induction_on generalizing s with
  | _ n ih =>
    cases s with
    | nil => cases h
    | cons b s =>
      cases hfirst : firstRune? (b :: s) with
      | none =>
        rw [runes_cons_of_none hfirst] at h
        rcases List.mem_cons.1 h with rfl | h
        · exact .inl rfl
        · refine (ih s.length ?_ h rfl).imp_right fun hall b' hb' => List.mem_cons_of_mem b (hall b' hb')
          rw [← hn, List.length_cons]
          omega
      | some r' =>
        obtain ⟨rest, hrest⟩ := firstRune?_eq_some.1 hfirst
        have hlt : rest.length < n := by
          have hlen := congrArg List.length hrest
          have hpos := r'.utf8Size_pos
          rw [List.length_append, String.length_utf8EncodeChar] at hlen
          omega
        rw [← hrest] at h ⊢
        rw [runes_encode_append] at h
        rcases List.mem_cons.1 h with rfl | h
        · exact .inr fun b' hb' => List.mem_append_left _ hb'
        · exact (ih rest.length hlt h rfl).imp_right fun hall b' hb' => List.mem_append_right _ (hall b' hb')

theorem Printable.ofRunes {rs : List Char} (hs : Printable s) (h : ∀ r ∈ rs, r ∈ runes s) :
    Printable (ofRunes rs) := by
  have hunknown : Printable (String.utf8EncodeChar '\uFFFD') := by decide
  intro b hmem
  obtain ⟨r, hr, hb⟩ := List.mem_flatMap.1 hmem
  rcases mem_of_mem_runes (h r hr) with rfl | hall
  · exact hunknown b hb
  · exact hs b (hall b hb)

end

end Styled
