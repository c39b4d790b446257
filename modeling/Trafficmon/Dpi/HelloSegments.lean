import Mathlib.Algebra.GroupWithZero.Nat
import Mathlib.Data.List.Induction
import Trafficmon.Dpi.Reassemble

/-!
# Reassembly does not depend on the segmentation (`dpi/reassemble.go`)

A flow's calls of `Feed` are pairs of a sequence number and a payload. While they come in order, the
assembler holds exactly the bytes of the stream so far (`inOrder_state`), so what it returns is a
function of those bytes and of how many segments brought them, not of where they were cut.
-/

namespace Trafficmon

abbrev Segment := UInt32 × List UInt8

namespace Segment

/-- The stream the segments carry. -/
def bytes (segs : List Segment) : List UInt8 := (segs.map Prod.snd).flatten

/-- The non-empty segments: `Feed` does not count the others. -/
def count (segs : List Segment) : Nat := segs.countP fun s => s.2 ≠ []

/-- Each non-empty segment has the sequence number at which its bytes stand in the stream. -/
def InOrder (seq : UInt32) : List Segment → Prop
  | [] => True
  | (s, payload) :: segs => (payload ≠ [] → s = seq) ∧ InOrder (seq + UInt32.ofNat payload.length) segs

instance decidableInOrder : (seq : UInt32) → (segs : List Segment) → Decidable (InOrder seq segs)
  | _, [] => .isTrue trivial
  | seq, (s, payload) :: segs =>
    haveI := decidableInOrder (seq + UInt32.ofNat payload.length) segs
    inferInstanceAs (Decidable ((payload ≠ [] → s = seq) ∧ _))

theorem bytes_concat (segs : List Segment) (s : Segment) : bytes (segs ++ [s]) = bytes segs ++ s.2 := by
  simp [bytes]

theorem count_concat (segs : List Segment) (s : Segment) :
    count (segs ++ [s]) = count segs + if s.2 = [] then 0 else 1 := by
  by_cases h : s.2 = [] <;> simp [count, h]

theorem inOrder_concat {seq : UInt32} {segs : List Segment} {s : Segment} :
    InOrder seq (segs ++ [s]) ↔
      InOrder seq segs ∧ (s.2 ≠ [] → s.1 = seq + UInt32.ofNat (bytes segs).length) := by
  induction segs generalizing seq with
  | nil => simp [InOrder, bytes]
  | cons head segs ih =>
    have hseq : seq + UInt32.ofNat head.2.length + UInt32.ofNat (bytes segs).length =
        seq + UInt32.ofNat (bytes (head :: segs)).length := by
      rw [UInt32.add_assoc, ← UInt32.ofNat_add, ← List.length_append]
      rfl
    rw [List.cons_append, InOrder, InOrder, ih, hseq, and_assoc]

theorem inOrder_of_append {seq : UInt32} {segs segs' : List Segment} (h : InOrder seq (segs ++ segs')) :
    InOrder seq segs := by
  induction segs' using List.reverseRecOn with
  | nil => rwa [List.append_nil] at h
  | append_singleton segs' s ih =>
    rw [← List.append_assoc] at h
    exact ih (inOrder_concat.1 h).1

end Segment

namespace HelloAssembler
open Segment

/-- What the calls return. -/
def outputs (h : HelloAssembler) : List Segment → List (Option (List UInt8) × Bool)
  | [] => []
  | (seq, payload) :: segs => (h.feed seq payload).2 :: (h.feed seq payload).1.outputs segs

def feedAll (h : HelloAssembler) (segs : List Segment) : HelloAssembler :=
  segs.foldl (fun h s => (h.feed s.1 s.2).1) h

theorem outputs_concat (h : HelloAssembler) (segs : List Segment) (s : Segment) :
    h.outputs (segs ++ [s]) = h.outputs segs ++ [((h.feedAll segs).feed s.1 s.2).2] := by
  induction segs generalizing h with
  | nil => rfl
  | cons head segs ih =>
    rw [List.cons_append, outputs, ih]
    rfl

theorem feedAll_concat (h : HelloAssembler) (segs : List Segment) (s : Segment) :
    h.feedAll (segs ++ [s]) = ((h.feedAll segs).feed s.1 s.2).1 := by
  rw [feedAll, List.foldl_append]
  rfl

/-! ### The state while the segments come in order -/

/-- The assembler that holds `buf`, a stream that started at `seq` and came in `n` segments. -/
def holding (seq : UInt32) (buf : List UInt8) (n : Nat) : HelloAssembler :=
  if buf = [] then newHelloAssembler
  else { buf := buf, nextSeq := seq + UInt32.ofNat buf.length, haveSeq := true, segs := n }

/-- A non-empty segment at the sequence number expected goes to the end of the buffer. -/
theorem feed_holding {seq : UInt32} {buf payload : List UInt8} {n : Nat} (hn : buf = [] → n = 0) (hp : payload ≠ []) :
    (holding seq buf n).feed (seq + UInt32.ofNat buf.length) payload =
      (holding seq (buf ++ payload) (n + 1), (holding seq (buf ++ payload) (n + 1)).outcome) := by
  by_cases hb : buf = []
  · subst hb
    obtain rfl := hn rfl
    have hstart : seq + UInt32.ofNat ([] : List UInt8).length = seq := by simp
    rw [hstart]
    simp [feed, holding, newHelloAssembler, expect, append, hp]
  · simp [feed, holding, expect, append, hb, hp, UInt32.add_assoc]

/-- Another sequence number stops the reassembly. -/
theorem feed_gap {seq s : UInt32} {buf payload : List UInt8} {n : Nat} (hb : buf ≠ [])
    (hs : s ≠ seq + UInt32.ofNat buf.length) (hp : payload ≠ []) :
    ((holding seq buf n).feed s payload).2 = (none, true) := by
  simp [feed, holding, expect, hb, hs, hp]

theorem inOrder_state {seq : UInt32} {segs : List Segment} (h : InOrder seq segs) :
    newHelloAssembler.feedAll segs = holding seq (bytes segs) (count segs) ∧ (bytes segs = [] → count segs = 0) := by
  induction segs using List.reverseRecOn with
  | nil => exact ⟨rfl, fun _ => rfl⟩
  | append_singleton segs s ih =>
    obtain ⟨hsegs, hseq⟩ := inOrder_concat.1 h
    obtain ⟨hstate, hcount⟩ := ih hsegs
    rw [feedAll_concat, hstate, bytes_concat, count_concat]
    by_cases hs : s.2 = []
    · simpa [feed, hs] using hcount
    · rw [hseq hs, feed_holding hcount hs, if_neg hs]
      exact ⟨rfl, fun hnil => absurd (List.append_eq_nil_iff.1 hnil).2 hs⟩

/-! ### What comes out -/

/-- The length of the TLS record the stream starts with. -/
def recordLen (stream : List UInt8) : Nat := 5 + ((stream.getD 3 0).toNat * 256 + (stream.getD 4 0).toNat)

theorem total_eq_recordLen (h : HelloAssembler) : h.total = recordLen h.buf := by
  have hor : ∀ a b : UInt8, a.toNat <<< 8 ||| b.toNat = a.toNat * 256 + b.toNat := by
    intro a b
    rw [← Nat.shiftLeft_add_eq_or_of_lt b.toNat_lt, Nat.shiftLeft_eq]
  rw [total, hor]
  rfl

theorem recordLen_append {buf : List UInt8} (h : tlsRecordHeaderLen ≤ buf.length) (rest : List UInt8) :
    recordLen (buf ++ rest) = recordLen buf := by
  have h5 : 5 ≤ buf.length := h
  have hget : ∀ i < 5, (buf ++ rest).getD i 0 = buf.getD i 0 := by
    intro i hi
    rw [List.getD_eq_getElem?_getD, List.getD_eq_getElem?_getD, List.getElem?_append_left (by omega)]
  rw [recordLen, recordLen, hget 3 (by decide), hget 4 (by decide)]

/-- Within the bounds, a prefix of a handshake stream gives the record iff the record is in it. -/
theorem outcome_holding {seq : UInt32} {buf rest : List UInt8} {n : Nat}
    (h0 : (buf ++ rest).head? = some tlsHandshakeRecordType) (hne : buf ≠ [])
    (hlen : buf.length ≤ maxHelloBufferBytes) (hn : n ≤ maxHelloSegments) :
    (holding seq buf n).outcome =
      if recordLen (buf ++ rest) ≤ buf.length then (some ((buf ++ rest).take (recordLen (buf ++ rest))), true)
      else (none, false) := by
  obtain ⟨b, buf, rfl⟩ := List.exists_cons_of_ne_nil hne
  obtain rfl : b = tlsHandshakeRecordType := by simpa using h0
  have hstate : holding seq (tlsHandshakeRecordType :: buf) n =
      { buf := tlsHandshakeRecordType :: buf,
        nextSeq := seq + UInt32.ofNat (tlsHandshakeRecordType :: buf).length, haveSeq := true, segs := n } := rfl
  have hbounds : ¬ (maxHelloBufferBytes < (tlsHandshakeRecordType :: buf).length ∨ maxHelloSegments < n) := by
    omega
  rw [outcome, total_eq_recordLen, hstate, if_neg (by simp), if_neg hbounds]
  dsimp only
  by_cases hheader : (tlsHandshakeRecordType :: buf).length < tlsRecordHeaderLen
  · rw [if_pos hheader, if_neg]
    unfold recordLen
    unfold tlsRecordHeaderLen at hheader
    omega
  · rw [if_neg hheader, recordLen_append (by omega)]
    by_cases hrec : recordLen (tlsHandshakeRecordType :: buf) ≤ (tlsHandshakeRecordType :: buf).length
    · rw [if_neg (by omega), if_pos hrec, List.take_append_of_le_length hrec]
    · rw [if_pos (by omega), if_neg hrec]

/-- Nothing comes out before the record is complete. -/
theorem outputs_incomplete {seq : UInt32} {segs : List Segment} {rest : List UInt8} (h : InOrder seq segs)
    (h0 : (bytes segs ++ rest).head? = some tlsHandshakeRecordType)
    (hshort : (bytes segs).length < recordLen (bytes segs ++ rest))
    (hlen : (bytes segs).length ≤ maxHelloBufferBytes) (hn : count segs ≤ maxHelloSegments) :
    newHelloAssembler.outputs segs = List.replicate segs.length (none, false) := by
  induction segs using List.reverseRecOn generalizing rest with
  | nil => rfl
  | append_singleton segs s ih =>
    obtain ⟨hsegs, hseq⟩ := inOrder_concat.1 h
    obtain ⟨hstate, hcount⟩ := inOrder_state hsegs
    rw [bytes_concat, List.append_assoc] at h0 hshort
    rw [bytes_concat, List.length_append] at hlen
    rw [List.length_append] at hshort
    rw [count_concat] at hn
    rw [outputs_concat, ih hsegs h0 (by omega) (by omega) (by omega), hstate, List.length_append,
      List.length_singleton, List.replicate_succ']
    congr 2
    by_cases hs : s.2 = []
    · simp [feed, hs]
    · rw [hseq hs, feed_holding hcount hs]
      rw [← List.append_assoc] at h0 hshort
      rw [if_neg hs] at hn
      show (holding seq (bytes segs ++ s.2) (count segs + 1)).outcome = _
      rw [outcome_holding h0 (by simp [hs]) (by rw [List.length_append]; omega) hn, if_neg]
      rw [List.length_append]
      omega

theorem outputs_complete {seq : UInt32} {pre post : List Segment} {s : Segment} (h : InOrder seq (pre ++ s :: post))
    (h0 : (bytes (pre ++ s :: post)).head? = some tlsHandshakeRecordType)
    (hshort : (bytes pre).length < recordLen (bytes (pre ++ s :: post)))
    (hcover : recordLen (bytes (pre ++ s :: post)) ≤ (bytes (pre ++ [s])).length)
    (hn : count (pre ++ [s]) ≤ maxHelloSegments) (hlen : (bytes (pre ++ [s])).length ≤ maxHelloBufferBytes) :
    newHelloAssembler.outputs (pre ++ [s]) = List.replicate pre.length (none, false) ++
      [(some ((bytes (pre ++ s :: post)).take (recordLen (bytes (pre ++ s :: post)))), true)] := by
  have hstream : bytes (pre ++ s :: post) = bytes pre ++ s.2 ++ bytes post := by simp [bytes]
  rw [show pre ++ s :: post = pre ++ [s] ++ post by simp] at h
  obtain ⟨hpre, hseq⟩ := inOrder_concat.1 (inOrder_of_append h)
  obtain ⟨hstate, hcount⟩ := inOrder_state hpre
  rw [hstream] at h0 hshort hcover ⊢
  rw [bytes_concat, List.length_append] at hcover hlen
  rw [count_concat] at hn
  have hs : s.2 ≠ [] := by
    intro hnil
    rw [hnil, List.append_nil] at hshort
    rw [hnil, List.length_nil, List.append_nil] at hcover
    omega
  rw [if_neg hs] at hn
  have hbefore : newHelloAssembler.outputs pre = List.replicate pre.length (none, false) := by
    rw [List.append_assoc] at h0 hshort
    exact outputs_incomplete hpre h0 hshort (by omega) (by omega)
  rw [outputs_concat, hstate, hseq hs, feed_holding hcount hs, hbefore]
  congr 2
  show (holding seq (bytes pre ++ s.2) (count pre + 1)).outcome = _
  rw [outcome_holding h0 (by simp [hs]) (by rw [List.length_append]; omega) hn,
    if_pos (by rw [List.length_append]; omega)]

/-- Past one of its bounds the assembler stops, even if the record is complete. -/
theorem outcome_past_bounds {h : HelloAssembler}
    (hover : maxHelloBufferBytes < h.buf.length ∨ maxHelloSegments < h.segs) : h.outcome = (none, true) := by
  unfold outcome
  split
  · rfl
  · rfl

/-- After segments in order, `feed` stops at a gap, at a stream that is no handshake and past the bounds. -/
theorem feed_gives_up {seq : UInt32} {pre : List Segment} {s : Segment} (h : InOrder seq pre) (hs : s.2 ≠ [])
    (hbad : (bytes pre ≠ [] ∧ s.1 ≠ seq + UInt32.ofNat (bytes pre).length) ∨
      (bytes pre = [] ∧ s.2.head? ≠ some tlsHandshakeRecordType) ∨
      maxHelloBufferBytes < (bytes (pre ++ [s])).length ∨ maxHelloSegments < count (pre ++ [s])) :
    ((newHelloAssembler.feedAll pre).feed s.1 s.2).2 = (none, true) := by
  obtain ⟨hstate, hcount⟩ := inOrder_state h
  rw [hstate]
  by_cases hgap : bytes pre ≠ [] ∧ s.1 ≠ seq + UInt32.ofNat (bytes pre).length
  · exact feed_gap hgap.1 hgap.2 hs
  · -- the segment is taken: `start` is the sequence number the stream starts at
    obtain ⟨start, hstart, hseq⟩ : ∃ start, holding seq (bytes pre) (count pre) = holding start (bytes pre) (count pre) ∧
        s.1 = start + UInt32.ofNat (bytes pre).length := by
      by_cases hnil : bytes pre = []
      · refine ⟨s.1, ?_, by simp [hnil]⟩
        rw [holding, holding, if_pos hnil, if_pos hnil]
      · refine ⟨seq, rfl, ?_⟩
        by_contra hne
        exact hgap ⟨hnil, hne⟩
    rw [hstart, hseq, feed_holding hcount hs]
    have hbuf : (holding start (bytes pre ++ s.2) (count pre + 1)).buf = bytes pre ++ s.2 := by
      rw [holding, if_neg (by simp [hs])]
    have hsegs : (holding start (bytes pre ++ s.2) (count pre + 1)).segs = count pre + 1 := by
      rw [holding, if_neg (by simp [hs])]
    rcases hbad with hbad | ⟨hnil, hhead⟩ | hover
    · exact absurd hbad hgap
    · unfold outcome
      rw [hbuf, hnil, List.nil_append, if_pos]
      obtain ⟨b, rest, hb⟩ := List.exists_cons_of_ne_nil hs
      rw [hb] at hhead ⊢
      simpa using hhead
    · rw [bytes_concat, count_concat, if_neg hs] at hover
      refine outcome_past_bounds ?_
      rw [hbuf, hsegs]
      exact hover

/-! ### Indexes -/

/-- `outcome` with Go's bounds checks: `none` for an index or a slice out of range. -/
def outcomeChecked (h : HelloAssembler) : Option (Option (List UInt8) × Bool) :=
  h.buf[0]?.bind fun first =>
    if first ≠ tlsHandshakeRecordType then some (none, true)
    else if maxHelloBufferBytes < h.buf.length ∨ maxHelloSegments < h.segs then some (none, true)
    else if h.buf.length < tlsRecordHeaderLen then some (none, false)
    else
      h.buf[3]?.bind fun hi =>
        h.buf[4]?.bind fun lo =>
          let total := tlsRecordHeaderLen + (hi.toNat <<< 8 ||| lo.toNat)
          if h.buf.length < total then some (none, false)
          else if total ≤ h.buf.length then some (some (h.buf.take total), true)
          else none

/-- `feed` with Go's bounds checks. -/
def feedChecked (h : HelloAssembler) (seq : UInt32) (payload : List UInt8) :
    Option (HelloAssembler × Option (List UInt8) × Bool) :=
  if payload.length = 0 then some (h, none, false)
  else
    let h := h.expect seq
    if seq ≠ h.nextSeq then some (h, none, true)
    else
      let h := h.append payload
      h.outcomeChecked.map fun out => (h, out)

def outputsChecked (h : HelloAssembler) : List Segment → Option (List (Option (List UInt8) × Bool))
  | [] => some []
  | (seq, payload) :: segs => do
    let (h, out) ← h.feedChecked seq payload
    let outs ← h.outputsChecked segs
    return out :: outs

theorem outcomeChecked_eq {h : HelloAssembler} (hne : h.buf ≠ []) : h.outcomeChecked = some h.outcome := by
  have hpos : 0 < h.buf.length := List.length_pos_iff.2 hne
  have hget : ∀ i < h.buf.length, h.buf[i]? = some (h.buf.getD i 0) := by
    intro i hi
    rw [List.getD_eq_getElem?_getD, List.getElem?_eq_getElem hi]
    rfl
  unfold outcomeChecked outcome
  rw [hget 0 hpos, Option.bind_some]
  split
  · rfl
  · split
    · rfl
    · split
      · rfl
      · have h5 : 5 ≤ h.buf.length := Nat.le_of_not_lt ‹_›
        rw [hget 3 (by omega), Option.bind_some, hget 4 (by omega), Option.bind_some]
        show (if h.buf.length < h.total then _ else if h.total ≤ h.buf.length then _ else _) = _
        split
        · rfl
        · rw [if_pos (by omega)]
          rfl

theorem feedChecked_eq (h : HelloAssembler) (seq : UInt32) (payload : List UInt8) :
    h.feedChecked seq payload = some (h.feed seq payload) := by
  unfold feedChecked feed
  split
  · rfl
  · dsimp only
    split
    · rfl
    · rw [outcomeChecked_eq]
      · rfl
      · show (h.expect seq).buf ++ payload ≠ []
        intro hnil
        exact ‹¬ payload.length = 0› (by rw [(List.append_eq_nil_iff.1 hnil).2]; rfl)

theorem outputsChecked_eq (h : HelloAssembler) (segs : List Segment) :
    h.outputsChecked segs = some (h.outputs segs) := by
  induction segs generalizing h with
  | nil => rfl
  | cons s segs ih =>
    rw [outputsChecked, feedChecked_eq]
    simp [ih, outputs]

/-- However a stream is cut into segments, the record comes out with the segment that completes it;
`feed` gives up at the first segment that is out of order, at a stream that is no handshake and past
the bounds; and no index is ever out of range. -/
theorem feed_segmentation :
    (∀ (seq : UInt32) (stream : List UInt8) (pre : List Segment) (s : Segment) (post : List Segment),
      InOrder seq (pre ++ s :: post) → bytes (pre ++ s :: post) = stream →
      stream.head? = some tlsHandshakeRecordType →
      (bytes pre).length < recordLen stream → recordLen stream ≤ (bytes (pre ++ [s])).length →
      count (pre ++ [s]) ≤ maxHelloSegments → (bytes (pre ++ [s])).length ≤ maxHelloBufferBytes →
      newHelloAssembler.outputs (pre ++ [s]) =
        List.replicate pre.length (none, false) ++ [(some (stream.take (recordLen stream)), true)]) ∧
    (∀ (seq : UInt32) (pre : List Segment) (s : Segment), InOrder seq pre → s.2 ≠ [] →
      ((bytes pre ≠ [] ∧ s.1 ≠ seq + UInt32.ofNat (bytes pre).length) ∨
        (bytes pre = [] ∧ s.2.head? ≠ some tlsHandshakeRecordType) ∨
        maxHelloBufferBytes < (bytes (pre ++ [s])).length ∨ maxHelloSegments < count (pre ++ [s])) →
      ((newHelloAssembler.feedAll pre).feed s.1 s.2).2 = (none, true)) ∧
    ∀ segs : List Segment, newHelloAssembler.outputsChecked segs = some (newHelloAssembler.outputs segs) := by
  refine ⟨?_, fun seq pre s => feed_gives_up, fun segs => outputsChecked_eq _ segs⟩
  rintro seq stream pre s post h rfl h0 hshort hcover hn hlen
  exact outputs_complete h h0 hshort hcover hn hlen

/-- A record of seven bytes cut inside its header, just below sequence number 0, with an empty segment between. -/
def cutHello : List Segment := [(0xFFFFFFFE, [0x16, 3, 1]), (7, [])]

theorem feed_segmentation_cut_header :
    InOrder 0xFFFFFFFE (cutHello ++ [(1, [0, 2, 0xAA, 0xBB, 0xCC])]) ∧
      newHelloAssembler.outputs (cutHello ++ [(1, [0, 2, 0xAA, 0xBB, 0xCC])]) =
        [(none, false), (none, false), (some [0x16, 3, 1, 0, 2, 0xAA, 0xBB], true)] ∧
      ((newHelloAssembler.feedAll cutHello).feed 2 [0]).2 = (none, true) :=
  ⟨by decide,
    feed_segmentation.1 0xFFFFFFFE [0x16, 3, 1, 0, 2, 0xAA, 0xBB, 0xCC] cutHello (1, [0, 2, 0xAA, 0xBB, 0xCC]) []
      (by decide) (by decide) (by decide) (by decide) (by decide) (by decide) (by decide),
    feed_segmentation.2.1 0xFFFFFFFE cutHello (2, [0]) (by decide) (by decide) (.inl (by decide))⟩

end HelloAssembler
end Trafficmon
