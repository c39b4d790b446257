import Mathlib.Data.UInt

/-!
# Joining a ClientHello (`dpi/reassemble.go`)

A `HelloAssembler` takes TCP segments in sequence order and hands out the first TLS record once it
is complete. It gives up on a gap, on something that is no handshake, and past its bounds.
-/

namespace Trafficmon

def maxHelloBufferBytes : Nat := 8192
def maxHelloSegments : Nat := 8
def tlsHandshakeRecordType : UInt8 := 0x16
def tlsRecordHeaderLen : Nat := 5

structure HelloAssembler where
  buf : List UInt8 := []
  nextSeq : UInt32 := 0
  haveSeq : Bool := false
  segs : Nat := 0
deriving DecidableEq, Repr

def newHelloAssembler : HelloAssembler := {}

namespace HelloAssembler

/-- The first segment sets the sequence number to expect. -/
def expect (h : HelloAssembler) (seq : UInt32) : HelloAssembler :=
  if ¬ h.haveSeq then { h with nextSeq := seq, haveSeq := true } else h

def append (h : HelloAssembler) (payload : List UInt8) : HelloAssembler :=
  { h with
    buf := h.buf ++ payload
    nextSeq := h.nextSeq + UInt32.ofNat payload.length
    segs := h.segs + 1 }

/-- The length of the record, as its header has it. -/
def total (h : HelloAssembler) : Nat := tlsRecordHeaderLen + ((h.buf.getD 3 0).toNat <<< 8 ||| (h.buf.getD 4 0).toNat)

/-- The record if it is complete, and whether to stop. -/
def outcome (h : HelloAssembler) : Option (List UInt8) × Bool :=
  if h.buf.getD 0 0 ≠ tlsHandshakeRecordType then (none, true)
  else if maxHelloBufferBytes < h.buf.length ∨ maxHelloSegments < h.segs then (none, true)
  else if h.buf.length < tlsRecordHeaderLen then (none, false)
  else if h.buf.length < h.total then (none, false)
  else (some (h.buf.take h.total), true)

def feed (h : HelloAssembler) (seq : UInt32) (payload : List UInt8) : HelloAssembler × Option (List UInt8) × Bool :=
  if payload.length = 0 then (h, none, false)
  else
    let h := h.expect seq
    if seq ≠ h.nextSeq then (h, none, true)
    else
      let h := h.append payload
      (h, h.outcome)

theorem outcome_done {h : HelloAssembler} {ready : List UInt8} (hr : h.outcome.1 = some ready) : h.outcome.2 = true := by
  unfold outcome at hr ⊢
  split_ifs at hr ⊢
  rfl

/-- A record comes out only with the word to stop. -/
theorem feed_done {h : HelloAssembler} {seq : UInt32} {payload ready : List UInt8}
    (hr : (h.feed seq payload).2.1 = some ready) : (h.feed seq payload).2.2 = true := by
  unfold feed at hr ⊢
  split
  · rw [if_pos ‹_›] at hr
    cases hr
  · rw [if_neg ‹_›] at hr
    dsimp only at hr ⊢
    split
    · rfl
    · rw [if_neg ‹_›] at hr
      exact outcome_done hr

end HelloAssembler
end Trafficmon
