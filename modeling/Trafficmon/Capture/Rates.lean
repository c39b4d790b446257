import Trafficmon.Capture.Flow
import Trafficmon.Lib.BucketRing

/-!
# The live rate is a windowed sum (`capture/flow.go`)

The calls `Add` and `Rates` of a `ByteCounter` may come with times in any order. Each call is
accounted to its *effective second*, the latest second of the calls up to it, and the ring of a
direction covers (`BucketRing.Covers`) the five seconds that end at the effective second of the
last call.
-/

namespace Trafficmon
open GoTime BucketRing

inductive CounterCall
  | add (now : Int) (n : UInt64) (inbound : Bool)
  | rates (now : Int)
deriving DecidableEq, Repr

def CounterCall.now : CounterCall → Int
  | .add now _ _ => now
  | .rates now => now

namespace ByteCounter

def call (c : ByteCounter) : CounterCall → ByteCounter
  | .add now n inbound => c.add now n inbound
  | .rates now => (c.rates now).1

/-! ### The history of the calls -/

/-- The latest second of the calls. -/
def effectiveSecond (calls : List CounterCall) : Int :=
  ((calls.map fun c => truncate c.now second).max?).getD 0

/-- The additions in one direction, each with the effective second it was made at. -/
def addsOf (calls : List CounterCall) (inbound : Bool) : List (Int × ℕ) :=
  (List.range calls.length).filterMap fun i =>
    match (calls[i]? : Option CounterCall) with
    | some (.add _ n dir) =>
      if dir = inbound then some (effectiveSecond (calls.take (i + 1)), n.toNat) else none
    | _ => none

/-- The bytes added in the five seconds that end at `sec`. -/
def windowSum (calls : List CounterCall) (inbound : Bool) (sec : Int) : ℕ :=
  sumWhere (fun s => sec - rateWindowSeconds * second < s ∧ s ≤ sec) (addsOf calls inbound)

def totalSum (calls : List CounterCall) (inbound : Bool) : ℕ := ((addsOf calls inbound).map Prod.snd).sum

def addTimes (calls : List CounterCall) : List Int :=
  calls.filterMap fun
    | .add now _ _ => some now
    | .rates _ => none

theorem addsOf_concat (calls : List CounterCall) (c : CounterCall) (inbound : Bool) :
    addsOf (calls ++ [c]) inbound = addsOf calls inbound ++
      match c with
      | .add _ n dir => if dir = inbound then [(effectiveSecond (calls ++ [c]), n.toNat)] else []
      | .rates _ => [] := by
  unfold addsOf
  rw [List.length_append, List.length_singleton, List.range_succ, List.filterMap_append]
  congr 1
  · refine List.filterMap_congr fun i hi => ?_
    have hi : i < calls.length := List.mem_range.1 hi
    rw [List.getElem?_append_left hi, List.take_append_of_le_length (by omega)]
  · cases c with
    | add now n dir =>
      by_cases hd : dir = inbound
      · simp [hd, List.take_of_length_le]
      · simp [hd]
    | rates now => simp

/-- With no time before the zero time, one more time is taken into the maximum. -/
theorem latest_concat (ts : List Int) {t : Int} (ht : 0 ≤ t) : (ts ++ [t]).max?.getD 0 = max (ts.max?.getD 0) t := by
  cases ts with
  | nil => simpa using ht
  | cons u us =>
    rw [List.cons_append, List.max?_cons', List.max?_cons', List.foldl_append]
    rfl

theorem effectiveSecond_concat (calls : List CounterCall) {c : CounterCall} (hc : 0 ≤ c.now) :
    effectiveSecond (calls ++ [c]) = max (effectiveSecond calls) (truncate c.now second) := by
  have hsec : 0 ≤ truncate c.now second := by
    unfold truncate second
    omega
  rw [effectiveSecond, List.map_append, List.map_singleton, latest_concat _ hsec]
  rfl

theorem second_dvd_effectiveSecond (calls : List CounterCall) : second ∣ effectiveSecond calls := by
  unfold effectiveSecond
  cases hmax : (calls.map fun c => truncate c.now second).max? with
  | none => exact dvd_zero _
  | some m =>
    obtain ⟨c, -, rfl⟩ := List.mem_map.1 (List.max?_mem hmax)
    exact Int.dvd_self_sub_emod

theorem addsOf_bounds (calls : List CounterCall) (hnow : ∀ c ∈ calls, 0 ≤ c.now) (inbound : Bool) :
    ∀ a ∈ addsOf calls inbound, second ∣ a.1 ∧ a.1 ≤ effectiveSecond calls := by
  induction calls using List.reverseRecOn with
  | nil => simp [addsOf]
  | append_singleton calls c ih =>
    intro a ha
    have hmono : effectiveSecond calls ≤ effectiveSecond (calls ++ [c]) := by
      rw [effectiveSecond_concat calls (hnow c (by simp))]
      exact le_max_left _ _
    rw [addsOf_concat] at ha
    rcases List.mem_append.1 ha with ha | ha
    · obtain ⟨hdvd, hle⟩ := ih (fun c' hc' => hnow c' (by simp [hc'])) a ha
      exact ⟨hdvd, hle.trans hmono⟩
    · cases c with
      | rates now => simp at ha
      | add now n dir =>
        dsimp only at ha
        split at ha
        · rw [List.mem_singleton.1 ha]
          exact ⟨second_dvd_effectiveSecond _, le_refl _⟩
        · simp at ha

/-! ### The ring -/

def ring (c : ByteCounter) (inbound : Bool) : Vector UInt64 rateBuckets := if inbound then c.inRing else c.outRing

/-- The additions in one direction by tick: the number of the second. -/
def ticksOf (calls : List CounterCall) (inbound : Bool) : List (Int × ℕ) :=
  (addsOf calls inbound).map fun a => (a.1 / second, a.2)

/-- Both rings cover the seconds up to `bucketStart`, the effective second of the last call. -/
structure Tracks (calls : List CounterCall) (c : ByteCounter) : Prop where
  start : c.bucketStart = effectiveSecond calls
  covers : ∀ inbound, Covers (c.ring inbound) c.head (c.bucketStart / second) (ticksOf calls inbound)

theorem roll_covers {adds : Bool → List (Int × ℕ)} {top : Int} (k : Nat) {c : ByteCounter}
    (h : ∀ inbound, Covers (c.ring inbound) c.head top (adds inbound)) (inbound : Bool) :
    Covers ((roll k c).ring inbound) (roll k c).head (top + k) (adds inbound) := by
  induction k generalizing c top with
  | zero =>
    rw [Nat.cast_zero, Int.add_zero]
    exact h inbound
  | succ k ih =>
    rw [roll, show top + (k + 1 : Nat) = top + 1 + k by omega]
    refine ih fun dir => ?_
    have hhead : (⟨(c.head + 1) % rateBuckets, Nat.mod_lt _ (by decide)⟩ : Fin rateBuckets) = c.head + 1 := by
      apply Fin.ext
      rw [Fin.val_add]
      rfl
    have hturn := (h dir).turn hhead
    cases dir <;> exact hturn

/-- How many buckets `advance` has to step over. -/
theorem steps_spec (a b : Int) :
    let steps := (sub (second * a) (second * b)).tdiv second
    (steps ≤ 0 ↔ a ≤ b) ∧ ((rateBuckets : Int) ≤ steps ↔ b + rateBuckets ≤ a) ∧
      (b < a → a < b + rateBuckets → steps = a - b) := by
  intro steps
  have hbuckets : (rateBuckets : Int) = 5 := rfl
  have hsteps : steps = (max minDuration (min maxDuration (second * (a - b)))).tdiv second := by
    rw [Int.mul_sub]
    rfl
  rcases le_or_gt a b with hab | hab
  · have hneg : steps ≤ 0 := by
      rw [hsteps, Int.tdiv_eq_ediv, show second.sign = 1 from rfl]
      unfold minDuration maxDuration second
      split <;> omega
    omega
  · have hpos : steps = min maxDuration (second * (a - b)) / second := by
      rw [hsteps, Int.tdiv_eq_ediv_of_nonneg] <;> unfold minDuration maxDuration second <;> omega
    unfold maxDuration second at hpos
    omega

theorem effectiveSecond_of_ne_nil {calls : List CounterCall} (hnow : ∀ c ∈ calls, second ≤ c.now) (h : calls ≠ []) :
    second ≤ effectiveSecond calls := by
  rcases List.eq_nil_or_concat calls with rfl | ⟨calls, c, rfl⟩
  · exact absurd rfl h
  · have hc : second ≤ c.now := hnow c (by simp)
    have h0 : 0 ≤ c.now := by unfold second at hc; omega
    rw [List.concat_eq_append, effectiveSecond_concat calls h0]
    refine le_trans ?_ (le_max_right _ _)
    unfold truncate second at *
    omega

theorem Tracks.advance {calls : List CounterCall} {c : ByteCounter} (h : Tracks calls c)
    (hnow : ∀ c ∈ calls, second ≤ c.now) {now : Int} (hlast : second ≤ now) :
    Tracks (calls ++ [.rates now]) (c.advance now) := by
  have h0 : 0 ≤ now := by unfold second at hlast; omega
  have heff : effectiveSecond (calls ++ [.rates now]) = max (effectiveSecond calls) (truncate now second) :=
    effectiveSecond_concat calls h0
  have hticks : ∀ inbound, ticksOf (calls ++ [.rates now]) inbound = ticksOf calls inbound := by
    intro inbound
    rw [ticksOf, addsOf_concat, List.append_nil]
    rfl
  obtain ⟨b, hb⟩ := second_dvd_effectiveSecond calls
  have hsec : truncate now second = second * (now / second) := by
    unfold truncate
    have := Int.mul_ediv_add_emod now second
    omega
  have hdiv : ∀ t : Int, second * t / second = t := fun t => Int.mul_ediv_cancel_left t (by decide)
  obtain ⟨hle, hge, hmid⟩ := steps_spec (now / second) b
  have hcov := h.covers
  rw [h.start, hb, hdiv] at hcov
  unfold ByteCounter.advance
  dsimp only
  rw [h.start, hb, hsec]
  rw [hb, hsec] at heff
  split
  · -- the first call: `bucketStart` is still the zero time, and nothing was added
    have hnil : calls = [] := by
      by_contra hne
      have hs := effectiveSecond_of_ne_nil hnow hne
      rw [hb, ‹second * b = 0›] at hs
      exact absurd hs (by decide)
    refine ⟨?_, fun inbound => ?_⟩
    · show second * (now / second) = _
      rw [heff]
      unfold second at *
      omega
    · subst hnil
      rw [hticks]
      exact (hcov inbound).retop _
  · split
    · have hold : now / second ≤ b := hle.1 ‹_›
      refine ⟨?_, fun inbound => ?_⟩
      · rw [h.start, hb, heff]
        unfold second at *
        omega
      · rw [h.start, hb, hdiv, hticks]
        exact hcov inbound
    · have hnew : b < now / second := by omega
      have hstart : second * (now / second) = effectiveSecond (calls ++ [.rates now]) := by
        rw [heff]
        unfold second at *
        omega
      split
      · have hfar : b + rateBuckets ≤ now / second := hge.1 ‹_›
        refine ⟨hstart, fun inbound => ?_⟩
        rw [hticks]
        show Covers _ _ (second * (now / second) / second) _
        rw [hdiv]
        have hclear : Covers (Vector.replicate rateBuckets 0) c.head (now / second) (ticksOf calls inbound) := by
          refine .clear fun a ha => ?_
          have := (hcov inbound).le a ha
          omega
        cases inbound <;> exact hclear
      · have hsteps := hmid hnew (by omega)
        refine ⟨hstart, fun inbound => ?_⟩
        rw [hticks]
        show Covers _ _ (second * (now / second) / second) _
        rw [hdiv, hsteps]
        have hroll := roll_covers (now / second - b).toNat hcov inbound
        rw [show b + ((now / second - b).toNat : Int) = now / second by omega] at hroll
        cases inbound <;> exact hroll

theorem add_frame (c : ByteCounter) (now : Int) (n : UInt64) (inbound : Bool) :
    (c.add now n inbound).bucketStart = (c.advance now).bucketStart ∧
      (c.add now n inbound).head = (c.advance now).head := by
  cases inbound <;> simp [add, apply_ite ByteCounter.bucketStart, apply_ite ByteCounter.head]

/-- Once the ring is at the second of the packet, the packet goes into the newest bucket of its direction. -/
theorem add_covers {c : ByteCounter} {now : Int} {n : UInt64} {inbound dir : Bool} {top : Int}
    {adds : List (Int × ℕ)} (h : Covers ((c.advance now).ring dir) (c.advance now).head top adds) :
    Covers ((c.add now n inbound).ring dir) (c.advance now).head top
      (adds ++ if inbound = dir then [(top, n.toNat)] else []) := by
  have hadd := h.add n
  cases inbound with
  | true =>
    cases dir with
    | true => simpa [add, ring, apply_ite ByteCounter.inRing] using hadd
    | false => simpa [add, ring, apply_ite ByteCounter.outRing] using h
  | false =>
    cases dir with
    | true => simpa [add, ring, apply_ite ByteCounter.inRing] using h
    | false => simpa [add, ring, apply_ite ByteCounter.outRing] using hadd

theorem ticksOf_add (calls : List CounterCall) (now : Int) (n : UInt64) (inbound dir : Bool) :
    ticksOf (calls ++ [.add now n inbound]) dir = ticksOf calls dir ++
      if inbound = dir then [(effectiveSecond (calls ++ [.add now n inbound]) / second, n.toNat)] else [] := by
  rw [ticksOf, addsOf_concat, List.map_append]
  dsimp only
  split <;> rfl

theorem Tracks.add {calls : List CounterCall} {c : ByteCounter} (h : Tracks calls c)
    (hnow : ∀ c ∈ calls, second ≤ c.now) {now : Int} (hlast : second ≤ now) (n : UInt64) (inbound : Bool) :
    Tracks (calls ++ [.add now n inbound]) (c.add now n inbound) := by
  obtain ⟨hstart, hcov⟩ := h.advance hnow hlast
  have h0 : 0 ≤ now := by unfold second at hlast; omega
  have heff : effectiveSecond (calls ++ [.rates now]) = effectiveSecond (calls ++ [.add now n inbound]) :=
    (effectiveSecond_concat calls (c := .rates now) h0).trans
      (effectiveSecond_concat calls (c := .add now n inbound) h0).symm
  obtain ⟨hs, hh⟩ := add_frame c now n inbound
  refine ⟨by rw [hs, hstart, heff], fun dir => ?_⟩
  have hdir := hcov dir
  rw [ticksOf, addsOf_concat, List.append_nil] at hdir
  rw [hs, hh, ticksOf_add, ← heff, ← hstart]
  exact add_covers hdir

theorem tracks_run {calls : List CounterCall} (hnow : ∀ c ∈ calls, second ≤ c.now) :
    Tracks calls (calls.foldl call {}) := by
  induction calls using List.reverseRecOn with
  | nil =>
    refine ⟨rfl, fun inbound => ?_⟩
    have hclear : Covers (Vector.replicate rateBuckets 0) 0 0 (ticksOf [] inbound) := .clear nofun
    cases inbound <;> exact hclear
  | append_singleton calls c ih =>
    have hprev : ∀ c ∈ calls, second ≤ c.now := fun c' hc' => hnow c' (by simp [hc'])
    have hlast : second ≤ c.now := hnow c (by simp)
    rw [List.foldl_append, List.foldl_cons, List.foldl_nil]
    cases c with
    | add now n inbound => exact (ih hprev).add hprev hlast n inbound
    | rates now => exact (ih hprev).advance hprev hlast

/-! ### What the calls return -/

theorem windowSum_eq (calls : List CounterCall) (hnow : ∀ c ∈ calls, 0 ≤ c.now) (inbound : Bool) {b : Int} :
    windowSum calls inbound (second * b) = sumWhere (fun t => b - rateBuckets < t ∧ t ≤ b) (ticksOf calls inbound) := by
  unfold windowSum sumWhere ticksOf
  rw [List.filter_map, List.map_map]
  congr 2
  refine List.filter_congr fun a ha => ?_
  obtain ⟨⟨q, hq⟩, -⟩ := addsOf_bounds calls hnow inbound a ha
  simp only [Function.comp, hq, decide_eq_decide]
  rw [Int.mul_ediv_cancel_left q (by decide), show (rateBuckets : Int) = 5 from rfl,
    show (rateWindowSeconds : Int) = 5 from rfl]
  unfold second
  omega

theorem totals_run (calls : List CounterCall) :
    ((calls.foldl call {}).bytesIn.toNat = totalSum calls true % 2 ^ 64) ∧
      (calls.foldl call {}).bytesOut.toNat = totalSum calls false % 2 ^ 64 := by
  induction calls using List.reverseRecOn with
  | nil => exact ⟨rfl, rfl⟩
  | append_singleton calls c ih =>
    obtain ⟨hin, hout⟩ := ih
    unfold totalSum at *
    rw [List.foldl_append, List.foldl_cons, List.foldl_nil, addsOf_concat, addsOf_concat]
    cases c with
    | add now n inbound =>
      cases inbound <;> simp [call, hin, hout]
    | rates now => simp [call, rates, hin, hout]

theorem lastSeen_run {calls : List CounterCall} (hnow : ∀ c ∈ calls, 0 ≤ c.now) :
    (calls.foldl call {}).lastSeen = (addTimes calls).max?.getD 0 := by
  induction calls using List.reverseRecOn with
  | nil => rfl
  | append_singleton calls c ih =>
    have hlast : 0 ≤ c.now := hnow c (by simp)
    have hprev := ih fun c' hc' => hnow c' (by simp [hc'])
    rw [List.foldl_append, List.foldl_cons, List.foldl_nil, addTimes, List.filterMap_append]
    cases c with
    | add now n inbound =>
      show ((calls.foldl call {}).add now n inbound).lastSeen = (addTimes calls ++ [now]).max?.getD 0
      rw [add_lastSeen, hprev]
      exact (latest_concat _ hlast).symm
    | rates now =>
      show ((calls.foldl call {}).advance now).lastSeen = (addTimes calls ++ []).max?.getD 0
      rw [advance_lastSeen, hprev, List.append_nil]

/-- A late packet of second 2 counts for second 7, the latest so far; second 3 is out of the window at second 8. -/
def lateCalls : List CounterCall :=
  [.add (3 * second) 10 true, .add (7 * second + 5) 20 true, .add (2 * second) 7 true, .rates (8 * second)]

end ByteCounter
end Trafficmon
