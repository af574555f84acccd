import Mathlib.Data.List.MinMax
import Av1Frames.Proofs.FrameState.Derivation
import Av1Frames.Proofs.FrameState.HintRange
import Av1Frames.Proofs.Reference

namespace Av1Frames

open Checked

/-- The references of a frame in the order in which its header gives their slots. -/
def RefName.reference : Fin 7 → RefName :=
  ![.last, .last2, .last3, .golden, .bwdRef, .altRef2, .altRef]

theorem RefName.ofNumber?_reference (i : Fin 7) :
    ofNumber? (1 + i.val : Nat) = some (reference i) := by
  revert i
  decide

theorem RefName.reference_injective : Function.Injective reference := by
  decide

namespace SkipMode

section Nearest

variable (d : Fin 7 → Int) (p : Fin 7 → Prop) [DecidablePred p]

/-- Of the references that satisfy `p` the one that is displayed last, if reference `i` is displayed
    at `d i`. Of several it is the first in the header. -/
def lastShown : Option (Fin 7) := Fin.find? fun i => p i ∧ ∀ j, p j → d j ≤ d i

/-- Of the references that satisfy `p` the one that is displayed first. Of several it is the first
    in the header. -/
def firstShown : Option (Fin 7) := Fin.find? fun i => p i ∧ ∀ j, p j → d i ≤ d j

/-- The two references that are nearest to the frame, in the order of the header, if reference `i`
    is displayed `d i` after the frame: the last one before the frame, and the first one after it
    or, without one, the last one before the other reference. -/
def nearest : Option (Fin 7 × Fin 7) := do
  let first ← lastShown d (d · < 0)
  let second ← firstShown d (0 < d ·) <|> lastShown d (d · < d first)
  return (min first second, max first second)

variable {d p}

/-- In a list in ascending order what stands first is the least. -/
theorem le_of_idxOf_le {α : Type} [LinearOrder α] {l : List α} (h : l.Pairwise (· < ·)) {a b : α}
    (ha : a ∈ l) (hb : b ∈ l) (hle : l.idxOf a ≤ l.idxOf b) : a ≤ b := by
  rcases hle.eq_or_lt with heq | hlt
  · exact ((List.idxOf_inj ha).mp heq).le
  · have hless := List.pairwise_iff_getElem.mp h _ _ (List.idxOf_lt_length_of_mem ha)
      (List.idxOf_lt_length_of_mem hb) hlt
    rw [List.getElem_idxOf, List.getElem_idxOf] at hless
    exact hless.le

variable (d p) in
theorem argmax_filter_finRange :
    ((List.finRange 7).filter p).argmax d = lastShown d p := by
  symm
  cases hmax : ((List.finRange 7).filter p).argmax d with
  | none =>
    have hnone := List.filter_eq_nil_iff.mp (List.argmax_eq_none.mp hmax)
    rw [lastShown, Fin.find?_eq_none_iff]
    exact fun i => decide_eq_false fun hi => hnone i (List.mem_finRange i) (decide_eq_true hi.1)
  | some m =>
    obtain ⟨hmem, hle, hfirst⟩ := List.argmax_eq_some_iff.mp hmax
    have hmem_iff (i : Fin 7) : i ∈ (List.finRange 7).filter p ↔ p i := by simp
    rw [lastShown, Fin.find?_eq_some_iff, decide_eq_true_eq]
    refine ⟨⟨(hmem_iff m).mp hmem, fun i hi => hle i ((hmem_iff i).mpr hi)⟩, fun j hj => ?_⟩
    rw [decide_eq_false_iff_not]
    rintro ⟨hpj, hgreatest⟩
    have hmemj := (hmem_iff j).mpr hpj
    have hidx := hfirst j hmemj (hgreatest m ((hmem_iff m).mp hmem))
    exact hj.not_ge (le_of_idxOf_le ((List.pairwise_lt_finRange 7).filter _) hmem hmemj hidx)

theorem of_lastShown {i : Fin 7} (h : lastShown d p = some i) : p i :=
  (of_decide_eq_true (Fin.eq_true_of_find?_eq_some h)).1

theorem firstShown_eq_lastShown_neg : firstShown d p = lastShown (fun i => -d i) p := by
  simp only [firstShown, lastShown, Int.neg_le_neg_iff]

theorem of_firstShown {i : Fin 7} (h : firstShown d p = some i) : p i := by
  rw [firstShown_eq_lastShown_neg] at h
  exact of_lastShown h

theorem lastShown_eq_none_iff : lastShown d p = none ↔ ∀ i, ¬ p i := by
  rw [← argmax_filter_finRange]
  simp

theorem firstShown_eq_none_iff : firstShown d p = none ↔ ∀ i, ¬ p i := by
  rw [firstShown_eq_lastShown_neg, lastShown_eq_none_iff]

/-- The two references are different ones. -/
theorem lt_of_nearest {i j : Fin 7} (h : nearest d = some (i, j)) : i < j := by
  obtain ⟨first, hfirst, h⟩ := Option.bind_eq_some_iff.mp h
  obtain ⟨second, hsecond, h⟩ := Option.bind_eq_some_iff.mp h
  obtain ⟨rfl, rfl⟩ := Prod.mk.inj (Option.some.inj h)
  have hbefore := of_lastShown hfirst
  rw [min_lt_max]
  rintro rfl
  cases hlater : firstShown d (0 < d ·) with
  | some later =>
    have hafter := of_firstShown hlater
    rw [hlater] at hsecond
    obtain rfl : later = first := Option.some.inj hsecond
    omega
  | none =>
    rw [hlater] at hsecond
    have hbelow : lastShown d (d · < d first) = some first := hsecond
    have hless := of_lastShown hbelow
    exact lt_irrefl _ hless

example : nearest ![-1, -2, -3, 1, 2, 1, 0] = some (0, 3) := by decide

end Nearest

/-- The search keeps the first of the best candidates among those that are allowed. -/
theorem best_eq_foldl {α : Type} {candidate : α → Candidate} {p : α → Prop} [DecidablePred p]
    {r : α → α → Prop} [DecidableRel r] {allows : Nat → Except Fault Bool}
    {isBetter : Nat → Nat → Except Fault Bool}
    (hallows : ∀ a, allows (candidate a).2 = .ok (decide (p a)))
    (hisBetter : ∀ a b, p a → p b → isBetter (candidate a).2 (candidate b).2 = .ok (decide (r a b)))
    (l : List α) {found : Option α} (hfound : ∀ a, found = some a → p a) :
    best allows isBetter (l.map candidate) (found.map candidate) =
      .ok (((l.filter p).foldl (List.argAux r) found).map candidate) := by
  induction l generalizing found with
  | nil => rfl
  | cons a l ih =>
    rw [List.map_cons]
    unfold best
    rw [hallows, ok_bind]
    by_cases ha : p a
    · have htaken (b : α) (hb : some a = some b) : p b := Option.some.inj hb ▸ ha
      rw [List.filter_cons_of_pos (by simpa using ha), List.foldl_cons, if_pos (by simpa using ha)]
      cases found with
      | none => exact ih htaken
      | some b =>
        rw [Option.map_some]
        dsimp only
        rw [hisBetter a b ha (hfound b rfl), ok_bind]
        by_cases hbetter : r a b
        · have hnext : List.argAux r (some b) a = some a := if_pos hbetter
          rw [if_pos (by simpa using hbetter), hnext]
          exact ih htaken
        · have hnext : List.argAux r (some b) a = some b := if_neg hbetter
          rw [if_neg (by simpa using hbetter), hnext]
          exact ih hfound
    · rw [List.filter_cons_of_neg (by simpa using ha), if_neg (by simpa using ha)]
      exact ih hfound

variable {distance : Nat → Nat → Except Fault Int} {hint : Nat} {hints : Fin 7 → Nat}
  {d : Fin 7 → Int}

/-- One of seven references with the given order hints. -/
def candidate (hints : Fin 7 → Nat) (i : Fin 7) : Candidate := (i, hints i)

theorem best_eq_lastShown {p : Fin 7 → Prop} [DecidablePred p] {allows : Nat → Except Fault Bool}
    {isBetter : Nat → Nat → Except Fault Bool}
    (hallows : ∀ i, allows (hints i) = .ok (decide (p i)))
    (hisBetter : ∀ i j, p i → p j → isBetter (hints i) (hints j) = .ok (decide (d j < d i))) :
    best allows isBetter ((List.finRange 7).map (candidate hints)) none =
      .ok ((lastShown d p).map (candidate hints)) := by
  have hnone (i : Fin 7) (h : none = some i) : p i := by cases h
  rw [← argmax_filter_finRange]
  exact best_eq_foldl hallows hisBetter _ hnone

/-- Reference `i`, with order hint `hints i`, is displayed `d i` after the frame with order hint
    `hint`. References on one side of the frame are near enough to be compared with each other. -/
structure Placed (distance : Nat → Nat → Except Fault Int) (hint : Nat) (hints : Fin 7 → Nat)
    (d : Fin 7 → Int) : Prop where
  frame : ∀ i, distance (hints i) hint = .ok (d i)
  before : ∀ i j, d i ≤ 0 → d j ≤ 0 → distance (hints i) (hints j) = .ok (d i - d j)
  after : ∀ i j, 0 ≤ d i → 0 ≤ d j → distance (hints i) (hints j) = .ok (d i - d j)

namespace Placed

/-- Looking back from the frame, or from a reference before it. -/
theorem forward_eq_ok (h : Placed distance hint hints d) {origin : Nat} {e : Int} (he : e ≤ 0)
    (horigin : ∀ i, distance (hints i) origin = .ok (d i - e)) :
    forward distance origin ((List.finRange 7).map (candidate hints)) =
      .ok ((lastShown d (d · < e)).map (candidate hints)) := by
  refine best_eq_lastShown (fun i => ?_) fun i j hi hj => ?_
  · rw [before_of_distance (horigin i)]
    simp only [sub_neg]
  · rw [after_of_distance (h.before i j (by omega) (by omega))]
    simp only [sub_pos]

theorem backward_eq_ok (h : Placed distance hint hints d) :
    backward distance hint ((List.finRange 7).map (candidate hints)) =
      .ok ((firstShown d (0 < d ·)).map (candidate hints)) := by
  rw [firstShown_eq_lastShown_neg]
  refine best_eq_lastShown (fun i => after_of_distance (h.frame i)) fun i j hi hj => ?_
  rw [before_of_distance (h.after i j hi.le hj.le)]
  simp only [sub_neg, neg_lt_neg_iff]

/-- The references of skip mode are the nearest ones. -/
theorem references_eq_ok (h : Placed distance hint hints d) :
    references distance hint ((List.finRange 7).map (candidate hints)) =
      .ok ((nearest d).map fun r => (RefName.reference r.1, RefName.reference r.2)) := by
  have hback := h.forward_eq_ok le_rfl fun i => (Int.sub_zero (d i)).symm ▸ h.frame i
  unfold references
  rw [hback, ok_bind, h.backward_eq_ok, ok_bind]
  cases hfirst : lastShown d (d · < 0) with
  | none =>
    have hnearest : nearest d = none := by simp [nearest, hfirst]
    rw [hnearest]
    rfl
  | some first =>
    have hbefore := of_lastShown hfirst
    cases hlater : firstShown d (0 < d ·) with
    | some later =>
      have hnearest : nearest d = some (min first later, max first later) := by
        simp [nearest, hfirst, hlater]
      simp only [hnearest, Option.map_some, candidate, pure_bind, ← Fin.coe_min, ← Fin.coe_max,
        RefName.ofNumber?_reference]
      rfl
    | none =>
      -- No reference is after the frame, so all of them can be compared with the first one.
      have hnotAfter := firstShown_eq_none_iff.mp hlater
      have hagain := h.forward_eq_ok hbefore.le fun i =>
        h.before i first (not_lt.mp (hnotAfter i)) hbefore.le
      simp only [Option.map_some, Option.map_none, candidate] at hagain ⊢
      rw [hagain, ok_bind]
      cases hsecond : lastShown d (d · < d first) with
      | none =>
        have hnearest : nearest d = none := by simp [nearest, hfirst, hlater, hsecond]
        rw [hnearest]
        rfl
      | some second =>
        have hnearest : nearest d = some (min first second, max first second) := by
          simp [nearest, hfirst, hlater, hsecond]
        simp only [hnearest, Option.map_some, candidate, ← Fin.coe_min, ← Fin.coe_max,
          RefName.ofNumber?_reference]
        rfl

end Placed

end SkipMode

theorem mapM_eq_none {α β : Type} {f : α → Option β} {l : List α} {a : α} (ha : a ∈ l)
    (h : f a = none) : l.mapM f = none := by
  induction l with
  | nil => simp at ha
  | cons b l ih =>
    rw [List.mapM_cons]
    rcases List.mem_cons.mp ha with rfl | hmem
    · rw [h]
      rfl
    · rw [ih hmem]
      cases f b <;> rfl

namespace FrameState

variable {s : Sequence} {header : Header} {slots : StateSlots}

theorem referenceHint?_succ (i : Fin 7) : referenceHint? header slots (i.val + 1) =
    (slots.content? (header.refFrameIdx.get i)).map (·.orderHint) := by
  have hslot : header.refFrameIdx[i.val]? = some (header.refFrameIdx.get i) := by
    simp [get_eq_getElem]
  rw [referenceHint?_eq_bind, hslot, Option.bind_some]

theorem candidates?_eq_some {states : Fin 7 → FrameState}
    (h : ∀ i, slots.content? (header.refFrameIdx.get i) = some (states i)) :
    candidates? header slots =
      some ((List.finRange 7).map (SkipMode.candidate fun i => (states i).orderHint)) := by
  have hentry : (fun i : Fin 7 => (referenceHint? header slots (i.val + 1)).map fun hint =>
      (i.val, hint)) = fun i => pure (SkipMode.candidate (fun i => (states i).orderHint) i) := by
    funext i
    rw [referenceHint?_succ, h i]
    rfl
  rw [candidates?, ← List.map_coe_finRange_eq_range, List.mapM_map]
  exact (congrArg (List.mapM · (List.finRange 7)) hentry).trans List.mapM_pure

theorem candidates?_eq_none {i : Fin 7}
    (h : slots.content? (header.refFrameIdx.get i) = none) : candidates? header slots = none := by
  refine mapM_eq_none (List.mem_range.mpr i.isLt) ?_
  rw [referenceHint?_succ, h]
  rfl

/-- How far reference `i` is displayed after the frame, if its slot is taken. Of the distances that
    order hints do not tell apart it is the one next to zero. -/
def referenceDistance? (s : Sequence) (header : Header) (slots : StateSlots) (i : Fin 7) :
    Option Int :=
  (slots.content? (header.refFrameIdx.get i)).map fun state =>
    ((state.orderHint : Int) - header.orderHint).bmod (2 ^ s.orderHintBits)

theorem hintDistance_eq_bmod (henabled : s.enableOrderHint = true) (hpos : 1 ≤ s.orderHintBits)
    (hbits : s.orderHintBits ≤ 31) {a b : Nat} (ha : a < 2 ^ s.orderHintBits)
    (hb : b < 2 ^ s.orderHintBits) :
    hintDistance s a b = .ok (((a : Int) - b).bmod (2 ^ s.orderHintBits)) := by
  have hpow : 2 ^ s.orderHintBits ≤ 2 ^ 31 := Nat.pow_le_pow_right (by decide) hbits
  unfold hintDistance
  rw [wrapSigned_of_range (by omega) (by omega), wrapSigned_of_range (by omega) (by omega),
    henabled]
  exact relativeDistance_eq_bmod hpos hbits (by omega) (by omega)

/-- Where no reference is half of the modulus away, references on one side of the frame are as far
    apart as their distances to the frame say. -/
theorem placed_of_distances (henabled : s.enableOrderHint = true) (hpos : 1 ≤ s.orderHintBits)
    (hbits : s.orderHintBits ≤ 31) {hint : Nat} (hhint : hint < 2 ^ s.orderHintBits)
    {hints : Fin 7 → Nat} (hhints : ∀ i, hints i < 2 ^ s.orderHintBits)
    (hhalf : ∀ i, ((hints i : Int) - hint).bmod (2 ^ s.orderHintBits) ≠
      -2 ^ (s.orderHintBits - 1)) :
    SkipMode.Placed (hintDistance s) hint hints fun i =>
      ((hints i : Int) - hint).bmod (2 ^ s.orderHintBits) := by
  have hmodulus := two_pow_eq_two_mul hpos
  have hrange (i : Fin 7) : -2 ^ (s.orderHintBits - 1) <
      ((hints i : Int) - hint).bmod (2 ^ s.orderHintBits) ∧
      ((hints i : Int) - hint).bmod (2 ^ s.orderHintBits) < 2 ^ (s.orderHintBits - 1) := by
    have hlow := Int.le_bmod (x := (hints i : Int) - hint) (Nat.two_pow_pos s.orderHintBits)
    have hhigh := Int.bmod_lt (x := (hints i : Int) - hint) (Nat.two_pow_pos s.orderHintBits)
    have hne := hhalf i
    omega
  have hdistance (i j : Fin 7) : hintDistance s (hints i) (hints j) =
      .ok (((hints i : Int) - hint - (hints j - hint)).bmod (2 ^ s.orderHintBits)) := by
    rw [hintDistance_eq_bmod henabled hpos hbits (hhints i) (hhints j), sub_sub_sub_cancel_right]
  refine ⟨fun i => hintDistance_eq_bmod henabled hpos hbits (hhints i) hhint,
    fun i j hi hj => ?_, fun i j hi hj => ?_⟩
  · have hlow := hrange i
    have hlow' := hrange j
    rw [hdistance, sub_bmod_of_near (by omega) (by omega)]
  · have hhigh := hrange i
    have hhigh' := hrange j
    rw [hdistance, sub_bmod_of_near (by omega) (by omega)]

theorem resolveSkipMode_of_empty {i : Fin 7}
    (hempty : slots.content? (header.refFrameIdx.get i) = none) :
    resolveSkipMode s header slots = .ok none := by
  unfold resolveSkipMode
  split
  · rfl
  · rw [candidates?_eq_none hempty]
    rfl

theorem resolveSkipMode_of_placed {states : Fin 7 → FrameState} {d : Fin 7 → Int}
    (henabled : s.enableOrderHint = true) (hselect : header.referenceSelect = true)
    (hstates : ∀ i, slots.content? (header.refFrameIdx.get i) = some (states i))
    (hplaced : SkipMode.Placed (hintDistance s) header.orderHint
      (fun i => (states i).orderHint) d) :
    resolveSkipMode s header slots = .ok ((SkipMode.nearest d).map fun r =>
      (RefName.reference r.1, RefName.reference r.2)) := by
  unfold resolveSkipMode
  rw [if_neg (by simp [henabled, hselect]), candidates?_eq_some hstates]
  exact hplaced.references_eq_ok

/-- Skip mode takes the references that are displayed nearest to the frame, two different ones,
    unless a slot is empty. No reference may be half of the modulus away. -/
theorem skipMode_nearest (henabled : s.enableOrderHint = true)
    (hpos : 1 ≤ s.orderHintBits) (hbits : s.orderHintBits ≤ 31) (hinter : header.isIntra = false)
    (hselect : header.referenceSelect = true) (hhint : header.orderHint < 2 ^ s.orderHintBits)
    (hslots : ∀ i state, slots.content? i = some state → state.orderHint < 2 ^ s.orderHintBits)
    (hhalf : ∀ i, referenceDistance? s header slots i ≠ some (-2 ^ (s.orderHintBits - 1))) :
    ∃ frames, resolveSkipMode s header slots = .ok frames ∧
      (∀ state, derive s header slots = .ok state → state.skipModeFrames = frames) ∧
      ((∃ i, slots.content? (header.refFrameIdx.get i) = none) → frames = none) ∧
      (∀ d : Fin 7 → Int, (∀ i, referenceDistance? s header slots i = some (d i)) →
        frames = (SkipMode.nearest d).map fun r => (RefName.reference r.1, RefName.reference r.2)) ∧
      ∀ a b, frames = some (a, b) → a ≠ b := by
  have hderive {frames : Option (RefName × RefName)}
      (hframes : resolveSkipMode s header slots = .ok frames) (state : FrameState)
      (hstate : derive s header slots = .ok state) : state.skipModeFrames = frames := by
    obtain ⟨_, hresolved⟩ := exists_resolvedFrom_of_derive hstate
    exact Except.ok.inj ((hresolved.skipMode hinter).symm.trans hframes)
  by_cases hempty : ∃ i, slots.content? (header.refFrameIdx.get i) = none
  · obtain ⟨i, hi⟩ := hempty
    have hframes : resolveSkipMode s header slots = .ok none := resolveSkipMode_of_empty hi
    refine ⟨none, hframes, hderive hframes, fun _ => rfl, fun d hd => ?_, by simp⟩
    have hnone : referenceDistance? s header slots i = none := by rw [referenceDistance?, hi]; rfl
    exact absurd (hnone.symm.trans (hd i)) (by simp)
  · simp only [not_exists, ← ne_eq, Option.ne_none_iff_exists'] at hempty
    choose states hstates using hempty
    have hdistance (i : Fin 7) : referenceDistance? s header slots i =
        some ((((states i).orderHint : Int) - header.orderHint).bmod (2 ^ s.orderHintBits)) := by
      rw [referenceDistance?, hstates]
      rfl
    have hframes := resolveSkipMode_of_placed henabled hselect hstates
      (placed_of_distances henabled hpos hbits hhint (fun i => hslots _ _ (hstates i))
        fun i => fun h => hhalf i ((hdistance i).trans (congrArg some h)))
    refine ⟨_, hframes, hderive hframes, fun ⟨i, hi⟩ => ?_, fun d hd => ?_, fun a b hpair => ?_⟩
    · exact absurd (hi.symm.trans (hstates i)) (by simp)
    · have hd : d = _ := funext fun i => Option.some.inj ((hd i).symm.trans (hdistance i))
      rw [hd]
    · obtain ⟨⟨i, j⟩, hnearest, hnames⟩ := Option.map_eq_some_iff.mp hpair
      obtain ⟨rfl, rfl⟩ := Prod.mk.inj hnames
      exact RefName.reference_injective.ne (SkipMode.lt_of_nearest hnearest).ne

/-- A sequence with order hints of four bits, a frame with order hint 2, and frames in the slots of
    which none is after it. Two references are one before it, and three are further back, on the
    other side of zero. -/
def earlierSequence : Sequence := { enableOrderHint := true, orderHintBits := 4 }

def earlierHeader : Header :=
  { frameType := .interFrame, referenceSelect := true, orderHint := 2
    refFrameIdx := #v[0, 1, 2, 3, 4, 5, 6] }

def earlierHints : Vector Nat 8 := #v[15, 1, 14, 1, 2, 2, 15, 9]

theorem skipMode_nearest_earlierHints :
    (∀ hint ∈ earlierHints, hint < 2 ^ earlierSequence.orderHintBits) ∧
    (∀ i, referenceDistance? earlierSequence earlierHeader
      (earlierHints.map fun hint => some { orderHint := hint }) i =
        some (![-3, -1, -4, -1, 0, 0, -3] i)) ∧
    resolveSkipMode earlierSequence earlierHeader
      (earlierHints.map fun hint => some { orderHint := hint }) = .ok (some (.last, .last2)) := by
  let slots : StateSlots := earlierHints.map fun hint => some { orderHint := hint }
  have hhints : ∀ hint ∈ earlierHints, hint < 2 ^ 4 := by decide
  have hslots (i : Nat) (state : FrameState) (hstate : slots.content? i = some state) :
      state.orderHint < 2 ^ 4 := by
    rw [Slots.content?_of_lt (Slots.lt_of_content? hstate), Vector.getElem_map] at hstate
    rw [← Option.some.inj hstate]
    exact hhints _ (Vector.getElem_mem _)
  have hdistance (i : Fin 7) : referenceDistance? earlierSequence earlierHeader slots i =
      some (![-3, -1, -4, -1, 0, 0, -3] i) := by
    revert i
    decide +kernel
  have hhalf (i : Fin 7) : referenceDistance? earlierSequence earlierHeader slots i ≠
      some (-2 ^ 3) := by
    rw [hdistance]
    revert i
    decide
  obtain ⟨frames, hframes, -, -, hnearest, -⟩ := skipMode_nearest rfl (by decide) (by decide) rfl
    rfl (by decide) hslots hhalf
  refine ⟨hhints, hdistance, hframes.trans (congrArg Except.ok ?_)⟩
  rw [hnearest _ hdistance]
  decide

end FrameState

end Av1Frames
