import Av1Frames.Proofs.FrameState.SkipMode

namespace Av1Frames

open Checked

/-- `d` is the distance between two positions: the only number in the half open range around zero
    that is their difference modulo `2 ^ bits`. Positions that are moved by multiples of the
    modulus, or both by the same amount, keep it as long as their difference fits. The other way
    round, where all differences but the least fit as well, it is the negated one, except that half
    of the modulus is as far away in both directions. -/
structure IsDistance (bits : Nat) (a b d : Int) : Prop where
  eq_ok : relativeDistance true bits a b = .ok d
  wraps_iff : ∀ e, Wraps bits (a - b) e ↔ e = d
  moved : ∀ j k : Int, DifferenceFits (a + j * 2 ^ bits) (b + k * 2 ^ bits) →
    relativeDistance true bits (a + j * 2 ^ bits) (b + k * 2 ^ bits) = .ok d
  shifted : ∀ c, relativeDistance true bits (a + c) (b + c) = .ok d
  back : DifferenceFits b a →
    relativeDistance true bits b a = .ok (if d = -2 ^ (bits - 1) then d else -d)

theorem isDistance_bmod {bits : Nat} (hpos : 1 ≤ bits) (hbits : bits ≤ 31) {a b : Int}
    (hfits : DifferenceFits a b) : IsDistance bits a b ((a - b).bmod (2 ^ bits)) := by
  have hwraps : Wraps bits (a - b) ((a - b).bmod (2 ^ bits)) := (wraps_iff_bmod hpos).mpr rfl
  refine ⟨(relativeDistance_eq_ok_iff hpos hbits).mpr ⟨hfits, hwraps⟩, fun e => ?_,
    fun j k hmoved => ?_, fun c => ?_, fun hback => ?_⟩
  · rw [wraps_iff_bmod hpos, eq_comm]
  · have hsame : a - b ≡ a + j * 2 ^ bits - (b + k * 2 ^ bits) [ZMOD 2 ^ bits] :=
      Int.modEq_iff_dvd.mpr ⟨j - k, by ring⟩
    exact (relativeDistance_eq_ok_iff hpos hbits).mpr ⟨hmoved, hwraps.of_modEq hsame⟩
  · have hsame : a + c - (b + c) = a - b := by ring
    rw [relativeDistance_eq_ok_iff hpos hbits, DifferenceFits, hsame]
    exact ⟨hfits, hwraps⟩
  · have hneg := hwraps.neg hpos
    rw [neg_sub] at hneg
    exact (relativeDistance_eq_ok_iff hpos hbits).mpr ⟨hback, hneg⟩

namespace FrameState

variable {s : Sequence} {header : Header} {slots : StateSlots}

/-- A reference counts as displayed after the frame if its wrapped distance to the frame is
    positive. Without a frame in its slot it does not. -/
theorem isAfter_eq_ok (henabled : s.enableOrderHint = true) (hpos : 1 ≤ s.orderHintBits)
    (hbits : s.orderHintBits ≤ 31) (hhint : header.orderHint < 2 ^ s.orderHintBits)
    (hslots : ∀ i state, slots.content? i = some state → state.orderHint < 2 ^ s.orderHintBits)
    (r : Nat) :
    isAfter s header slots r = .ok ((referenceHint? header slots r).any fun hint =>
      0 < ((hint : Int) - header.orderHint).bmod (2 ^ s.orderHintBits)) := by
  unfold isAfter
  cases hreference : referenceHint? header slots r with
  | none => rfl
  | some hint =>
    obtain ⟨slot, state, hstate, rfl⟩ := exists_content_of_referenceHint? hreference
    dsimp only
    rw [hintDistance_eq_bmod henabled hpos hbits (hslots slot state hstate) hhint]
    rfl

/-- Which references are displayed after the frame can be told, whatever is in the slots. -/
theorem exists_resolveSignBias (henabled : s.enableOrderHint = true) (hpos : 1 ≤ s.orderHintBits)
    (hbits : s.orderHintBits ≤ 31) (hhint : header.orderHint < 2 ^ s.orderHintBits)
    (hslots : ∀ i state, slots.content? i = some state → state.orderHint < 2 ^ s.orderHintBits) :
    ∃ signBias, resolveSignBias s header slots = .ok signBias ∧
      ∀ (i : Fin 7) (reference : FrameState),
        slots.content? (header.refFrameIdx.get i) = some reference →
          signBias.get i.succ = decide (0 < ((reference.orderHint : Int) -
            header.orderHint).bmod (2 ^ s.orderHintBits)) := by
  refine ⟨_, ofFnM_of_eq_ok fun r => isAfter_eq_ok henabled hpos hbits hhint hslots r, ?_⟩
  intro i reference hreference
  rw [get_eq_getElem, Vector.getElem_ofFn]
  dsimp only
  rw [Fin.val_succ, referenceHint?_succ, hreference]
  rfl

theorem resolveHints_get {i : Fin 7} {reference : FrameState}
    (hreference : slots.content? (header.refFrameIdx.get i) = some reference) :
    (resolveHints header slots).get i.succ = reference.orderHint := by
  rw [resolveHints, get_eq_getElem, Vector.getElem_ofFn]
  dsimp only
  rw [Fin.val_succ, referenceHint?_succ, hreference]
  rfl

/-- Between all positions whose difference fits there is a distance. In a sequence with order hints
    it says on which side of an inter frame its references are displayed: the sign bias of one is
    set just if the distance from the frame to it is positive. The order hint that is kept for it is
    its own. -/
theorem signBias_follows_distance :
    (∀ (bits : Nat) (a b : Int), 1 ≤ bits → bits ≤ 31 → DifferenceFits a b →
      ∃ d, IsDistance bits a b d) ∧
    ∀ (s : Sequence) (header : Header) (slots : StateSlots), s.enableOrderHint = true →
      1 ≤ s.orderHintBits → s.orderHintBits ≤ 31 → header.isIntra = false →
      header.orderHint < 2 ^ s.orderHintBits →
      (∀ i state, slots.content? i = some state → state.orderHint < 2 ^ s.orderHintBits) →
      ∃ signBias, resolveSignBias s header slots = .ok signBias ∧
        (∀ state, derive s header slots = .ok state →
          state.signBias = signBias ∧ state.orderHints = resolveHints header slots) ∧
        ∀ (i : Fin 7) (reference : FrameState),
          slots.content? (header.refFrameIdx.get i) = some reference →
            (resolveHints header slots).get i.succ = reference.orderHint ∧
            ∃ d, IsDistance s.orderHintBits reference.orderHint header.orderHint d ∧
              (signBias.get i.succ = true ↔ 0 < d) := by
  constructor
  · intro bits a b hpos hbits hfits
    exact ⟨_, isDistance_bmod hpos hbits hfits⟩
  · intro s header slots henabled hpos hbits hinter hhint hslots
    obtain ⟨signBias, hresolve, hsignBias⟩ :=
      exists_resolveSignBias henabled hpos hbits hhint hslots
    refine ⟨signBias, hresolve, fun state hderive => ?_, fun i reference hreference => ?_⟩
    · obtain ⟨_, hresolved⟩ := exists_resolvedFrom_of_derive hderive
      exact ⟨Except.ok.inj ((hresolved.signBias hinter).symm.trans hresolve),
        hresolved.orderHints hinter⟩
    · have hpow : 2 ^ s.orderHintBits ≤ 2 ^ 31 := Nat.pow_le_pow_right (by decide) hbits
      have hreferenceHint := hslots _ reference hreference
      have hfits : DifferenceFits reference.orderHint header.orderHint := by
        constructor <;> omega
      refine ⟨resolveHints_get hreference, _, isDistance_bmod hpos hbits hfits, ?_⟩
      rw [hsignBias i reference hreference, decide_eq_true_iff]

/-- A frame with order hint 2, and two frames in the slots: 15 is three before it, on the other side
    of zero, and 9 is seven after it. -/
def wrappedHeader : Header :=
  { frameType := .interFrame, orderHint := 2, refFrameIdx := #v[0, 1, 2, 2, 2, 2, 2] }

def wrappedSlots : StateSlots :=
  Slots.refresh (Slots.refresh Slots.empty 1 { orderHint := 15 }) 2 { orderHint := 9 }

theorem signBias_follows_distance_wrapped :
    relativeDistance true 4 15 2 = .ok (-3) ∧ relativeDistance true 4 2 15 = .ok 3 ∧
      ∃ signBias, resolveSignBias earlierSequence wrappedHeader wrappedSlots = .ok signBias ∧
        signBias.get 1 = false ∧ signBias.get 2 = true := by
  obtain ⟨hdistance, hsignBias⟩ := signBias_follows_distance
  have hslots (i : Nat) (state : FrameState) (hstate : wrappedSlots.content? i = some state) :
      state.orderHint < 2 ^ 4 := by
    refine Slots.forall_content?_refresh (P := fun state => state.orderHint < 2 ^ 4)
      (Slots.forall_content?_refresh (fun i state h => ?_) ?_ 1) ?_ 2 i state hstate
    · cases (Slots.content?_empty i).symm.trans h
    · decide
    · decide
  obtain ⟨d, hd⟩ := hdistance 4 15 2 (by decide) (by decide) (by decide)
  obtain rfl : -3 = d := (hd.wraps_iff (-3)).mp ⟨by decide, by decide, rfl⟩
  obtain ⟨signBias, hresolve, -, hreferences⟩ := hsignBias earlierSequence wrappedHeader _ rfl
    (by decide) (by decide) rfl (by decide) hslots
  obtain ⟨-, before, hbefore, hunset⟩ := hreferences 0 { orderHint := 15 } rfl
  obtain ⟨-, after, hafter, hset⟩ := hreferences 1 { orderHint := 9 } rfl
  obtain rfl : -3 = before := (hbefore.wraps_iff (-3)).mp ⟨by decide, by decide, rfl⟩
  obtain rfl : 7 = after := (hafter.wraps_iff 7).mp ⟨by decide, by decide, rfl⟩
  refine ⟨hd.eq_ok, hd.back (by decide), signBias, hresolve, ?_, hset.mpr (by decide)⟩
  exact Bool.eq_false_iff.mpr fun h => absurd (hunset.mp h) (by decide)

end FrameState

end Av1Frames
