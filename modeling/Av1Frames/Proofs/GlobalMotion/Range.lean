import Av1Frames.FrameState.Derivation
import Av1Frames.Proofs.GlobalMotion.Coding

namespace Av1Frames

open Checked

/-- How far parameter `i` of a warp can be from the parameter that moves nothing. -/
def WarpMatrix.reach (i : Fin 6) : Int := if i.val < 2 then 0x400000 else 0x2000

/-- The parameter is within its reach. -/
def WarpMatrix.Near (i : Fin 6) (value : Int) : Prop :=
  identity.get i - reach i ≤ value ∧ value ≤ identity.get i + reach i

theorem WarpMatrix.reach_mem (i : Fin 6) : 0 ≤ reach i ∧ reach i ≤ 0x400000 := by
  revert i
  decide

theorem WarpMatrix.identity_get_mem (i : Fin 6) :
    0 ≤ identity.get i ∧ identity.get i ≤ 0x10000 := by
  revert i
  decide

namespace WarpPrecision

/-- The code is one of those that parameter `i` can have. -/
def Codes (p : WarpPrecision) (code : Int) : Prop := 0 ≤ code ∧ code ≤ 2 * p.mx

instance (p : WarpPrecision) (code : Int) : Decidable (p.Codes code) :=
  inferInstanceAs (Decidable (_ ∧ _))

/-- The number that a code is relative to, for parameters of any width. -/
def exactReference (p : WarpPrecision) (previous : Int) : Int := previous >>> p.droppedBits - p.sub

/-- The parameter that a code stands for, for parameters of any width. -/
def exactDecode (p : WarpPrecision) (code previous : Int) : Int :=
  Recentering.Exact.decodeSigned code (-p.mx) (p.mx + 1) (p.exactReference previous) <<<
    p.droppedBits + p.round

/-- The greatest number and the scale differ between models and precisions, their product does
    not. -/
theorem mx_scaled (model : WarpModel) (i : Fin 6) (highPrecision : Bool) :
    (of model i highPrecision).mx * 2 ^ (of model i highPrecision).droppedBits =
      WarpMatrix.reach i := by
  cases model <;> cases highPrecision <;> revert i <;> decide

theorem round_eq (model : WarpModel) (i : Fin 6) (highPrecision : Bool) :
    (of model i highPrecision).round = WarpMatrix.identity.get i := by
  cases model <;> cases highPrecision <;> revert i <;> decide

theorem sub_scaled (model : WarpModel) (i : Fin 6) (highPrecision : Bool) :
    (of model i highPrecision).sub * 2 ^ (of model i highPrecision).droppedBits =
      WarpMatrix.identity.get i := by
  cases model <;> cases highPrecision <;> revert i <;> decide

variable (model : WarpModel) {i : Fin 6} (highPrecision : Bool) {code previous : Int}

/-- Any warp can be referred to with any precision: the number that stands for one of its parameters
    is one that can be transmitted. -/
theorem exactReference_mem (hprevious : WarpMatrix.Near i previous) :
    -(of model i highPrecision).mx ≤ (of model i highPrecision).exactReference previous ∧
      (of model i highPrecision).exactReference previous ≤ (of model i highPrecision).mx := by
  have hmx := mx_scaled model i highPrecision
  have hsub := sub_scaled model i highPrecision
  obtain ⟨hlow, hhigh⟩ := hprevious
  generalize of model i highPrecision = p at hmx hsub ⊢
  have hunit : (0 : Int) < 2 ^ p.droppedBits := by positivity
  have hshifted : p.exactReference previous =
      (previous - WarpMatrix.identity.get i) / 2 ^ p.droppedBits := by
    rw [exactReference, Int.shiftRight_eq_div_pow, ← hsub, Int.sub_mul_ediv_right _ _ hunit.ne']
    norm_cast
  rw [hshifted]
  constructor
  · rw [Int.le_ediv_iff_mul_le hunit, neg_mul, hmx]
    omega
  · rw [← Int.lt_add_one_iff, Int.ediv_lt_iff_lt_mul hunit, add_mul, hmx]
    omega

theorem reference_eq_exact (hprevious : WarpMatrix.Near i previous) :
    (of model i highPrecision).reference previous =
      .ok ((of model i highPrecision).exactReference previous) := by
  have hmem := exactReference_mem model highPrecision hprevious
  have hmx := mx_of_le model i highPrecision
  unfold exactReference at hmem ⊢
  exact signed_of_range (by omega) (by omega)

/-- Whatever a code is relative to, it stands for a parameter within its reach. -/
theorem exactDecode_near (hcode : (of model i highPrecision).Codes code) (previous : Int) :
    WarpMatrix.Near i ((of model i highPrecision).exactDecode code previous) := by
  have hmx := mx_scaled model i highPrecision
  have hround := round_eq model i highPrecision
  obtain ⟨hnonneg, hle⟩ := hcode
  generalize of model i highPrecision = p at hmx hround hle ⊢
  have hnumber (reference : Int) :
      -p.mx ≤ Recentering.Exact.decodeSigned code (-p.mx) (p.mx + 1) reference ∧
        Recentering.Exact.decodeSigned code (-p.mx) (p.mx + 1) reference < p.mx + 1 :=
    Recentering.Exact.decodeSigned_mem hnonneg (by omega) reference
  obtain ⟨hlow, hhigh⟩ := hnumber (p.exactReference previous)
  have hunit : (0 : Int) ≤ 2 ^ p.droppedBits := by positivity
  have hscaledLow := mul_le_mul_of_nonneg_right hlow hunit
  have hscaledHigh := mul_le_mul_of_nonneg_right (Int.lt_add_one_iff.mp hhigh) hunit
  rw [neg_mul] at hscaledLow
  unfold WarpMatrix.Near exactDecode
  rw [hround, Int.shiftLeft_eq, ← hmx]
  omega

/-- Decoding a parameter relative to one within its reach overflows nowhere. -/
theorem decode_eq_exact (hcode : (of model i highPrecision).Codes code)
    (hprevious : WarpMatrix.Near i previous) :
    (of model i highPrecision).decode code previous =
      .ok ((of model i highPrecision).exactDecode code previous) := by
  have hreference := reference_eq_exact model highPrecision hprevious
  have hreferenceMem := exactReference_mem model highPrecision hprevious
  have hnear := exactDecode_near model highPrecision hcode previous
  have hmx := mx_of_le model i highPrecision
  have hround := round_eq model i highPrecision
  have hidentity := WarpMatrix.identity_get_mem i
  have hreach := WarpMatrix.reach_mem i
  obtain ⟨hnonneg, hle⟩ := hcode
  generalize of model i highPrecision = p at *
  unfold exactDecode WarpMatrix.Near at hnear
  unfold exactDecode decode
  rw [hreference, ok_bind,
    Recentering.decodeSigned_eq_exact hnonneg (by omega) (by omega) (by omega) (by omega)
      (by omega) (by omega),
    ok_bind, scale, wrapSigned_of_range (by omega) (by omega)]
  exact signed_of_range (by omega) (by omega)

end WarpPrecision

/-- A warp that later warps can be relative to, and that has the parameters of its model only. -/
structure Warp.InRange (w : Warp) : Prop where
  near : ∀ i, WarpMatrix.Near i (w.matrix.get i)
  identity : w.model = .identity → w.matrix = .identity
  translation : w.model = .translation →
    ∀ i : Fin 6, 2 ≤ i.val → w.matrix.get i = WarpMatrix.identity.get i
  rotZoom : w.model = .rotZoom →
    w.matrix.get 4 = -w.matrix.get 3 ∧ w.matrix.get 5 = w.matrix.get 2

theorem WarpMatrix.near_identity (i : Fin 6) : Near i (identity.get i) := by
  have hreach := reach_mem i
  unfold Near
  omega

theorem Warp.inRange_default : ({} : Warp).InRange where
  near := WarpMatrix.near_identity
  identity _ := rfl
  translation _ _ _ := rfl
  rotZoom := nofun

/-- The codes of the transmitted parameters are ones that can be transmitted. -/
def CodedWarp.InRange (coded : CodedWarp) (highPrecision : Bool) : Prop :=
  ∀ i, coded.model.transmits i →
    (WarpPrecision.of coded.model i highPrecision).Codes (coded.codes.get i)

namespace CodedWarp

instance (coded : CodedWarp) (highPrecision : Bool) : Decidable (coded.InRange highPrecision) :=
  inferInstanceAs (Decidable (∀ _, _))

/-- Parameter `i` of the warp that a coded warp stands for, before a rotation with zoom is
    completed, for parameters of any width. -/
def exactParameter (coded : CodedWarp) (highPrecision : Bool) (previous : WarpMatrix) (i : Fin 6) :
    Int :=
  if coded.model.transmits i then
    (WarpPrecision.of coded.model i highPrecision).exactDecode (coded.codes.get i) (previous.get i)
  else
    WarpMatrix.identity.get i

/-- The warp that a coded warp stands for, for parameters of any width. -/
def exactWarp (coded : CodedWarp) (highPrecision : Bool) (previous : WarpMatrix) : Warp where
  model := coded.model
  matrix := .complete coded.model (coded.exactParameter highPrecision previous)

variable {coded : CodedWarp} {highPrecision : Bool}

theorem exactParameter_near (hcodes : coded.InRange highPrecision) (previous : WarpMatrix)
    (i : Fin 6) : WarpMatrix.Near i (coded.exactParameter highPrecision previous i) := by
  unfold exactParameter
  split
  · exact WarpPrecision.exactDecode_near _ _ (hcodes i ‹_›) _
  · exact WarpMatrix.near_identity i

theorem exactParameter_of_fixed {i : Fin 6} (hfixed : coded.model.transmits i = false)
    (previous : WarpMatrix) :
    coded.exactParameter highPrecision previous i = WarpMatrix.identity.get i := by
  rw [exactParameter, hfixed, if_neg Bool.false_ne_true]

/-- Codes in range stand for a warp in range, whatever they are relative to. -/
theorem exactWarp_inRange (hcodes : coded.InRange highPrecision) (previous : WarpMatrix) :
    (coded.exactWarp highPrecision previous).InRange := by
  have hnear := exactParameter_near hcodes previous
  have hfixed {i : Fin 6} (h : coded.model.transmits i = false) :
      coded.exactParameter highPrecision previous i = WarpMatrix.identity.get i :=
    exactParameter_of_fixed h previous
  unfold exactWarp
  generalize coded.exactParameter highPrecision previous = m at hnear hfixed ⊢
  by_cases hrotZoom : coded.model = .rotZoom
  · rw [WarpMatrix.complete, if_pos hrotZoom]
    refine ⟨fun i => ?_, fun h => ?_, fun h => ?_, fun _ => ⟨rfl, rfl⟩⟩
    · match i with
      | 0 => exact hnear 0
      | 1 => exact hnear 1
      | 2 => exact hnear 2
      | 3 => exact hnear 3
      | 4 =>
        obtain ⟨hlow, hhigh⟩ := hnear 3
        exact ⟨neg_le_neg hhigh, neg_le_neg hlow⟩
      | 5 => exact hnear 2
    · exact nomatch hrotZoom.symm.trans h
    · exact nomatch hrotZoom.symm.trans h
  · have hget (i : Fin 6) : (Vector.ofFn m).get i = m i := by
      rw [get_eq_getElem, Vector.getElem_ofFn]
    rw [WarpMatrix.complete, if_neg hrotZoom]
    refine ⟨fun i => ?_, fun (h : coded.model = .identity) => ?_,
      fun (h : coded.model = .translation) i hi => ?_, fun h => absurd h hrotZoom⟩
    · rw [hget]
      exact hnear i
    · refine Vector.ext fun i hi => ?_
      rw [Vector.getElem_ofFn]
      refine hfixed ?_
      rw [h]
      rfl
    · rw [hget]
      refine hfixed ?_
      rw [h]
      revert i
      decide

end CodedWarp

namespace FrameState

variable {coded : CodedWarp} {highPrecision : Bool} {previous : WarpMatrix}

theorem resolveParameter_eq_exact (hcodes : coded.InRange highPrecision)
    (hprevious : ∀ i, WarpMatrix.Near i (previous.get i)) (i : Fin 6) :
    resolveParameter coded highPrecision previous i =
      .ok (coded.exactParameter highPrecision previous i) := by
  unfold resolveParameter CodedWarp.exactParameter
  split
  · exact WarpPrecision.decode_eq_exact _ _ (hcodes i ‹_›) (hprevious i)
  · rfl

/-- Codes in range, relative to parameters within their reach, are resolved without overflow. -/
theorem resolveWarp_eq_exact (hcodes : coded.InRange highPrecision)
    (hprevious : ∀ i, WarpMatrix.Near i (previous.get i)) :
    resolveWarp coded highPrecision previous = .ok (coded.exactWarp highPrecision previous) := by
  have hmatrix : Vector.ofFnM (resolveParameter coded highPrecision previous) =
      .ok (Vector.ofFn (coded.exactParameter highPrecision previous)) :=
    ofFnM_of_eq_ok (resolveParameter_eq_exact hcodes hprevious)
  have hnear := CodedWarp.exactParameter_near hcodes previous 3
  unfold resolveWarp CodedWarp.exactWarp
  rw [hmatrix, ok_bind]
  generalize coded.exactParameter highPrecision previous = m at hnear ⊢
  by_cases hrotZoom : coded.model = .rotZoom
  · have hthird : (Vector.ofFn m)[3] = m 3 := Vector.getElem_ofFn _
    have hminusB : signed (-m 3) = .ok (-m 3) := by
      obtain ⟨hlow, hhigh⟩ := hnear
      have hreach := WarpMatrix.reach_mem 3
      have hidentity := WarpMatrix.identity_get_mem 3
      exact signed_of_range (by omega) (by omega)
    rw [if_pos hrotZoom, WarpMatrix.complete, if_pos hrotZoom, WarpMatrix.toRotZoom, hthird,
      hminusB]
    rfl
  · rw [if_neg hrotZoom, WarpMatrix.complete, if_neg hrotZoom]
    rfl

end FrameState

end Av1Frames
