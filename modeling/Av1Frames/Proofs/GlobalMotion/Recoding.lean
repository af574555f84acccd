import Av1Frames.Proofs.GlobalMotion.Syntax

namespace Av1Frames

open Checked

namespace WarpPrecision

variable {model : WarpModel} {i : Fin 6} {highPrecision : Bool} {code previous value : Int}

/-- The parameter that a code in range stands for is a scaled number, and the number has the
    code. -/
theorem decode_eq_ok (hcode : (of model i highPrecision).Codes code)
    (hdecode : (of model i highPrecision).decode code previous = .ok value) :
    ∃ number reference, (of model i highPrecision).reference previous = .ok reference ∧
      -(of model i highPrecision).mx ≤ number ∧ number ≤ (of model i highPrecision).mx ∧
      Recentering.encodeSigned number (-(of model i highPrecision).mx)
        ((of model i highPrecision).mx + 1) reference = .ok code ∧
      (of model i highPrecision).scale number = .ok value ∧
      value = number * 2 ^ (of model i highPrecision).droppedBits +
        (of model i highPrecision).round ∧ WarpMatrix.Near i value := by
  have hreach := WarpMatrix.reach_mem i
  have hscaled := mx_scaled model i highPrecision
  have hround := round_eq model i highPrecision
  obtain ⟨hnonneg, hle⟩ := hcode
  generalize of model i highPrecision = p at *
  unfold decode at hdecode
  rw [bind_eq_ok_iff] at hdecode
  obtain ⟨reference, hreference, hdecode⟩ := hdecode
  rw [bind_eq_ok_iff] at hdecode
  obtain ⟨number, hnumber, hscale⟩ := hdecode
  obtain ⟨hlow, hhigh, hencode⟩ :=
    Recentering.encodeSigned_of_decodeSigned hnonneg (by omega) hnumber
  have hunit : (0 : Int) ≤ 2 ^ p.droppedBits := by positivity
  have hscaledLow := mul_le_mul_of_nonneg_right hlow hunit
  have hscaledHigh := mul_le_mul_of_nonneg_right (Int.lt_add_one_iff.mp hhigh) hunit
  rw [neg_mul, hscaled] at hscaledLow
  rw [hscaled] at hscaledHigh
  have hvalue : number * 2 ^ p.droppedBits + p.round = value := by
    unfold scale at hscale
    rw [Int.shiftLeft_eq, wrapSigned_of_range (by omega) (by omega)] at hscale
    exact (signed_eq_ok_iff.mp hscale).2
  refine ⟨number, reference, hreference, hlow, by omega, hencode, hscale, hvalue.symm, ?_⟩
  unfold WarpMatrix.Near
  omega

end WarpPrecision

namespace FrameState

variable {w : CodedWarp} {highPrecision : Bool} {previous : WarpMatrix} {target : Warp} {r : Nat}
  {i : Fin 6}

/-- A parameter that a transmitted code stands for is coded by that code. -/
theorem codeParameter_of_transmitted (htransmits : w.model.transmits i = true)
    (hcode : (WarpPrecision.of w.model i highPrecision).Codes (w.codes.get i))
    (hmodel : target.model = w.model)
    (hresolve : resolveParameter w highPrecision previous i = .ok (target.matrix.get i)) :
    codeParameter target highPrecision previous r i = .ok (w.codes.get i) := by
  unfold resolveParameter at hresolve
  rw [if_pos htransmits] at hresolve
  obtain ⟨number, reference, hreference, hlow, hhigh, hencode, hscale, hvalue, hnear⟩ :=
    WarpPrecision.decode_eq_ok hcode hresolve
  have hreach := WarpMatrix.reach_mem i
  have hidentity := WarpMatrix.identity_get_mem i
  have hround := WarpPrecision.round_eq w.model i highPrecision
  unfold codeParameter
  simp only [hmodel, htransmits, Bool.not_true, Bool.false_eq_true, if_false]
  generalize WarpPrecision.of w.model i highPrecision = p at *
  obtain ⟨hnearLow, hnearHigh⟩ := hnear
  have hoffset : target.matrix.get i - p.round = number * 2 ^ p.droppedBits := by omega
  have hnumber : (target.matrix.get i - p.round) >>> p.droppedBits = number := by
    have hunit : (2 : Int) ^ p.droppedBits ≠ 0 := by positivity
    rw [hoffset, Int.shiftRight_eq_div_pow]
    exact Int.mul_ediv_cancel number hunit
  have hsigned : signed (target.matrix.get i - p.round) = .ok (target.matrix.get i - p.round) :=
    signed_of_range (by omega) (by omega)
  rw [hsigned]
  refine bind_eq_ok_iff.mpr ⟨_, rfl, ?_⟩
  rw [hnumber]
  refine bind_eq_ok_iff.mpr ⟨_, liftM_eq_ok_iff.mpr hscale, ?_⟩
  refine guard_eq_ok_iff.mpr ⟨by simp only [ne_eq, not_true_eq_false, false_or]; omega, ?_⟩
  exact bind_eq_ok_iff.mpr ⟨_, liftM_eq_ok_iff.mpr hreference, liftM_eq_ok_iff.mpr hencode⟩

/-- A parameter that is not transmitted is coded by zero, if it is the one that moves nothing or
    follows from others. -/
theorem codeParameter_of_fixed (hfixed : target.model.transmits i = false)
    (hvalue : target.model = .rotZoom ∧ 4 ≤ i.val ∨
      target.matrix.get i = WarpMatrix.identity.get i) :
    codeParameter target highPrecision previous r i = .ok 0 := by
  unfold codeParameter
  simp only [hfixed, Bool.not_false, if_true]
  refine guard_eq_ok_iff.mpr ⟨fun hrefused => ?_, rfl⟩
  simp only [Bool.and_eq_true, Bool.not_eq_true', Bool.and_eq_false_iff, decide_eq_true_eq,
    decide_eq_false_iff_not] at hrefused
  rcases hvalue with ⟨hmodel, hi⟩ | hidentity
  · exact hrefused.1.elim (fun h => h hmodel) fun h => h hi
  · exact hrefused.2 hidentity

/-- What is known of a warp that a coded warp stands for. -/
theorem resolveWarp_eq_ok (hresolve : resolveWarp w highPrecision previous = .ok target) :
    target.model = w.model ∧
      (∀ i : Fin 6, ¬ (w.model = .rotZoom ∧ 4 ≤ i.val) →
        resolveParameter w highPrecision previous i = .ok (target.matrix.get i)) ∧
      (w.model = .rotZoom → signed (-target.matrix.get 3) = .ok (target.matrix.get 4) ∧
        target.matrix.get 5 = target.matrix.get 2) := by
  unfold resolveWarp at hresolve
  rw [bind_eq_ok_iff] at hresolve
  obtain ⟨matrix, hmatrix, hresolve⟩ := hresolve
  have hparameters := ofFnM_eq_ok_iff.mp hmatrix
  by_cases hrotZoom : w.model = .rotZoom
  · rw [if_pos hrotZoom, bind_eq_ok_iff] at hresolve
    obtain ⟨completed, hcompleted, hresolve⟩ := hresolve
    obtain rfl := Except.ok.inj hresolve
    unfold WarpMatrix.toRotZoom at hcompleted
    rw [bind_eq_ok_iff] at hcompleted
    obtain ⟨minusB, hminusB, hcompleted⟩ := hcompleted
    obtain rfl := Except.ok.inj hcompleted
    refine ⟨rfl, fun i hi => ?_, fun _ => ⟨hminusB, rfl⟩⟩
    rw [hparameters i]
    match i with
    | 0 | 1 | 2 | 3 => rfl
    | 4 | 5 => exact absurd ⟨hrotZoom, by decide⟩ hi
  · rw [if_neg hrotZoom] at hresolve
    obtain rfl := Except.ok.inj hresolve
    exact ⟨rfl, fun i _ => hparameters i, fun h => absurd h hrotZoom⟩

theorem resolveParameter_near (hcodes : w.InRange highPrecision) {value : Int}
    (hresolve : resolveParameter w highPrecision previous i = .ok value) :
    WarpMatrix.Near i value := by
  unfold resolveParameter at hresolve
  split at hresolve
  · obtain ⟨-, -, -, -, -, -, -, -, hnear⟩ :=
      WarpPrecision.decode_eq_ok (hcodes i ‹_›) hresolve
    exact hnear
  · obtain rfl := Except.ok.inj hresolve
    exact WarpMatrix.near_identity i

theorem codeParameter_of_resolveWarp (hcodes : w.InRange highPrecision)
    (hresolve : resolveWarp w highPrecision previous = .ok target) (i : Fin 6) :
    codeParameter target highPrecision previous r i = .ok (w.transmitted.codes.get i) := by
  obtain ⟨hmodel, hparameters, -⟩ := resolveWarp_eq_ok hresolve
  cases htransmits : w.model.transmits i with
  | true =>
    have hfree : ¬ (w.model = .rotZoom ∧ 4 ≤ i.val) := by
      rintro ⟨hrotZoom, hi⟩
      rw [hrotZoom] at htransmits
      revert i
      decide
    rw [CodedWarp.transmitted_codes htransmits]
    exact codeParameter_of_transmitted htransmits (hcodes i htransmits) hmodel (hparameters i hfree)
  | false =>
    have hzero : w.transmitted.codes.get i = 0 := by
      rw [CodedWarp.transmitted, get_eq_getElem, Vector.getElem_ofFn, htransmits,
        if_neg Bool.false_ne_true]
    rw [hzero]
    refine codeParameter_of_fixed (hmodel ▸ htransmits) ?_
    rw [hmodel]
    refine or_iff_not_imp_left.mpr fun hfree => ?_
    have hparameter := hparameters i hfree
    unfold resolveParameter at hparameter
    rw [htransmits, if_neg Bool.false_ne_true] at hparameter
    exact (Except.ok.inj hparameter).symm

/-- The warp that a coded warp stands for is coded in the same way again, but for what is not
    transmitted. -/
theorem codeWarp_of_resolveWarp (hcodes : w.InRange highPrecision)
    (hresolve : resolveWarp w highPrecision previous = .ok target) :
    codeWarp target highPrecision previous r = .ok w.transmitted := by
  obtain ⟨hmodel, hparameters, hrotZoom⟩ := resolveWarp_eq_ok hresolve
  have hnear := resolveParameter_near hcodes (hparameters 3 (by simp))
  have hminusB : signed (-target.matrix.get 3) = .ok (-target.matrix.get 3) := by
    obtain ⟨hlow, hhigh⟩ := hnear
    have hreach := WarpMatrix.reach_mem 3
    have hidentity := WarpMatrix.identity_get_mem 3
    exact signed_of_range (by omega) (by omega)
  have hisRotZoom : target.matrix.isRotZoom = .ok (target.matrix.get 4 = -target.matrix.get 3 &&
      target.matrix.get 5 = target.matrix.get 2) := bind_eq_ok_iff.mpr ⟨_, hminusB, rfl⟩
  have hcoded : Vector.ofFnM (codeParameter target highPrecision previous r) =
      .ok w.transmitted.codes := ofFnM_eq_ok_iff.mpr (codeParameter_of_resolveWarp hcodes hresolve)
  unfold codeWarp
  refine bind_eq_ok_iff.mpr ⟨_, liftM_eq_ok_iff.mpr hisRotZoom, guard_eq_ok_iff.mpr ⟨?_, ?_⟩⟩
  · rw [Bool.and_eq_true, decide_eq_true_eq]
    rintro ⟨hturns, hrefused⟩
    obtain ⟨hfourth, hlast⟩ := hrotZoom (hmodel.symm.trans hturns)
    have hfourth : target.matrix.get 4 = -target.matrix.get 3 :=
      Except.ok.inj (hfourth.symm.trans hminusB)
    simp [hfourth, hlast] at hrefused
  · refine bind_eq_ok_iff.mpr ⟨_, hcoded, ?_⟩
    rw [hmodel]
    obtain ⟨isGlobal, isRotZoom, isTranslation, codes⟩ := w
    cases isGlobal <;> cases isRotZoom <;> cases isTranslation <;> rfl

end FrameState

end Av1Frames
