import Av1Frames.FrameState.Coding
import Av1Frames.Proofs.Recentering

namespace Av1Frames

open Checked

namespace WarpPrecision

theorem absBits_of_le (model : WarpModel) (i : Fin 6) (highPrecision : Bool) :
    (of model i highPrecision).absBits ≤ 12 := by
  dsimp only [of]
  split
  · split
    · exact (Nat.sub_le _ _).trans (by decide)
    · exact le_refl 12
  · exact le_refl 12

theorem mx_of_le (model : WarpModel) (i : Fin 6) (highPrecision : Bool) :
    (of model i highPrecision).mx ≤ 4096 := by
  unfold mx
  rw [Nat.one_shiftLeft]
  exact_mod_cast Nat.pow_le_pow_right (by decide) (absBits_of_le model i highPrecision)

end WarpPrecision

/-- A rotation with zoom is completed from its first four parameters. -/
theorem WarpMatrix.toRotZoom_of_first {m target : WarpMatrix}
    (hfirst : ∀ i : Fin 6, i.val < 4 → m.get i = target.get i)
    (hminusB : signed (-target.get 3) = .ok (target.get 4)) (hlast : target.get 5 = target.get 2) :
    m.toRotZoom = .ok target := by
  have h0 : m[0] = target.get 0 := hfirst 0 (by decide)
  have h1 : m[1] = target.get 1 := hfirst 1 (by decide)
  have h2 : m[2] = target.get 2 := hfirst 2 (by decide)
  have h3 : m[3] = target.get 3 := hfirst 3 (by decide)
  unfold WarpMatrix.toRotZoom
  rw [h0, h1, h2, h3, hminusB, ok_bind]
  refine congrArg Except.ok (Vector.ext fun i hi => ?_)
  match i, hi with
  | 0, _ | 1, _ | 2, _ | 3, _ | 4, _ => rfl
  | 5, _ => exact hlast.symm

namespace FrameState

variable {target : Warp} {coded : CodedWarp} {highPrecision : Bool} {previous : WarpMatrix}
  {r : Nat} {i : Fin 6}

/-- The code of a transmitted parameter stands for exactly that parameter. The coder compares what
    the number stands for with the parameter, so nothing is rounded away. -/
theorem resolveParameter_of_transmitted {code : Int} (htransmits : target.model.transmits i = true)
    (hmodel : coded.model = target.model) (hcode : coded.codes.get i = code)
    (hcoded : codeParameter target highPrecision previous r i = .ok code) :
    resolveParameter coded highPrecision previous i = .ok (target.matrix.get i) := by
  unfold codeParameter at hcoded
  simp only [htransmits, Bool.not_true, Bool.false_eq_true, if_false] at hcoded
  rw [bind_eq_ok_iff] at hcoded
  obtain ⟨offset, _, hcoded⟩ := hcoded
  rw [bind_eq_ok_iff] at hcoded
  obtain ⟨scaled, hscaled, hcoded⟩ := hcoded
  rw [guard_eq_ok_iff] at hcoded
  obtain ⟨hfits, hcoded⟩ := hcoded
  simp only [not_or, not_not, not_lt] at hfits
  obtain ⟨rfl, hlow, hhigh⟩ := hfits
  rw [bind_eq_ok_iff] at hcoded
  obtain ⟨reference, hreference, hcoded⟩ := hcoded
  have hmx := WarpPrecision.mx_of_le target.model i highPrecision
  have hnumber := Recentering.decodeSigned_of_encodeSigned hlow (by omega)
    (signed_of_range (by omega) (by omega)) (liftM_eq_ok_iff.mp hcoded)
  unfold resolveParameter
  rw [hmodel, if_pos htransmits, hcode]
  unfold WarpPrecision.decode
  rw [liftM_eq_ok_iff.mp hreference, ok_bind, hnumber, ok_bind]
  exact liftM_eq_ok_iff.mp hscaled

/-- A parameter that is not transmitted resolves to the one that moves nothing. The coder accepts no
    other value for it, unless it follows from the transmitted ones. -/
theorem resolveParameter_of_fixed {code : Int} (hfixed : target.model.transmits i = false)
    (hmodel : coded.model = target.model)
    (hcoded : codeParameter target highPrecision previous r i = .ok code) :
    resolveParameter coded highPrecision previous i = .ok (WarpMatrix.identity.get i) ∧
      (target.model = .rotZoom ∧ 4 ≤ i.val ∨
        target.matrix.get i = WarpMatrix.identity.get i) := by
  constructor
  · unfold resolveParameter
    rw [hmodel, hfixed, if_neg Bool.false_ne_true]
    rfl
  · unfold codeParameter at hcoded
    simp only [hfixed, Bool.not_false, if_true] at hcoded
    rw [guard_eq_ok_iff] at hcoded
    have hvalue := hcoded.1
    simp only [Bool.and_eq_true, Bool.not_eq_true', Bool.and_eq_false_iff, decide_eq_true_eq,
      decide_eq_false_iff_not, not_and, not_not] at hvalue
    by_cases himplied : target.model = .rotZoom ∧ 4 ≤ i.val
    · exact .inl himplied
    · exact .inr (hvalue (by tauto))

/-- What is known of a warp that was coded. The last two parameters of a rotation with zoom are the
    ones that the first four imply. -/
theorem codeWarp_eq_ok (hcoded : codeWarp target highPrecision previous r = .ok coded) :
    coded.model = target.model ∧
      (∀ i, codeParameter target highPrecision previous r i = .ok (coded.codes.get i)) ∧
      (target.model = .rotZoom → signed (-target.matrix.get 3) = .ok (target.matrix.get 4) ∧
        target.matrix.get 5 = target.matrix.get 2) := by
  unfold codeWarp at hcoded
  rw [bind_eq_ok_iff] at hcoded
  obtain ⟨isRotZoom, hrotZoom, hcoded⟩ := hcoded
  rw [guard_eq_ok_iff] at hcoded
  obtain ⟨haccepted, hcoded⟩ := hcoded
  rw [bind_eq_ok_iff] at hcoded
  obtain ⟨codes, hcodes, hcoded⟩ := hcoded
  obtain rfl := Except.ok.inj hcoded
  refine ⟨?_, ofFnM_eq_ok_iff.mp hcodes, fun hmodel => ?_⟩
  · cases hmodel : target.model <;> simp [CodedWarp.model]
  · have hrotZoom := liftM_eq_ok_iff.mp hrotZoom
    unfold WarpMatrix.isRotZoom at hrotZoom
    rw [bind_eq_ok_iff] at hrotZoom
    obtain ⟨minusB, hminusB, hrotZoom⟩ := hrotZoom
    obtain rfl := Except.ok.inj hrotZoom
    simp only [hmodel, decide_true, Bool.true_and, Bool.not_eq_true', Bool.not_eq_false,
      Bool.and_eq_true, decide_eq_true_eq] at haccepted
    obtain ⟨rfl, hlast⟩ := haccepted
    exact ⟨hminusB, hlast⟩

/-- A coded warp resolves to the warp that it was made from. -/
theorem resolveWarp_of_codeWarp (hcoded : codeWarp target highPrecision previous r = .ok coded) :
    resolveWarp coded highPrecision previous = .ok target := by
  obtain ⟨hmodel, hcodes, himplied⟩ := codeWarp_eq_ok hcoded
  have hentry : ∀ i : Fin 6, ∃ value, resolveParameter coded highPrecision previous i = .ok value ∧
      (target.model = .rotZoom ∧ 4 ≤ i.val ∨ value = target.matrix.get i) := by
    intro i
    cases htransmits : target.model.transmits i with
    | true =>
      exact ⟨_, resolveParameter_of_transmitted htransmits hmodel rfl (hcodes i), .inr rfl⟩
    | false =>
      obtain ⟨hresolved, hvalue⟩ := resolveParameter_of_fixed htransmits hmodel (hcodes i)
      exact ⟨_, hresolved, hvalue.imp_right Eq.symm⟩
  choose value hresolved hvalue using hentry
  have hmatrix : Vector.ofFnM (resolveParameter coded highPrecision previous) =
      .ok (Vector.ofFn value) :=
    ofFnM_eq_ok_iff.mpr fun i => by rw [hresolved i, get_eq_getElem, Vector.getElem_ofFn]
  unfold resolveWarp
  rw [hmatrix, ok_bind, hmodel]
  by_cases hrotZoom : target.model = .rotZoom
  · obtain ⟨hminusB, hlast⟩ := himplied hrotZoom
    have hfirst : ∀ i : Fin 6, i.val < 4 → value i = target.matrix.get i := fun i hi =>
      (hvalue i).resolve_left fun h => absurd h.2 (Nat.not_le.mpr hi)
    have hcomplete : WarpMatrix.toRotZoom (Vector.ofFn value) = .ok target.matrix := by
      refine WarpMatrix.toRotZoom_of_first (fun i hi => ?_) hminusB hlast
      rw [get_eq_getElem, Vector.getElem_ofFn]
      exact hfirst i hi
    rw [if_pos hrotZoom, hcomplete, ok_bind]
    rfl
  · rw [if_neg hrotZoom]
    have hvalues : Vector.ofFn value = target.matrix := by
      refine Vector.ext fun i hi => ?_
      rw [Vector.getElem_ofFn]
      exact (hvalue ⟨i, hi⟩).resolve_left fun h => hrotZoom h.1
    rw [hvalues]
    rfl

end FrameState

end Av1Frames
