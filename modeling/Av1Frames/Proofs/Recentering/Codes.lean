import Mathlib.Order.Interval.Set.Basic
import Av1Frames.Proofs.Recentering

namespace Av1Frames.Recentering

open Checked

theorem exists_recenter {r v : Int} (hr : -0x40000000 ≤ r) (hr' : r < 0x40000000) (hv : 0 ≤ v)
    (hv' : v < 0x40000000) : ∃ code, recenter r v = .ok code := by
  unfold recenter
  rw [signed_of_range (by omega) (by omega), ok_bind]
  split_ifs
  · exact ⟨v, rfl⟩
  · rw [signed_of_range (by omega) (by omega)]
    exact ⟨wrapSigned (2 * (v - r)), rfl⟩
  · rw [signed_of_range (by omega) (by omega), ok_bind,
      wrapSigned_of_range (by omega) (by omega)]
    exact ⟨2 * (r - v) - 1, signed_of_range (by omega) (by omega)⟩

theorem exists_encodeUnsigned {x mx r : Int} (hx : 0 ≤ x) (hlt : x < mx) (hmx : mx ≤ 0x40000000)
    (hr : -0x40000000 ≤ r) (hr' : r < 0x40000000) : ∃ code, encodeUnsigned x mx r = .ok code := by
  unfold encodeUnsigned
  rw [wrapSigned_of_range (by omega) (by omega)]
  split_ifs
  · exact exists_recenter hr hr' hx (by omega)
  · rw [signed_of_range (by omega) (by omega), ok_bind, signed_of_range (by omega) (by omega),
      ok_bind, signed_of_range (by omega) (by omega), ok_bind]
    exact exists_recenter (by omega) (by omega) (by omega) (by omega)

section Range

variable {low high r : Int} (hlow : -0x80000000 ≤ low) (hhigh : high < 0x80000000)
  (hspan : high - low ≤ 0x40000000) (hr : -0x40000000 ≤ r - low) (hr' : r - low < 0x40000000)

include hspan hr hr' in
/-- Every number of the range has a code, and there are as many codes as numbers. -/
theorem exists_encodeSigned {x : Int} (hx : x ∈ Set.Ico low high) :
    ∃ code ∈ Set.Ico 0 (high - low), encodeSigned x low high r = .ok code := by
  obtain ⟨hge, hlt⟩ := Set.mem_Ico.mp hx
  obtain ⟨code, hcode⟩ :=
    exists_encodeUnsigned (x := x - low) (by omega) (by omega) hspan hr hr'
  have hencode : encodeSigned x low high r = .ok code := by
    unfold encodeSigned
    rw [signed_of_range (by omega) (by omega), ok_bind, signed_of_range (by omega) (by omega),
      ok_bind, signed_of_range (by omega) (by omega), ok_bind, hcode]
  exact ⟨code, encodeSigned_mem hge hlt hencode, hencode⟩

include hlow hhigh hspan hr hr' in
/-- Every code stands for a number of the range. -/
theorem exists_decodeSigned {code : Int} (hcode : code ∈ Set.Ico 0 (high - low)) :
    ∃ x ∈ Set.Ico low high, decodeSigned code low high r = .ok x := by
  obtain ⟨hge, hlt⟩ := Set.mem_Ico.mp hcode
  have hdecode : decodeSigned code low high r = .ok (Exact.decodeSigned code low high r) :=
    decodeSigned_eq_exact hge hlt hlow hhigh.le hspan hr hr'
  exact ⟨_, Exact.decodeSigned_mem hge hlt r, hdecode⟩

include hlow hhigh hspan hr hr' in
/-- Coding and decoding are inverse bijections between the numbers of a range and as many codes from
    zero on, and overflow nowhere. -/
theorem exists_equiv_codes :
    ∃ codes : Set.Ico low high ≃ Set.Ico 0 (high - low),
      (∀ x : Set.Ico low high, encodeSigned x low high r = .ok (codes x).val) ∧
        ∀ code : Set.Ico 0 (high - low),
          decodeSigned code low high r = .ok (codes.symm code).val := by
  have hencode (x : Set.Ico low high) :
      ∃ code : Set.Ico 0 (high - low), encodeSigned x low high r = .ok code.val := by
    obtain ⟨code, hmem, hcode⟩ := exists_encodeSigned hspan hr hr' x.property
    exact ⟨⟨code, hmem⟩, hcode⟩
  have hdecode (code : Set.Ico 0 (high - low)) :
      ∃ x : Set.Ico low high, decodeSigned code low high r = .ok x.val := by
    obtain ⟨x, hmem, hx⟩ := exists_decodeSigned hlow hhigh hspan hr hr' code.property
    exact ⟨⟨x, hmem⟩, hx⟩
  choose encode hencode using hencode
  choose decode hdecode using hdecode
  have hleft (x : Set.Ico low high) : decode (encode x) = x := by
    obtain ⟨hge, hlt⟩ := x.property
    have hx : signed x = .ok x.val := signed_of_range (by omega) (by omega)
    have hback := decodeSigned_of_encodeSigned hge hlt hx (hencode x)
    exact Subtype.ext (Except.ok.inj ((hdecode (encode x)).symm.trans hback))
  have hright (code : Set.Ico 0 (high - low)) : encode (decode code) = code := by
    obtain ⟨hge, hlt⟩ := code.property
    obtain ⟨-, -, hback⟩ := encodeSigned_of_decodeSigned hge hlt (hdecode code)
    exact Subtype.ext (Except.ok.inj ((hencode (decode code)).symm.trans hback))
  exact ⟨⟨encode, decode, hleft, hright⟩, hencode, hdecode⟩

end Range

/-- The widest range, its reference as far above it as it can be. -/
theorem exists_equiv_codes_widest :
    let low : Int := -0x80000000
    let high : Int := -0x40000000
    let r : Int := -0x40000001
    (-0x80000000 ≤ low ∧ high < 0x80000000 ∧ high - low ≤ 0x40000000 ∧
      -0x40000000 ≤ r - low ∧ r - low < 0x40000000) ∧
      ∃ codes : Set.Ico low high ≃ Set.Ico 0 (high - low),
        (∀ x : Set.Ico low high, encodeSigned x low high r = .ok (codes x).val) ∧
          ∀ code : Set.Ico 0 (high - low),
            decodeSigned code low high r = .ok (codes.symm code).val := by
  intro low high r
  exact ⟨by decide, exists_equiv_codes (by decide) (by decide) (by decide) (by decide) (by decide)⟩

end Av1Frames.Recentering
