import Av1Frames.OrderHint
import Av1Frames.Proofs.Checked

namespace Av1Frames

open Checked

theorem shiftLeftSigned_one {amount : Nat} (hamount : amount ≤ 30) :
    shiftLeftSigned 1 amount = .ok (2 ^ amount) := by
  have hle : (2 : Int) ^ amount ≤ 2 ^ 30 := pow_le_pow_right₀ (by decide) hamount
  have hpos : (0 : Int) < 2 ^ amount := Int.pow_pos (by decide)
  rw [shiftLeftSigned, if_pos (by omega), Int.shiftLeft_eq, Int.one_mul,
    wrapSigned_of_range (by omega) (by omega)]

/-- The low bits, without the highest kept one counted negatively, are the remainder next to
    zero. -/
theorem emod_sub_eq_bmod (x : Int) {sign : Int} {modulus : Nat} (hpos : 0 < sign)
    (hmodulus : (modulus : Int) = 2 * sign) :
    x % sign - x / sign % 2 * sign = x.bmod modulus := by
  have hlow := Int.emod_nonneg x hpos.ne'
  have hlow' := Int.emod_lt_of_pos x hpos
  have hparts : sign * (x / sign) + x % sign = x := Int.mul_ediv_add_emod x sign
  have hhalves : 2 * (x / sign / 2) + x / sign % 2 = x / sign := Int.mul_ediv_add_emod _ 2
  symm
  rw [Int.bmod_eq_iff (by omega), hmodulus]
  have hbit := Int.emod_two_eq_zero_or_one (x / sign)
  refine ⟨?_, ?_, -(x / sign / 2 + x / sign % 2), ?_⟩
  · rcases hbit with hbit | hbit <;> rw [hbit] <;> omega
  · rcases hbit with hbit | hbit <;> rw [hbit] <;> omega
  · linear_combination hparts + sign * hhalves

theorem two_pow_eq_two_mul {bits : Nat} (hpos : 1 ≤ bits) :
    ((2 ^ bits : Nat) : Int) = 2 * 2 ^ (bits - 1) := by
  obtain ⟨n, rfl⟩ := Nat.exists_eq_add_of_le' hpos
  rw [Nat.add_sub_cancel, Nat.pow_succ']
  norm_cast

/-- The distance is the difference, reduced to the half open range around zero. -/
theorem relativeDistance_eq_bmod {bits : Nat} (hpos : 1 ≤ bits) (hbits : bits ≤ 31) {a b : Int}
    (hlow : -0x80000000 ≤ a - b) (hhigh : a - b < 0x80000000) :
    relativeDistance true bits a b = .ok ((a - b).bmod (2 ^ bits)) := by
  have hsignPos : (0 : Int) < 2 ^ (bits - 1) := Int.pow_pos (by decide)
  have hsignLe : (2 : Int) ^ (bits - 1) ≤ 2 ^ 30 := pow_le_pow_right₀ (by decide) (by omega)
  have hmodulus := two_pow_eq_two_mul hpos
  have hrange := Int.bmod_lt (x := a - b) (Nat.two_pow_pos bits)
  have hrange' := Int.le_bmod (x := a - b) (Nat.two_pow_pos bits)
  unfold relativeDistance
  rw [if_neg (by simp; omega), signed_of_range hlow hhigh, ok_bind,
    shiftLeftSigned_one (by omega), ok_bind, signed_of_range (by omega) (by omega), ok_bind]
  dsimp only
  rw [Int.sub_add_cancel, emod_sub_eq_bmod _ hsignPos hmodulus]
  exact signed_of_range (by omega) (by omega)

/-- Positions that are less than half of the modulus apart are compared without wrapping around. -/
theorem sub_bmod_of_near {x y : Int} {modulus : Nat}
    (hlow : -((modulus : Int) / 2) ≤ x.bmod modulus - y.bmod modulus)
    (hhigh : x.bmod modulus - y.bmod modulus < ((modulus : Int) + 1) / 2) :
    (x - y).bmod modulus = x.bmod modulus - y.bmod modulus := by
  rw [← Int.bmod_sub_bmod, ← Int.sub_bmod_bmod, Int.bmod_eq_of_le hlow hhigh]

/-- The difference of two positions fits the arithmetic. -/
def DifferenceFits (a b : Int) : Prop := -0x80000000 ≤ a - b ∧ a - b < 0x80000000

instance (a b : Int) : Decidable (DifferenceFits a b) := inferInstanceAs (Decidable (_ ∧ _))

/-- `d` stands for `x` where numbers are known modulo `2 ^ bits`: it is the one in the half open
    range around zero. -/
structure Wraps (bits : Nat) (x d : Int) : Prop where
  low : -2 ^ (bits - 1) ≤ d
  high : d < 2 ^ (bits - 1)
  modEq : d ≡ x [ZMOD 2 ^ bits]

theorem wraps_iff_bmod {bits : Nat} (hpos : 1 ≤ bits) {x d : Int} :
    Wraps bits x d ↔ x.bmod (2 ^ bits) = d := by
  have hmodulus := two_pow_eq_two_mul hpos
  rw [Int.bmod_eq_iff (Nat.two_pow_pos bits), hmodulus]
  have hhalf : (2 * 2 ^ (bits - 1) : Int) / 2 = 2 ^ (bits - 1) := by omega
  have hhalf' : (2 * 2 ^ (bits - 1) + 1 : Int) / 2 = 2 ^ (bits - 1) := by omega
  rw [hhalf, hhalf', ← hmodulus]
  push_cast
  rw [← Int.modEq_iff_dvd]
  exact ⟨fun h => ⟨h.low, h.high, h.modEq.symm⟩, fun h => ⟨h.1, h.2.1, h.2.2.symm⟩⟩

/-- There is a distance just if the difference fits, and it is the difference wrapped around. -/
theorem relativeDistance_eq_ok_iff {bits : Nat} (hpos : 1 ≤ bits) (hbits : bits ≤ 31)
    {a b d : Int} :
    relativeDistance true bits a b = .ok d ↔ DifferenceFits a b ∧ Wraps bits (a - b) d := by
  rw [wraps_iff_bmod hpos]
  constructor
  · intro h
    have hfits : DifferenceFits a b := by
      rw [relativeDistance, if_neg (by simp; omega), bind_eq_ok_iff] at h
      obtain ⟨difference, hdifference, -⟩ := h
      exact (signed_eq_ok_iff.mp hdifference).1
    rw [relativeDistance_eq_bmod hpos hbits hfits.1 hfits.2] at h
    exact ⟨hfits, Except.ok.inj h⟩
  · rintro ⟨⟨hlow, hhigh⟩, rfl⟩
    exact relativeDistance_eq_bmod hpos hbits hlow hhigh

namespace Wraps

variable {bits : Nat} {x y d : Int}

theorem of_modEq (h : Wraps bits x d) (hxy : x ≡ y [ZMOD 2 ^ bits]) : Wraps bits y d :=
  ⟨h.low, h.high, h.modEq.trans hxy⟩

/-- The other way round the distance is the negated one. That of half of the modulus would be out of
    range, and half of the modulus is as far away in both directions. -/
theorem neg (hpos : 1 ≤ bits) (h : Wraps bits x d) :
    Wraps bits (-x) (if d = -2 ^ (bits - 1) then d else -d) := by
  have hlow := h.low
  have hhigh := h.high
  have hdouble : (2 : Int) ^ bits = 2 * 2 ^ (bits - 1) := (mul_pow_sub_one (by omega) 2).symm
  split
  · rename_i hhalf
    have hsame : d ≡ -d [ZMOD 2 ^ bits] := Int.modEq_iff_dvd.mpr ⟨1, by omega⟩
    exact ⟨hlow, hhigh, hsame.trans h.modEq.neg⟩
  · exact ⟨by omega, by omega, h.modEq.neg⟩

end Wraps

end Av1Frames
