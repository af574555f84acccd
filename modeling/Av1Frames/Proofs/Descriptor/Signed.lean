import Av1Frames.Proofs.Bits.Decoding
import Av1Frames.Proofs.Bits.Writer
import Av1Frames.Proofs.Descriptor.Fixed
import Av1Frames.Descriptor.Signed

namespace Av1Frames

open Checked

theorem Bits.ofNat_mod (n v : Nat) : ofNat n (v % 2 ^ n) = ofNat n v := by
  have hsplit := ofNat_add_mul le_rfl (Nat.mod_lt v (Nat.two_pow_pos n)) (v / 2 ^ n)
  rwa [Nat.div_add_mod, eq_comm] at hsplit

/-- The code word of a number that is not negative holds its low bits. -/
theorem Descriptor.signed_of_nonneg {n : Nat} {value : Int} (hn : n ≤ 32) (hvalue : 0 ≤ value) :
    Descriptor.signed n value = .ok (Bits.ofNat n (value % 2 ^ n).toNat) := by
  have hlow : (value % 2 ^ n).toNat = value.natAbs % 2 ^ n := by
    obtain ⟨v, rfl⟩ := Int.eq_ofNat_of_zero_le hvalue
    rw [Int.natAbs_natCast]
    exact_mod_cast Int.toNat_natCast _
  rw [Descriptor.signed, if_neg (not_lt.mpr hvalue), hlow, Bits.ofNat_mod]
  exact fixed_eq_ok_iff.mpr ⟨hn, rfl⟩

/-- The code word of a number that is not too far below zero holds its low bits. -/
theorem Descriptor.signed_eq_ok {n : Nat} {value : Int} (hn : n ≤ 30) (hvalue : -2 ^ n ≤ value) :
    Descriptor.signed n value = .ok (Bits.ofNat n (value % 2 ^ n).toNat) := by
  have hpow : (2 : Int) ^ n ≤ 2 ^ 30 := pow_le_pow_right₀ (by decide) hn
  have hpos : (0 : Int) < 2 ^ n := by positivity
  by_cases hnegative : value < 0
  · have hshift : shiftLeftSigned 1 n = .ok (2 ^ n) := by
      rw [shiftLeftSigned, if_pos (by omega), Int.shiftLeft_eq, one_mul,
        wrapSigned_of_range (by omega) (by omega)]
    have hmoved : value % 2 ^ n = value + 2 ^ n := by
      rw [← Int.add_emod_right, Int.emod_eq_of_lt (by omega) (by omega)]
    have hnat : (value + 2 ^ n).natAbs = (value + 2 ^ n).toNat := by omega
    rw [Descriptor.signed, if_pos hnegative, hmoved, ← hnat]
    exact bind_eq_ok_iff.mpr ⟨_, liftM_eq_ok_iff.mpr hshift, bind_eq_ok_iff.mpr
      ⟨_, liftM_eq_ok_iff.mpr (signed_of_range (by omega) (by omega)),
        fixed_eq_ok_iff.mpr ⟨by omega, rfl⟩⟩⟩
  · exact signed_of_nonneg (by omega) (not_lt.mp hnegative)

/-- The power of two that a negative number of 31 bits is to be moved up by does not fit the
    arithmetic, and is kept as the least number instead. -/
theorem Descriptor.signed_widest_of_neg {value : Int} (hvalue : value < 0) :
    Descriptor.signed 31 value = .error (.fault .overflow) := by
  have hshift : shiftLeftSigned 1 31 = .ok (-0x80000000) := rfl
  have hmoved : Checked.signed (value + -0x80000000) = .error .overflow := if_neg (by omega)
  rw [Descriptor.signed, if_pos hvalue, hshift]
  exact bind_eq_error_iff.mpr (.inr ⟨_, rfl, bind_eq_error_iff.mpr
    (.inl (liftM_eq_fault_iff.mpr hmoved))⟩)

/-- A number whose highest bit is not set is read as it is. -/
theorem Read.Decodes.signed_of_low {n position v : Nat} (hn : n ≤ 30) (hv : v < 2 ^ n) :
    Decodes (Read.signed (n + 1)) position (Bits.ofNat (n + 1) v) v := by
  have hdouble : 2 ^ (n + 1) = 2 * 2 ^ n := Nat.pow_succ'
  refine (fixed (by omega) (by omega)).bind_nil ?_
  rw [if_neg (Nat.succ_ne_zero n), Nat.add_sub_cancel, Nat.testBit_lt_two_pow hv,
    if_neg Bool.false_ne_true]
  exact pure

/-- A number is read whose highest bit counts negatively. -/
theorem Read.Decodes.signed {n position v : Nat} (hpos : 1 ≤ n) (hn : n ≤ 30) (hv : v < 2 ^ n) :
    Decodes (Read.signed n) position (Bits.ofNat n v) ((v : Int).bmod (2 ^ n)) := by
  obtain ⟨n, rfl⟩ := Nat.exists_eq_add_of_le' hpos
  have hdouble : 2 ^ (n + 1) = 2 * 2 ^ n := Nat.pow_succ'
  have hpow : 2 ^ (n + 1) ≤ 2 ^ 30 := Nat.pow_le_pow_right (by decide) hn
  rw [Int.bmod_def, Int.emod_eq_of_lt (by omega) (by exact_mod_cast hv)]
  by_cases hlow : v < 2 ^ n
  · rw [if_pos (by omega)]
    exact signed_of_low (by omega) hlow
  · refine (fixed (by omega) hv).bind_nil ?_
    rw [if_neg (Nat.succ_ne_zero n), Nat.add_sub_cancel, Nat.one_shiftLeft,
      Nat.testBit_of_two_pow_le_and_two_pow_add_one_gt (not_lt.mp hlow) hv, if_pos rfl,
      if_neg (by omega)]
    refine checked_bind (signed_of_range (by omega) (by omega)) (checked ?_)
    rw [signed_of_range (by omega) (by omega), hdouble]
    push_cast
    rfl

/-- The low bits of a number are read as the number in range that has them. -/
theorem Read.Decodes.signed_bmod {n position : Nat} (hpos : 1 ≤ n) (hn : n ≤ 30) (value : Int) :
    Decodes (Read.signed n) position (Bits.ofNat n (value % 2 ^ n).toNat)
      (value.bmod (2 ^ n)) := by
  have hmod : 0 ≤ value % 2 ^ n := Int.emod_nonneg value (by positivity)
  have hlt : value % 2 ^ n < 2 ^ n := Int.emod_lt_of_pos value (by positivity)
  have hvalue : (((value % 2 ^ n).toNat : Nat) : Int) = value % ((2 ^ n : Nat) : Int) := by
    rw [Int.toNat_of_nonneg hmod]
    push_cast
    rfl
  have hsigned : Decodes (Read.signed n) position (Bits.ofNat n (value % 2 ^ n).toNat)
      (((value % 2 ^ n).toNat : Int).bmod (2 ^ n)) := signed hpos hn (by zify; omega)
  rwa [hvalue, Int.emod_bmod] at hsigned

/-- A number that `n` bits have room for is read back. -/
theorem Read.Decodes.signed_of_range {n position : Nat} {value : Int} (hpos : 1 ≤ n) (hn : n ≤ 30)
    (hlow : -2 ^ (n - 1) ≤ value) (hhigh : value < 2 ^ (n - 1)) :
    Decodes (Read.signed n) position (Bits.ofNat n (value % 2 ^ n).toNat) value := by
  have hdouble : (2 : Int) ^ n = 2 * 2 ^ (n - 1) := (mul_pow_sub_one (by omega) 2).symm
  have hrange : value.bmod (2 ^ n) = value := by
    apply Int.bmod_eq_of_le <;> push_cast <;> omega
  have hread : Decodes (Read.signed n) position (Bits.ofNat n (value % 2 ^ n).toNat)
      (value.bmod (2 ^ n)) := signed_bmod hpos hn value
  rwa [hrange] at hread

/-- The highest of 31 bits counts for a number that does not fit the arithmetic. The bits have been
    consumed by then. -/
theorem Read.run_signed_widest_of_high {v : Nat} (hhigh : 2 ^ 30 ≤ v) (hv : v < 2 ^ 31)
    (rest : Bits) (position : Nat) :
    (Read.signed 31).run ⟨Bits.ofNat 31 v ++ rest, position⟩ =
      (.error (.fault .overflow), ⟨rest, position + 31⟩) := by
  have hbit : v.testBit (31 - 1) = true :=
    Nat.testBit_of_two_pow_le_and_two_pow_add_one_gt hhigh hv
  have hdoubled : Checked.signed ((2 : Int) * ((1 <<< (31 - 1) : Nat) : Int)) =
      .error .overflow := rfl
  rw [Read.signed, run_bind_of_ok (run_fixed_append (by decide) hv), if_neg (by decide), hbit,
    if_pos rfl, hdoubled]
  rfl

namespace Descriptor

/-- `su(n)` is good for a number: from any position on, the number is written as `n` bits and read
    back from them. -/
def TransmitsSigned (n : Nat) (value : Int) : Prop :=
  ∃ word : Bits, word.length = n ∧ ∀ position,
    Write.Emits (Write.signed n value) position word n ∧
      Read.Decodes (Read.signed n) position word value

variable {n : Nat} {value : Int}

/-- A number is transmitted if it is read back from its low bits, where these are what is
    written. -/
theorem transmitsSigned_of_lowBits
    (hword : Descriptor.signed n value = .ok (Bits.ofNat n (value % 2 ^ n).toNat))
    (hread : ∀ position, Read.Decodes (Read.signed n) position
      (Bits.ofNat n (value % 2 ^ n).toNat) value) : TransmitsSigned n value := by
  refine ⟨_, Bits.length_ofNat n _, fun position => ⟨?_, hread position⟩⟩
  have hemits : Write.Emits (Write.signed n value) position _ _ := .codeWord hword
  rwa [Bits.length_ofNat] at hemits

theorem transmitsSigned_of_le (hpos : 1 ≤ n) (hn : n ≤ 30) (hlow : -2 ^ (n - 1) ≤ value)
    (hhigh : value < 2 ^ (n - 1)) : TransmitsSigned n value := by
  have hdouble : (2 : Int) ^ n = 2 * 2 ^ (n - 1) := (mul_pow_sub_one (by omega) 2).symm
  exact transmitsSigned_of_lowBits (signed_eq_ok hn (by omega))
    fun _ => .signed_of_range hpos hn hlow hhigh

theorem transmitsSigned_widest (hnonneg : 0 ≤ value) (hhigh : value < 2 ^ 30) :
    TransmitsSigned 31 value := by
  refine transmitsSigned_of_lowBits (signed_of_nonneg (by decide) hnonneg) fun position => ?_
  obtain ⟨v, rfl⟩ := Int.eq_ofNat_of_zero_le hnonneg
  have hlow : ((v : Int) % 2 ^ 31).toNat = v := by omega
  rw [hlow]
  exact .signed_of_low (by decide) (by omega)

/-- Where the code word cannot be computed, nothing is written. -/
theorem run_signed_widest_of_neg (hvalue : value < 0) (w : Writer) :
    (Write.signed 31 value).run w = (.error (.fault .overflow), w) := by
  rw [Write.signed, signed_widest_of_neg hvalue]
  rfl

theorem not_transmitsSigned_widest (hvalue : value < 0) : ¬ TransmitsSigned 31 value := by
  rintro ⟨word, -, hword⟩
  have hholds : Writer.Holds { sink := .unbounded } [] := .initial (fun _ _ _ => rfl) rfl
  obtain ⟨w, hrun, -⟩ := (hword 0).1 _ [] rfl hholds
  rw [run_signed_widest_of_neg hvalue] at hrun
  cases hrun

/-- Of up to 30 bits all numbers are transmitted that they have room for, and of 31 bits those that
    are not negative. A negative number of 31 bits overflows when it is written, whatever was
    written before, and its bits overflow when they are read, wherever they are. -/
theorem transmitsSigned_iff (hpos : 1 ≤ n) (hn : n ≤ 31) (hlow : -2 ^ (n - 1) ≤ value)
    (hhigh : value < 2 ^ (n - 1)) :
    (TransmitsSigned n value ↔ (n = 31 → 0 ≤ value)) ∧
      (n = 31 → value < 0 →
        (∀ w, (Write.signed n value).run w = (.error (.fault .overflow), w)) ∧
        ∀ rest position,
          (Read.signed n).run ⟨Bits.ofNat n (value % 2 ^ n).toNat ++ rest, position⟩ =
            (.error (.fault .overflow), ⟨rest, position + n⟩)) := by
  obtain hle | rfl : n ≤ 30 ∨ n = 31 := by omega
  · exact ⟨iff_of_true (transmitsSigned_of_le hpos hle hlow hhigh) (by omega), by omega⟩
  · constructor
    · refine ⟨fun htransmits _ => ?_, fun hnonneg => transmitsSigned_widest (hnonneg rfl) hhigh⟩
      exact not_lt.mp fun hnegative => not_transmitsSigned_widest hnegative htransmits
    · intro _ hnegative
      have hbits : 2 ^ 30 ≤ (value % 2 ^ 31).toNat ∧ (value % 2 ^ 31).toNat < 2 ^ 31 := by omega
      exact ⟨run_signed_widest_of_neg hnegative,
        Read.run_signed_widest_of_high hbits.1 hbits.2⟩

theorem transmitsSigned_iff_widest :
    TransmitsSigned 31 1073741823 ∧ TransmitsSigned 30 (-536870912) ∧
      ¬ TransmitsSigned 31 (-1) ∧
      (Read.signed 31).run ⟨Bits.ofNat 31 2147483647, 0⟩ =
        (.error (.fault .overflow), ⟨[], 31⟩) := by
  have hnegative := @transmitsSigned_iff 31 (-1) (by decide) (by decide) (by decide) (by decide)
  refine ⟨?_, ?_, ?_, ?_⟩
  · exact (transmitsSigned_iff (by decide) (by decide) (by decide) (by decide)).1.mpr
      fun _ => by decide
  · exact (transmitsSigned_iff (by decide) (by decide) (by decide) (by decide)).1.mpr
      fun h => absurd h (by decide)
  · exact fun h => absurd (hnegative.1.mp h rfl) (by decide)
  · exact (hnegative.2 rfl (by decide)).2 [] 0

/-- Not all numbers of 31 bits are transmitted. -/
theorem not_transmitsSigned :
    ¬ ∀ {n : Nat} {value : Int}, 1 ≤ n → n ≤ 31 → -2 ^ (n - 1) ≤ value → value < 2 ^ (n - 1) →
      TransmitsSigned n value := fun h =>
  not_transmitsSigned_widest (show (-1 : Int) < 0 by decide)
    (h (by decide) (by decide) (by decide) (by decide))

end Descriptor

end Av1Frames
