import Av1Frames.Proofs.Checked
import Av1Frames.Descriptor.Fixed

namespace Av1Frames.Descriptor

theorem fixed_eq_ok_iff {n value : Nat} {bits : Bits} :
    fixed n value = .ok bits ↔ n ≤ 32 ∧ Bits.ofNat n value = bits := by
  unfold fixed
  split
  · simp
    omega
  · simp
    omega

@[simp]
theorem length_littleEndianBytes (n value : Nat) : (littleEndianBytes n value).length = n := by
  induction n generalizing value with
  | zero => rfl
  | succ n ih => simp [littleEndianBytes, ih]

theorem ofLittleEndianBytes_lt (bytes : Bytes) :
    ofLittleEndianBytes bytes < 256 ^ bytes.length := by
  induction bytes with
  | nil => simp [ofLittleEndianBytes]
  | cons byte bytes ih =>
    have hbyte := byte.toNat_lt
    rw [ofLittleEndianBytes, List.length_cons, Nat.pow_succ]
    omega

/-- A number that fits `n` bytes is the number that they stand for. -/
theorem ofLittleEndianBytes_littleEndianBytes {n value : Nat} (hvalue : value < 256 ^ n) :
    ofLittleEndianBytes (littleEndianBytes n value) = value := by
  induction n generalizing value with
  | zero =>
    rw [Nat.pow_zero] at hvalue
    simp only [littleEndianBytes, ofLittleEndianBytes]
    omega
  | succ n ih =>
    have hquotient : value / 256 < 256 ^ n := by
      rw [Nat.pow_succ] at hvalue
      omega
    rw [littleEndianBytes, ofLittleEndianBytes, ih hquotient, UInt8.toNat_ofNat']
    omega

end Av1Frames.Descriptor
