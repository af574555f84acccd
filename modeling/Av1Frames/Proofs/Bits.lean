import Mathlib.Tactic
import Av1Frames.Bits

namespace Av1Frames.Bits

@[simp]
theorem length_ofNat (n v : Nat) : (ofNat n v).length = n := by
  induction n with
  | zero => rfl
  | succ n ih => simp [ofNat, ih]

/-- The first bit of a string weighs as much as all strings of the other bits are many. -/
theorem toNat_cons (b : Bool) (bits : Bits) :
    toNat (b :: bits) = b.toNat * 2 ^ bits.length + toNat bits := by
  have hfold (bits : Bits) (v : Nat) : bits.foldl (fun v b => 2 * v + b.toNat) v =
      v * 2 ^ bits.length + toNat bits := by
    induction bits generalizing v with
    | nil => simp [toNat]
    | cons b bits ih =>
      rw [toNat, List.foldl_cons, ih, List.foldl_cons, ih (2 * 0 + b.toNat), List.length_cons]
      ring
  rw [toNat, List.foldl_cons, hfold]
  simp

theorem toNat_lt (bits : Bits) : toNat bits < 2 ^ bits.length := by
  induction bits with
  | nil => simp [toNat]
  | cons b bits ih =>
    rw [toNat_cons, List.length_cons, Nat.pow_succ]
    have hb : b.toNat * 2 ^ bits.length ≤ 2 ^ bits.length :=
      mul_le_of_le_one_left (Nat.zero_le _) (Bool.toNat_le b)
    omega

theorem toNat_ofNat (n v : Nat) : toNat (ofNat n v) = v % 2 ^ n := by
  induction n with
  | zero => simp [ofNat, toNat, Nat.mod_one]
  | succ n ih =>
    rw [ofNat, toNat_cons, ih, length_ofNat, Nat.mod_pow_succ, Nat.toNat_testBit]
    ring

theorem toNat_ofNat_of_lt {n v : Nat} (hv : v < 2 ^ n) : toNat (ofNat n v) = v := by
  rw [toNat_ofNat, Nat.mod_eq_of_lt hv]

/-- The low bits of a number do not depend on what is above them. -/
theorem ofNat_add_mul {n m v : Nat} (hm : n ≤ m) (hv : v < 2 ^ m) (k : Nat) :
    ofNat n (2 ^ m * k + v) = ofNat n v := by
  induction n with
  | zero => rfl
  | succ n ih =>
    rw [ofNat, ofNat, ih (by omega), Nat.testBit_two_pow_mul_add k hv, if_pos (by omega)]

theorem ofNat_toNat (bits : Bits) : ofNat bits.length (toNat bits) = bits := by
  induction bits with
  | nil => rfl
  | cons b bits ih =>
    have hlt := toNat_lt bits
    rw [List.length_cons, ofNat, toNat_cons, Nat.mul_comm, ofNat_add_mul le_rfl hlt, ih,
      Nat.testBit_two_pow_mul_add _ hlt, if_neg (Nat.lt_irrefl _), Nat.sub_self]
    cases b <;> rfl

theorem ofBytes_cons (byte : UInt8) (bytes : Bytes) :
    ofBytes (byte :: bytes) = ofNat 8 byte.toNat ++ ofBytes bytes := rfl

theorem ofBytes_append (a b : Bytes) : ofBytes (a ++ b) = ofBytes a ++ ofBytes b :=
  List.flatMap_append

@[simp]
theorem length_ofBytes (bytes : Bytes) : (ofBytes bytes).length = 8 * bytes.length := by
  induction bytes with
  | nil => rfl
  | cons byte bytes ih =>
    rw [ofBytes_cons, List.length_append, length_ofNat, ih, List.length_cons]
    ring

theorem ofNat_leadingByte (bits : Bits) :
    ofNat 8 (leadingByte bits).toNat = (bits ++ List.replicate 8 false).take 8 := by
  have hlength : ((bits ++ List.replicate 8 false).take 8).length = 8 := by simp
  have hlt := toNat_lt ((bits ++ List.replicate 8 false).take 8)
  rw [hlength] at hlt
  rw [leadingByte, UInt8.toNat_ofNat', Nat.mod_eq_of_lt hlt]
  simpa only [hlength] using ofNat_toNat ((bits ++ List.replicate 8 false).take 8)

/-- The bytes of a bit string hold its bits, and zeros up to the next byte. -/
theorem ofBytes_toBytes (bits : Bits) :
    ofBytes (toBytes bits) = bits ++ List.replicate ((8 - bits.length % 8) % 8) false := by
  induction bits using toBytes.induct with
  | case1 => simp [toBytes, ofBytes]
  | case2 b bits ih =>
    rw [toBytes, ofBytes_cons, ofNat_leadingByte, ih]
    have hdrop : bits.drop 7 = (b :: bits).drop 8 := rfl
    rw [hdrop, List.length_drop]
    rcases Nat.lt_or_ge (b :: bits).length 8 with hshort | hlong
    · have hpad : (8 - (b :: bits).length % 8) % 8 = 8 - (b :: bits).length := by
        rw [List.length_cons] at hshort ⊢
        omega
      rw [List.drop_of_length_le hshort.le, Nat.sub_eq_zero_of_le hshort.le, hpad,
        List.take_append, List.take_of_length_le hshort.le, List.take_replicate,
        Nat.min_eq_left (Nat.sub_le 8 _)]
      exact List.append_nil _
    · have hpad : (8 - ((b :: bits).length - 8) % 8) % 8 = (8 - (b :: bits).length % 8) % 8 := by
        omega
      rw [List.take_append_of_le_length hlong, ← List.append_assoc, List.take_append_drop, hpad]

theorem length_toBytes (bits : Bits) : (toBytes bits).length = (bits.length + 7) / 8 := by
  have h := congrArg List.length (ofBytes_toBytes bits)
  simp only [length_ofBytes, List.length_append, List.length_replicate] at h
  omega

end Av1Frames.Bits
