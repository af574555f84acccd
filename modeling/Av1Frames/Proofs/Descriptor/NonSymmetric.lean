import Av1Frames.Proofs.Bits.Consumption
import Av1Frames.Proofs.Bits.PrefixFree
import Av1Frames.Proofs.Descriptor.Fixed
import Av1Frames.Descriptor.NonSymmetric

namespace Av1Frames

open Checked

namespace Descriptor

/-- How many numbers below `n` have a short code word: as many as `n` lacks to the next power of
    two. -/
def shortWords (n : Nat) : Nat := 2 ^ (n.log2 + 1) - n

variable {n v : Nat}

theorem shortWords_add (n : Nat) : shortWords n + n = 2 * 2 ^ n.log2 := by
  have hlt : n < 2 ^ (n.log2 + 1) := Nat.lt_log2_self
  rw [shortWords, Nat.sub_add_cancel hlt.le, Nat.pow_succ']

theorem shortWords_le (hpos : 0 < n) : shortWords n ≤ 2 ^ n.log2 := by
  have hadd := shortWords_add n
  have hle : 2 ^ n.log2 ≤ n := Nat.log2_self_le hpos.ne'
  omega

/-- Long code words are as long as the bound is in binary. -/
theorem nonSymmetricShape_eq_ok (hpos : 0 < n) (hn : n < 2 ^ 31) :
    nonSymmetricShape n = .ok (n.log2 + 1, shortWords n) := by
  have hlog : n.log2 < 31 := (Nat.log2_lt hpos.ne').mpr hn
  have hlt : n < 2 ^ (n.log2 + 1) := Nat.lt_log2_self
  have hpow : 2 ^ (n.log2 + 1) ≤ 2 ^ 31 := Nat.pow_le_pow_right (by decide) hlog
  have hfloor : floorLog2 n = .ok n.log2 := if_neg hpos.ne'
  have hshift : shiftLeft 1 (n.log2 + 1) = .ok (2 ^ (n.log2 + 1)) := by
    rw [shiftLeft, if_pos (by omega), Nat.one_shiftLeft, Nat.mod_eq_of_lt (by omega)]
  have hshort : unsigned ((2 ^ (n.log2 + 1) : Nat) - n) = .ok (shortWords n) :=
    unsigned_eq_ok_iff.mpr (by unfold shortWords; omega)
  unfold nonSymmetricShape
  rw [hfloor, ok_bind]
  dsimp only
  rw [hshift, ok_bind, hshort]
  rfl

theorem nonSymmetric_of_short (hpos : 0 < n) (hn : n < 2 ^ 31) (hv : v < shortWords n) :
    nonSymmetric n v = .ok (Bits.ofNat n.log2 v) := by
  have hlog : n.log2 < 31 := (Nat.log2_lt hpos.ne').mpr hn
  have hle : 2 ^ n.log2 ≤ n := Nat.log2_self_le hpos.ne'
  have hshort := shortWords_le hpos
  unfold nonSymmetric
  rw [if_neg (by omega)]
  refine bind_eq_ok_iff.mpr ⟨_, liftM_eq_ok_iff.mpr (nonSymmetricShape_eq_ok hpos hn), ?_⟩
  dsimp only
  rw [if_pos hv, Nat.add_sub_cancel]
  exact fixed_eq_ok_iff.mpr ⟨by omega, rfl⟩

/-- The numbers with long code words are counted from the first of them, and differ in the last bit
    if they are an even number and the next one. -/
theorem nonSymmetric_of_long {lead : Nat} (hpos : 0 < n) (hn : n < 2 ^ 31)
    (hlead : shortWords n ≤ lead) (hlt : lead < 2 ^ n.log2) (last : Bool) :
    nonSymmetric n (2 * lead - shortWords n + last.toNat) =
      .ok (Bits.ofNat n.log2 lead ++ [last]) := by
  have hlog : n.log2 < 31 := (Nat.log2_lt hpos.ne').mpr hn
  have hadd := shortWords_add n
  have hlast := last.toNat_le
  have hbeyond : 2 * lead - shortWords n + last.toNat - shortWords n =
      2 * (lead - shortWords n) + last.toNat := by omega
  have hhalf : shortWords n + (2 * (lead - shortWords n) + last.toNat) / 2 = lead := by omega
  have hrest : (2 * (lead - shortWords n) + last.toNat) % 2 = last.toNat := by omega
  have hfixed (m value : Nat) (hm : m ≤ 32) : Descriptor.fixed m value = .ok (Bits.ofNat m value) :=
    Descriptor.fixed_eq_ok_iff.mpr ⟨hm, rfl⟩
  have hbit : Bits.ofNat 1 last.toNat = [last] := by cases last <;> rfl
  unfold nonSymmetric
  rw [if_neg (by omega)]
  refine bind_eq_ok_iff.mpr ⟨_, liftM_eq_ok_iff.mpr (nonSymmetricShape_eq_ok hpos hn), ?_⟩
  dsimp only
  rw [if_neg (by omega), Nat.add_sub_cancel, hbeyond, hhalf, hrest, hfixed _ _ (by omega),
    hfixed _ _ (by omega), ok_bind, ok_bind, hbit]
  rfl

theorem exists_long (hv : shortWords n ≤ v) (hlt : v < n) :
    ∃ (lead : Nat) (last : Bool), shortWords n ≤ lead ∧ lead < 2 ^ n.log2 ∧
      v = 2 * lead - shortWords n + last.toNat := by
  have hadd := shortWords_add n
  refine ⟨shortWords n + (v - shortWords n) / 2, (v - shortWords n).testBit 0, by omega, by omega,
    ?_⟩
  rw [Nat.toNat_testBit, Nat.pow_zero, Nat.div_one]
  omega

end Descriptor

open Descriptor

namespace Read

variable {n v : Nat}

/-- Every number below the bound has a code word, which is read back. -/
theorem Decodes.exists_nonSymmetric (hn : n < 2 ^ 31) (hv : v < n) :
    ∃ word, Descriptor.nonSymmetric n v = .ok word ∧
      ∀ position, Decodes (Read.nonSymmetric n) position word v := by
  have hpos : 0 < n := by omega
  have hlog : n.log2 < 31 := (Nat.log2_lt hpos.ne').mpr hn
  have hshape := nonSymmetricShape_eq_ok hpos hn
  rcases Nat.lt_or_ge v (shortWords n) with hshort | hlong
  · have hsmall : v < 2 ^ n.log2 := hshort.trans_le (shortWords_le hpos)
    refine ⟨_, nonSymmetric_of_short hpos hn hshort, fun position => checked_bind hshape ?_⟩
    exact (fixed (n := n.log2) (by omega) hsmall).bind_pure (if_pos hshort)
  · obtain ⟨lead, last, hlead, hlt, rfl⟩ := exists_long hlong hv
    refine ⟨_, nonSymmetric_of_long hpos hn hlead hlt last, fun position =>
      checked_bind hshape ?_⟩
    refine (fixed (n := n.log2) (by omega) hlt).bind ?_
    rw [if_neg (not_lt.mpr hlead)]
    exact bit.bind_pure rfl

/-- Whatever bits are read, they are the code word of a number below the bound. -/
theorem Consumes.nonSymmetric (hpos : 0 < n) (hn : n < 2 ^ 31) :
    Consumes (Read.nonSymmetric n) fun word v =>
      v < n ∧ Descriptor.nonSymmetric n v = .ok word := by
  have hlog : n.log2 < 31 := (Nat.log2_lt hpos.ne').mpr hn
  have hle : 2 ^ n.log2 ≤ n := Nat.log2_self_le hpos.ne'
  have hadd := shortWords_add n
  refine checked_bind (nonSymmetricShape_eq_ok hpos hn) ?_
  refine (fixed (n := n.log2) (by omega)).bind fun word lead hword => ?_
  obtain ⟨hlength, rfl⟩ := hword
  have hlt : Bits.toNat word < 2 ^ n.log2 := hlength ▸ Bits.toNat_lt word
  have hback : Bits.ofNat n.log2 (Bits.toNat word) = word := hlength ▸ Bits.ofNat_toNat word
  split
  · rename_i hshort
    have hcode := nonSymmetric_of_short hpos hn hshort
    rw [hback] at hcode
    exact pure ⟨by omega, (List.append_nil word).symm ▸ hcode⟩
  · rename_i hlong
    refine bit.bind_pure fun _ last hlast => ?_
    have hcode := nonSymmetric_of_long hpos hn (not_lt.mp hlong) hlt last
    have hbit := last.toNat_le
    rw [hback] at hcode
    rw [hlast]
    exact ⟨by omega, hcode⟩

end Read

/-- Which bits are a code word depends on the bound, but none begins another one. -/
theorem Descriptor.prefixFree_nonSymmetric {n : Nat} (hn : n < 2 ^ 31) :
    Bits.PrefixFree fun v word => v < n ∧ Descriptor.nonSymmetric n v = .ok word := by
  refine Bits.PrefixFree.of_decodes (m := Read.nonSymmetric n) ?_
  rintro v word ⟨hv, hword⟩
  obtain ⟨word', hword', hdecodes⟩ := Read.Decodes.exists_nonSymmetric hn hv
  obtain rfl := Except.ok.inj (hword.symm.trans hword')
  exact hdecodes 0

end Av1Frames
