import Av1Frames.Proofs.Bits.Writer
import Av1Frames.Proofs.Descriptor.NonSymmetric
import Av1Frames.Descriptor.Subexp

namespace Av1Frames

open Checked

namespace Descriptor.Subexp

theorem extent_eq (i : Nat) : extent i = 2 ^ width i := Nat.one_shiftLeft _

/-- The levels follow each other without a gap. -/
theorem offset_succ (i : Nat) : offset (i + 1) = offset i + extent i := by
  cases i with
  | zero => rfl
  | succ i =>
    simp only [offset, extent, width, Nat.one_shiftLeft, Nat.pow_succ]
    omega

/-- From one level to the next, the last symbol count at most doubles. -/
theorem reach_succ_le (i : Nat) : reach (i + 1) ≤ 2 * reach i := by
  cases i with
  | zero => decide
  | succ i =>
    simp only [reach, offset, extent, width, Nat.one_shiftLeft, Nat.pow_succ]
    omega

/-- A level is the first, or was reached because the one before it is not the last. -/
def Reached (count i : Nat) : Prop := ∀ j, i = j + 1 → reach j < count

variable {count value i : Nat}

theorem reached_zero : Reached count 0 := nofun

theorem reached_succ (h : reach i < count) : Reached count (i + 1) := by
  rintro j hj
  obtain rfl := Nat.succ.inj hj
  exact h

theorem Reached.offset_lt (h : Reached count i) (hcount : 0 < count) : offset i < count := by
  cases i with
  | zero => exact hcount
  | succ j =>
    have hreach := h j rfl
    rw [offset_succ]
    unfold reach at hreach
    omega

theorem Reached.reach_lt (h : Reached count i) (hcount : count ≤ 2 ^ 30) :
    reach i < 0x80000000 := by
  cases i with
  | zero => decide
  | succ j =>
    have hreach := h j rfl
    have hdouble := reach_succ_le j
    omega

theorem Reached.width_lt (h : Reached count i) (hcount : count ≤ 2 ^ 30) : width i < 31 := by
  have hreach := h.reach_lt hcount
  rw [← Nat.pow_lt_pow_iff_right (a := 2) (by decide), ← extent_eq]
  unfold reach at hreach
  omega

/-- At the last level all that is left is written at once. -/
theorem codeWordFrom_last (hreach : reach i < 0x80000000) (hlast : count ≤ reach i)
    (hlow : offset i ≤ value) (hvalue : value < count) :
    codeWordFrom count value i =
      { escapes := i, tail := Descriptor.nonSymmetric (count - offset i) (value - offset i) } := by
  have hrest : unsigned ((value : Int) - offset i) = .ok (value - offset i) :=
    unsigned_eq_ok_iff.mpr (by unfold reach at *; omega)
  rw [codeWordFrom, dif_pos (hreach.trans (by decide)), if_pos hlast, hrest]
  rfl

theorem codeWordFrom_higher (hreach : reach i < 0x80000000) (hmore : ¬ count ≤ reach i)
    (hhigh : offset (i + 1) ≤ value) :
    codeWordFrom count value i = codeWordFrom count value (i + 1) := by
  rw [offset_succ] at hhigh
  rw [codeWordFrom, dif_pos (hreach.trans (by decide)), if_neg hmore, if_pos hhigh]

theorem codeWordFrom_here (hreach : reach i < 0x80000000) (hmore : ¬ count ≤ reach i)
    (hlow : offset i ≤ value) (hhere : value < offset (i + 1)) (hwidth : width i < 31) :
    codeWordFrom count value i =
      { escapes := i, tail := .ok (false :: Bits.ofNat (width i) (value - offset i)) } := by
  have hoffset := offset_succ i
  have hrest : unsigned ((value : Int) - offset i) = .ok (value - offset i) :=
    unsigned_eq_ok_iff.mpr (by unfold reach at *; omega)
  have hfixed : Descriptor.fixed (width i) (value - offset i) =
      .ok (Bits.ofNat (width i) (value - offset i)) :=
    Descriptor.fixed_eq_ok_iff.mpr ⟨by omega, rfl⟩
  rw [codeWordFrom, dif_pos (hreach.trans (by decide)), if_neg hmore, if_neg (by omega), hrest]
  refine congrArg _ ?_
  change (do return false :: (← Descriptor.fixed (width i) (value - offset i))) = _
  rw [hfixed]
  rfl

end Descriptor.Subexp

open Descriptor.Subexp

namespace Read

variable {count value i : Nat}

theorem subexpFrom_last (hreach : reach i < 0x80000000) (hlast : count ≤ reach i)
    (hlow : offset i ≤ count) :
    subexpFrom count i = do return (← nonSymmetric (count - offset i)) + offset i := by
  have hwrap : wrapUnsigned ((count : Int) - offset i) = count - offset i := by
    unfold wrapUnsigned
    unfold reach at *
    omega
  rw [subexpFrom, dif_pos hreach, if_pos (by exact_mod_cast hlast), hwrap]

theorem subexpFrom_more (hreach : reach i < 0x80000000) (hmore : ¬ count ≤ reach i) :
    subexpFrom count i = do
      if ← bit then
        subexpFrom count (i + 1)
      else
        return (← fixed (width i)) + offset i := by
  rw [subexpFrom, dif_pos hreach, if_neg (by exact_mod_cast hmore)]

/-- From a level on, every number that is not below it has a code word, which is read back. The bits
    that lead to the level itself come before. -/
theorem Decodes.exists_subexpFrom (hcount : count ≤ 2 ^ 30) (hvalue : value < count)
    (hreached : Reached count i) (hoffset : offset i ≤ value) :
    ∃ tail, (codeWordFrom count value i).tail = .ok tail ∧
      i ≤ (codeWordFrom count value i).escapes ∧
      ∀ position, Decodes (subexpFrom count i) position
        (List.replicate ((codeWordFrom count value i).escapes - i) true ++ tail) (value : Int) := by
  induction i using subexpFrom.induct (count : Int) with
  | case1 i hreach hlast =>
    rw [Nat.cast_le] at hlast
    rw [codeWordFrom_last hreach hlast hoffset hvalue,
      subexpFrom_last hreach hlast (hoffset.trans hvalue.le), Nat.sub_self]
    obtain ⟨tail, htail, hread⟩ := exists_nonSymmetric
      (n := count - offset i) (v := value - offset i) (by omega) (by omega)
    exact ⟨tail, htail, le_rfl, fun position =>
      (hread position).bind_pure (congrArg Pure.pure (by omega))⟩
  | case2 i hreach hmore ih =>
    rw [Nat.cast_le] at hmore
    rw [subexpFrom_more hreach hmore]
    rcases Nat.lt_or_ge value (offset (i + 1)) with hhere | hhigher
    · have hwidth := hreached.width_lt hcount
      have hbits : value - offset i < 2 ^ width i := by
        rw [← extent_eq]
        rw [offset_succ] at hhere
        omega
      rw [codeWordFrom_here hreach hmore hoffset hhere hwidth, Nat.sub_self]
      refine ⟨_, rfl, le_rfl, fun position => bit.bind ?_⟩
      rw [if_neg Bool.false_ne_true]
      exact (fixed hwidth.le hbits).bind_pure (congrArg Pure.pure (by omega))
    · rw [codeWordFrom_higher hreach hmore hhigher]
      obtain ⟨tail, htail, hescapes, hread⟩ := ih (reached_succ (not_le.mp hmore)) hhigher
      have hbits : (codeWordFrom count value (i + 1)).escapes - i =
          (codeWordFrom count value (i + 1)).escapes - (i + 1) + 1 := by omega
      refine ⟨tail, htail, Nat.le_of_succ_le hescapes, fun position => ?_⟩
      rw [hbits]
      refine bit.bind ?_
      rw [if_pos rfl]
      exact hread _
  | case3 i hbound => exact absurd (hreached.reach_lt hcount) hbound

/-- Every number below a count of symbols has a code word, which is read back. -/
theorem Decodes.exists_subexp (hcount : count ≤ 2 ^ 30) (hvalue : value < count) :
    ∃ word, (Descriptor.subexp count value).bits = .ok word ∧
      ∀ position, Decodes (subexp count) position word (value : Int) := by
  obtain ⟨tail, htail, -, hread⟩ :=
    exists_subexpFrom hcount hvalue reached_zero (Nat.zero_le value)
  refine ⟨_, bind_eq_ok_iff.mpr ⟨tail, htail, rfl⟩, hread⟩

/-- From a level on, whatever bits are read are the code word of a number that is not below the
    level. The bits that lead to the level itself came before. -/
theorem Consumes.subexpFrom (hpos : 0 < count) (hcount : count ≤ 2 ^ 30)
    (hreached : Reached count i) :
    Consumes (subexpFrom count i) fun word v =>
      ∃ value : Nat, v = value ∧ offset i ≤ value ∧ value < count ∧
        ∃ tail, (codeWordFrom count value i).tail = .ok tail ∧
          i ≤ (codeWordFrom count value i).escapes ∧
          word = List.replicate ((codeWordFrom count value i).escapes - i) true ++ tail := by
  induction i using Read.subexpFrom.induct (count : Int) with
  | case1 i hreach hlast =>
    rw [Nat.cast_le] at hlast
    have hlow := hreached.offset_lt hpos
    rw [subexpFrom_last hreach hlast hlow.le]
    refine (nonSymmetric (n := count - offset i) (by omega) (by omega)).bind_pure
      fun word left hword => ?_
    obtain ⟨hlt, hcode⟩ := hword
    refine ⟨left + offset i, (Nat.cast_add left _).symm, Nat.le_add_left _ _, by omega, word, ?_⟩
    rw [codeWordFrom_last hreach hlast (by omega) (by omega), Nat.add_sub_cancel, Nat.sub_self]
    exact ⟨hcode, le_rfl, rfl⟩
  | case2 i hreach hmore ih =>
    rw [Nat.cast_le] at hmore
    rw [subexpFrom_more hreach hmore]
    refine bit.bind fun word more hword => ?_
    subst hword
    cases more with
    | true =>
      rw [if_pos rfl]
      refine (ih (reached_succ (not_le.mp hmore))).mono fun word v h => ?_
      obtain ⟨value, hv, hhigher, hvalue, tail, htail, hescapes, rfl⟩ := h
      have hbits : (codeWordFrom count value (i + 1)).escapes - i =
          (codeWordFrom count value (i + 1)).escapes - (i + 1) + 1 := by omega
      have hoffset := offset_succ i
      refine ⟨value, hv, by omega, hvalue, tail, ?_⟩
      rw [codeWordFrom_higher hreach hmore hhigher, hbits]
      exact ⟨htail, by omega, rfl⟩
    | false =>
      have hwidth := hreached.width_lt hcount
      rw [if_neg Bool.false_ne_true]
      refine (fixed hwidth.le).bind_pure fun word left hword => ?_
      obtain ⟨hlength, rfl⟩ := hword
      have hlt : Bits.toNat word < extent i := extent_eq i ▸ hlength ▸ Bits.toNat_lt word
      have hback : Bits.ofNat (width i) (Bits.toNat word) = word := hlength ▸ Bits.ofNat_toNat word
      have hoffset := offset_succ i
      have hvalue : Bits.toNat word + offset i < count := by
        unfold reach at hmore
        omega
      refine ⟨Bits.toNat word + offset i, (Nat.cast_add _ _).symm, by omega, hvalue,
        false :: word, ?_⟩
      rw [codeWordFrom_here hreach hmore (by omega) (by omega) hwidth, Nat.add_sub_cancel, hback,
        Nat.sub_self]
      exact ⟨rfl, le_rfl, rfl⟩
  | case3 i hbound => exact absurd (hreached.reach_lt hcount) hbound

/-- Whatever bits are read, they are the code word of a number below the count of symbols. -/
theorem Consumes.subexp (hpos : 0 < count) (hcount : count ≤ 2 ^ 30) :
    Consumes (subexp count) fun word v =>
      ∃ value : Nat, v = value ∧ value < count ∧
        (Descriptor.subexp count value).bits = .ok word := by
  refine (subexpFrom hpos hcount reached_zero).mono fun word v h => ?_
  obtain ⟨value, hv, -, hvalue, tail, htail, -, rfl⟩ := h
  exact ⟨value, hv, hvalue, bind_eq_ok_iff.mpr ⟨tail, htail, rfl⟩⟩

end Read

theorem Write.Emits.subexp {count value position : Nat} {word : Bits}
    (hword : (Descriptor.subexp count value).bits = .ok word) :
    Emits (Write.subexp count value) position word word.length := by
  obtain ⟨tail, htail, hbits⟩ := bind_eq_ok_iff.mp hword
  obtain rfl := Except.ok.inj hbits
  unfold Write.subexp
  refine (bits _).bind ?_
  rw [htail]
  refine (bits tail).bind_pure (congrArg Pure.pure ?_)
  rw [List.length_append, List.length_replicate]

end Av1Frames
