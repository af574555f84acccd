import Av1Frames.Logarithm
import Av1Frames.Proofs.Checked

namespace Av1Frames

open Checked

theorem tileLog2_eq_ok_iff {size target k : Nat} :
    tileLog2 size target = .ok k ↔
      (k < 32 ∧ target ≤ (size <<< k) % 0x100000000) ∧
        ∀ j < k, (size <<< j) % 0x100000000 < target := by
  unfold tileLog2
  split
  · rename_i least hfind
    rw [List.find?_range_eq_some] at hfind
    obtain ⟨hfits, hk, hless⟩ := hfind
    simp at hfits hk hless
    rw [Except.ok.injEq]
    constructor
    · rintro rfl
      exact ⟨⟨hk, hfits⟩, hless⟩
    · rintro ⟨⟨-, hfits'⟩, hless'⟩
      rcases Nat.lt_trichotomy least k with hlt | heq | hgt
      · have := hless' least hlt
        omega
      · exact heq
      · have := hless k hgt
        omega
  · rename_i hnone
    rw [List.find?_eq_none] at hnone
    simp at hnone ⊢
    intro hk hfits
    have := hnone k hk
    omega

/-- Bits are only lost on the way up. -/
theorem le_of_tileLog2 {size target k : Nat} (h : tileLog2 size target = .ok k) :
    target ≤ size * 2 ^ k := by
  obtain ⟨⟨-, hfits⟩, -⟩ := tileLog2_eq_ok_iff.mp h
  rw [Nat.shiftLeft_eq] at hfits
  exact hfits.trans (Nat.mod_le _ _)

theorem clog_ceilDiv_le_iff {size target k : Nat} (hsize : 0 < size) :
    Nat.clog 2 (target ⌈/⌉ size) ≤ k ↔ target ≤ size * 2 ^ k := by
  rw [Nat.clog_le_iff_le_pow Nat.one_lt_two, ceilDiv_le_iff_le_mul hsize]

/-- A target up to the highest bit is reached without a bit lost. -/
theorem mul_two_pow_clog_lt {size target : Nat} (hpos : 0 < size) (hsize : size < 2 ^ 32)
    (htarget : target ≤ 2 ^ 31) : size * 2 ^ Nat.clog 2 (target ⌈/⌉ size) < 2 ^ 32 := by
  cases hclog : Nat.clog 2 (target ⌈/⌉ size) with
  | zero => rwa [Nat.pow_zero, Nat.mul_one]
  | succ k =>
    have hless : size * 2 ^ k < target := by
      rw [← not_le, ← clog_ceilDiv_le_iff hpos]
      omega
    rw [Nat.pow_succ, ← Nat.mul_assoc]
    omega

/-- The numbers of doublings that are tried: none at first, and one more as long as the doubled
    size, kept in 32 bits, is below the target. -/
inductive DoublingRun (size target : Nat) : Nat → Prop
  | start : DoublingRun size target 0
  | double {k x : Nat} (hrun : DoublingRun size target k) (hx : shiftLeft size k = .ok x)
      (hless : x < target) : DoublingRun size target (k + 1)

namespace DoublingRun

variable {size target j k : Nat}

/-- Whatever was tried before did not reach the target. -/
theorem lt_of_lt (hrun : DoublingRun size target k) (hj : j < k) :
    j < 32 ∧ size <<< j % 0x100000000 < target := by
  induction hrun with
  | start => exact absurd hj (Nat.not_lt_zero j)
  | @double k x hrun hx hless ih =>
    rcases Nat.lt_succ_iff_lt_or_eq.mp hj with hlt | rfl
    · exact ih hlt
    · unfold shiftLeft at hx
      split at hx
      · rename_i hamount
        obtain rfl := Except.ok.inj hx
        exact ⟨hamount, hless⟩
      · cases hx

/-- If the least number that is enough is reached without a bit lost, no shift up to it is too long
    and none loses a bit. -/
theorem shiftLeft_eq_ok (hpos : 0 < size)
    (hlossless : size * 2 ^ Nat.clog 2 (target ⌈/⌉ size) < 2 ^ 32)
    (hk : k ≤ Nat.clog 2 (target ⌈/⌉ size)) : shiftLeft size k = .ok (size * 2 ^ k) := by
  have hlt : size * 2 ^ k < 2 ^ 32 :=
    (Nat.mul_le_mul_left size (Nat.pow_le_pow_right Nat.two_pos hk)).trans_lt hlossless
  have hpow : 2 ^ k < 2 ^ 32 := (Nat.le_mul_of_pos_left _ hpos).trans_lt hlt
  rw [shiftLeft_eq_ok_iff, Nat.mod_eq_of_lt hlt]
  exact ⟨(Nat.pow_lt_pow_iff_right Nat.one_lt_two).mp hpow, rfl⟩

/-- What is tried are then the numbers up to the least one that is enough. -/
theorem iff_le_clog (hpos : 0 < size)
    (hlossless : size * 2 ^ Nat.clog 2 (target ⌈/⌉ size) < 2 ^ 32) :
    DoublingRun size target k ↔ k ≤ Nat.clog 2 (target ⌈/⌉ size) := by
  constructor
  · intro hrun
    induction hrun with
    | start => exact Nat.zero_le _
    | @double k x hrun hx hless ih =>
      -- The shift that was too small is the product, so it is below the least one that is enough.
      rw [shiftLeft_eq_ok hpos hlossless ih] at hx
      obtain rfl := Except.ok.inj hx
      exact not_le.mp fun hle => (clog_ceilDiv_le_iff hpos).mp hle |>.not_gt hless
  · intro hle
    induction k with
    | zero => exact start
    | succ k ih =>
      have hk := Nat.le_of_succ_le hle
      refine (ih hk).double (shiftLeft_eq_ok hpos hlossless hk) ?_
      exact not_le.mp fun henough => hle.not_gt
        (Nat.lt_succ_of_le ((clog_ceilDiv_le_iff hpos).mpr henough))

end DoublingRun

/-- The logarithm is what is tried when the target is reached. -/
theorem tileLog2_eq_ok_iff_run {size target k : Nat} : tileLog2 size target = .ok k ↔
    DoublingRun size target k ∧ ∃ x, shiftLeft size k = .ok x ∧ target ≤ x := by
  have hshift {j : Nat} (hj : j < 32) : shiftLeft size j = .ok (size <<< j % 0x100000000) :=
    if_pos hj
  rw [tileLog2_eq_ok_iff]
  constructor
  · rintro ⟨⟨hk, hfits⟩, hless⟩
    have hrun (j : Nat) (hj : j ≤ k) : DoublingRun size target j := by
      induction j with
      | zero => exact .start
      | succ j ih => exact (ih (by omega)).double (hshift (by omega)) (hless j (by omega))
    exact ⟨hrun k le_rfl, _, hshift hk, hfits⟩
  · rintro ⟨hrun, x, hx, hfits⟩
    obtain ⟨hk, -⟩ := shiftLeft_eq_ok_iff.mp hx
    rw [hshift hk] at hx
    obtain rfl := Except.ok.inj hx
    exact ⟨⟨hk, hfits⟩, fun j hj => (hrun.lt_of_lt hj).2⟩

/-- The logarithm is the least one that is enough, where that is reached without a bit lost. -/
theorem tileLog2_eq_clog {size target : Nat} (hpos : 0 < size)
    (hlossless : size * 2 ^ Nat.clog 2 (target ⌈/⌉ size) < 2 ^ 32) :
    tileLog2 size target = .ok (Nat.clog 2 (target ⌈/⌉ size)) :=
  tileLog2_eq_ok_iff_run.mpr ⟨(DoublingRun.iff_le_clog hpos hlossless).mpr le_rfl, _,
    DoublingRun.shiftLeft_eq_ok hpos hlossless le_rfl, (clog_ceilDiv_le_iff hpos).mp le_rfl⟩

/-- Doublings that are enough without any bit lost are an upper bound. -/
theorem exists_tileLog2_of_le {size target c : Nat} (hpos : 0 < size)
    (hsize : size * 2 ^ c < 2 ^ 32) (hfits : target ≤ size * 2 ^ c) :
    ∃ k, tileLog2 size target = .ok k ∧ k ≤ c := by
  have hle : Nat.clog 2 (target ⌈/⌉ size) ≤ c := (clog_ceilDiv_le_iff hpos).mpr hfits
  have hpow : 2 ^ Nat.clog 2 (target ⌈/⌉ size) ≤ 2 ^ c := Nat.pow_le_pow_right Nat.two_pos hle
  exact ⟨_, tileLog2_eq_clog hpos ((Nat.mul_le_mul_left size hpow).trans_lt hsize), hle⟩

/-- Doubling one is counted by the logarithm that is rounded up. -/
theorem tileLog2_one_eq {n : Nat} (hn : n ≤ 2 ^ 31) : tileLog2 1 n = .ok (Nat.clog 2 n) := by
  rw [tileLog2_eq_clog Nat.one_pos (mul_two_pow_clog_lt Nat.one_pos (by decide) hn), ceilDiv_one]

end Av1Frames
