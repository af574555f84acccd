import Av1Frames.Recentering
import Av1Frames.Proofs.Checked

namespace Av1Frames.Recentering

open Checked

/-- A code made around a reference leads back to its number. Numbers below zero have none: their
    distance to the reference can exceed the reference, where codes no longer alternate. -/
theorem inverseRecenter_of_recenter {r v code : Int} (hv : 0 ≤ v)
    (hcode : recenter r v = .ok code) : inverseRecenter r code = .ok v := by
  unfold recenter at hcode
  rw [bind_eq_ok_iff] at hcode
  obtain ⟨twice, htwice, hcode⟩ := hcode
  unfold inverseRecenter
  rw [htwice, ok_bind]
  obtain ⟨⟨hlow, hhigh⟩, rfl⟩ := signed_eq_ok_iff.mp htwice
  by_cases hfar : 2 * r < v
  · rw [if_pos hfar] at hcode
    obtain rfl : v = code := Except.ok.inj hcode
    rw [if_pos hfar]
    rfl
  · rw [if_neg hfar] at hcode
    by_cases habove : r ≤ v
    · rw [if_pos habove, bind_eq_ok_iff] at hcode
      obtain ⟨distance, hdistance, hcode⟩ := hcode
      obtain ⟨_, rfl⟩ := signed_eq_ok_iff.mp hdistance
      rw [wrapSigned_of_range (by omega) (by omega)] at hcode
      obtain rfl : 2 * (v - r) = code := Except.ok.inj hcode
      have hmiddle : r + 2 * (v - r) / 2 = v := by omega
      rw [if_neg (by omega), if_neg (by omega), hmiddle]
      exact signed_of_range (by omega) (by omega)
    · rw [if_neg habove, bind_eq_ok_iff] at hcode
      obtain ⟨distance, hdistance, hcode⟩ := hcode
      obtain ⟨_, rfl⟩ := signed_eq_ok_iff.mp hdistance
      rw [wrapSigned_of_range (by omega) (by omega)] at hcode
      obtain ⟨_, rfl⟩ := signed_eq_ok_iff.mp hcode
      have hmiddle : r - (2 * (r - v) - 1 + 1) / 2 = v := by omega
      rw [if_neg (by omega), if_pos (by omega), signed_of_range (by omega) (by omega), ok_bind,
        hmiddle]
      exact signed_of_range (by omega) (by omega)

/-- Both sides count a reference in the upper half from the upper end, so they fold alike. -/
theorem decodeUnsigned_of_encodeUnsigned {x mx r code : Int} (hx : 0 ≤ x) (hmx : x < mx)
    (hcode : encodeUnsigned x mx r = .ok code) : decodeUnsigned code mx r = .ok x := by
  unfold encodeUnsigned at hcode
  unfold decodeUnsigned
  by_cases hlower : wrapSigned (2 * r) ≤ mx
  · rw [if_pos hlower] at hcode ⊢
    exact inverseRecenter_of_recenter hx hcode
  · rw [if_neg hlower] at hcode ⊢
    rw [bind_eq_ok_iff] at hcode
    obtain ⟨top, htop, hcode⟩ := hcode
    rw [htop, ok_bind]
    obtain ⟨_, rfl⟩ := signed_eq_ok_iff.mp htop
    rw [bind_eq_ok_iff] at hcode
    obtain ⟨fromTop, hfromTop, hcode⟩ := hcode
    rw [bind_eq_ok_iff] at hcode
    obtain ⟨number, hnumber, hcode⟩ := hcode
    obtain ⟨_, rfl⟩ := signed_eq_ok_iff.mp hnumber
    rw [hfromTop, ok_bind, inverseRecenter_of_recenter (by omega) hcode, ok_bind]
    have hback : mx - 1 - (mx - 1 - x) = x := by omega
    rw [hback]
    exact signed_of_range (by omega) (by omega)

/-- Decoding undoes coding wherever coding succeeds. The bounds and the reference may be anything:
    what could overflow on the way back already did on the way out. -/
theorem decodeSigned_of_encodeSigned {x low high r code : Int}
    (hlow : low ≤ x) (hhigh : x < high) (hx : signed x = .ok x)
    (hcode : encodeSigned x low high r = .ok code) : decodeSigned code low high r = .ok x := by
  unfold encodeSigned at hcode
  rw [bind_eq_ok_iff] at hcode
  obtain ⟨offset, hoffset, hcode⟩ := hcode
  rw [bind_eq_ok_iff] at hcode
  obtain ⟨span, hspan, hcode⟩ := hcode
  rw [bind_eq_ok_iff] at hcode
  obtain ⟨reference, hreference, hcode⟩ := hcode
  unfold decodeSigned
  rw [hspan, ok_bind, hreference, ok_bind]
  obtain ⟨_, rfl⟩ := signed_eq_ok_iff.mp hoffset
  obtain ⟨_, rfl⟩ := signed_eq_ok_iff.mp hspan
  rw [decodeUnsigned_of_encodeUnsigned (by omega) (by omega) hcode, ok_bind, Int.sub_add_cancel]
  exact hx

/-- The number with code `v` around `r`, for numbers of any width. -/
def Exact.inverseRecenter (r v : Int) : Int :=
  if 2 * r < v then v else if v % 2 ≠ 0 then r - (v + 1) / 2 else r + v / 2

/-- The number of `0 .. mx - 1` that `code` stands for, for numbers of any width. -/
def Exact.decodeUnsigned (code mx r : Int) : Int :=
  if 2 * r ≤ mx then inverseRecenter r code else mx - 1 - inverseRecenter (mx - 1 - r) code

/-- The number of `low .. high - 1` that `code` stands for, for numbers of any width. -/
def Exact.decodeSigned (code low high r : Int) : Int :=
  decodeUnsigned code (high - low) (r - low) + low

/-- Codes below `mx` around a reference in the lower half stand for numbers below `mx`. -/
theorem Exact.inverseRecenter_mem {r v mx : Int} (hmx : 2 * r ≤ mx) (hv : 0 ≤ v) (hlt : v < mx) :
    0 ≤ inverseRecenter r v ∧ inverseRecenter r v < mx := by
  unfold inverseRecenter
  split_ifs <;> omega

theorem inverseRecenter_eq_exact {r v : Int} (hr : -0x40000000 ≤ r) (hr' : r < 0x40000000)
    (hv : 0 ≤ v) (hv' : v < 0x40000000) :
    inverseRecenter r v = .ok (Exact.inverseRecenter r v) := by
  unfold inverseRecenter Exact.inverseRecenter
  rw [signed_of_range (by omega) (by omega), ok_bind]
  split_ifs
  · rfl
  · rw [signed_of_range (by omega) (by omega), ok_bind, signed_of_range (by omega) (by omega)]
  · exact signed_of_range (by omega) (by omega)

/-- Whatever the reference is, each code below `mx` stands for a number below `mx`. -/
theorem Exact.decodeUnsigned_mem {code mx : Int} (hcode : 0 ≤ code) (hlt : code < mx) (r : Int) :
    0 ≤ decodeUnsigned code mx r ∧ decodeUnsigned code mx r < mx := by
  unfold decodeUnsigned
  split
  · exact inverseRecenter_mem ‹_› hcode hlt
  · have hmirrored : _ ∧ inverseRecenter (mx - 1 - r) code < mx :=
      inverseRecenter_mem (by omega) hcode hlt
    omega

/-- Around a reference that is not too far away, machine arithmetic is exact: the double of the
    reference does not wrap around. -/
theorem decodeUnsigned_eq_exact {code mx r : Int} (hcode : 0 ≤ code) (hlt : code < mx)
    (hr : -0x40000000 ≤ r) (hr' : r < 0x40000000) (hmx : mx ≤ 0x40000000) :
    decodeUnsigned code mx r = .ok (Exact.decodeUnsigned code mx r) := by
  have hmem := Exact.decodeUnsigned_mem hcode hlt r
  unfold Exact.decodeUnsigned at hmem ⊢
  unfold decodeUnsigned
  rw [wrapSigned_of_range (by omega) (by omega)]
  split_ifs at hmem ⊢
  · exact inverseRecenter_eq_exact hr hr' hcode (by omega)
  · rw [signed_of_range (by omega) (by omega), ok_bind, signed_of_range (by omega) (by omega),
      ok_bind, inverseRecenter_eq_exact (by omega) (by omega) hcode (by omega), ok_bind]
    exact signed_of_range (by omega) (by omega)

theorem Exact.decodeSigned_mem {code low high : Int} (hcode : 0 ≤ code) (hlt : code < high - low)
    (r : Int) : low ≤ decodeSigned code low high r ∧ decodeSigned code low high r < high := by
  have hmem := decodeUnsigned_mem hcode hlt (r - low)
  unfold decodeSigned
  omega

theorem decodeSigned_eq_exact {code low high r : Int} (hcode : 0 ≤ code)
    (hlt : code < high - low) (hlow : -0x80000000 ≤ low) (hhigh : high ≤ 0x80000000)
    (hspan : high - low ≤ 0x40000000) (hr : -0x40000000 ≤ r - low) (hr' : r - low < 0x40000000) :
    decodeSigned code low high r = .ok (Exact.decodeSigned code low high r) := by
  have hmem := Exact.decodeSigned_mem hcode hlt r
  unfold Exact.decodeSigned at hmem ⊢
  unfold decodeSigned
  rw [signed_of_range (by omega) (by omega), ok_bind, signed_of_range (by omega) (by omega),
    ok_bind, decodeUnsigned_eq_exact hcode hlt hr hr' hspan, ok_bind]
  exact signed_of_range (by omega) (by omega)

/-- A reference that is not counted from the lower end is in the lower half when it is counted from
    the upper end, also if it is so far away that its double wraps around. -/
theorem mirrored_le {mx r twice : Int} (hmx : 0 ≤ mx) (hmx' : mx ≤ 0x80000000)
    (hupper : ¬ wrapSigned (2 * r) ≤ mx) (htwice : signed (2 * (mx - 1 - r)) = .ok twice) :
    2 * (mx - 1 - r) ≤ mx := by
  obtain ⟨⟨hlow, hhigh⟩, -⟩ := signed_eq_ok_iff.mp htwice
  by_cases hwraps : 2 * r < 0x80000000
  · rw [wrapSigned_of_range (by omega) hwraps] at hupper
    omega
  · omega

/-- A code around a reference in the lower half is below the same bound as the number. -/
theorem recenter_mem {r v mx code : Int} (hmx : 2 * r ≤ mx) (hv : 0 ≤ v) (hlt : v < mx)
    (hcode : recenter r v = .ok code) : 0 ≤ code ∧ code < mx := by
  unfold recenter at hcode
  rw [bind_eq_ok_iff] at hcode
  obtain ⟨twice, htwice, hcode⟩ := hcode
  obtain ⟨⟨hlow, hhigh⟩, rfl⟩ := signed_eq_ok_iff.mp htwice
  split at hcode
  · obtain rfl : v = code := Except.ok.inj hcode
    exact ⟨hv, hlt⟩
  · split at hcode
    · rw [bind_eq_ok_iff] at hcode
      obtain ⟨distance, hdistance, hcode⟩ := hcode
      obtain ⟨_, rfl⟩ := signed_eq_ok_iff.mp hdistance
      rw [wrapSigned_of_range (by omega) (by omega)] at hcode
      obtain rfl : 2 * (v - r) = code := Except.ok.inj hcode
      omega
    · rw [bind_eq_ok_iff] at hcode
      obtain ⟨distance, hdistance, hcode⟩ := hcode
      obtain ⟨_, rfl⟩ := signed_eq_ok_iff.mp hdistance
      rw [wrapSigned_of_range (by omega) (by omega)] at hcode
      obtain ⟨_, rfl⟩ := signed_eq_ok_iff.mp hcode
      omega

/-- The number that a code stands for has that code. -/
theorem recenter_of_inverseRecenter {r v mx code : Int} (hmx : 2 * r ≤ mx) (hcode : 0 ≤ code)
    (hlt : code < mx) (hv : inverseRecenter r code = .ok v) :
    0 ≤ v ∧ v < mx ∧ recenter r v = .ok code := by
  unfold inverseRecenter at hv
  rw [bind_eq_ok_iff] at hv
  obtain ⟨twice, htwice, hv⟩ := hv
  unfold recenter
  rw [htwice, ok_bind]
  obtain ⟨⟨hlow, hhigh⟩, rfl⟩ := signed_eq_ok_iff.mp htwice
  by_cases hfar : 2 * r < code
  · rw [if_pos hfar] at hv
    obtain rfl : code = v := Except.ok.inj hv
    exact ⟨hcode, hlt, if_pos hfar⟩
  · rw [if_neg hfar] at hv
    by_cases hodd : code % 2 ≠ 0
    · rw [if_pos hodd, bind_eq_ok_iff] at hv
      obtain ⟨next, hnext, hv⟩ := hv
      obtain ⟨_, rfl⟩ := signed_eq_ok_iff.mp hnext
      obtain ⟨_, rfl⟩ := signed_eq_ok_iff.mp hv
      have hdistance : r - (r - (code + 1) / 2) = (code + 1) / 2 := by omega
      have hdouble : 2 * ((code + 1) / 2) - 1 = code := by omega
      refine ⟨by omega, by omega, ?_⟩
      rw [if_neg (by omega), if_neg (by omega), hdistance, signed_of_range (by omega) (by omega),
        ok_bind, wrapSigned_of_range (by omega) (by omega), hdouble]
      exact signed_of_range (by omega) (by omega)
    · rw [if_neg hodd] at hv
      obtain ⟨_, rfl⟩ := signed_eq_ok_iff.mp hv
      have hdistance : r + code / 2 - r = code / 2 := by omega
      have hdouble : 2 * (code / 2) = code := by omega
      refine ⟨by omega, by omega, ?_⟩
      rw [if_neg (by omega), if_pos (by omega), hdistance, signed_of_range (by omega) (by omega),
        ok_bind, wrapSigned_of_range (by omega) (by omega), hdouble]
      rfl

/-- A code is below the bound of the numbers, wherever the reference lies. -/
theorem encodeUnsigned_mem {x mx r code : Int} (hx : 0 ≤ x) (hmx : x < mx)
    (hcode : encodeUnsigned x mx r = .ok code) : 0 ≤ code ∧ code < mx := by
  unfold encodeUnsigned at hcode
  split at hcode
  · rename_i hlower
    refine recenter_mem ?_ hx hmx hcode
    unfold recenter at hcode
    obtain ⟨_, htwice, -⟩ := bind_eq_ok_iff.mp hcode
    obtain ⟨⟨hlow, hhigh⟩, -⟩ := signed_eq_ok_iff.mp htwice
    rwa [wrapSigned_of_range hlow hhigh] at hlower
  · rename_i hupper
    rw [bind_eq_ok_iff] at hcode
    obtain ⟨top, htop, hcode⟩ := hcode
    obtain ⟨_, rfl⟩ := signed_eq_ok_iff.mp htop
    rw [bind_eq_ok_iff] at hcode
    obtain ⟨fromTop, hfromTop, hcode⟩ := hcode
    obtain ⟨_, rfl⟩ := signed_eq_ok_iff.mp hfromTop
    rw [bind_eq_ok_iff] at hcode
    obtain ⟨number, hnumber, hcode⟩ := hcode
    obtain ⟨_, rfl⟩ := signed_eq_ok_iff.mp hnumber
    refine recenter_mem ?_ (by omega) (by omega) hcode
    unfold recenter at hcode
    obtain ⟨_, htwice, -⟩ := bind_eq_ok_iff.mp hcode
    exact mirrored_le (by omega) (by omega) hupper htwice

/-- Both sides count a reference in the upper half from the upper end, so coding undoes decoding as
    well. -/
theorem encodeUnsigned_of_decodeUnsigned {x mx r code : Int} (hcode : 0 ≤ code) (hlt : code < mx)
    (hx : decodeUnsigned code mx r = .ok x) :
    0 ≤ x ∧ x < mx ∧ encodeUnsigned x mx r = .ok code := by
  unfold decodeUnsigned at hx
  unfold encodeUnsigned
  split at hx
  · rename_i hlower
    rw [if_pos hlower]
    refine recenter_of_inverseRecenter ?_ hcode hlt hx
    unfold inverseRecenter at hx
    obtain ⟨_, htwice, -⟩ := bind_eq_ok_iff.mp hx
    obtain ⟨⟨hlow, hhigh⟩, -⟩ := signed_eq_ok_iff.mp htwice
    rwa [wrapSigned_of_range hlow hhigh] at hlower
  · rename_i hupper
    rw [if_neg hupper]
    rw [bind_eq_ok_iff] at hx
    obtain ⟨top, htop, hx⟩ := hx
    rw [htop, ok_bind]
    obtain ⟨_, rfl⟩ := signed_eq_ok_iff.mp htop
    rw [bind_eq_ok_iff] at hx
    obtain ⟨fromTop, hfromTop, hx⟩ := hx
    rw [hfromTop, ok_bind]
    obtain ⟨_, rfl⟩ := signed_eq_ok_iff.mp hfromTop
    rw [bind_eq_ok_iff] at hx
    obtain ⟨number, hnumber, hx⟩ := hx
    obtain ⟨_, rfl⟩ := signed_eq_ok_iff.mp hx
    have hlower : 2 * (mx - 1 - r) ≤ mx := by
      unfold inverseRecenter at hnumber
      obtain ⟨_, htwice, -⟩ := bind_eq_ok_iff.mp hnumber
      exact mirrored_le (by omega) (by omega) hupper htwice
    obtain ⟨hpos, hbound, hrecenter⟩ := recenter_of_inverseRecenter hlower hcode hlt hnumber
    have hback : mx - 1 - (mx - 1 - number) = number := by omega
    refine ⟨by omega, by omega, ?_⟩
    rw [hback, signed_of_range (by omega) (by omega), ok_bind, hrecenter]

/-- The codes of numbers in a range are as many as the numbers. -/
theorem encodeSigned_mem {x low high r code : Int} (hlow : low ≤ x) (hhigh : x < high)
    (hcode : encodeSigned x low high r = .ok code) : 0 ≤ code ∧ code < high - low := by
  unfold encodeSigned at hcode
  rw [bind_eq_ok_iff] at hcode
  obtain ⟨offset, hoffset, hcode⟩ := hcode
  rw [bind_eq_ok_iff] at hcode
  obtain ⟨span, hspan, hcode⟩ := hcode
  rw [bind_eq_ok_iff] at hcode
  obtain ⟨reference, hreference, hcode⟩ := hcode
  obtain ⟨_, rfl⟩ := signed_eq_ok_iff.mp hoffset
  obtain ⟨_, rfl⟩ := signed_eq_ok_iff.mp hspan
  exact encodeUnsigned_mem (by omega) (by omega) hcode

/-- Coding undoes decoding wherever decoding succeeds. -/
theorem encodeSigned_of_decodeSigned {x low high r code : Int} (hcode : 0 ≤ code)
    (hlt : code < high - low) (hx : decodeSigned code low high r = .ok x) :
    low ≤ x ∧ x < high ∧ encodeSigned x low high r = .ok code := by
  unfold decodeSigned at hx
  rw [bind_eq_ok_iff] at hx
  obtain ⟨span, hspan, hx⟩ := hx
  rw [bind_eq_ok_iff] at hx
  obtain ⟨reference, hreference, hx⟩ := hx
  rw [bind_eq_ok_iff] at hx
  obtain ⟨offset, hoffset, hx⟩ := hx
  unfold encodeSigned
  rw [hspan, hreference]
  obtain ⟨_, rfl⟩ := signed_eq_ok_iff.mp hspan
  obtain ⟨_, rfl⟩ := signed_eq_ok_iff.mp hx
  obtain ⟨hpos, hbound, hencode⟩ := encodeUnsigned_of_decodeUnsigned hcode hlt hoffset
  refine ⟨by omega, by omega, ?_⟩
  rw [Int.add_sub_cancel, signed_of_range (by omega) (by omega), ok_bind, ok_bind, ok_bind, hencode]

end Av1Frames.Recentering
