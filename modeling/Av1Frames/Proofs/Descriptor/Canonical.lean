import Av1Frames.Proofs.Descriptor.Subexp
import Av1Frames.Proofs.Recentering.Codes

namespace Av1Frames.Read

namespace Consumes

/-- The number that is read relative to a reference is one of its range, and the bits that are read
    are the code word of its code. -/
theorem signedSubexpWithRef {low high r : Int} (hlow : -0x80000000 ≤ low)
    (hhigh : high < 0x80000000) (hspan : high - low ≤ 0x40000000) (hlt : low < high)
    (hr : -0x40000000 ≤ r - low) (hr' : r - low < 0x40000000) :
    Consumes (Read.signedSubexpWithRef low high r) fun word x =>
      (low ≤ x ∧ x < high) ∧ ∃ code : Nat, Recentering.encodeSigned x low high r = .ok code ∧
        (Descriptor.subexp (high - low).toNat code).bits = .ok word := by
  have hcount : high - low = ((high - low).toNat : Int) := by omega
  have hsigned : Checked.signed (high - low) = .ok ((high - low).toNat : Int) :=
    Checked.signed_eq_ok_iff.mpr ⟨by omega, hcount⟩
  refine checked_bind hsigned ((subexp (by omega) (by omega)).bind fun word v hword => ?_)
  obtain ⟨code, rfl, hcode, hbits⟩ := hword
  obtain ⟨x, hx, hdecode⟩ := Recentering.exists_decodeSigned hlow hhigh hspan hr hr'
    (Set.mem_Ico.mpr ⟨Int.natCast_nonneg code, by omega⟩)
  obtain ⟨-, -, hencode⟩ :=
    Recentering.encodeSigned_of_decodeSigned (Int.natCast_nonneg code) (by omega) hdecode
  rw [hdecode]
  exact pure ⟨Set.mem_Ico.mp hx, code, hencode, (List.append_nil word).symm ▸ hbits⟩

end Consumes

/-- Whatever the bits are and wherever reading starts, a read of `ns(n)` or of a subexponential code
    runs out of bits, or delivers a number in range and takes the very bits that are written for it.
    So what is read relative to a reference is in range as well. -/
theorem consumes_written :
    (∀ n, 0 < n → n < 2 ^ 31 →
      Consumes (nonSymmetric n) fun word v =>
        v < n ∧ ∀ position, Write.Emits (Write.nonSymmetric n v) position word word.length) ∧
    (∀ count : Nat, 0 < count → count ≤ 2 ^ 30 →
      Consumes (subexp count) fun word v =>
        ∃ value : Nat, v = value ∧ value < count ∧
          ∀ position, Write.Emits (Write.subexp count value) position word word.length) ∧
    ∀ low high r : Int, -0x80000000 ≤ low → high < 0x80000000 → high - low ≤ 0x40000000 →
      low ≤ r → r < high →
        Consumes (signedSubexpWithRef low high r) fun _ x => low ≤ x ∧ x < high := by
  refine ⟨fun n hpos hn => ?_, fun count hpos hcount => ?_,
    fun low high r hlow hhigh hspan hr hr' => ?_⟩
  · refine (Consumes.nonSymmetric hpos hn).mono fun word v h => ?_
    exact ⟨h.1, fun position => .codeWord h.2⟩
  · refine (Consumes.subexp hpos hcount).mono fun word v h => ?_
    obtain ⟨value, hv, hvalue, hword⟩ := h
    exact ⟨value, hv, hvalue, fun position => .subexp hword⟩
  · refine (Consumes.signedSubexpWithRef hlow hhigh hspan (by omega) (by omega) (by omega)).mono
      fun word x h => ?_
    exact h.1

/-- The greatest bounds, and a range at the lower end of the numbers of 32 bits. -/
theorem consumes_written_widest :
    (0 < 0x7FFFFFFF ∧ 0x7FFFFFFF < 2 ^ 31 ∧
      Consumes (nonSymmetric 0x7FFFFFFF) fun word v => v < 0x7FFFFFFF ∧
        ∀ position, Write.Emits (Write.nonSymmetric 0x7FFFFFFF v) position word word.length) ∧
    (0 < 2 ^ 30 ∧ 2 ^ 30 ≤ 2 ^ 30 ∧
      Consumes (subexp (2 ^ 30 : Nat)) fun word v => ∃ value : Nat, v = value ∧ value < 2 ^ 30 ∧
        ∀ position, Write.Emits (Write.subexp (2 ^ 30) value) position word word.length) ∧
    Consumes (signedSubexpWithRef (-0x80000000) (-0x40000000) (-0x40000001)) fun _ x =>
      -0x80000000 ≤ x ∧ x < -0x40000000 :=
  ⟨⟨by decide, by decide, consumes_written.1 0x7FFFFFFF (by decide) (by decide)⟩,
    ⟨by decide, by decide, consumes_written.2.1 (2 ^ 30) (by decide) (by decide)⟩,
    consumes_written.2.2 _ _ _ (by decide) (by decide) (by decide) (by decide) (by decide)⟩

end Av1Frames.Read
