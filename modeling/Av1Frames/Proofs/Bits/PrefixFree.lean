import Av1Frames.Proofs.Bits.Decoding

namespace Av1Frames.Bits

variable {α : Type} {code : α → Bits → Prop}

/-- Words of the code that begin the same bits are words of the same value, and end at the same
    place. -/
def PrefixFree (code : α → Bits → Prop) : Prop :=
  ∀ ⦃a a' : α⦄ ⦃word word' rest rest' : Bits⦄, code a word → code a' word' →
    word ++ rest = word' ++ rest' → a = a' ∧ rest = rest'

/-- Words that can be read back, whatever follows them, cannot be mistaken for each other. -/
theorem PrefixFree.of_decodes {m : Read α}
    (h : ∀ a word, code a word → Read.Decodes m 0 word a) : PrefixFree code := by
  intro a a' word word' rest rest' hword hword' hsame
  have hread := h a word hword rest
  rw [hsame, h a' word' hword' rest'] at hread
  obtain ⟨ha, hrest⟩ := Prod.mk.inj hread
  exact ⟨(Except.ok.inj ha).symm, (Reader.mk.inj hrest).1.symm⟩

theorem prefixFree_ofNat (n : Nat) : PrefixFree fun v word => v < 2 ^ n ∧ ofNat n v = word := by
  rintro v v' word word' rest rest' ⟨hv, rfl⟩ ⟨hv', rfl⟩ hsame
  obtain ⟨hword, hrest⟩ := List.append_inj hsame (by rw [length_ofNat, length_ofNat])
  have hvalue := congrArg toNat hword
  rw [toNat_ofNat_of_lt hv, toNat_ofNat_of_lt hv'] at hvalue
  exact ⟨hvalue, hrest⟩

end Av1Frames.Bits
