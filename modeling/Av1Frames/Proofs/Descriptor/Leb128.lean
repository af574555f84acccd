import Mathlib.Data.Nat.Size
import Av1Frames.Proofs.Bits.Decoding
import Av1Frames.Proofs.Bits.Writer
import Av1Frames.Descriptor.Leb128

namespace Av1Frames.Descriptor

theorem size_div_128 (value : Nat) : (value / 128).size = value.size - 7 := by
  refine eq_of_forall_ge_iff fun n => ?_
  have hpow : 2 ^ (n + 7) = 2 ^ n * 128 := Nat.pow_add 2 n 7
  rw [Nat.size_le, Nat.sub_le_iff_le_add, Nat.size_le, hpow, Nat.div_lt_iff_lt_mul (by omega)]

/-- There are as many groups as the bits of the number fill, unless more are asked for. -/
theorem length_leb128Groups {most least value : Nat} (hmost : 0 < most)
    (hvalue : value < 128 ^ most) :
    (leb128Groups most least value).length =
      max (max (value.size ⌈/⌉ 7) 1) (min least most) := by
  induction most generalizing least value with
  | zero => exact absurd hmost (Nat.lt_irrefl 0)
  | succ most ih =>
    have hsize : 7 < value.size ↔ 127 < value := Nat.lt_size
    rw [leb128Groups]
    split
    · rcases Nat.eq_zero_or_pos most with rfl | hpos
      · simp only [Nat.ceilDiv_eq_add_pred_div, leb128Groups, List.length_cons, List.length_nil]
        omega
      · have hquotient : value / 128 < 128 ^ most := by
          rw [Nat.pow_succ] at hvalue
          omega
        rw [List.length_cons, ih hpos hquotient, size_div_128]
        simp only [Nat.ceilDiv_eq_add_pred_div]
        omega
    · simp only [Nat.ceilDiv_eq_add_pred_div, List.length_singleton]
      omega

/-- `leb128()` of a number of 32 bits: as many bytes as its bits need, or as many as are asked for
    up to eight. -/
theorem length_leb128 {value : Nat} (hvalue : value < 0x100000000) (least : Nat) :
    (leb128 value least).length = max (max (value.size ⌈/⌉ 7) 1) (min least 8) :=
  length_leb128Groups (by decide) (hvalue.trans (by decide))

theorem continuedGroup_of_ge {byte : UInt8} (hbyte : 128 ≤ byte.toNat) (high : Nat) :
    continuedGroup (byte.toNat % 128 + 128 * high) = byte := by
  have hlt := byte.toNat_lt
  have hlow : 128 + (byte.toNat % 128 + 128 * high) % 128 = byte.toNat := by omega
  rw [continuedGroup, hlow, UInt8.ofNat_toNat]

theorem finalGroup_of_lt {byte : UInt8} (hbyte : byte.toNat < 128) :
    finalGroup byte.toNat = byte := by
  rw [finalGroup, Nat.mod_eq_of_lt hbyte, UInt8.ofNat_toNat]

end Av1Frames.Descriptor

namespace Av1Frames.Read

/-- Groups that have room for a number give it back, and nothing behind them is read. -/
theorem run_leb128Groups_append {most least value : Nat} (hvalue : value < 128 ^ most)
    {rest : Bits} {position : Nat} (hposition : position % 8 = 0) :
    (leb128Groups most).run
        ⟨Bits.ofBytes (Descriptor.leb128Groups most least value) ++ rest, position⟩ =
      (.ok value, ⟨rest, position + 8 * (Descriptor.leb128Groups most least value).length⟩) := by
  induction most generalizing least value position with
  | zero =>
    obtain rfl : value = 0 := by simpa using hvalue
    rfl
  | succ most ih =>
    rw [Descriptor.leb128Groups]
    split
    · have hquotient : value / 128 < 128 ^ most := by
        rw [Nat.pow_succ] at hvalue
        omega
      have hbyte : (Descriptor.continuedGroup value).toNat = 128 + value % 128 := by
        rw [Descriptor.continuedGroup, UInt8.toNat_ofNat']
        omega
      have hposition' : position + 8 + 8 * (Descriptor.leb128Groups most (least - 1)
          (value / 128)).length =
          position + 8 * ((Descriptor.leb128Groups most (least - 1) (value / 128)).length + 1) := by
        omega
      have hsum : (128 + value % 128) % 128 + 128 * (value / 128) = value := by omega
      rw [Bits.ofBytes_cons, hbyte, List.append_assoc, leb128Groups,
        run_bind_of_ok (run_aligned_append (by omega) (by omega) hposition), if_neg (by omega),
        run_bind_of_ok (ih hquotient (by omega)), List.length_cons, hposition', hsum]
      rfl
    · have hbyte : (Descriptor.finalGroup value).toNat = value := by
        rw [Descriptor.finalGroup, UInt8.toNat_ofNat']
        omega
      rw [Bits.ofBytes_cons, hbyte, List.append_assoc, leb128Groups,
        run_bind_of_ok (run_aligned_append (by omega) (by omega) hposition), if_pos (by omega)]
      rfl

/-- A number of 32 bits is read back, and nothing behind it is read. -/
theorem run_leb128_append {least value : Nat} (hvalue : value < 0x100000000) {rest : Bits}
    {position : Nat} (hposition : position % 8 = 0) :
    leb128.run ⟨Bits.ofBytes (Descriptor.leb128 value least) ++ rest, position⟩ =
      (.ok value, ⟨rest, position + 8 * (Descriptor.leb128 value least).length⟩) := by
  have hroom : value < 128 ^ 8 := hvalue.trans (by decide)
  rw [leb128, Descriptor.leb128, run_bind_of_ok (run_leb128Groups_append hroom hposition),
    if_pos hvalue]
  rfl

theorem Decodes.leb128 {least value position : Nat} (hvalue : value < 0x100000000)
    (hposition : position % 8 = 0) :
    Decodes Read.leb128 position (Bits.ofBytes (Descriptor.leb128 value least)) value := by
  intro rest
  rw [run_leb128_append hvalue hposition, Bits.length_ofBytes]

/-- The groups that are taken from the front of some bytes. Unless the last one says that another
    one follows, they are the number padded to that many groups. -/
theorem leads_leb128Groups (most : Nat) {bytes : Bytes} {position : Nat}
    (hposition : position % 8 = 0) :
    Leads (leb128Groups most) ⟨Bits.ofBytes bytes, position⟩
      (fun value r => ∃ taken rest, bytes = taken ++ rest ∧
        r = ⟨Bits.ofBytes rest, position + 8 * taken.length⟩ ∧
        ((∀ last ∈ taken.getLast?, last < 128) →
          Descriptor.leb128Groups most taken.length value = taken))
      fun _ _ => True := by
  induction most generalizing bytes position with
  | zero => exact leads_pure.mpr ⟨[], bytes, rfl, rfl, fun _ => rfl⟩
  | succ most ih =>
    rw [leb128Groups, leads_bind]
    cases bytes with
    | nil =>
      rw [aligned, leads_bind]
      refine leads_of_run (run_requireAligned hposition) ?_
      exact leads_fixed (fun _ => trivial) (fun _ _ => trivial) fun _ hleft =>
        absurd hleft (Nat.not_succ_le_zero 7)
    | cons byte bytes =>
      rw [Bits.ofBytes_cons]
      refine leads_of_run (run_aligned_append (by omega) byte.toNat_lt hposition) ?_
      apply leads_ite
      · intro hfinal
        refine leads_pure.mpr ⟨[byte], bytes, rfl, rfl, fun _ => ?_⟩
        rw [List.length_singleton, Descriptor.leb128Groups, if_neg (by omega),
          Descriptor.finalGroup_of_lt hfinal]
      · intro hcontinued
        rw [leads_bind]
        refine (@ih bytes (position + 8) (by omega)).mono ?_ fun _ _ h => h
        rintro high _ ⟨taken, rest, rfl, rfl, htaken⟩
        refine leads_pure.mpr ⟨byte :: taken, rest, rfl, ?_, fun hlast => ?_⟩
        · rw [List.length_cons]
          congr 1
          omega
        · -- A byte that says that another one follows is not the last one.
          have hne : taken ≠ [] := by
            rintro rfl
            exact hcontinued (UInt8.lt_iff_toNat_lt.mp (hlast byte rfl))
          have hlength := List.length_pos_iff.mpr hne
          rw [List.getLast?_cons_of_ne_nil hne] at hlast
          have hhigh : (byte.toNat % 128 + 128 * high) / 128 = high := by omega
          rw [List.length_cons, Descriptor.leb128Groups, if_pos (by omega), Nat.add_sub_cancel,
            hhigh, htaken hlast, Descriptor.continuedGroup_of_ge (Nat.le_of_not_lt hcontinued)]

/-- Bytes that a number was read from are the number padded to as many bytes, unless the last one
    says that another one follows. -/
theorem leb128_of_run {taken rest : Bytes} {position value : Nat} (hposition : position % 8 = 0)
    (hrun : leb128.run ⟨Bits.ofBytes (taken ++ rest), position⟩ =
      (.ok value, ⟨Bits.ofBytes rest, position + 8 * taken.length⟩))
    (hlast : ∀ last ∈ taken.getLast?, last < 128) :
    Descriptor.leb128 value taken.length = taken := by
  have hleads : Leads leb128 ⟨Bits.ofBytes (taken ++ rest), position⟩
      (fun value r => ∃ taken' rest', taken ++ rest = taken' ++ rest' ∧
        r = ⟨Bits.ofBytes rest', position + 8 * taken'.length⟩ ∧
        ((∀ last ∈ taken'.getLast?, last < 128) →
          Descriptor.leb128 value taken'.length = taken'))
      fun _ _ => True := by
    rw [leb128, leads_bind]
    refine (leads_leb128Groups 8 hposition).mono (fun value r h => ?_) fun _ _ h => h
    exact leads_ite (fun _ => leads_pure.mpr h) fun _ => leads_throw.mpr trivial
  obtain ⟨taken', rest', hbytes, hreader, htaken⟩ := hleads.ok hrun
  have hlength : taken.length = taken'.length := by
    have hend := congrArg Reader.position hreader
    simp only at hend
    omega
  obtain ⟨rfl, rfl⟩ := List.append_inj hbytes hlength
  exact htaken hlast

end Av1Frames.Read

namespace Av1Frames.Write

/-- At the start of a byte all bytes are written, and counted. -/
theorem Emits.leb128 {least value position : Nat} (hposition : position % 8 = 0) :
    Emits (Write.leb128 value least) position (Bits.ofBytes (Descriptor.leb128 value least))
      (Descriptor.leb128 value least).length := by
  intro w bits hlength hw
  have haligned : w.aligned = true := hw.aligned_iff.mpr (hlength ▸ hposition)
  have hrun : (Write.leb128 value least).run w = (do
      if !w.aligned then
        fail .unalignedLeb128
      Write.bits (Bits.ofBytes (Descriptor.leb128 value least))
      return (Descriptor.leb128 value least).length : Write Nat).run w := rfl
  have hbytes : Emits (do
      Write.bits (Bits.ofBytes (Descriptor.leb128 value least))
      return (Descriptor.leb128 value least).length) position
      (Bits.ofBytes (Descriptor.leb128 value least)) (Descriptor.leb128 value least).length :=
    (Emits.bits _).bind_pure rfl
  rw [hrun, haligned, if_neg (by decide)]
  exact hbytes w bits hlength hw

/-- Reading and padding undo each other. Bytes that a number was read from are written again when
    the number is padded to as many, unless the last one says that another one follows. A number of
    32 bits takes as many bytes as its bits need, or as many as are asked for up to eight, and is
    read back from them. -/
theorem leb128_inverse :
    (∀ {taken rest : Bytes} {position value : Nat}, position % 8 = 0 →
      Read.leb128.run ⟨Bits.ofBytes (taken ++ rest), position⟩ =
        (.ok value, ⟨Bits.ofBytes rest, position + 8 * taken.length⟩) →
      (∀ last ∈ taken.getLast?, last < 128) →
        ∀ {position' : Nat}, position' % 8 = 0 →
          Emits (leb128 value taken.length) position' (Bits.ofBytes taken) taken.length) ∧
    ∀ {value : Nat}, value < 0x100000000 → ∀ least : Nat,
      ∃ word : Bytes, word.length = max (max (value.size ⌈/⌉ 7) 1) (min least 8) ∧
        ∀ {position : Nat}, position % 8 = 0 →
          Emits (leb128 value least) position (Bits.ofBytes word) word.length ∧
            Read.Decodes Read.leb128 position (Bits.ofBytes word) value := by
  constructor
  · intro taken rest position value hposition hrun hlast position' hposition'
    have hemits : Emits (leb128 value taken.length) position' _ _ := Emits.leb128 hposition'
    rwa [Read.leb128_of_run hposition hrun hlast] at hemits
  · intro value hvalue least
    exact ⟨Descriptor.leb128 value least, Descriptor.length_leb128 hvalue least,
      fun hposition => ⟨Emits.leb128 hposition, Read.Decodes.leb128 hvalue hposition⟩⟩

theorem leb128_inverse_padded_five :
    Emits (leb128 5 3) 16 (Bits.ofBytes [0x85, 0x80, 0x00]) 3 ∧
      ∃ word : Bytes, word.length = 4 ∧ Emits (leb128 624485 4) 8 (Bits.ofBytes word) word.length ∧
        Read.Decodes Read.leb128 8 (Bits.ofBytes word) 624485 := by
  constructor
  · have hrun : Read.leb128.run ⟨Bits.ofBytes ([0x85, 0x80, 0x00] ++ [0xff]), 8⟩ =
        (.ok 5, ⟨Bits.ofBytes [0xff], 8 + 8 * 3⟩) := rfl
    exact leb128_inverse.1 (by decide) hrun (by simp) (by decide)
  · obtain ⟨word, hlength, h⟩ := leb128_inverse.2 (by decide : 624485 < 0x100000000) 4
    have hsize : Nat.size 624485 = 20 := by decide
    rw [hsize] at hlength
    exact ⟨word, hlength, h (by decide)⟩

end Av1Frames.Write
