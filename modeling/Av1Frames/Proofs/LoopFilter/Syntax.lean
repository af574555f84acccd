import Av1Frames.Encoder.Tracker
import Av1Frames.Proofs.Descriptor.Fixed
import Av1Frames.Proofs.Descriptor.Signed
import Av1Frames.Proofs.SyntaxError

namespace Av1Frames

namespace CodedDelta

/-- The delta as it is read: nothing where no value is given, else the value that has the same low
    bits. -/
def transmitted (d : CodedDelta) : CodedDelta :=
  if d.update then { update := true, value := d.value.bmod (2 ^ width) } else {}

/-- If a value is given, it is one that is transmitted as it is. -/
def Fits (d : CodedDelta) : Prop := d.update = true → -64 ≤ d.value ∧ d.value < 64

/-- If a value is given, it is not too far below zero to be moved above it. -/
def Writable (d : CodedDelta) : Prop := d.update = true → -128 ≤ d.value

instance (d : CodedDelta) : Decidable d.Fits := inferInstanceAs (Decidable (_ → _))

theorem transmitted_update (d : CodedDelta) : d.transmitted.update = d.update := by
  unfold transmitted
  split <;> simp_all

theorem transmitted_value {d : CodedDelta} (hfits : d.Fits) (hupdate : d.update = true) :
    d.transmitted.value = d.value := by
  obtain ⟨hlow, hhigh⟩ := hfits hupdate
  rw [transmitted, if_pos hupdate]
  exact Int.bmod_eq_of_le (by rw [width]; omega) (by rw [width]; omega)

/-- The flag is the same, and so is the value if there is one. -/
structure SameElements (d back : CodedDelta) : Prop where
  update : back.update = d.update
  value : d.update = true → back.value = d.value

theorem Fits.writable {d : CodedDelta} (hfits : d.Fits) : d.Writable := by
  intro hupdate
  have hrange := hfits hupdate
  omega

theorem sameElements_transmitted {d : CodedDelta} (hfits : d.Fits) : d.SameElements d.transmitted :=
  ⟨transmitted_update d, transmitted_value hfits⟩

theorem sameElements_map_transmitted {n : Nat} {ds : Vector CodedDelta n}
    (hfits : ∀ i, (ds.get i).Fits) (i : Fin n) :
    (ds.get i).SameElements ((ds.map transmitted).get i) := by
  rw [get_eq_getElem (ds.map transmitted), Vector.getElem_map]
  exact sameElements_transmitted (hfits i)

theorem exists_bits {d : CodedDelta} (hwritable : d.Writable) :
    ∃ word, d.bits = .ok word ∧ ∀ position, Read.Decodes read position word d.transmitted := by
  unfold bits transmitted
  cases hupdate : d.update with
  | false => exact ⟨[false], rfl, fun position => Read.Decodes.bit.bind .pure⟩
  | true =>
    have hsigned : Descriptor.signed width d.value =
        .ok (Bits.ofNat width (d.value % 2 ^ width).toNat) :=
      Descriptor.signed_eq_ok (by decide) (hwritable hupdate)
    refine ⟨_, bind_eq_ok_iff.mpr ⟨_, Encoding.descriptor_eq_ok_iff.mpr hsigned, rfl⟩,
      fun position => Read.Decodes.bit.bind ?_⟩
    exact (Read.Decodes.signed_bmod (by decide) (by decide) d.value).bind_pure rfl

theorem toList_eq_ofFn {α : Type} {n : Nat} (v : Vector α n) : v.toList = List.ofFn v.get := by
  refine List.ext_getElem (by simp) fun i hi hi' => ?_
  rw [Vector.getElem_toList, List.getElem_ofFn, get_eq_getElem]

theorem exists_listBits {n : Nat} {ds : Vector CodedDelta n}
    (hwritable : ∀ i, (ds.get i).Writable) :
    ∃ word, listBits ds.toList = .ok word ∧
      ∀ position, Read.Decodes (Vector.ofFnM fun _ => read) position word (ds.map transmitted) := by
  choose words hwords hreads using fun i => exists_bits (hwritable i)
  refine ⟨(List.ofFn words).flatten, ?_, fun position => Read.Decodes.ofFnM fun i position => ?_⟩
  · rw [toList_eq_ofFn]
    exact Encoding.list_eq_ok (f := bits) (g := listBits) rfl (fun _ _ => rfl) hwords
  · rw [get_eq_getElem, Vector.getElem_map]
    exact hreads i position

end CodedDelta

namespace LoopFilter

/-- Whether the header gives deltas, which it does only while they are enabled. -/
def givesDeltas (lf : LoopFilter) : Bool := lf.deltaEnabled && lf.deltaUpdate

/-- The levels as they are read: those of the chroma planes are zero where they are not given. -/
def transmittedLevels (lf : LoopFilter) (monochrome : Bool) : Vector Nat 4 :=
  if hasChromaLevels monochrome (lf.levels.get 0) (lf.levels.get 1) then lf.levels
  else #v[lf.levels.get 0, lf.levels.get 1, 0, 0]

/-- The loop filter part as it is read. -/
def transmitted (lf : LoopFilter) (monochrome : Bool) : LoopFilter :=
  if lf.givesDeltas then
    { levels := lf.transmittedLevels monochrome
      sharpness := lf.sharpness
      deltaEnabled := true
      deltaUpdate := true
      refDeltas := lf.refDeltas.map CodedDelta.transmitted
      modeDeltas := lf.modeDeltas.map CodedDelta.transmitted }
  else
    { levels := lf.transmittedLevels monochrome
      sharpness := lf.sharpness
      deltaEnabled := lf.deltaEnabled }

/-- The numbers of the loop filter part have code words. -/
structure Writable (lf : LoopFilter) : Prop where
  levels : ∀ i, lf.levels.get i < 64
  sharpness : lf.sharpness < 8
  refDeltas : ∀ i, (lf.refDeltas.get i).Writable
  modeDeltas : ∀ i, (lf.modeDeltas.get i).Writable

variable {lf : LoopFilter} (monochrome : Bool)

theorem exists_levelBits (hlevels : ∀ i, lf.levels.get i < 64) :
    ∃ word, lf.levelBits monochrome = .ok word ∧
      ∀ position, Read.Decodes (readLevels monochrome) position word
        (lf.transmittedLevels monochrome) := by
  have hlevel (i : Nat) (hi : i < 4) (position : Nat) : Read.Decodes (Read.fixed 6) position
      (Bits.ofNat 6 lf.levels[i]) lf.levels[i] := .fixed (by decide) (hlevels ⟨i, hi⟩)
  have hall : #v[lf.levels[0], lf.levels[1], lf.levels[2], lf.levels[3]] = lf.levels := by
    refine Vector.ext fun i hi => ?_
    interval_cases i <;> rfl
  have hfirst : lf.levels.get 0 = lf.levels[0] := rfl
  have hsecond : lf.levels.get 1 = lf.levels[1] := rfl
  rw [levelBits, transmittedLevels, hfirst, hsecond]
  cases hchroma : hasChromaLevels monochrome lf.levels[0] lf.levels[1] with
  | false =>
    refine ⟨Bits.ofNat 6 lf.levels[0] ++ Bits.ofNat 6 lf.levels[1], rfl, fun position => ?_⟩
    refine (hlevel 0 (by decide) _).bind ((hlevel 1 (by decide) _).bind_pure ?_)
    rw [hchroma]
    rfl
  | true =>
    refine ⟨Bits.ofNat 6 lf.levels[0] ++ (Bits.ofNat 6 lf.levels[1] ++
      (Bits.ofNat 6 lf.levels[2] ++ Bits.ofNat 6 lf.levels[3])), ?_, fun position => ?_⟩
    · rw [← List.append_assoc, ← List.append_assoc]
      rfl
    · refine (hlevel 0 (by decide) _).bind ((hlevel 1 (by decide) _).bind ?_)
      rw [if_pos hchroma]
      exact (hlevel 2 (by decide) _).bind
        ((hlevel 3 (by decide) _).bind_pure (congrArg Pure.pure hall))

/-- The loop filter part has bits, which are read back. Deltas only count where they are given. -/
theorem exists_bits_of_given (hlevels : ∀ i, lf.levels.get i < 64) (hsharp : lf.sharpness < 8)
    (hdeltas : lf.givesDeltas = true →
      (∀ i, (lf.refDeltas.get i).Writable) ∧ ∀ i, (lf.modeDeltas.get i).Writable) :
    ∃ word, lf.bits monochrome = .ok word ∧
      ∀ position, Read.Decodes (read monochrome) position word (lf.transmitted monochrome) := by
  obtain ⟨levels, hlevels, hreadLevels⟩ := exists_levelBits monochrome hlevels
  have hsharpness (position : Nat) : Read.Decodes (Read.fixed 3) position
      (Bits.ofNat 3 lf.sharpness) lf.sharpness := .fixed (by decide) hsharp
  unfold givesDeltas at hdeltas
  unfold bits deltaBits transmitted givesDeltas
  rw [hlevels]
  cases henabled : lf.deltaEnabled with
  | false =>
    refine ⟨levels ++ (Bits.ofNat 3 lf.sharpness ++ [false]), ?_, fun position => ?_⟩
    · rw [← List.append_assoc]
      rfl
    · exact (hreadLevels _).bind ((hsharpness _).bind (Read.Decodes.bit.bind_pure rfl))
  | true =>
    cases hupdate : lf.deltaUpdate with
    | false =>
      refine ⟨levels ++ (Bits.ofNat 3 lf.sharpness ++ [true, false]), ?_, fun position => ?_⟩
      · rw [← List.append_assoc]
        rfl
      · exact (hreadLevels _).bind ((hsharpness _).bind (Read.Decodes.bit.bind
          (Read.Decodes.bit.bind_pure rfl)))
    | true =>
      obtain ⟨hrefs, hmodes⟩ := hdeltas (by rw [henabled, hupdate]; rfl)
      obtain ⟨refs, hrefs, hreadRefs⟩ := CodedDelta.exists_listBits hrefs
      obtain ⟨modes, hmodes, hreadModes⟩ := CodedDelta.exists_listBits hmodes
      refine ⟨levels ++ (Bits.ofNat 3 lf.sharpness ++ ([true, true] ++ (refs ++ modes))), ?_,
        fun position => ?_⟩
      · rw [hrefs, hmodes, ← List.append_assoc levels]
        rfl
      · exact (hreadLevels _).bind ((hsharpness _).bind (Read.Decodes.bit.bind
          (Read.Decodes.bit.bind ((hreadRefs _).bind ((hreadModes _).bind_pure rfl)))))

theorem exists_bits (hwritable : lf.Writable) :
    ∃ word, lf.bits monochrome = .ok word ∧
      ∀ position, Read.Decodes (read monochrome) position word (lf.transmitted monochrome) :=
  exists_bits_of_given monochrome hwritable.levels hwritable.sharpness
    fun _ => ⟨hwritable.refDeltas, hwritable.modeDeltas⟩

/-- What the syntax holds of `lf` is the same in `back`: each element where it is present. -/
structure SameElements (monochrome : Bool) (lf back : LoopFilter) : Prop where
  luma : back.levels.get 0 = lf.levels.get 0 ∧ back.levels.get 1 = lf.levels.get 1
  chroma : monochrome = false → lf.levels.get 0 ≠ 0 ∨ lf.levels.get 1 ≠ 0 →
    back.levels.get 2 = lf.levels.get 2 ∧ back.levels.get 3 = lf.levels.get 3
  sharpness : back.sharpness = lf.sharpness
  deltaEnabled : back.deltaEnabled = lf.deltaEnabled
  deltaUpdate : lf.deltaEnabled = true → back.deltaUpdate = lf.deltaUpdate
  refDeltas : lf.givesDeltas = true →
    ∀ i, (lf.refDeltas.get i).SameElements (back.refDeltas.get i)
  modeDeltas : lf.givesDeltas = true →
    ∀ i, (lf.modeDeltas.get i).SameElements (back.modeDeltas.get i)

/-- If the given deltas fit, nothing is lost that the syntax holds. -/
theorem sameElements_transmitted
    (hfits : lf.givesDeltas = true →
      (∀ i, (lf.refDeltas.get i).Fits) ∧ ∀ i, (lf.modeDeltas.get i).Fits) :
    lf.SameElements monochrome (lf.transmitted monochrome) := by
  have hluma : (lf.transmittedLevels monochrome).get 0 = lf.levels.get 0 ∧
      (lf.transmittedLevels monochrome).get 1 = lf.levels.get 1 := by
    unfold transmittedLevels
    split <;> exact ⟨rfl, rfl⟩
  have hchroma : monochrome = false → lf.levels.get 0 ≠ 0 ∨ lf.levels.get 1 ≠ 0 →
      (lf.transmittedLevels monochrome).get 2 = lf.levels.get 2 ∧
        (lf.transmittedLevels monochrome).get 3 = lf.levels.get 3 := by
    intro hcolor hfiltered
    rw [transmittedLevels, if_pos (by simpa [hasChromaLevels, hcolor] using hfiltered)]
    exact ⟨rfl, rfl⟩
  cases hgives : lf.givesDeltas with
  | true =>
    obtain ⟨henabled, hupdate⟩ := Bool.and_eq_true_iff.mp hgives
    obtain ⟨hrefs, hmodes⟩ := hfits hgives
    rw [transmitted, if_pos hgives]
    exact ⟨hluma, hchroma, rfl, henabled.symm, fun _ => hupdate.symm,
      fun _ => CodedDelta.sameElements_map_transmitted hrefs,
      fun _ => CodedDelta.sameElements_map_transmitted hmodes⟩
  | false =>
    have hnone {p : Prop} (h : lf.givesDeltas = true) : p :=
      absurd (hgives.symm.trans h) (by decide)
    rw [transmitted, if_neg (by simp [hgives])]
    refine ⟨hluma, hchroma, rfl, rfl, fun henabled => ?_, hnone, hnone⟩
    rw [givesDeltas, henabled, Bool.true_and] at hgives
    exact hgives.symm

end LoopFilter

/-- What a frame header transmits of its loop filter part. It can be written if the levels, the
    sharpness and the deltas that it gives are in range. Whoever reads the bytes finds all of the
    values that the syntax holds, and less than a byte of zeros behind them. -/
theorem Header.loopFilterBits_transmits {s : Sequence} {header : Header}
    (hlevels : ∀ i, header.loopFilter.levels.get i < 64)
    (hsharpness : header.loopFilter.sharpness < 8)
    (hfits : header.loopFilter.givesDeltas = true →
      (∀ i, (header.loopFilter.refDeltas.get i).Fits) ∧
        ∀ i, (header.loopFilter.modeDeltas.get i).Fits) :
    ∃ word, header.loopFilterBits s = .ok word ∧
      ∃ (back : LoopFilter) (padding : Nat),
        (LoopFilter.read s.color.monochrome).run (Reader.ofBytes (Bits.toBytes word)) =
          (.ok back, ⟨List.replicate padding false, word.length⟩) ∧
        padding < 8 ∧ header.loopFilter.SameElements s.color.monochrome back := by
  have hwritable : header.loopFilter.givesDeltas = true →
      (∀ i, (header.loopFilter.refDeltas.get i).Writable) ∧
        ∀ i, (header.loopFilter.modeDeltas.get i).Writable := by
    intro hgives
    obtain ⟨hrefs, hmodes⟩ := hfits hgives
    exact ⟨fun i => (hrefs i).writable, fun i => (hmodes i).writable⟩
  obtain ⟨word, hword, hread⟩ :=
    LoopFilter.exists_bits_of_given s.color.monochrome hlevels hsharpness hwritable
  refine ⟨word, hword, _, _, (hread 0).run_toBytes, Nat.mod_lt _ (by decide), ?_⟩
  exact LoopFilter.sameElements_transmitted _ hfits

/-- Chroma levels of their own, and deltas at both ends of their range, which leave four bits of the
    last byte. -/
theorem Header.loopFilterBits_transmits_edges :
    let header : Header := {
      loopFilter := {
        levels := #v[0, 63, 1, 33]
        sharpness := 7
        deltaEnabled := true
        deltaUpdate := true
        refDeltas := #v[{ update := true, value := -64 }, {}, {}, {}, {}, {},
          { update := true, value := 63 }, {}]
        modeDeltas := #v[{ value := 100 }, { update := true, value := -1 }] } }
    ((∀ i, header.loopFilter.levels.get i < 64) ∧ header.loopFilter.sharpness < 8 ∧
      (∀ i, (header.loopFilter.refDeltas.get i).Fits) ∧
        ∀ i, (header.loopFilter.modeDeltas.get i).Fits) ∧
    ∃ word, header.loopFilterBits {} = .ok word ∧
      ∃ (back : LoopFilter) (padding : Nat),
        (LoopFilter.read false).run (Reader.ofBytes (Bits.toBytes word)) =
          (.ok back, ⟨List.replicate padding false, word.length⟩) ∧
        padding < 8 ∧ header.loopFilter.SameElements false back := by
  intro header
  have hlevels : ∀ i, header.loopFilter.levels.get i < 64 := by decide
  have hsharpness : header.loopFilter.sharpness < 8 := by decide
  have hrefs : ∀ i, (header.loopFilter.refDeltas.get i).Fits := by decide +kernel
  have hmodes : ∀ i, (header.loopFilter.modeDeltas.get i).Fits := by decide +kernel
  exact ⟨⟨hlevels, hsharpness, hrefs, hmodes⟩,
    header.loopFilterBits_transmits hlevels hsharpness fun _ => ⟨hrefs, hmodes⟩⟩

end Av1Frames
