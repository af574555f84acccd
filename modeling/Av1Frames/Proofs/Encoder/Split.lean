import Av1Frames.Encoder.Layout
import Av1Frames.Proofs.Tile.Span

namespace Av1Frames.TileLayout

open Checked

variable {sbs size count n : Nat} {sizesMinus1 : List Nat}

/-- A length that is less by one is one of at least one superblock. -/
theorem unsigned_pred_eq_ok {x n : Nat} (h : unsigned ((x : Int) - 1) = .ok n) : n + 1 = x := by
  rw [unsigned_eq_ok_iff] at h
  omega

theorem evenSplit_eq_ok (h : evenSplit sbs count = .ok sizesMinus1) :
    sizesMinus1.length = count ∧ ∀ (i : Nat) (hi : i < sizesMinus1.length),
      i * sbs / count + (sizesMinus1[i] + 1) = (i + 1) * sbs / count := by
  obtain ⟨hlength, hparts⟩ := mapM_range_eq_ok h
  refine ⟨hlength, fun i hi => ?_⟩
  have hpart := hparts i hi
  simp only [bind_eq_ok_iff, divide_eq_ok_iff, unsigned_eq_ok_iff] at hpart
  obtain ⟨after, ⟨-, hafter⟩, stop, ⟨-, hstop⟩, before, ⟨-, hbefore⟩, start, ⟨-, hstart⟩, part,
    ⟨-, hpart⟩, -, hminus1⟩ := hpart
  obtain rfl : after = (i + 1) * sbs := by exact_mod_cast hafter.symm
  obtain rfl : before = i * sbs := by exact_mod_cast hbefore.symm
  omega

theorem sum_of_evenSplit (h : evenSplit sbs count = .ok sizesMinus1) (hcount : 0 < count) :
    (sizesMinus1.map (· + 1)).sum = sbs := by
  obtain ⟨hlength, hparts⟩ := evenSplit_eq_ok h
  have hsum := sum_of_starts (sizesMinus1.map (· + 1)) (fun i => i * sbs / count)
    fun i hi => by simpa using hparts i (by simpa using hi)
  simpa [hlength, Nat.mul_div_cancel_left sbs hcount] using hsum

/-- A bound on the parts that leaves room for all of them holds for each of them. -/
theorem lt_of_evenSplit (h : evenSplit sbs count = .ok sizesMinus1) (hfits : sbs ≤ count * n)
    {minus1 : Nat} (hmem : minus1 ∈ sizesMinus1) : minus1 < n := by
  obtain ⟨hlength, hparts⟩ := evenSplit_eq_ok h
  obtain ⟨i, hi, rfl⟩ := List.getElem_of_mem hmem
  have hpart := hparts i hi
  have hnext : (i + 1) * sbs / count ≤ i * sbs / count + n := by
    rw [← Nat.add_mul_div_left _ _ (by omega : 0 < count), Nat.succ_mul]
    exact Nat.div_le_div_right (Nat.add_le_add_left hfits _)
  omega

/-- Nearly equal parts need the product of their number and what is split. -/
theorem exists_evenSplit_iff (hcount : count ≤ sbs) :
    (∃ sizes, evenSplit sbs count = .ok sizes) ↔ count * sbs < 2 ^ 32 := by
  have hcast (i : Nat) : (i : Int) * sbs = ((i * sbs : Nat) : Int) := (Nat.cast_mul i sbs).symm
  have hnext (i : Nat) : (i + 1 : Int) = ((i + 1 : Nat) : Int) := rfl
  rw [evenSplit, exists_mapM_iff]
  simp only [List.mem_range, bind_eq_ok_iff, divide_eq_ok_iff, unsigned_eq_ok_iff, hnext, hcast]
  constructor
  · intro h
    rcases Nat.eq_zero_or_pos count with rfl | hpos
    · omega
    · obtain ⟨_, after, ⟨hafter, -⟩, -⟩ := h (count - 1) (by omega)
      rw [Nat.sub_add_cancel hpos] at hafter
      omega
  · intro hfits i hi
    have hpos : 0 < count := Nat.zero_lt_of_lt hi
    have hafter : (i + 1) * sbs ≤ count * sbs := Nat.mul_le_mul_right _ hi
    have hbefore : i * sbs ≤ (i + 1) * sbs := Nat.mul_le_mul_right _ i.le_succ
    -- No part is empty, as there is a superblock for each of them.
    have hpart : i * sbs / count + 1 ≤ (i + 1) * sbs / count := by
      rw [← Nat.add_div_right _ hpos, Nat.succ_mul]
      exact Nat.div_le_div_right (Nat.add_le_add_left hcount _)
    have hstop : (i + 1) * sbs / count ≤ (i + 1) * sbs := Nat.div_le_self _ _
    generalize (i + 1) * sbs = after at *
    generalize i * sbs = before at *
    refine ⟨after / count - before / count - 1, after, ⟨by omega, rfl⟩, _, ⟨hpos, rfl⟩, before,
      ⟨by omega, rfl⟩, _, ⟨hpos, rfl⟩, after / count - before / count, ?_, ?_⟩ <;>
    · generalize after / count = stop at *
      generalize before / count = start at *
      omega

theorem uniformSplit_eq_ok (h : uniformSplit sbs size count = .ok sizesMinus1) :
    sizesMinus1.length = count ∧ (0 < count → (count - 1) * size < sbs) ∧
      ∀ (i : Nat) (hi : i < sizesMinus1.length) (unused : Vector Nat 64),
        sizesMinus1[i] + 1 = TileSizes.along true sbs size count unused i := by
  obtain ⟨hlength, hparts⟩ := mapM_range_eq_ok h
  have hlast {i : Nat} (hi : i < sizesMinus1.length) (hlast : i = count - 1) :
      (count - 1) * size + (sizesMinus1[i] + 1) = sbs := by
    have hpart := hparts i hi
    have hpred : (count : Int) - 1 = ((count - 1 : Nat) : Int) := by omega
    rw [if_pos hlast, hpred] at hpart
    simp only [bind_eq_ok_iff, unsigned_eq_ok_iff] at hpart
    obtain ⟨before, ⟨-, hbefore⟩, part, ⟨-, hpart⟩, -, hminus1⟩ := hpart
    obtain rfl : before = (count - 1) * size := by exact_mod_cast hbefore.symm
    omega
  refine ⟨hlength, fun hcount => ?_, fun i hi unused => ?_⟩
  · have hend := hlast (i := count - 1) (by omega) rfl
    omega
  · rw [TileSizes.along, if_pos rfl]
    by_cases hi' : i = count - 1
    · have hend := hlast hi hi'
      rw [if_pos hi']
      subst hi'
      omega
    · have hpart := hparts i hi
      rw [if_neg hi'] at hpart ⊢
      exact unsigned_pred_eq_ok hpart

theorem exists_uniformSplit (hsize : 0 < size) (hle : size ≤ sbs) (hsbs : sbs < 2 ^ 32)
    (hcount : sbs ⌈/⌉ size = count) : ∃ sizes, uniformSplit sbs size count = .ok sizes := by
  rw [uniformSplit, exists_mapM_iff]
  intro i hi
  rw [List.mem_range] at hi
  split
  · have hlast : ¬ sbs ≤ size * (count - 1) := by
      rw [← ceilDiv_le_iff_le_mul hsize]
      omega
    rw [Nat.mul_comm] at hlast
    have hpred : (count : Int) - 1 = ((count - 1 : Nat) : Int) := by omega
    simp only [bind_eq_ok_iff, unsigned_eq_ok_iff, hpred, ← Nat.cast_mul]
    refine ⟨sbs - (count - 1) * size - 1, (count - 1) * size, ⟨by omega, rfl⟩,
      sbs - (count - 1) * size, ?_, ?_⟩ <;> omega
  · exact ⟨size - 1, unsigned_eq_ok_iff.mpr (by omega)⟩

theorem map_of_along {uniformSpacing : Bool} {unused : Vector Nat 64}
    (h : ∀ (i : Nat) (hi : i < sizesMinus1.length),
      sizesMinus1[i] + 1 = TileSizes.along uniformSpacing sbs size sizesMinus1.length unused i) :
    sizesMinus1.map (· + 1) = (List.range sizesMinus1.length).map
      (TileSizes.along uniformSpacing sbs size sizesMinus1.length unused) := by
  refine List.ext_getElem (by simp) fun i hi _ => ?_
  rw [List.length_map] at hi
  simpa using h i hi

theorem sum_of_uniformSplit (h : uniformSplit sbs size count = .ok sizesMinus1)
    (hcount : 0 < count) : (sizesMinus1.map (· + 1)).sum = sbs := by
  obtain ⟨hlength, hless, hparts⟩ := uniformSplit_eq_ok h
  subst hlength
  rw [map_of_along fun i hi => hparts i hi (Vector.replicate 64 0),
    TileSizes.sum_along_uniform hcount]
  have := hless hcount
  omega

/-- Uniform parts are no greater than all but the last one are. -/
theorem lt_of_uniformSplit (h : uniformSplit sbs size count = .ok sizesMinus1)
    (hfits : sbs ≤ count * size) {minus1 : Nat} (hmem : minus1 ∈ sizesMinus1) : minus1 < size := by
  obtain ⟨hlength, -, hparts⟩ := uniformSplit_eq_ok h
  obtain ⟨i, hi, rfl⟩ := List.getElem_of_mem hmem
  have hpart := hparts i hi (Vector.replicate 64 0)
  rw [TileSizes.along, if_pos rfl] at hpart
  split at hpart
  · have hcount : count * size = (count - 1) * size + size := by
      rw [← Nat.succ_mul]
      congr 1
      omega
    rename_i hlast
    subst hlast
    omega
  · omega

/-- Sizes that a tile info has room for are found in it. -/
theorem take_firstSizes (hlength : sizesMinus1.length ≤ 64) :
    (firstSizes sizesMinus1).toList.take sizesMinus1.length = sizesMinus1 := by
  refine List.ext_getElem (by simpa using hlength) fun i hi hi' => ?_
  have hlt : i < 64 := by omega
  simp [firstSizes, hi']

theorem along_firstSizes {i : Nat} (hlength : sizesMinus1.length ≤ 64)
    (hi : i < sizesMinus1.length) :
    sizesMinus1[i] + 1 = TileSizes.along false sbs size count (firstSizes sizesMinus1) i := by
  have hlt : i < 64 := by omega
  simp [TileSizes.along, firstSizes, hlt, hi]

end Av1Frames.TileLayout
