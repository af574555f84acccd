import Av1Frames.Proofs.Tile.Grid
import Av1Frames.Proofs.Tile.Group
import Av1Frames.Tile.Info.Syntax

namespace Av1Frames

open Checked

theorem TileInfo.covered_eq_sum (sizesMinus1 : List Nat) :
    covered sizesMinus1 = (sizesMinus1.map (· + 1)).sum := by
  induction sizesMinus1 with
  | nil => rfl
  | cons minus1 rest ih =>
    rw [List.map_cons, List.sum_cons, ← ih]
    rfl

/-- Parts that follow each other add up to the distance between their ends. -/
theorem sum_of_starts (sizes : List Nat) (starts : Nat → Nat)
    (h : ∀ (i : Nat) (hi : i < sizes.length), starts i + sizes[i] = starts (i + 1)) :
    starts 0 + sizes.sum = starts sizes.length := by
  induction sizes generalizing starts with
  | nil => simp
  | cons size rest ih =>
    have hfirst := h 0 (by simp)
    have hrest := ih (fun i => starts (i + 1)) fun i hi => h (i + 1) (Nat.succ_lt_succ hi)
    simp only [List.getElem_cons_zero, List.sum_cons, List.length_cons] at *
    omega

theorem sum_uniform (n size last : Nat) :
    ((List.range (n + 1)).map fun i => if i = n then last else size).sum = n * size + last := by
  have hall : (List.range n).map (fun i => if i = n then last else size) =
      List.replicate n size := by
    refine List.eq_replicate_iff.mpr ⟨by simp, fun b hb => ?_⟩
    obtain ⟨i, hi, rfl⟩ := List.mem_map.mp hb
    exact if_neg (List.mem_range.mp hi).ne
  rw [List.range_succ, List.map_append, List.sum_append, hall]
  simp

namespace TileSizes

/-- The size of tile `i` along a side of `count` tiles. -/
def along (uniformSpacing : Bool) (sbs size count : Nat) (sizesMinus1 : Vector Nat 64) (i : Nat) :
    Nat :=
  if uniformSpacing then
    if i = count - 1 then sbs - i * size else size
  else
    sizesMinus1.toList.getD i 0 + 1

/-- The width of the tiles of a column. -/
def width (t : TileSizes) : (col : Nat) → Nat :=
  along t.tileInfo.uniformSpacing t.grid.cols t.uniformWidth t.tileInfo.cols
    t.tileInfo.widthInSbsMinus1

/-- The height of the tiles of a row. -/
def height (t : TileSizes) : (row : Nat) → Nat :=
  along t.tileInfo.uniformSpacing t.grid.rows t.uniformHeight t.tileInfo.rows
    t.tileInfo.heightInSbsMinus1

theorem along_of_uniform {sbs size count i n : Nat} {sizesMinus1 : Vector Nat 64}
    (h : uniform sbs size count i = .ok n) : along true sbs size count sizesMinus1 i = n := by
  rw [uniform] at h
  rw [along, if_pos rfl]
  split at h
  · rename_i hlast
    rw [bind_eq_ok_iff] at h
    obtain ⟨before, hbefore, h⟩ := h
    rw [unsigned_eq_ok_iff] at hbefore
    obtain rfl : before = i * size := by exact_mod_cast hbefore.2.symm
    rw [if_pos hlast]
    exact Except.ok.inj h
  · rename_i hlast
    rw [if_neg hlast]
    exact Except.ok.inj h

theorem along_of_explicit {sbs size count i n : Nat} {sizesMinus1 : Vector Nat 64}
    (h : explicit sizesMinus1 i = .ok n) : along false sbs size count sizesMinus1 i = n := by
  rw [explicit] at h
  rw [along, if_neg Bool.false_ne_true]
  cases hsome : sizesMinus1[i]? with
  | none =>
    simp [hsome] at h
  | some minus1 =>
    rw [hsome] at h
    have hsize := unsigned_eq_ok_iff.mp h
    have hget : sizesMinus1.toList.getD i 0 = minus1 := by
      rw [List.getD_eq_getElem?_getD, Vector.getElem?_toList, hsome]
      rfl
    omega

theorem size_of_sizeAt {t : TileSizes} {row col w h : Nat} (hsize : t.sizeAt row col = .ok (w, h)) :
    w = t.width col ∧ h = t.height row := by
  unfold sizeAt at hsize
  unfold width height
  cases hspacing : t.tileInfo.uniformSpacing with
  | true =>
    rw [if_pos hspacing] at hsize
    simp only [bind_eq_ok_iff] at hsize
    obtain ⟨w', hw, h', hh, hsize⟩ := hsize
    obtain ⟨rfl, rfl⟩ := Prod.mk.inj (Except.ok.inj hsize)
    exact ⟨(along_of_uniform hw).symm, (along_of_uniform hh).symm⟩
  | false =>
    rw [if_neg (by simp [hspacing])] at hsize
    simp only [bind_eq_ok_iff] at hsize
    obtain ⟨w', hw, h', hh, hsize⟩ := hsize
    obtain ⟨rfl, rfl⟩ := Prod.mk.inj (Except.ok.inj hsize)
    exact ⟨(along_of_explicit hw).symm, (along_of_explicit hh).symm⟩

/-- Uniform tiles end with the frame, unless all but the last one already reach further. -/
theorem sum_along_uniform {sbs size count : Nat} {sizesMinus1 : Vector Nat 64}
    (hcount : 0 < count) :
    ((List.range count).map (along true sbs size count sizesMinus1)).sum =
      max sbs ((count - 1) * size) := by
  obtain ⟨n, rfl⟩ : ∃ n, count = n + 1 := ⟨count - 1, by omega⟩
  have hsizes : along true sbs size (n + 1) sizesMinus1 =
      fun i => if i = n then sbs - n * size else size := by
    funext i
    rw [along, if_pos rfl, Nat.add_sub_cancel]
    split
    · rename_i hlast
      rw [hlast]
    · rfl
  rw [hsizes, sum_uniform, Nat.add_sub_cancel]
  omega

/-- Uniform sizes for a greater side reach at least as far as the side that their number was chosen
    for, and just as far only if both sides are one. -/
theorem sum_along_uniform_eq_iff {sbs greatest log2 size size' count : Nat}
    {sizesMinus1 : Vector Nat 64} (hsize : SuperblockGrid.uniformTileSize sbs log2 = .ok size)
    (hcount : divideUp sbs size = .ok count)
    (hsize' : SuperblockGrid.uniformTileSize greatest log2 = .ok size') (hle : sbs ≤ greatest)
    (hpos : 0 < count) :
    sbs ≤ ((List.range count).map (along true greatest size' count sizesMinus1)).sum ∧
    (((List.range count).map (along true greatest size' count sizesMinus1)).sum = sbs ↔
      greatest = sbs) := by
  rw [sum_along_uniform hpos]
  refine ⟨by omega, by omega, ?_⟩
  rintro rfl
  obtain rfl : size' = size := Except.ok.inj (hsize'.symm.trans hsize)
  have hless : ¬ greatest ≤ (count - 1) * size' := by
    rw [← divideUp_le_iff hcount]
    omega
  omega

theorem sum_along_explicit {sbs size count : Nat} {sizesMinus1 : Vector Nat 64}
    (hcount : count ≤ 64) :
    ((List.range count).map (along false sbs size count sizesMinus1)).sum =
      TileInfo.covered (sizesMinus1.toList.take count) := by
  rw [TileInfo.covered_eq_sum]
  refine congrArg List.sum (List.ext_getElem (by simpa using hcount) fun i hi hi' => ?_)
  have hlt : i < 64 := by
    rw [List.length_map, List.length_range] at hi
    omega
  simp [along, hlt]

end TileSizes

theorem div_mod_of_lt {cols row col : Nat} (hcol : col < cols) :
    (cols * row + col) / cols = row ∧ (cols * row + col) % cols = col := by
  constructor
  · rw [Nat.mul_add_div (by omega), Nat.div_eq_of_lt hcol, Nat.add_zero]
  · rw [Nat.mul_add_mod, Nat.mod_eq_of_lt hcol]

/-- Of numbers that are dealt out row by row, one row has each column once. -/
theorem sum_row (cols rows row : Nat) (w : Nat → Nat) :
    (((List.range (cols * rows)).filter fun n => n / cols = row).map fun n => w (n % cols)).sum =
      if row < rows then ((List.range cols).map w).sum else 0 := by
  induction rows with
  | zero => simp
  | succ rows ih =>
    rw [Nat.mul_succ, List.range_add, List.filter_append, List.map_append, List.sum_append, ih]
    by_cases hrow : row = rows
    · have hall : ((List.range cols).map (cols * rows + ·)).filter (fun n => n / cols = row) =
          (List.range cols).map (cols * rows + ·) := by
        rw [List.filter_eq_self]
        simp only [List.mem_map, List.mem_range, forall_exists_index, and_imp]
        rintro _ i hi rfl
        simpa [hrow] using (div_mod_of_lt hi).1
      rw [hall, if_neg (by omega), if_pos (by omega), Nat.zero_add, List.map_map]
      refine congrArg List.sum (List.map_congr_left fun i hi => ?_)
      exact congrArg w (div_mod_of_lt (List.mem_range.mp hi)).2
    · have hnone : ((List.range cols).map (cols * rows + ·)).filter (fun n => n / cols = row) =
          [] := by
        rw [List.filter_eq_nil_iff]
        simp only [List.mem_map, List.mem_range, forall_exists_index, and_imp]
        rintro _ i hi rfl
        simpa [(div_mod_of_lt hi).1] using Ne.symm hrow
      rw [hnone, List.map_nil, List.sum_nil, Nat.add_zero]
      exact if_congr (by omega) rfl rfl

/-- And one column has each row once. -/
theorem sum_col {cols col : Nat} (hcol : col < cols) (rows : Nat) (h : Nat → Nat) :
    (((List.range (cols * rows)).filter fun n => n % cols = col).map fun n => h (n / cols)).sum =
      ((List.range rows).map h).sum := by
  induction rows with
  | zero => simp
  | succ rows ih =>
    have hone : ((List.range cols).map (cols * rows + ·)).filter (fun n => n % cols = col) =
        [cols * rows + col] := by
      have hcongr : (List.range cols).filter (fun i => (cols * rows + i) % cols = col) =
          (List.range cols).filter (· == col) := by
        refine List.filter_congr fun i hi => ?_
        rw [(div_mod_of_lt (List.mem_range.mp hi)).2]
        rfl
      rw [List.filter_map]
      refine (congrArg (List.map _) (hcongr.trans (List.filter_beq col))).trans ?_
      rw [List.count_eq_one_of_mem List.nodup_range (List.mem_range.mpr hcol)]
      rfl
    rw [Nat.mul_succ, List.range_add, List.filter_append, List.map_append, List.sum_append, ih,
      hone, List.range_succ, List.map_append, List.sum_append, List.map_singleton,
      (div_mod_of_lt hcol).1]
    rfl

end Av1Frames
