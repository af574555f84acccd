import Av1Frames.Proofs.Tile.Grid
import Av1Frames.Tile.Window

namespace Av1Frames

open Checked

/-- The ranges of the syntax elements of a tile info. Explicit sizes only count where they are
    used. -/
structure TileInfo.InRange (t : TileInfo) : Prop where
  cols_le : t.cols ≤ 64
  rows_le : t.rows ≤ 64
  colsLog2_le : t.colsLog2 ≤ 6
  rowsLog2_le : t.rowsLog2 ≤ 6
  sizeBytes_le : t.tileSizeBytesMinus1 ≤ 3
  width_lt : t.uniformSpacing = false → ∀ w ∈ t.widthInSbsMinus1, w < 0xFFFFFFFF
  height_lt : t.uniformSpacing = false → ∀ h ∈ t.heightInSbsMinus1, h < 0xFFFFFFFF

/-- The greatest frames of the sequence have sizes that 16 bits can carry. -/
structure Sequence.InRange (s : Sequence) : Prop where
  width_lt : s.maxFrameWidthMinus1 < 65536
  height_lt : s.maxFrameHeightMinus1 < 65536

theorem TileInfo.tileCount_of_le {t : TileInfo} (hcols : t.cols ≤ 64) (hrows : t.rows ≤ 64) :
    t.tileCount = .ok (t.cols * t.rows) := by
  have hcount : t.cols * t.rows ≤ 64 * 64 := Nat.mul_le_mul hcols hrows
  rw [TileInfo.tileCount, unsigned_eq_ok_iff, ← Nat.cast_mul]
  omega

theorem TileInfo.tileNumberBits_of_le {t : TileInfo} (hcols : t.colsLog2 ≤ 6)
    (hrows : t.rowsLog2 ≤ 6) : t.tileNumberBits = .ok (t.colsLog2 + t.rowsLog2) :=
  unsigned_eq_ok_iff.mpr (by omega)

theorem Sequence.InRange.codedResolution {s : Sequence} (hs : s.InRange) :
    s.codedResolution = .ok ⟨s.maxFrameWidthMinus1 + 1, s.maxFrameHeightMinus1 + 1⟩ := by
  have hwidth := hs.width_lt
  have hheight := hs.height_lt
  have hw : unsigned (s.maxFrameWidthMinus1 + 1) = .ok (s.maxFrameWidthMinus1 + 1) :=
    unsigned_eq_ok_iff.mpr (by omega)
  have hh : unsigned (s.maxFrameHeightMinus1 + 1) = .ok (s.maxFrameHeightMinus1 + 1) :=
    unsigned_eq_ok_iff.mpr (by omega)
  rw [Sequence.codedResolution, hw, ok_bind, hh]
  rfl

namespace SuperblockGrid

/-- Frames of up to 65536 samples have at most 1024 superblocks in a direction. -/
theorem ofSequence_eq_ok {s : Sequence} (hs : s.InRange) :
    ∃ g, ofSequence s = .ok g ∧ g.cols ≤ 1024 ∧ g.rows ≤ 1024 := by
  have hwidth := hs.width_lt
  have hheight := hs.height_lt
  have hgrid : ofSize (s.maxFrameWidthMinus1 + 1) (s.maxFrameHeightMinus1 + 1)
      s.use128x128Superblock = .ok _ :=
    ofSize_eq_ok_iff_covering.mpr ⟨⟨by omega, by omega⟩, rfl⟩
  refine ⟨_, ?_, covering_le s.use128x128Superblock hwidth hheight⟩
  rw [ofSequence, hs.codedResolution, ok_bind]
  exact hgrid

/-- No uniform tile is greater than the frame. -/
theorem uniformTileSize_eq_ok {sbs log2 : Nat} (hsbs : sbs ≤ 1024) (hlog2 : log2 ≤ 6) :
    ∃ size, uniformTileSize sbs log2 = .ok size ∧ size ≤ 1024 := by
  have hpow : 2 ^ log2 ≤ 2 ^ 6 := Nat.pow_le_pow_right (by omega) hlog2
  have hpos : 0 < 2 ^ log2 := Nat.two_pow_pos log2
  have hsize : uniformTileSize sbs log2 = .ok (sbs ⌈/⌉ 2 ^ log2) :=
    uniformTileSize_eq_ok_iff.mpr ⟨by omega, by omega, divideUp_of_pos hpos⟩
  exact ⟨_, hsize, (ceilDiv_le_self sbs hpos).trans hsbs⟩

end SuperblockGrid

namespace TileSizes

theorem ofSequence_eq_ok_iff {s : Sequence} {t : TileInfo} {sizes : TileSizes} :
    ofSequence s t = .ok sizes ↔ sizes.tileInfo = t ∧
      SuperblockGrid.ofSequence s = .ok sizes.grid ∧
      SuperblockGrid.uniformTileSize sizes.grid.cols t.colsLog2 = .ok sizes.uniformWidth ∧
      SuperblockGrid.uniformTileSize sizes.grid.rows t.rowsLog2 = .ok sizes.uniformHeight := by
  simp only [ofSequence, bind_eq_ok_iff]
  constructor
  · rintro ⟨grid, hgrid, width, hwidth, height, hheight, h⟩
    obtain rfl := Except.ok.inj h
    exact ⟨rfl, hgrid, hwidth, hheight⟩
  · rintro ⟨rfl, hgrid, hwidth, hheight⟩
    exact ⟨_, hgrid, _, hwidth, _, hheight, rfl⟩

theorem ofSequence_eq_ok {s : Sequence} {t : TileInfo} (hs : s.InRange) (ht : t.InRange) :
    ∃ sizes, ofSequence s t = .ok sizes ∧ sizes.tileInfo = t ∧ sizes.uniformWidth ≤ 1024 ∧
      sizes.uniformHeight ≤ 1024 := by
  obtain ⟨grid, hgrid, hcols, hrows⟩ := SuperblockGrid.ofSequence_eq_ok hs
  obtain ⟨width, hwidth, hwidthLe⟩ := SuperblockGrid.uniformTileSize_eq_ok hcols ht.colsLog2_le
  obtain ⟨height, hheight, hheightLe⟩ := SuperblockGrid.uniformTileSize_eq_ok hrows ht.rowsLog2_le
  refine ⟨⟨t, grid, width, height⟩, ?_, rfl, hwidthLe, hheightLe⟩
  rw [ofSequence, hgrid, ok_bind, hwidth, ok_bind, hheight, ok_bind]
  rfl

theorem uniform_eq_ok (sbs count : Nat) {size i : Nat} (hsize : size ≤ 1024) (hi : i < 64) :
    ∃ n, uniform sbs size count i = .ok n := by
  have hbefore : i * size ≤ 64 * 1024 := Nat.mul_le_mul hi.le hsize
  rw [uniform]
  split
  · have hchecked : unsigned (i * size) = .ok (i * size) := by
      rw [unsigned_eq_ok_iff, ← Nat.cast_mul]
      omega
    rw [hchecked]
    exact ⟨_, rfl⟩
  · exact ⟨_, rfl⟩

theorem explicit_eq_ok {sizes : Vector Nat 64} {i : Nat} (hsizes : ∀ n ∈ sizes, n < 0xFFFFFFFF)
    (hi : i < 64) : ∃ n, explicit sizes i = .ok n := by
  have hlt := hsizes sizes[i] (Vector.getElem_mem hi)
  rw [explicit, Vector.getElem?_eq_getElem hi]
  exact ⟨sizes[i] + 1, unsigned_eq_ok_iff.mpr (by omega)⟩

/-- Every tile of the first 64 rows and columns has a size. -/
theorem sizeAt_eq_ok {sizes : TileSizes} {row col : Nat} (ht : sizes.tileInfo.InRange)
    (hwidth : sizes.uniformWidth ≤ 1024) (hheight : sizes.uniformHeight ≤ 1024) (hrow : row < 64)
    (hcol : col < 64) : ∃ size, sizes.sizeAt row col = .ok size := by
  rw [sizeAt]
  split
  · obtain ⟨w, hw⟩ := uniform_eq_ok sizes.grid.cols sizes.tileInfo.cols hwidth hcol
    obtain ⟨h, hh⟩ := uniform_eq_ok sizes.grid.rows sizes.tileInfo.rows hheight hrow
    rw [hw, ok_bind, hh]
    exact ⟨(w, h), rfl⟩
  · rename_i hspacing
    have hspacing : sizes.tileInfo.uniformSpacing = false := Bool.eq_false_of_not_eq_true hspacing
    obtain ⟨w, hw⟩ := explicit_eq_ok (ht.width_lt hspacing) hcol
    obtain ⟨h, hh⟩ := explicit_eq_ok (ht.height_lt hspacing) hrow
    rw [hw, ok_bind, hh]
    exact ⟨(w, h), rfl⟩

/-- Every tile of a frame has a size. -/
theorem sizeAt_number_eq_ok {sizes : TileSizes} {number : Nat} (ht : sizes.tileInfo.InRange)
    (hwidth : sizes.uniformWidth ≤ 1024) (hheight : sizes.uniformHeight ≤ 1024)
    (hnumber : number < sizes.tileInfo.cols * sizes.tileInfo.rows) :
    ∃ size, sizes.sizeAt (number / sizes.tileInfo.cols) (number % sizes.tileInfo.cols) =
      .ok size := by
  have hrow : number / sizes.tileInfo.cols < sizes.tileInfo.rows := Nat.div_lt_of_lt_mul hnumber
  have hcol : number % sizes.tileInfo.cols < sizes.tileInfo.cols :=
    Nat.mod_lt _ (Nat.pos_of_mul_pos_right (b := sizes.tileInfo.rows) (Nat.zero_lt_of_lt hnumber))
  exact sizeAt_eq_ok ht hwidth hheight (hrow.trans_le ht.rows_le) (hcol.trans_le ht.cols_le)

end TileSizes

end Av1Frames
