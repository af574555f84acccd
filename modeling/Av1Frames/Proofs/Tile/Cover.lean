import Av1Frames.Encoder.Tracker
import Av1Frames.Proofs.Tile.Info.Syntax
import Av1Frames.Proofs.Tile.Span

namespace Av1Frames

open Checked

/-- How many superblocks the tiles of a row have from left to right. -/
def rowWidth (tiles : List Tile) (row : Nat) : Nat :=
  ((tiles.filter fun t => t.row = row).map Tile.width).sum

/-- How many superblocks the tiles of a column have from top to bottom. -/
def colHeight (tiles : List Tile) (col : Nat) : Nat :=
  ((tiles.filter fun t => t.col = col).map Tile.height).sum

/-- Tiles on the superblocks of the greatest frames, where they are looked for, reach as far as
    those of a frame, which its header is written for, in every row and column. Explicit sizes end
    there, uniform ones if both grids do. -/
structure Covers (t : TileInfo) (frame greatest : SuperblockGrid) (tiles : List Tile) : Prop where
  row : ∀ row < t.rows, frame.cols ≤ rowWidth tiles row ∧
    (rowWidth tiles row = frame.cols ↔ (t.uniformSpacing → greatest.cols = frame.cols))
  col : ∀ col < t.cols, frame.rows ≤ colHeight tiles col ∧
    (colHeight tiles col = frame.rows ↔ (t.uniformSpacing → greatest.rows = frame.rows))

theorem Header.tileInfoBits_eq_ok_iff {header : Header} {s : Sequence} {bits : Bits} :
    header.tileInfoBits s = .ok bits ↔ ∃ grid, SuperblockGrid.ofSize header.frameWidth
      header.frameHeight s.use128x128Superblock = .ok grid ∧
      header.tileInfo.bits grid = .ok bits := by
  simp only [tileInfoBits, bind_eq_ok_iff, liftM_eq_ok_iff]

namespace TileGroup

variable {g : TileGroup} {s : Sequence} {header : Header} {tiles : List Tile} {sizes : TileSizes}

/-- Every tile of a group has the width of its column and the height of its row. -/
theorem size_of_tiles (h : g.tiles s header = .ok tiles)
    (hsizes : TileSizes.ofSequence s header.tileInfo = .ok sizes) {tile : Tile}
    (hmem : tile ∈ tiles) : tile.width = sizes.width tile.col ∧
      tile.height = sizes.height tile.row := by
  obtain ⟨data, sizes', -, -, -, -, -, hsizes', hfrom⟩ := tiles_eq_ok_iff.mp h
  obtain rfl : sizes = sizes' := Except.ok.inj (hsizes.symm.trans hsizes')
  exact TileSizes.size_of_sizeAt (sizeAt_of_tilesFrom hfrom hmem)

/-- The tiles of a group of the whole frame are dealt out row by row. -/
theorem places_of_tiles (h : g.tiles s header = .ok tiles)
    (hsizes : TileSizes.ofSequence s header.tileInfo = .ok sizes) (hfirst : g.first = 0)
    (hlast : g.last + 1 = header.tileInfo.cols * header.tileInfo.rows) :
    tiles.map (fun t => (t.row, t.col, t.width, t.height)) =
      (List.range (header.tileInfo.cols * header.tileInfo.rows)).map fun n =>
        (n / header.tileInfo.cols, n % header.tileInfo.cols, sizes.width (n % header.tileInfo.cols),
          sizes.height (n / header.tileInfo.cols)) := by
  obtain ⟨hlength, hnumber⟩ := numbered_of_tiles h
  refine List.ext_getElem (by simp; omega) fun j hj _ => ?_
  rw [List.length_map] at hj
  obtain ⟨hrow, hcol⟩ := hnumber j hj
  obtain ⟨hwidth, hheight⟩ := size_of_tiles h hsizes (List.getElem_mem hj)
  rw [hfirst, Nat.zero_add] at hrow hcol
  rw [List.getElem_map, List.getElem_map, List.getElem_range, hwidth, hheight, hrow, hcol]

theorem rowWidth_of_tiles (h : g.tiles s header = .ok tiles)
    (hsizes : TileSizes.ofSequence s header.tileInfo = .ok sizes) (hfirst : g.first = 0)
    (hlast : g.last + 1 = header.tileInfo.cols * header.tileInfo.rows) {row : Nat}
    (hrow : row < header.tileInfo.rows) :
    rowWidth tiles row = ((List.range header.tileInfo.cols).map sizes.width).sum := by
  have hplaces := places_of_tiles h hsizes hfirst hlast
  have hparts : rowWidth tiles row =
      (((tiles.map fun t => (t.row, t.col, t.width, t.height)).filter
        fun p => p.1 = row).map fun p => p.2.2.1).sum := by
    rw [List.filter_map, List.map_map]
    rfl
  rw [hparts, hplaces, List.filter_map, List.map_map]
  exact (sum_row _ _ row sizes.width).trans (if_pos hrow)

theorem colHeight_of_tiles (h : g.tiles s header = .ok tiles)
    (hsizes : TileSizes.ofSequence s header.tileInfo = .ok sizes) (hfirst : g.first = 0)
    (hlast : g.last + 1 = header.tileInfo.cols * header.tileInfo.rows) {col : Nat}
    (hcol : col < header.tileInfo.cols) :
    colHeight tiles col = ((List.range header.tileInfo.rows).map sizes.height).sum := by
  have hplaces := places_of_tiles h hsizes hfirst hlast
  have hparts : colHeight tiles col =
      (((tiles.map fun t => (t.row, t.col, t.width, t.height)).filter
        fun p => p.2.1 = col).map fun p => p.2.2.2).sum := by
    rw [List.filter_map, List.map_map]
    rfl
  rw [hparts, hplaces, List.filter_map, List.map_map]
  exact sum_col hcol _ sizes.height

/-- Tiles that are found for all of a frame cover it if its header can be written and it is no
    greater than the greatest frames. -/
theorem covers_of_written {bits : Bits} (hwidth : header.frameWidth ≤ s.maxFrameWidthMinus1 + 1)
    (hheight : header.frameHeight ≤ s.maxFrameHeightMinus1 + 1)
    (hwritten : header.tileInfoBits s = .ok bits) (hfirst : g.first = 0)
    (hlast : g.last + 1 = header.tileInfo.cols * header.tileInfo.rows)
    (htiles : g.tiles s header = .ok tiles) :
    ∃ frame greatest, SuperblockGrid.ofSize header.frameWidth header.frameHeight
        s.use128x128Superblock = .ok frame ∧
      SuperblockGrid.ofSequence s = .ok greatest ∧
      Covers header.tileInfo frame greatest tiles := by
  obtain ⟨frame, hframe, hbits⟩ := Header.tileInfoBits_eq_ok_iff.mp hwritten
  obtain ⟨_, sizes, -, hvalid, -, -, -, hsizes, -⟩ := tiles_eq_ok_iff.mp htiles
  obtain ⟨hinfo, hgreatest, hsizeW, hsizeH⟩ := TileSizes.ofSequence_eq_ok_iff.mp hsizes
  obtain ⟨⟨hcolsPos, hrowsPos⟩, ⟨hcolsLe, hrowsLe⟩, -⟩ := validLayout_iff.mp hvalid
  obtain ⟨hcolsLt, hrowsLt⟩ := SuperblockGrid.lt_of_ofSize hframe
  obtain ⟨hcols, hrows⟩ := SuperblockGrid.le_of_ofSize hframe
    (SuperblockGrid.ofSize_of_ofSequence hgreatest) hwidth hheight
  obtain ⟨hspacing, -⟩ := (TileInfo.exists_bits_iff hcolsLt hrowsLt).mp ⟨bits, hbits⟩
  refine ⟨frame, sizes.grid, hframe, hgreatest, ⟨fun row hrow => ?_, fun col hcol => ?_⟩⟩
  · rw [rowWidth_of_tiles htiles hsizes hfirst hlast hrow]
    unfold TileSizes.width
    rw [hinfo]
    cases huniform : header.tileInfo.uniformSpacing with
    | true =>
      rw [if_pos huniform] at hspacing
      obtain ⟨-, -, size, -, -, -, hsize, hcount⟩ := hspacing.cols
      simpa using TileSizes.sum_along_uniform_eq_iff hsize hcount hsizeW hcols hcolsPos
    | false =>
      rw [if_neg (by simp [huniform])] at hspacing
      have hcovered := hspacing.widths.covered
      rw [TileSizes.sum_along_explicit hcolsLe]
      simpa using ⟨hcovered.ge, hcovered⟩
  · rw [colHeight_of_tiles htiles hsizes hfirst hlast hcol]
    unfold TileSizes.height
    rw [hinfo]
    cases huniform : header.tileInfo.uniformSpacing with
    | true =>
      rw [if_pos huniform] at hspacing
      obtain ⟨-, -, size, -, -, -, hsize, hcount⟩ := hspacing.rows
      simpa using TileSizes.sum_along_uniform_eq_iff hsize hcount hsizeH hrows hrowsPos
    | false =>
      rw [if_neg (by simp [huniform])] at hspacing
      obtain ⟨greatest, -, hheights⟩ := hspacing.heights
      have hcovered := hheights.covered
      rw [TileSizes.sum_along_explicit hrowsLe]
      simpa using ⟨hcovered.ge, hcovered⟩

/-- The sequence of frames of up to three superblocks, and the header of one with two. Its two tiles
    have one superblock each. -/
def pairSequence : Sequence := { maxFrameWidthMinus1 := 191, maxFrameHeightMinus1 := 63 }

def pairHeader : Header :=
  { frameWidth := 128, frameHeight := 64, tileInfo := { pairInfo with uniformSpacing := false } }

theorem covers_of_written_pairHeader :
    (∃ bits, pairHeader.tileInfoBits pairSequence = .ok bits) ∧
      pairGroup.tiles pairSequence pairHeader = .ok pairTiles ∧
      Covers pairHeader.tileInfo ⟨2, 1, false⟩ ⟨3, 1, false⟩ pairTiles := by
  have hbits : pairHeader.tileInfoBits pairSequence =
      .ok (List.replicate 5 false) := by decide +kernel
  have htiles : pairGroup.tiles pairSequence pairHeader = .ok pairTiles := by decide +kernel
  obtain ⟨frame, greatest, hframe, hgreatest, hcovers⟩ :=
    covers_of_written (by decide) (by decide) hbits rfl (by decide) htiles
  obtain rfl : frame = ⟨2, 1, false⟩ := by
    have h : SuperblockGrid.ofSize 128 64 false = .ok ⟨2, 1, false⟩ := by decide +kernel
    exact Except.ok.inj (hframe.symm.trans h)
  obtain rfl : greatest = ⟨3, 1, false⟩ := by
    have h : SuperblockGrid.ofSequence pairSequence = .ok ⟨3, 1, false⟩ := by decide +kernel
    exact Except.ok.inj (hgreatest.symm.trans h)
  exact ⟨⟨_, hbits⟩, htiles, hcovers⟩

/-- A single uniform tile is as wide as the greatest frames, also in a frame of half their width. -/
theorem not_covers_exactly :
    ¬ ∀ (s : Sequence) (header : Header) (g : TileGroup) (tiles : List Tile)
        (bits : Bits) (frame : SuperblockGrid),
      1 ≤ header.frameWidth → header.frameWidth ≤ s.maxFrameWidthMinus1 + 1 →
      1 ≤ header.frameHeight → header.frameHeight ≤ s.maxFrameHeightMinus1 + 1 →
      header.tileInfoBits s = .ok bits → g.first = 0 →
      g.last + 1 = header.tileInfo.cols * header.tileInfo.rows → g.tiles s header = .ok tiles →
      SuperblockGrid.ofSize header.frameWidth header.frameHeight s.use128x128Superblock =
        .ok frame →
      (∀ row < header.tileInfo.rows, rowWidth tiles row = frame.cols) ∧
        ∀ col < header.tileInfo.cols, colHeight tiles col = frame.rows := by
  intro h
  obtain ⟨hrow, -⟩ := h { maxFrameWidthMinus1 := 127, maxFrameHeightMinus1 := 63 }
    { frameWidth := 64, frameHeight := 64 } { data := [0], dataSize := 1 }
    [{ groupOffset := 0, offset := 0, size := 1, row := 0, col := 0, width := 2, height := 1 }]
    [true] ⟨1, 1, false⟩ (by decide) (by decide) (by decide) (by decide) (by decide +kernel) rfl rfl
    (by decide +kernel) (by decide +kernel)
  exact absurd (hrow 0 (by decide)) (by decide)

end TileGroup

end Av1Frames
