import Av1Frames.Proofs.Encoder.Layout

namespace Av1Frames

open Checked

/-- The widest tile in superblocks is the widest one in luma samples. -/
theorem SuperblockGrid.maxTileWidthSb_mul_size (g : SuperblockGrid) :
    g.maxTileWidthSb * 2 ^ g.sizeLog2 = maxTileWidth := by
  rw [maxTileWidthSb_eq, sizeLog2]
  split <;> rfl

namespace TileLayout

variable {config : EncoderConfig} {columns : Columns} {rows : Nat} {layout : TileLayout}

theorem clip_le_max (value low high : Nat) : clip value low high ≤ max value low := by
  unfold clip
  split
  · exact le_max_right _ _
  · split <;> omega

/-- Tile info holds sizes as far as it has room for them. -/
theorem take_firstSizes_eq_iff {sizes : List Nat} :
    (firstSizes sizes).toList.take sizes.length = sizes ↔ sizes.length ≤ maxTilesPerSide := by
  constructor
  · intro h
    have hlength := congrArg List.length h
    simp only [List.length_take, Vector.length_toList] at hlength
    simp only [maxTilesPerSide]
    omega
  · exact take_firstSizes

namespace Columns.ReadyFor

/-- There are columns just if there is something for them to cover. -/
theorem one_le_count_iff (h : columns.ReadyFor config) :
    1 ≤ columns.count ↔ 1 ≤ columns.grid.cols := by
  have hchosen := chosenFor_of_chooseColumns h.chosen
  constructor
  · intro hcount
    exact hcount.trans hchosen.count_le
  · intro hcols
    have hpos := Nat.pos_of_mul_pos_right (hcols.trans hchosen.fits)
    exact hpos

/-- There are no more columns than tile info has room for just if so many of the widest ones are
    enough. -/
theorem count_le_iff (h : columns.ReadyFor config) :
    columns.count ≤ maxTilesPerSide ↔
      columns.grid.cols ≤ maxTilesPerSide * columns.grid.maxTileWidthSb := by
  obtain ⟨-, ⟨least, hleast, hcount⟩, -⟩ := chooseColumns_eq_ok_iff.mp h.chosen
  constructor
  · intro hle
    have hfits := (chosenFor_of_chooseColumns h.chosen).fits
    exact hfits.trans (Nat.mul_le_mul_right _ hle)
  · intro hfits
    have hlow := (divideUp_le_iff hleast).mpr hfits
    rw [← hcount]
    exact (clip_le_max _ _ _).trans (max_le h.asked hlow)

end Columns.ReadyFor

theorem MadeOf.of_attempt (h : attempt config columns rows = .ok (.ok layout)) :
    layout.MadeOf columns rows := by
  rcases made_of_attempt h with ⟨_, hmade⟩ | ⟨_, hmade⟩
  · exact hmade.toMadeOf
  · exact hmade.toMadeOf

/-- A layout has one to 64 rows, whose heights are all in its tile info, and columns in the same
    number if they were asked for. In any case it has a column if the frame has a width, up to 64 if
    so many of the widest tiles reach across the frame, and all of their widths in its tile info
    only then. -/
theorem counts_of_ofConfig (h : ofConfig config = .ok layout) :
    (1 ≤ layout.rows ∧ layout.rows ≤ maxTilesPerSide) ∧
    layout.tileInfo.heightsMinus1 = layout.heightsMinus1 ∧
    (config.tileCols ≠ 0 → 1 ≤ layout.cols ∧ layout.cols ≤ maxTilesPerSide) ∧
    (1 ≤ layout.cols ↔ 1 ≤ config.resolution.width) ∧
    (layout.cols ≤ maxTilesPerSide ↔ config.resolution.width ≤ maxTilesPerSide * maxTileWidth) ∧
    (layout.tileInfo.widthsMinus1 = layout.widthsMinus1 ↔ layout.cols ≤ maxTilesPerSide) := by
  obtain ⟨columns, rows, hready, hrowsFor, hattempt⟩ := ofConfig_eq_ok_iff.mp h
  have hmade := MadeOf.of_attempt hattempt
  obtain ⟨hgrid, -, hasked, -⟩ := chooseColumns_eq_ok_iff.mp hready.chosen
  have hrows : 1 ≤ layout.rows ∧ layout.rows ≤ maxTilesPerSide := by
    rw [hmade.rows_eq]
    exact ⟨hrowsFor.pos, hrowsFor.le⟩
  refine ⟨hrows, take_firstSizes hrows.2, ?_, ?_, ?_, take_firstSizes_eq_iff⟩
  · intro hgiven
    rw [hmade.cols_eq, ← hasked hgiven]
    exact ⟨Nat.one_le_iff_ne_zero.mpr hgiven, hready.asked⟩
  · have hempty := SuperblockGrid.cols_le_iff (n := 0) hgrid
    rw [hmade.cols_eq, hready.one_le_count_iff]
    omega
  · rw [hmade.cols_eq, hready.count_le_iff, SuperblockGrid.cols_le_iff hgrid, Nat.mul_assoc,
      SuperblockGrid.maxTileWidthSb_mul_size]

/-- The widest frame that tile info has room for. -/
def widestConfig : EncoderConfig :=
  { resolution := { width := 262144, height := 64 }, tileCols := 0 }

theorem counts_of_widestConfig :
    ∃ layout, ofConfig widestConfig = .ok layout ∧ layout.cols = 64 ∧
      layout.tileInfo.widthsMinus1 = layout.widthsMinus1 := by
  let layout : TileLayout := {
    grid := { cols := 4096, rows := 1, large := false }
    uniform := true
    colsLog2 := 6
    rowsLog2 := 0
    widthsMinus1 := List.replicate 64 63
    heightsMinus1 := [0]
    tileSizeBytesMinus1 := 3 }
  have h : ofConfig widestConfig = .ok layout := by decide +kernel
  obtain ⟨-, -, -, -, hcols, hwidths⟩ := counts_of_ofConfig h
  exact ⟨layout, h, rfl, hwidths.mpr (hcols.mpr (by decide))⟩

/-- A frame of 65 of the widest tiles gets 65 columns, of which tile info holds 64. -/
theorem not_counts_le :
    ¬ ∀ (config : EncoderConfig) (layout : TileLayout), ofConfig config = .ok layout →
      ((1 ≤ layout.cols ∧ layout.cols ≤ 64) ∧ 1 ≤ layout.rows ∧ layout.rows ≤ 64) ∧
        layout.tileInfo.widthsMinus1 = layout.widthsMinus1 ∧
        layout.tileInfo.heightsMinus1 = layout.heightsMinus1 := by
  let config : EncoderConfig :=
    { widestConfig with resolution := { width := 266240, height := 64 } }
  let layout : TileLayout := {
    grid := { cols := 4160, rows := 1, large := false }
    uniform := false
    colsLog2 := 7
    rowsLog2 := 0
    widthsMinus1 := List.replicate 65 63
    heightsMinus1 := [0]
    tileSizeBytesMinus1 := 3 }
  intro h
  have hlayout : ofConfig config = .ok layout := by decide +kernel
  obtain ⟨⟨⟨-, hcols⟩, -⟩, -⟩ := h config layout hlayout
  exact absurd hcols (by decide)

end TileLayout

end Av1Frames
