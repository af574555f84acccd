import Av1Frames.Proofs.Encoder.Split
import Av1Frames.Proofs.Tile.Cover

namespace Av1Frames

open Checked

namespace TileLayout

variable {config : EncoderConfig} {columns : Columns} {rows : Nat} {layout : TileLayout}

/-- What is asked for is taken as it is, or replaced by the nearer end of the range. -/
theorem clip_bounds (value : Nat) {low high : Nat} (h : low ≤ high) :
    low ≤ clip value low high ∧ clip value low high ≤ high := by
  unfold clip
  split
  · omega
  · split <;> omega

theorem eq_clip_iff {value low high : Nat} (_ : low ≤ high) :
    value = clip value low high ↔ low ≤ value ∧ value ≤ high := by
  unfold clip
  split
  · omega
  · split <;> omega

/-- The columns that are chosen for a configuration. -/
structure Columns.ChosenFor (columns : Columns) (config : EncoderConfig) : Prop where
  grid : SuperblockGrid.ofSize config.resolution.width config.resolution.height
    config.use128x128Superblock = .ok columns.grid
  fits : columns.grid.cols ≤ columns.count * columns.grid.maxTileWidthSb
  count_le : columns.count ≤ columns.grid.cols
  log2 : tileLog2 1 columns.count = .ok columns.log2
  width : SuperblockGrid.uniformTileSize columns.grid.cols columns.log2 =
    .ok columns.uniformWidth
  rows_le : config.tileRows ≤ columns.grid.rows

theorem chooseColumns_eq_ok_iff :
    chooseColumns config = .ok columns ↔
      SuperblockGrid.ofSize config.resolution.width config.resolution.height
        config.use128x128Superblock = .ok columns.grid ∧
      (∃ least, divideUp columns.grid.cols columns.grid.maxTileWidthSb = .ok least ∧
        clip config.tileCols least columns.grid.cols = columns.count) ∧
      (config.tileCols ≠ 0 → config.tileCols = columns.count) ∧
      config.tileRows ≤ columns.grid.rows ∧ tileLog2 1 columns.count = .ok columns.log2 ∧
      SuperblockGrid.uniformTileSize columns.grid.cols columns.log2 = .ok columns.uniformWidth := by
  simp only [chooseColumns, guard_eq_ok_iff, bind_eq_ok_iff, liftM_eq_ok_iff, not_lt,
    Bool.and_eq_true, decide_eq_true_eq, not_and_not_right]
  constructor
  · rintro ⟨grid, hgrid, least, hleast, hasked, hrows, log2, hlog2, width, hwidth, h⟩
    obtain rfl := Except.ok.inj h
    exact ⟨hgrid, ⟨least, hleast, rfl⟩, hasked, hrows, hlog2, hwidth⟩
  · obtain ⟨grid, count, log2, width⟩ := columns
    rintro ⟨hgrid, ⟨least, hleast, hcount⟩, hasked, hrows, hlog2, hwidth⟩
    obtain rfl : count = clip config.tileCols least grid.cols := hcount.symm
    exact ⟨grid, hgrid, least, hleast, hasked, hrows, log2, hlog2, width, hwidth, rfl⟩

theorem chosenFor_of_chooseColumns (h : chooseColumns config = .ok columns) :
    columns.ChosenFor config := by
  obtain ⟨hgrid, ⟨least, hleast, hcount⟩, -, hrows, hlog2, hwidth⟩ := chooseColumns_eq_ok_iff.mp h
  obtain ⟨hlow, hhigh⟩ := clip_bounds config.tileCols (divideUp_le_self hleast)
  rw [hcount] at hlow hhigh
  exact ⟨hgrid, (divideUp_le_iff hleast).mp hlow, hhigh, hlog2, hwidth, hrows⟩

/-- The first number of rows that fits has smaller ones before it that are only too few. -/
theorem firstFit_range'_eq_ok_iff {first n : Nat} :
    firstFit config columns (List.range' first n) = .ok layout ↔
      ∃ rows, (first ≤ rows ∧ rows < first + n) ∧ attempt config columns rows = .ok (.ok layout) ∧
        ∀ fewer, first ≤ fewer → fewer < rows →
          ∃ least, attempt config columns fewer = .ok (.error least) := by
  induction n generalizing first with
  | zero =>
    refine iff_of_false fail_ne_ok ?_
    rintro ⟨rows, hrange, -⟩
    omega
  | succ n ih =>
    rw [List.range'_succ, firstFit, bind_eq_ok_iff]
    constructor
    · rintro ⟨tried, htried, h⟩
      rw [liftM_eq_ok_iff] at htried
      cases tried with
      | ok found =>
        obtain rfl := Except.ok.inj h
        exact ⟨first, by omega, htried, fun fewer hle hlt => absurd hlt (Nat.not_lt.mpr hle)⟩
      | error least =>
        obtain ⟨rows, hrange, hattempt, hfewer⟩ := ih.mp h
        refine ⟨rows, by omega, hattempt, fun fewer hle hlt => ?_⟩
        rcases Nat.eq_or_lt_of_le hle with rfl | hlater
        · exact ⟨least, htried⟩
        · exact hfewer fewer hlater hlt
    · rintro ⟨rows, hrange, hattempt, hfewer⟩
      rcases Nat.eq_or_lt_of_le hrange.1 with rfl | hlater
      · exact ⟨_, liftM_eq_ok_iff.mpr hattempt, rfl⟩
      · obtain ⟨least, hleast⟩ := hfewer first le_rfl hlater
        refine ⟨_, liftM_eq_ok_iff.mpr hleast, ih.mpr ⟨rows, by omega, hattempt, ?_⟩⟩
        exact fun fewer hle hlt => hfewer fewer (Nat.le_of_succ_le hle) hlt

/-- What has to hold of a configuration for any rows to be tried below its columns. -/
structure Columns.ReadyFor (columns : Columns) (config : EncoderConfig) : Prop where
  asked : config.tileCols ≤ maxTilesPerSide
  bytes : 1 ≤ config.tileSizeBytes ∧ config.tileSizeBytes ≤ 4
  chosen : chooseColumns config = .ok columns
  tiles : ∃ least, columns.grid.minLog2Tiles = .ok least

/-- The rows that a configuration comes to below its columns: those that it asks for, or else the
    first ones that are not too few. -/
structure Columns.RowsFor (columns : Columns) (config : EncoderConfig) (rows : Nat) : Prop where
  pos : 1 ≤ rows
  inGrid : rows ≤ columns.grid.rows
  le : rows ≤ maxTilesPerSide
  asked : config.tileRows ≠ 0 → rows = config.tileRows
  first : config.tileRows = 0 → ∀ fewer, 1 ≤ fewer → fewer < rows →
    ∃ least, attempt config columns fewer = .ok (.error least)

/-- A layout comes from an attempt with the rows that the configuration comes to. -/
theorem ofConfig_eq_ok_iff :
    ofConfig config = .ok layout ↔ ∃ columns rows, Columns.ReadyFor columns config ∧
      columns.RowsFor config rows ∧ attempt config columns rows = .ok (.ok layout) := by
  simp only [ofConfig, guard_eq_ok_iff, bind_eq_ok_iff, liftM_eq_ok_iff, Bool.or_eq_true,
    decide_eq_true_eq, not_or, not_lt]
  constructor
  · rintro ⟨hasked, hbytes, columns, hcolumns, least, hleast, h⟩
    have hready : columns.ReadyFor config := ⟨hasked.1, hbytes, hcolumns, least, hleast⟩
    by_cases hopen : config.tileRows = 0
    · rw [if_pos hopen] at h
      obtain ⟨rows, hrange, hattempt, hfewer⟩ := firstFit_range'_eq_ok_iff.mp h
      exact ⟨columns, rows, hready, ⟨hrange.1, by omega, by omega, absurd hopen, fun _ => hfewer⟩,
        hattempt⟩
    · rw [if_neg hopen, bind_eq_ok_iff] at h
      obtain ⟨tried, htried, h⟩ := h
      rw [liftM_eq_ok_iff] at htried
      have hrows : columns.RowsFor config config.tileRows :=
        ⟨Nat.one_le_iff_ne_zero.mpr hopen, (chosenFor_of_chooseColumns hcolumns).rows_le, hasked.2,
          fun _ => rfl, fun h => absurd h hopen⟩
      cases tried with
      | ok found =>
        obtain rfl := Except.ok.inj h
        exact ⟨columns, config.tileRows, hready, hrows, htried⟩
      | error least => exact absurd h fail_ne_ok
  · rintro ⟨columns, rows, ⟨hcols, hbytes, hcolumns, least, hleast⟩, hrows, hattempt⟩
    by_cases hopen : config.tileRows = 0
    · refine ⟨⟨hcols, by omega⟩, hbytes, columns, hcolumns, least, hleast, ?_⟩
      rw [if_pos hopen, firstFit_range'_eq_ok_iff]
      have hpos := hrows.pos
      have hgrid := hrows.inGrid
      have hle := hrows.le
      exact ⟨rows, by omega, hattempt, hrows.first hopen⟩
    · obtain rfl := hrows.asked hopen
      refine ⟨⟨hcols, hrows.le⟩, hbytes, columns, hcolumns, least, hleast, ?_⟩
      rw [if_neg hopen]
      exact bind_eq_ok_iff.mpr ⟨_, liftM_eq_ok_iff.mpr hattempt, rfl⟩

/-- A layout has the chosen columns and the given number of rows. -/
structure MadeOf (layout : TileLayout) (columns : Columns) (rows : Nat) : Prop where
  grid_eq : layout.grid = columns.grid
  colsLog2_eq : layout.colsLog2 = columns.log2
  rowsLog2_eq : tileLog2 1 rows = .ok layout.rowsLog2
  cols_eq : layout.cols = columns.count
  rows_eq : layout.rows = rows

/-- Its tiles are uniform, with the given height. -/
structure UniformlyMadeOf (layout : TileLayout) (columns : Columns) (rows height : Nat) : Prop
    extends layout.MadeOf columns rows where
  uniform_eq : layout.uniform = true
  count_eq : divideUp columns.grid.cols columns.uniformWidth = .ok columns.count
  height_eq : SuperblockGrid.uniformTileSize columns.grid.rows layout.rowsLog2 = .ok height
  rowCount_eq : divideUp columns.grid.rows height = .ok rows
  area_le : columns.uniformWidth * height ≤ columns.grid.maxTileAreaSb
  widths_eq : uniformSplit columns.grid.cols columns.uniformWidth columns.count =
    .ok layout.widthsMinus1
  heights_eq : uniformSplit columns.grid.rows height rows = .ok layout.heightsMinus1

/-- Its tiles are of nearly equal size, and none may be higher than `greatest`. -/
structure EvenlyMadeOf (layout : TileLayout) (columns : Columns) (rows greatest : Nat) : Prop
    extends layout.MadeOf columns rows where
  uniform_eq : layout.uniform = false
  widths_eq : evenSplit columns.grid.cols columns.count = .ok layout.widthsMinus1
  heights_eq : evenSplit columns.grid.rows rows = .ok layout.heightsMinus1
  greatest_eq : columns.grid.maxExplicitHeight layout.widthsMinus1 = .ok greatest
  rows_le : columns.grid.rows ≤ rows * greatest

theorem uniformlyMade_of_uniform? (h : uniform? config columns rows = .ok (some layout)) :
    ∃ height, layout.UniformlyMadeOf columns rows height := by
  unfold uniform? at h
  dsimp only at h
  split at h
  · exact nomatch h
  simp only [bind_eq_ok_iff] at h
  obtain ⟨count, hcount, h⟩ := h
  split at h
  · exact nomatch h
  rename_i hcountEq
  simp only [bind_eq_ok_iff] at h
  obtain ⟨rowsLog2, hrowsLog2, height, hheight, rows', hrows, h⟩ := h
  split at h
  · exact nomatch h
  rename_i hrowsEq
  simp only [bind_eq_ok_iff] at h
  obtain ⟨most, hmost, h⟩ := h
  split at h
  · exact nomatch h
  rename_i hheightLe
  simp only [bind_eq_ok_iff] at h
  obtain ⟨widths, hwidths, heights, hheights, h⟩ := h
  obtain rfl := Option.some.inj (Except.ok.inj h)
  obtain ⟨-, rfl⟩ := divide_eq_ok_iff.mp hmost
  rw [not_not] at hcountEq hrowsEq
  subst hcountEq hrowsEq
  refine ⟨height, ⟨rfl, rfl, hrowsLog2, ?_, ?_⟩, rfl, hcount, hheight, hrows, ?_, hwidths, hheights⟩
  · exact (uniformSplit_eq_ok hwidths).1
  · exact (uniformSplit_eq_ok hheights).1
  · exact (Nat.mul_le_mul_left _ (not_lt.mp hheightLe)).trans (Nat.mul_div_le _ _)

theorem made_of_attempt (h : attempt config columns rows = .ok (.ok layout)) :
    (∃ height, layout.UniformlyMadeOf columns rows height) ∨
      ∃ greatest, layout.EvenlyMadeOf columns rows greatest := by
  rw [attempt, bind_eq_ok_iff] at h
  obtain ⟨uniform, huniform, h⟩ := h
  cases uniform with
  | some found =>
    obtain rfl := Except.ok.inj (Except.ok.inj h)
    exact .inl (uniformlyMade_of_uniform? huniform)
  | none =>
    dsimp only at h
    simp only [bind_eq_ok_iff] at h
    obtain ⟨widths, hwidths, greatest, hgreatest, least, hleast, h⟩ := h
    split at h
    · exact nomatch h
    rename_i hclip
    simp only [bind_eq_ok_iff] at h
    obtain ⟨rowsLog2, hrowsLog2, heights, hheights, h⟩ := h
    obtain rfl := Except.ok.inj (Except.ok.inj h)
    rw [not_not] at hclip
    have hlow := (clip_bounds rows (divideUp_le_self hleast)).1
    rw [← hclip] at hlow
    refine .inr ⟨greatest, ⟨rfl, rfl, hrowsLog2, ?_, ?_⟩, rfl, hwidths, hheights, hgreatest, ?_⟩
    · exact (evenSplit_eq_ok hwidths).1
    · exact (evenSplit_eq_ok hheights).1
    · exact (divideUp_le_iff hleast).mp hlow

/-- The tiles of a layout cover its grid, and none is too wide or too great. -/
structure WithinLimits (layout : TileLayout) : Prop where
  sum_widths : (layout.widthsMinus1.map (· + 1)).sum = layout.grid.cols
  sum_heights : (layout.heightsMinus1.map (· + 1)).sum = layout.grid.rows
  width_le : ∀ w ∈ layout.widthsMinus1, w + 1 ≤ layout.grid.maxTileWidthSb
  area_le : ∀ w ∈ layout.widthsMinus1, ∀ h ∈ layout.heightsMinus1,
    (w + 1) * (h + 1) ≤ layout.grid.maxTileAreaSb

/-- The tile info of a layout can be written for its grid, and its sizes are those that tiles are
    found with. -/
structure Sound (layout : TileLayout) : Prop extends layout.WithinLimits where
  log2_le : layout.colsLog2 ≤ 6 ∧ layout.rowsLog2 ≤ 6
  spacing : if layout.uniform then layout.tileInfo.UniformIn layout.grid
    else layout.tileInfo.ExplicitIn layout.grid
  width : ∀ size, SuperblockGrid.uniformTileSize layout.grid.cols layout.colsLog2 = .ok size →
    ∀ (i : Nat) (hi : i < layout.widthsMinus1.length), layout.widthsMinus1[i] + 1 =
      TileSizes.along layout.uniform layout.grid.cols size layout.cols
        (firstSizes layout.widthsMinus1) i
  height : ∀ size, SuperblockGrid.uniformTileSize layout.grid.rows layout.rowsLog2 = .ok size →
    ∀ (i : Nat) (hi : i < layout.heightsMinus1.length), layout.heightsMinus1[i] + 1 =
      TileSizes.along layout.uniform layout.grid.rows size layout.rows
        (firstSizes layout.heightsMinus1) i

namespace Columns.ChosenFor

theorem cols_le (h : columns.ChosenFor config) :
    columns.grid.cols ≤ columns.grid.maxTileWidthSb * 2 ^ columns.log2 := by
  have hcount := le_of_tileLog2 h.log2
  rw [Nat.one_mul] at hcount
  rw [Nat.mul_comm]
  exact h.fits.trans (Nat.mul_le_mul_right _ hcount)

theorem uniformWidth_le (h : columns.ChosenFor config) :
    columns.uniformWidth ≤ columns.grid.maxTileWidthSb :=
  (SuperblockGrid.uniformTileSize_le_iff h.width).mpr h.cols_le

theorem exists_minLog2TileCols (h : columns.ChosenFor config) (hlog2 : columns.log2 ≤ 6) :
    ∃ least, columns.grid.minLog2TileCols = .ok least ∧ least ≤ columns.log2 := by
  have hpow : 2 ^ columns.log2 ≤ 2 ^ 6 := Nat.pow_le_pow_right (by omega) hlog2
  have hwidth : columns.grid.maxTileWidthSb ≤ 64 := by
    rw [SuperblockGrid.maxTileWidthSb_eq]
    split <;> omega
  exact exists_tileLog2_of_le columns.grid.maxTileWidthSb_pos
    ((Nat.mul_le_mul hwidth hpow).trans_lt (by norm_num)) h.cols_le

end Columns.ChosenFor

/-- Small enough uniform tiles are numerous enough. -/
theorem exists_log2_of_uniform {grid : SuperblockGrid} {area width height colsLog2 rowsLog2 : Nat}
    (hwidth : SuperblockGrid.uniformTileSize grid.cols colsLog2 = .ok width)
    (hheight : SuperblockGrid.uniformTileSize grid.rows rowsLog2 = .ok height)
    (hcolsLog2 : colsLog2 ≤ 6) (hrowsLog2 : rowsLog2 ≤ 6)
    (hfits : width * height ≤ grid.maxTileAreaSb) (harea : grid.area = .ok area) :
    ∃ k, tileLog2 grid.maxTileAreaSb area = .ok k ∧ k ≤ colsLog2 + rowsLog2 := by
  have hcols := (SuperblockGrid.uniformTileSize_le_iff hwidth).mp le_rfl
  have hrows := (SuperblockGrid.uniformTileSize_le_iff hheight).mp le_rfl
  have hlimit : grid.maxTileAreaSb ≤ 2304 := by
    rw [SuperblockGrid.maxTileAreaSb_eq]
    split <;> omega
  have hpow : 2 ^ (colsLog2 + rowsLog2) ≤ 2 ^ 12 := Nat.pow_le_pow_right (by omega) (by omega)
  rw [SuperblockGrid.area, unsigned_eq_ok_iff] at harea
  obtain rfl : area = grid.rows * grid.cols := by exact_mod_cast harea.2.symm
  refine exists_tileLog2_of_le grid.maxTileAreaSb_pos
    ((Nat.mul_le_mul hlimit hpow).trans_lt (by norm_num)) ?_
  calc grid.rows * grid.cols ≤ height * 2 ^ rowsLog2 * (width * 2 ^ colsLog2) :=
        Nat.mul_le_mul hrows hcols
    _ = width * height * 2 ^ (colsLog2 + rowsLog2) := by ring
    _ ≤ grid.maxTileAreaSb * 2 ^ (colsLog2 + rowsLog2) := Nat.mul_le_mul_right _ hfits

section Made

variable {least height greatest : Nat} (hchosen : columns.ChosenFor config)
  (hrows : 0 < rows ∧ rows ≤ columns.grid.rows ∧ rows ≤ maxTilesPerSide) (hlow : 1 ≤ layout.cols)
  (hhigh : layout.cols ≤ maxTilesPerSide)

include hchosen hrows hhigh in
theorem MadeOf.exists_maxLog2 (h : layout.MadeOf columns rows) :
    (layout.colsLog2 ≤ 6 ∧
      ∃ most, layout.grid.maxLog2TileCols = .ok most ∧ layout.colsLog2 ≤ most) ∧
    (layout.rowsLog2 ≤ 6 ∧
      ∃ most, layout.grid.maxLog2TileRows = .ok most ∧ layout.rowsLog2 ≤ most) := by
  rw [h.cols_eq] at hhigh
  rw [h.grid_eq, h.colsLog2_eq]
  exact ⟨SuperblockGrid.exists_maxLog2_of_count hchosen.log2 hchosen.count_le hhigh,
    SuperblockGrid.exists_maxLog2_of_count h.rowsLog2_eq hrows.2.1 hrows.2.2⟩

namespace UniformlyMadeOf

include hchosen hrows hlow in
theorem withinLimits (h : layout.UniformlyMadeOf columns rows height) : layout.WithinLimits := by
  have hwidth {w : Nat} (hw : w ∈ layout.widthsMinus1) : w < columns.uniformWidth :=
    lt_of_uniformSplit h.widths_eq ((divideUp_le_iff h.count_eq).mp le_rfl) hw
  have hheight {h' : Nat} (hh : h' ∈ layout.heightsMinus1) : h' < height :=
    lt_of_uniformSplit h.heights_eq ((divideUp_le_iff h.rowCount_eq).mp le_rfl) hh
  refine ⟨?_, ?_, fun w hw => ?_, fun w hw h' hh => ?_⟩
  · rw [h.grid_eq]
    exact sum_of_uniformSplit h.widths_eq (h.cols_eq ▸ hlow)
  · rw [h.grid_eq]
    exact sum_of_uniformSplit h.heights_eq hrows.1
  · rw [h.grid_eq]
    exact (hwidth hw).trans_le hchosen.uniformWidth_le
  · rw [h.grid_eq]
    exact (Nat.mul_le_mul (hwidth hw) (hheight hh)).trans h.area_le

include hchosen hrows hhigh in
theorem uniformIn (h : layout.UniformlyMadeOf columns rows height)
    (hleast : columns.grid.minLog2Tiles = .ok least) : layout.tileInfo.UniformIn layout.grid := by
  obtain ⟨⟨hcolsLe, mostCols, hmostCols, hcolsMost⟩, hrowsLe, mostRows, hmostRows, hrowsMost⟩ :=
    h.exists_maxLog2 hchosen hrows hhigh
  obtain ⟨leastCols, area, tiles, hleastCols, harea, htiles, rfl⟩ :=
    SuperblockGrid.minLog2Tiles_eq_ok_iff.mp hleast
  have hwidth := hchosen.width
  obtain ⟨k, hk, hcolsLeast⟩ := hchosen.exists_minLog2TileCols (h.colsLog2_eq ▸ hcolsLe)
  obtain rfl := Except.ok.inj (hk.symm.trans hleastCols)
  rw [← h.colsLog2_eq] at hwidth hcolsLeast
  obtain ⟨k', hk', htilesLe⟩ :=
    exists_log2_of_uniform hwidth h.height_eq hcolsLe hrowsLe h.area_le harea
  obtain rfl := Except.ok.inj (hk'.symm.trans htiles)
  rw [h.grid_eq] at hmostCols hmostRows ⊢
  refine ⟨⟨k, mostCols, columns.uniformWidth, hk, hmostCols, ⟨hcolsLeast, hcolsMost⟩, hwidth, ?_⟩,
    max k k', mostRows, height, hleast, hmostRows, ⟨?_, hrowsMost⟩, h.height_eq, ?_⟩
  · exact h.count_eq.trans (congrArg Except.ok h.cols_eq.symm)
  · exact max_le (hcolsLeast.trans (Nat.le_add_right _ _)) htilesLe
  · exact h.rowCount_eq.trans (congrArg Except.ok h.rows_eq.symm)

include hchosen hrows hlow hhigh in
theorem sound (h : layout.UniformlyMadeOf columns rows height)
    (hleast : columns.grid.minLog2Tiles = .ok least) : layout.Sound := by
  obtain ⟨⟨hcolsLe, -⟩, hrowsLe, -⟩ := h.exists_maxLog2 hchosen hrows hhigh
  refine
    { h.withinLimits hchosen hrows hlow with
      log2_le := ⟨hcolsLe, hrowsLe⟩
      spacing := ?_
      width := fun size hsize i hi => ?_
      height := fun size hsize i hi => ?_ }
  · rw [if_pos h.uniform_eq]
    exact h.uniformIn hchosen hrows hhigh hleast
  · rw [h.grid_eq, h.colsLog2_eq] at hsize
    obtain rfl := Except.ok.inj (hchosen.width.symm.trans hsize)
    rw [h.uniform_eq, h.grid_eq, h.cols_eq]
    exact (uniformSplit_eq_ok h.widths_eq).2.2 i hi _
  · rw [h.grid_eq] at hsize
    obtain rfl := Except.ok.inj (h.height_eq.symm.trans hsize)
    rw [h.uniform_eq, h.grid_eq, h.rows_eq]
    exact (uniformSplit_eq_ok h.heights_eq).2.2 i hi _

end UniformlyMadeOf

namespace EvenlyMadeOf

include hchosen in
theorem width_lt (h : layout.EvenlyMadeOf columns rows greatest) {w : Nat}
    (hw : w ∈ layout.widthsMinus1) : w < columns.grid.maxTileWidthSb :=
  lt_of_evenSplit h.widths_eq hchosen.fits hw

theorem height_lt (h : layout.EvenlyMadeOf columns rows greatest) {h' : Nat}
    (hh : h' ∈ layout.heightsMinus1) : h' < greatest :=
  lt_of_evenSplit h.heights_eq h.rows_le hh

include hchosen hrows hlow in
theorem withinLimits (h : layout.EvenlyMadeOf columns rows greatest) : layout.WithinLimits := by
  refine ⟨?_, ?_, fun w hw => ?_, fun w hw h' hh => ?_⟩
  · rw [h.grid_eq]
    exact sum_of_evenSplit h.widths_eq (h.cols_eq ▸ hlow)
  · rw [h.grid_eq]
    exact sum_of_evenSplit h.heights_eq hrows.1
  · rw [h.grid_eq]
    exact h.width_lt hchosen hw
  · rw [h.grid_eq]
    exact SuperblockGrid.area_le_of_maxExplicitHeight h.greatest_eq hw (h.width_lt hchosen hw)
      (h.height_lt hh)

include hchosen hrows hlow hhigh in
theorem explicitIn (h : layout.EvenlyMadeOf columns rows greatest) :
    layout.tileInfo.ExplicitIn layout.grid := by
  have hlimits := h.withinLimits hchosen hrows hlow
  have hrowsLe : layout.rows ≤ maxTilesPerSide := h.rows_eq ▸ hrows.2.2
  have hwidths : layout.tileInfo.widthsMinus1 = layout.widthsMinus1 := take_firstSizes hhigh
  have hheights : layout.tileInfo.heightsMinus1 = layout.heightsMinus1 := take_firstSizes hrowsLe
  refine ⟨hhigh, hrowsLe, ?_, greatest, ?_, ?_⟩
  · rw [hwidths]
    refine ⟨(TileInfo.covered_eq_sum _).trans hlimits.sum_widths, hlimits.width_le, ?_⟩
    exact (congrArg (tileLog2 1) h.cols_eq).trans
      (hchosen.log2.trans (congrArg Except.ok h.colsLog2_eq.symm))
  · rw [hwidths, h.grid_eq, h.greatest_eq]
  · rw [hheights]
    refine ⟨(TileInfo.covered_eq_sum _).trans hlimits.sum_heights, fun h' hh => h.height_lt hh, ?_⟩
    exact (congrArg (tileLog2 1) h.rows_eq).trans h.rowsLog2_eq

include hchosen hrows hlow hhigh in
theorem sound (h : layout.EvenlyMadeOf columns rows greatest) : layout.Sound := by
  obtain ⟨⟨hcolsLe, -⟩, hrowsLe, -⟩ := h.exists_maxLog2 hchosen hrows hhigh
  refine
    { h.withinLimits hchosen hrows hlow with
      log2_le := ⟨hcolsLe, hrowsLe⟩
      spacing := ?_
      width := fun size _ i hi => ?_
      height := fun size _ i hi => ?_ }
  · rw [if_neg (by simp [h.uniform_eq])]
    exact h.explicitIn hchosen hrows hlow hhigh
  · rw [h.uniform_eq]
    exact along_firstSizes hhigh hi
  · rw [h.uniform_eq]
    exact along_firstSizes (h.rows_eq.le.trans hrows.2.2) hi

end EvenlyMadeOf

end Made

theorem sound_of_ofConfig (h : ofConfig config = .ok layout) (hlow : 1 ≤ layout.cols)
    (hhigh : layout.cols ≤ 64) :
    SuperblockGrid.ofSize config.resolution.width config.resolution.height
      config.use128x128Superblock = .ok layout.grid ∧ layout.Sound := by
  obtain ⟨columns, rows, hready, hrowsFor, hattempt⟩ := ofConfig_eq_ok_iff.mp h
  obtain ⟨least, hleast⟩ := hready.tiles
  have hchosen := chosenFor_of_chooseColumns hready.chosen
  have hrows : 0 < rows ∧ rows ≤ columns.grid.rows ∧ rows ≤ maxTilesPerSide :=
    ⟨hrowsFor.pos, hrowsFor.inGrid, hrowsFor.le⟩
  rcases made_of_attempt hattempt with ⟨height, hmade⟩ | ⟨greatest, hmade⟩
  · exact ⟨hmade.grid_eq ▸ hchosen.grid, hmade.sound hchosen hrows hlow hhigh hleast⟩
  · exact ⟨hmade.grid_eq ▸ hchosen.grid, hmade.sound hchosen hrows hlow hhigh⟩

theorem sum_pos {sizesMinus1 : List Nat} (h : 0 < sizesMinus1.length) :
    0 < (sizesMinus1.map (· + 1)).sum := by
  obtain ⟨size, hsize⟩ := List.exists_mem_of_length_pos h
  have hle := List.le_sum_of_mem (List.mem_map_of_mem (f := (· + 1)) hsize)
  omega

/-- How a layout has to be for what an encoder writes to be what the other side finds. -/
structure Realizes (layout : TileLayout) (config : EncoderConfig) : Prop
    extends layout.WithinLimits where
  grid : SuperblockGrid.ofSize config.resolution.width config.resolution.height
    config.use128x128Superblock = .ok layout.grid
  written : ∀ header : Header, header.frameWidth = config.resolution.width →
    header.frameHeight = config.resolution.height → header.tileInfo = layout.tileInfo →
    ∃ bits, header.tileInfoBits config.sequence = .ok bits
  found : ∀ (header : Header) (g : TileGroup) (tiles : List Tile),
    header.tileInfo = layout.tileInfo → g.tiles config.sequence header = .ok tiles →
    tiles.length = g.last - g.first + 1 ∧ ∀ (j : Nat) (hj : j < tiles.length),
      tiles[j].row = (g.first + j) / layout.cols ∧ tiles[j].col = (g.first + j) % layout.cols ∧
      layout.widthsMinus1[tiles[j].col]?.map (· + 1) = some tiles[j].width ∧
      layout.heightsMinus1[tiles[j].row]?.map (· + 1) = some tiles[j].height

theorem written_of_sound (h : layout.Sound)
    (hgrid : SuperblockGrid.ofSize config.resolution.width config.resolution.height
      config.use128x128Superblock = .ok layout.grid) {header : Header}
    (hwidth : header.frameWidth = config.resolution.width)
    (hheight : header.frameHeight = config.resolution.height)
    (hinfo : header.tileInfo = layout.tileInfo) :
    ∃ bits, header.tileInfoBits config.sequence = .ok bits := by
  obtain ⟨hcols, hrows⟩ := SuperblockGrid.lt_of_ofSize hgrid
  obtain ⟨hcolsLog2, hrowsLog2⟩ := h.log2_le
  have hlog2 : layout.tileInfo.colsLog2 + layout.tileInfo.rowsLog2 ≤ 32 := by
    change layout.colsLog2 + layout.rowsLog2 ≤ 32
    omega
  obtain ⟨bits, hbits⟩ := (TileInfo.exists_bits_iff hcols hrows).mpr ⟨h.spacing, hlog2⟩
  refine ⟨bits, Header.tileInfoBits_eq_ok_iff.mpr ⟨layout.grid, ?_, hinfo ▸ hbits⟩⟩
  rw [hwidth, hheight]
  exact hgrid

/-- The greatest frames of the encoded stream are those that were asked for. -/
theorem ofSequence_of_sound (hgrid : SuperblockGrid.ofSize config.resolution.width
      config.resolution.height config.use128x128Superblock = .ok layout.grid)
    (hcols : 0 < layout.grid.cols) (hrows : 0 < layout.grid.rows) {grid : SuperblockGrid}
    (h : SuperblockGrid.ofSequence config.sequence = .ok grid) : grid = layout.grid := by
  have hwidth : ¬ config.resolution.width ≤ 0 := by
    have hle := SuperblockGrid.cols_le_iff (n := 0) hgrid
    omega
  have hheight : ¬ config.resolution.height ≤ 0 := by
    have hle := SuperblockGrid.rows_le_iff (n := 0) hgrid
    omega
  have hsize := SuperblockGrid.ofSize_of_ofSequence h
  have hwidthEq : config.sequence.maxFrameWidthMinus1 + 1 = config.resolution.width :=
    Nat.sub_add_cancel (by omega)
  have hheightEq : config.sequence.maxFrameHeightMinus1 + 1 = config.resolution.height :=
    Nat.sub_add_cancel (by omega)
  rw [hwidthEq, hheightEq] at hsize
  exact Except.ok.inj (hsize.symm.trans hgrid)

theorem found_of_sound (h : layout.Sound)
    (hgrid : SuperblockGrid.ofSize config.resolution.width config.resolution.height
      config.use128x128Superblock = .ok layout.grid) {header : Header} {g : TileGroup}
    {tiles : List Tile} (hinfo : header.tileInfo = layout.tileInfo)
    (htiles : g.tiles config.sequence header = .ok tiles) :
    tiles.length = g.last - g.first + 1 ∧ ∀ (j : Nat) (hj : j < tiles.length),
      tiles[j].row = (g.first + j) / layout.cols ∧ tiles[j].col = (g.first + j) % layout.cols ∧
      layout.widthsMinus1[tiles[j].col]?.map (· + 1) = some tiles[j].width ∧
      layout.heightsMinus1[tiles[j].row]?.map (· + 1) = some tiles[j].height := by
  obtain ⟨_, sizes, -, hvalid, hrange, hlast, -, hsizes, -⟩ :=
    TileGroup.tiles_eq_ok_iff.mp htiles
  obtain ⟨⟨hcols, hrows⟩, -⟩ := TileGroup.validLayout_iff.mp hvalid
  obtain ⟨hlength, hnumber⟩ := TileGroup.numbered_of_tiles htiles
  obtain ⟨hsizesInfo, hsizesGrid, hwidth, hheight⟩ := TileSizes.ofSequence_eq_ok_iff.mp hsizes
  rw [hinfo] at hcols hrows hlast hnumber hsizesInfo hwidth hheight
  have hsame : sizes.grid = layout.grid := by
    refine ofSequence_of_sound hgrid ?_ ?_ hsizesGrid
    · rw [← h.sum_widths]
      exact sum_pos hcols
    · rw [← h.sum_heights]
      exact sum_pos hrows
  rw [hsame] at hwidth hheight
  refine ⟨hlength, fun j hj => ?_⟩
  obtain ⟨hrow, hcol⟩ := hnumber j hj
  obtain ⟨htileWidth, htileHeight⟩ :=
    TileGroup.size_of_tiles htiles hsizes (List.getElem_mem hj)
  have hcolLt : tiles[j].col < layout.widthsMinus1.length := hcol ▸ Nat.mod_lt _ hcols
  have hrowLt : tiles[j].row < layout.heightsMinus1.length := by
    rw [hrow]
    refine Nat.div_lt_of_lt_mul (Nat.lt_of_le_of_lt ?_ hlast)
    omega
  refine ⟨hrow, hcol, ?_, ?_⟩
  · rw [List.getElem?_eq_getElem hcolLt, Option.map_some, h.width _ hwidth _ hcolLt, htileWidth,
      TileSizes.width, hsizesInfo, hsame]
    rfl
  · rw [List.getElem?_eq_getElem hrowLt, Option.map_some, h.height _ hheight _ hrowLt, htileHeight,
      TileSizes.height, hsizesInfo, hsame]
    rfl

/-- Whatever is asked for, a layout of up to 64 columns covers the frame with tiles that are not too
    great, the header of such a frame can be written, and the tiles that are found for it are those
    of the layout. -/
theorem realizes_of_ofConfig (h : ofConfig config = .ok layout) (hlow : 1 ≤ layout.cols)
    (hhigh : layout.cols ≤ 64) : layout.Realizes config := by
  obtain ⟨hgrid, hsound⟩ := sound_of_ofConfig h hlow hhigh
  exact
    { hsound.toWithinLimits with
      grid := hgrid
      written := fun _ hwidth hheight hinfo => written_of_sound hsound hgrid hwidth hheight hinfo
      found := fun _ _ _ hinfo htiles => found_of_sound hsound hgrid hinfo htiles }

/-- Three columns and two rows for seven by three superblocks, which uniform tiles do not give. -/
def unevenConfig : EncoderConfig :=
  { resolution := { width := 448, height := 192 }, tileCols := 3, tileRows := 2 }

def unevenLayout : TileLayout := {
  grid := { cols := 7, rows := 3, large := false }
  uniform := false
  colsLog2 := 2
  rowsLog2 := 1
  widthsMinus1 := [1, 1, 2]
  heightsMinus1 := [0, 1]
  tileSizeBytesMinus1 := 3 }

theorem realizes_of_unevenConfig :
    ofConfig unevenConfig = .ok unevenLayout ∧ unevenLayout.Realizes unevenConfig := by
  have h : ofConfig unevenConfig = .ok unevenLayout := by decide +kernel
  exact ⟨h, realizes_of_ofConfig h (by decide) (by decide)⟩

end TileLayout

end Av1Frames
