import Av1Frames.Proofs.Encoder.Layout

namespace Av1Frames

open Checked

namespace TileLayout

variable {config : EncoderConfig} {columns : Columns} {rows : Nat} {layout : TileLayout}

/-- The numbers of rows that a layout can be asked for with. -/
def rowCounts (config : EncoderConfig) : Set Nat :=
  {rows | (1 ≤ rows ∧ rows ≤ maxTilesPerSide) ∧
    ∃ layout, ofConfig { config with tileRows := rows } = .ok layout}

/-- The numbers of columns that a layout can be asked for with. -/
def colCounts (config : EncoderConfig) : Set Nat :=
  {cols | (1 ≤ cols ∧ cols ≤ maxTilesPerSide) ∧
    ∃ layout, ofConfig { config with tileCols := cols } = .ok layout}

theorem ofConfig_of_fault {f : Fault} (hready : columns.ReadyFor config)
    (hasked : config.tileRows ≠ 0) (hrows : config.tileRows ≤ maxTilesPerSide)
    (hfault : attempt config columns config.tileRows = .error f) :
    ofConfig config = .error (.fault f) := by
  obtain ⟨hcols, hbytes, hchosen, least, hleast⟩ := hready
  unfold ofConfig
  rw [if_neg (by simp; omega), if_neg (by simp; omega), hchosen, ok_bind, hleast]
  refine (if_neg hasked).trans ?_
  rw [hfault]
  rfl

section OpenRows

variable (hopen : config.tileRows = 0)

include hopen

/-- While the columns are chosen, rows that are asked for are only checked against the grid. -/
theorem readyFor_rows_iff :
    columns.ReadyFor { config with tileRows := rows } ↔
      columns.ReadyFor config ∧ rows ≤ columns.grid.rows := by
  constructor
  · rintro ⟨hasked, hbytes, hchosen, htiles⟩
    obtain ⟨hgrid, hcount, hcols, hrows, hrest⟩ := chooseColumns_eq_ok_iff.mp hchosen
    have hzero : config.tileRows ≤ columns.grid.rows := hopen ▸ Nat.zero_le _
    exact ⟨⟨hasked, hbytes, chooseColumns_eq_ok_iff.mpr ⟨hgrid, hcount, hcols, hzero, hrest⟩,
      htiles⟩, hrows⟩
  · rintro ⟨⟨hasked, hbytes, hchosen, htiles⟩, hrows⟩
    obtain ⟨hgrid, hcount, hcols, -, hrest⟩ := chooseColumns_eq_ok_iff.mp hchosen
    exact ⟨hasked, hbytes, chooseColumns_eq_ok_iff.mpr ⟨hgrid, hcount, hcols, hrows, hrest⟩,
      htiles⟩

/-- Rows that are asked for give a layout just if they fit below the columns. -/
theorem ofConfig_rows_eq_ok_iff (hpos : 1 ≤ rows) (hrows : rows ≤ maxTilesPerSide) :
    ofConfig { config with tileRows := rows } = .ok layout ↔
      ∃ columns : Columns, columns.ReadyFor config ∧ rows ≤ columns.grid.rows ∧
        attempt config columns rows = .ok (.ok layout) := by
  have hasked : rows ≠ 0 := Nat.ne_of_gt hpos
  rw [ofConfig_eq_ok_iff]
  constructor
  · rintro ⟨columns, rows', hready, hrowsFor, hattempt⟩
    obtain rfl : rows' = rows := hrowsFor.asked hasked
    obtain ⟨hready, hgrid⟩ := (readyFor_rows_iff hopen).mp hready
    exact ⟨columns, hready, hgrid, hattempt⟩
  · rintro ⟨columns, hready, hgrid, hattempt⟩
    exact ⟨columns, rows, (readyFor_rows_iff hopen).mpr ⟨hready, hgrid⟩,
      ⟨hpos, hgrid, hrows, fun _ => rfl, fun h => absurd h hasked⟩, hattempt⟩

/-- Where nothing faults, rows without a layout are too few. -/
theorem exists_least_of_faultless (hready : columns.ReadyFor config)
    (hgrid : rows ≤ columns.grid.rows) (hpos : 1 ≤ rows) (hrows : rows ≤ maxTilesPerSide)
    (hfaultless : (ofConfig { config with tileRows := rows }).Faultless)
    (hnone : rows ∉ rowCounts config) :
    ∃ least, attempt config columns rows = .ok (.error least) := by
  cases hattempt : attempt config columns rows with
  | error f =>
    have hready := (readyFor_rows_iff hopen).mpr ⟨hready, hgrid⟩
    exact absurd (ofConfig_of_fault hready (Nat.ne_of_gt hpos) hrows hattempt) (hfaultless f)
  | ok tried =>
    cases tried with
    | error least => exact ⟨least, rfl⟩
    | ok found =>
      refine absurd ⟨⟨hpos, hrows⟩, found, ?_⟩ hnone
      exact (ofConfig_rows_eq_ok_iff hopen hpos hrows).mpr ⟨columns, hready, hgrid, hattempt⟩

end OpenRows

/-- If the rows are left open and nothing faults, there is a layout just if there is one for some
    number of rows, and it is the one for the least such number. -/
theorem ofConfig_of_open_rows (hopen : config.tileRows = 0)
    (hfaultless : ∀ rows ≤ maxTilesPerSide,
      (ofConfig { config with tileRows := rows }).Faultless) :
    ((∃ layout, ofConfig config = .ok layout) ↔ (rowCounts config).Nonempty) ∧
      ∀ rows, IsLeast (rowCounts config) rows →
        ofConfig config = ofConfig { config with tileRows := rows } := by
  have hleast (rows : Nat) (h : IsLeast (rowCounts config) rows) :
      ofConfig config = ofConfig { config with tileRows := rows } := by
    obtain ⟨⟨⟨hpos, hrows⟩, layout, hlayout⟩, hlower⟩ := h
    obtain ⟨columns, hready, hgrid, hattempt⟩ :=
      (ofConfig_rows_eq_ok_iff hopen hpos hrows).mp hlayout
    rw [hlayout, ofConfig_eq_ok_iff]
    refine ⟨columns, rows, hready, ⟨hpos, hgrid, hrows, absurd hopen, ?_⟩, hattempt⟩
    intro _ fewer hone hfewer
    have hfewerLe : fewer ≤ maxTilesPerSide := hfewer.le.trans hrows
    exact exists_least_of_faultless hopen hready (hfewer.le.trans hgrid) hone hfewerLe
      (hfaultless fewer hfewerLe) fun hmem => Nat.not_le.mpr hfewer (hlower hmem)
  refine ⟨⟨?_, fun hsome => ?_⟩, hleast⟩
  · rintro ⟨layout, h⟩
    obtain ⟨columns, rows, hready, hrowsFor, hattempt⟩ := ofConfig_eq_ok_iff.mp h
    obtain ⟨hpos, hgrid, hrows, -, -⟩ := hrowsFor
    exact ⟨rows, ⟨hpos, hrows⟩, layout,
      (ofConfig_rows_eq_ok_iff hopen hpos hrows).mpr ⟨columns, hready, hgrid, hattempt⟩⟩
  · classical
    have hfind : IsLeast (rowCounts config) (Nat.find hsome) :=
      ⟨Nat.find_spec hsome, fun _ hmem => Nat.find_min' hsome hmem⟩
    obtain ⟨-, layout, hlayout⟩ := hfind.1
    exact ⟨layout, (hleast _ hfind).trans hlayout⟩

/-- A frame that is a little too great for a single tile. -/
def tallConfig : EncoderConfig :=
  { resolution := { width := 4096, height := 2368 }, tileRows := 0 }

def tallLayout : TileLayout := {
  grid := { cols := 64, rows := 37, large := false }
  uniform := true
  colsLog2 := 0
  rowsLog2 := 1
  widthsMinus1 := [63]
  heightsMinus1 := [18, 17]
  tileSizeBytesMinus1 := 3 }

theorem ofConfig_of_open_rows_tallConfig :
    tallConfig.tileRows = 0 ∧
      (∀ rows ≤ maxTilesPerSide, (ofConfig { tallConfig with tileRows := rows }).Faultless) ∧
      IsLeast (rowCounts tallConfig) 2 ∧
      ofConfig tallConfig = ofConfig { tallConfig with tileRows := 2 } := by
  have hfaultless : ∀ rows ≤ maxTilesPerSide,
      (ofConfig { tallConfig with tileRows := rows }).Faultless := by decide +kernel
  have hleast : IsLeast (rowCounts tallConfig) 2 := by
    refine ⟨⟨by decide, tallLayout, by decide +kernel⟩, ?_⟩
    rintro rows ⟨⟨hpos, -⟩, layout, hlayout⟩
    by_contra hfewer
    obtain rfl : rows = 1 := by omega
    have hone : ofConfig { tallConfig with tileRows := 1 } = .fail (.tooFewRows 1 5) := by
      decide +kernel
    exact fail_ne_ok (hone.symm.trans hlayout)
  exact ⟨rfl, hfaultless, hleast, (ofConfig_of_open_rows rfl hfaultless).2 2 hleast⟩

theorem clip_of_le {value low high : Nat} (hvalue : value ≤ low) (h : low ≤ high) :
    clip value low high = low := by
  unfold clip
  split
  · rfl
  · split <;> omega

/-- The fewest columns that are narrow enough for a frame, whatever its rows are. -/
def FewestCols (config : EncoderConfig) (cols : Nat) : Prop :=
  ∃ grid, SuperblockGrid.ofSize config.resolution.width config.resolution.height
    config.use128x128Superblock = .ok grid ∧
      divideUp grid.cols grid.maxTileWidthSb = .ok cols

variable {cols fewest : Nat}

theorem FewestCols.unique {fewest' : Nat} (h : FewestCols config fewest)
    (h' : FewestCols config fewest') : fewest = fewest' := by
  obtain ⟨grid, hgrid, hfewest⟩ := h
  obtain ⟨grid', hgrid', hfewest'⟩ := h'
  obtain rfl := Except.ok.inj (hgrid.symm.trans hgrid')
  exact Except.ok.inj (hfewest.symm.trans hfewest')

/-- Fewer columns than are narrow enough cannot be asked for. -/
theorem exists_fewestCols (h : cols ∈ colCounts config) :
    ∃ fewest ≤ cols, 1 ≤ fewest ∧ FewestCols config fewest := by
  obtain ⟨⟨hpos, -⟩, layout, hlayout⟩ := h
  obtain ⟨columns, _, hready, -⟩ := ofConfig_eq_ok_iff.mp hlayout
  obtain ⟨hgrid, ⟨least, hleast, hcount⟩, hasked, -⟩ := chooseColumns_eq_ok_iff.mp hready.chosen
  have hcols : cols = columns.count := hasked (Nat.ne_of_gt hpos)
  have hchosen := chosenFor_of_chooseColumns hready.chosen
  have hle : least ≤ cols := by
    rw [hcols, divideUp_le_iff hleast]
    exact hchosen.fits
  have hleastPos : ¬ least ≤ 0 := by
    rw [divideUp_le_iff hleast]
    have := hchosen.count_le
    omega
  exact ⟨least, hle, by omega, columns.grid, hgrid, hleast⟩

theorem chooseColumns_fewestCols_iff (hopen : config.tileCols = 0)
    (hfewest : FewestCols config fewest) :
    chooseColumns config = .ok columns ↔
      chooseColumns { config with tileCols := fewest } = .ok columns := by
  obtain ⟨grid, hgrid, hfewest⟩ := hfewest
  have hle : fewest ≤ grid.cols := divideUp_le_self hfewest
  rw [chooseColumns_eq_ok_iff, chooseColumns_eq_ok_iff, hopen]
  constructor
  · rintro ⟨hgrid', ⟨least, hleast, hcount⟩, -, hrest⟩
    obtain rfl := Except.ok.inj (hgrid.symm.trans hgrid')
    obtain rfl := Except.ok.inj (hfewest.symm.trans hleast)
    rw [clip_of_le (Nat.zero_le _) hle] at hcount
    exact ⟨hgrid, ⟨fewest, hfewest, (clip_of_le le_rfl hle).trans hcount⟩, fun _ => hcount,
      hrest⟩
  · rintro ⟨hgrid', ⟨least, hleast, hcount⟩, -, hrest⟩
    obtain rfl := Except.ok.inj (hgrid.symm.trans hgrid')
    obtain rfl := Except.ok.inj (hfewest.symm.trans hleast)
    rw [clip_of_le le_rfl hle] at hcount
    exact ⟨hgrid, ⟨fewest, hfewest, (clip_of_le (Nat.zero_le _) hle).trans hcount⟩,
      fun h => absurd rfl h, hrest⟩

theorem readyFor_fewestCols_iff (hopen : config.tileCols = 0)
    (hfewest : FewestCols config fewest) (hle : fewest ≤ maxTilesPerSide) :
    columns.ReadyFor config ↔ columns.ReadyFor { config with tileCols := fewest } := by
  have hcols : config.tileCols ≤ maxTilesPerSide := hopen ▸ Nat.zero_le _
  constructor
  · rintro ⟨-, hbytes, hchosen, htiles⟩
    exact ⟨hle, hbytes, (chooseColumns_fewestCols_iff hopen hfewest).mp hchosen, htiles⟩
  · rintro ⟨-, hbytes, hchosen, htiles⟩
    exact ⟨hcols, hbytes, (chooseColumns_fewestCols_iff hopen hfewest).mpr hchosen, htiles⟩

/-- Columns that are left open are the fewest ones. -/
theorem ofConfig_fewestCols_iff (hopen : config.tileCols = 0)
    (hfewest : FewestCols config fewest) (hle : fewest ≤ maxTilesPerSide) :
    ofConfig config = .ok layout ↔ ofConfig { config with tileCols := fewest } = .ok layout := by
  have hready (columns : Columns) :
      columns.ReadyFor config ↔ columns.ReadyFor { config with tileCols := fewest } :=
    readyFor_fewestCols_iff hopen hfewest hle
  rw [ofConfig_eq_ok_iff, ofConfig_eq_ok_iff]
  -- Below the columns the number that was asked for does not count any more.
  constructor
  · rintro ⟨columns, rows, h, ⟨hpos, hgrid, hrows, hasked, hfirst⟩, hattempt⟩
    exact ⟨columns, rows, (hready columns).mp h, ⟨hpos, hgrid, hrows, hasked, hfirst⟩, hattempt⟩
  · rintro ⟨columns, rows, h, ⟨hpos, hgrid, hrows, hasked, hfirst⟩, hattempt⟩
    exact ⟨columns, rows, (hready columns).mpr h, ⟨hpos, hgrid, hrows, hasked, hfirst⟩, hattempt⟩

/-- If the columns are left open, the fewest that are narrow enough are taken, and no fewer could be
    asked for. So there is a layout just if there is one for these columns, and only then are they
    the least number that can be asked for. -/
theorem ofConfig_of_open_cols (hopen : config.tileCols = 0) (hsome : (colCounts config).Nonempty) :
    ∃ fewest ∈ lowerBounds (colCounts config), FewestCols config fewest ∧
      ∀ layout, ofConfig config = .ok layout ↔
        ofConfig { config with tileCols := fewest } = .ok layout ∧
          layout.cols = fewest ∧ IsLeast (colCounts config) fewest := by
  obtain ⟨cols, hcols⟩ := hsome
  obtain ⟨fewest, hle, hpos, hfewest⟩ := exists_fewestCols hcols
  have hmost : fewest ≤ maxTilesPerSide := hle.trans hcols.1.2
  have hlower : fewest ∈ lowerBounds (colCounts config) := by
    intro cols' hcols'
    obtain ⟨fewest', hle', -, hfewest'⟩ := exists_fewestCols hcols'
    exact (hfewest.unique hfewest').trans_le hle'
  refine ⟨fewest, hlower, hfewest, fun layout => ?_⟩
  rw [ofConfig_fewestCols_iff hopen hfewest hmost, iff_self_and]
  intro hlayout
  refine ⟨?_, ⟨⟨hpos, hmost⟩, layout, hlayout⟩, hlower⟩
  obtain ⟨columns, rows, hready, -, hattempt⟩ := ofConfig_eq_ok_iff.mp hlayout
  obtain ⟨-, -, hasked, -⟩ := chooseColumns_eq_ok_iff.mp hready.chosen
  have hcount : fewest = columns.count := hasked (Nat.ne_of_gt hpos)
  rw [hcount]
  rcases made_of_attempt hattempt with ⟨_, hmade⟩ | ⟨_, hmade⟩
  · exact hmade.cols_eq
  · exact hmade.cols_eq

/-- A frame that is too wide for a single column. -/
def wideConfig : EncoderConfig :=
  { resolution := { width := 8192, height := 4352 }, tileCols := 0, tileRows := 0 }

def wideLayout : TileLayout := {
  grid := { cols := 128, rows := 68, large := false }
  uniform := true
  colsLog2 := 1
  rowsLog2 := 1
  widthsMinus1 := [63, 63]
  heightsMinus1 := [33, 33]
  tileSizeBytesMinus1 := 3 }

theorem ofConfig_of_open_cols_wideConfig :
    wideConfig.tileCols = 0 ∧ (colCounts wideConfig).Nonempty ∧
      ofConfig wideConfig = .ok wideLayout ∧ IsLeast (colCounts wideConfig) 2 := by
  have hsome : (colCounts wideConfig).Nonempty :=
    ⟨2, ⟨by decide, by decide⟩, wideLayout, by decide +kernel⟩
  have hlayout : ofConfig wideConfig = .ok wideLayout := by decide +kernel
  obtain ⟨fewest, -, -, hiff⟩ := ofConfig_of_open_cols (rfl : wideConfig.tileCols = 0) hsome
  obtain ⟨-, hcols, hleast⟩ := (hiff wideLayout).mp hlayout
  obtain rfl : 2 = fewest := hcols
  exact ⟨rfl, hsome, hlayout, hleast⟩

theorem ofConfig_of_many_cols (h : maxTilesPerSide < config.tileCols) :
    ofConfig config = .fail (.tileCount config.tileCols config.tileRows) := by
  unfold ofConfig
  rw [if_pos (by simp [h])]
  rfl

/-- A frame that is a little too great for a single tile is not too great for two columns, which are
    the least number that can be asked for. Left open, they become one column, and there is no
    layout. -/
theorem not_ofConfig_of_open_cols :
    ¬ ∀ config : EncoderConfig, config.tileCols = 0 →
      (∀ cols, (ofConfig { config with tileCols := cols }).Faultless) →
      ∀ cols, IsLeast (colCounts config) cols →
        ∃ layout, ofConfig config = .ok layout ∧ layout.cols = cols := by
  let config : EncoderConfig := { tallConfig with tileCols := 0, tileRows := 1 }
  intro h
  have hfaultless (cols : Nat) : (ofConfig { config with tileCols := cols }).Faultless := by
    by_cases hcols : cols ≤ maxTilesPerSide
    · revert cols
      decide +kernel
    · rw [ofConfig_of_many_cols (Nat.not_le.mp hcols)]
      exact .fail
  have hnone : ofConfig config = .fail (.tooFewRows 1 5) := by decide +kernel
  have hleast : IsLeast (colCounts config) 2 := by
    refine ⟨⟨by decide, { tallLayout with
      colsLog2 := 1, rowsLog2 := 0, widthsMinus1 := [31, 31], heightsMinus1 := [36] },
      by decide +kernel⟩, ?_⟩
    rintro cols ⟨⟨hpos, -⟩, layout, hlayout⟩
    by_contra hfewer
    obtain rfl : cols = 1 := by omega
    have hone : ofConfig { config with tileCols := 1 } = .fail (.tooFewRows 1 5) := by
      decide +kernel
    exact fail_ne_ok (hone.symm.trans hlayout)
  obtain ⟨layout, hlayout, -⟩ := h config rfl hfaultless 2 hleast
  exact fail_ne_ok (hnone.symm.trans hlayout)

end TileLayout

end Av1Frames
