import Av1Frames.Proofs.Encoder.OpenCounts

namespace Av1Frames

open Checked

namespace EncoderConfig

/-- The superblocks of the frames that are asked for. -/
def grid (c : EncoderConfig) : SuperblockGrid :=
  .covering c.resolution.width c.resolution.height c.use128x128Superblock

/-- The number of columns that is asked for or, if it is left open, the least one for which they are
    narrow enough. -/
def cols (c : EncoderConfig) : Nat :=
  if c.tileCols = 0 then c.grid.cols ⌈/⌉ c.grid.maxTileWidthSb else c.tileCols

/-- The width of uniform tiles with these columns. -/
def uniformWidth (c : EncoderConfig) : Nat := c.grid.cols ⌈/⌉ 2 ^ Nat.clog 2 c.cols

/-- The height of uniform tiles with the given number of rows. -/
def uniformHeight (c : EncoderConfig) (rows : Nat) : Nat := c.grid.rows ⌈/⌉ 2 ^ Nat.clog 2 rows

/-- The numbers of tiles and the length of their size fields are none that are refused before the
    frame is looked at. -/
structure InForm (c : EncoderConfig) : Prop where
  cols_le : c.tileCols ≤ maxTilesPerSide
  rows_le : c.tileRows ≤ maxTilesPerSide
  bytes : 1 ≤ c.tileSizeBytes ∧ c.tileSizeBytes ≤ 4

/-- The size of the frame can be rounded up to whole blocks. -/
structure Rounds (c : EncoderConfig) : Prop where
  width : c.resolution.width + 7 < 2 ^ 32
  height : c.resolution.height + 7 < 2 ^ 32

/-- The frame has superblocks for the tiles that are asked for, which are narrow enough. -/
structure FitsFrame (c : EncoderConfig) : Prop where
  cols : c.tileCols ≠ 0 →
    c.grid.cols ≤ c.tileCols * c.grid.maxTileWidthSb ∧ c.tileCols ≤ c.grid.cols
  rows : c.tileRows ≤ c.grid.rows

/-- Uniform tiles give the columns and the given number of rows, and are small enough. -/
structure GivesUniform (c : EncoderConfig) (rows : Nat) : Prop where
  spacing : c.uniformSpacing = true
  cols_eq : c.grid.cols ⌈/⌉ c.uniformWidth = c.cols
  rows_eq : c.grid.rows ⌈/⌉ c.uniformHeight rows = rows
  area_le : c.uniformWidth * c.uniformHeight rows ≤ c.grid.maxTileAreaSb

/-- The arithmetic on the way to the tiles stays in range. Nothing but the size of the frame counts
    where the tiles that are asked for are refused. -/
structure Tractable (c : EncoderConfig) : Prop where
  rounds : c.Rounds
  /-- Doubling the greatest area of a tile reaches the number of superblocks without a bit lost. -/
  area_le : c.FitsFrame → c.grid.rows * c.grid.cols ≤ 9 * 2 ^ 28
  cols_pos : c.FitsFrame → 0 < c.grid.rows → c.uniformSpacing = true → 0 < c.grid.cols
  /-- There is a uniform layout with the number of rows that is tried first, or the columns can be
      split evenly. -/
  splits : c.FitsFrame → 0 < c.grid.rows →
    c.GivesUniform (max c.tileRows 1) ∨ c.cols * c.grid.cols < 2 ^ 32

/-- The columns of the layout. -/
def columns (c : EncoderConfig) : TileLayout.Columns where
  grid := c.grid
  count := c.cols
  log2 := Nat.clog 2 c.cols
  uniformWidth := c.uniformWidth

variable {c : EncoderConfig}

theorem Rounds.grid_le (hrounds : c.Rounds) : c.grid.cols ≤ 2 ^ 26 ∧ c.grid.rows ≤ 2 ^ 26 := by
  have hwidth := hrounds.width
  have hheight := hrounds.height
  exact SuperblockGrid.covering_le _ (by omega) (by omega)

theorem FitsFrame.cols_le (hfits : c.FitsFrame) : c.cols ≤ c.grid.cols := by
  unfold EncoderConfig.cols
  split
  · exact c.grid.leastCols_le
  · exact (hfits.cols ‹_›).2

theorem uniformTileSize_cols (hrounds : c.Rounds) (hfits : c.FitsFrame) :
    tileLog2 1 c.cols = .ok c.columns.log2 ∧
      SuperblockGrid.uniformTileSize c.grid.cols c.columns.log2 = .ok c.uniformWidth :=
  SuperblockGrid.uniformTileSize_clog hrounds.grid_le.1 (hfits.cols_le.trans hrounds.grid_le.1)

end EncoderConfig

namespace TileLayout

variable {config : EncoderConfig} {columns : Columns} {rows : Nat}

/-- The columns that are asked for are left as they are just if the frame has room for them. -/
theorem fitsFrame_iff :
    config.FitsFrame ↔ (config.tileCols ≠ 0 → config.tileCols = clip config.tileCols
      (config.grid.cols ⌈/⌉ config.grid.maxTileWidthSb) config.grid.cols) ∧
        config.tileRows ≤ config.grid.rows := by
  rw [eq_clip_iff config.grid.leastCols_le, ceilDiv_le_iff_le_mul config.grid.maxTileWidthSb_pos,
    Nat.mul_comm]
  exact ⟨fun h => ⟨h.cols, h.rows⟩, fun h => ⟨h.1, h.2⟩⟩

theorem clip_eq_cols (hfits : config.FitsFrame) :
    clip config.tileCols (config.grid.cols ⌈/⌉ config.grid.maxTileWidthSb) config.grid.cols =
      config.cols := by
  unfold EncoderConfig.cols
  split
  · rename_i hopen
    rw [hopen]
    exact clip_of_le (Nat.zero_le _) config.grid.leastCols_le
  · exact ((fitsFrame_iff.mp hfits).1 ‹_›).symm

theorem chooseColumns_faultless_iff : (chooseColumns config).Faultless ↔ config.Rounds := by
  rw [chooseColumns, Outcome.Faultless.lift_bind_iff]
  simp only [SuperblockGrid.ofSize_eq_ok_iff_covering]
  constructor
  · rintro ⟨_, ⟨⟨hwidth, hheight⟩, -⟩, -⟩
    exact ⟨hwidth, hheight⟩
  · rintro ⟨hwidth, hheight⟩
    have hcols := (EncoderConfig.Rounds.mk hwidth hheight).grid_le.1
    have hcount := (clip_bounds config.tileCols config.grid.leastCols_le).2
    obtain ⟨hlog2, hsize⟩ := SuperblockGrid.uniformTileSize_clog hcols (hcount.trans hcols)
    refine ⟨config.grid, ⟨⟨hwidth, hheight⟩, rfl⟩, ?_⟩
    refine .lift_bind (divideUp_of_pos config.grid.maxTileWidthSb_pos) ?_
    exact .guard fun _ => .guard fun _ => .lift_bind hlog2 (.lift_bind hsize .ok)

theorem chooseColumns_eq_ok_iff_columns (hrounds : config.Rounds) :
    chooseColumns config = .ok columns ↔ config.FitsFrame ∧ config.columns = columns := by
  have hleast := divideUp_of_pos (x := config.grid.cols) config.grid.maxTileWidthSb_pos
  have hgrid := SuperblockGrid.ofSize_eq_ok_iff_covering.mpr
    ⟨⟨hrounds.width, hrounds.height⟩, (rfl : _ = config.grid)⟩
  have hchosen (hfits : config.FitsFrame) : chooseColumns config = .ok config.columns :=
    chooseColumns_eq_ok_iff.mpr ⟨hgrid, ⟨_, hleast, clip_eq_cols hfits⟩,
      fun hasked => (if_neg hasked).symm, hfits.rows,
      EncoderConfig.uniformTileSize_cols hrounds hfits⟩
  constructor
  · intro h
    obtain ⟨hgrid', ⟨least, hleast', hcount⟩, hasked, hrows, -⟩ := chooseColumns_eq_ok_iff.mp h
    have hsame := Except.ok.inj (hgrid.symm.trans hgrid')
    rw [← hsame] at hleast' hcount hrows
    obtain rfl := Except.ok.inj (hleast.symm.trans hleast')
    have hfits : config.FitsFrame :=
      fitsFrame_iff.mpr ⟨fun hopen => (hasked hopen).trans hcount.symm, hrows⟩
    exact ⟨hfits, Except.ok.inj ((hchosen hfits).symm.trans h)⟩
  · rintro ⟨hfits, rfl⟩
    exact hchosen hfits

theorem uniform?_of_no_columns (hspacing : config.uniformSpacing = true)
    (hcols : config.grid.cols = 0) : uniform? config config.columns rows = .error .division := by
  have hwidth : config.columns.uniformWidth = 0 := by
    change config.grid.cols ⌈/⌉ _ = 0
    rw [hcols, zero_ceilDiv]
  rw [uniform?, hspacing, hwidth]
  rfl

/-- Where uniform tiles are asked for and have a width, there is a uniform layout just if they give
    the numbers of columns and rows and are small enough. -/
theorem exists_uniform?_of_spacing (columns : Columns) (hspacing : config.uniformSpacing = true)
    (hcols : columns.grid.cols < 2 ^ 32) (hwidth : 0 < columns.uniformWidth)
    (hwidthLe : columns.uniformWidth ≤ columns.grid.cols) (hgridRows : columns.grid.rows ≤ 2 ^ 26)
    (hpos : 0 < rows) (hrows : rows ≤ columns.grid.rows) {height : Nat}
    (hheight : columns.grid.rows ⌈/⌉ 2 ^ Nat.clog 2 rows = height) :
    ∃ found, uniform? config columns rows = .ok found ∧
      (found.isSome = true ↔ columns.grid.cols ⌈/⌉ columns.uniformWidth = columns.count ∧
        columns.grid.rows ⌈/⌉ height = rows ∧
          columns.uniformWidth * height ≤ columns.grid.maxTileAreaSb) := by
  obtain ⟨hlog2, hsize⟩ := SuperblockGrid.uniformTileSize_clog hgridRows (hrows.trans hgridRows)
  have hheightPos := SuperblockGrid.uniformTileSize_pos (hpos.trans_le hrows) (Nat.clog 2 rows)
  have hheightLe := ceilDiv_le_self columns.grid.rows (Nat.two_pow_pos (Nat.clog 2 rows))
  rw [hheight] at hsize hheightPos hheightLe
  have hmost := divide_eq_ok_iff.mpr
    ⟨hwidth, (rfl : columns.grid.maxTileAreaSb / columns.uniformWidth = _)⟩
  have harea : columns.grid.maxTileAreaSb / columns.uniformWidth < height ↔
      ¬ columns.uniformWidth * height ≤ columns.grid.maxTileAreaSb := by
    rw [Nat.div_lt_iff_lt_mul hwidth, Nat.mul_comm, not_le]
  rw [uniform?, hspacing, if_neg (by decide), divideUp_of_pos hwidth, ok_bind]
  by_cases hcount : columns.grid.cols ⌈/⌉ columns.uniformWidth = columns.count
  case neg =>
    rw [if_pos hcount]
    exact ⟨none, rfl, iff_of_false (by decide) fun h => hcount h.1⟩
  rw [if_neg (not_not.mpr hcount), hlog2, ok_bind, hsize, ok_bind, divideUp_of_pos hheightPos,
    ok_bind]
  by_cases hrowCount : columns.grid.rows ⌈/⌉ height = rows
  case neg =>
    rw [if_pos hrowCount]
    exact ⟨none, rfl, iff_of_false (by decide) fun h => hrowCount h.2.1⟩
  rw [if_neg (not_not.mpr hrowCount), hmost, ok_bind]
  by_cases hgreat : columns.grid.maxTileAreaSb / columns.uniformWidth < height
  case pos =>
    rw [if_pos hgreat]
    exact ⟨none, rfl, iff_of_false (by decide) fun h => harea.mp hgreat h.2.2⟩
  obtain ⟨widths, hwidths⟩ := exists_uniformSplit hwidth hwidthLe hcols hcount
  obtain ⟨heights, hheights⟩ := exists_uniformSplit hheightPos hheightLe (by omega) hrowCount
  rw [if_neg hgreat, hwidths, ok_bind, hheights, ok_bind]
  exact ⟨_, rfl, iff_of_true rfl ⟨hcount, hrowCount, not_not.mp (hgreat ∘ harea.mpr)⟩⟩

theorem exists_uniform? (hrounds : config.Rounds)
    (hcols : config.uniformSpacing = true → 0 < config.grid.cols) (hpos : 0 < rows)
    (hrows : rows ≤ config.grid.rows) :
    ∃ found, uniform? config config.columns rows = .ok found ∧
      (found.isSome = true ↔ config.GivesUniform rows) := by
  by_cases hspacing : config.uniformSpacing = true
  case neg =>
    refine ⟨none, ?_, iff_of_false (by decide) fun h => hspacing h.spacing⟩
    exact if_pos (by simpa using hspacing)
  have hwidth := SuperblockGrid.uniformTileSize_pos (hcols hspacing) config.columns.log2
  have hwidthLe := ceilDiv_le_self config.grid.cols (Nat.two_pow_pos config.columns.log2)
  obtain ⟨hcolsLe, hrowsLe⟩ := hrounds.grid_le
  obtain ⟨found, hfound, hsome⟩ := exists_uniform?_of_spacing config.columns hspacing
    (hcolsLe.trans_lt (by decide)) hwidth hwidthLe hrowsLe hpos hrows rfl
  refine ⟨found, hfound, hsome.trans ?_⟩
  exact ⟨fun ⟨hcount, hrowCount, harea⟩ => ⟨hspacing, hcount, hrowCount, harea⟩,
    fun h => ⟨h.cols_eq, h.rows_eq, h.area_le⟩⟩

/-- Without a uniform layout an attempt comes to an end just if the columns can be split evenly. The
    rows are only split where they are few for their number of superblocks. -/
theorem exists_attempt_of_none (hnone : uniform? config columns rows = .ok none)
    (hcols : columns.grid.cols ≤ 2 ^ 26)
    (harea : columns.grid.rows * columns.grid.cols ≤ 9 * 2 ^ 28)
    (hcount : columns.count ≤ columns.grid.cols) (hpos : 0 < rows)
    (hrows : rows ≤ columns.grid.rows) (hmost : rows ≤ maxTilesPerSide) :
    (∃ tried, attempt config columns rows = .ok tried) ↔
      columns.count * columns.grid.cols < 2 ^ 32 := by
  rw [← exists_evenSplit_iff hcount]
  simp only [attempt, hnone, ok_bind]
  constructor
  · rintro ⟨tried, h⟩
    obtain ⟨widths, hwidths, -⟩ := bind_eq_ok_iff.mp h
    exact ⟨widths, hwidths⟩
  · rintro ⟨widths, hwidths⟩
    obtain ⟨greatest, hgreatest, hgreatestPos, hgreatestLe⟩ :=
      SuperblockGrid.exists_maxExplicitHeight hcols harea widths
    rw [hwidths, ok_bind, hgreatest, ok_bind, divideUp_of_pos hgreatestPos, ok_bind]
    by_cases hclip : rows = clip rows (columns.grid.rows ⌈/⌉ greatest) columns.grid.rows
    case neg =>
      rw [if_pos hclip]
      exact ⟨_, rfl⟩
    have hleast := ((eq_clip_iff (ceilDiv_le_self _ hgreatestPos)).mp hclip).1
    have hfew := (ceilDiv_le_iff_le_mul hgreatestPos).mp hleast
    have hside : maxTilesPerSide = 64 := rfl
    have hlimit : greatest ≤ 2304 := by
      rw [SuperblockGrid.maxTileAreaSb_eq] at hgreatestLe
      split at hgreatestLe <;> omega
    have hproduct : rows * columns.grid.rows < 2 ^ 32 := by
      calc rows * columns.grid.rows ≤ 64 * (2304 * 64) :=
            Nat.mul_le_mul hmost (hfew.trans (Nat.mul_le_mul hlimit hmost))
        _ < 2 ^ 32 := by norm_num
    obtain ⟨heights, hheights⟩ := (exists_evenSplit_iff hrows).mpr hproduct
    rw [if_neg (not_not.mpr hclip), tileLog2_one_eq (by omega), ok_bind, hheights]
    exact ⟨_, rfl⟩

section Attempts

variable (hrounds : config.Rounds) (hfits : config.FitsFrame)
  (harea : config.grid.rows * config.grid.cols ≤ 9 * 2 ^ 28)

include hrounds in
theorem exists_attempt_of_givesUniform (hcols : config.uniformSpacing = true → 0 < config.grid.cols)
    (hpos : 0 < rows) (hrows : rows ≤ config.grid.rows) (huniform : config.GivesUniform rows) :
    ∃ layout, attempt config config.columns rows = .ok (.ok layout) := by
  obtain ⟨found, hfound, hsome⟩ := exists_uniform? hrounds hcols hpos hrows
  obtain ⟨layout, rfl⟩ := Option.isSome_iff_exists.mp (hsome.mpr huniform)
  refine ⟨layout, ?_⟩
  rw [attempt, hfound]
  rfl

include hrounds hfits harea in
/-- The arithmetic of an attempt stays in range just if there are columns for uniform tiles, and the
    columns can be split evenly unless there is a uniform layout. -/
theorem exists_attempt_iff (hpos : 0 < rows) (hrows : rows ≤ config.grid.rows)
    (hmost : rows ≤ maxTilesPerSide) :
    (∃ tried, attempt config config.columns rows = .ok tried) ↔
      (config.uniformSpacing = true → 0 < config.grid.cols) ∧
        (config.GivesUniform rows ∨ config.cols * config.grid.cols < 2 ^ 32) := by
  by_cases hcols : config.uniformSpacing = true → 0 < config.grid.cols
  case neg =>
    refine iff_of_false ?_ fun h => hcols h.1
    rintro ⟨tried, h⟩
    obtain ⟨found, hfound, -⟩ := bind_eq_ok_iff.mp h
    rw [Classical.not_imp, Nat.not_lt, Nat.le_zero] at hcols
    rw [uniform?_of_no_columns hcols.1 hcols.2] at hfound
    cases hfound
  rw [and_iff_right hcols]
  by_cases huniform : config.GivesUniform rows
  case pos =>
    obtain ⟨layout, hlayout⟩ :=
      exists_attempt_of_givesUniform hrounds hcols hpos hrows huniform
    exact iff_of_true ⟨_, hlayout⟩ (.inl huniform)
  rw [or_iff_right huniform]
  obtain ⟨found, hfound, hsome⟩ := exists_uniform? hrounds hcols hpos hrows
  rw [← hsome, Option.not_isSome_iff_eq_none] at huniform
  rw [huniform] at hfound
  exact exists_attempt_of_none hfound hrounds.grid_le.1 harea hfits.cols_le hpos hrows hmost

theorem firstFit_faultless {counts : List Nat}
    (h : ∀ rows ∈ counts, ∃ tried, attempt config columns rows = .ok tried) :
    (firstFit config columns counts).Faultless := by
  induction counts with
  | nil => exact .fail
  | cons rows counts ih =>
    rw [List.forall_mem_cons] at h
    obtain ⟨tried, htried⟩ := h.1
    refine .lift_bind htried ?_
    cases tried with
    | ok layout => exact .ok
    | error least => exact ih h.2

include hrounds hfits harea in
/-- If there is a row at all, trying one number of rows after the other is as safe as trying the
    first. -/
theorem firstFit_faultless_iff :
    (firstFit config config.columns
        (List.range' 1 (min config.grid.rows maxTilesPerSide))).Faultless ↔
      (0 < config.grid.rows → ∃ tried, attempt config config.columns 1 = .ok tried) := by
  have hone : 1 ≤ maxTilesPerSide := by decide
  rcases Nat.eq_zero_or_pos config.grid.rows with hnone | hpos
  · rw [hnone, Nat.zero_min]
    exact iff_of_true .fail fun h => absurd h (Nat.lt_irrefl 0)
  obtain ⟨n, hn⟩ : ∃ n, min config.grid.rows maxTilesPerSide = n + 1 :=
    Nat.exists_eq_succ_of_ne_zero (by omega)
  rw [forall_prop_of_true hpos]
  constructor
  · intro h
    rw [hn, List.range'_succ, firstFit, Outcome.Faultless.lift_bind_iff] at h
    obtain ⟨tried, htried, -⟩ := h
    exact ⟨tried, htried⟩
  · intro h
    obtain ⟨hcols, hsplit⟩ :=
      (exists_attempt_iff hrounds hfits harea Nat.one_pos hpos hone).mp h
    rcases hsplit with huniform | hsplit
    · obtain ⟨layout, hlayout⟩ :=
        exists_attempt_of_givesUniform hrounds hcols Nat.one_pos hpos huniform
      rw [hn, List.range'_succ]
      exact .lift_bind hlayout .ok
    · refine firstFit_faultless fun rows hmem => ?_
      obtain ⟨hlow, hhigh⟩ := List.mem_range'_1.mp hmem
      exact (exists_attempt_iff hrounds hfits harea (by omega) (by omega) (by omega)).mpr
        ⟨hcols, .inr hsplit⟩

include hrounds hfits harea in
/-- The rows that are asked for are tried, or all numbers of them from one on. -/
theorem rows_faultless_iff (hmost : config.tileRows ≤ maxTilesPerSide) :
    Outcome.Faultless (if config.tileRows = 0 then
        firstFit config config.columns
          (List.range' 1 (min config.columns.grid.rows maxTilesPerSide))
      else do
        match ← attempt config config.columns config.tileRows with
        | .ok layout => return layout
        | .error least => .fail (.tooFewRows config.tileRows least)) ↔
      (0 < config.grid.rows → (config.uniformSpacing = true → 0 < config.grid.cols) ∧
        (config.GivesUniform (max config.tileRows 1) ∨
          config.cols * config.grid.cols < 2 ^ 32)) := by
  split
  · rename_i hopen
    rw [hopen, Nat.zero_max]
    refine (firstFit_faultless_iff hrounds hfits harea).trans (imp_congr_right fun hpos => ?_)
    exact exists_attempt_iff hrounds hfits harea Nat.one_pos hpos (by decide)
  · rename_i hasked
    have hpos : 0 < config.tileRows := Nat.pos_of_ne_zero hasked
    rw [forall_prop_of_true (hpos.trans_le hfits.rows), max_eq_left hpos,
      ← exists_attempt_iff hrounds hfits harea hpos hfits.rows hmost,
      Outcome.Faultless.lift_bind_iff]
    refine exists_congr fun tried => and_iff_left_of_imp fun _ => ?_
    cases tried with
    | ok layout => exact .ok
    | error least => exact .fail

end Attempts

theorem ofConfig_faultless_iff_of_inForm (hform : config.InForm) :
    (ofConfig config).Faultless ↔ config.Tractable := by
  obtain ⟨hcolsLe, hrowsLe, hbytes⟩ := hform
  unfold ofConfig
  rw [if_neg (by simp; omega), if_neg (by simp; omega), Outcome.Faultless.bind_iff,
    chooseColumns_faultless_iff]
  constructor
  · rintro ⟨hrounds, hrest⟩
    have htiles (hfits : config.FitsFrame) := Outcome.Faultless.lift_bind_iff.mp
      (hrest _ ((chooseColumns_eq_ok_iff_columns hrounds).mpr ⟨hfits, rfl⟩))
    have harea (hfits : config.FitsFrame) : config.grid.rows * config.grid.cols ≤ 9 * 2 ^ 28 := by
      obtain ⟨least, hleast, -⟩ := htiles hfits
      exact SuperblockGrid.area_le_of_minLog2Tiles hleast
    have hrows (hfits : config.FitsFrame) (hpos : 0 < config.grid.rows) :
        (config.uniformSpacing = true → 0 < config.grid.cols) ∧
          (config.GivesUniform (max config.tileRows 1) ∨
            config.cols * config.grid.cols < 2 ^ 32) := by
      obtain ⟨-, -, h⟩ := htiles hfits
      exact (rows_faultless_iff hrounds hfits (harea hfits) hrowsLe).mp h hpos
    exact ⟨hrounds, harea, fun hfits hpos => (hrows hfits hpos).1,
      fun hfits hpos => (hrows hfits hpos).2⟩
  · rintro ⟨hrounds, harea, hcols, hsplits⟩
    refine ⟨hrounds, fun columns hcolumns => ?_⟩
    obtain ⟨hfits, rfl⟩ := (chooseColumns_eq_ok_iff_columns hrounds).mp hcolumns
    obtain ⟨least, hleast, -⟩ := SuperblockGrid.exists_minLog2Tiles hrounds.grid_le.1 (harea hfits)
    refine .lift_bind hleast ((rows_faultless_iff hrounds hfits (harea hfits) hrowsLe).mpr ?_)
    exact fun hpos => ⟨hcols hfits hpos, hsplits hfits hpos⟩

theorem ofConfig_faultless_of_not_inForm (hform : ¬ config.InForm) :
    (ofConfig config).Faultless := by
  unfold ofConfig
  refine .guard fun hcounts => .guard fun hbytes => absurd ⟨?_, ?_, ?_⟩ hform
  all_goals simp at hcounts hbytes; omega

/-- The tiles of a configuration come without a fault just if the arithmetic stays in range, or the
    configuration is refused before anything is computed. -/
theorem ofConfig_faultless_iff :
    (ofConfig config).Faultless ↔ (config.InForm → config.Tractable) := by
  by_cases hform : config.InForm
  · rw [ofConfig_faultless_iff_of_inForm hform, forall_prop_of_true hform]
  · exact iff_of_true (ofConfig_faultless_of_not_inForm hform) fun h => absurd h hform

/-- A frame can be too high to be rounded up to whole blocks, although all numbers that are asked
    for fit 32 bits. -/
theorem not_ofConfig_faultless :
    ¬ ∀ config : EncoderConfig,
      config.resolution.width < 2 ^ 32 → config.resolution.height < 2 ^ 32 →
        config.tileCols < 2 ^ 32 → config.tileRows < 2 ^ 32 → config.tileSizeBytes < 2 ^ 32 →
          (ofConfig config).Faultless := by
  let config : EncoderConfig :=
    { resolution := { width := 64, height := 0xFFFFFFFF }, tileRows := 0 }
  intro h
  have hfault : ofConfig config = .error (.fault .overflow) := by decide +kernel
  exact h config (by decide) (by decide) (by decide) (by decide) (by decide) .overflow hfault

/-- No frame that a sequence header can describe makes the arithmetic fault. -/
theorem ofConfig_faultless_of_size (hpos : 0 < config.resolution.width)
    (hwidth : config.resolution.width ≤ 65536) (hheight : config.resolution.height ≤ 65536) :
    (ofConfig config).Faultless := by
  by_cases hform : config.InForm
  case neg => exact ofConfig_faultless_of_not_inForm hform
  obtain ⟨hcols, hrows⟩ : config.grid.cols ≤ 1024 ∧ config.grid.rows ≤ 1024 :=
    SuperblockGrid.covering_le _ hwidth hheight
  rw [ofConfig_faultless_iff_of_inForm hform]
  refine ⟨⟨by omega, by omega⟩, fun _ => ?_, fun _ _ _ => ?_, fun hfits _ => .inr ?_⟩
  · exact (Nat.mul_le_mul hrows hcols).trans (by norm_num)
  · exact SuperblockGrid.uniformTileSize_pos hpos _
  · exact (Nat.mul_le_mul (hfits.cols_le.trans hcols) hcols).trans_lt (by norm_num)

end TileLayout

end Av1Frames
