import Av1Frames.Proofs.Descriptor.Fixed
import Av1Frames.Proofs.Descriptor.NonSymmetric
import Av1Frames.Proofs.SyntaxError
import Av1Frames.Proofs.Tile.Grid
import Av1Frames.Tile.Info.Syntax

namespace Av1Frames

open Checked

namespace TileInfo

/-- The widths of the tile columns, each less one. -/
def widthsMinus1 (t : TileInfo) : List Nat := t.widthInSbsMinus1.toList.take t.cols

/-- The heights of the tile rows, each less one. -/
def heightsMinus1 (t : TileInfo) : List Nat := t.heightInSbsMinus1.toList.take t.rows

/-- Uniform spacing of a frame with the given grid. The bounds on the logarithms keep tiles from
    being too great or too many. -/
structure UniformIn (t : TileInfo) (grid : SuperblockGrid) : Prop where
  cols : ∃ least most width, grid.minLog2TileCols = .ok least ∧ grid.maxLog2TileCols = .ok most ∧
    (least ≤ t.colsLog2 ∧ t.colsLog2 ≤ most) ∧
    SuperblockGrid.uniformTileSize grid.cols t.colsLog2 = .ok width ∧
    divideUp grid.cols width = .ok t.cols
  rows : ∃ least most height, grid.minLog2Tiles = .ok least ∧ grid.maxLog2TileRows = .ok most ∧
    (least ≤ t.colsLog2 + t.rowsLog2 ∧ t.rowsLog2 ≤ most) ∧
    SuperblockGrid.uniformTileSize grid.rows t.rowsLog2 = .ok height ∧
    divideUp grid.rows height = .ok t.rows

/-- Explicit sizes that fill one side of a frame, none of them above `greatest`. -/
structure Fills (sizesMinus1 : List Nat) (total greatest log2 : Nat) : Prop where
  covered : covered sizesMinus1 = total
  lt : ∀ minus1 ∈ sizesMinus1, minus1 < greatest
  log2 : tileLog2 1 sizesMinus1.length = .ok log2

/-- Explicit spacing of a frame with the given grid. -/
structure ExplicitIn (t : TileInfo) (grid : SuperblockGrid) : Prop where
  cols_le : t.cols ≤ maxTilesPerSide
  rows_le : t.rows ≤ maxTilesPerSide
  widths : Fills t.widthsMinus1 grid.cols grid.maxTileWidthSb t.colsLog2
  heights : ∃ greatest, grid.maxExplicitHeight t.widthsMinus1 = .ok greatest ∧
    Fills t.heightsMinus1 grid.rows greatest t.rowsLog2

theorem uniformBits_eq_ok_iff {t : TileInfo} {grid : SuperblockGrid} {bits : Bits} :
    t.uniformBits grid = .ok bits ↔ t.UniformIn grid ∧ ∃ least most leastTiles mostRows,
      grid.minLog2TileCols = .ok least ∧ grid.maxLog2TileCols = .ok most ∧
      grid.minLog2Tiles = .ok leastTiles ∧ grid.maxLog2TileRows = .ok mostRows ∧
      incrementBits t.colsLog2 least most ++
        incrementBits t.rowsLog2 (leastTiles - t.colsLog2) mostRows = bits := by
  simp only [uniformBits, Encoding.invalid_eq_fail, guard_eq_ok_iff, bind_eq_ok_iff,
    liftM_eq_ok_iff, Bool.or_eq_true, decide_eq_true_eq, not_or, not_lt, not_not]
  constructor
  · rintro ⟨least, hleast, most, hmost, hcolsLog2, width, hwidth, cols, hcols, hcolsEq,
      leastTiles, hleastTiles, mostRows, hmostRows, hrowsLog2, height, hheight, rows, hrows,
      hrowsEq, hbits⟩
    exact ⟨⟨⟨least, most, width, hleast, hmost, hcolsLog2, hwidth, hcolsEq ▸ hcols⟩, leastTiles,
      mostRows, height, hleastTiles, hmostRows, ⟨by omega, hrowsLog2.2⟩, hheight, hrowsEq ▸ hrows⟩,
      least, most, leastTiles, mostRows, hleast, hmost, hleastTiles, hmostRows,
      Except.ok.inj hbits⟩
  · rintro ⟨⟨⟨_, _, width, hleast, hmost, hcolsLog2, hwidth, hcols⟩, _, _, height, hleastTiles,
      hmostRows, hrowsLog2, hheight, hrows⟩, least, most, leastTiles, mostRows, hleast', hmost',
      hleastTiles', hmostRows', rfl⟩
    obtain rfl := Except.ok.inj (hleast.symm.trans hleast')
    obtain rfl := Except.ok.inj (hmost.symm.trans hmost')
    obtain rfl := Except.ok.inj (hleastTiles.symm.trans hleastTiles')
    obtain rfl := Except.ok.inj (hmostRows.symm.trans hmostRows')
    exact ⟨_, hleast, _, hmost, hcolsLog2, width, hwidth, t.cols, hcols, rfl, _, hleastTiles, _,
      hmostRows, ⟨by omega, hrowsLog2.2⟩, height, hheight, t.rows, hrows, rfl, rfl⟩

theorem exists_uniformBits_iff {t : TileInfo} {grid : SuperblockGrid} :
    (∃ bits, t.uniformBits grid = .ok bits) ↔ t.UniformIn grid := by
  simp only [uniformBits_eq_ok_iff, exists_and_left, and_iff_left_iff_imp]
  rintro ⟨⟨least, most, -, hleast, hmost, -⟩, leastTiles, mostRows, -, hleastTiles, hmostRows, -⟩
  exact ⟨_, least, hleast, most, hmost, leastTiles, hleastTiles, mostRows, hmostRows, rfl⟩

theorem exists_nonSymmetric {n value : Nat} (hn : n < 2 ^ 31) (hvalue : value < n) :
    ∃ word, Descriptor.nonSymmetric n value = .ok word := by
  obtain ⟨word, hword, -⟩ := Read.Decodes.exists_nonSymmetric hn hvalue
  exact ⟨word, hword⟩

theorem sizesBits_cons_eq_ok_iff {names : SideElements} {total greatest start minus1 : Nat}
    {rest : List Nat} {bits : Bits} :
    sizesBits names total greatest start (minus1 :: rest) = .ok bits ↔
      (start < total ∧ minus1 < min (total - start) greatest) ∧ ∃ first more,
        Descriptor.nonSymmetric (min (total - start) greatest) minus1 = .ok first ∧
        sizesBits names total greatest (start + (minus1 + 1)) rest = .ok more ∧
        first ++ more = bits := by
  simp only [sizesBits, Encoding.invalid_eq_fail, guard_eq_ok_iff, bind_eq_ok_iff,
    Encoding.descriptor_eq_ok_iff, not_le]
  constructor
  · rintro ⟨hroom, hfits, first, hfirst, more, hmore, hbits⟩
    exact ⟨⟨hroom, hfits⟩, first, more, hfirst, hmore, Except.ok.inj hbits⟩
  · rintro ⟨⟨hroom, hfits⟩, first, more, hfirst, hmore, rfl⟩
    exact ⟨hroom, hfits, first, hfirst, more, hmore, rfl⟩

/-- Sizes that follow each other can be written if they end in the frame and none is too great. -/
theorem exists_sizesBits_iff {names : SideElements} {total greatest start : Nat}
    {sizesMinus1 : List Nat} (htotal : total < 2 ^ 31) (hstart : start ≤ total) :
    (∃ bits, sizesBits names total greatest start sizesMinus1 = .ok bits) ↔
      start + covered sizesMinus1 ≤ total ∧ ∀ minus1 ∈ sizesMinus1, minus1 < greatest := by
  induction sizesMinus1 generalizing start with
  | nil => simpa [sizesBits, covered, pure, Except.pure] using hstart
  | cons minus1 rest ih =>
    have hcovered : covered (minus1 :: rest) = minus1 + 1 + covered rest := rfl
    rw [hcovered, List.forall_mem_cons]
    simp only [sizesBits_cons_eq_ok_iff]
    constructor
    · rintro ⟨_, ⟨hroom, hfits⟩, _, more, -, hmore, -⟩
      obtain ⟨hrest, hlt⟩ := (ih (by omega)).mp ⟨more, hmore⟩
      exact ⟨by omega, by omega, hlt⟩
    · rintro ⟨hfits, hlt, hrest⟩
      obtain ⟨first, hfirst⟩ : ∃ first, Descriptor.nonSymmetric (min (total - start) greatest)
          minus1 = .ok first := exists_nonSymmetric (by omega) (by omega)
      obtain ⟨more, hmore⟩ := (ih (by omega : start + (minus1 + 1) ≤ total)).mpr ⟨by omega, hrest⟩
      exact ⟨_, ⟨by omega, by omega⟩, first, more, hfirst, hmore, rfl⟩

theorem requireFilled_eq_ok_iff {names : SideElements} {total log2 : Nat}
    {sizesMinus1 : List Nat} : requireFilled names total log2 sizesMinus1 = .ok () ↔
      covered sizesMinus1 = total ∧ tileLog2 1 sizesMinus1.length = .ok log2 := by
  simp only [requireFilled, Encoding.invalid_eq_fail, bind_eq_ok_iff, liftM_eq_ok_iff]
  constructor
  · rintro ⟨least, hleast, h⟩
    split at h
    · exact absurd h fail_ne_ok
    · rename_i hfilled
      simp only [Bool.or_eq_true, decide_eq_true_eq, not_or, not_not] at hfilled
      exact ⟨hfilled.1, hfilled.2 ▸ hleast⟩
  · rintro ⟨hcovered, hlog2⟩
    refine ⟨log2, hlog2, ?_⟩
    rw [if_neg (by simp [hcovered])]
    rfl

theorem fills_iff {names : SideElements} {total greatest log2 : Nat} {sizesMinus1 : List Nat}
    (htotal : total < 2 ^ 31) : Fills sizesMinus1 total greatest log2 ↔
      (∃ bits, sizesBits names total greatest 0 sizesMinus1 = .ok bits) ∧
        requireFilled names total log2 sizesMinus1 = .ok () := by
  rw [exists_sizesBits_iff htotal (Nat.zero_le total), requireFilled_eq_ok_iff]
  constructor
  · rintro ⟨hcovered, hlt, hlog2⟩
    exact ⟨⟨by omega, hlt⟩, hcovered, hlog2⟩
  · rintro ⟨⟨-, hlt⟩, hcovered, hlog2⟩
    exact ⟨hcovered, hlt, hlog2⟩

theorem explicitBits_eq_ok_iff {t : TileInfo} {grid : SuperblockGrid} {bits : Bits} :
    t.explicitBits grid = .ok bits ↔ (t.cols ≤ maxTilesPerSide ∧ t.rows ≤ maxTilesPerSide) ∧
      ∃ greatest widthBits heightBits, grid.maxExplicitHeight t.widthsMinus1 = .ok greatest ∧
        (sizesBits colElements grid.cols grid.maxTileWidthSb 0 t.widthsMinus1 = .ok widthBits ∧
          requireFilled colElements grid.cols t.colsLog2 t.widthsMinus1 = .ok ()) ∧
        (sizesBits rowElements grid.rows greatest 0 t.heightsMinus1 = .ok heightBits ∧
          requireFilled rowElements grid.rows t.rowsLog2 t.heightsMinus1 = .ok ()) ∧
        widthBits ++ heightBits = bits := by
  simp only [explicitBits, Encoding.invalid_eq_fail, guard_eq_ok_iff, bind_eq_ok_iff,
    liftM_eq_ok_iff, not_lt]
  constructor
  · rintro ⟨hcols, hrows, widthBits, hwidthBits, ⟨⟩, hwidths, greatest, hgreatest, heightBits,
      hheightBits, ⟨⟩, hheights, hbits⟩
    exact ⟨⟨hcols, hrows⟩, greatest, widthBits, heightBits, hgreatest, ⟨hwidthBits, hwidths⟩,
      ⟨hheightBits, hheights⟩, Except.ok.inj hbits⟩
  · rintro ⟨⟨hcols, hrows⟩, greatest, widthBits, heightBits, hgreatest, ⟨hwidthBits, hwidths⟩,
      ⟨hheightBits, hheights⟩, rfl⟩
    exact ⟨hcols, hrows, widthBits, hwidthBits, (), hwidths, greatest, hgreatest, heightBits,
      hheightBits, (), hheights, rfl⟩

theorem exists_explicitBits_iff {t : TileInfo} {grid : SuperblockGrid} (hcols : grid.cols < 2 ^ 31)
    (hrows : grid.rows < 2 ^ 31) :
    (∃ bits, t.explicitBits grid = .ok bits) ↔ t.ExplicitIn grid := by
  simp only [explicitBits_eq_ok_iff]
  constructor
  · rintro ⟨_, ⟨hcolsLe, hrowsLe⟩, greatest, widthBits, heightBits, hgreatest,
      ⟨hwidthBits, hwidths⟩, ⟨hheightBits, hheights⟩, -⟩
    exact ⟨hcolsLe, hrowsLe, (fills_iff hcols).mpr ⟨⟨widthBits, hwidthBits⟩, hwidths⟩, greatest,
      hgreatest, (fills_iff hrows).mpr ⟨⟨heightBits, hheightBits⟩, hheights⟩⟩
  · rintro ⟨hcolsLe, hrowsLe, hwidths, greatest, hgreatest, hheights⟩
    obtain ⟨⟨widthBits, hwidthBits⟩, hwidths⟩ := (fills_iff hcols).mp hwidths
    obtain ⟨⟨heightBits, hheightBits⟩, hheights⟩ := (fills_iff hrows).mp hheights
    exact ⟨_, ⟨hcolsLe, hrowsLe⟩, greatest, widthBits, heightBits, hgreatest,
      ⟨hwidthBits, hwidths⟩, ⟨hheightBits, hheights⟩, rfl⟩

theorem trailerBits_eq_ok_iff {t : TileInfo} {bits : Bits} :
    t.trailerBits = .ok bits ↔ t.colsLog2 + t.rowsLog2 ≤ 32 ∧
      (if 0 < t.colsLog2 + t.rowsLog2 then
        Bits.ofNat (t.colsLog2 + t.rowsLog2) t.contextUpdateTileId ++
          Bits.ofNat 2 t.tileSizeBytesMinus1
      else []) = bits := by
  unfold trailerBits tileNumberBits
  simp only [Bool.or_eq_true, decide_eq_true_eq, ← Nat.add_pos_iff_pos_or_pos]
  split
  · simp only [bind_eq_ok_iff, Encoding.descriptor_eq_ok_iff, liftM_eq_ok_iff, unsigned_eq_ok_iff,
      Descriptor.fixed_eq_ok_iff]
    constructor
    · rintro ⟨n, ⟨-, hn⟩, _, ⟨hle, rfl⟩, _, ⟨-, rfl⟩, hbits⟩
      obtain rfl : n = t.colsLog2 + t.rowsLog2 := by omega
      exact ⟨hle, Except.ok.inj hbits⟩
    · rintro ⟨hle, rfl⟩
      exact ⟨t.colsLog2 + t.rowsLog2, by omega, _, ⟨hle, rfl⟩, _, ⟨by omega, rfl⟩, rfl⟩
  · rename_i hone
    exact ⟨fun h => ⟨by omega, Except.ok.inj h⟩, fun h => congrArg Except.ok h.2⟩

theorem exists_trailerBits_iff {t : TileInfo} :
    (∃ bits, t.trailerBits = .ok bits) ↔ t.colsLog2 + t.rowsLog2 ≤ 32 := by
  simp only [trailerBits_eq_ok_iff, exists_and_left, exists_eq', and_true]

theorem bits_eq_ok_iff {t : TileInfo} {grid : SuperblockGrid} {bits : Bits} :
    t.bits grid = .ok bits ↔ ∃ spacing trailer,
      (if t.uniformSpacing then t.uniformBits grid else t.explicitBits grid) = .ok spacing ∧
      t.trailerBits = .ok trailer ∧ t.uniformSpacing :: spacing ++ trailer = bits := by
  have hparts (spacing : Encoding Bits) :
      (do return t.uniformSpacing :: (← spacing) ++ (← t.trailerBits)) = Except.ok bits ↔
        ∃ word trailer, spacing = .ok word ∧ t.trailerBits = .ok trailer ∧
          t.uniformSpacing :: word ++ trailer = bits := by
    simp only [bind_eq_ok_iff]
    constructor
    · rintro ⟨spacing, hspacing, trailer, htrailer, hbits⟩
      exact ⟨spacing, trailer, hspacing, htrailer, Except.ok.inj hbits⟩
    · rintro ⟨spacing, trailer, hspacing, htrailer, rfl⟩
      exact ⟨spacing, hspacing, trailer, htrailer, rfl⟩
  unfold TileInfo.bits
  split <;> exact hparts _

/-- What can be written for a frame: spacing of one of the two kinds, and a tile number of at most
    32 bits. -/
theorem exists_bits_iff {t : TileInfo} {grid : SuperblockGrid} (hcols : grid.cols < 2 ^ 31)
    (hrows : grid.rows < 2 ^ 31) : (∃ bits, t.bits grid = .ok bits) ↔
      (if t.uniformSpacing then t.UniformIn grid else t.ExplicitIn grid) ∧
        t.colsLog2 + t.rowsLog2 ≤ 32 := by
  have hparts (spacing : Encoding Bits) : (∃ bits word trailer, spacing = .ok word ∧
      t.trailerBits = .ok trailer ∧ t.uniformSpacing :: word ++ trailer = bits) ↔
        (∃ word, spacing = .ok word) ∧ ∃ trailer, t.trailerBits = .ok trailer := by
    constructor
    · rintro ⟨_, word, trailer, hword, htrailer, -⟩
      exact ⟨⟨word, hword⟩, trailer, htrailer⟩
    · rintro ⟨⟨word, hword⟩, trailer, htrailer⟩
      exact ⟨_, word, trailer, hword, htrailer, rfl⟩
  simp only [← exists_uniformBits_iff, ← exists_explicitBits_iff hcols hrows,
    ← exists_trailerBits_iff, bits_eq_ok_iff, hparts]
  split <;> rfl

end TileInfo

end Av1Frames
