import Av1Frames.Proofs.Logarithm
import Av1Frames.Tile.Grid

namespace Av1Frames

open Checked

namespace SuperblockGrid

variable {g : SuperblockGrid} {width height count sbs log2 size n : Nat} {large : Bool}

theorem uniformTileSize_eq_ok_iff :
    uniformTileSize sbs log2 = .ok size ↔
      log2 < 32 ∧ sbs + 2 ^ log2 < 2 ^ 32 ∧ divideUp sbs (2 ^ log2) = .ok size := by
  have hpos : 0 < 2 ^ log2 := Nat.two_pow_pos log2
  unfold uniformTileSize shiftLeft
  by_cases hlog2 : log2 < 32
  · have hpow : 2 ^ log2 < 2 ^ 32 := Nat.pow_lt_pow_right (by omega) hlog2
    rw [if_pos hlog2, Nat.one_shiftLeft, Nat.mod_eq_of_lt (by omega)]
    simp only [bind_eq_ok_iff, unsigned_eq_ok_iff, shiftRight_eq_ok_iff, divideUp_eq_ok_iff,
      Except.ok.injEq, hlog2, hpos, true_and]
    constructor
    · rintro ⟨_, rfl, sum, ⟨hfits, hsum⟩, less, ⟨-, hless⟩, hsize⟩
      obtain rfl : less = sbs + 2 ^ log2 - 1 := by omega
      exact ⟨by omega, hsize⟩
    · rintro ⟨hfits, hsize⟩
      refine ⟨_, rfl, sbs + 2 ^ log2, ?_, sbs + 2 ^ log2 - 1, ?_, hsize⟩ <;> omega
  · simp [hlog2, bind_eq_ok_iff]

theorem uniformTileSize_le_iff (h : uniformTileSize sbs log2 = .ok size) :
    size ≤ n ↔ sbs ≤ n * 2 ^ log2 :=
  divideUp_le_iff (uniformTileSize_eq_ok_iff.mp h).2.2

/-- Unless there are very many tiles, their number has a logarithm, and uniform ones have a size. -/
theorem uniformTileSize_clog (hsbs : sbs ≤ 2 ^ 26) (hcount : count ≤ 2 ^ 26) :
    tileLog2 1 count = .ok (Nat.clog 2 count) ∧
      uniformTileSize sbs (Nat.clog 2 count) = .ok (sbs ⌈/⌉ 2 ^ Nat.clog 2 count) := by
  have hlog2 : Nat.clog 2 count ≤ 26 := Nat.clog_le_of_le_pow hcount
  have hpow : 2 ^ Nat.clog 2 count ≤ 2 ^ 26 := Nat.pow_le_pow_right (by omega) hlog2
  refine ⟨tileLog2_one_eq (by omega), uniformTileSize_eq_ok_iff.mpr ⟨by omega, by omega, ?_⟩⟩
  exact divideUp_of_pos (Nat.two_pow_pos _)

theorem uniformTileSize_pos (hsbs : 0 < sbs) (log2 : Nat) : 0 < sbs ⌈/⌉ 2 ^ log2 := by
  apply Nat.pos_of_ne_zero
  intro hzero
  have hle := (ceilDiv_le_iff_le_mul (Nat.two_pow_pos log2)).mp hzero.le
  omega

theorem superblocks_le_iff {samples mi : Nat} (hblocks : blocks samples = .ok mi)
    (hsbs : superblocks large mi = .ok sbs) :
    sbs ≤ n ↔ samples ≤ n * 2 ^ if large then 7 else 6 := by
  simp only [blocks, bind_eq_ok_iff, unsigned_eq_ok_iff] at hblocks
  obtain ⟨rounded, hrounded, hmi⟩ := hblocks
  cases large with
  | true =>
    simp only [superblocks, if_true, bind_eq_ok_iff, unsigned_eq_ok_iff] at hsbs ⊢
    obtain ⟨sum, hsum, hsbs⟩ := hsbs
    obtain rfl := Except.ok.inj hsbs
    omega
  | false =>
    simp only [superblocks, Bool.false_eq_true, if_false, bind_eq_ok_iff, unsigned_eq_ok_iff]
      at hsbs ⊢
    obtain ⟨sum, hsum, hsbs⟩ := hsbs
    obtain rfl := Except.ok.inj hsbs
    omega

theorem ofSize_eq_ok_iff :
    ofSize width height large = .ok g ↔ ∃ miCols miRows, blocks width = .ok miCols ∧
      blocks height = .ok miRows ∧ superblocks large miCols = .ok g.cols ∧
      superblocks large miRows = .ok g.rows ∧ g.large = large := by
  simp only [ofSize, bind_eq_ok_iff]
  constructor
  · rintro ⟨miCols, hmiCols, miRows, hmiRows, cols, hcols, rows, hrows, h⟩
    obtain rfl := Except.ok.inj h
    exact ⟨miCols, miRows, hmiCols, hmiRows, hcols, hrows, rfl⟩
  · rintro ⟨miCols, miRows, hmiCols, hmiRows, hcols, hrows, rfl⟩
    exact ⟨miCols, hmiCols, miRows, hmiRows, _, hcols, _, hrows, rfl⟩

theorem cols_le_iff (h : ofSize width height large = .ok g) :
    g.cols ≤ n ↔ width ≤ n * 2 ^ g.sizeLog2 := by
  obtain ⟨miCols, miRows, hmiCols, hmiRows, hcols, hrows, rfl⟩ := ofSize_eq_ok_iff.mp h
  exact superblocks_le_iff hmiCols hcols

theorem rows_le_iff (h : ofSize width height large = .ok g) :
    g.rows ≤ n ↔ height ≤ n * 2 ^ g.sizeLog2 := by
  obtain ⟨miCols, miRows, hmiCols, hmiRows, hcols, hrows, rfl⟩ := ofSize_eq_ok_iff.mp h
  exact superblocks_le_iff hmiRows hrows

/-- The least grid that covers a frame of the given size. -/
def covering (width height : Nat) (large : Bool) : SuperblockGrid where
  cols := width ⌈/⌉ 2 ^ if large then 7 else 6
  rows := height ⌈/⌉ 2 ^ if large then 7 else 6
  large

theorem exists_superblocks (large : Bool) {samples : Nat} (hsamples : samples + 7 < 2 ^ 32) :
    ∃ mi, blocks samples = .ok mi ∧
      superblocks large mi = .ok (samples ⌈/⌉ 2 ^ if large then 7 else 6) := by
  obtain ⟨mi, hblocks, hmi⟩ : ∃ mi, blocks samples = .ok mi ∧ mi ≤ 2 ^ 30 := by
    have hround : unsigned (samples + 7) = .ok (samples + 7) := unsigned_eq_ok_iff.mpr (by omega)
    refine ⟨2 * ((samples + 7) / 8), ?_, by omega⟩
    rw [blocks, hround, ok_bind, unsigned_eq_ok_iff]
    omega
  obtain ⟨sbs, hsbs⟩ : ∃ sbs, superblocks large mi = .ok sbs := by
    have hround {k : Nat} (hk : k ≤ 31) : unsigned (mi + k) = .ok (mi + k) :=
      unsigned_eq_ok_iff.mpr (by omega)
    unfold superblocks
    split
    · exact ⟨_, bind_eq_ok_iff.mpr ⟨_, hround (by decide), rfl⟩⟩
    · exact ⟨_, bind_eq_ok_iff.mpr ⟨_, hround (by decide), rfl⟩⟩
  refine ⟨mi, hblocks, hsbs.trans (congrArg Except.ok ?_)⟩
  refine eq_of_forall_ge_iff fun n => ?_
  rw [superblocks_le_iff hblocks hsbs, ceilDiv_le_iff_le_mul (Nat.two_pow_pos _), Nat.mul_comm]

/-- There is a grid unless the size of the frame cannot be rounded up to whole blocks. -/
theorem ofSize_eq_ok_iff_covering :
    ofSize width height large = .ok g ↔
      (width + 7 < 2 ^ 32 ∧ height + 7 < 2 ^ 32) ∧ covering width height large = g := by
  have hlt {samples mi : Nat} (h : blocks samples = .ok mi) : samples + 7 < 2 ^ 32 := by
    simp only [blocks, bind_eq_ok_iff, unsigned_eq_ok_iff] at h
    obtain ⟨rounded, hrounded, -⟩ := h
    omega
  have hcovering (hwidth : width + 7 < 2 ^ 32) (hheight : height + 7 < 2 ^ 32) :
      ofSize width height large = .ok (covering width height large) := by
    obtain ⟨miCols, hmiCols, hcols⟩ := exists_superblocks large hwidth
    obtain ⟨miRows, hmiRows, hrows⟩ := exists_superblocks large hheight
    exact ofSize_eq_ok_iff.mpr ⟨miCols, miRows, hmiCols, hmiRows, hcols, hrows, rfl⟩
  constructor
  · intro h
    obtain ⟨miCols, miRows, hmiCols, hmiRows, -⟩ := ofSize_eq_ok_iff.mp h
    have hsame := (hcovering (hlt hmiCols) (hlt hmiRows)).symm.trans h
    exact ⟨⟨hlt hmiCols, hlt hmiRows⟩, Except.ok.inj hsame⟩
  · rintro ⟨⟨hwidth, hheight⟩, rfl⟩
    exact hcovering hwidth hheight

/-- Superblocks have at least 64 samples on a side. -/
theorem covering_le (large : Bool) (hwidth : width ≤ 64 * n) (hheight : height ≤ 64 * n) :
    (covering width height large).cols ≤ n ∧ (covering width height large).rows ≤ n := by
  have hle {samples : Nat} (h : samples ≤ 64 * n) :
      samples ⌈/⌉ 2 ^ (if large then 7 else 6) ≤ n := by
    rw [ceilDiv_le_iff_le_mul (Nat.two_pow_pos _)]
    split <;> omega
  exact ⟨hle hwidth, hle hheight⟩

/-- Sizes that 32 bits can hold leave the numbers of superblocks far below that. -/
theorem lt_of_ofSize (h : ofSize width height large = .ok g) :
    g.cols < 2 ^ 31 ∧ g.rows < 2 ^ 31 := by
  obtain ⟨⟨hwidth, hheight⟩, rfl⟩ := ofSize_eq_ok_iff_covering.mp h
  obtain ⟨hcols, hrows⟩ : (covering width height large).cols ≤ 2 ^ 26 ∧
      (covering width height large).rows ≤ 2 ^ 26 :=
    covering_le large (by omega) (by omega)
  omega

/-- Greater frames have no fewer superblocks. -/
theorem le_of_ofSize {g' : SuperblockGrid} {width' height' : Nat}
    (h : ofSize width height large = .ok g) (h' : ofSize width' height' large = .ok g')
    (hwidth : width ≤ width') (hheight : height ≤ height') :
    g.cols ≤ g'.cols ∧ g.rows ≤ g'.rows := by
  have hlarge : g.sizeLog2 = g'.sizeLog2 := by
    obtain ⟨-, -, -, -, -, -, hg⟩ := ofSize_eq_ok_iff.mp h
    obtain ⟨-, -, -, -, -, -, hg'⟩ := ofSize_eq_ok_iff.mp h'
    rw [sizeLog2, sizeLog2, hg, hg']
  rw [cols_le_iff h, rows_le_iff h, hlarge]
  exact ⟨hwidth.trans ((cols_le_iff h').mp le_rfl), hheight.trans ((rows_le_iff h').mp le_rfl)⟩

theorem ofSize_of_ofSequence {s : Sequence} (h : ofSequence s = .ok g) :
    ofSize (s.maxFrameWidthMinus1 + 1) (s.maxFrameHeightMinus1 + 1) s.use128x128Superblock =
      .ok g := by
  simp only [ofSequence, Sequence.codedResolution, bind_eq_ok_iff, unsigned_eq_ok_iff] at h
  obtain ⟨size, ⟨width, ⟨-, hwidth⟩, height, ⟨-, hheight⟩, hsize⟩, h⟩ := h
  obtain rfl := Except.ok.inj hsize
  obtain rfl : width = s.maxFrameWidthMinus1 + 1 := by omega
  obtain rfl : height = s.maxFrameHeightMinus1 + 1 := by omega
  exact h

theorem maxTileWidthSb_eq (g : SuperblockGrid) : g.maxTileWidthSb = if g.large then 32 else 64 := by
  unfold maxTileWidthSb sizeLog2
  split <;> rfl

theorem maxTileWidthSb_pos (g : SuperblockGrid) : 0 < g.maxTileWidthSb := by
  rw [maxTileWidthSb_eq]
  split <;> decide

/-- Not more columns are needed than there are superblocks. -/
theorem leastCols_le (g : SuperblockGrid) : g.cols ⌈/⌉ g.maxTileWidthSb ≤ g.cols :=
  ceilDiv_le_self g.cols g.maxTileWidthSb_pos

theorem maxTileAreaSb_eq (g : SuperblockGrid) :
    g.maxTileAreaSb = if g.large then 576 else 2304 := by
  rw [maxTileAreaSb, Nat.shiftRight_eq_div_pow, maxTileArea, sizeLog2]
  split <;> norm_num

theorem maxTileWidthSb_le_area (g : SuperblockGrid) : g.maxTileWidthSb ≤ g.maxTileAreaSb := by
  rw [maxTileWidthSb_eq, maxTileAreaSb_eq]
  split <;> decide

theorem maxTileAreaSb_pos (g : SuperblockGrid) : 0 < g.maxTileAreaSb :=
  g.maxTileWidthSb_pos.trans_le g.maxTileWidthSb_le_area

/-- The greatest area of a tile can be doubled up to this number without a bit lost, and everything
    that is left of it above is less. -/
theorem doubled_maxTileAreaSb (g : SuperblockGrid) :
    g.maxTileAreaSb * 2 ^ (if g.large then 22 else 20) = 9 * 2 ^ 28 ∧
      ∀ k < 32, (g.maxTileAreaSb <<< k) % 0x100000000 ≤ 9 * 2 ^ 28 := by
  rw [maxTileAreaSb_eq]
  split <;> decide

theorem area_eq_ok_iff {area : Nat} :
    g.area = .ok area ↔ g.rows * g.cols < 2 ^ 32 ∧ g.rows * g.cols = area := by
  rw [SuperblockGrid.area, ← Nat.cast_mul, unsigned_eq_ok_iff]
  omega

theorem minLog2Tiles_eq_ok_iff : g.minLog2Tiles = .ok n ↔ ∃ cols area tiles,
    g.minLog2TileCols = .ok cols ∧ g.area = .ok area ∧ tileLog2 g.maxTileAreaSb area = .ok tiles ∧
      max cols tiles = n := by
  simp only [minLog2Tiles, bind_eq_ok_iff]
  constructor
  · rintro ⟨cols, hcols, area, harea, tiles, htiles, h⟩
    exact ⟨cols, area, tiles, hcols, harea, htiles, Except.ok.inj h⟩
  · rintro ⟨cols, area, tiles, hcols, harea, htiles, rfl⟩
    exact ⟨cols, hcols, area, harea, tiles, htiles, rfl⟩

theorem area_le_of_minLog2Tiles {least : Nat} (h : g.minLog2Tiles = .ok least) :
    g.rows * g.cols ≤ 9 * 2 ^ 28 := by
  obtain ⟨-, area, tiles, -, harea, htiles, -⟩ := minLog2Tiles_eq_ok_iff.mp h
  obtain ⟨⟨htiles, hfits⟩, -⟩ := tileLog2_eq_ok_iff.mp htiles
  rw [area_eq_ok_iff] at harea
  exact harea.2 ▸ hfits.trans (g.doubled_maxTileAreaSb.2 tiles htiles)

theorem exists_minLog2Tiles (hcols : g.cols ≤ 2 ^ 26) (harea : g.rows * g.cols ≤ 9 * 2 ^ 28) :
    ∃ least, g.minLog2Tiles = .ok least ∧ least ≤ 22 := by
  obtain ⟨cols, hcolsLog2, hcolsLe⟩ : ∃ k, g.minLog2TileCols = .ok k ∧ k ≤ 21 := by
    refine exists_tileLog2_of_le g.maxTileWidthSb_pos ?_ (hcols.trans ?_) <;>
      rw [maxTileWidthSb_eq] <;> split <;> norm_num
  have hdoubled := g.doubled_maxTileAreaSb.1
  obtain ⟨tiles, htiles, htilesLe⟩ : ∃ k, tileLog2 g.maxTileAreaSb (g.rows * g.cols) = .ok k ∧
      k ≤ if g.large then 22 else 20 :=
    exists_tileLog2_of_le g.maxTileAreaSb_pos (by omega) (by omega)
  have hareaEq : g.area = .ok (g.rows * g.cols) := area_eq_ok_iff.mpr ⟨by omega, rfl⟩
  refine ⟨max cols tiles, minLog2Tiles_eq_ok_iff.mpr ?_, max_le (by omega) ?_⟩
  · exact ⟨cols, _, tiles, hcolsLog2, hareaEq, htiles, rfl⟩
  · refine htilesLe.trans ?_
    split <;> omega

/-- The logarithm of a number of tiles on one side is no greater than the greatest there can be. -/
theorem exists_maxLog2_of_count {count log2 : Nat} (hlog2 : tileLog2 1 count = .ok log2)
    (hle : count ≤ n) (hcount : count ≤ maxTilesPerSide) :
    log2 ≤ 6 ∧ ∃ most, tileLog2 1 (min n maxTilesPerSide) = .ok most ∧ log2 ≤ most := by
  have hside : maxTilesPerSide = 64 := rfl
  rw [tileLog2_one_eq (by omega)] at hlog2
  obtain rfl := Except.ok.inj hlog2
  refine ⟨Nat.clog_le_of_le_pow hcount, _, tileLog2_one_eq (by omega), ?_⟩
  exact Nat.clog_mono_right 2 (le_min hle hcount)

/-- Explicit tiles are kept to half of what a tile may have, if there have to be several. -/
theorem explicitTileAreaSb_le (h : g.explicitTileAreaSb = .ok n) : n ≤ g.maxTileAreaSb := by
  rw [explicitTileAreaSb, bind_eq_ok_iff] at h
  obtain ⟨least, hleast, h⟩ := h
  obtain ⟨cols, area, tiles, -, harea, htiles, hmax⟩ := minLog2Tiles_eq_ok_iff.mp hleast
  have hfits := le_of_tileLog2 htiles
  split at h
  · rw [harea, ok_bind, bind_eq_ok_iff] at h
    obtain ⟨amount, hamount, h⟩ := h
    rw [unsigned_eq_ok_iff] at hamount
    obtain rfl : amount = least + 1 := by omega
    obtain ⟨-, rfl⟩ := shiftRight_eq_ok_iff.mp h
    have hpow : 2 ^ tiles ≤ 2 ^ (least + 1) := Nat.pow_le_pow_right (by omega) (by omega)
    apply Nat.div_le_of_le_mul
    rw [Nat.mul_comm]
    exact hfits.trans (Nat.mul_le_mul_left _ hpow)
  · have htiles : tiles = 0 := by omega
    rw [harea] at h
    obtain rfl := Except.ok.inj h
    rwa [htiles, Nat.pow_zero, Nat.mul_one] at hfits

theorem le_foldl_max {l : List Nat} {b : Nat} : b ≤ l.foldl max b ∧ ∀ x ∈ l, x ≤ l.foldl max b := by
  induction l generalizing b with
  | nil => simp
  | cons a l ih =>
    obtain ⟨hle, hmem⟩ := ih (b := max b a)
    simp only [List.foldl_cons, List.mem_cons, forall_eq_or_imp]
    exact ⟨by omega, by omega, hmem⟩

theorem area_le_of_maxExplicitHeight {widthsMinus1 : List Nat} {greatest w h : Nat}
    (hgreatest : g.maxExplicitHeight widthsMinus1 = .ok greatest) (hw : w ∈ widthsMinus1)
    (hwidth : w + 1 ≤ g.maxTileWidthSb) (hheight : h ≤ greatest) :
    (w + 1) * h ≤ g.maxTileAreaSb := by
  rw [maxExplicitHeight, bind_eq_ok_iff] at hgreatest
  obtain ⟨area, harea, hgreatest⟩ := hgreatest
  obtain rfl := Except.ok.inj hgreatest
  have hwidest : w + 1 ≤ (widthsMinus1.map (· + 1)).foldl max 1 :=
    le_foldl_max.2 _ (List.mem_map_of_mem hw)
  have hlimit := explicitTileAreaSb_le harea
  generalize (widthsMinus1.map (· + 1)).foldl max 1 = widest at *
  rcases Nat.le_total (area / widest) 1 with hsmall | hlarge
  · rw [max_eq_right hsmall] at hheight
    have := g.maxTileWidthSb_le_area
    calc (w + 1) * h ≤ (w + 1) * 1 := Nat.mul_le_mul_left _ hheight
      _ ≤ g.maxTileAreaSb := by omega
  · rw [max_eq_left hlarge] at hheight
    calc (w + 1) * h ≤ widest * (area / widest) := Nat.mul_le_mul hwidest hheight
      _ ≤ area := Nat.mul_div_le area widest
      _ ≤ g.maxTileAreaSb := hlimit

theorem exists_maxExplicitHeight (hcols : g.cols ≤ 2 ^ 26) (harea : g.rows * g.cols ≤ 9 * 2 ^ 28)
    (widthsMinus1 : List Nat) :
    ∃ greatest, g.maxExplicitHeight widthsMinus1 = .ok greatest ∧ 0 < greatest ∧
      greatest ≤ g.maxTileAreaSb := by
  obtain ⟨least, hleast, hleastLe⟩ := exists_minLog2Tiles hcols harea
  have hareaEq : g.area = .ok (g.rows * g.cols) := area_eq_ok_iff.mpr ⟨by omega, rfl⟩
  obtain ⟨area, harea⟩ : ∃ area, g.explicitTileAreaSb = .ok area := by
    rw [explicitTileAreaSb, hleast, ok_bind]
    split
    · have hamount : unsigned (least + 1) = .ok (least + 1) := unsigned_eq_ok_iff.mpr (by omega)
      rw [hareaEq, ok_bind, hamount, ok_bind]
      exact ⟨_, shiftRight_eq_ok_iff.mpr ⟨by omega, rfl⟩⟩
    · exact ⟨_, hareaEq⟩
  refine ⟨max (area / (widthsMinus1.map (· + 1)).foldl max 1) 1, ?_, ?_, max_le ?_ ?_⟩
  · rw [maxExplicitHeight, harea]
    rfl
  · exact Nat.lt_of_lt_of_le Nat.zero_lt_one (le_max_right _ _)
  · exact (Nat.div_le_self _ _).trans (explicitTileAreaSb_le harea)
  · exact g.maxTileAreaSb_pos

end SuperblockGrid

end Av1Frames
