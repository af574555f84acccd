import Av1Frames.Proofs.Tile.Cover

namespace Av1Frames

open Checked

namespace TileInfo

/-- Two tile infos divide a frame into the same tiles, and describe them in the same way. -/
structure SameSpacing (t t' : TileInfo) : Prop where
  uniformSpacing : t.uniformSpacing = t'.uniformSpacing
  cols : t.cols = t'.cols
  rows : t.rows = t'.rows
  colsLog2 : t.colsLog2 = t'.colsLog2
  rowsLog2 : t.rowsLog2 = t'.rowsLog2
  sizes : t.uniformSpacing = false →
    t.widthsMinus1 = t'.widthsMinus1 ∧ t.heightsMinus1 = t'.heightsMinus1

/-- Two tile infos differ in nothing that a reader needs: neither in the spacing nor, if there are
    several tiles, in the elements behind it. -/
structure Alike (t t' : TileInfo) : Prop extends SameSpacing t t' where
  trailer : 1 < t.cols * t.rows →
    t.contextUpdateTileId = t'.contextUpdateTileId ∧ t.tileSizeBytesMinus1 = t'.tileSizeBytesMinus1

/-- The elements behind the spacing fit the bits that they are given. -/
structure TrailerInRange (t : TileInfo) : Prop where
  tileId_lt : t.contextUpdateTileId < 2 ^ (t.colsLog2 + t.rowsLog2)
  sizeBytes_le : t.tileSizeBytesMinus1 ≤ 3

variable {t t' : TileInfo} {grid : SuperblockGrid} {word word' rest rest' : Bits}

theorem incrementBits_of_lt {log2 least greatest : Nat} (h : least < log2) :
    incrementBits log2 least greatest = true :: incrementBits log2 (least + 1) greatest := by
  have hsteps : log2 - least = log2 - (least + 1) + 1 := by omega
  rw [incrementBits, hsteps, List.replicate_succ]
  rfl

theorem incrementBits_self (least greatest : Nat) :
    incrementBits least least greatest = if least < greatest then [false] else [] := by
  rw [incrementBits, Nat.sub_self]
  rfl

/-- No bit is missing at the end: a clear bit stops the count, and so does the greatest number. -/
theorem prefixFree_incrementBits {least greatest : Nat} : Bits.PrefixFree fun log2 word =>
    (least ≤ log2 ∧ log2 ≤ greatest) ∧ incrementBits log2 least greatest = word := by
  rintro log2 log2' word word' rest rest' ⟨⟨hlow, hhigh⟩, rfl⟩ ⟨⟨hlow', hhigh'⟩, rfl⟩ hsame
  obtain ⟨n, rfl⟩ := Nat.exists_eq_add_of_le (hlow.trans hhigh)
  induction n generalizing least with
  | zero =>
    obtain rfl : log2 = least := by omega
    obtain rfl : log2' = log2 := by omega
    exact ⟨rfl, List.append_cancel_left hsame⟩
  | succ n ih =>
    rcases hlow.eq_or_lt with rfl | hlt <;> rcases hlow'.eq_or_lt with rfl | hlt'
    · exact ⟨rfl, List.append_cancel_left hsame⟩
    · rw [incrementBits_self, incrementBits_of_lt hlt', if_pos (by omega)] at hsame
      exact absurd (List.head_eq_of_cons_eq hsame) (by decide)
    · rw [incrementBits_self, incrementBits_of_lt hlt, if_pos (by omega)] at hsame
      exact absurd (List.head_eq_of_cons_eq hsame) (by decide)
    · rw [incrementBits_of_lt hlt, incrementBits_of_lt hlt'] at hsame
      have hgreatest : least + 1 + n = least + (n + 1) := by omega
      refine ih hlt hlt' (by omega) (by omega) ?_
      rw [hgreatest]
      exact List.tail_eq_of_cons_eq hsame

/-- Sizes that reach the end of a side need no count. The bound on each of them, and with it the
    code, follows from those before it. -/
theorem prefixFree_sizesBits {names : SideElements} {total greatest start : Nat}
    (htotal : total < 2 ^ 31) : Bits.PrefixFree fun sizesMinus1 word =>
      start + covered sizesMinus1 = total ∧
        sizesBits names total greatest start sizesMinus1 = .ok word := by
  rintro sizes sizes' word word' rest rest' ⟨hends, hword⟩ ⟨hends', hword'⟩ hsame
  have hcovered (minus1 : Nat) (sizes : List Nat) :
      covered (minus1 :: sizes) = minus1 + 1 + covered sizes := rfl
  have hnil : covered [] = 0 := rfl
  induction sizes generalizing sizes' start word word' with
  | nil =>
    cases sizes' with
    | nil =>
      obtain rfl := Except.ok.inj (hword.symm.trans hword')
      exact ⟨rfl, List.append_cancel_left hsame⟩
    | cons minus1' sizes' =>
      rw [hcovered] at hends'
      omega
  | cons minus1 sizes ih =>
    cases sizes' with
    | nil =>
      rw [hcovered] at hends
      omega
    | cons minus1' sizes' =>
      rw [hcovered] at hends hends'
      obtain ⟨hfits, first, more, hfirst, hmore, rfl⟩ := sizesBits_cons_eq_ok_iff.mp hword
      obtain ⟨hfits', first', more', hfirst', hmore', rfl⟩ := sizesBits_cons_eq_ok_iff.mp hword'
      rw [List.append_assoc, List.append_assoc] at hsame
      obtain ⟨rfl, hsame⟩ := Descriptor.prefixFree_nonSymmetric (by omega) ⟨hfits.2, hfirst⟩
        ⟨hfits'.2, hfirst'⟩ hsame
      obtain ⟨rfl, hrest⟩ := ih (by omega) hmore (by omega) hmore' hsame
      exact ⟨rfl, hrest⟩

namespace UniformIn

theorem cols_range (h : t.UniformIn grid) {least most : Nat}
    (hleast : grid.minLog2TileCols = .ok least) (hmost : grid.maxLog2TileCols = .ok most) :
    least ≤ t.colsLog2 ∧ t.colsLog2 ≤ most := by
  obtain ⟨least', most', -, hleast', hmost', hrange, -⟩ := h.cols
  obtain rfl := Except.ok.inj (hleast.symm.trans hleast')
  obtain rfl := Except.ok.inj (hmost.symm.trans hmost')
  exact hrange

theorem rows_range (h : t.UniformIn grid) {least most : Nat}
    (hleast : grid.minLog2Tiles = .ok least) (hmost : grid.maxLog2TileRows = .ok most) :
    least - t.colsLog2 ≤ t.rowsLog2 ∧ t.rowsLog2 ≤ most := by
  obtain ⟨least', most', -, hleast', hmost', hrange, -⟩ := h.rows
  obtain rfl := Except.ok.inj (hleast.symm.trans hleast')
  obtain rfl := Except.ok.inj (hmost.symm.trans hmost')
  exact ⟨by omega, hrange.2⟩

/-- The logarithms decide how many tiles there are. -/
theorem counts_eq (h : t.UniformIn grid) (h' : t'.UniformIn grid)
    (hcols : t.colsLog2 = t'.colsLog2) (hrows : t.rowsLog2 = t'.rowsLog2) :
    t.cols = t'.cols ∧ t.rows = t'.rows := by
  obtain ⟨-, -, width, -, -, -, hwidth, hcount⟩ := h.cols
  obtain ⟨-, -, width', -, -, -, hwidth', hcount'⟩ := h'.cols
  obtain ⟨-, -, height, -, -, -, hheight, hcountRows⟩ := h.rows
  obtain ⟨-, -, height', -, -, -, hheight', hcountRows'⟩ := h'.rows
  rw [hcols] at hwidth
  rw [hrows] at hheight
  obtain rfl := Except.ok.inj (hwidth.symm.trans hwidth')
  obtain rfl := Except.ok.inj (hheight.symm.trans hheight')
  exact ⟨Except.ok.inj (hcount.symm.trans hcount'),
    Except.ok.inj (hcountRows.symm.trans hcountRows')⟩

theorem counts_le (h : t.UniformIn grid) : t.cols ≤ 2 ^ t.colsLog2 ∧ t.rows ≤ 2 ^ t.rowsLog2 := by
  have hle {sbs log2 size count : Nat} (hsize : SuperblockGrid.uniformTileSize sbs log2 = .ok size)
      (hcount : divideUp sbs size = .ok count) : count ≤ 2 ^ log2 := by
    rw [divideUp_le_iff hcount, Nat.mul_comm]
    exact (SuperblockGrid.uniformTileSize_le_iff hsize).mp le_rfl
  obtain ⟨-, -, width, -, -, -, hwidth, hcols⟩ := h.cols
  obtain ⟨-, -, height, -, -, -, hheight, hrows⟩ := h.rows
  exact ⟨hle hwidth hcols, hle hheight hrows⟩

end UniformIn

namespace ExplicitIn

theorem length_sizes (h : t.ExplicitIn grid) :
    t.widthsMinus1.length = t.cols ∧ t.heightsMinus1.length = t.rows := by
  have hcols := h.cols_le
  have hrows := h.rows_le
  have hside : maxTilesPerSide = 64 := rfl
  simp only [widthsMinus1, heightsMinus1, List.length_take, Vector.length_toList]
  omega

theorem counts_le (h : t.ExplicitIn grid) : t.cols ≤ 2 ^ t.colsLog2 ∧ t.rows ≤ 2 ^ t.rowsLog2 := by
  obtain ⟨hcols, hrows⟩ := h.length_sizes
  obtain ⟨_, -, hheights⟩ := h.heights
  have hcolsLog2 := le_of_tileLog2 h.widths.log2
  have hrowsLog2 := le_of_tileLog2 hheights.log2
  rw [hcols, Nat.one_mul] at hcolsLog2
  rw [hrows, Nat.one_mul] at hrowsLog2
  exact ⟨hcolsLog2, hrowsLog2⟩

end ExplicitIn

theorem sameSpacing_of_uniformBits (huniform : t.uniformSpacing = t'.uniformSpacing)
    (hspacing : t.uniformSpacing = true) (hbits : t.uniformBits grid = .ok word)
    (hbits' : t'.uniformBits grid = .ok word') (hsame : word ++ rest = word' ++ rest') :
    SameSpacing t t' ∧ rest = rest' := by
  obtain ⟨hin, least, most, leastTiles, mostRows, hleast, hmost, hleastTiles, hmostRows, rfl⟩ :=
    uniformBits_eq_ok_iff.mp hbits
  obtain ⟨hin', _, _, _, _, hleast', hmost', hleastTiles', hmostRows', rfl⟩ :=
    uniformBits_eq_ok_iff.mp hbits'
  obtain rfl := Except.ok.inj (hleast.symm.trans hleast')
  obtain rfl := Except.ok.inj (hmost.symm.trans hmost')
  obtain rfl := Except.ok.inj (hleastTiles.symm.trans hleastTiles')
  obtain rfl := Except.ok.inj (hmostRows.symm.trans hmostRows')
  rw [List.append_assoc, List.append_assoc] at hsame
  obtain ⟨hcolsLog2, hsame⟩ := prefixFree_incrementBits ⟨hin.cols_range hleast hmost, rfl⟩
    ⟨hin'.cols_range hleast hmost, rfl⟩ hsame
  -- The least number of row doublings is the same one only now that the columns agree.
  rw [hcolsLog2] at hsame
  obtain ⟨hrowsLog2, hrest⟩ := prefixFree_incrementBits
    ⟨hcolsLog2 ▸ hin.rows_range hleastTiles hmostRows, rfl⟩
    ⟨hin'.rows_range hleastTiles hmostRows, rfl⟩ hsame
  obtain ⟨hcols, hrows⟩ := hin.counts_eq hin' hcolsLog2 hrowsLog2
  refine ⟨⟨huniform, hcols, hrows, hcolsLog2, hrowsLog2, fun hexplicit => ?_⟩, hrest⟩
  exact absurd (hspacing.symm.trans hexplicit) (by decide)

theorem side_eq_of_sizesBits {names : SideElements} {total greatest log2 log2' : Nat}
    {sizes sizes' : List Nat} (htotal : total < 2 ^ 31)
    (hside : sizesBits names total greatest 0 sizes = .ok word ∧
      requireFilled names total log2 sizes = .ok ())
    (hside' : sizesBits names total greatest 0 sizes' = .ok word' ∧
      requireFilled names total log2' sizes' = .ok ()) (hsame : word ++ rest = word' ++ rest') :
    sizes = sizes' ∧ log2 = log2' ∧ rest = rest' := by
  obtain ⟨hcovered, hlog2⟩ := requireFilled_eq_ok_iff.mp hside.2
  obtain ⟨hcovered', hlog2'⟩ := requireFilled_eq_ok_iff.mp hside'.2
  obtain ⟨rfl, hrest⟩ := prefixFree_sizesBits htotal ⟨(Nat.zero_add _).trans hcovered, hside.1⟩
    ⟨(Nat.zero_add _).trans hcovered', hside'.1⟩ hsame
  exact ⟨rfl, Except.ok.inj (hlog2.symm.trans hlog2'), hrest⟩

theorem sameSpacing_of_explicitBits (huniform : t.uniformSpacing = t'.uniformSpacing)
    (hcols : grid.cols < 2 ^ 31) (hrows : grid.rows < 2 ^ 31)
    (hbits : t.explicitBits grid = .ok word) (hbits' : t'.explicitBits grid = .ok word')
    (hsame : word ++ rest = word' ++ rest') : SameSpacing t t' ∧ rest = rest' := by
  have hin : t.ExplicitIn grid := (exists_explicitBits_iff hcols hrows).mp ⟨word, hbits⟩
  have hin' : t'.ExplicitIn grid := (exists_explicitBits_iff hcols hrows).mp ⟨word', hbits'⟩
  obtain ⟨-, greatest, _, _, hgreatest, hwidths, hheights, rfl⟩ := explicitBits_eq_ok_iff.mp hbits
  obtain ⟨-, greatest', _, _, hgreatest', hwidths', hheights', rfl⟩ :=
    explicitBits_eq_ok_iff.mp hbits'
  rw [List.append_assoc, List.append_assoc] at hsame
  obtain ⟨hwidthsEq, hcolsLog2, hsame⟩ := side_eq_of_sizesBits hcols hwidths hwidths' hsame
  -- The widest column bounds the heights, so their code is the same one only now.
  rw [hwidthsEq] at hgreatest
  obtain rfl := Except.ok.inj (hgreatest.symm.trans hgreatest')
  obtain ⟨hheightsEq, hrowsLog2, hrest⟩ := side_eq_of_sizesBits hrows hheights hheights' hsame
  have hcolsEq : t.cols = t'.cols := by
    rw [← hin.length_sizes.1, ← hin'.length_sizes.1, hwidthsEq]
  have hrowsEq : t.rows = t'.rows := by
    rw [← hin.length_sizes.2, ← hin'.length_sizes.2, hheightsEq]
  exact ⟨⟨huniform, hcolsEq, hrowsEq, hcolsLog2, hrowsLog2, fun _ => ⟨hwidthsEq, hheightsEq⟩⟩,
    hrest⟩

theorem trailer_eq_of_trailerBits (hcolsLog2 : t.colsLog2 = t'.colsLog2)
    (hrowsLog2 : t.rowsLog2 = t'.rowsLog2) (hrange : t.TrailerInRange)
    (hrange' : t'.TrailerInRange) (hbits : t.trailerBits = .ok word)
    (hbits' : t'.trailerBits = .ok word') (hsame : word ++ rest = word' ++ rest') :
    (0 < t.colsLog2 + t.rowsLog2 → t.contextUpdateTileId = t'.contextUpdateTileId ∧
      t.tileSizeBytesMinus1 = t'.tileSizeBytesMinus1) ∧ rest = rest' := by
  obtain ⟨-, rfl⟩ := trailerBits_eq_ok_iff.mp hbits
  obtain ⟨-, rfl⟩ := trailerBits_eq_ok_iff.mp hbits'
  obtain ⟨htileId, hsizeBytes⟩ := hrange
  obtain ⟨htileId', hsizeBytes'⟩ := hrange'
  rw [← hcolsLog2, ← hrowsLog2] at hsame htileId'
  split at hsame
  · rw [List.append_assoc, List.append_assoc] at hsame
    obtain ⟨htileIdEq, hsame⟩ := Bits.prefixFree_ofNat _ ⟨htileId, rfl⟩ ⟨htileId', rfl⟩ hsame
    obtain ⟨hsizeBytesEq, hrest⟩ := Bits.prefixFree_ofNat 2 ⟨by omega, rfl⟩ ⟨by omega, rfl⟩ hsame
    exact ⟨fun _ => ⟨htileIdEq, hsizeBytesEq⟩, hrest⟩
  · rename_i hone
    exact ⟨fun hseveral => absurd hseveral hone, hsame⟩

/-- However the bits of two tile infos are continued, they are only the same for tile infos that are
    alike. -/
theorem alike_of_bits (hcols : grid.cols < 2 ^ 31) (hrows : grid.rows < 2 ^ 31)
    (hrange : t.TrailerInRange) (hrange' : t'.TrailerInRange) (hbits : t.bits grid = .ok word)
    (hbits' : t'.bits grid = .ok word') (hsame : word ++ rest = word' ++ rest') :
    Alike t t' ∧ rest = rest' := by
  obtain ⟨spacing, trailer, hspacing, htrailer, rfl⟩ := bits_eq_ok_iff.mp hbits
  obtain ⟨spacing', trailer', hspacing', htrailer', rfl⟩ := bits_eq_ok_iff.mp hbits'
  simp only [List.cons_append, List.append_assoc, List.cons.injEq] at hsame
  obtain ⟨huniform, hsame⟩ := hsame
  rw [← huniform] at hspacing'
  obtain ⟨hcounts, hspacingEq, hsame⟩ : (t.cols ≤ 2 ^ t.colsLog2 ∧ t.rows ≤ 2 ^ t.rowsLog2) ∧
      SameSpacing t t' ∧ trailer ++ rest = trailer' ++ rest' := by
    split at hspacing
    · rename_i h
      rw [if_pos h] at hspacing'
      have hin : t.UniformIn grid := exists_uniformBits_iff.mp ⟨spacing, hspacing⟩
      exact ⟨hin.counts_le, sameSpacing_of_uniformBits huniform h hspacing hspacing' hsame⟩
    · rename_i h
      rw [if_neg h] at hspacing'
      have hin : t.ExplicitIn grid := (exists_explicitBits_iff hcols hrows).mp ⟨spacing, hspacing⟩
      exact ⟨hin.counts_le,
        sameSpacing_of_explicitBits huniform hcols hrows hspacing hspacing' hsame⟩
  obtain ⟨htrailerEq, hrest⟩ := trailer_eq_of_trailerBits hspacingEq.colsLog2 hspacingEq.rowsLog2
    hrange hrange' htrailer htrailer' hsame
  refine ⟨⟨hspacingEq, fun hseveral => htrailerEq ?_⟩, hrest⟩
  by_contra hone
  obtain ⟨hcolsLog2, hrowsLog2⟩ : t.colsLog2 = 0 ∧ t.rowsLog2 = 0 := by omega
  have htiles : t.cols * t.rows ≤ 2 ^ t.colsLog2 * 2 ^ t.rowsLog2 :=
    Nat.mul_le_mul hcounts.1 hcounts.2
  rw [hcolsLog2, hrowsLog2] at htiles
  omega

end TileInfo

/-- Headers of frames of one size only have the same bytes if their tile infos are alike. -/
theorem Header.alike_of_bytes {header header' : Header} {s s' : Sequence} {word word' : Bits}
    (hwidth : header.frameWidth = header'.frameWidth)
    (hheight : header.frameHeight = header'.frameHeight)
    (hlarge : s.use128x128Superblock = s'.use128x128Superblock)
    (hrange : header.tileInfo.TrailerInRange) (hrange' : header'.tileInfo.TrailerInRange)
    (hbits : header.tileInfoBits s = .ok word) (hbits' : header'.tileInfoBits s' = .ok word')
    (hbytes : Bits.toBytes word = Bits.toBytes word') :
    TileInfo.Alike header.tileInfo header'.tileInfo := by
  obtain ⟨grid, hgrid, hbits⟩ := tileInfoBits_eq_ok_iff.mp hbits
  obtain ⟨grid', hgrid', hbits'⟩ := tileInfoBits_eq_ok_iff.mp hbits'
  rw [hwidth, hheight, hlarge] at hgrid
  obtain rfl := Except.ok.inj (hgrid.symm.trans hgrid')
  obtain ⟨hcols, hrows⟩ := SuperblockGrid.lt_of_ofSize hgrid
  have hsame := congrArg Bits.ofBytes hbytes
  rw [Bits.ofBytes_toBytes, Bits.ofBytes_toBytes] at hsame
  exact (TileInfo.alike_of_bits hcols hrows hrange hrange' hbits hbits' hsame).1

/-- Headers with explicit spacing of a frame of three by three superblocks. There are two columns
    and two rows, so only the first two of the 64 widths are used. -/
def unevenHeader (unusedWidth : Nat) : Header :=
  { frameWidth := 192, frameHeight := 192,
    tileInfo := {
      uniformSpacing := false, cols := 2, rows := 2, colsLog2 := 1, rowsLog2 := 1,
      widthInSbsMinus1 := ((Vector.replicate 64 unusedWidth).set 0 1).set 1 0,
      heightInSbsMinus1 := (Vector.replicate 64 0).set 1 1,
      contextUpdateTileId := 3, tileSizeBytesMinus1 := 1 } }

theorem alike_of_bytes_unevenHeader :
    (∀ unusedWidth ∈ [0, 5], (unevenHeader unusedWidth).tileInfo.TrailerInRange ∧
      (unevenHeader unusedWidth).tileInfoBits {} =
        .ok [false, true, false, false, true, true, true, false, true]) ∧
    (unevenHeader 0).tileInfo ≠ (unevenHeader 5).tileInfo ∧
    TileInfo.Alike (unevenHeader 0).tileInfo (unevenHeader 5).tileInfo := by
  have hrange (unusedWidth : Nat) : (unevenHeader unusedWidth).tileInfo.TrailerInRange :=
    ⟨show 3 < 2 ^ (1 + 1) by decide, show 1 ≤ 3 by decide⟩
  have hbits : (unevenHeader 0).tileInfoBits {} =
      .ok [false, true, false, false, true, true, true, false, true] := by decide +kernel
  have hbits' : (unevenHeader 5).tileInfoBits {} =
      .ok [false, true, false, false, true, true, true, false, true] := by decide +kernel
  refine ⟨by simp [hrange, hbits, hbits'], by decide +kernel, ?_⟩
  exact Header.alike_of_bytes rfl rfl rfl (hrange 0) (hrange 5) hbits hbits' rfl

end Av1Frames
