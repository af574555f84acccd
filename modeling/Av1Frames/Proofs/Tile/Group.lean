import Av1Frames.Proofs.Bits.Reader
import Av1Frames.Proofs.Tile.Window

namespace Av1Frames

theorem window?_eq_some_iff {data part : Bytes} {offset size : Nat} :
    window? data offset size = some part ↔
      offset + size ≤ data.length ∧ (data.drop offset).take size = part := by
  unfold window?
  split <;> simp_all

theorem window?_of_append {data a b : Bytes} {offset size : Nat}
    (h : window? data offset size = some (a ++ b)) :
    window? data (offset + a.length) (size - a.length) = some b := by
  obtain ⟨hwindow, hpart⟩ := window?_eq_some_iff.mp h
  have hlength := congrArg List.length hpart
  simp only [List.length_take, List.length_drop, List.length_append] at hlength
  refine window?_eq_some_iff.mpr ⟨by omega, ?_⟩
  rw [← List.drop_drop, ← List.drop_take, hpart, List.drop_left]

namespace TileGroup

theorem validLayout_iff {t : TileInfo} :
    validLayout t ↔ (0 < t.cols ∧ 0 < t.rows) ∧ (t.cols ≤ 64 ∧ t.rows ≤ 64) ∧
      t.colsLog2 ≤ 6 ∧ t.rowsLog2 ≤ 6 := by
  simp only [validLayout, Bool.and_eq_true, decide_eq_true_eq]
  unfold maxTilesPerSide
  omega

theorem tileCount_of_validLayout {t : TileInfo} (ht : validLayout t) :
    t.tileCount = .ok (t.cols * t.rows) := by
  obtain ⟨-, ⟨hcols, hrows⟩, -⟩ := validLayout_iff.mp ht
  exact TileInfo.tileCount_of_le hcols hrows

theorem tileInfo_of_ofSequence {s : Sequence} {t : TileInfo} {sizes : TileSizes}
    (h : TileSizes.ofSequence s t = .ok sizes) : sizes.tileInfo = t :=
  (TileSizes.ofSequence_eq_ok_iff.mp h).1

variable {g : TileGroup} {s : Sequence} {header : Header} {tiles : List Tile}

/-- The tiles of a group are found if its range is one of a valid layout, and they are there. -/
theorem tiles_eq_ok_iff :
    g.tiles s header = .ok tiles ↔ ∃ data sizes, g.tileData? = some data ∧
      validLayout header.tileInfo ∧ g.first ≤ g.last ∧
      g.last < header.tileInfo.cols * header.tileInfo.rows ∧ g.last - g.first + 1 ≤ maxTiles ∧
      TileSizes.ofSequence s header.tileInfo = .ok sizes ∧
      g.tilesFrom sizes data (g.last - g.first + 1) g.first 0 = .ok tiles := by
  cases hdata : g.tileData? with
  | none => simp [TileGroup.tiles, hdata]
  | some data =>
    simp only [TileGroup.tiles, hdata, guard_eq_ok_iff, bind_eq_ok_iff, liftM_eq_ok_iff,
      Bool.not_eq_true', Bool.not_eq_false, Bool.or_eq_true, decide_eq_true_eq, not_or, not_lt,
      not_le, Option.some.injEq]
    constructor
    · rintro ⟨hlayout, count, hcount, ⟨hrange, hlast⟩, hmost, sizes, hsizes, h⟩
      rw [tileCount_of_validLayout hlayout] at hcount
      obtain rfl := Except.ok.inj hcount
      exact ⟨data, sizes, rfl, hlayout, hrange, hlast, hmost, hsizes, h⟩
    · rintro ⟨_, sizes, rfl, hlayout, hrange, hlast, hmost, hsizes, h⟩
      exact ⟨hlayout, _, tileCount_of_validLayout hlayout, ⟨hrange, hlast⟩, hmost, sizes, hsizes, h⟩

/-- The ranges of the tile info only matter where its layout is valid. -/
theorem tiles_faultless_of_layout (hs : s.InRange)
    (ht : validLayout header.tileInfo → header.tileInfo.InRange) :
    (g.tiles s header).Faultless := by
  unfold TileGroup.tiles
  dsimp only
  split
  · rename_i data _
    refine .guard fun hlayout => ?_
    rw [Bool.not_eq_true', Bool.not_eq_false] at hlayout
    have ht := ht hlayout
    refine .lift_bind (tileCount_of_validLayout hlayout) ?_
    refine .guard fun hrange => ?_
    refine .guard fun hmost => ?_
    simp only [Bool.or_eq_true, decide_eq_true_eq, not_or, not_lt, not_le] at hrange
    obtain ⟨sizes, hsizes, htileInfo, hwidth, hheight⟩ := TileSizes.ofSequence_eq_ok hs ht
    refine .lift_bind hsizes ?_
    exact tilesFrom_faultless (htileInfo ▸ ht) hwidth hheight (by rw [htileInfo]; omega)
      (Nat.zero_le _)
  · exact .fail

theorem tiles_faultless (hs : s.InRange) (ht : header.tileInfo.InRange) :
    (g.tiles s header).Faultless := tiles_faultless_of_layout hs fun _ => ht

/-- Reading the header of a group needs as many bits as a tile number may have. -/
theorem readRange_accounts (count : Nat) {t : TileInfo} (hcols : t.colsLog2 ≤ 6)
    (hrows : t.rowsLog2 ≤ 6) : (readRange t count).Accounts := by
  have hrest (present : Bool) : Read.Accounts (if count = 1 || !present then do
      Read.align
      return (present, 0, count - 1)
    else do
      let n ← t.tileNumberBits
      let first ← Read.fixed n
      let last ← Read.fixed n
      Read.align
      return (present, first, last)) := by
    split
    · exact Read.Accounts.align.bind fun _ => .pure
    · refine .bind (.checked (TileInfo.tileNumberBits_of_le hcols hrows)) fun n => ?_
      refine .bind .fixed fun first => .bind .fixed fun last => ?_
      exact Read.Accounts.align.bind fun _ => .pure
  -- With a single tile there is no flag to read.
  unfold readRange
  split
  · exact .bind .bit hrest
  · exact .bind .pure hrest

variable {obuHeader : ObuHeader} {data : Bytes} {offset size : Nat} {t : TileInfo}

theorem parse_faultless (ht : t.InRange) :
    (parse obuHeader data offset size t).Faultless := by
  unfold parse
  split
  · exact .fail
  · rename_i payload hpayload
    refine .lift_bind (TileInfo.tileCount_of_le ht.cols_le ht.rows_le) ?_
    have haccounts := readRange_accounts (t.cols * t.rows) ht.colsLog2_le ht.rowsLog2_le
      (Reader.ofBytes payload)
    rcases hrun : (readRange t (t.cols * t.rows)).run (Reader.ofBytes payload) with ⟨range, reader⟩
    have hrange : Outcome.Faultless range := by
      rintro f rfl
      exact (haccounts.error hrun).1 f rfl
    exact .bind (.mapError hrange) fun _ _ => .ok

/-- The tiles of a group that was read take what its header leaves of the payload. -/
theorem parse_eq_ok (hcols : t.colsLog2 ≤ 6) (hrows : t.rowsLog2 ≤ 6)
    (h : parse obuHeader data offset size t = .ok g) :
    g.data = data ∧ offset + size ≤ data.length ∧ offset ≤ g.dataOffset ∧
      g.dataOffset + g.dataSize = offset + size := by
  unfold parse at h
  split at h
  · exact absurd h fail_ne_ok
  · rename_i payload hpayload
    rw [window?_eq_some_iff] at hpayload
    obtain ⟨hwindow, hpayload⟩ := hpayload
    rw [bind_eq_ok_iff] at h
    obtain ⟨count, -, h⟩ := h
    have haccounts := readRange_accounts count hcols hrows (Reader.ofBytes payload)
    rcases hrun : (readRange t count).run (Reader.ofBytes payload) with ⟨range, reader⟩
    rw [hrun] at h
    dsimp only at h
    rw [bind_eq_ok_iff] at h
    obtain ⟨⟨present, first, last⟩, hrange, h⟩ := h
    rw [mapError_eq_ok_iff] at hrange
    subst hrange
    obtain rfl := Except.ok.inj h
    have htotal := haccounts.ok hrun
    rw [Reader.total_ofBytes, Reader.total] at htotal
    have hlength : payload.length = size := by
      rw [← hpayload, List.length_take, List.length_drop]
      omega
    refine ⟨rfl, hwindow, Nat.le_add_right offset _, ?_⟩
    dsimp only
    omega

/-- What the windows of the tiles of a group are like, within the part of the buffer at `offset`
    that has `size` bytes. -/
structure Windows (g : TileGroup) (t : TileInfo) (offset size : Nat) (tiles : List Tile) :
    Prop where
  first_le : g.first ≤ g.last
  length_eq : tiles.length = g.last - g.first + 1
  number : ∀ (j : Nat) (hj : j < tiles.length),
    tiles[j].row = (g.first + j) / t.cols ∧ tiles[j].col = (g.first + j) % t.cols
  inside : ∀ tile ∈ tiles, offset ≤ tile.start ∧ tile.stop ≤ offset + size
  ordered : tiles.Pairwise fun a b => a.stop ≤ b.start
  nonempty : ∀ tile ∈ tiles.dropLast, 0 < tile.size
  /-- A tile starts one size field behind the end of the one before it, the last tile right there.
      The first one follows the header of the group. -/
  gap : ∀ (j : Nat) (hj : j < tiles.length),
    tiles[j].start = (g.dataOffset :: tiles.map Tile.stop).get ⟨j, by simp; omega⟩ +
      if j + 1 < tiles.length then t.sizeFieldBytes else 0
  /-- The bytes of a size field belong to no tile. -/
  unclaimed : ∀ (j : Nat) (hj : j + 1 < tiles.length) (b : Nat),
    tiles[j].start ≤ b + t.sizeFieldBytes → b < tiles[j].start →
      ∀ tile ∈ tiles, ¬ (tile.start ≤ b ∧ b < tile.stop)
  last_stop : tiles.getLast?.map Tile.stop = some (offset + size)
  sum_size : (tiles.map Tile.size).sum + (g.last - g.first) * t.sizeFieldBytes = g.dataSize

/-- Tiles found in a group lie within its data. -/
theorem laid_of_tiles (h : g.tiles s header = .ok tiles) :
    Laid header.tileInfo.sizeFieldBytes (g.dataOffset + g.dataSize) g.dataOffset tiles := by
  obtain ⟨data, sizes, hdata, -, hrange, -, -, hsizes, hfrom⟩ := tiles_eq_ok_iff.mp h
  obtain ⟨hwindow, hdata⟩ := window?_eq_some_iff.mp hdata
  have hlength : data.length = g.dataSize := by
    rw [← hdata, List.length_take, List.length_drop]
    omega
  have hlaid := laid_of_tilesFrom (Nat.zero_le _) (by omega) hfrom
  rwa [tileInfo_of_ofSequence hsizes, hlength, Nat.add_zero] at hlaid

/-- The tiles found in a group are those of its range, in the order of their numbers. -/
theorem numbered_of_tiles (h : g.tiles s header = .ok tiles) :
    tiles.length = g.last - g.first + 1 ∧ ∀ (j : Nat) (hj : j < tiles.length),
      tiles[j].row = (g.first + j) / header.tileInfo.cols ∧
      tiles[j].col = (g.first + j) % header.tileInfo.cols := by
  obtain ⟨data, sizes, -, -, -, -, -, hsizes, hfrom⟩ := tiles_eq_ok_iff.mp h
  have hnumbered := numbered_of_tilesFrom hfrom
  rwa [tileInfo_of_ofSequence hsizes] at hnumbered

/-- A group that begins with tile `k` goes on to the tile after its last one, at most to the end of
    the frame. -/
theorem next_of_tiles {k : Nat} (hfirst : g.first = k) (h : g.tiles s header = .ok tiles) :
    header.tileInfo.tileCount = .ok (header.tileInfo.cols * header.tileInfo.rows) ∧
      k + tiles.length = g.last + 1 ∧
      g.last + 1 ≤ header.tileInfo.cols * header.tileInfo.rows := by
  obtain ⟨_, _, -, hlayout, hrange, hlast, -⟩ := tiles_eq_ok_iff.mp h
  obtain ⟨hlength, -⟩ := numbered_of_tiles h
  exact ⟨tileCount_of_validLayout hlayout, by omega, hlast⟩

/-- Whatever bytes a buffer holds, reading a tile group from it and finding its tiles never faults,
    and tiles that are found cover the payload of the group but for its header and size fields. -/
theorem windows_of_parse (obuHeader : ObuHeader) (data : Bytes) (offset size : Nat)
    (hs : s.InRange) (ht : header.tileInfo.InRange) :
    (parse obuHeader data offset size header.tileInfo).Faultless ∧
      ∀ g, parse obuHeader data offset size header.tileInfo = .ok g →
        (g.tiles s header).Faultless ∧
          ∀ tiles, g.tiles s header = .ok tiles → Windows g header.tileInfo offset size tiles := by
  refine ⟨parse_faultless ht, fun g hparse => ⟨tiles_faultless hs ht, fun tiles htiles => ?_⟩⟩
  obtain ⟨-, -, hoffset, hend⟩ := parse_eq_ok ht.colsLog2_le ht.rowsLog2_le hparse
  have hlaid := laid_of_tiles htiles
  obtain ⟨_, _, -, -, hrange, -⟩ := tiles_eq_ok_iff.mp htiles
  obtain ⟨hlength, hnumber⟩ := numbered_of_tiles htiles
  refine
    { first_le := hrange
      length_eq := hlength
      number := hnumber
      inside := fun tile hmem => ?_
      ordered := hlaid.ordered
      nonempty := fun tile hmem => hlaid.nonempty hmem
      gap := fun j hj => hlaid.gap hj
      unclaimed := fun j hj b hlow hhigh tile hmem => hlaid.unclaimed hj hlow hhigh hmem
      last_stop := hend ▸ hlaid.getLast_stop
      sum_size := ?_ }
  · obtain ⟨hlow, hhigh⟩ := hlaid.inside hmem
    exact ⟨hoffset.trans hlow, hend ▸ hhigh⟩
  · have hsum := hlaid.sum_size
    rw [hlength, Nat.add_sub_cancel] at hsum
    omega

/-- Two tiles side by side, with size fields of one byte. -/
def pairInfo : TileInfo := { colsLog2 := 1, cols := 2, tileSizeBytesMinus1 := 0 }

/-- The group of both tiles of `pairInfo` behind one byte of something else. The first tile has two
    bytes, the second one has three. -/
def pairGroup : TileGroup :=
  { last := 1, data := [0xFF, 0x00, 0x01, 10, 11, 20, 21, 22], dataOffset := 2, dataSize := 6 }

/-- The tiles of `pairGroup`. -/
def pairTiles : List Tile := [
  { groupOffset := 2, offset := 1, size := 2, row := 0, col := 0, width := 1, height := 1 },
  { groupOffset := 2, offset := 3, size := 3, row := 0, col := 1, width := 1, height := 1 }]

theorem windows_of_parse_pairGroup :
    parse {} pairGroup.data 1 7 pairInfo = .ok pairGroup ∧
      pairGroup.tiles { maxFrameWidthMinus1 := 127, maxFrameHeightMinus1 := 63 }
        { tileInfo := pairInfo } = .ok pairTiles ∧
      Windows pairGroup pairInfo 1 7 pairTiles := by
  have hparse : parse {} pairGroup.data 1 7 pairInfo = .ok pairGroup := by decide +kernel
  have htiles : pairGroup.tiles { maxFrameWidthMinus1 := 127, maxFrameHeightMinus1 := 63 }
      { tileInfo := pairInfo } = .ok pairTiles := by decide +kernel
  have hsequence : Sequence.InRange { maxFrameWidthMinus1 := 127, maxFrameHeightMinus1 := 63 } :=
    ⟨by decide, by decide⟩
  have hinfo : Header.tileInfo { tileInfo := pairInfo } |>.InRange :=
    ⟨by decide, by decide, by decide, by decide, by decide, nofun, nofun⟩
  obtain ⟨-, hwindows⟩ := windows_of_parse {} pairGroup.data 1 7 hsequence hinfo
  exact ⟨hparse, htiles, (hwindows pairGroup hparse).2 pairTiles htiles⟩

end TileGroup

end Av1Frames
