import Mathlib.Order.Bounds.Basic
import Av1Frames.Proofs.Tile.Grid

namespace Av1Frames

open Checked

/-- Doublings that are enough are counted by the logarithm, and no fewer are. -/
theorem isLeast_clog_ceilDiv {size : Nat} (hsize : 0 < size) (target : Nat) :
    IsLeast {k | target ≤ size * 2 ^ k} (Nat.clog 2 (target ⌈/⌉ size)) :=
  ⟨(clog_ceilDiv_le_iff hsize).mp le_rfl, fun _ hk => (clog_ceilDiv_le_iff hsize).mpr hk⟩

namespace SuperblockGrid

variable {g : SuperblockGrid} {width height n : Nat}

/-- The least number of doublings for which uniform tiles are narrow enough. -/
theorem isLeast_uniform_clog (g : SuperblockGrid) :
    IsLeast {log2 | g.cols ⌈/⌉ 2 ^ log2 ≤ g.maxTileWidthSb}
      (Nat.clog 2 (g.cols ⌈/⌉ g.maxTileWidthSb)) := by
  have hset : {log2 | g.cols ⌈/⌉ 2 ^ log2 ≤ g.maxTileWidthSb} =
      {log2 | g.cols ≤ g.maxTileWidthSb * 2 ^ log2} := by
    refine Set.ext fun log2 => ?_
    change g.cols ⌈/⌉ 2 ^ log2 ≤ _ ↔ g.cols ≤ g.maxTileWidthSb * 2 ^ log2
    rw [ceilDiv_le_iff_le_mul (Nat.two_pow_pos log2), Nat.mul_comm]
  rw [hset]
  exact isLeast_clog_ceilDiv g.maxTileWidthSb_pos g.cols

theorem minLog2TileCols_eq_clog (hcols : g.cols ≤ 2 ^ 31) :
    g.minLog2TileCols = .ok (Nat.clog 2 (g.cols ⌈/⌉ g.maxTileWidthSb)) := by
  have hlimit : g.maxTileWidthSb < 2 ^ 32 := by
    rw [maxTileWidthSb_eq]
    split <;> decide
  have hpos := g.maxTileWidthSb_pos
  exact tileLog2_eq_clog hpos (mul_two_pow_clog_lt hpos hlimit hcols)

theorem maxLog2_eq_clog (n : Nat) :
    tileLog2 1 (min n maxTilesPerSide) = .ok (Nat.clog 2 (min n maxTilesPerSide)) :=
  tileLog2_one_eq ((min_le_right n maxTilesPerSide).trans (by decide))

theorem minLog2Tiles_eq_clog (hcols : g.cols ≤ 2 ^ 31) (harea : g.rows * g.cols ≤ 2 ^ 31) :
    g.minLog2Tiles = .ok (max (Nat.clog 2 (g.cols ⌈/⌉ g.maxTileWidthSb))
      (Nat.clog 2 ((g.rows * g.cols) ⌈/⌉ g.maxTileAreaSb))) := by
  have hlimit : g.maxTileAreaSb < 2 ^ 32 := by
    rw [maxTileAreaSb_eq]
    split <;> decide
  have hpos := g.maxTileAreaSb_pos
  exact minLog2Tiles_eq_ok_iff.mpr ⟨_, _, _, minLog2TileCols_eq_clog hcols,
    area_eq_ok_iff.mpr ⟨by omega, rfl⟩,
    tileLog2_eq_clog hpos (mul_two_pow_clog_lt hpos hlimit harea), rfl⟩

/-- On each side a sixteenth of the superblocks can be told apart by tiles. -/
theorem le_mul_two_pow_clog (hn : n ≤ 1024) :
    n ≤ 16 * 2 ^ Nat.clog 2 (min n maxTilesPerSide) := by
  have hside : maxTilesPerSide = 64 := rfl
  have hpow : min n maxTilesPerSide ≤ 2 ^ Nat.clog 2 (min n maxTilesPerSide) :=
    Nat.le_pow_clog Nat.one_lt_two _
  omega

/-- What is known of the limits of a grid. -/
structure HasLimits (g : SuperblockGrid) (leastCols mostCols mostRows leastTiles : Nat) : Prop where
  leastCols_eq : g.minLog2TileCols = .ok leastCols
  mostCols_eq : g.maxLog2TileCols = .ok mostCols
  mostRows_eq : g.maxLog2TileRows = .ok mostRows
  leastTiles_eq : g.minLog2Tiles = .ok leastTiles
  leastCols_isLeast : IsLeast {log2 | g.cols ⌈/⌉ 2 ^ log2 ≤ g.maxTileWidthSb} leastCols
  leastCols_le : leastCols ≤ mostCols
  leastTiles_le : leastTiles ≤ mostCols + mostRows

theorem hasLimits_of_le (hcols : g.cols ≤ 1024) (hrows : g.rows ≤ 1024) :
    g.HasLimits (Nat.clog 2 (g.cols ⌈/⌉ g.maxTileWidthSb))
      (Nat.clog 2 (min g.cols maxTilesPerSide)) (Nat.clog 2 (min g.rows maxTilesPerSide))
      (max (Nat.clog 2 (g.cols ⌈/⌉ g.maxTileWidthSb))
        (Nat.clog 2 ((g.rows * g.cols) ⌈/⌉ g.maxTileAreaSb))) := by
  have harea : g.rows * g.cols ≤ 1024 * 1024 := Nat.mul_le_mul hrows hcols
  have hwidth : 32 ≤ g.maxTileWidthSb := by
    rw [maxTileWidthSb_eq]
    split <;> decide
  have hleast : Nat.clog 2 (g.cols ⌈/⌉ g.maxTileWidthSb) ≤
      Nat.clog 2 (min g.cols maxTilesPerSide) := by
    refine Nat.clog_mono_right 2 (le_min g.leastCols_le ?_)
    rw [ceilDiv_le_iff_le_mul g.maxTileWidthSb_pos]
    -- As many columns as there may be are wide enough for twice the greatest frame.
    calc g.cols ≤ 32 * maxTilesPerSide := hcols.trans (by decide)
      _ ≤ g.maxTileWidthSb * maxTilesPerSide := Nat.mul_le_mul_right _ hwidth
  refine ⟨minLog2TileCols_eq_clog (by omega), maxLog2_eq_clog g.cols, maxLog2_eq_clog g.rows,
    minLog2Tiles_eq_clog (by omega) (by omega), g.isLeast_uniform_clog, hleast,
    max_le (hleast.trans (Nat.le_add_right _ _)) ?_⟩
  have hlimit : 16 * 16 ≤ g.maxTileAreaSb := by
    rw [maxTileAreaSb_eq]
    split <;> decide
  rw [clog_ceilDiv_le_iff (by omega)]
  -- With as many tiles as there may be, none is above 16 superblocks on a side, and so many it may
  -- have.
  calc g.rows * g.cols
      ≤ (16 * 2 ^ Nat.clog 2 (min g.rows maxTilesPerSide)) *
          (16 * 2 ^ Nat.clog 2 (min g.cols maxTilesPerSide)) :=
        Nat.mul_le_mul (le_mul_two_pow_clog hrows) (le_mul_two_pow_clog hcols)
    _ = 16 * 16 * 2 ^ (Nat.clog 2 (min g.cols maxTilesPerSide) +
          Nat.clog 2 (min g.rows maxTilesPerSide)) := by ring
    _ ≤ g.maxTileAreaSb * _ := Nat.mul_le_mul_right _ hlimit

/-- The search for a logarithm ends with the least one that is enough: it tries those up to it and
    no others, and neither shifts too far nor loses a bit. So the limits on the tiles of a frame of
    up to 65536 samples on each side exist: the least number of columns is the first one for which
    uniform tiles are narrow enough, there may be as many, and as many tiles as the frame needs. -/
theorem limits_consistent :
    (∀ size target : Nat, 1 ≤ size → size < 2 ^ 32 → target ≤ 2 ^ 31 →
      ∃ k, tileLog2 size target = .ok k ∧ IsLeast {k | target ≤ size * 2 ^ k} k ∧
        ∀ j, (DoublingRun size target j ↔ j ≤ k) ∧
          (j ≤ k → shiftLeft size j = .ok (size * 2 ^ j))) ∧
    ∀ (width height : Nat) (large : Bool), width ≤ 65536 → height ≤ 65536 →
      ∃ g leastCols mostCols mostRows leastTiles, ofSize width height large = .ok g ∧
        g.HasLimits leastCols mostCols mostRows leastTiles ∧
        ∀ log2 < 32, uniformTileSize g.cols log2 = .ok (g.cols ⌈/⌉ 2 ^ log2) := by
  constructor
  · intro size target hpos hsize htarget
    have hlossless := mul_two_pow_clog_lt hpos hsize htarget
    exact ⟨_, tileLog2_eq_clog hpos hlossless, isLeast_clog_ceilDiv hpos target, fun _ =>
      ⟨DoublingRun.iff_le_clog hpos hlossless, DoublingRun.shiftLeft_eq_ok hpos hlossless⟩⟩
  · intro width height large hwidth hheight
    obtain ⟨hcols, hrows⟩ := covering_le (n := 1024) large hwidth hheight
    refine ⟨covering width height large, _, _, _, _,
      ofSize_eq_ok_iff_covering.mpr ⟨by omega, rfl⟩, hasLimits_of_le hcols hrows, ?_⟩
    intro log2 hlog2
    have hpow : 2 ^ log2 ≤ 2 ^ 31 := Nat.pow_le_pow_right (by decide) (Nat.le_of_lt_succ hlog2)
    exact uniformTileSize_eq_ok_iff.mpr
      ⟨hlog2, by omega, divideUp_of_pos (Nat.two_pow_pos log2)⟩

/-- The target of the highest bit is reached in 30 doublings of 3, and the greatest frames need 16
    columns and 512 tiles at least. -/
theorem limits_consistent_greatest :
    (tileLog2 3 (2 ^ 31) = .ok 30 ∧ 2 ^ 31 ≤ 3 * 2 ^ 30 ∧ ¬DoublingRun 3 (2 ^ 31) 31) ∧
      ∃ g, ofSize 65536 65536 true = .ok g ∧ g.HasLimits 4 6 6 9 ∧
        uniformTileSize g.cols 4 = .ok g.maxTileWidthSb := by
  constructor
  · obtain ⟨k, hk, hleast, hrun⟩ :=
      limits_consistent.1 3 (2 ^ 31) (by decide) (by decide) le_rfl
    have hlog : tileLog2 3 (2 ^ 31) = .ok 30 := by decide +kernel
    obtain rfl : k = 30 := Except.ok.inj (hk.symm.trans hlog)
    exact ⟨hlog, hleast.1, fun h => absurd ((hrun 31).1.mp h) (by decide)⟩
  · obtain ⟨g, leastCols, mostCols, mostRows, leastTiles, hg, hlimits, huniform⟩ :=
      limits_consistent.2 65536 65536 true le_rfl le_rfl
    have hgrid : ofSize 65536 65536 true = .ok ⟨512, 512, true⟩ := by decide +kernel
    obtain rfl : g = ⟨512, 512, true⟩ := Except.ok.inj (hg.symm.trans hgrid)
    obtain rfl : leastCols = 4 :=
      Except.ok.inj (hlimits.leastCols_eq.symm.trans (by decide +kernel))
    obtain rfl : mostCols = 6 :=
      Except.ok.inj (hlimits.mostCols_eq.symm.trans (by decide +kernel))
    obtain rfl : mostRows = 6 :=
      Except.ok.inj (hlimits.mostRows_eq.symm.trans (by decide +kernel))
    obtain rfl : leastTiles = 9 :=
      Except.ok.inj (hlimits.leastTiles_eq.symm.trans (by decide +kernel))
    exact ⟨_, hgrid, hlimits, huniform 4 (by decide)⟩

end SuperblockGrid

end Av1Frames
