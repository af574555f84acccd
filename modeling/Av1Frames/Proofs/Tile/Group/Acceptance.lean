import Av1Frames.Proofs.Checked.Acceptance
import Av1Frames.Proofs.Tile.Group.Syntax

namespace Av1Frames

open Checked

/-- There are tiles, and their numbers and sizes have the bits that they need. -/
structure TileInfo.Numbered (t : TileInfo) : Prop where
  one_le_cols : 1 ≤ t.cols
  cols_le : t.cols ≤ 2 ^ t.colsLog2
  colsLog2_le : 2 ^ t.colsLog2 ≤ 64
  one_le_rows : 1 ≤ t.rows
  rows_le : t.rows ≤ 2 ^ t.rowsLog2
  rowsLog2_le : 2 ^ t.rowsLog2 ≤ 64
  sizeBytes_le : t.tileSizeBytesMinus1 ≤ 3

namespace TileInfo.Numbered

variable {t : TileInfo}

theorem one_le_count (ht : t.Numbered) : 1 ≤ t.cols * t.rows :=
  Nat.mul_pos ht.one_le_cols ht.one_le_rows

theorem tileCount (ht : t.Numbered) : t.tileCount = .ok (t.cols * t.rows) := by
  apply tileCount_of_le
  · exact ht.cols_le.trans ht.colsLog2_le
  · exact ht.rows_le.trans ht.rowsLog2_le

theorem log2_le (ht : t.Numbered) : t.colsLog2 ≤ 6 ∧ t.rowsLog2 ≤ 6 :=
  ⟨(Nat.pow_le_pow_iff_right (by decide)).mp ht.colsLog2_le,
    (Nat.pow_le_pow_iff_right (by decide)).mp ht.rowsLog2_le⟩

theorem tileNumberBits (ht : t.Numbered) : t.tileNumberBits = .ok (t.colsLog2 + t.rowsLog2) :=
  tileNumberBits_of_le ht.log2_le.1 ht.log2_le.2

end TileInfo.Numbered

namespace CodedTileGroup

open TileGroup

variable {g : CodedTileGroup} {t : TileInfo}

/-- The range of a group ends below the greatest number of 32 bits, and its payloads have less than
    `2 ^ 31` bytes. -/
structure InRange (g : CodedTileGroup) : Prop where
  last_lt : g.last < 0xFFFFFFFF
  total_lt : (g.tiles.map List.length).sum < 2 ^ 31

/-- A payload in front of others has a size that its field can tell. -/
def Sized (n : Nat) (tile : Bytes) : Prop := tile ≠ [] ∧ tile.length ≤ 256 ^ n

/-- A group has all tiles of the frame, unless its range is given. -/
def Whole (g : CodedTileGroup) (t : TileInfo) : Prop :=
  t.cols * t.rows = 1 ∨ g.startAndEndPresent = false →
    g.first = 0 ∧ g.last + 1 = t.cols * t.rows

/-- A group has one payload for each tile of its range, which is not empty. -/
structure Complete (g : CodedTileGroup) : Prop where
  first_le : g.first ≤ g.last
  length_tiles : g.tiles.length = g.last - g.first + 1

/-- All that is required of a group. -/
structure Acceptable (g : CodedTileGroup) (t : TileInfo) : Prop extends g.Complete where
  obuType : g.obuHeader.obuType = .tileGroup
  whole : g.Whole t
  sized : ∀ tile ∈ g.tiles.dropLast, Sized t.sizeFieldBytes tile

/-- How many bytes the header of a group takes. -/
def headerLength (g : CodedTileGroup) (t : TileInfo) : Nat :=
  if t.cols * t.rows = 1 then 0
  else if g.startAndEndPresent then (1 + 2 * (t.colsLog2 + t.rowsLog2) + 7) / 8
  else 1

/-- How many bytes payloads take with their size fields, of which the last one has none. -/
def tilesLength (n : Nat) (tiles : List Bytes) : Nat :=
  n * (tiles.length - 1) + (tiles.map List.length).sum

/-- How many bytes the payload of the unit has. -/
def payloadLength (g : CodedTileGroup) (t : TileInfo) : Nat :=
  g.headerLength t + tilesLength t.sizeFieldBytes g.tiles

theorem accepts_rangeBits (ht : t.Numbered) (hlast : g.last < 0xFFFFFFFF) :
    (g.rangeBits t (t.cols * t.rows)).Accepts (g.Whole t)
      fun bits => (Bits.toBytes bits).length = g.headerLength t := by
  have hcount := ht.one_le_count
  simp only [rangeBits, Encoding.invalid_eq_fail]
  split
  · rename_i hwhole
    simp only [Bool.or_eq_true, decide_eq_true_eq, Bool.not_eq_true'] at hwhole
    have hall : unsigned (g.last + 1 : Int) = .ok (g.last + 1) :=
      unsigned_eq_ok_iff.mpr (by omega)
    apply Outcome.Accepts.of_iff (P := ¬ g.first ≠ 0 ∧ ¬ g.last + 1 ≠ t.cols * t.rows ∧ True)
    · apply Outcome.Accepts.guard
      intro _
      apply Outcome.Accepts.lift_bind hall
      apply Outcome.Accepts.guard
      intro _
      apply Outcome.Accepts.ok trivial
      rw [Bits.length_toBytes, headerLength]
      by_cases hone : t.cols * t.rows = 1
      · simp [hone]
      · have hpresent := hwhole.resolve_left hone
        have hmany : 1 < t.cols * t.rows := by omega
        simp [hone, hmany, hpresent]
    · rw [Whole, imp_iff_right hwhole]
      simp only [not_not, and_true]
  · rename_i hgiven
    simp only [Bool.or_eq_true, decide_eq_true_eq, Bool.not_eq_true', not_or,
      Bool.not_eq_false] at hgiven
    have hmany : 1 < t.cols * t.rows := by omega
    have hlog2 := ht.log2_le
    have hword (value : Nat) : Descriptor.fixed (t.colsLog2 + t.rowsLog2) value =
        .ok (Bits.ofNat (t.colsLog2 + t.rowsLog2) value) :=
      Descriptor.fixed_eq_ok_iff.mpr ⟨by omega, rfl⟩
    apply Outcome.Accepts.lift_bind ht.tileNumberBits
    rw [hword, hword]
    apply Outcome.Accepts.ok
    · intro hwhole
      exact absurd hwhole (not_or.mpr ⟨hgiven.1, by simp [hgiven.2]⟩)
    · rw [Bits.length_toBytes, headerLength, if_neg hgiven.1, if_pos hgiven.2, if_pos hmany]
      simp only [List.length_append, List.length_singleton, Bits.length_ofNat]
      congr 1
      omega

theorem accepts_requireComplete (hlast : g.last < 0xFFFFFFFF) :
    g.requireComplete.Accepts g.Complete fun _ => True := by
  simp only [requireComplete, Encoding.invalid_eq_fail]
  apply Outcome.Accepts.of_iff
    (P := ¬ g.last < g.first ∧ ¬ g.tiles.length ≠ g.last - g.first + 1)
  · apply Outcome.Accepts.guard
    intro hrange
    have hcount : unsigned (g.last - g.first + 1 : Int) = .ok (g.last - g.first + 1) :=
      unsigned_eq_ok_iff.mpr (by omega)
    apply Outcome.Accepts.lift_bind hcount
    split
    · rename_i hlength
      exact .fail fun h => h hlength
    · rename_i hlength
      exact .ok hlength trivial
  · constructor
    · rintro ⟨hfirst, hlength⟩
      exact ⟨not_lt.mp hfirst, not_not.mp hlength⟩
    · rintro ⟨hfirst, hlength⟩
      exact ⟨not_lt.mpr hfirst, not_not.mpr hlength⟩

theorem not_sized_iff {n : Nat} {tile : Bytes} :
    (tile.isEmpty || decide (1 <<< (8 * n) < tile.length)) = true ↔ ¬ Sized n tile := by
  simp only [Bool.or_eq_true, List.isEmpty_iff, decide_eq_true_eq, Nat.one_shiftLeft, Nat.pow_mul,
    Sized, not_and_or, not_not, not_le]

theorem accepts_tilesBytes {n : Nat} {tiles : List Bytes}
    (htotal : (tiles.map List.length).sum < 2 ^ 31) :
    (tilesBytes n tiles).Accepts (∀ tile ∈ tiles.dropLast, Sized n tile)
      fun bytes => bytes.length = tilesLength n tiles := by
  induction tiles with
  | nil => exact .ok nofun rfl
  | cons tile rest ih =>
    cases rest with
    | nil =>
      -- The last payload has no size field and may be of any size.
      exact .ok nofun (by simp [tilesLength])
    | cons next rest =>
      rw [List.map_cons, List.sum_cons] at htotal
      have hminus1 : Encoding.length32 (tile.length - 1) = .ok (tile.length - 1) :=
        Encoding.length32_eq_ok_iff.mpr ⟨by omega, rfl⟩
      rw [List.dropLast_cons_cons, List.forall_mem_cons, ← not_not (a := Sized n tile),
        ← not_sized_iff, tilesBytes, Encoding.invalid_eq_fail]
      apply Outcome.Accepts.guard
      intro _
      rw [hminus1, ok_bind]
      apply (ih (by omega)).map
      intro more hmore
      simp only [List.length_append, Descriptor.length_littleEndianBytes, hmore, tilesLength,
        List.length_cons, List.map_cons, List.sum_cons, Nat.add_sub_cancel, Nat.mul_succ]
      omega

theorem accepts_payload (ht : t.Numbered) (hg : g.InRange) :
    (g.payload t).Accepts
      (g.Whole t ∧ g.Complete ∧ ∀ tile ∈ g.tiles.dropLast, Sized t.sizeFieldBytes tile)
      fun payload => payload.length = g.payloadLength t := by
  have hsizeBytes : ¬ 8 ≤ t.sizeFieldBytes := by
    have := ht.sizeBytes_le
    rw [TileInfo.sizeFieldBytes]
    omega
  apply Outcome.Accepts.lift_bind ht.tileCount
  apply (accepts_rangeBits ht hg.last_lt).bind
  intro bits hbits
  apply (accepts_requireComplete hg.last_lt).bind
  intro _ _
  rw [if_neg hsizeBytes]
  apply (accepts_tilesBytes hg.total_lt).map
  intro tiles htiles
  rw [List.length_append, hbits, htiles]
  rfl

theorem accepts_length32 (n : Nat) :
    (Encoding.length32 n).Accepts (n < 2 ^ 32) fun m => m = n := by
  rw [Encoding.length32]
  split
  · rename_i hfits
    exact .ok hfits rfl
  · rename_i hlong
    exact .error hlong _

theorem accepts_bytes (ht : t.Numbered) (hg : g.InRange) :
    (g.bytes t).Accepts
      (g.Acceptable t ∧ (g.obuHeader.hasSizeField = true → g.payloadLength t < 2 ^ 32))
      fun _ => True := by
  apply Outcome.Accepts.of_iff (P := ¬ g.obuHeader.obuType ≠ .tileGroup ∧
    (g.Whole t ∧ g.Complete ∧ ∀ tile ∈ g.tiles.dropLast, Sized t.sizeFieldBytes tile) ∧
    (g.obuHeader.hasSizeField = true → g.payloadLength t < 2 ^ 32))
  · rw [CodedTileGroup.bytes, Encoding.invalid_eq_fail]
    apply Outcome.Accepts.guard
    intro _
    apply (accepts_payload ht hg).bind
    intro payload hpayload
    dsimp only
    split
    · rename_i hsized
      rw [hpayload, imp_iff_right hsized]
      simp only [pure_bind]
      exact (accepts_length32 _).map fun _ _ => trivial
    · rename_i hunsized
      exact .ok (fun h => absurd h hunsized) trivial
  · constructor
    · rintro ⟨htype, ⟨hwhole, hcomplete, hsized⟩, hfits⟩
      exact ⟨⟨hcomplete, not_not.mp htype, hwhole, hsized⟩, hfits⟩
    · rintro ⟨⟨hcomplete, htype, hwhole, hsized⟩, hfits⟩
      exact ⟨not_not.mpr htype, ⟨hwhole, hcomplete, hsized⟩, hfits⟩

/-- Groups within the frame are short enough for the length of their unit. -/
theorem payloadLength_lt (ht : t.Numbered) (hg : g.InRange) (hcomplete : g.Complete)
    (hlast : g.last < t.cols * t.rows) : g.payloadLength t < 2 ^ 32 := by
  have htotal := hg.total_lt
  have hsizeBytes := ht.sizeBytes_le
  have hlog2 := ht.log2_le
  have hheader : g.headerLength t ≤ 4 := by
    rw [headerLength]
    split
    · omega
    · split <;> omega
  have hcount : t.cols * t.rows ≤ 64 * 64 :=
    Nat.mul_le_mul (ht.cols_le.trans ht.colsLog2_le) (ht.rows_le.trans ht.rowsLog2_le)
  have htiles : g.tiles.length - 1 ≤ 64 * 64 := by
    have hlength := hcomplete.length_tiles
    omega
  have hfields : t.sizeFieldBytes * (g.tiles.length - 1) ≤ 4 * (64 * 64) :=
    Nat.mul_le_mul (by rw [TileInfo.sizeFieldBytes]; omega) htiles
  rw [payloadLength, tilesLength]
  omega

/-- A group is written if it is acceptable and, where the length of the unit is given, that length
    fits its field; all others end with an error. Among the groups within the frame, the acceptable
    ones are those that are written. -/
theorem exists_bytes_iff (ht : t.Numbered) (hg : g.InRange) :
    (g.bytes t).Faultless ∧
    ((∃ bytes, g.bytes t = .ok bytes) ↔
      g.Acceptable t ∧ (g.obuHeader.hasSizeField = true → g.payloadLength t < 2 ^ 32)) ∧
    (g.last < t.cols * t.rows → ((∃ bytes, g.bytes t = .ok bytes) ↔ g.Acceptable t)) := by
  have haccepts := accepts_bytes ht hg
  refine ⟨haccepts.faultless, haccepts.exists_ok_iff, ?_⟩
  intro hlast
  rw [haccepts.exists_ok_iff, and_iff_left_iff_imp]
  intro hacceptable _
  exact payloadLength_lt ht hg hacceptable.toComplete hlast

theorem numbered_pairInfo : pairInfo.Numbered :=
  ⟨by decide, by decide, by decide, by decide, by decide, by decide, by decide⟩

theorem exists_bytes_pair : pair.last < pairInfo.cols * pairInfo.rows ∧
    (∃ bytes, pair.bytes pairInfo = .ok bytes) ∧ pair.Acceptable pairInfo := by
  have hlast : pair.last < pairInfo.cols * pairInfo.rows := by decide
  have hrange : pair.InRange := ⟨by decide, by decide⟩
  have hacceptable : pair.Acceptable pairInfo := by
    refine ⟨⟨by decide, by decide⟩, rfl, fun _ => ⟨rfl, rfl⟩, ?_⟩
    simp [pair, pairInfo, Sized, TileInfo.sizeFieldBytes]
  obtain ⟨-, -, hwithin⟩ := exists_bytes_iff numbered_pairInfo hrange
  exact ⟨hlast, (hwithin hlast).mpr hacceptable, hacceptable⟩

/-- A group of the third and the fourth tile is written for a frame that has two. -/
theorem not_exists_bytes_iff_lt :
    ¬ ∀ (g : CodedTileGroup) (t : TileInfo), t.Numbered → g.InRange →
      ((∃ bytes, g.bytes t = .ok bytes) ↔ g.Acceptable t ∧ g.last < t.cols * t.rows) := by
  intro h
  let beyond : CodedTileGroup :=
    { obuHeader := .sized .tileGroup, startAndEndPresent := true, first := 2, last := 3,
      tiles := [[10], [11]] }
  have hbytes : beyond.bytes pairInfo = .ok [0x22, 4, 0xA0, 0, 10, 11] := by
    decide +kernel
  obtain ⟨-, hlast⟩ := (h beyond pairInfo numbered_pairInfo ⟨by decide, by decide⟩).mp ⟨_, hbytes⟩
  exact absurd hlast (by decide)

end CodedTileGroup

end Av1Frames
