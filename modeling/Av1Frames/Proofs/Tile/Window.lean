import Av1Frames.Proofs.Descriptor.Fixed
import Av1Frames.Proofs.Tile.Sizes

namespace Av1Frames

/-- Where the payload of a tile starts in the buffer. -/
def Tile.start (t : Tile) : Nat := t.groupOffset + t.offset

/-- Where the payload of a tile ends in the buffer. -/
def Tile.stop (t : Tile) : Nat := t.start + t.size

/-- Tiles that cover the bytes of a buffer from `pos` to `stop`. All but the last one follow a field
    of `fieldBytes` bytes and are not empty. -/
inductive Laid (fieldBytes stop : Nat) : (pos : Nat) → List Tile → Prop
  | last {pos : Nat} {tile : Tile} (hstart : tile.start = pos) (hstop : tile.stop = stop) :
      Laid fieldBytes stop pos [tile]
  | sized {pos : Nat} {tile : Tile} {rest : List Tile} (hstart : tile.start = pos + fieldBytes)
      (hsize : 0 < tile.size) (hrest : Laid fieldBytes stop tile.stop rest) :
      Laid fieldBytes stop pos (tile :: rest)

namespace Laid

variable {fieldBytes stop pos : Nat} {tiles : List Tile}

theorem ne_nil (h : Laid fieldBytes stop pos tiles) : tiles ≠ [] := by
  cases h <;> simp

theorem pos_le (h : Laid fieldBytes stop pos tiles) : pos ≤ stop := by
  induction h with
  | last hstart hstop =>
    rw [Tile.stop] at hstop
    omega
  | sized hstart _ _ ih =>
    rw [Tile.stop] at ih
    omega

/-- Every tile lies in the bytes that the tiles cover. -/
theorem inside (h : Laid fieldBytes stop pos tiles) {tile : Tile} (hmem : tile ∈ tiles) :
    pos ≤ tile.start ∧ tile.stop ≤ stop := by
  induction h with
  | last hstart hstop =>
    obtain rfl := List.mem_singleton.mp hmem
    exact ⟨hstart.ge, hstop.le⟩
  | @sized pos head rest hstart hsize hrest ih =>
    have hstop : head.stop = head.start + head.size := rfl
    rcases List.mem_cons.mp hmem with rfl | hmem
    · exact ⟨by omega, hrest.pos_le⟩
    · obtain ⟨hlow, hhigh⟩ := ih hmem
      exact ⟨by omega, hhigh⟩

theorem ordered (h : Laid fieldBytes stop pos tiles) :
    tiles.Pairwise fun a b => a.stop ≤ b.start := by
  induction h with
  | last => exact List.pairwise_singleton _ _
  | sized _ _ hrest ih =>
    exact List.pairwise_cons.mpr ⟨fun tile hmem => (hrest.inside hmem).1, ih⟩

theorem nonempty (h : Laid fieldBytes stop pos tiles) {tile : Tile} (hmem : tile ∈ tiles.dropLast) :
    0 < tile.size := by
  induction h with
  | last => exact absurd hmem (List.not_mem_nil)
  | sized _ hsize hrest ih =>
    rw [List.dropLast_cons_of_ne_nil hrest.ne_nil] at hmem
    rcases List.mem_cons.mp hmem with rfl | hmem
    · exact hsize
    · exact ih hmem

/-- Each tile but the last one starts one field behind the end of the tile before it, and the last
    one right there. -/
theorem gap (h : Laid fieldBytes stop pos tiles) {j : Nat} (hj : j < tiles.length) :
    tiles[j].start = (pos :: tiles.map Tile.stop).get ⟨j, by simp; omega⟩ +
      if j + 1 < tiles.length then fieldBytes else 0 := by
  induction h generalizing j with
  | last hstart =>
    obtain rfl : j = 0 := by simpa using hj
    exact hstart
  | @sized pos head rest hstart hsize hrest ih =>
    cases j with
    | zero =>
      have hpos : 0 < rest.length := List.length_pos_of_ne_nil hrest.ne_nil
      rw [if_pos (by simpa using hpos)]
      exact hstart
    | succ j => simpa using ih (by simpa using hj)

/-- There is room for a size field in front of every tile but the last one. -/
theorem field_le (h : Laid fieldBytes stop pos tiles) {j : Nat} (hj : j + 1 < tiles.length) :
    pos + fieldBytes ≤ tiles[j].start := by
  induction h generalizing j with
  | last => simp at hj
  | @sized pos head rest hstart hsize hrest ih =>
    cases j with
    | zero => exact hstart.ge
    | succ j =>
      have htail := ih (j := j) (by simpa using hj)
      have hstop : head.stop = head.start + head.size := rfl
      rw [List.getElem_cons_succ]
      omega

/-- The bytes of a size field belong to no tile: tiles in front of it end before it, and the others
    start behind it. -/
theorem unclaimed (h : Laid fieldBytes stop pos tiles) {j b : Nat} (hj : j + 1 < tiles.length)
    (hlow : tiles[j].start ≤ b + fieldBytes) (hhigh : b < tiles[j].start) {tile : Tile}
    (hmem : tile ∈ tiles) : ¬ (tile.start ≤ b ∧ b < tile.stop) := by
  induction h generalizing j with
  | last => simp at hj
  | @sized pos head rest hstart hsize hrest ih =>
    have hstop : head.stop = head.start + head.size := rfl
    cases j with
    | zero =>
      rw [List.getElem_cons_zero] at hlow hhigh
      rcases List.mem_cons.mp hmem with rfl | hmem
      · omega
      · have hbehind := (hrest.inside hmem).1
        omega
    | succ j =>
      rw [List.getElem_cons_succ] at hlow hhigh
      have hrestj : j + 1 < rest.length := by simpa using hj
      rcases List.mem_cons.mp hmem with rfl | hmem
      · have hfield := hrest.field_le hrestj
        omega
      · exact ih hrestj hlow hhigh hmem

theorem getLast_stop (h : Laid fieldBytes stop pos tiles) :
    tiles.getLast?.map Tile.stop = some stop := by
  induction h with
  | last _ hstop => simp [hstop]
  | sized _ _ hrest ih =>
    rw [List.getLast?_cons_of_ne_nil hrest.ne_nil]
    exact ih

/-- The payloads and the size fields add up to the bytes that the tiles cover. -/
theorem sum_size (h : Laid fieldBytes stop pos tiles) :
    pos + ((tiles.map Tile.size).sum + (tiles.length - 1) * fieldBytes) = stop := by
  induction h with
  | last hstart hstop =>
    rw [Tile.stop] at hstop
    simp
    omega
  | @sized pos head rest hstart hsize hrest ih =>
    have hstop : head.stop = head.start + head.size := rfl
    obtain ⟨n, hn⟩ : ∃ n, rest.length = n + 1 :=
      ⟨rest.length - 1, by have := List.length_pos_of_ne_nil hrest.ne_nil; omega⟩
    simp only [List.map_cons, List.sum_cons, List.length_cons, hn, Nat.add_sub_cancel] at ih ⊢
    rw [Nat.add_mul]
    omega

end Laid

theorem readSizeField_eq_ok_iff {data : Bytes} {n value : Nat} :
    readSizeField data n = .ok value ↔ (1 ≤ n ∧ n ≤ 8 ∧ n ≤ data.length) ∧
      Descriptor.ofLittleEndianBytes (data.take n) = value := by
  unfold readSizeField
  split <;> simp_all

namespace TileGroup

variable {g : TileGroup} {sizes : TileSizes} {data : Bytes} {sizeBytes number pos : Nat}

/-- The last tile takes what is left. Any other one follows its size field and ends in the group. -/
theorem locate_eq_ok_iff {start size : Nat} :
    g.locate sizeBytes data number pos = .ok (start, size) ↔
      (number = g.last ∧ pos ≤ data.length ∧ start = pos ∧ size = data.length - pos) ∨
      (number ≠ g.last ∧ readSizeField (data.drop pos) sizeBytes = .ok (size - 1) ∧
        start = pos + sizeBytes ∧ 0 < size ∧ start + size ≤ data.length) := by
  unfold locate
  rw [bind_eq_ok_iff]
  simp only [liftM_eq_ok_iff, Checked.difference_eq_ok_iff]
  by_cases hlast : number = g.last
  · simp only [hlast, ne_eq, not_true_eq_false, false_and, or_false, true_and]
    constructor
    · rintro ⟨left, ⟨hpos, rfl⟩, h⟩
      obtain ⟨rfl, rfl⟩ := Prod.mk.inj (Except.ok.inj h)
      exact ⟨hpos, rfl, rfl⟩
    · rintro ⟨hpos, rfl, rfl⟩
      exact ⟨_, ⟨hpos, rfl⟩, rfl⟩
  · simp only [hlast, false_and, false_or, ne_eq, not_false_eq_true, true_and]
    constructor
    · rintro ⟨left, ⟨-, rfl⟩, h⟩
      rw [if_neg not_false] at h
      split at h
      · exact absurd h fail_ne_ok
      rw [bind_eq_ok_iff] at h
      obtain ⟨minus1, hfield, h⟩ := h
      rw [bind_eq_ok_iff] at h
      obtain ⟨left, hleft, h⟩ := h
      rw [liftM_eq_ok_iff] at hfield hleft
      obtain ⟨hstart, rfl⟩ := Checked.difference_eq_ok_iff.mp hleft
      split at h
      · rw [bind_eq_ok_iff] at h
        obtain ⟨_, _, h⟩ := h
        exact absurd h fail_ne_ok
      · obtain ⟨rfl, rfl⟩ := Prod.mk.inj (Except.ok.inj h)
        exact ⟨hfield, rfl, Nat.succ_pos minus1, by omega⟩
    · rintro ⟨hfield, rfl, hsize, hstop⟩
      refine ⟨_, ⟨by omega, rfl⟩, ?_⟩
      rw [if_neg not_false, if_neg (by omega), bind_eq_ok_iff]
      refine ⟨size - 1, liftM_eq_ok_iff.mpr hfield, ?_⟩
      rw [bind_eq_ok_iff]
      refine ⟨_, liftM_eq_ok_iff.mpr (Checked.difference_of_le (by omega)), ?_⟩
      rw [if_neg (by omega), Nat.sub_add_cancel hsize]
      rfl

/-- A tile that is found ends within the data. -/
theorem le_of_locate {start size : Nat}
    (h : g.locate sizeBytes data number pos = .ok (start, size)) : start + size ≤ data.length := by
  obtain ⟨-, hpos, rfl, rfl⟩ | ⟨-, -, -, -, hstop⟩ := locate_eq_ok_iff.mp h
  · omega
  · exact hstop

theorem locate_faultless (hlow : 1 ≤ sizeBytes) (hhigh : sizeBytes ≤ 4)
    (hpos : pos ≤ data.length) : (g.locate sizeBytes data number pos).Faultless := by
  unfold locate
  refine .lift_bind (Checked.difference_of_le hpos) ?_
  split
  · exact .ok
  split
  · exact .fail
  · rename_i hleft
    have hfield : readSizeField (data.drop pos) sizeBytes =
        .ok (Descriptor.ofLittleEndianBytes ((data.drop pos).take sizeBytes)) := by
      rw [readSizeField_eq_ok_iff, List.length_drop]
      exact ⟨by omega, rfl⟩
    refine .lift_bind hfield ?_
    refine .lift_bind (Checked.difference_of_le (by omega)) ?_
    have hvalue := Descriptor.ofLittleEndianBytes_lt ((data.drop pos).take sizeBytes)
    have hpow : 256 ^ ((data.drop pos).take sizeBytes).length ≤ 256 ^ 4 :=
      Nat.pow_le_pow_right (by omega) ((List.length_take_le _ _).trans hhigh)
    split
    · exact .lift_bind (Checked.size_eq_ok_iff.mpr ⟨by omega, rfl⟩) .fail
    · exact .ok

/-- The tiles from a number on are the one with the number, and those behind it. -/
theorem tilesFrom_succ_eq_ok_iff {n : Nat} {tiles : List Tile} :
    g.tilesFrom sizes data (n + 1) number pos = .ok tiles ↔ ∃ tile rest, tiles = tile :: rest ∧
      g.locate sizes.tileInfo.sizeFieldBytes data number pos = .ok (tile.offset, tile.size) ∧
      tile.groupOffset = g.dataOffset ∧ tile.row = number / sizes.tileInfo.cols ∧
      tile.col = number % sizes.tileInfo.cols ∧
      sizes.sizeAt tile.row tile.col = .ok (tile.width, tile.height) ∧
      g.tilesFrom sizes data n (number + 1) (tile.offset + tile.size) = .ok rest := by
  rw [tilesFrom, bind_eq_ok_iff]
  constructor
  · rintro ⟨⟨offset, size⟩, hlocate, h⟩
    rw [bind_eq_ok_iff] at h
    obtain ⟨⟨width, height⟩, hsize, h⟩ := h
    rw [bind_eq_ok_iff] at h
    obtain ⟨rest, hrest, h⟩ := h
    exact ⟨_, rest, (Except.ok.inj h).symm, hlocate, rfl, rfl, rfl, liftM_eq_ok_iff.mp hsize, hrest⟩
  · rintro ⟨tile, rest, rfl, hlocate, hgroup, hrow, hcol, hsize, hrest⟩
    refine ⟨(tile.offset, tile.size), hlocate, ?_⟩
    rw [bind_eq_ok_iff]
    refine ⟨(tile.width, tile.height), liftM_eq_ok_iff.mpr (hrow ▸ hcol ▸ hsize), ?_⟩
    rw [bind_eq_ok_iff]
    refine ⟨rest, hrest, ?_⟩
    rw [← hgroup, ← hrow, ← hcol]
    rfl

/-- The tiles up to the last one of the group lie one behind the other up to the end of its data. -/
theorem laid_of_tilesFrom {n : Nat} {tiles : List Tile} (hpos : pos ≤ data.length)
    (hlast : number + n = g.last) (h : g.tilesFrom sizes data (n + 1) number pos = .ok tiles) :
    Laid sizes.tileInfo.sizeFieldBytes (g.dataOffset + data.length) (g.dataOffset + pos) tiles := by
  induction n generalizing number pos tiles with
  | zero =>
    rw [tilesFrom_succ_eq_ok_iff] at h
    obtain ⟨tile, rest, rfl, hlocate, hgroup, -, -, -, hrest⟩ := h
    obtain rfl := Except.ok.inj hrest
    rw [locate_eq_ok_iff] at hlocate
    obtain ⟨-, -, hoffset, hsize⟩ | ⟨hne, -⟩ := hlocate
    · refine .last ?_ ?_
      · rw [Tile.start, hgroup, hoffset]
      · rw [Tile.stop, Tile.start, hgroup, hoffset, hsize]
        omega
    · exact absurd hlast hne
  | succ n ih =>
    rw [tilesFrom_succ_eq_ok_iff] at h
    obtain ⟨tile, rest, rfl, hlocate, hgroup, -, -, -, hrest⟩ := h
    rw [locate_eq_ok_iff] at hlocate
    obtain ⟨heq, -⟩ | ⟨-, -, hoffset, hsize, hstop⟩ := hlocate
    · omega
    · have hrest := ih hstop (by omega) hrest
      refine .sized ?_ hsize ?_
      · rw [Tile.start, hgroup, hoffset, Nat.add_assoc]
      · rwa [Tile.stop, Tile.start, hgroup, Nat.add_assoc]

/-- The tiles are as many as asked for, and numbered from the first one on, row by row. -/
theorem numbered_of_tilesFrom {n : Nat} {tiles : List Tile}
    (h : g.tilesFrom sizes data n number pos = .ok tiles) :
    tiles.length = n ∧ ∀ (j : Nat) (hj : j < tiles.length),
      tiles[j].row = (number + j) / sizes.tileInfo.cols ∧
      tiles[j].col = (number + j) % sizes.tileInfo.cols := by
  induction n generalizing number pos tiles with
  | zero =>
    obtain rfl := Except.ok.inj h
    exact ⟨rfl, nofun⟩
  | succ n ih =>
    rw [tilesFrom_succ_eq_ok_iff] at h
    obtain ⟨tile, rest, rfl, -, -, hrow, hcol, -, hrest⟩ := h
    obtain ⟨hlength, hnumbers⟩ := ih hrest
    refine ⟨congrArg Nat.succ hlength, fun j hj => ?_⟩
    cases j with
    | zero => exact ⟨hrow, hcol⟩
    | succ j => simpa [Nat.add_assoc, Nat.add_comm 1] using hnumbers j (by simpa using hj)

/-- Each tile has the size that goes with its row and column. -/
theorem sizeAt_of_tilesFrom {n : Nat} {tiles : List Tile}
    (h : g.tilesFrom sizes data n number pos = .ok tiles) {tile : Tile} (hmem : tile ∈ tiles) :
    sizes.sizeAt tile.row tile.col = .ok (tile.width, tile.height) := by
  induction n generalizing number pos tiles with
  | zero =>
    obtain rfl := Except.ok.inj h
    exact absurd hmem List.not_mem_nil
  | succ n ih =>
    rw [tilesFrom_succ_eq_ok_iff] at h
    obtain ⟨head, rest, rfl, -, -, -, -, hsize, hrest⟩ := h
    rcases List.mem_cons.mp hmem with rfl | hmem
    · exact hsize
    · exact ih hrest hmem

/-- No tile starts behind the data, because the one before it ends within the data. -/
theorem tilesFrom_faultless {n : Nat} (ht : sizes.tileInfo.InRange)
    (hwidth : sizes.uniformWidth ≤ 1024) (hheight : sizes.uniformHeight ≤ 1024)
    (hcount : number + n ≤ sizes.tileInfo.cols * sizes.tileInfo.rows) (hpos : pos ≤ data.length) :
    (g.tilesFrom sizes data n number pos).Faultless := by
  induction n generalizing number pos with
  | zero => exact .ok
  | succ n ih =>
    have hnumber : number < sizes.tileInfo.cols * sizes.tileInfo.rows := by omega
    obtain ⟨size, hsize⟩ := TileSizes.sizeAt_number_eq_ok ht hwidth hheight hnumber
    rw [tilesFrom]
    refine .bind (locate_faultless (Nat.le_add_left 1 _) (Nat.succ_le_succ ht.sizeBytes_le) hpos)
      fun place hplace => ?_
    refine .lift_bind hsize ?_
    exact .bind (ih (by omega) (le_of_locate hplace)) fun _ _ => .ok

end TileGroup

end Av1Frames
