import Av1Frames.Proofs.Descriptor.Leb128
import Av1Frames.Proofs.SyntaxError
import Av1Frames.Proofs.Tile.Group
import Av1Frames.Tile.Group.Syntax

namespace Av1Frames

open Checked

theorem ObuHeader.length_toBytes_bits (h : ObuHeader) :
    (Bits.toBytes h.bits).length = h.byteCount := by
  rw [Bits.length_toBytes, bits, byteCount]
  split <;> simp

namespace CodedTileGroup

open TileGroup

variable {g : CodedTileGroup} {t : TileInfo} {bytes : Bytes}

/-- Either the range is that of the whole frame and not given, or it is given. -/
theorem rangeBits_eq_ok {count : Nat} {bits : Bits} (h : g.rangeBits t count = .ok bits) :
    ((count = 1 ∨ g.startAndEndPresent = false) ∧ g.first = 0 ∧ g.last + 1 = count ∧
        bits = if 1 < count then [g.startAndEndPresent] else []) ∨
      (count ≠ 1 ∧ g.startAndEndPresent = true ∧ ∃ n, t.tileNumberBits = .ok n ∧
        bits = (if 1 < count then [true] else []) ++ Bits.ofNat n g.first ++
          Bits.ofNat n g.last) := by
  simp only [rangeBits, Encoding.invalid_eq_fail] at h
  split at h
  · rename_i hwhole
    simp only [guard_eq_ok_iff, bind_eq_ok_iff, liftM_eq_ok_iff, unsigned_eq_ok_iff] at h
    obtain ⟨hfirst, count', ⟨-, hlast⟩, hcount, h⟩ := h
    refine .inl ⟨by simpa using hwhole, by simpa using hfirst, by omega, (Except.ok.inj h).symm⟩
  · rename_i hgiven
    simp only [bind_eq_ok_iff, liftM_eq_ok_iff, Encoding.descriptor_eq_ok_iff,
      Descriptor.fixed_eq_ok_iff] at h
    obtain ⟨n, hn, first, ⟨-, rfl⟩, last, ⟨-, rfl⟩, h⟩ := h
    simp only [Bool.or_eq_true, decide_eq_true_eq, Bool.not_eq_true', not_or,
      Bool.not_eq_false] at hgiven
    refine .inr ⟨hgiven.1, hgiven.2, n, hn, ?_⟩
    rw [← Except.ok.inj h, hgiven.2]

theorem requireComplete_eq_ok (h : g.requireComplete = .ok ()) :
    g.first ≤ g.last ∧ g.tiles.length = g.last - g.first + 1 := by
  simp only [requireComplete, Encoding.invalid_eq_fail, guard_eq_ok_iff, bind_eq_ok_iff,
    liftM_eq_ok_iff, unsigned_eq_ok_iff] at h
  obtain ⟨hrange, count, ⟨-, hcount⟩, h⟩ := h
  split at h
  · exact absurd h fail_ne_ok
  · omega

/-- A payload in front of others follows its size. -/
theorem tilesBytes_cons_eq_ok {n : Nat} {tile next : Bytes} {rest : List Bytes}
    (h : tilesBytes n (tile :: next :: rest) = .ok bytes) :
    tile ≠ [] ∧ tile.length ≤ 256 ^ n ∧ ∃ more, tilesBytes n (next :: rest) = .ok more ∧
      bytes = Descriptor.littleEndianBytes n (tile.length - 1) ++ (tile ++ more) := by
  simp only [tilesBytes, Encoding.invalid_eq_fail, guard_eq_ok_iff, bind_eq_ok_iff,
    Encoding.length32_eq_ok_iff] at h
  obtain ⟨hsize, minus1, ⟨-, rfl⟩, more, hmore, h⟩ := h
  simp only [Bool.or_eq_true, decide_eq_true_eq, not_or, not_lt, List.isEmpty_iff,
    Nat.one_shiftLeft, Nat.pow_mul] at hsize
  refine ⟨hsize.1, hsize.2, more, hmore, ?_⟩
  rw [← Except.ok.inj h, List.append_assoc]

theorem payload_eq_ok {payload : Bytes} (h : g.payload t = .ok payload) :
    ∃ count bits tiles, t.tileCount = .ok count ∧ g.rangeBits t count = .ok bits ∧
      g.requireComplete = .ok () ∧ tilesBytes t.sizeFieldBytes g.tiles = .ok tiles ∧
      payload = Bits.toBytes bits ++ tiles := by
  rw [CodedTileGroup.payload, bind_eq_ok_iff] at h
  obtain ⟨count, hcount, h⟩ := h
  rw [bind_eq_ok_iff] at h
  obtain ⟨bits, hbits, h⟩ := h
  rw [bind_eq_ok_iff] at h
  obtain ⟨_, hcomplete, h⟩ := h
  dsimp only at h
  split at h
  · exact nomatch h
  · rw [bind_eq_ok_iff] at h
    obtain ⟨tiles, htiles, h⟩ := h
    exact ⟨count, bits, tiles, liftM_eq_ok_iff.mp hcount, hbits, hcomplete, htiles,
      (Except.ok.inj h).symm⟩

/-- A unit is its header, the length of its payload if it is given, and the payload. -/
theorem bytes_eq_ok (h : g.bytes t = .ok bytes) :
    ∃ size payload, g.payload t = .ok payload ∧
      bytes = Bits.toBytes g.obuHeader.bits ++ (size ++ payload) ∧
      if g.obuHeader.hasSizeField then
        payload.length < 0x100000000 ∧ size = Descriptor.leb128 payload.length 0
      else size = [] := by
  rw [CodedTileGroup.bytes, Encoding.invalid_eq_fail, guard_eq_ok_iff, bind_eq_ok_iff] at h
  obtain ⟨-, payload, hpayload, h⟩ := h
  dsimp only at h
  split at h
  · rename_i hsized
    rw [bind_eq_ok_iff] at h
    obtain ⟨length, hlength, h⟩ := h
    obtain ⟨hfits, rfl⟩ := Encoding.length32_eq_ok_iff.mp hlength
    refine ⟨Descriptor.leb128 payload.length 0, payload, hpayload, ?_, ?_⟩
    · rw [← Except.ok.inj h, List.append_assoc]
    · rw [if_pos hsized]
      exact ⟨hfits, rfl⟩
  · rename_i hunsized
    refine ⟨[], payload, hpayload, ?_, ?_⟩
    · rw [← Except.ok.inj h, List.append_assoc]
    · rw [if_neg hunsized]

/-- Behind its size a payload is found, and what follows it is left. -/
theorem locate_of_sized {group : TileGroup} {data payload more : Bytes} {n number pos : Nat}
    (hlow : 1 ≤ n) (hhigh : n ≤ 8) (hnumber : number ≠ group.last) (hpayload : payload ≠ [])
    (hfits : payload.length ≤ 256 ^ n) (hpos : pos ≤ data.length)
    (hdata : data.drop pos =
      Descriptor.littleEndianBytes n (payload.length - 1) ++ (payload ++ more)) :
    group.locate n data number pos = .ok (pos + n, payload.length) ∧
      window? data (pos + n) payload.length = some payload ∧
      pos + n + payload.length ≤ data.length ∧ data.drop (pos + n + payload.length) = more := by
  have hpositive : 0 < payload.length := List.length_pos_of_ne_nil hpayload
  have hlength := congrArg List.length hdata
  simp only [List.length_drop, List.length_append, Descriptor.length_littleEndianBytes] at hlength
  have hbehind : data.drop (pos + n) = payload ++ more := by
    rw [← List.drop_drop, hdata, List.drop_left' (Descriptor.length_littleEndianBytes _ _)]
  have hfield : readSizeField (data.drop pos) n = .ok (payload.length - 1) := by
    refine readSizeField_eq_ok_iff.mpr ⟨by rw [List.length_drop]; omega, ?_⟩
    rw [hdata, List.take_left' (Descriptor.length_littleEndianBytes _ _),
      Descriptor.ofLittleEndianBytes_littleEndianBytes (by omega)]
  refine ⟨locate_eq_ok_iff.mpr (.inr ⟨hnumber, hfield, rfl, hpositive, by omega⟩), ?_, by omega, ?_⟩
  · exact window?_eq_some_iff.mpr ⟨by omega, by rw [hbehind, List.take_left]⟩
  · rw [← List.drop_drop, hbehind, List.drop_left]

/-- The tiles of a group whose data from `pos` on are written payloads are found, each where its
    payload is. -/
theorem tilesFrom_of_tilesBytes {group : TileGroup} {sizes : TileSizes} {data : Bytes}
    {payloads : List Bytes} {number pos : Nat} (ht : sizes.tileInfo.InRange)
    (hwidth : sizes.uniformWidth ≤ 1024) (hheight : sizes.uniformHeight ≤ 1024)
    (hlast : number + payloads.length = group.last + 1)
    (hcount : group.last < sizes.tileInfo.cols * sizes.tileInfo.rows) (hne : payloads ≠ [])
    (h : tilesBytes sizes.tileInfo.sizeFieldBytes payloads = .ok (data.drop pos))
    (hpos : pos ≤ data.length) :
    ∃ tiles, group.tilesFrom sizes data payloads.length number pos = .ok tiles ∧
      tiles.map (fun tile => window? data tile.offset tile.size) = payloads.map some := by
  induction payloads generalizing number pos with
  | nil => exact absurd rfl hne
  | cons payload payloads ih =>
    rw [List.length_cons] at hlast
    have hnumber : number < sizes.tileInfo.cols * sizes.tileInfo.rows := by omega
    obtain ⟨⟨width, height⟩, hsize⟩ := TileSizes.sizeAt_number_eq_ok ht hwidth hheight hnumber
    cases payloads with
    | nil =>
      -- Only the last payload has no size field, and only here may it be empty.
      obtain rfl : payload = data.drop pos := Except.ok.inj h
      have hlocate : group.locate sizes.tileInfo.sizeFieldBytes data number pos =
          .ok (pos, data.length - pos) :=
        locate_eq_ok_iff.mpr (.inl ⟨by simpa using hlast, hpos, rfl, rfl⟩)
      have hwindow : window? data pos (data.length - pos) = some (data.drop pos) :=
        window?_eq_some_iff.mpr ⟨by omega, List.take_of_length_le List.length_drop.le⟩
      let tile : Tile :=
        { groupOffset := group.dataOffset, offset := pos, size := data.length - pos,
          row := number / sizes.tileInfo.cols, col := number % sizes.tileInfo.cols, width, height }
      refine ⟨[tile], ?_, congrArg (fun w => [w]) hwindow⟩
      exact tilesFrom_succ_eq_ok_iff.mpr ⟨tile, [], rfl, hlocate, rfl, rfl, rfl, hsize, rfl⟩
    | cons next rest =>
      obtain ⟨hpayload, hfits, more, hmore, hdata⟩ := tilesBytes_cons_eq_ok h
      have hbytes : sizes.tileInfo.sizeFieldBytes = sizes.tileInfo.tileSizeBytesMinus1 + 1 := rfl
      have hsizeBytes := ht.sizeBytes_le
      have hlastRest : number + 1 + (next :: rest).length = group.last + 1 := by omega
      have hnotLast : number ≠ group.last := by
        rw [List.length_cons] at hlastRest
        omega
      obtain ⟨hlocate, hwindow, hstop, hdrop⟩ :=
        locate_of_sized (by omega) (by omega) hnotLast hpayload hfits hpos hdata
      rw [← hdrop] at hmore
      obtain ⟨tiles, htiles, hwindows⟩ := ih hlastRest (List.cons_ne_nil next rest) hmore hstop
      let tile : Tile :=
        { groupOffset := group.dataOffset, offset := pos + sizes.tileInfo.sizeFieldBytes,
          size := payload.length, row := number / sizes.tileInfo.cols,
          col := number % sizes.tileInfo.cols, width, height }
      refine ⟨tile :: tiles, ?_, ?_⟩
      · exact tilesFrom_succ_eq_ok_iff.mpr
          ⟨tile, tiles, rfl, hlocate, rfl, rfl, rfl, hsize, htiles⟩
      · rw [List.map_cons, List.map_cons, hwindows]
        exact congrArg (· :: _) hwindow

/-- A header without a range stands for all tiles of the frame. -/
theorem run_readRange_whole {count : Nat} {tail : Bits} {r : Reader} (hcount : 1 ≤ count)
    (halign : Read.align.run ⟨tail, (if 1 < count then [false] else []).length⟩ = (.ok (), r)) :
    (readRange t count).run ⟨(if 1 < count then [false] else []) ++ tail, 0⟩ =
      (.ok (false, 0, count - 1), r) := by
  dsimp only [readRange]
  split at halign
  · rename_i hmany
    rw [if_pos hmany, if_pos hmany, run_bind_of_ok (Read.run_bit rfl), if_pos (by simp)]
    exact run_bind_of_ok halign
  · rename_i hsingle
    have hcountEq : count = 1 := by omega
    rw [if_neg hsingle, if_neg hsingle, pure_bind, if_pos (by simp [hcountEq])]
    exact run_bind_of_ok halign

/-- A range is read back from as many bits as a tile number of the frame may have. -/
theorem run_readRange_given {count first last : Nat} {tail : Bits} {r : Reader}
    (hcols : t.colsLog2 ≤ 6) (hrows : t.rowsLog2 ≤ 6) (hcount : 1 < count)
    (hfirst : first < 2 ^ (t.colsLog2 + t.rowsLog2)) (hlast : last < 2 ^ (t.colsLog2 + t.rowsLog2))
    (halign : Read.align.run ⟨tail, 1 + (t.colsLog2 + t.rowsLog2) + (t.colsLog2 + t.rowsLog2)⟩ =
      (.ok (), r)) :
    (readRange t count).run ⟨true :: (Bits.ofNat (t.colsLog2 + t.rowsLog2) first ++
      (Bits.ofNat (t.colsLog2 + t.rowsLog2) last ++ tail)), 0⟩ = (.ok (true, first, last), r) := by
  dsimp only [readRange]
  rw [if_pos hcount, run_bind_of_ok (Read.run_bit rfl), if_neg (by simp [hcount.ne']),
    run_bind_of_ok (run_checked (TileInfo.tileNumberBits_of_le hcols hrows))]
  refine (run_bind_of_ok (Read.run_fixed_append (by omega) hfirst)).trans ?_
  rw [run_bind_of_ok (Read.run_fixed_append (by omega) hlast)]
  exact run_bind_of_ok halign

/-- The header of a group is read back up to the start of a byte, whatever follows it. -/
theorem run_readRange_of_rangeBits {count : Nat} {bits : Bits} (rest : Bytes)
    (hcols : t.colsLog2 ≤ 6) (hrows : t.rowsLog2 ≤ 6) (hcount : 1 ≤ count)
    (hfirst : g.first ≤ g.last) (hlast : g.last < 2 ^ (t.colsLog2 + t.rowsLog2))
    (h : g.rangeBits t count = .ok bits) :
    ∃ present, (readRange t count).run (Reader.ofBytes (Bits.toBytes bits ++ rest)) =
        (.ok (present, g.first, g.last), ⟨Bits.ofBytes rest, 8 * (Bits.toBytes bits).length⟩) ∧
      (1 < count → present = g.startAndEndPresent) := by
  have halign := Read.run_align_toBytes bits rest
  rw [Reader.ofBytes_toBytes_append]
  generalize List.replicate ((8 - bits.length % 8) % 8) false ++ Bits.ofBytes rest = tail at halign
  generalize 8 * (Bits.toBytes bits).length = stop at halign ⊢
  obtain ⟨hwhole, hzero, hall, hbits⟩ | ⟨hone, hpresent, n, hn, hbits⟩ := rangeBits_eq_ok h
  · have habsent (hmany : 1 < count) : g.startAndEndPresent = false :=
      hwhole.resolve_left hmany.ne'
    have hflag : bits = if 1 < count then [false] else [] := by
      rw [hbits]
      split
      · rw [habsent ‹_›]
      · rfl
    have hlastEq : g.last = count - 1 := by omega
    refine ⟨false, ?_, fun hmany => (habsent hmany).symm⟩
    rw [hzero, hlastEq]
    rw [hflag] at halign ⊢
    exact run_readRange_whole hcount halign
  · have hmany : 1 < count := by omega
    rw [TileInfo.tileNumberBits_of_le hcols hrows] at hn
    obtain rfl := Except.ok.inj hn
    rw [if_pos hmany, List.append_assoc] at hbits
    have hlength : bits.length = 1 + (t.colsLog2 + t.rowsLog2) + (t.colsLog2 + t.rowsLog2) := by
      simp [hbits]
      omega
    refine ⟨true, ?_, fun _ => hpresent.symm⟩
    rw [hlength] at halign
    rw [hbits, List.append_assoc, List.append_assoc]
    exact run_readRange_given hcols hrows hmany (hfirst.trans_lt hlast) hlast halign

/-- A payload is read as the group that it was written for, whatever buffer it is in. -/
theorem parse_of_payload {payload data : Bytes} {offset size : Nat} (ht : t.InRange)
    (hcols : 1 ≤ t.cols ∧ t.cols ≤ 2 ^ t.colsLog2) (hrows : 1 ≤ t.rows ∧ t.rows ≤ 2 ^ t.rowsLog2)
    (hlast : g.last < t.cols * t.rows) (h : g.payload t = .ok payload)
    (hwindow : window? data offset size = some payload) :
    ∃ group tiles, TileGroup.parse g.obuHeader data offset size t = .ok group ∧
      (group.first = g.first ∧ group.last = g.last) ∧
      (1 < t.cols * t.rows → group.startAndEndPresent = g.startAndEndPresent) ∧
      tilesBytes t.sizeFieldBytes g.tiles = .ok tiles ∧ group.tileData? = some tiles := by
  obtain ⟨count, bits, tiles, hcount, hbits, hcomplete, htiles, rfl⟩ := payload_eq_ok h
  rw [TileInfo.tileCount_of_le ht.cols_le ht.rows_le] at hcount
  obtain rfl := Except.ok.inj hcount
  obtain ⟨hfirst, -⟩ := requireComplete_eq_ok hcomplete
  have hlastPow : g.last < 2 ^ (t.colsLog2 + t.rowsLog2) := by
    rw [Nat.pow_add]
    exact hlast.trans_le (Nat.mul_le_mul hcols.2 hrows.2)
  obtain ⟨present, hrun, hpresent⟩ := run_readRange_of_rangeBits tiles ht.colsLog2_le
    ht.rowsLog2_le (Nat.mul_pos hcols.1 hrows.1) hfirst hlastPow hbits
  refine ⟨{ obuHeader := g.obuHeader, startAndEndPresent := present, first := g.first,
            last := g.last, data, dataOffset := offset + (Bits.toBytes bits).length,
            dataSize := size - (Bits.toBytes bits).length }, tiles, ?_, ⟨rfl, rfl⟩, hpresent,
    htiles, window?_of_append hwindow⟩
  unfold TileGroup.parse
  rw [hwindow]
  dsimp only
  rw [TileInfo.tileCount_of_le ht.cols_le ht.rows_le, bind_eq_ok_iff]
  refine ⟨_, rfl, ?_⟩
  rw [hrun]
  dsimp only
  rw [Nat.mul_div_cancel_left _ (by omega)]
  rfl

/-- The length of a payload is read back up to the payload, if it is given. -/
theorem run_size {size payload : Bytes} {position : Nat} (hposition : position % 8 = 0)
    (hsize : if g.obuHeader.hasSizeField then
        payload.length < 0x100000000 ∧ size = Descriptor.leb128 payload.length 0
      else size = []) :
    if g.obuHeader.hasSizeField then
      Read.leb128.run ⟨Bits.ofBytes (size ++ payload), position⟩ =
        (.ok payload.length, ⟨Bits.ofBytes payload, position + 8 * size.length⟩)
    else size = [] := by
  split at hsize
  · rename_i hsized
    obtain ⟨hfits, rfl⟩ := hsize
    rw [if_pos hsized, Bits.ofBytes_append, Read.run_leb128_append hfits hposition]
  · rename_i hunsized
    rwa [if_neg hunsized]

/-- The header of a unit is followed by the length of its payload, if it is given, and by the
    payload itself. -/
theorem payloadOffset_of_bytes (h : g.bytes t = .ok bytes) :
    ∃ payload offset, g.payload t = .ok payload ∧ offset ≤ bytes.length ∧
      bytes.drop offset = payload ∧ g.obuHeader.payloadOffset bytes = .ok offset ∧
      if g.obuHeader.hasSizeField then
        Read.leb128.run ((Reader.ofBytes bytes).skip (8 * g.obuHeader.byteCount)) =
          (.ok payload.length, (Reader.ofBytes bytes).skip (8 * offset))
      else offset = g.obuHeader.byteCount := by
  obtain ⟨size, payload, hpayload, rfl, hsize⟩ := bytes_eq_ok h
  have hread := run_size (Nat.mul_mod_right 8 g.obuHeader.byteCount) hsize
  have hheader := g.obuHeader.length_toBytes_bits
  generalize Bits.toBytes g.obuHeader.bits = unitHeader at hheader
  have hbegin : (Reader.ofBytes (unitHeader ++ (size ++ payload))).skip
      (8 * g.obuHeader.byteCount) =
        ⟨Bits.ofBytes (size ++ payload), 8 * g.obuHeader.byteCount⟩ := by
    rw [← hheader, Reader.skip_ofBytes_append]
  have hend : (Reader.ofBytes (unitHeader ++ (size ++ payload))).skip
      (8 * (g.obuHeader.byteCount + size.length)) =
        ⟨Bits.ofBytes payload, 8 * g.obuHeader.byteCount + 8 * size.length⟩ := by
    rw [← hheader, ← List.append_assoc, ← List.length_append, Reader.skip_ofBytes_append,
      List.length_append, Nat.mul_add]
  refine ⟨payload, g.obuHeader.byteCount + size.length, hpayload, ?_, ?_, ?_, ?_⟩
  · simp only [List.length_append]
    omega
  · rw [← hheader, ← List.append_assoc, ← List.length_append, List.drop_left]
  · have hskip := Read.run_skip (r := Reader.ofBytes (unitHeader ++ (size ++ payload)))
      (n := 8 * g.obuHeader.byteCount) (by simp [Reader.left, Reader.ofBytes, hheader])
    rw [ObuHeader.payloadOffset, Read.ofBytes, run_bind_of_ok (hskip.trans (by rw [hbegin]))]
    split at hread
    · rename_i hsized
      rw [if_pos hsized, run_bind_of_ok hread, ← Nat.mul_add]
      exact congrArg Except.ok (Nat.mul_div_cancel_left _ (by omega))
    · rename_i hunsized
      rw [if_neg hunsized, hread]
      exact congrArg Except.ok (Nat.mul_div_cancel_left _ (by omega))
  · rw [hbegin, hend]
    split at hread
    · rename_i hsized
      rw [if_pos hsized, hread]
    · rename_i hunsized
      rw [if_neg hunsized, hread]
      rfl

/-- A unit that was written for the frames of a sequence is read back: behind its header and length
    there is a group of the same tiles, and each tile has its payload. -/
theorem tiles_of_bytes {s : Sequence} {header : Header} (hs : s.InRange)
    (ht : header.tileInfo.InRange)
    (hcols : 1 ≤ header.tileInfo.cols ∧ header.tileInfo.cols ≤ 2 ^ header.tileInfo.colsLog2)
    (hrows : 1 ≤ header.tileInfo.rows ∧ header.tileInfo.rows ≤ 2 ^ header.tileInfo.rowsLog2)
    (hlast : g.last < header.tileInfo.cols * header.tileInfo.rows)
    (hmost : g.tiles.length ≤ maxTiles) (h : g.bytes header.tileInfo = .ok bytes) :
    ∃ offset group data tiles,
      g.obuHeader.payloadOffset bytes = .ok offset ∧
      (if g.obuHeader.hasSizeField then
        Read.leb128.run ((Reader.ofBytes bytes).skip (8 * g.obuHeader.byteCount)) =
          (.ok (bytes.length - offset), (Reader.ofBytes bytes).skip (8 * offset))
      else offset = g.obuHeader.byteCount) ∧
      TileGroup.parse g.obuHeader bytes offset (bytes.length - offset) header.tileInfo =
        .ok group ∧
      (group.first = g.first ∧ group.last = g.last) ∧
      (1 < header.tileInfo.cols * header.tileInfo.rows →
        group.startAndEndPresent = g.startAndEndPresent) ∧
      group.tiles s header = .ok tiles ∧ group.tileData? = some data ∧
      tiles.map (fun tile => window? data tile.offset tile.size) = g.tiles.map some := by
  obtain ⟨payload, offset, hpayload, hle, hdrop, hoffset, hsize⟩ := payloadOffset_of_bytes h
  have hremaining : payload.length = bytes.length - offset := by rw [← hdrop, List.length_drop]
  have hwindow : window? bytes offset (bytes.length - offset) = some payload :=
    window?_eq_some_iff.mpr
      ⟨by omega, by rw [hdrop, ← hremaining, List.take_length]⟩
  obtain ⟨group, data, hparse, ⟨hfirst, hlastEq⟩, hpresent, hdata, htileData⟩ :=
    parse_of_payload ht hcols hrows hlast hpayload hwindow
  obtain ⟨_, _, _, -, -, hcomplete, -⟩ := payload_eq_ok hpayload
  obtain ⟨hrange, hlength⟩ := requireComplete_eq_ok hcomplete
  obtain ⟨sizes, hsizes, htileInfo, hwidth, hheight⟩ := TileSizes.ofSequence_eq_ok hs ht
  have hwritten : tilesBytes sizes.tileInfo.sizeFieldBytes g.tiles = .ok (data.drop 0) := by
    rw [htileInfo, List.drop_zero, hdata]
  have hnumber : group.first + g.tiles.length = group.last + 1 := by omega
  have hcount : group.last < sizes.tileInfo.cols * sizes.tileInfo.rows := by
    rw [htileInfo, hlastEq]
    exact hlast
  obtain ⟨tiles, htiles, hwindows⟩ := tilesFrom_of_tilesBytes (htileInfo ▸ ht) hwidth hheight
    hnumber hcount (List.ne_nil_of_length_pos (by omega)) hwritten (Nat.zero_le _)
  refine ⟨offset, group, data, tiles, hoffset, hremaining ▸ hsize, hparse, ⟨hfirst, hlastEq⟩,
    hpresent, ?_, htileData, hwindows⟩
  have hlayout : validLayout header.tileInfo :=
    validLayout_iff.mpr ⟨⟨hcols.1, hrows.1⟩, ⟨ht.cols_le, ht.rows_le⟩, ht.colsLog2_le,
      ht.rowsLog2_le⟩
  have htileCount : group.last - group.first + 1 = g.tiles.length := by omega
  exact tiles_eq_ok_iff.mpr ⟨data, sizes, htileData, hlayout, by omega, by omega, by omega, hsizes,
    htileCount ▸ htiles⟩

/-- Both tiles of `pairInfo`, with two and three bytes. -/
def pair : CodedTileGroup :=
  { obuHeader := .sized .tileGroup, last := 1, tiles := [[10, 11], [20, 21, 22]] }

/-- The unit of `pair`. -/
def pairBytes : Bytes := [0x22, 7, 0x00, 0x01, 10, 11, 20, 21, 22]

theorem tiles_of_bytes_pair :
    pair.bytes pairInfo = .ok pairBytes ∧ ∃ group data tiles,
      TileGroup.parse pair.obuHeader pairBytes 2 7 pairInfo = .ok group ∧
      group.tiles { maxFrameWidthMinus1 := 127, maxFrameHeightMinus1 := 63 }
        { tileInfo := pairInfo } = .ok tiles ∧
      group.tileData? = some data ∧
      tiles.map (fun tile => window? data tile.offset tile.size) =
        [some [10, 11], some [20, 21, 22]] := by
  have hbytes : pair.bytes pairInfo = .ok pairBytes := by decide +kernel
  have hoffset : pair.obuHeader.payloadOffset pairBytes = .ok 2 := by decide +kernel
  have hsequence : Sequence.InRange { maxFrameWidthMinus1 := 127, maxFrameHeightMinus1 := 63 } :=
    ⟨by decide, by decide⟩
  have hinfo : Header.tileInfo { tileInfo := pairInfo } |>.InRange :=
    ⟨by decide, by decide, by decide, by decide, by decide, nofun, nofun⟩
  obtain ⟨offset, group, data, tiles, heq, -, hparse, -, -, htiles, hdata, hwindows⟩ :=
    tiles_of_bytes hsequence hinfo ⟨by decide, by decide⟩ ⟨by decide, by decide⟩ (by decide)
      (by decide) hbytes
  obtain rfl := Except.ok.inj (hoffset.symm.trans heq)
  exact ⟨hbytes, group, data, tiles, hparse, htiles, hdata, hwindows⟩

end CodedTileGroup

end Av1Frames
