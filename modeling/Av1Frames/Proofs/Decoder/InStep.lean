import Av1Frames.Proofs.Decoder.Protocol
import Av1Frames.Proofs.Tile.Group
import Av1Frames.Decoder.Session

namespace Av1Frames

open OpenFrame

variable {S : Type}

/-- The picture in progress is the frame that the backend has open, and counts its tiles. -/
structure CurrentPicture.Tracks (picture : CurrentPicture S) (frame : OpenFrame) : Prop where
  tileInfo_eq : frame.tileInfo = picture.header.tileInfo
  length_eq : frame.tiles.length = picture.tilesDecoded

namespace CurrentPicture.Tracks

variable {picture : CurrentPicture S} {frame : OpenFrame}

theorem tilesDecoded_le (h : picture.Tracks frame) (horder : frame.InRasterOrder) :
    picture.tilesDecoded ≤ picture.header.tileInfo.cols * picture.header.tileInfo.rows := by
  rw [← h.length_eq, ← h.tileInfo_eq]
  exact horder.length_le

/-- The decoder finds a frame complete by its count, once it has counted a tile. -/
theorem complete_iff (h : picture.Tracks frame) (horder : frame.InRasterOrder)
    (hcounted : 0 < picture.tilesDecoded) :
    frame.Complete ↔
      picture.header.tileInfo.cols * picture.header.tileInfo.rows ≤ picture.tilesDecoded := by
  rw [Complete, h.tileInfo_eq, h.length_eq]
  constructor
  · exact fun hcomplete => hcomplete.2.ge
  · intro hall
    refine ⟨List.ne_nil_of_length_pos ?_, (h.tilesDecoded_le horder).antisymm hall⟩
    rwa [h.length_eq]

end CurrentPicture.Tracks

/-- The decoder and its backend agree on the frame in progress, which is not complete. -/
structure InStep (journal : List (Entry S)) (picture : Option (CurrentPicture S)) : Prop
    extends Quiet journal where
  tracks : Option.Rel CurrentPicture.Tracks picture (after journal)

/-- A group that starts where the tiles of a frame end continues them. -/
theorem OpenFrame.InRasterOrder.take {frame : OpenFrame} {group : TileGroup} {s : Sequence}
    {header : Header} {tiles : List Tile} (h : frame.InRasterOrder)
    (hinfo : frame.tileInfo = header.tileInfo) (hfirst : frame.tiles.length = group.first)
    (htiles : group.tiles s header = .ok tiles) : (frame.take tiles).InRasterOrder := by
  obtain ⟨_, _, -, -, hrange, hlast, -⟩ := TileGroup.tiles_eq_ok_iff.mp htiles
  obtain ⟨hlength, hnumber⟩ := TileGroup.numbered_of_tiles htiles
  have htaken : (frame.take tiles).tiles = frame.tiles ++ tiles := rfl
  refine ⟨?_, fun i hi => ?_⟩
  · rw [htaken, List.length_append]
    change _ ≤ frame.tileInfo.cols * frame.tileInfo.rows
    rw [hinfo]
    omega
  · simp only [htaken] at hi ⊢
    rcases Nat.lt_or_ge i frame.tiles.length with hold | hnew
    · rw [List.getElem_append_left hold]
      exact h.position i hold
    · rw [List.length_append] at hi
      have hposition := hnumber (i - frame.tiles.length) (by omega)
      rw [List.getElem_append_right hnew]
      rwa [← hfirst, Nat.add_sub_cancel' hnew, ← hinfo] at hposition

namespace InStep

variable {journal : List (Entry S)} {picture : CurrentPicture S}

theorem after_eq_none (h : InStep journal none) : after journal = none := by
  have htracks := h.tracks
  cases hframe : after journal with
  | none => rfl
  | some frame =>
    rw [hframe] at htracks
    exact nomatch htracks

theorem exists_after (h : InStep journal (some picture)) :
    ∃ frame, after journal = some frame ∧ picture.Tracks frame := by
  have htracks := h.tracks
  cases hframe : after journal with
  | none =>
    rw [hframe] at htracks
    exact nomatch htracks
  | some frame =>
    rw [hframe] at htracks
    cases htracks with
    | some htracks => exact ⟨frame, rfl, htracks⟩

/-- After an entry that leaves no frame open there is no picture to agree on. -/
theorem of_closed {e : Entry S} (h : Orderly journal) (he : Permits (after journal) e)
    (hstep : step (after journal) e = none) : InStep (journal ++ [e]) none := by
  have hafter : after (journal ++ [e]) = none := (after_snoc journal e).trans hstep
  refine ⟨⟨.snoc h he, fun frame hframe => ?_⟩, ?_⟩
  · rw [hafter] at hframe
    exact nomatch hframe
  · rw [hafter]
    exact .none

/-- An open frame that is not complete is the picture in progress that tracks it. -/
theorem of_tracks {frame : OpenFrame} (h : Orderly journal) (hframe : after journal = some frame)
    (htracks : picture.Tracks frame) (hincomplete : ¬ frame.Complete) :
    InStep journal (some picture) := by
  refine ⟨⟨h, fun frame' hframe' => ?_⟩, ?_⟩
  · obtain rfl := Option.some.inj (hframe.symm.trans hframe')
    exact hincomplete
  · rw [hframe]
    exact .some htracks

theorem changeStream (h : InStep journal none) (info : StreamInfo)
    (answer : Except BackendError Unit) :
    InStep (journal ++ [.called (.changeStream info) answer]) none := by
  have hclosed := h.after_eq_none
  exact of_closed h.orderly hclosed hclosed

theorem shown (h : InStep journal none) (header : Header) (frame : Frame S) :
    InStep (journal ++ [.shown header frame]) none := by
  have hclosed := h.after_eq_none
  exact of_closed h.orderly (fun frame' hframe' => nomatch hclosed.symm.trans hframe') hclosed

theorem startRefused (h : InStep journal none) (started : Picture S) (e : BackendError) :
    InStep (journal ++ [.called (.startFrame started) (.error e)]) none := by
  have hclosed := h.after_eq_none
  exact of_closed h.orderly hclosed hclosed

theorem start (h : InStep journal none) {started : Picture S}
    (hheader : picture.header = started.header) (htiles : picture.tilesDecoded = 0) :
    InStep (journal ++ [.called (.startFrame started) (.ok ())]) (some picture) := by
  have hafter : after (journal ++ [.called (.startFrame started) (.ok ())]) =
      some ⟨started.header.tileInfo, []⟩ := after_snoc journal _
  refine of_tracks (.snoc h.orderly h.after_eq_none) hafter ⟨?_, htiles.symm⟩ ?_
  · rw [hheader]
  · exact fun hcomplete => hcomplete.1 rfl

/-- Tiles that continue the picture in progress may be handed over. -/
theorem permits_decodeTiles (h : InStep journal (some picture)) {group : TileGroup} {s : Sequence}
    {tiles : List Tile} (hfirst : group.first = picture.tilesDecoded)
    (htiles : group.tiles s picture.header = .ok tiles) (data : Bytes)
    (answer : Except BackendError Unit) :
    Permits (after journal) (.called (.decodeTiles data tiles) answer : Entry S) := by
  obtain ⟨frame, hframe, htracks⟩ := h.exists_after
  have horder := h.orderly.inRasterOrder hframe
  exact ⟨frame, hframe, h.incomplete frame hframe,
    horder.take htracks.tileInfo_eq (htracks.length_eq.trans hfirst.symm) htiles⟩

/-- Tiles that are refused leave the frame as it was. -/
theorem tilesRefused (h : InStep journal (some picture)) {data : Bytes} {tiles : List Tile}
    {e : BackendError}
    (hpermits : Permits (after journal) (.called (.decodeTiles data tiles) (.error e) : Entry S)) :
    Quiet (journal ++ [.called (.decodeTiles data tiles) (.error e)]) := by
  refine ⟨.snoc h.orderly hpermits, fun frame hframe => ?_⟩
  rw [after_snoc] at hframe
  exact h.incomplete frame hframe

/-- With tiles that are accepted the open frame is tracked by the picture that counts them. -/
theorem tilesTaken (h : InStep journal (some picture)) (data : Bytes) (tiles : List Tile) :
    ∃ frame, after (journal ++ [.called (.decodeTiles data tiles) (.ok ())]) = some frame ∧
      CurrentPicture.Tracks
        { picture with tilesDecoded := picture.tilesDecoded + tiles.length } frame := by
  obtain ⟨frame, hframe, htracks⟩ := h.exists_after
  refine ⟨frame.take tiles, ?_, htracks.tileInfo_eq, ?_⟩
  · rw [after_snoc, hframe]
    rfl
  · rw [OpenFrame.take, List.length_append, htracks.length_eq]

end InStep

end Av1Frames
