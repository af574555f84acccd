import Av1Frames.Proofs.Decoder.Process
import Av1Frames.Proofs.Decoder.References

namespace Av1Frames

open OpenFrame

variable {β S : Type} {d d' : Decoder S} {journal entries : List (Entry S)} {stamps : Timestamps}
  {r : Outcome DecodeError Unit}

/-- No group of tiles that is found is larger than the greatest one, and its tiles are tiles of a
    layout, of which there are at most 64 by 64. -/
theorem TileGroup.bounds_of_tiles {group : TileGroup} {sequence : Sequence} {header : Header}
    {tiles : List Tile} (h : group.tiles sequence header = .ok tiles) :
    validLayout header.tileInfo ∧ tiles.length = group.last - group.first + 1 ∧
      tiles.length ≤ maxTiles ∧ group.last < header.tileInfo.cols * header.tileInfo.rows := by
  obtain ⟨_, _, -, hlayout, -, hlast, hmost, -⟩ := tiles_eq_ok_iff.mp h
  obtain ⟨hlength, -⟩ := numbered_of_tiles h
  exact ⟨hlayout, hlength, hlength.le.trans hmost, hlast⟩

theorem TileGroup.count_le_of_validLayout {t : TileInfo} (h : validLayout t) :
    t.cols * t.rows ≤ maxTilesPerSide * maxTilesPerSide := by
  obtain ⟨-, ⟨hcols, hrows⟩, -⟩ := validLayout_iff.mp h
  exact Nat.mul_le_mul hcols hrows

theorem Entry.eq_of_accepted? {entry : Entry S} {call : Call S}
    (h : entry.accepted? = some call) : entry = .called call (.ok ()) := by
  unfold Entry.accepted? at h
  split at h
  · exact congrArg (Entry.called · _) (Option.some.inj h)
  · cases h

theorem Call.eq_endFrame_of_method {call : Call S} (h : call.method = .endFrame) :
    call = .endFrame := by
  cases call with
  | endFrame => rfl
  | changeStream | startFrame | decodeTiles => cases h

/-- The backend was asked to decode the tiles of a group, each with the buffer that holds them, and
    accepted. -/
def Entry.taken (group : Bytes × List Tile) : Entry S :=
  .called (.decodeTiles group.1 group.2) (.ok ())

/-- The last frame that the backend has started is `started`. All that it was told since are groups
    of tiles that are not too large, which it accepted, of a layout that is valid. -/
structure TakenInGroups (journal : List (Entry S)) (started : Picture S)
    (groups : List (Bytes × List Tile)) : Prop where
  journal_eq : ∃ before, journal =
    before ++ .called (.startFrame started) (.ok ()) :: groups.map Entry.taken
  length_le : ∀ group ∈ groups, group.2.length ≤ maxTiles
  layout : groups ≠ [] → TileGroup.validLayout started.header.tileInfo

namespace TakenInGroups

variable {started : Picture S} {groups : List (Bytes × List Tile)}

theorem start (journal : List (Entry S)) (started : Picture S) :
    TakenInGroups (journal ++ [.called (.startFrame started) (.ok ())]) started [] where
  journal_eq := ⟨journal, rfl⟩
  length_le := List.forall_mem_nil _
  layout h := absurd rfl h

/-- The tiles of one more group are found in it. -/
theorem snoc (h : TakenInGroups journal started groups) {group : TileGroup} {sequence : Sequence}
    {tiles : List Tile} (htiles : group.tiles sequence started.header = .ok tiles) :
    TakenInGroups (journal ++ [.called (.decodeTiles group.data tiles) (.ok ())]) started
      (groups ++ [(group.data, tiles)]) where
  journal_eq := by
    obtain ⟨before, rfl⟩ := h.journal_eq
    refine ⟨before, ?_⟩
    rw [List.map_append, List.append_assoc, List.cons_append]
    rfl
  length_le :=
    List.forall_mem_append.mpr ⟨h.length_le,
      List.forall_mem_singleton.mpr (TileGroup.bounds_of_tiles htiles).2.2.1⟩
  layout _ := (TileGroup.bounds_of_tiles htiles).1

/-- The open frame has the tiles of all groups. -/
theorem after_eq (h : TakenInGroups journal started groups) :
    after journal = some ⟨started.header.tileInfo, groups.flatMap Prod.snd⟩ := by
  obtain ⟨before, rfl⟩ := h.journal_eq
  clear h
  induction groups using List.reverseRecOn with
  | nil => exact after_snoc before _
  | append_singleton groups group ih =>
    rw [List.map_append, ← List.cons_append, ← List.append_assoc]
    refine (after_snoc _ _).trans ?_
    rw [ih, List.flatMap_append, List.flatMap_singleton]
    rfl

theorem length_flatMap_le (h : TakenInGroups journal started groups) :
    (groups.flatMap Prod.snd).length ≤ maxTiles * groups.length := by
  have hsum := List.sum_le_card_nsmul (groups.map fun group => group.2.length) maxTiles
    (List.forall_mem_map.mpr h.length_le)
  rwa [List.length_map, smul_eq_mul, Nat.mul_comm, ← List.length_flatMap] at hsum

end TakenInGroups

/-- Before a frame is ended the backend was given it in groups. -/
def Entry.EndsGroups (before : List (Entry S)) : Entry S → Prop
  | .called .endFrame _ => ∃ started groups, TakenInGroups before started groups
  | _ => True

/-- The backend was given the picture in progress in groups, and so it was every frame that it was
    asked to end. -/
structure Decoder.TakesGroups (d : Decoder S) (journal : List (Entry S)) : Prop where
  current : ∀ picture, d.picture = some picture →
    ∃ started groups, started.header = picture.header ∧ TakenInGroups journal started groups
  ended : EachEntry Entry.EndsGroups journal

/-- Nothing more is to be said while there is no picture in progress. -/
theorem EachEntry.takesGroups (h : EachEntry Entry.EndsGroups journal)
    (hpicture : d.picture = none) : d.TakesGroups journal where
  current picture hsome := by
    rw [hpicture] at hsome
    cases hsome
  ended := h

theorem EachEntry.givesUp (h : EachEntry Entry.EndsGroups journal)
    (hentries : ∀ entry ∈ entries, ∀ before, entry.EndsGroups before)
    (hpicture : d.picture = none) : d.TakesGroups (journal ++ entries ++ [.failed]) := by
  have hall : EachEntry Entry.EndsGroups (journal ++ entries) :=
    append_of_forall_mem h (fun hbefore hentry => hbefore.snoc (hentry _)) hentries
  exact EachEntry.takesGroups (hall.snoc trivial) hpicture

theorem SequenceEnding.takesGroups {s : Sequence} (h : SequenceEnding d s r entries d')
    (hd : d.TakesGroups journal) : d'.TakesGroups (journal ++ entries ++ failureMark r) := by
  cases h with
  | repeated => exact Preserved.skipped hd
  | formatless => exact hd.ended.givesUp (List.forall_mem_nil _) rfl
  | unsupported => exact hd.ended.givesUp (List.forall_mem_nil _) rfl
  | failed _ hcause =>
    refine hd.ended.givesUp (fun entry hentry before => ?_) rfl
    obtain ⟨info, answer, rfl⟩ := hcause.changeStream entry hentry
    trivial
  | taken hpicture =>
    rw [failureMark, List.append_nil]
    exact EachEntry.takesGroups (hd.ended.snoc trivial) hpicture

theorem HeaderEnding.takesGroups {header : Header} {r : Outcome DecodeError Bool}
    (h : HeaderEnding d header stamps r entries d') (hd : d.TakesGroups journal) :
    d'.TakesGroups (journal ++ entries ++ failureMark (r.map fun _ => ())) := by
  cases h with
  | waiting => exact Preserved.skipped hd
  | rejected => exact hd.ended.givesUp (List.forall_mem_nil _) rfl
  | shown hpicture =>
    rw [Except.map, failureMark, List.append_nil]
    exact EachEntry.takesGroups (hd.ended.snoc trivial) hpicture
  | uncounted =>
    exact hd.ended.givesUp (List.forall_mem_singleton.mpr fun _ => trivial) rfl
  | failed => exact hd.ended.givesUp (List.forall_mem_nil _) rfl
  | refused => exact hd.ended.givesUp (List.forall_mem_singleton.mpr fun _ => trivial) rfl
  | @started started hstarts =>
    rw [Except.map, failureMark, List.append_nil]
    refine ⟨fun picture hpicture => ?_, hd.ended.snoc trivial⟩
    obtain rfl := Option.some.inj hpicture
    exact ⟨started, [], hstarts.header_eq, .start journal started⟩

theorem FinishEnding.takesGroups {picture : CurrentPicture S} {started : Picture S}
    {groups : List (Bytes × List Tile)} (h : FinishEnding d picture stamps r entries d')
    (hd : EachEntry Entry.EndsGroups journal) (hpicture : d.picture = none)
    (htaken : TakenInGroups journal started groups) :
    d'.TakesGroups (journal ++ entries ++ failureMark r) := by
  have hended (answer : Except BackendError Unit) :
      EachEntry Entry.EndsGroups (journal ++ [.called .endFrame answer]) :=
    hd.snoc ⟨started, groups, htaken⟩
  cases h with
  | refused => exact EachEntry.takesGroups ((hended _).snoc trivial) rfl
  | finished =>
    rw [failureMark, List.append_nil]
    exact EachEntry.takesGroups (hended _) hpicture
  | uncounted => exact EachEntry.takesGroups ((hended _).snoc trivial) rfl

theorem TilesEnding.takesGroups {group : TileGroup} (h : TilesEnding d group stamps r entries d')
    (hd : d.TakesGroups journal) : d'.TakesGroups (journal ++ entries ++ failureMark r) := by
  cases h with
  | waiting => exact Preserved.skipped hd
  | failed hentries =>
    refine hd.ended.givesUp (fun entry hentry before => ?_) rfl
    obtain ⟨tiles, answer, rfl⟩ := hentries entry hentry
    trivial
  | @taken info picture tiles _ hpicture htiles =>
    obtain ⟨started, groups, hheader, htaken⟩ := hd.current picture hpicture
    rw [failureMark, List.append_nil]
    refine ⟨fun picture' hpicture' => ?_, hd.ended.snoc trivial⟩
    obtain rfl := Option.some.inj hpicture'
    exact ⟨started, _, hheader, htaken.snoc (hheader ▸ htiles)⟩
  | @completed info picture tiles _ entries _ _ hpicture htiles hfinish =>
    obtain ⟨started, groups, hheader, htaken⟩ := hd.current picture hpicture
    rw [← List.singleton_append, ← List.append_assoc]
    exact hfinish.takesGroups (hd.ended.snoc trivial) rfl (htaken.snoc (hheader ▸ htiles))

theorem takesGroups_preserved : Preserved (Decoder.TakesGroups (S := S)) where
  abandoned h := EachEntry.takesGroups (h.ended.snoc trivial) rfl
  sequence h hd := h.takesGroups hd
  header h _ hd := h.takesGroups hd
  tiles h hd := h.takesGroups hd

namespace Session

theorem takesGroups_handle {s : Session β S} (h : s.decoder.TakesGroups s.journal)
    (request : Request β S) :
    (s.handle request).decoder.TakesGroups (s.handle request).journal := by
  cases request with
  | decode backend packet => exact takesGroups_preserved.decode h backend packet
  | flush => exact EachEntry.takesGroups (h.ended.snoc trivial) rfl
  | nextEvent => exact { h with }

/-- A group of tiles that is found has at most 128 of them, and they are tiles of a layout of at
    most 64 by 64. Whatever requests a decoder gets, and however its backend answers: a frame that
    the backend is asked to end was started, and then it accepted all tiles of its layout in groups
    of at most 128, and nothing else. So there are enough groups for the tiles, and a frame that
    comes in one group has at most 128 tiles. -/
theorem groups_run (backend : β) (operatingPoint : Nat) (requests : List (Request β S)) :
    (∀ {group : TileGroup} {sequence : Sequence} {header : Header} {tiles : List Tile},
      group.tiles sequence header = .ok tiles →
        tiles.length = group.last - group.first + 1 ∧ tiles.length ≤ maxTiles ∧
          group.last < header.tileInfo.cols * header.tileInfo.rows ∧
          header.tileInfo.cols * header.tileInfo.rows ≤ maxTilesPerSide * maxTilesPerSide) ∧
    ∀ before answer rest, ((start backend operatingPoint : Session β S).run requests).journal =
        before ++ .called .endFrame answer :: rest →
      ∃ (earlier : List (Entry S)) (started : Picture S) (groups : List (Bytes × List Tile)),
        before = earlier ++ .called (.startFrame started) (.ok ()) :: groups.map Entry.taken ∧
        (∀ group ∈ groups, group.2.length ≤ maxTiles) ∧
        (groups.flatMap Prod.snd).length =
          started.header.tileInfo.cols * started.header.tileInfo.rows ∧
        (groups.flatMap Prod.snd).length ≤ maxTiles * groups.length ∧
        (groups.flatMap Prod.snd).length ≤ maxTilesPerSide * maxTilesPerSide := by
  constructor
  · intro group sequence header tiles htiles
    obtain ⟨hlayout, hlength, hmost, hlast⟩ := TileGroup.bounds_of_tiles htiles
    exact ⟨hlength, hmost, hlast, TileGroup.count_le_of_validLayout hlayout⟩
  · intro before answer rest hsplit
    have hs : ((start backend operatingPoint : Session β S).run requests).decoder.TakesGroups
        ((start backend operatingPoint).run requests).journal :=
      run_induction (fun s : Session β S => s.decoder.TakesGroups s.journal)
        (EachEntry.takesGroups .nil rfl) (fun _ request h => takesGroups_handle h request) requests
    obtain ⟨started, groups, htaken⟩ := hs.ended before _ rest hsplit
    -- The frame is ended because it is complete: its groups have all tiles of the layout.
    obtain ⟨frame, hframe, hnonempty, hall⟩ :=
      (followsProtocol_run backend operatingPoint requests).end_complete before answer rest hsplit
    obtain rfl := Option.some.inj (htaken.after_eq.symm.trans hframe)
    have hgroups : groups ≠ [] := by
      rintro rfl
      exact hnonempty rfl
    obtain ⟨earlier, hjournal⟩ := htaken.journal_eq
    exact ⟨earlier, started, groups, hjournal, htaken.length_le, hall, htaken.length_flatMap_le,
      hall.le.trans (TileGroup.count_le_of_validLayout (htaken.layout hgroups))⟩

end Session

namespace Script

/-- A stream of frames of 43 by 3 superblocks. -/
def wideSequence : Sequence :=
  { sequence with maxFrameWidthMinus1 := 2751, maxFrameHeightMinus1 := 191 }

/-- A key frame with a tile for each of these superblocks: 129 of them. -/
def wideFrame : Header :=
  { primaryRefFrame := primaryRefNone
    tileInfo := { cols := 43, rows := 3, colsLog2 := 6, rowsLog2 := 2, tileSizeBytesMinus1 := 0 } }

/-- The first 128 tiles, of a byte each and all but the last with a size field. -/
def wideGroup : TileGroup := { last := 127, data := List.replicate 255 0, dataSize := 255 }

/-- The tile behind them. -/
def lastGroup : TileGroup := { first := 128, last := 128, data := [0], dataSize := 1 }

/-- The frame in two groups. -/
def widePacket : Packet :=
  { obus := [.sequenceHeader wideSequence, .frame wideFrame wideGroup, .tileGroup lastGroup] }

/-- The session in which it is decoded. -/
def wideRun : Session Script Nat := session.run [.decode backend widePacket]

end Script

namespace Session

open Script

theorem lastGroup_tiles : ∃ tiles, lastGroup.tiles wideSequence wideFrame = .ok tiles := by
  have hone : ((lastGroup.tiles wideSequence wideFrame).map List.length).toOption = some 1 := by
    decide +kernel
  cases hresult : lastGroup.tiles wideSequence wideFrame with
  | error e =>
    rw [hresult] at hone
    cases hone
  | ok tiles => exact ⟨tiles, rfl⟩

/-- The frame is ended with 129 tiles. -/
theorem wideRun_split :
    ∃ before rest, wideRun.journal = before ++ .called .endFrame (.ok ()) :: rest ∧
      (after before).map (·.tiles.length) = some 129 := by
  have hend : (wideRun.journal[4]?.bind Entry.accepted?).map Call.method = some .endFrame := by
    decide +kernel
  have hcount : (after (wideRun.journal.take 4)).map (·.tiles.length) = some 129 := by
    decide +kernel
  obtain ⟨call, hcall, hmethod⟩ := Option.map_eq_some_iff.mp hend
  obtain ⟨entry, hentry, haccepted⟩ := Option.bind_eq_some_iff.mp hcall
  obtain rfl := Entry.eq_of_accepted? haccepted
  obtain rfl := Call.eq_endFrame_of_method hmethod
  obtain ⟨hlt, hget⟩ := List.getElem?_eq_some_iff.mp hentry
  refine ⟨_, wideRun.journal.drop 5, ?_, hcount⟩
  rw [← hget, ← List.drop_eq_getElem_cons, List.take_append_drop]

theorem groups_run_wideRun :
    (∃ tiles, lastGroup.tiles wideSequence wideFrame = .ok tiles ∧ tiles.length ≤ maxTiles) ∧
      ∃ before rest, wideRun.journal = before ++ .called .endFrame (.ok ()) :: rest ∧
        ∃ (earlier : List (Entry Nat)) (started : Picture Nat)
          (groups : List (Bytes × List Tile)),
          before = earlier ++ .called (.startFrame started) (.ok ()) :: groups.map Entry.taken ∧
            (∀ group ∈ groups, group.2.length ≤ maxTiles) ∧
            (groups.flatMap Prod.snd).length ≤ maxTiles * groups.length := by
  obtain ⟨tiles, htiles⟩ := lastGroup_tiles
  obtain ⟨before, rest, hsplit, -⟩ := wideRun_split
  obtain ⟨hgroups, hframes⟩ := groups_run ({} : Script) 0 [.decode Script.backend widePacket]
  obtain ⟨earlier, started, groups, hbefore, hmost, -, hcount, -⟩ := hframes _ _ _ hsplit
  exact ⟨⟨tiles, htiles, (hgroups htiles).2.1⟩, before, rest, hsplit, earlier, started, groups,
    hbefore, hmost, hcount⟩

/-- Tiles can have greater numbers, and frames can have more tiles, than a group can have: the last
    of 129 tiles comes in a group of its own. -/
theorem not_tiles_le_maxTiles :
    (¬ ∀ {group : TileGroup} {sequence : Sequence} {header : Header} {tiles : List Tile},
      group.tiles sequence header = .ok tiles → group.last < maxTiles) ∧
    ¬ ∀ (requests : List (Request Script Nat)) (before : List (Entry Nat))
        (answer : Except BackendError Unit) (rest : List (Entry Nat)) (frame : OpenFrame),
      (session.run requests).journal = before ++ .called .endFrame answer :: rest →
        after before = some frame → frame.tiles.length ≤ maxTiles := by
  constructor
  · intro h
    obtain ⟨tiles, htiles⟩ := lastGroup_tiles
    exact absurd (h htiles) (by decide)
  · intro h
    obtain ⟨before, rest, hsplit, hcount⟩ := wideRun_split
    obtain ⟨frame, hframe, hlength⟩ := Option.map_eq_some_iff.mp hcount
    have hmost := h [.decode Script.backend widePacket] before _ rest frame hsplit hframe
    rw [hlength] at hmost
    exact absurd hmost (by decide)

end Session

end Av1Frames
