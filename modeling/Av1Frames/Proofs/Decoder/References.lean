import Av1Frames.Decoder.Scripted
import Av1Frames.Proofs.Decoder.History

namespace Av1Frames

variable {β S : Type} {d d' : Decoder S} {journal entries : List (Entry S)} {stamps : Timestamps}
  {r : Outcome DecodeError Unit}

/-- The picture is the frame that the backend has started last. -/
def Continues (journal : List (Entry S)) (picture : CurrentPicture S) : Prop :=
  ∃ started, (historyOf journal).opened = some started ∧ OpenedBy journal started ∧
    started.header = picture.header ∧
    picture.frame = .ofHeader started.header started.surface started.state

theorem Continues.decodeTiles {picture : CurrentPicture S} (h : Continues journal picture)
    (data : Bytes) (tiles : List Tile) (tilesDecoded : Nat) :
    Continues (journal ++ [.called (.decodeTiles data tiles) (.ok ())])
      { picture with tilesDecoded } := by
  obtain ⟨started, hopened, hstarted, hheader, hframe⟩ := h
  refine ⟨started, ?_, hstarted.decodeTiles data tiles, hheader, hframe⟩
  rw [historyOf_snoc]
  exact hopened

/-- The slots of a decoder and its picture in progress are those of its journal. -/
structure Decoder.Follows (d : Decoder S) (journal : List (Entry S)) : Prop where
  remembers : Remembers d.references journal
  continues : ∀ picture, d.picture = some picture → Continues journal picture

namespace Remembers

variable {references : FrameSlots S}

/-- Nothing more is to be said while there is no picture in progress. -/
theorem follows (h : Remembers references journal) (hreferences : d.references = references)
    (hpicture : d.picture = none) : d.Follows journal where
  remembers := hreferences ▸ h
  continues _ hsome := nomatch hpicture.symm.trans hsome

theorem givenUp (h : Remembers references journal) (hreferences : d.references = references)
    (hpicture : d.picture = none) : d.Follows (journal ++ [.failed]) :=
  follows (h.forgettable_snoc (show Entry.Forgettable .failed from trivial)) hreferences hpicture

/-- A unit that fails before a frame is started or shown changes no slot. -/
theorem failed (h : Remembers references journal) (hentries : ∀ entry ∈ entries, entry.Forgettable)
    (hreferences : d.references = references) (hpicture : d.picture = none) :
    d.Follows (journal ++ entries ++ [.failed]) :=
  (h.forgettable hentries).givenUp hreferences hpicture

end Remembers

theorem SequenceEnding.follows {s : Sequence} (h : SequenceEnding d s r entries d')
    (hd : d.Follows journal) : d'.Follows (journal ++ entries ++ failureMark r) := by
  cases h with
  | repeated => exact Preserved.skipped hd
  | formatless => exact hd.remembers.failed (List.forall_mem_nil _) rfl rfl
  | unsupported => exact hd.remembers.failed (List.forall_mem_nil _) rfl rfl
  | failed _ hcause =>
    refine hd.remembers.failed (fun entry hentry => ?_) rfl rfl
    obtain ⟨info, answer, rfl⟩ := hcause.changeStream entry hentry
    trivial
  | taken hpicture =>
    rw [failureMark, List.append_nil]
    exact Remembers.follows (hd.remembers.forgettable_snoc trivial) rfl hpicture

theorem Decoder.Starts.remembers {header : Header} {started : Picture S}
    (h : d.Starts header started) (hd : d.Follows journal) (answer : Except BackendError Unit) :
    Remembers d.references (journal ++ [.called (.startFrame started) answer]) :=
  hd.remembers.startFrame_snoc answer h.references_eq (h.header_eq ▸ h.state)

theorem HeaderEnding.follows {header : Header} {r : Outcome DecodeError Bool}
    (h : HeaderEnding d header stamps r entries d') (hd : d.Follows journal) :
    d'.Follows (journal ++ entries ++ failureMark (r.map fun _ => ())) := by
  cases h with
  | waiting => exact Preserved.skipped hd
  | rejected => exact hd.remembers.failed (List.forall_mem_nil _) rfl rfl
  | shown hpicture _ _ hframe =>
    rw [Except.map, failureMark, List.append_nil]
    exact (hd.remembers.shown_snoc hframe).follows rfl hpicture
  | uncounted _ hframe => exact (hd.remembers.shown_snoc hframe).givenUp rfl rfl
  | failed => exact hd.remembers.failed (List.forall_mem_nil _) rfl rfl
  | refused hstarts => exact (hstarts.remembers hd _).givenUp rfl rfl
  | @started started hstarts =>
    rw [Except.map, failureMark, List.append_nil]
    refine ⟨hstarts.remembers hd _, fun picture hpicture => ?_⟩
    obtain rfl := Option.some.inj hpicture
    refine ⟨started, ?_, openedBy_start journal started, hstarts.header_eq, ?_⟩
    · rw [historyOf_snoc]
      rfl
    · rw [hstarts.header_eq]

/-- A picture enters the slots when the backend has ended its frame, and not otherwise. -/
theorem FinishEnding.follows {picture : CurrentPicture S}
    (h : FinishEnding d picture stamps r entries d') (hd : Remembers d.references journal)
    (hpicture : d.picture = none) (hcontinues : Continues journal picture) :
    d'.Follows (journal ++ entries ++ failureMark r) := by
  obtain ⟨started, hopened, hstarted, hheader, hframe⟩ := hcontinues
  have hfinished := hd.endFrame_snoc hopened hstarted
  rw [← hframe, hheader] at hfinished
  cases h with
  | refused => exact (hd.endFrame_refused_snoc hopened hstarted _).givenUp rfl rfl
  | finished =>
    rw [failureMark, List.append_nil]
    exact hfinished.follows rfl hpicture
  | uncounted => exact hfinished.givenUp rfl rfl

theorem TilesEnding.follows {group : TileGroup} (h : TilesEnding d group stamps r entries d')
    (hd : d.Follows journal) : d'.Follows (journal ++ entries ++ failureMark r) := by
  cases h with
  | waiting => exact Preserved.skipped hd
  | failed hentries =>
    refine hd.remembers.failed (fun entry hentry => ?_) rfl rfl
    obtain ⟨tiles, answer, rfl⟩ := hentries entry hentry
    trivial
  | @taken info picture tiles _ hpicture =>
    rw [failureMark, List.append_nil]
    refine ⟨hd.remembers.forgettable_snoc trivial, fun picture' hpicture' => ?_⟩
    obtain rfl := Option.some.inj hpicture'
    exact (hd.continues picture hpicture).decodeTiles group.data tiles _
  | @completed info picture tiles _ entries _ _ hpicture _ hfinish =>
    rw [← List.singleton_append, ← List.append_assoc]
    exact hfinish.follows (hd.remembers.forgettable_snoc trivial) rfl
      ((hd.continues picture hpicture).decodeTiles group.data tiles _)

theorem follows_preserved : Preserved (Decoder.Follows (S := S)) where
  abandoned h := h.remembers.givenUp rfl rfl
  sequence h hd := h.follows hd
  header h _ hd := h.follows hd
  tiles h hd := h.follows hd

/-- The frame was started, given nothing but tiles, and ended, always with success. It was resolved
    against the slots of the time when it was started. -/
def CompletedIn (journal : List (Entry S)) (frame : Frame S) : Prop :=
  ∃ before started tiles after,
    journal = before ++ .called (.startFrame started) (.ok ()) :: tiles ++
      .called .endFrame (.ok ()) :: after ∧
    (∀ entry ∈ tiles, ∃ data tiles, entry = .called (.decodeTiles data tiles) (.ok ())) ∧
    started.references = (historyOf before).slots ∧
    FrameState.derive started.sequence started.header (historyOf before).slots.states =
      .ok started.state ∧
    frame = .ofHeader started.header started.surface started.state

theorem CompletedIn.snoc {frame : Frame S} (h : CompletedIn journal frame) (entry : Entry S) :
    CompletedIn (journal ++ [entry]) frame := by
  obtain ⟨before, started, tiles, after, rfl, h⟩ := h
  exact ⟨before, started, tiles, after ++ [entry], by rw [List.append_assoc, List.cons_append], h⟩

/-- A frame that is ended as the journal recalls it was completed. -/
theorem completedIn_of_endFrame {started : Picture S} (hrecalls : EachEntry Entry.Recalls journal)
    (hstarted : OpenedBy journal started) :
    CompletedIn (journal ++ [.called .endFrame (.ok ())])
      (.ofHeader started.header started.surface started.state) := by
  obtain ⟨before, tiles, rfl, htiles⟩ := hstarted
  obtain ⟨hreferences, hstate⟩ := hrecalls before _ tiles rfl
  exact ⟨before, started, tiles, [], rfl, htiles, hreferences, hstate, rfl⟩

theorem History.exists_deposit_of_slot {h : History S} {i : Nat} {frame : Frame S}
    (hslot : h.slot i = some frame) : ∃ x ∈ h.deposits, x.frame = frame := by
  obtain ⟨x, hx, hframe⟩ := Option.map_eq_some_iff.mp hslot
  exact ⟨x, List.mem_of_mem_filter (List.mem_of_getLast? hx), hframe⟩

theorem History.content_slots {h : History S} {i : Nat} {frame : Frame S}
    (hframe : h.slots.content? i = some frame) : h.slot i = some frame := by
  unfold Slots.content? slots at hframe
  by_cases hi : i < 8
  · rwa [Vector.getElem?_eq_getElem hi, Vector.getElem_ofFn] at hframe
  · rw [Vector.getElem?_eq_none (Nat.not_lt.mp hi)] at hframe
    exact nomatch hframe

/-- Only completed frames are put into slots. One that is shown was completed before. -/
theorem completedIn_of_deposit (hrecalls : EachEntry Entry.Recalls journal) :
    ∀ x ∈ (historyOf journal).deposits, CompletedIn journal x.frame := by
  induction journal using List.reverseRecOn with
  | nil => exact List.forall_mem_nil _
  | append_singleton journal entry ih =>
    obtain ⟨hbefore, hentry⟩ := hrecalls.of_snoc
    have hold : ∀ x ∈ (historyOf journal).deposits, CompletedIn (journal ++ [entry]) x.frame :=
      fun x hx => (ih hbefore x hx).snoc entry
    rw [historyOf_snoc]
    cases entry with
    | called call answer =>
      cases call with
      | changeStream => cases answer <;> exact hold
      | startFrame => cases answer <;> exact hold
      | decodeTiles => cases answer <;> exact hold
      | endFrame =>
        cases answer with
        | error e => exact hold
        | ok =>
          obtain ⟨started, hopened, hstarted⟩ := hentry
          rw [History.step, hopened]
          refine List.forall_mem_append.mpr ⟨hold, List.forall_mem_singleton.mpr ?_⟩
          exact completedIn_of_endFrame hbefore hstarted
    | shown header frame =>
      obtain ⟨x, hx, rfl⟩ := History.exists_deposit_of_slot (History.content_slots hentry)
      exact List.forall_mem_append.mpr ⟨hold, List.forall_mem_singleton.mpr (hold x hx)⟩
    | failed => exact hold
    | flushed => exact List.forall_mem_nil _

/-- A header that shows an existing frame makes one entry when it ends well: for the frame in the
    slot that it names. Only while a key frame is awaited it makes none. -/
theorem HeaderEnding.entries_of_showExisting {header : Header} {tilesFollow : Bool}
    (h : HeaderEnding d header stamps (.ok tilesFollow) entries d')
    (hheader : header.showExistingFrame = true) :
    if d.status = .reset then entries = []
    else ∃ frame, d.references.content? header.frameToShowMapIdx = some frame ∧
      entries = [.shown header frame] := by
  cases h with
  | waiting hstatus => rw [if_pos hstatus]
  | shown _ hstatus _ hframe =>
    rw [if_neg hstatus]
    exact ⟨_, hframe, rfl⟩
  | started hstarts => exact nomatch hstarts.regular.symm.trans hheader

theorem Decode.journal_of_showExisting {backend : Backend β S} {header : Header}
    {tilesFollow : Bool} {s s' : Session β S} (hheader : header.showExistingFrame = true)
    (hrun : (frameHeader backend header stamps).run s = (.ok tilesFollow, s')) :
    if s.decoder.status = .reset then s'.journal = s.journal
    else ∃ frame, s.decoder.references.content? header.frameToShowMapIdx = some frame ∧
      s'.journal = s.journal ++ [.shown header frame] := by
  obtain ⟨entries, hjournal, hend⟩ := Leads.ok frameHeader_endsBy hrun
  have hentries := hend.entries_of_showExisting hheader
  split at hentries
  · rename_i hreset
    rw [if_pos hreset, hjournal, hentries, List.append_nil]
  · rename_i hawake
    obtain ⟨frame, hframe, rfl⟩ := hentries
    rw [if_neg hawake]
    exact ⟨frame, hframe, hjournal⟩

namespace Session

theorem follows_handle {s : Session β S} (h : s.decoder.Follows s.journal)
    (request : Request β S) : (s.handle request).decoder.Follows (s.handle request).journal := by
  cases request with
  | decode backend packet => exact follows_preserved.decode h backend packet
  | flush => exact h.remembers.flushed_snoc.follows rfl rfl
  | nextEvent => exact { h with }

-- A key frame fills all slots, and the frame after it replaces it in the second and the third.
example :
    let group : TileGroup := { data := [0], dataSize := 1 }
    let key : Header := { primaryRefFrame := primaryRefNone }
    let inter : Header := { Script.interFrame with refreshFrameFlags := 6 }
    let s := Script.session.run [.decode Script.backend {
      obus := [.sequenceHeader Script.sequence, .frame key group, .frame inter group] }]
    (historyOf s.journal).slots.view Frame.surface =
      #v[some 0, some 1, some 1, some 0, some 0, some 0, some 0, some 0] := by
  decide +kernel

end Session

end Av1Frames
