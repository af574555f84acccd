import Av1Frames.Decoder.Scripted
import Av1Frames.Proofs.Decoder.Ending.Preservation
import Av1Frames.Proofs.Decoder.Reset
import Av1Frames.Proofs.FrameState.HintRange
import Av1Frames.Proofs.Tile.Group

namespace Av1Frames

variable {β S α : Type} {d d' : Decoder S} {journal entries : List (Entry S)} {stamps : Timestamps}
  {r : Outcome DecodeError Unit}

/-- The ranges of the syntax elements of a sequence header. -/
structure Sequence.ElementsInRange (s : Sequence) : Prop extends s.InRange where
  orderHintBits_le : s.orderHintBits ≤ 8

/-- The ranges of the syntax elements of a frame header. Nothing is required of the numbers of
    slots and tiles. -/
structure Header.InRange (header : Header) : Prop where
  orderHint_le : header.orderHint ≤ 255
  sizeBytes_le : header.tileInfo.tileSizeBytesMinus1 ≤ 3
  width_lt : header.tileInfo.uniformSpacing = false →
    ∀ w ∈ header.tileInfo.widthInSbsMinus1, w < 0xFFFFFFFF
  height_lt : header.tileInfo.uniformSpacing = false →
    ∀ h ∈ header.tileInfo.heightInSbsMinus1, h < 0xFFFFFFFF
  warps : header.WarpsInRange

theorem Header.InRange.tileInfo {header : Header} (h : header.InRange)
    (hlayout : TileGroup.validLayout header.tileInfo) : header.tileInfo.InRange := by
  obtain ⟨-, ⟨hcols, hrows⟩, hcolsLog2, hrowsLog2⟩ := TileGroup.validLayout_iff.mp hlayout
  exact ⟨hcols, hrows, hcolsLog2, hrowsLog2, h.sizeBytes_le, h.width_lt, h.height_lt⟩

/-- The ranges of the syntax elements of a unit. Nothing is required of tile groups. -/
structure Obu.InRange (obu : Obu) : Prop where
  spatialId_le : obu.header.spatialId ≤ 3
  sequence : ∀ s, obu = .sequenceHeader s → s.ElementsInRange
  header : ∀ header, obu.frameHeader? = some header → header.InRange

theorem Obu.inRange_sequenceHeader {s : Sequence} (hlayer : s.obuHeader.spatialId ≤ 3)
    (hs : s.ElementsInRange) : (Obu.sequenceHeader s).InRange where
  spatialId_le := hlayer
  sequence _ h := Obu.sequenceHeader.inj h ▸ hs
  header _ h := nomatch h

theorem Obu.inRange_frame {header : Header} (group : TileGroup)
    (hlayer : header.obuHeader.spatialId ≤ 3) (hheader : header.InRange) :
    (Obu.frame header group).InRange where
  spatialId_le := hlayer
  sequence _ h := nomatch h
  header _ h := Option.some.inj h ▸ hheader

/-- The units that a request brings are in range. -/
def Request.InRange : Request β S → Prop
  | .decode _ packet => ∀ obu ∈ packet.obus, obu.InRange
  | .flush | .nextEvent => True

/-- Layers in range have numbers. -/
theorem OperatingPoint.includes_eq_ok (p : OperatingPoint) {h : ObuHeader} (hh : h.spatialId ≤ 3) :
    ∃ included, p.includes h = .ok included := by
  unfold includes
  split
  · exact ⟨true, rfl⟩
  · have hbit : Checked.unsigned (h.spatialId + 8) = .ok (h.spatialId + 8) :=
      Checked.unsigned_eq_ok_iff.mpr (by omega)
    rw [hbit, ok_bind]
    exact ⟨_, rfl⟩

/-- The backend has ended a frame, or one was shown from its slot. -/
def Entry.completes : Entry S → Bool
  | .called .endFrame (.ok ()) | .shown _ _ => true
  | _ => false

/-- How many frames were completed or shown. -/
def completed (journal : List (Entry S)) : Nat := journal.countP Entry.completes

theorem completed_append (journal entries : List (Entry S)) :
    completed (journal ++ entries) = completed journal + completed entries := List.countP_append

/-- What a decoder keeps of its input is in range, and it counts no more frames than completed. -/
structure Decoder.InRange (d : Decoder S) (journal : List (Entry S)) : Prop where
  sequence : ∀ info, d.stream = some info → info.sequence.ElementsInRange
  picture : ∀ picture, d.picture = some picture →
    picture.header.InRange ∧ picture.frame.state.InRange
  references : ∀ i frame, d.references.content? i = some frame → frame.state.InRange
  frameCount_le : d.frameCount ≤ completed journal

namespace Decoder.InRange

theorem initial (operatingPoint : Nat) : ({ operatingPoint } : Decoder S).InRange [] where
  sequence _ h := nomatch h
  picture _ h := nomatch h
  references i _ h := nomatch (Slots.content?_empty i).symm.trans h
  frameCount_le := le_rfl

theorem append (h : d.InRange journal) (entries : List (Entry S)) :
    d.InRange (journal ++ entries) where
  sequence := h.sequence
  picture := h.picture
  references := h.references
  frameCount_le := by
    have hcount := h.frameCount_le
    rw [completed_append]
    omega

theorem withoutPicture (h : d.InRange journal) (entries : List (Entry S)) :
    d.withoutPicture.InRange (journal ++ entries) where
  sequence := h.sequence
  picture _ h := nomatch h
  references := h.references
  frameCount_le := (h.append entries).frameCount_le

theorem pictureTaken (h : d.InRange journal) :
    ({ d with picture := none } : Decoder S).InRange journal where
  sequence := h.sequence
  picture _ h := nomatch h
  references := h.references
  frameCount_le := h.frameCount_le

theorem awake (h : d.InRange journal) : d.awake.InRange journal :=
  ⟨h.sequence, h.picture, h.references, h.frameCount_le⟩

theorem states (h : d.InRange journal) : d.references.states.InRange := by
  intro i state hstate
  rw [FrameSlots.states, Slots.content?_view] at hstate
  obtain ⟨frame, hframe, rfl⟩ := Option.map_eq_some_iff.mp hstate
  exact h.references i frame hframe

theorem withShown (h : d.InRange journal) {header : Header} {frame : Frame S}
    (hframe : d.references.content? header.frameToShowMapIdx = some frame) :
    (d.withShown header frame stamps).InRange journal where
  sequence := h.sequence
  picture := h.picture
  references := by
    unfold Decoder.withShown
    dsimp only
    split
    · exact Slots.forall_content?_refresh h.references (h.references _ _ hframe) _
    · exact h.references
  frameCount_le := h.frameCount_le

theorem withFinished (h : d.InRange journal) {picture : CurrentPicture S}
    (hstate : picture.frame.state.InRange) :
    (d.withFinished picture stamps).InRange journal where
  sequence := h.sequence
  picture := h.picture
  references := Slots.forall_content?_refresh h.references hstate _
  frameCount_le := h.frameCount_le

theorem frameCount_lt (h : d.InRange journal) {entry : Entry S} (hentry : entry.completes = true) :
    d.frameCount < completed (journal ++ [entry]) := by
  rw [completed_append, completed, completed, List.countP_singleton, if_pos hentry]
  exact Nat.lt_succ_of_le h.frameCount_le

/-- A frame is counted with the entry that completes it. -/
theorem counted (h : d.InRange journal) {entry : Entry S} (hentry : entry.completes = true) :
    d.counted.InRange (journal ++ [entry]) where
  sequence := h.sequence
  picture := h.picture
  references := h.references
  frameCount_le := h.frameCount_lt hentry

end Decoder.InRange

theorem SequenceEnding.inRange {s : Sequence} (h : SequenceEnding d s r entries d')
    (hs : s.ElementsInRange) (hd : d.InRange journal) :
    d'.InRange (journal ++ entries ++ failureMark r) := by
  rw [List.append_assoc]
  cases h with
  | repeated => exact hd.append _
  | formatless => exact { hd.withoutPicture _ with sequence := fun _ h => nomatch h }
  | unsupported => exact { hd.withoutPicture _ with }
  | failed => exact hd.withoutPicture _
  | taken _ hsequence =>
    refine { hd.append _ with sequence := fun info hinfo => ?_ }
    obtain rfl := Option.some.inj hinfo
    exact hsequence ▸ hs

theorem HeaderEnding.inRange {header : Header} {r : Outcome DecodeError Bool}
    (h : HeaderEnding d header stamps r entries d') (hheader : header.InRange)
    (hd : d.InRange journal) :
    d'.InRange (journal ++ entries ++ failureMark (r.map fun _ => ())) := by
  cases h with
  | waiting => exact PreservedBy.skipped hd
  | rejected => exact (hd.append _).withoutPicture _
  | shown _ _ _ hframe =>
    rw [Except.map, failureMark, List.append_nil]
    exact (hd.withShown hframe).counted rfl
  | uncounted _ hframe => exact ((hd.withShown hframe).append _).withoutPicture _
  | failed => exact (hd.append _).awake.withoutPicture _
  | refused => exact (hd.append _).awake.withoutPicture _
  | started hstarts =>
    rw [Except.map, failureMark, List.append_nil]
    refine { (hd.append _).awake with picture := fun picture hpicture => ?_ }
    obtain rfl := Option.some.inj hpicture
    exact ⟨hheader, FrameState.derive_inRange hd.states hheader.orderHint_le hheader.warps
      hstarts.state⟩

theorem FinishEnding.inRange {picture : CurrentPicture S}
    (h : FinishEnding d picture stamps r entries d') (hstate : picture.frame.state.InRange)
    (hd : d.InRange journal) : d'.InRange (journal ++ entries ++ failureMark r) := by
  cases h with
  | refused => exact (hd.append _).withoutPicture _
  | finished =>
    rw [failureMark, List.append_nil]
    exact (hd.withFinished hstate).counted rfl
  | uncounted => exact ((hd.withFinished hstate).append _).withoutPicture _

theorem TilesEnding.inRange {group : TileGroup} (h : TilesEnding d group stamps r entries d')
    (hd : d.InRange journal) : d'.InRange (journal ++ entries ++ failureMark r) := by
  cases h with
  | waiting => exact PreservedBy.skipped hd
  | failed => exact (hd.append _).withoutPicture _
  | @taken info picture tiles _ hpicture =>
    rw [failureMark, List.append_nil]
    refine { hd.append _ with picture := fun picture' hpicture' => ?_ }
    obtain rfl := Option.some.inj hpicture'
    exact hd.picture picture hpicture
  | completed _ hpicture _ hfinish =>
    rw [← List.singleton_append, ← List.append_assoc]
    exact hfinish.inRange (hd.picture _ hpicture).2 (hd.append _).pictureTaken

theorem inRange_preserved (stamps : Timestamps) :
    PreservedBy stamps Obu.InRange (Decoder.InRange (S := S)) where
  abandoned h := h.withoutPicture _
  sequence h hobu := h.inRange (hobu.sequence _ rfl)
  header h hadmits := by
    obtain ⟨obu, hobu, hheader⟩ := hadmits.unit
    exact h.inRange (hobu.header _ hheader)
  tiles h := h.inRange

namespace Decode

variable {backend : Backend β S} {s : Session β S}

/-- A failure that is no fault, unless more frames are completed then than can be counted. -/
def Tolerated (e : Failure DecodeError) (s : Session β S) : Prop :=
  ∀ f, e = .fault f → 0x100000000 ≤ completed s.journal

theorem Tolerated.error {e : DecodeError} : Tolerated (.error e) s := nofun

/-- From `s` the computation runs into no fault, unless more frames are completed then than can be
    counted. -/
def Faultless (m : Decode β S α) (s : Session β S) : Prop :=
  Leads m s (fun _ _ => True) Tolerated

/-- A computation outside the session that does not fault is no source of faults. -/
theorem ofOutcome_bind_faultless {ε γ : Type} {x : Outcome ε γ} {f : ε → DecodeError}
    {m : γ → Decode β S α} (hx : x.Faultless) (hm : ∀ a, x = .ok a → Faultless (m a) s) :
    Faultless (ofOutcome f x >>= m) s := by
  rw [Faultless, leads_bind]
  cases x with
  | ok a => exact leads_of_run rfl (hm a rfl)
  | error e =>
    refine leads_throw.mpr ?_
    cases e with
    | fault f => exact absurd rfl (hx f)
    | error e => exact Tolerated.error

theorem sequenceHeader_faultless {sequence : Sequence} (hsequence : sequence.ElementsInRange) :
    Faultless (sequenceHeader backend sequence) s := by
  rw [Faultless, sequenceHeader, leads_bind, leads_decoder]
  refine leads_ite (fun _ => leads_pure.mpr trivial) fun _ => ?_
  dsimp only
  refine leads_ite (fun _ => leads_bind.mpr (leads_fail.mpr .error)) fun _ => ?_
  split
  · exact leads_bind.mpr (leads_update.mpr (leads_fail.mpr .error))
  rw [leads_bind, leads_get]
  refine leads_ite (fun _ => ?_) fun _ => ?_
  · exact leads_bind.mpr (leads_update.mpr (leads_bind.mpr (leads_fail.mpr .error)))
  refine leads_checked_bind hsequence.codedResolution ?_
  rw [leads_bind]
  refine leads_call (fun _ _ => ?_) fun _ _ _ => .error
  refine leads_checked_bind
    (sequence.selectedPoint s.decoder.operatingPoint).highestSpatialLayer?_eq_ok ?_
  rw [leads_bind, leads_update, leads_bind, queue, leads_update, leads_bind, leads_decoder]
  exact leads_ite (fun _ => leads_update.mpr trivial) fun _ => leads_pure.mpr trivial

/-- A frame can be counted that was completed, unless too many were. -/
theorem countFrame_faultless (hcount : s.decoder.frameCount < completed s.journal) :
    Faultless (countFrame : Decode β S Unit) s :=
  leads_countFrame (fun _ => trivial) fun hmany _ _ => (Nat.succ_le_succ hmany).trans hcount

theorem showExisting_faultless {header : Header} {stamps : Timestamps}
    (hs : s.decoder.InRange s.journal) :
    Faultless (showExisting header stamps : Decode β S Unit) s := by
  rw [Faultless, showExisting, leads_bind, leads_decoder]
  dsimp only
  split
  · rename_i frame _
    have hcount : s.decoder.frameCount < completed (s.journal ++ [.shown header frame]) :=
      hs.frameCount_lt rfl
    rw [leads_bind, leads_note, leads_bind, leads_output]
    refine leads_ite (fun _ => ?_) fun _ => countFrame_faultless hcount
    rw [leads_bind, leads_update, leads_bind, leads_enter]
    exact countFrame_faultless hcount
  · exact leads_fail.mpr .error

theorem beginFrame_faultless {info : StreamInfo} {header : Header} {stamps : Timestamps}
    (hinfo : info.sequence.ElementsInRange) (hheader : header.InRange)
    (hs : s.decoder.InRange s.journal) : Faultless (beginFrame backend info header stamps) s := by
  rw [Faultless, beginFrame, leads_bind, leads_enter]
  have hs' : ({ s.decoder with phase := .headerParsed } : Decoder S).InRange s.journal :=
    { hs with }
  refine leads_ite (fun _ => ?_) fun _ => ?_
  · rw [leads_bind]
    refine (showExisting_faultless hs').mono (fun _ _ _ => ?_) fun _ _ h => h
    exact leads_bind.mpr (leads_enter.mpr (leads_pure.mpr trivial))
  rw [leads_bind]
  refine leads_allocate (fun _ _ _ => ?_) fun _ _ => .error
  rw [leads_bind, leads_enter, leads_bind, leads_decoder]
  refine ofOutcome_bind_faultless (FrameState.derive_faultless hinfo.orderHintBits_le hs.states
    hheader.orderHint_le hheader.warps) fun state _ => ?_
  rw [Faultless, leads_bind]
  refine leads_call (fun _ _ => ?_) fun _ _ _ => .error
  rw [leads_bind, leads_enter, leads_bind, leads_update]
  exact leads_pure.mpr trivial

theorem frameHeader_faultless {header : Header} {stamps : Timestamps} (hheader : header.InRange)
    (hs : s.decoder.InRange s.journal) : Faultless (frameHeader backend header stamps) s := by
  rw [Faultless, frameHeader_eq, leads_bind, leads_decoder]
  split
  · rename_i info hstream
    have hinfo := hs.sequence info hstream
    refine leads_ite (fun _ => leads_bind.mpr (leads_fail.mpr .error)) fun _ => ?_
    refine leads_ite (fun _ => leads_ite (fun _ => leads_pure.mpr trivial) fun _ => ?_) fun _ =>
      beginFrame_faultless hinfo hheader hs
    exact leads_bind.mpr (leads_update.mpr (beginFrame_faultless hinfo hheader { hs with }))
  · exact leads_fail.mpr .error

theorem finish_faultless {picture : CurrentPicture S} {stamps : Timestamps}
    (hs : s.decoder.InRange s.journal) : Faultless (finish backend picture stamps) s := by
  have hcount : s.decoder.frameCount < completed (s.journal ++ [.called .endFrame (.ok ())]) :=
    hs.frameCount_lt rfl
  exact leads_finish_cases (fun _ _ _ => .error) (fun _ _ _ => trivial)
    fun _ _ hmany _ _ => (Nat.succ_le_succ hmany).trans hcount

/-- The tiles of a frame are few enough to be counted. -/
theorem tileGroup_faultless {group : TileGroup} {stamps : Timestamps}
    (hs : s.decoder.InRange s.journal) : Faultless (tileGroup backend group stamps) s := by
  rw [Faultless, tileGroup_eq, leads_bind, leads_decoder]
  dsimp only
  split
  · rename_i info hstream
    split
    · rename_i picture hpicture
      obtain ⟨hheader, -⟩ := hs.picture picture hpicture
      refine leads_ite (fun _ => leads_bind.mpr (leads_fail.mpr .error)) fun hfirst => ?_
      rw [not_not] at hfirst
      have hfound : (group.tiles info.sequence picture.header).Faultless :=
        TileGroup.tiles_faultless_of_layout (hs.sequence info hstream).toInRange hheader.tileInfo
      refine ofOutcome_bind_faultless hfound fun tiles htiles => ?_
      obtain ⟨htotal, hnext, hend⟩ := TileGroup.next_of_tiles hfirst htiles
      exact leads_takeTiles htotal (hnext.trans_le hend) (fun _ _ _ => .error)
        (fun _ _ _ => trivial) fun _ _ _ => finish_faultless (hs.append _).pictureTaken
    · exact leads_ite (fun _ => leads_pure.mpr trivial) fun _ => leads_fail.mpr .error
  · exact leads_fail.mpr .error

theorem dispatch_faultless {obu : Obu} {stamps : Timestamps} (hobu : obu.InRange)
    (hadmits : ∀ header, obu.frameHeader? = some header → s.decoder.Admits Obu.InRange header)
    (hs : s.decoder.InRange s.journal) : Faultless (dispatch backend obu stamps) s := by
  have hheader {header : Header} (h : obu.frameHeader? = some header) :
      Faultless (do let _ ← frameHeader backend header stamps : Decode β S Unit) s := by
    rw [Faultless, leads_bind]
    exact (frameHeader_faultless (hobu.header header h) hs).mono
      (fun _ _ _ => leads_pure.mpr trivial) fun _ _ h => h
  cases obu with
  | sequenceHeader sequence => exact sequenceHeader_faultless (hobu.sequence sequence rfl)
  | frameHeader header => exact hheader rfl
  | redundantFrameHeader header =>
    rw [dispatch, Faultless, leads_bind, leads_decoder]
    exact leads_ite (fun _ => hheader rfl) fun _ => leads_pure.mpr trivial
  | tileGroup group => exact tileGroup_faultless hs
  | frame header group =>
    rw [dispatch, Faultless, leads_bind]
    -- What the header leaves is in range again for the tiles that follow it.
    refine (frameHeader_endsBy.and (frameHeader_faultless (hobu.header header rfl) hs)).mono
      (fun tilesFollow s₁ hstarted => ?_) fun _ _ h => h.2
    obtain ⟨⟨first, hjournal, hending⟩, -⟩ := hstarted
    refine leads_ite (fun hfollow => ?_) fun _ => leads_pure.mpr trivial
    subst hfollow
    have hs₁ := (inRange_preserved stamps).started hending (hadmits header rfl) hs
    rw [← hjournal] at hs₁
    exact tileGroup_faultless hs₁
  | tileList => exact leads_fail.mpr .error
  | temporalDelimiter | metadata | padding | reserved => exact leads_pure.mpr trivial

theorem admitted_faultless {obu : Obu} {stamps : Timestamps} (hobu : obu.InRange)
    (hincluded : s.decoder.Includes obu.header) (hs : s.decoder.InRange s.journal) :
    Faultless (admitted backend obu stamps) s := by
  have hdispatch
      (hstatus : ∀ format, s.decoder.status = .unsupported format → ∃ h, obu = .sequenceHeader h) :
      Faultless (dispatch backend obu stamps) s :=
    dispatch_faultless hobu (fun _ => hincluded.admits hstatus hobu) hs
  unfold Faultless admitted
  rw [leads_bind, leads_decoder]
  cases hstatus : s.decoder.status with
  | unsupported format =>
    refine leads_ite (fun _ => leads_bind.mpr (leads_fail.mpr .error)) fun hsequence => ?_
    refine hdispatch fun _ _ => ?_
    cases obu with
    | sequenceHeader sequence => exact ⟨sequence, rfl⟩
    | _ => exact absurd rfl hsequence
  | awaitingStream | decoding | reset =>
    refine hdispatch fun format hformat => ?_
    rw [hstatus] at hformat
    cases hformat

theorem unit_faultless {obu : Obu} {stamps : Timestamps} (hobu : obu.InRange)
    (hs : s.decoder.InRange s.journal) : Faultless (unit backend obu stamps) s := by
  rw [Faultless, unit_eq, leads_bind, inOperatingPoint, leads_bind, leads_decoder]
  split
  · rename_i hstream
    refine leads_pure.mpr (admitted_faultless hobu (fun info hinfo => ?_) hs)
    rw [hstream] at hinfo
    cases hinfo
  · rename_i info hstream
    obtain ⟨included, hincluded⟩ := (info.sequence.selectedPoint
      s.decoder.operatingPoint).includes_eq_ok hobu.spatialId_le
    refine leads_checked_of_ok hincluded (leads_ite (fun _ => leads_pure.mpr trivial) fun h => ?_)
    rw [Bool.not_eq_true', Bool.not_eq_false] at h
    subst h
    refine admitted_faultless hobu (fun info' hinfo => ?_) hs
    obtain rfl := Option.some.inj (hstream.symm.trans hinfo)
    exact hincluded

theorem units_faultless {obus : List Obu} {stamps : Timestamps} (hobus : ∀ obu ∈ obus, obu.InRange)
    (hs : s.decoder.InRange s.journal) : Faultless (units backend stamps obus) s := by
  induction obus generalizing s with
  | nil => exact leads_pure.mpr trivial
  | cons obu rest ih =>
    obtain ⟨hobu, hrest⟩ := List.forall_mem_cons.mp hobus
    rw [Faultless, units, leads_bind]
    refine (unit_endsBy.and (unit_faultless hobu hs)).mono (fun _ s₁ hunit => ?_) fun _ _ h => h.2
    obtain ⟨⟨first, hjournal, hending⟩, -⟩ := hunit
    have hs₁ := (inRange_preserved stamps).unit hending hobu hs
    rw [failureMark, List.append_nil, ← hjournal] at hs₁
    exact ih hrest hs₁

end Decode

namespace Session

variable {s : Session β S} {request : Request β S}

theorem inRange_handle (hs : s.decoder.InRange s.journal) (hrequest : request.InRange) :
    (s.handle request).decoder.InRange (s.handle request).journal := by
  cases request with
  | decode backend packet => exact (inRange_preserved packet.stamps).decode hrequest hs
  | flush =>
    exact {
      sequence := hs.sequence
      picture := fun _ h => nomatch h
      references := fun i _ h => nomatch (Slots.content?_empty i).symm.trans h
      frameCount_le := (hs.append _).frameCount_le }
  | nextEvent => exact { hs with }

theorem inRange_run (hs : s.decoder.InRange s.journal) {requests : List (Request β S)}
    (hrequests : ∀ request ∈ requests, request.InRange) :
    (s.run requests).decoder.InRange (s.run requests).journal := by
  induction requests generalizing s with
  | nil => exact hs
  | cons request requests ih =>
    obtain ⟨hrequest, hrest⟩ := List.forall_mem_cons.mp hrequests
    exact ih (inRange_handle hs hrequest) hrest

theorem completed_of_fault (hs : s.decoder.InRange s.journal) (hrequest : request.InRange)
    {f : Fault} (hfault : s.outcome request = .error (.fault f)) :
    0x100000000 ≤ completed (s.handle request).journal := by
  cases request with
  | decode backend packet =>
    have hunits : Decode.Faultless (Decode.units backend packet.stamps packet.obus) s :=
      Decode.units_faultless hrequest hs
    refine decode_of_leads packet (R := fun r s' => r = .error (.fault f) →
      0x100000000 ≤ completed s'.journal) (Leads.mono hunits ?_ ?_) hfault
    · rintro _ _ - hok
      cases hok
    · rintro _ s' hmany hfault
      have hcount := hmany f (Except.error.inj hfault)
      exact hcount.trans (List.prefix_append s'.journal [.failed]).sublist.countP_le
  | flush | nextEvent => cases hfault

/-- Whatever requests a decoder gets that are in range, and however its backend answers, none of
    them runs into a fault while fewer frames are completed than can be counted. -/
theorem faultless_run (backend : β) (operatingPoint : Nat) {requests : List (Request β S)}
    (hrequests : ∀ request ∈ requests, request.InRange)
    (hframes : completed ((start backend operatingPoint).run requests).journal < 0x100000000) :
    ∀ before request after, requests = before ++ request :: after →
      ∀ f, ((start backend operatingPoint).run before).outcome request ≠ .error (.fault f) := by
  rintro before request after rfl f hfault
  obtain ⟨hbefore, hrest⟩ := List.forall_mem_append.mp hrequests
  have hs := inRange_run (s := start backend operatingPoint) (.initial operatingPoint) hbefore
  have hmany := completed_of_fault hs (List.forall_mem_cons.mp hrest).1 hfault
  -- What was completed by then is among all that was completed.
  have hprefix := prefix_journal_run (((start backend operatingPoint).run before).handle request)
    after
  have hrun : (((start backend operatingPoint).run before).handle request).run after =
      (start backend operatingPoint).run (before ++ request :: after) := by
    rw [run, run, run, List.foldl_append]
    rfl
  rw [hrun] at hprefix
  exact absurd (hmany.trans hprefix.sublist.countP_le) (Nat.not_le.mpr hframes)

/-- A key frame, a flush, and then another key frame with one that is compared to it. -/
theorem faultless_run_flushed :
    let sequence : Sequence :=
      { Script.sequence with enableOrderHint := true, orderHintBits := 8 }
    let key : Header := { primaryRefFrame := primaryRefNone, orderHint := 255 }
    let inter : Header := { Script.interFrame with orderHint := 1, referenceSelect := true }
    let group : TileGroup := { data := [0], dataSize := 1 }
    let requests : List (Request Script Nat) := [
      .decode Script.backend { obus := [.sequenceHeader sequence, .frame key group] }, .flush,
      .decode Script.backend { obus := [.frame key group, .frame inter group] }]
    (∀ request ∈ requests, request.InRange) ∧
      completed (Script.session.run requests).journal = 3 ∧
      ∀ before request after, requests = before ++ request :: after →
        ∀ f, (Script.session.run before).outcome request ≠ .error (.fault f) := by
  intro sequence key inter group requests
  have hsequence : (Obu.sequenceHeader sequence).InRange :=
    Obu.inRange_sequenceHeader (by decide) ⟨⟨by decide, by decide⟩, by decide⟩
  have hkey : (Obu.frame key group).InRange := Obu.inRange_frame group (by decide)
    ⟨by decide, by decide, fun h => absurd h (by decide), fun h => absurd h (by decide),
      by decide +kernel⟩
  have hinter : (Obu.frame inter group).InRange := Obu.inRange_frame group (by decide)
    ⟨by decide, by decide, fun h => absurd h (by decide), fun h => absurd h (by decide),
      by decide +kernel⟩
  have hrequests : ∀ request ∈ requests, request.InRange := by
    simp only [requests, List.forall_mem_cons, Request.InRange]
    exact ⟨⟨hsequence, hkey, List.forall_mem_nil _⟩, trivial, ⟨hkey, hinter, List.forall_mem_nil _⟩,
      List.forall_mem_nil _⟩
  have hframes : completed (Script.session.run requests).journal = 3 := by decide +kernel
  refine ⟨hrequests, hframes, ?_⟩
  rw [Script.session] at hframes ⊢
  exact faultless_run ({} : Script) 0 hrequests (by rw [hframes]; decide)

end Session

end Av1Frames
