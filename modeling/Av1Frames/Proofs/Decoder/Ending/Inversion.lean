import Av1Frames.Proofs.Decoder.Ending
import Av1Frames.Proofs.Decoder.Session
import Av1Frames.Proofs.Tile.Group

namespace Av1Frames

variable {β S : Type}

open Decoder

namespace OperatingPoint

/-- The highest spatial layer that an operating point selects, if it selects any by number. -/
def topLayer (p : OperatingPoint) : Option Nat :=
  if p.idc >>> 8 = 0 then none else some (p.idc >>> 8).log2

/-- There are layers where the highest one is looked for. -/
theorem highestSpatialLayer?_eq_ok (p : OperatingPoint) :
    p.highestSpatialLayer? = .ok p.topLayer := by
  unfold highestSpatialLayer? topLayer floorLog2
  dsimp only
  split
  · rfl
  · rfl

end OperatingPoint

namespace Decode

variable {α : Type} {backend : Backend β S} {s : Session β S}

/-- From `s` the computation ends in one of the ways that `R` lists. Of the decoder after a failure
    the picture in progress does not count: it is given up in any case. -/
def EndsBy (m : Decode β S α) (s : Session β S)
    (R : Outcome DecodeError α → List (Entry S) → Decoder S → Prop) : Prop :=
  Leads m s
    (fun a s' => ∃ entries, s'.journal = s.journal ++ entries ∧ R (.ok a) entries s'.decoder)
    fun e s' => ∃ entries, s'.journal = s.journal ++ entries ∧
      R (.error e) entries s'.decoder.withoutPicture

/-- Nothing was entered into the journal. -/
theorem exists_no_entries {journal : List (Entry S)} {P : List (Entry S) → Prop} (h : P []) :
    ∃ entries, journal = journal ++ entries ∧ P entries :=
  ⟨[], (List.append_nil _).symm, h⟩

/-- What a computation enters comes after what was entered before it. -/
theorem EndsBy.leads {m : Decode β S α} {s₁ : Session β S} {first : List (Entry S)}
    {R R' : Outcome DecodeError α → List (Entry S) → Decoder S → Prop} (h : EndsBy m s₁ R)
    (hfirst : s₁.journal = s.journal ++ first)
    (hR : ∀ r entries d, R r entries d → R' r (first ++ entries) d) :
    Leads m s₁
      (fun a s' => ∃ entries, s'.journal = s.journal ++ entries ∧ R' (.ok a) entries s'.decoder)
      fun e s' => ∃ entries, s'.journal = s.journal ++ entries ∧
        R' (.error e) entries s'.decoder.withoutPicture := by
  have happend {entries journal : List (Entry S)} (hjournal : journal = s₁.journal ++ entries) :
      journal = s.journal ++ (first ++ entries) := by
    rw [hjournal, hfirst, List.append_assoc]
  refine Leads.mono h (fun _ _ ⟨entries, hjournal, h'⟩ => ?_) fun _ _ ⟨entries, hjournal, h'⟩ => ?_
  · exact ⟨_, happend hjournal, hR _ _ _ h'⟩
  · exact ⟨_, happend hjournal, hR _ _ _ h'⟩

theorem EndsBy.mono {m : Decode β S α}
    {R R' : Outcome DecodeError α → List (Entry S) → Decoder S → Prop} (h : EndsBy m s R)
    (hR : ∀ r entries d, R r entries d → R' r entries d) : EndsBy m s R' :=
  h.leads (List.append_nil _).symm hR

theorem EndsBy.bind {γ : Type} {m : Decode β S α} {f : α → Decode β S γ}
    {R : Outcome DecodeError α → List (Entry S) → Decoder S → Prop}
    {R' : Outcome DecodeError γ → List (Entry S) → Decoder S → Prop} (hm : EndsBy m s R)
    (hok : ∀ a first s₁, R (.ok a) first s₁.decoder →
      EndsBy (f a) s₁ fun r entries d => R' r (first ++ entries) d)
    (herror : ∀ e entries d, R (.error e) entries d → R' (.error e) entries d) :
    EndsBy (m >>= f) s R' := by
  rw [EndsBy, leads_bind]
  refine Leads.mono hm (fun a s₁ ⟨first, hfirst, ha⟩ => ?_) fun e s' ⟨entries, hentries, he⟩ => ?_
  · exact (hok a first s₁ ha).leads hfirst fun _ _ _ h => h
  · exact ⟨entries, hentries, herror e entries _ he⟩

theorem leads_output {frame : Frame S} {spatialId : Nat} {stamps : Timestamps}
    {Q : Unit → Session β S → Prop} {E : Failure DecodeError → Session β S → Prop} :
    Leads (output frame spatialId stamps) s Q E ↔
      Q () { s with decoder := { s.decoder with
        events := s.decoder.events ++ s.decoder.outputEvents frame spatialId stamps } } := by
  rw [output, leads_bind, leads_decoder, outputEvents]
  split
  · rw [leads_pure, List.append_nil]
  · exact leads_update

/-- A frame is counted if there is a number left for it. -/
theorem leads_countFrame {Q : Unit → Session β S → Prop}
    {E : Failure DecodeError → Session β S → Prop}
    (hcounted : s.decoder.frameCount < 0xFFFFFFFF → Q () { s with decoder := s.decoder.counted })
    (huncounted : 0xFFFFFFFF ≤ s.decoder.frameCount → E (.fault .overflow) s) :
    Leads countFrame s Q E := by
  rw [countFrame, leads_bind, leads_decoder]
  by_cases hcount : s.decoder.frameCount < 0xFFFFFFFF
  · have hnext : Checked.unsigned (s.decoder.frameCount + 1) = .ok (s.decoder.frameCount + 1) :=
      Checked.unsigned_eq_ok_iff.mpr (by omega)
    exact leads_checked_bind hnext (leads_update.mpr (hcounted hcount))
  · have hnone : Checked.unsigned (s.decoder.frameCount + 1) = .error .overflow :=
      if_neg (by omega)
    rw [hnone]
    exact leads_throw.mpr (huncounted (Nat.le_of_not_lt hcount))

theorem sequenceHeader_endsBy {sequence : Sequence} :
    EndsBy (sequenceHeader backend sequence) s (SequenceEnding s.decoder sequence) := by
  rw [EndsBy, sequenceHeader, leads_bind, leads_decoder]
  refine leads_ite (fun hsame => ?_) fun _ => ?_
  · rw [Bool.and_eq_true, Option.any_eq_true] at hsame
    obtain ⟨⟨info, hstream, hinfo⟩, hstatus⟩ := hsame
    refine leads_pure.mpr (exists_no_entries (.repeated hstream (of_decide_eq_true hinfo) ?_))
    intro format hformat
    simp [hformat] at hstatus
  dsimp only
  refine leads_ite (fun hpicture => ?_) fun hpicture => ?_
  · rw [leads_bind, leads_fail]
    refine exists_no_entries (.failed (fun hnone => ?_) (.withinFrame _))
    simp [hnone] at hpicture
  · rw [Bool.not_eq_true, Option.isSome_eq_false_iff, Option.isNone_iff_eq_none] at hpicture
    split
    · rename_i e hformat
      rw [leads_bind, leads_update, leads_fail]
      exact exists_no_entries (.formatless hpicture hformat)
    · rename_i format hformat
      have hfailed {e : Failure DecodeError} {entries : List (Entry S)}
          (hcause : e.OfSequence entries) :
          SequenceEnding s.decoder sequence (.error e) entries s.decoder.withoutPicture :=
        .failed (fun _ => ⟨format, hformat⟩) hcause
      rw [leads_bind, leads_get]
      refine leads_ite (fun _ => ?_) fun _ => ?_
      · rw [leads_bind, leads_update, leads_bind, leads_fail]
        exact exists_no_entries (.unsupported hpicture hformat)
      · rw [leads_bind]
        refine leads_checked.mpr ⟨fun size hsize => ?_,
          fun f _ => exists_no_entries (hfailed (.fault f))⟩
        rw [leads_bind]
        refine leads_call (fun state _ => ?_) fun e state _ => ⟨_, rfl, hfailed (.refused _ e)⟩
        rw [leads_bind]
        -- The stream that was accepted is taken over: its highest layer can always be told.
        have hfound :=
          (sequence.selectedPoint s.decoder.operatingPoint).highestSpatialLayer?_eq_ok
        refine leads_checked.mpr ⟨fun layer hlayer => ?_, fun f hfault => ?_⟩
        · let info : StreamInfo := { sequence, format, codedResolution := size }
          have htaken : SequenceEnding s.decoder sequence (.ok ())
              [.called (.changeStream info) (.ok ())] (s.decoder.withStream info layer) :=
            .taken hpicture rfl hformat hsize hlayer
          rw [leads_bind, leads_update, leads_bind, queue, leads_update, leads_bind,
            leads_decoder]
          refine leads_ite (fun hstatus => ?_) fun hstatus => ?_
          · rw [leads_update]
            refine ⟨_, rfl, ?_⟩
            rwa [withStream, if_neg hstatus] at htaken
          · rw [leads_pure]
            refine ⟨_, rfl, ?_⟩
            rw [not_not] at hstatus
            rwa [withStream, if_pos hstatus, ← hstatus] at htaken
        · exact nomatch hfound.symm.trans hfault

theorem showExisting_endsBy {header : Header} {stamps : Timestamps} {phase : Phase}
    (hpicture : s.decoder.picture = none) (hstream : ∃ info, s.decoder.stream = some info)
    (hstatus : s.decoder.status ≠ .reset) (hheader : header.showExistingFrame = true) :
    EndsBy (do
      showExisting header stamps
      enter .idle
      return false) { s with decoder := { s.decoder with phase } }
      (HeaderEnding s.decoder header stamps) := by
  rw [EndsBy, leads_bind, showExisting, leads_bind, leads_decoder]
  dsimp only
  split
  · rename_i frame hframe
    have hshown : HeaderEnding s.decoder header stamps (.ok false) [.shown header frame]
        (s.decoder.withShown header frame stamps).counted :=
      .shown hpicture hstatus hheader hframe hstream
    have huncounted (f : Fault) :
        HeaderEnding s.decoder header stamps (.error (.fault f)) [.shown header frame]
          (s.decoder.withShown header frame stamps).withoutPicture :=
      .uncounted hstatus hframe hstream
    unfold withShown at hshown huncounted
    rw [leads_bind, leads_note, leads_bind, leads_output]
    refine leads_ite (fun hkey => ?_) fun hkey => ?_
    · simp only [if_pos hkey] at hshown huncounted
      rw [leads_bind, leads_update, leads_bind, leads_enter]
      refine leads_countFrame (fun _ => ?_) fun _ => ⟨_, rfl, huncounted .overflow⟩
      rw [leads_bind, leads_enter, leads_pure]
      exact ⟨_, rfl, hshown⟩
    · simp only [if_neg hkey] at hshown huncounted
      refine leads_countFrame (fun _ => ?_) fun _ => ⟨_, rfl, huncounted .overflow⟩
      rw [leads_bind, leads_enter, leads_pure]
      exact ⟨_, rfl, hshown⟩
  · exact leads_fail.mpr (exists_no_entries .rejected)

theorem beginFrame_endsBy {info : StreamInfo} {header : Header} {stamps : Timestamps}
    (hpicture : s.decoder.picture = none) (hstream : s.decoder.stream = some info)
    (hawaited : s.decoder.status = .reset →
      header.frameType = .keyFrame ∧ header.showExistingFrame = false) :
    EndsBy (beginFrame backend info header stamps) { s with decoder := s.decoder.awake }
      (HeaderEnding s.decoder header stamps) := by
  rw [EndsBy, beginFrame, leads_bind, leads_enter]
  refine leads_ite (fun hshow => ?_) fun hregular => ?_
  · have hstatus : s.decoder.status ≠ .reset := by
      intro hreset
      rw [(hawaited hreset).2] at hshow
      exact Bool.false_ne_true hshow
    rw [awake, if_neg hstatus]
    exact showExisting_endsBy hpicture ⟨info, hstream⟩ hstatus hshow
  · rw [Bool.not_eq_true] at hregular
    rw [leads_bind]
    refine leads_allocate (fun surface state _ => ?_) fun state _ =>
      exists_no_entries (.failed .noSurface)
    rw [leads_bind, leads_enter, leads_bind, leads_decoder, leads_bind]
    refine leads_ofOutcome (fun state hstate => ?_) fun e => ?_
    · have hstarts : s.decoder.Starts header
          { sequence := info.sequence, header, state, surface,
            references := s.decoder.references } :=
        ⟨hpicture, fun hreset => (hawaited hreset).1, hregular, rfl, ⟨info, hstream, rfl⟩, rfl,
          hstate⟩
      rw [leads_bind]
      refine leads_call (fun _ _ => ?_) fun e _ _ => ⟨_, rfl, .refused hstarts⟩
      rw [leads_bind, leads_enter, leads_bind, leads_update, leads_pure]
      exact ⟨_, rfl, .started hstarts⟩
    · cases e with
      | fault f => exact exists_no_entries (.failed (.fault f))
      | error e => exact exists_no_entries (.failed (.state e))

theorem frameHeader_endsBy {header : Header} {stamps : Timestamps} :
    EndsBy (frameHeader backend header stamps) s (HeaderEnding s.decoder header stamps) := by
  rw [EndsBy, frameHeader_eq, leads_bind, leads_decoder]
  split
  · rename_i info hstream
    refine leads_ite (fun _ => ?_) fun hpicture => ?_
    · rw [leads_bind, leads_fail]
      exact exists_no_entries .rejected
    · rw [Bool.not_eq_true, Option.isSome_eq_false_iff, Option.isNone_iff_eq_none] at hpicture
      refine leads_ite (fun hreset => leads_ite (fun hskip => ?_) fun hkey => ?_) fun hstatus => ?_
      · rw [Bool.or_eq_true, decide_eq_true_eq] at hskip
        exact leads_pure.mpr (exists_no_entries (.waiting hreset hskip))
      · rw [Bool.or_eq_true, decide_eq_true_eq, not_or, not_not, Bool.not_eq_true] at hkey
        have hbegin : EndsBy (beginFrame backend info header stamps) _ _ :=
          beginFrame_endsBy hpicture hstream fun _ => hkey
        rw [leads_bind, leads_update]
        rwa [awake, if_pos hreset] at hbegin
      · have hbegin : EndsBy (beginFrame backend info header stamps) _ _ :=
          beginFrame_endsBy hpicture hstream fun hreset => absurd hreset hstatus
        rwa [awake, if_neg hstatus] at hbegin
  · exact leads_fail.mpr (exists_no_entries .rejected)

/-- Once the backend has accepted the end of a picture, only the count of frames can fail. -/
theorem leads_finish_cases {picture : CurrentPicture S} {stamps : Timestamps}
    {Q : Unit → Session β S → Prop} {E : Failure DecodeError → Session β S → Prop}
    (hrefused : ∀ e state, backend.answer s.backend .endFrame = (.error e, state) →
      E (.error (.backend e)) { s with
        backend := state, journal := s.journal ++ [.called .endFrame (.error e)] })
    (hcounted : ∀ state, backend.answer s.backend .endFrame = (.ok (), state) →
      s.decoder.frameCount < 0xFFFFFFFF → Q () {
        decoder := (s.decoder.withFinished picture stamps).counted
        backend := state
        journal := s.journal ++ [.called .endFrame (.ok ())] })
    (huncounted : ∀ state, backend.answer s.backend .endFrame = (.ok (), state) →
      0xFFFFFFFF ≤ s.decoder.frameCount → E (.fault .overflow) {
        decoder := { s.decoder.withFinished picture stamps with phase := .referencesUpdated }
        backend := state
        journal := s.journal ++ [.called .endFrame (.ok ())] }) :
    Leads (finish backend picture stamps) s Q E := by
  unfold withFinished at hcounted huncounted
  rw [finish, leads_bind]
  refine leads_call (fun state hanswer => ?_) hrefused
  rw [leads_bind, leads_enter, leads_bind, leads_update, leads_bind, leads_enter]
  refine leads_ite (fun hshow => ?_) fun hhide => ?_
  · simp only [if_pos hshow] at hcounted huncounted
    rw [leads_bind, leads_output, leads_bind]
    exact leads_countFrame (fun hcount => leads_enter.mpr (hcounted state hanswer hcount))
      (huncounted state hanswer)
  · simp only [if_neg hhide, List.append_nil] at hcounted huncounted
    rw [leads_bind]
    exact leads_countFrame (fun hcount => leads_enter.mpr (hcounted state hanswer hcount))
      (huncounted state hanswer)

theorem finish_endsBy {picture : CurrentPicture S} {stamps : Timestamps} :
    EndsBy (finish backend picture stamps) s (FinishEnding s.decoder picture stamps) :=
  leads_finish_cases (fun _ _ _ => ⟨_, rfl, .refused⟩) (fun _ _ _ => ⟨_, rfl, .finished⟩)
    fun _ _ _ => ⟨_, rfl, .uncounted⟩

theorem tileGroup_endsBy {group : TileGroup} {stamps : Timestamps} :
    EndsBy (tileGroup backend group stamps) s (TilesEnding s.decoder group stamps) := by
  have hrejected {e : Failure DecodeError} : ∃ entries, s.journal = s.journal ++ entries ∧
      TilesEnding s.decoder group stamps (.error e) entries s.decoder.withoutPicture :=
    exists_no_entries (.failed (List.forall_mem_nil _))
  rw [EndsBy, tileGroup_eq, leads_bind, leads_decoder]
  dsimp only
  split
  · rename_i info hstream
    split
    · rename_i picture hpicture
      refine leads_ite (fun _ => ?_) fun hfirst => ?_
      · rw [leads_bind, leads_fail]
        exact hrejected
      rw [leads_bind]
      refine leads_ofOutcome (fun tiles htiles => ?_) fun _ => hrejected
      obtain ⟨htotal, hnext, hend⟩ := TileGroup.next_of_tiles (not_not.mp hfirst) htiles
      refine leads_takeTiles htotal (hnext.trans_le hend) (fun e _ _ => ?_) (fun _ _ _ => ?_)
        fun _ _ _ => ?_
      · exact ⟨_, rfl, .failed (List.forall_mem_singleton.mpr ⟨tiles, .error e, rfl⟩)⟩
      · exact ⟨_, rfl, .taken hstream hpicture htiles⟩
      · exact finish_endsBy.leads rfl fun _ _ _ => .completed hstream hpicture htiles
    · rename_i hpicture
      have hnone := Option.eq_none_iff_forall_ne_some.mpr hpicture
      refine leads_ite (fun hreset => ?_) fun _ => leads_fail.mpr hrejected
      exact leads_pure.mpr (exists_no_entries (.waiting hnone hreset))
  · exact leads_fail.mpr hrejected

theorem dispatch_endsBy {obu : Obu} {stamps : Timestamps} :
    EndsBy (dispatch backend obu stamps) s (DispatchEnding s.decoder stamps obu) := by
  have hheader {obu : Obu} {header : Header} (hobu : obu.frameHeader? = some header) :
      EndsBy (do let _ ← frameHeader backend header stamps : Decode β S Unit) s
        (DispatchEnding s.decoder stamps obu) := by
    refine frameHeader_endsBy.bind (fun _ first s₁ hfirst => ?_)
      fun e entries d => .headerFailed hobu
    refine leads_pure.mpr (exists_no_entries ?_)
    simpa only [List.append_nil] using DispatchEnding.header hobu hfirst
  cases obu with
  | sequenceHeader sequence =>
    exact sequenceHeader_endsBy.mono fun _ _ _ => .sequence
  | frameHeader header => exact hheader rfl
  | redundantFrameHeader header =>
    rw [dispatch, EndsBy, leads_bind, leads_decoder]
    refine leads_ite (fun _ => hheader rfl) fun _ => ?_
    exact leads_pure.mpr (exists_no_entries (.ignored fun _ h => by cases h))
  | tileGroup group =>
    exact tileGroup_endsBy.mono fun _ _ _ => .tiles
  | frame header group =>
    refine frameHeader_endsBy.bind (fun tilesFollow first s₁ hfirst => ?_)
      fun e entries d => .headerFailed rfl
    cases tilesFollow with
    | true =>
      rw [if_pos rfl]
      exact tileGroup_endsBy.mono fun _ _ _ => .frame hfirst
    | false =>
      refine leads_pure.mpr (exists_no_entries ?_)
      simpa only [List.append_nil] using DispatchEnding.header rfl hfirst
  | tileList => exact leads_fail.mpr (exists_no_entries .tileList)
  | temporalDelimiter | metadata | padding | reserved =>
    exact leads_pure.mpr (exists_no_entries (.ignored fun _ h => by cases h))

theorem admitted_endsBy {obu : Obu} {stamps : Timestamps}
    (hincluded : s.decoder.Includes obu.header) :
    EndsBy (admitted backend obu stamps) s (UnitEnding s.decoder stamps obu) := by
  have hdispatched
      (hstatus : ∀ format, s.decoder.status = .unsupported format → ∃ h, obu = .sequenceHeader h) :
      EndsBy (dispatch backend obu stamps) s (UnitEnding s.decoder stamps obu) :=
    dispatch_endsBy.mono fun _ _ _ => .dispatched hincluded hstatus
  unfold EndsBy admitted
  rw [leads_bind, leads_decoder]
  cases hstatus : s.decoder.status with
  | unsupported format =>
    refine leads_ite (fun hobu => ?_) fun hobu => hdispatched fun _ _ => ?_
    · rw [leads_bind, leads_fail]
      refine exists_no_entries (.unsupported hstatus ?_)
      rintro sequence rfl
      exact Bool.false_ne_true hobu
    · cases obu with
      | sequenceHeader sequence => exact ⟨sequence, rfl⟩
      | _ => exact absurd rfl hobu
  | awaitingStream | decoding | reset =>
    refine hdispatched fun format hformat => ?_
    rw [hstatus] at hformat
    cases hformat

theorem unit_endsBy {obu : Obu} {stamps : Timestamps} :
    EndsBy (unit backend obu stamps) s (UnitEnding s.decoder stamps obu) := by
  rw [EndsBy, unit_eq, leads_bind, inOperatingPoint, leads_bind, leads_decoder]
  split
  · rename_i hstream
    rw [leads_pure]
    refine admitted_endsBy fun info hinfo => ?_
    rw [hstream] at hinfo
    cases hinfo
  · rename_i info hstream
    refine leads_checked.mpr ⟨fun included hincluded => ?_, fun f _ => exists_no_entries .faulted⟩
    cases included with
    | false => exact leads_pure.mpr (exists_no_entries (.excluded hstream hincluded))
    | true =>
      refine admitted_endsBy fun info' hinfo => ?_
      obtain rfl := Option.some.inj (hstream.symm.trans hinfo)
      exact hincluded

theorem units_endsBy {obus : List Obu} {stamps : Timestamps} :
    EndsBy (units backend stamps obus) s (UnitsEnding stamps s.decoder obus) := by
  induction obus generalizing s with
  | nil => exact leads_pure.mpr (exists_no_entries .nil)
  | cons obu rest ih =>
    refine unit_endsBy.bind (fun _ first s₁ hfirst => ?_) fun e entries d => .failed
    exact ih.mono fun _ _ _ => .cons hfirst

end Decode

/-- The entry that a failure leaves after those of its units. -/
def failureMark : Outcome DecodeError Unit → List (Entry S)
  | .ok () => []
  | .error _ => [.failed]

/-- A packet ends as its units do. -/
theorem Session.decode_ending (s : Session β S) (backend : Backend β S) (packet : Packet) :
    ∃ entries,
      UnitsEnding packet.stamps s.decoder packet.obus (s.decode backend packet).1 entries
        (s.decode backend packet).2.decoder ∧
      (s.decode backend packet).2.journal =
        s.journal ++ entries ++ failureMark (s.decode backend packet).1 := by
  have hends : Decode.EndsBy (Decode.units backend packet.stamps packet.obus) s _ :=
    Decode.units_endsBy
  refine decode_of_leads packet (R := fun r s' => ∃ entries,
    UnitsEnding packet.stamps s.decoder packet.obus r entries s'.decoder ∧
      s'.journal = s.journal ++ entries ++ failureMark r) (Leads.mono hends ?_ ?_)
  · rintro _ s' ⟨entries, hjournal, hend⟩
    exact ⟨entries, hend, hjournal.trans (List.append_nil _).symm⟩
  · rintro e s' ⟨entries, hjournal, hend⟩
    refine ⟨entries, hend, ?_⟩
    change s'.journal ++ [.failed] = _
    rw [hjournal]
    rfl

end Av1Frames
