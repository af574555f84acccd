import Av1Frames.Proofs.Decoder.Announcements

namespace Av1Frames

variable {β S : Type}

/-- The header names the layers that its unit belongs to. Sequence headers and temporal delimiters
    belong to all of them. -/
structure ObuHeader.NamesLayer (h : ObuHeader) : Prop where
  extensionFlag : h.extensionFlag = true
  not_sequenceHeader : h.obuType ≠ .sequenceHeader
  not_temporalDelimiter : h.obuType ≠ .temporalDelimiter

namespace OperatingPoint

/-- The operating point selects the temporal and the spatial layer that a header names. -/
structure Selects (p : OperatingPoint) (h : ObuHeader) : Prop where
  temporal : p.idc.testBit h.temporalId = true
  spatial : p.idc.testBit (h.spatialId + 8) = true

variable {p : OperatingPoint} {h : ObuHeader}

theorem selects_of_includes (hincludes : p.includes h = .ok true) (hidc : p.idc ≠ 0)
    (hnames : h.NamesLayer) : p.Selects h := by
  unfold includes at hincludes
  rw [if_neg (by simp [hidc, hnames.extensionFlag, hnames.not_sequenceHeader,
    hnames.not_temporalDelimiter])] at hincludes
  obtain ⟨bit, hbit, hselects⟩ := bind_eq_ok_iff.mp hincludes
  obtain ⟨-, hbit⟩ := Checked.unsigned_eq_ok_iff.mp hbit
  obtain rfl : h.spatialId + 8 = bit := by exact_mod_cast hbit
  obtain ⟨htemporal, hspatial⟩ := Bool.and_eq_true_iff.mp (Except.ok.inj hselects)
  exact ⟨htemporal, hspatial⟩

/-- No spatial layer that is selected is above the highest one. -/
theorem Selects.le_log2 (hselects : p.Selects h) : h.spatialId ≤ (p.idc >>> 8).log2 := by
  have hbit : (p.idc >>> 8).testBit h.spatialId = true := by
    rw [Nat.testBit_shiftRight, Nat.add_comm]
    exact hselects.spatial
  have hle := Nat.ge_two_pow_of_testBit hbit
  exact (Nat.le_log2 (Nat.ne_of_gt (Nat.lt_of_lt_of_le (Nat.two_pow_pos _) hle))).mpr hle

end OperatingPoint

namespace Entry

/-- The header with which a frame is started or shown. -/
def header? : Entry S → Option Header
  | .called (.startFrame started) _ => some started.header
  | .shown header _ => some header
  | _ => none

/-- Frames are only started and shown with headers of units that belong to the operating point of
    the stream that was accepted last. -/
def Included (operatingPoint : Nat) (before : List (Entry S)) (entry : Entry S) : Prop :=
  ∀ header, entry.header? = some header → ∃ info, (streams before).getLast? = some info ∧
    (info.sequence.selectedPoint operatingPoint).includes header.obuHeader = .ok true

/-- A frame that is started belongs to the sequence of the stream that was accepted last, and to a
    layer that its operating point selects, if the one selects layers and the other names its
    own. -/
def StartsSelected (operatingPoint : Nat) (before : List (Entry S)) : Entry S → Prop
  | .called (.startFrame started) _ =>
    ∃ info, (streams before).getLast? = some info ∧ started.sequence = info.sequence ∧
      let point := info.sequence.selectedPoint operatingPoint
      point.idc ≠ 0 → started.header.obuHeader.NamesLayer →
        point.Selects started.header.obuHeader
  | _ => True

end Entry

/-- A frame that is output while the given stream was accepted last belongs to no spatial layer
    below the highest one that the operating point selects, if it selects any by number, and to
    that one if the header that shows the frame names its layer. -/
def OutputFrame.InTopLayer (f : OutputFrame S) (point : OperatingPoint) (header : Header) : Prop :=
  let layers := point.idc >>> 8
  layers ≠ 0 → layers.log2 ≤ f.spatialId ∧
    (header.obuHeader.NamesLayer → f.spatialId = layers.log2)

variable {d d' : Decoder S} {journal entries : List (Entry S)} {stamps : Timestamps}
  {operatingPoint : Nat} {r : Outcome DecodeError Unit}

/-- Entries that neither start nor show a frame. -/
theorem EachEntry.append_headerless (h : EachEntry (Entry.Included operatingPoint) journal)
    (hentries : ∀ entry ∈ entries, entry.header? = none) :
    EachEntry (Entry.Included operatingPoint) (journal ++ entries) :=
  append_of_forall_mem h
    (fun hbefore hentry => hbefore.snoc fun _ hheader => nomatch hentry.symm.trans hheader) hentries

theorem header?_failureMark {entry : Entry S} (hentry : entry ∈ failureMark r) :
    entry.header? = none := by
  cases r with
  | ok _ => exact nomatch hentry
  | error _ => exact List.mem_singleton.mp hentry ▸ rfl

theorem SequenceEnding.headerless {s : Sequence} (h : SequenceEnding d s r entries d') :
    ∀ entry ∈ entries, entry.header? = none := by
  cases h with
  | failed _ hcause =>
    intro entry hentry
    obtain ⟨info, answer, rfl⟩ := hcause.changeStream entry hentry
    rfl
  | taken => exact List.forall_mem_singleton.mpr rfl
  | _ => exact List.forall_mem_nil _

theorem TilesEnding.headerless {group : TileGroup} (h : TilesEnding d group stamps r entries d') :
    ∀ entry ∈ entries, entry.header? = none := by
  cases h with
  | waiting => exact List.forall_mem_nil _
  | failed hentries =>
    intro entry hentry
    obtain ⟨tiles, answer, rfl⟩ := hentries entry hentry
    rfl
  | taken => exact List.forall_mem_singleton.mpr rfl
  | completed _ _ _ hfinish =>
    refine List.forall_mem_cons.mpr ⟨rfl, ?_⟩
    cases hfinish <;> exact List.forall_mem_singleton.mpr rfl

theorem HeaderEnding.included {header : Header} {r : Outcome DecodeError Bool}
    (h : HeaderEnding d header stamps r entries d') (hincludes : d.Includes header.obuHeader)
    (hstream : ∀ info, d.stream = some info → (streams journal).getLast? = some info)
    (hjournal : EachEntry (Entry.Included d.operatingPoint) journal) :
    EachEntry (Entry.Included d.operatingPoint) (journal ++ entries) := by
  have hincluded {entry : Entry S} (hentry : entry.header? = some header)
      (hinfo : ∃ info, d.stream = some info) :
      EachEntry (Entry.Included d.operatingPoint) (journal ++ [entry]) := by
    obtain ⟨info, hinfo⟩ := hinfo
    refine hjournal.snoc fun header' hheader' => ⟨info, hstream info hinfo, ?_⟩
    obtain rfl := Option.some.inj (hentry.symm.trans hheader')
    exact hincludes info hinfo
  have hstarted {started : Picture S} (hstarts : d.Starts header started)
      (answer : Except BackendError Unit) : EachEntry (Entry.Included d.operatingPoint)
        (journal ++ [.called (.startFrame started) answer]) := by
    obtain ⟨info, hinfo, -⟩ := hstarts.stream
    exact hincluded (congrArg some hstarts.header_eq) ⟨info, hinfo⟩
  cases h with
  | shown _ _ _ _ hinfo => exact hincluded rfl hinfo
  | uncounted _ _ hinfo => exact hincluded rfl hinfo
  | refused hstarts => exact hstarted hstarts _
  | started hstarts => exact hstarted hstarts _
  | _ => rwa [List.append_nil]

theorem included_preserved (operatingPoint : Nat) (stamps : Timestamps) (earlier : List (Entry S))
    (pending : List (Event S)) :
    PreservedBy stamps (fun _ => True) fun d journal =>
      d.Announces operatingPoint stamps earlier pending journal ∧
        EachEntry (Entry.Included operatingPoint) journal where
  abandoned h := by
    refine ⟨(announces_preserved _ _ _ _).abandoned h.1, h.2.append_headerless ?_⟩
    exact List.forall_mem_singleton.mpr rfl
  sequence h hadmitted hd := by
    refine ⟨(announces_preserved _ _ _ _).sequence h hadmitted hd.1, ?_⟩
    exact (hd.2.append_headerless h.headerless).append_headerless fun _ => header?_failureMark
  header h hadmits hd := by
    refine ⟨(announces_preserved _ _ _ _).header h hadmits hd.1, ?_⟩
    obtain ⟨_, hreports⟩ := hd.1.reports
    have hjournal := hd.2
    rw [← hd.1.operatingPoint_eq] at hjournal ⊢
    exact (h.included hadmits.includes hreports.stream_eq hjournal).append_headerless
      fun _ => header?_failureMark
  tiles h hd := by
    refine ⟨(announces_preserved _ _ _ _).tiles h hd.1, ?_⟩
    exact (hd.2.append_headerless h.headerless).append_headerless fun _ => header?_failureMark

theorem EachEntry.startsSelected (h : EachEntry (Entry.Included operatingPoint) journal)
    (hinStream : EachEntry Entry.InStream journal) :
    EachEntry (Entry.StartsSelected operatingPoint) journal := by
  intro before entry rest hjournal
  cases entry with
  | called call answer =>
    cases call with
    | startFrame started =>
      obtain ⟨info, hinfo, hincludes⟩ := h before _ rest hjournal started.header rfl
      have hsequence : (streams before).getLast?.map (·.sequence) = some started.sequence :=
        hinStream before _ rest hjournal
      rw [hinfo] at hsequence
      exact ⟨info, hinfo, (Option.some.inj hsequence).symm,
        OperatingPoint.selects_of_includes hincludes⟩
    | _ => trivial
  | _ => trivial

/-- The stream does not change while a frame has its tiles. -/
theorem OpenedBy.streams_eq {started : Picture S} (h : OpenedBy journal started) :
    ∃ before more, journal = before ++ .called (.startFrame started) (.ok ()) :: more ∧
      streams journal = streams before := by
  obtain ⟨before, rest, rfl, hrest⟩ := h
  refine ⟨before, rest, rfl, ?_⟩
  rw [← List.singleton_append, streams_append, streams_append, streams_eq_nil hrest]
  exact List.append_nil _

/-- A frame that is completed is shown by the header that it was started with. -/
theorem Entry.header_of_shows? {started : Picture S} {header : Header} {frame : Frame S}
    (hopened : (historyOf journal).opened = some started)
    (hshows : (Entry.called .endFrame (.ok ())).shows? journal = some (header, frame)) :
    started.header = header := by
  rw [Entry.shows?, hopened, Option.bind_some] at hshows
  split at hshows
  · exact (Prod.mk.inj (Option.some.inj hshows)).1
  · cases hshows

/-- The header that shows a frame belongs to the operating point of the stream that was accepted
    last, also when the frame is completed in a later packet than it was started in. -/
theorem included_of_shows? {entry : Entry S} {rest : List (Entry S)} {header : Header}
    {frame : Frame S}
    (hincluded : EachEntry (Entry.Included operatingPoint) (journal ++ entry :: rest))
    (htraced : entry.Traced journal) (hshows : entry.shows? journal = some (header, frame)) :
    ∃ info, (streams journal).getLast? = some info ∧
      (info.sequence.selectedPoint operatingPoint).includes header.obuHeader = .ok true := by
  cases entry with
  | called call answer =>
    cases call with
    | endFrame =>
      cases answer with
      | error => exact nomatch hshows
      | ok =>
        obtain ⟨started, hopened, hstarted⟩ := htraced
        obtain ⟨before, more, rfl, hstreams⟩ := hstarted.streams_eq
        obtain rfl := Entry.header_of_shows? hopened hshows
        rw [hstreams]
        exact hincluded.of_append before _ more rfl started.header rfl
    | _ => exact nomatch hshows
  | shown header' frame' =>
    obtain ⟨rfl, rfl⟩ := Prod.mk.inj (Option.some.inj hshows)
    exact hincluded journal _ rest rfl header' rfl
  | _ => exact nomatch hshows

namespace Session

theorem included_run (backend : β) (operatingPoint : Nat) (requests : List (Request β S)) :
    EachEntry (Entry.Included operatingPoint)
      ((start backend operatingPoint : Session β S).run requests).journal := by
  induction requests using List.reverseRecOn with
  | nil => exact .nil
  | append_singleton requests request ih =>
    have hs := announces_run backend operatingPoint requests
    rw [run_snoc]
    cases request with
    | decode backend packet =>
      exact ((included_preserved operatingPoint packet.stamps _ _).decode (fun _ _ => trivial)
        ⟨hs.decoder packet.stamps, ih⟩).2
    | flush => exact ih.append_headerless (List.forall_mem_singleton.mpr rfl)
    | nextEvent => exact ih

/-- Whatever a decoder is asked, and however its backend answers: only frames of selected layers are
    started. The frames that the client is told of are those that the entries of the journal
    announce, and each of them is in the highest spatial layer that is selected when the entry is
    made. -/
theorem layers_run (backend : β) (operatingPoint : Nat) (requests : List (Request β S)) :
    let s : Session β S := start backend operatingPoint
    (s.record requests).map Prod.snd = (s.run requests).journal ∧
      EachEntry (Entry.StartsSelected operatingPoint) (s.run requests).journal ∧
      s.delivered requests ++ (s.run requests).decoder.events =
        announcements operatingPoint [] (s.record requests) ∧
      ∀ earlier stamps entry later, s.record requests = earlier ++ (stamps, entry) :: later →
        ∀ f, .frameReady f ∈ entry.announcement operatingPoint (earlier.map Prod.snd) stamps →
          ∃ header frame info, entry.shows? (earlier.map Prod.snd) = some (header, frame) ∧
            entry.announcement operatingPoint (earlier.map Prod.snd) stamps = [.frameReady f] ∧
            (streams (earlier.map Prod.snd)).getLast? = some info ∧
            f.InTopLayer (info.sequence.selectedPoint operatingPoint) header := by
  intro s
  have hs : (s.run requests).Announces operatingPoint _ _ :=
    announces_run backend operatingPoint requests
  have hincluded : EachEntry (Entry.Included operatingPoint) (s.run requests).journal :=
    included_run backend operatingPoint requests
  refine ⟨hs.journal_eq, hincluded.startsSelected hs.hasTold.2.inStream, hs.announced, ?_⟩
  intro earlier stamps entry later hrecord f hevent
  obtain ⟨header, frame, hshows, hannounced, hspatial, htop⟩ :=
    Entry.shows?_of_mem_announcement hevent
  have hjournal : (s.run requests).journal =
      earlier.map Prod.snd ++ entry :: later.map Prod.snd := by
    rw [← hs.journal_eq, hrecord, List.map_append, List.map_cons]
  have htraced := hs.hasTold.1.remembers.recalls.traced _ entry _ hjournal
  rw [hjournal] at hincluded
  obtain ⟨info, hinfo, hincludes⟩ := included_of_shows? hincluded htraced hshows
  refine ⟨header, frame, info, hshows, hannounced, hinfo, fun hlayers => ?_⟩
  have hle : ((info.sequence.selectedPoint operatingPoint).idc >>> 8).log2 ≤ f.spatialId := by
    refine htop _ ?_
    rw [topLayer, hinfo, Option.bind_some, OperatingPoint.topLayer, if_neg hlayers]
  refine ⟨hle, fun hnames => le_antisymm ?_ hle⟩
  have hidc : (info.sequence.selectedPoint operatingPoint).idc ≠ 0 := by
    intro hzero
    rw [hzero] at hlayers
    exact hlayers rfl
  rw [hspatial]
  exact (OperatingPoint.selects_of_includes hincludes hidc hnames).le_log2

end Session

end Av1Frames
