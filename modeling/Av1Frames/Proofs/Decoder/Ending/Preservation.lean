import Av1Frames.Proofs.Decoder.Ending.Inversion

namespace Av1Frames

variable {β S : Type} {d d' : Decoder S} {journal entries : List (Entry S)} {stamps : Timestamps}
  {obu : Obu} {r : Outcome DecodeError Unit}

/-- What is known of a frame header when it is looked at: it came with an admitted unit, which
    belongs to the operating point, and the format of the stream is supported. -/
structure Decoder.Admits (d : Decoder S) (admitted : Obu → Prop) (header : Header) : Prop where
  unit : ∃ obu, admitted obu ∧ obu.frameHeader? = some header
  includes : d.Includes header.obuHeader
  supported : ∀ format, d.status ≠ .unsupported format

/-- Within a packet with the given timestamps, a property of decoders and their journals holds after
    each part of an admitted unit if it held before. -/
structure PreservedBy (stamps : Timestamps) (admitted : Obu → Prop)
    (P : Decoder S → List (Entry S) → Prop) : Prop where
  abandoned : ∀ {d journal}, P d journal → P d.withoutPicture (journal ++ [.failed])
  sequence : ∀ {d d' s r journal entries}, SequenceEnding d s r entries d' →
    admitted (.sequenceHeader s) → P d journal → P d' (journal ++ entries ++ failureMark r)
  header : ∀ {d d' header r journal entries}, HeaderEnding d header stamps r entries d' →
    d.Admits admitted header → P d journal →
      P d' (journal ++ entries ++ failureMark (r.map fun _ => ()))
  tiles : ∀ {d d' group r journal entries}, TilesEnding d group stamps r entries d' →
    P d journal → P d' (journal ++ entries ++ failureMark r)

/-- A property of decoders and their journals holds after each part of any unit if it held
    before. -/
structure Preserved (P : Decoder S → List (Entry S) → Prop) : Prop where
  abandoned : ∀ {d journal}, P d journal → P d.withoutPicture (journal ++ [.failed])
  sequence : ∀ {d d' s r journal entries}, SequenceEnding d s r entries d' → P d journal →
    P d' (journal ++ entries ++ failureMark r)
  /-- Frame headers are not looked at while the format is not supported. -/
  header : ∀ {d d' header stamps r journal entries}, HeaderEnding d header stamps r entries d' →
    (∀ format, d.status ≠ .unsupported format) → P d journal →
      P d' (journal ++ entries ++ failureMark (r.map fun _ => ()))
  tiles : ∀ {d d' group stamps r journal entries}, TilesEnding d group stamps r entries d' →
    P d journal → P d' (journal ++ entries ++ failureMark r)

theorem Obu.header_of_frameHeader? {header : Header} (hobu : obu.frameHeader? = some header) :
    obu.header = header.obuHeader := by
  cases obu with
  | frameHeader h | redundantFrameHeader h | frame h _ => exact Option.some.inj hobu ▸ rfl
  | _ => exact nomatch hobu

theorem Decoder.Includes.admits {admitted : Obu → Prop} {header : Header}
    (h : d.Includes obu.header)
    (hstatus : ∀ format, d.status = .unsupported format → ∃ s, obu = .sequenceHeader s)
    (hadmitted : admitted obu) (hobu : obu.frameHeader? = some header) :
    d.Admits admitted header where
  unit := ⟨obu, hadmitted, hobu⟩
  includes := Obu.header_of_frameHeader? hobu ▸ h
  supported format hformat := by
    obtain ⟨s, rfl⟩ := hstatus format hformat
    exact nomatch hobu

namespace PreservedBy

variable {P : Decoder S → List (Entry S) → Prop} {admitted : Obu → Prop}

theorem skipped (hd : P d journal) : P d (journal ++ [] ++ failureMark (.ok ())) := by
  rwa [failureMark, List.append_nil, List.append_nil]

theorem failed (hP : PreservedBy stamps admitted P) {e : Failure DecodeError} (hd : P d journal) :
    P d.withoutPicture (journal ++ [] ++ failureMark (.error e)) := by
  rw [List.append_nil]
  exact hP.abandoned hd

theorem started (hP : PreservedBy stamps admitted P) {header : Header}
    (h : HeaderEnding d header stamps (.ok true) entries d') (hadmits : d.Admits admitted header)
    (hd : P d journal) : P d' (journal ++ entries) := by
  have hstarted := hP.header h hadmits hd
  rwa [Except.map, failureMark, List.append_nil] at hstarted

theorem dispatch (hP : PreservedBy stamps admitted P)
    (h : DispatchEnding d stamps obu r entries d') (hadmitted : admitted obu)
    (hincluded : d.Includes obu.header)
    (hstatus : ∀ format, d.status = .unsupported format → ∃ s, obu = .sequenceHeader s)
    (hd : P d journal) : P d' (journal ++ entries ++ failureMark r) := by
  have hadmits {header : Header} (hobu : obu.frameHeader? = some header) :
      d.Admits admitted header := hincluded.admits hstatus hadmitted hobu
  cases h with
  | ignored => exact skipped hd
  | tileList => exact hP.failed hd
  | sequence hsequence => exact hP.sequence hsequence hadmitted hd
  | header hobu hheader => exact hP.header hheader (hadmits hobu) hd
  | headerFailed hobu hheader => exact hP.header hheader (hadmits hobu) hd
  | tiles htiles => exact hP.tiles htiles hd
  | frame hheader htiles =>
    rw [← List.append_assoc]
    exact hP.tiles htiles (hP.started hheader (hadmits rfl) hd)

theorem unit (hP : PreservedBy stamps admitted P) (h : UnitEnding d stamps obu r entries d')
    (hadmitted : admitted obu) (hd : P d journal) : P d' (journal ++ entries ++ failureMark r) := by
  cases h with
  | excluded => exact skipped hd
  | faulted => exact hP.failed hd
  | unsupported => exact hP.failed hd
  | dispatched hincluded hstatus hdispatch =>
    exact hP.dispatch hdispatch hadmitted hincluded hstatus hd

theorem units (hP : PreservedBy stamps admitted P) {obus : List Obu}
    (h : UnitsEnding stamps d obus r entries d') (hadmitted : ∀ obu ∈ obus, admitted obu)
    (hd : P d journal) : P d' (journal ++ entries ++ failureMark r) := by
  induction h generalizing journal with
  | nil => exact skipped hd
  | failed hunit => exact hP.unit hunit (List.forall_mem_cons.mp hadmitted).1 hd
  | cons hunit _ ih =>
    obtain ⟨hobu, hrest⟩ := List.forall_mem_cons.mp hadmitted
    have hfirst := hP.unit hunit hobu hd
    rw [failureMark, List.append_nil] at hfirst
    rw [← List.append_assoc]
    exact ih hrest hfirst

theorem decode {backend : Backend β S} {packet : Packet}
    (hP : PreservedBy packet.stamps admitted P) (hadmitted : ∀ obu ∈ packet.obus, admitted obu)
    {s : Session β S} (h : P s.decoder s.journal) :
    P (s.decode backend packet).2.decoder (s.decode backend packet).2.journal := by
  obtain ⟨entries, hunits, hjournal⟩ := s.decode_ending backend packet
  rw [hjournal]
  exact hP.units hunits hadmitted h

end PreservedBy

namespace Preserved

variable {P : Decoder S → List (Entry S) → Prop}

theorem skipped (hd : P d journal) : P d (journal ++ [] ++ failureMark (.ok ())) :=
  PreservedBy.skipped hd

/-- What every unit preserves is preserved in packets with any timestamps. -/
theorem preservedBy (hP : Preserved P) (stamps : Timestamps) (admitted : Obu → Prop) :
    PreservedBy stamps admitted P where
  abandoned := hP.abandoned
  sequence h _ := hP.sequence h
  header h hadmits := hP.header h hadmits.supported
  tiles h := hP.tiles h

theorem decode (hP : Preserved P) {s : Session β S} (h : P s.decoder s.journal)
    (backend : Backend β S) (packet : Packet) :
    P (s.decode backend packet).2.decoder (s.decode backend packet).2.journal :=
  (hP.preservedBy packet.stamps fun _ => True).decode (fun _ _ => trivial) h

end Preserved

end Av1Frames
