import Av1Frames.Decoder.Scripted
import Av1Frames.Proofs.Decoder.Ending.Inversion
import Av1Frames.Proofs.Decoder.Run

namespace Av1Frames

variable {β S : Type}

/-- A sequence header that was processed, and what came of it. -/
abbrev HeaderReport := Sequence × Outcome DecodeError Unit

/-- What happens in a run: a sequence header is processed, or an entry is made in the journal. The
    journal alone does not tell of sequence headers that are refused. -/
inductive Occurrence (S : Type) where
  | header (report : HeaderReport)
  | entry (e : Entry S)

namespace Occurrence

/-- The entry in the journal. -/
def entry? : Occurrence S → Option (Entry S)
  | header _ => none
  | entry e => some e

/-- The frame that the backend was asked to start, whatever it answered. -/
def started? (x : Occurrence S) : Option (Picture S) := x.entry?.bind Entry.started?

/-- The sequence header that was processed. -/
def header? : Occurrence S → Option HeaderReport
  | header report => some report
  | entry _ => none

/-- Whether a sequence header was not turned away because a picture was in progress. -/
def stands : HeaderReport → Bool
  | (_, .error (.error (.sequenceWithinFrame _))) => false
  | _ => true

/-- The sequence header that was processed last and not turned away. -/
def standing (occurrences : List (Occurrence S)) : Option HeaderReport :=
  ((occurrences.filterMap header?).filter stands).getLast?

theorem started?_eq_some {x : Occurrence S} {started : Picture S}
    (h : x.started? = some started) :
    ∃ answer, x = .entry (.called (.startFrame started) answer) := by
  cases x with
  | header report => exact nomatch h
  | entry e =>
    cases e with
    | called call answer =>
      cases call with
      | startFrame picture =>
        obtain rfl := Option.some.inj h
        exact ⟨answer, rfl⟩
      | _ => exact nomatch h
    | _ => exact nomatch h

theorem standing_append (a b : List (Occurrence S)) :
    standing (a ++ b) = (standing b).or (standing a) := by
  rw [standing, List.filterMap_append, List.filter_append, List.getLast?_append]
  rfl

theorem standing_entries (entries : List (Entry S)) : standing (entries.map .entry) = none := by
  rw [standing, List.filterMap_map]
  have hnone : ∀ entries : List (Entry S), entries.filterMap (header? ∘ .entry) = [] := by
    intro entries
    rw [List.filterMap_eq_nil_iff]
    exact fun _ _ => rfl
  rw [hnone]
  rfl

theorem entry?_entries (entries : List (Entry S)) :
    (entries.map Occurrence.entry).filterMap entry? = entries := by
  rw [List.filterMap_map]
  exact List.filterMap_some

end Occurrence

open Occurrence

/-- The sequence header that a unit is. -/
def Obu.reports (outcome : Outcome DecodeError Unit) : Obu → List (Occurrence S)
  | .sequenceHeader sequence => [.header (sequence, outcome)]
  | _ => []

namespace Decode

variable (backend : Backend β S) (stamps : Timestamps)

/-- The sequence header that a unit is, unless the unit is skipped. -/
def heard (obu : Obu) (outcome : Outcome DecodeError Unit) (s : Session β S) :
    List (Occurrence S) :=
  if ((inOperatingPoint obu.header).run s).1 = .ok true then obu.reports outcome else []

/-- What happens while units are processed, up to the first that fails. -/
def occurrences : List Obu → Session β S → List (Occurrence S)
  | [], _ => []
  | obu :: rest, s =>
    let (outcome, s') := (unit backend obu stamps).run s
    heard obu outcome s ++ (s'.journal.drop s.journal.length).map .entry ++
      match outcome with
      | .ok () => occurrences rest s'
      | .error _ => [.entry .failed]

end Decode

namespace Session

/-- What happens while a request is handled. -/
def occurrences (s : Session β S) : Request β S → List (Occurrence S)
  | .decode backend packet => Decode.occurrences backend packet.stamps packet.obus s
  | .flush => [.entry .flushed]
  | .nextEvent => []

/-- What happens while some requests are handled. -/
def chronicle (s : Session β S) : List (Request β S) → List (Occurrence S)
  | [] => []
  | request :: rest => s.occurrences request ++ (s.handle request).chronicle rest

end Session

/-- The reports of sequence headers after which a frame can be started: that its sequence was taken
    over. Nothing is said of a sequence that the backend refused or that had numbers too great. -/
inductive StartedAfter (started : Picture S) : HeaderReport → Prop
  | taken : StartedAfter started (started.sequence, .ok ())
  | refused (s : Sequence) (e : BackendError) :
      StartedAfter started (s, .error (.error (.backend e)))
  | faulted (s : Sequence) (f : Fault) : StartedAfter started (s, .error (.fault f))

/-- Frames are only started after such reports. Before the occurrences the one of `last` stands. -/
def Served (last : Option HeaderReport) (occurrences : List (Occurrence S)) : Prop :=
  ∀ before started answer rest,
    occurrences = before ++ .entry (.called (.startFrame started) answer) :: rest →
      ∃ report, (standing before).or last = some report ∧ StartedAfter started report

theorem Served.append {last : Option HeaderReport} {a b : List (Occurrence S)} (ha : Served last a)
    (hb : Served ((standing a).or last) b) : Served last (a ++ b) := by
  intro before started answer rest heq
  rcases List.append_eq_append_iff.mp heq with ⟨more, rfl, hsplit⟩ | ⟨more, rfl, hsplit⟩
  · rw [standing_append, Option.or_assoc]
    exact hb more started answer rest hsplit
  · cases more with
    | nil =>
      rw [List.append_nil] at hb
      simpa [standing] using hb [] started answer rest hsplit.symm
    | cons first more =>
      obtain ⟨rfl, -⟩ := List.cons.inj hsplit
      exact ha before started answer more rfl

theorem served_nil {last : Option HeaderReport} : Served last ([] : List (Occurrence S)) :=
  fun _ _ _ _ heq => absurd heq.symm (List.append_ne_nil_of_right_ne_nil _ (List.cons_ne_nil _ _))

theorem served_header {last : Option HeaderReport} (report : HeaderReport) :
    Served last [(.header report : Occurrence S)] := by
  intro before started answer rest heq
  have hmem : Occurrence.entry (.called (.startFrame started) answer) ∈ [.header report] := by
    rw [heq]
    simp
  exact nomatch List.mem_singleton.mp hmem

theorem served_entries {last : Option HeaderReport} (entries : List (Entry S))
    (h : ∀ started answer, .called (.startFrame started) answer ∈ entries →
      ∃ report, last = some report ∧ StartedAfter started report) :
    Served last (entries.map .entry) := by
  intro before started answer rest heq
  obtain ⟨first, later, rfl, rfl, hlater⟩ := List.map_eq_append_iff.mp heq
  obtain ⟨entry, _, rfl, hentry, -⟩ := List.map_eq_cons_iff.mp hlater
  obtain rfl := Occurrence.entry.inj hentry
  rw [standing_entries]
  exact h started answer (by simp)

theorem served_failed {last : Option HeaderReport} :
    Served last [(.entry .failed : Occurrence S)] :=
  served_entries [.failed] (by simp)

/-- What is left of the sequence header that stands: its stream, or no stream, or the status that
    lets only sequence headers through. -/
inductive Decoder.Obeys (d : Decoder S) : Option HeaderReport → Prop
  | unheard (hstream : d.stream = none) : Obeys d none
  | taken {info : StreamInfo} (hstream : d.stream = some info) :
      Obeys d (some (info.sequence, .ok ()))
  | formatless {s : Sequence} {e : FormatError} (hstream : d.stream = none) :
      Obeys d (some (s, .error (.error (.format e))))
  | unsupported {s : Sequence} {format : PixelFormat} (hstatus : d.status = .unsupported format) :
      Obeys d (some (s, .error (.error (.formatRefused format))))
  | refused {s : Sequence} {e : BackendError} : Obeys d (some (s, .error (.error (.backend e))))
  | faulted {s : Sequence} {f : Fault} : Obeys d (some (s, .error (.fault f)))

variable {d d' : Decoder S} {last : Option HeaderReport} {entries : List (Entry S)}
  {stamps : Timestamps} {obu : Obu} {r : Outcome DecodeError Unit}

theorem Decoder.Obeys.congr (h : d.Obeys last) (hstream : d'.stream = d.stream)
    (hstatus : ∀ format, d.status = .unsupported format → d'.status = .unsupported format) :
    d'.Obeys last := by
  cases h with
  | unheard h => exact .unheard (hstream.trans h)
  | taken h => exact .taken (hstream.trans h)
  | formatless h => exact .formatless (hstream.trans h)
  | unsupported h => exact .unsupported (hstatus _ h)
  | refused => exact .refused
  | faulted => exact .faulted

theorem Decoder.Obeys.withoutPicture (h : d.Obeys last) : d.withoutPicture.Obeys last :=
  h.congr rfl fun _ h => h

theorem Decoder.Starts.startedAfter {header : Header} {started : Picture S}
    (h : d.Starts header started) (hsupported : ∀ format, d.status ≠ .unsupported format)
    (hd : d.Obeys last) : ∃ report, last = some report ∧ StartedAfter started report := by
  obtain ⟨info, hinfo, hsequence⟩ := h.stream
  cases hd with
  | unheard hstream => exact nomatch hstream.symm.trans hinfo
  | taken hstream =>
    obtain rfl := Option.some.inj (hstream.symm.trans hinfo)
    exact ⟨_, rfl, hsequence ▸ .taken⟩
  | formatless hstream => exact nomatch hstream.symm.trans hinfo
  | unsupported hstatus => exact absurd hstatus (hsupported _)
  | refused => exact ⟨_, rfl, .refused _ _⟩
  | faulted => exact ⟨_, rfl, .faulted _ _⟩

theorem SequenceEnding.obeys {s : Sequence} (h : SequenceEnding d s r entries d')
    (hd : d.Obeys last) :
    d'.Obeys ((standing ((Obu.sequenceHeader s).reports r : List (Occurrence S))).or last) := by
  cases h with
  | repeated hstream hsame => exact hsame ▸ .taken hstream
  | formatless => exact .formatless rfl
  | unsupported => exact .unsupported rfl
  | failed _ hcause =>
    cases hcause with
    | withinFrame => exact hd.withoutPicture
    | refused => exact .refused
    | fault => exact .faulted
  | taken _ hsequence => exact hsequence ▸ .taken rfl

theorem SequenceEnding.not_starts {s : Sequence} (h : SequenceEnding d s r entries d')
    {started : Picture S} {answer : Except BackendError Unit} :
    .called (.startFrame started) answer ∉ entries := by
  cases h with
  | repeated | formatless | unsupported => exact List.not_mem_nil
  | failed _ hcause =>
    intro hmem
    obtain ⟨info, answer, h⟩ := hcause.changeStream _ hmem
    exact nomatch h
  | taken => simp

theorem HeaderEnding.obeys {header : Header} {r : Outcome DecodeError Bool}
    (h : HeaderEnding d header stamps r entries d')
    (hsupported : ∀ format, d.status ≠ .unsupported format) (hd : d.Obeys last) :
    d'.Obeys last ∧ ∀ started answer, .called (.startFrame started) answer ∈ entries →
      ∃ report, last = some report ∧ StartedAfter started report := by
  have hkept {d' : Decoder S} (hstream : d'.stream = d.stream) : d'.Obeys last :=
    hd.congr hstream fun format h => absurd h (hsupported format)
  have honly {first : Picture S} (hstarts : d.Starts header first)
      (made : Except BackendError Unit) (started : Picture S) (answer : Except BackendError Unit)
      (hmem : Entry.called (.startFrame started) answer ∈ [.called (.startFrame first) made]) :
      ∃ report, last = some report ∧ StartedAfter started report := by
    obtain ⟨⟨rfl⟩, -⟩ := Entry.called.inj (List.mem_singleton.mp hmem)
    exact hstarts.startedAfter hsupported hd
  cases h with
  | waiting => exact ⟨hd, by simp⟩
  | rejected => exact ⟨hkept rfl, by simp⟩
  | shown => exact ⟨hkept rfl, by simp⟩
  | uncounted => exact ⟨hkept rfl, by simp⟩
  | failed => exact ⟨hkept rfl, by simp⟩
  | refused hstarts => exact ⟨hkept rfl, honly hstarts _⟩
  | started hstarts => exact ⟨hkept rfl, honly hstarts _⟩

theorem TilesEnding.obeys {group : TileGroup} (h : TilesEnding d group stamps r entries d')
    (hd : d.Obeys last) :
    d'.Obeys last ∧ ∀ started answer, .called (.startFrame started) answer ∉ entries := by
  have hkept {d' : Decoder S} (hstream : d'.stream = d.stream) (hstatus : d'.status = d.status) :
      d'.Obeys last := hd.congr hstream fun _ h => hstatus.trans h
  cases h with
  | waiting => exact ⟨hd, by simp⟩
  | failed hentries =>
    refine ⟨hkept rfl rfl, fun started answer hmem => ?_⟩
    obtain ⟨tiles, answer, h⟩ := hentries _ hmem
    exact nomatch h
  | taken => exact ⟨hkept rfl rfl, by simp⟩
  | completed _ _ _ hfinish =>
    cases hfinish with
    | refused => exact ⟨hkept rfl rfl, by simp⟩
    | finished => exact ⟨hkept rfl rfl, by simp⟩
    | uncounted => exact ⟨hkept rfl rfl, by simp⟩

theorem DispatchEnding.obeys (h : DispatchEnding d stamps obu r entries d')
    (hstatus : ∀ format, d.status = .unsupported format → ∃ s, obu = .sequenceHeader s)
    (hd : d.Obeys last) :
    d'.Obeys ((standing (obu.reports r : List (Occurrence S))).or last) ∧
      ∀ started answer, .called (.startFrame started) answer ∈ entries →
        ∃ report, (standing (obu.reports r : List (Occurrence S))).or last = some report ∧
          StartedAfter started report := by
  have hsupported {header : Header} (hobu : obu.frameHeader? = some header) (format : PixelFormat) :
      d.status ≠ .unsupported format := by
    intro hformat
    obtain ⟨s, rfl⟩ := hstatus format hformat
    exact nomatch hobu
  have hsilent {header : Header} (hobu : obu.frameHeader? = some header) :
      standing (obu.reports r : List (Occurrence S)) = none := by
    cases obu with
    | sequenceHeader s => exact nomatch hobu
    | _ => rfl
  cases h with
  | ignored hobu =>
    cases obu with
    | sequenceHeader s => exact absurd rfl (hobu s)
    | _ => exact ⟨hd, by simp⟩
  | tileList => exact ⟨hd.withoutPicture, by simp⟩
  | sequence hsequence =>
    refine ⟨hsequence.obeys hd, fun started answer hmem => ?_⟩
    exact absurd hmem hsequence.not_starts
  | header hobu hheader =>
    rw [hsilent hobu]
    exact hheader.obeys (hsupported hobu) hd
  | headerFailed hobu hheader =>
    rw [hsilent hobu]
    exact hheader.obeys (hsupported hobu) hd
  | tiles htiles =>
    obtain ⟨hd', hnone⟩ := htiles.obeys hd
    exact ⟨hd', fun started answer hmem => absurd hmem (hnone started answer)⟩
  | frame hheader htiles =>
    obtain ⟨hstarted, hstarts⟩ := hheader.obeys (hsupported rfl) hd
    obtain ⟨hd', hnone⟩ := htiles.obeys hstarted
    refine ⟨hd', fun started answer hmem => ?_⟩
    rcases List.mem_append.mp hmem with hmem | hmem
    · exact hstarts started answer hmem
    · exact absurd hmem (hnone started answer)

theorem Decode.run_inOperatingPoint {s : Session β S} {h : ObuHeader} {info : StreamInfo}
    {included : Bool} (hstream : s.decoder.stream = some info)
    (hincluded :
      (info.sequence.selectedPoint s.decoder.operatingPoint).includes h = .ok included) :
    (inOperatingPoint h).run s = (.ok included, s) := by
  have hdecoder : (decoder : Decode β S (Decoder S)).run s = (.ok s.decoder, s) := rfl
  rw [inOperatingPoint, run_bind_of_ok hdecoder]
  simp only [hstream]
  exact run_checked hincluded

theorem Decode.run_inOperatingPoint_of_includes {s : Session β S} {h : ObuHeader}
    (hincludes : s.decoder.Includes h) : (inOperatingPoint h).run s = (.ok true, s) := by
  cases hstream : s.decoder.stream with
  | none =>
    have hdecoder : (decoder : Decode β S (Decoder S)).run s = (.ok s.decoder, s) := rfl
    rw [inOperatingPoint, run_bind_of_ok hdecoder]
    simp only [hstream]
    rfl
  | some info => exact run_inOperatingPoint hstream (hincludes info hstream)

theorem Decode.entry?_heard {s : Session β S} :
    (Decode.heard obu r s).filterMap entry? = [] := by
  unfold heard
  split
  · cases obu <;> rfl
  · rfl

theorem Obu.served_reports : Served last (obu.reports r : List (Occurrence S)) := by
  cases obu with
  | sequenceHeader s => exact served_header _
  | _ => exact served_nil

theorem UnitEnding.told {s : Session β S} (h : UnitEnding s.decoder stamps obu r entries d')
    (hs : s.decoder.Obeys last) :
    d'.Obeys ((standing (Decode.heard obu r s)).or last) ∧
      Served last (Decode.heard obu r s ++ entries.map .entry) := by
  cases h with
  | excluded hstream hexcluded =>
    rw [Decode.heard, Decode.run_inOperatingPoint hstream hexcluded, if_neg (by simp)]
    exact ⟨hs, served_nil⟩
  | @faulted f =>
    rw [List.map_nil, List.append_nil, Decode.heard]
    split
    · refine ⟨?_, Obu.served_reports⟩
      cases obu with
      | sequenceHeader s => exact .faulted
      | _ => exact hs.withoutPicture
    · exact ⟨hs.withoutPicture, served_nil⟩
  | unsupported hstatus hobu =>
    have hsilent (outcome : Outcome DecodeError Unit) :
        (obu.reports outcome : List (Occurrence S)) = [] := by
      cases obu with
      | sequenceHeader s => exact absurd rfl (hobu s)
      | _ => rfl
    rw [List.map_nil, List.append_nil, Decode.heard, hsilent, ite_self]
    exact ⟨hs.withoutPicture, served_nil⟩
  | dispatched hincluded hstatus hdispatch =>
    rw [Decode.heard, Decode.run_inOperatingPoint_of_includes hincluded, if_pos rfl]
    obtain ⟨hd', hstarts⟩ := hdispatch.obeys hstatus hs
    exact ⟨hd', Obu.served_reports.append (served_entries _ hstarts)⟩

/-- The occurrences lead from one session to another, and frames are started as they should be. -/
structure Told (last : Option HeaderReport) (s : Session β S) (occurrences : List (Occurrence S))
    (s' : Session β S) : Prop where
  journal_eq : s'.journal = s.journal ++ occurrences.filterMap entry?
  served : Served last occurrences
  obeys : s'.decoder.Obeys ((standing occurrences).or last)

namespace Told

variable {s s₁ s' : Session β S} {a b : List (Occurrence S)}

theorem append (ha : Told last s a s₁) (hb : Told ((standing a).or last) s₁ b s') :
    Told last s (a ++ b) s' where
  journal_eq := by
    rw [hb.journal_eq, ha.journal_eq, List.filterMap_append, List.append_assoc]
  served := ha.served.append hb.served
  obeys := by
    rw [standing_append, Option.or_assoc]
    exact hb.obeys

theorem nil (h : s.decoder.Obeys last) : Told last s [] s :=
  ⟨(List.append_nil _).symm, served_nil, h⟩

theorem flush (h : s.decoder.Obeys last) : Told last s [.entry .flushed] s.flush where
  journal_eq := rfl
  served := served_entries [.flushed] (by simp)
  obeys := by
    refine h.congr rfl fun format hstatus => ?_
    change (if s.decoder.status = .decoding then Status.reset else s.decoder.status) = _
    rw [hstatus]
    rfl

/-- A unit tells of the sequence header that it is, and then of the entries it makes. -/
theorem unit {backend : Backend β S} (h : s.decoder.Obeys last)
    (hrun : (Decode.unit backend obu stamps).run s = (.ok (), s')) :
    Told last s (Decode.heard obu (.ok ()) s ++
      (s'.journal.drop s.journal.length).map .entry) s' := by
  obtain ⟨entries, hjournal, hunit⟩ := Leads.ok Decode.unit_endsBy hrun
  obtain ⟨hobeys, hserved⟩ := hunit.told h
  rw [hjournal, List.drop_left]
  refine ⟨?_, hserved, ?_⟩
  · rw [List.filterMap_append, Decode.entry?_heard, entry?_entries, List.nil_append, hjournal]
  · rwa [standing_append, standing_entries]

theorem unit_error {backend : Backend β S} {e : Failure DecodeError} (h : s.decoder.Obeys last)
    (hrun : (Decode.unit backend obu stamps).run s = (.error e, s')) :
    Told last s (Decode.heard obu (.error e) s ++
      (s'.journal.drop s.journal.length).map .entry ++ [.entry .failed]) s'.dropPicture := by
  obtain ⟨entries, hjournal, hunit⟩ := Leads.error Decode.unit_endsBy hrun
  obtain ⟨hobeys, hserved⟩ := hunit.told h
  rw [hjournal, List.drop_left]
  refine ⟨?_, hserved.append served_failed, ?_⟩
  · rw [List.filterMap_append, List.filterMap_append, Decode.entry?_heard, entry?_entries,
      List.nil_append, ← List.append_assoc, ← hjournal]
    rfl
  · rw [standing_append, standing_append, standing_entries]
    exact hobeys

theorem decode {backend : Backend β S} {obus : List Obu} (h : s.decoder.Obeys last) :
    Told last s (Decode.occurrences backend stamps obus s)
      (s.decode backend { stamps, obus }).2 := by
  induction obus generalizing s last with
  | nil => exact nil h
  | cons obu rest ih =>
    rcases hunit : (Decode.unit backend obu stamps).run s with ⟨e | _, s₁⟩
    · have hrun : (Decode.units backend stamps (obu :: rest)).run s = (.error e, s₁) :=
        run_bind_of_error hunit
      rw [Session.decode, hrun, Decode.occurrences, hunit]
      exact unit_error h hunit
    · have hrun : (Decode.units backend stamps (obu :: rest)).run s =
          (Decode.units backend stamps rest).run s₁ := run_bind_of_ok hunit
      rw [Session.decode, hrun, Decode.occurrences, hunit]
      have hfirst := unit h hunit
      exact hfirst.append (ih hfirst.obeys)

theorem handle (h : s.decoder.Obeys last) (request : Request β S) :
    Told last s (s.occurrences request) (s.handle request) := by
  cases request with
  | decode backend packet => exact decode h
  | flush => exact flush h
  | nextEvent => exact ⟨(List.append_nil _).symm, served_nil, h.congr rfl fun _ h => h⟩

theorem run (h : s.decoder.Obeys last) (requests : List (Request β S)) :
    Told last s (s.chronicle requests) (s.run requests) := by
  induction requests generalizing s last with
  | nil => exact nil h
  | cons request rest ih =>
    have hfirst := handle h request
    exact hfirst.append (ih hfirst.obeys)

end Told

namespace Session

/-- Whatever a decoder is asked, and however its backend answers: the frames that the backend is
    asked to start have the sequence of the last sequence header that was processed, if it was taken
    over. If that header has no pixel format, or one that the backend cannot decode into, no frame
    is started. Headers that are turned away because a picture is in progress do not count. -/
theorem startedAfter_run (backend : β) (operatingPoint : Nat) (requests : List (Request β S)) :
    let s : Session β S := start backend operatingPoint
    (s.chronicle requests).filterMap entry? = (s.run requests).journal ∧
      ∀ before started answer rest,
        s.chronicle requests = before ++ .entry (.called (.startFrame started) answer) :: rest →
          ∃ report, standing before = some report ∧ StartedAfter started report := by
  intro s
  have htold : Told none s (s.chronicle requests) (s.run requests) :=
    Told.run (.unheard rfl) requests
  refine ⟨htold.journal_eq.symm, fun before started answer rest hsplit => ?_⟩
  have hserved := htold.served before started answer rest hsplit
  rwa [Option.or_none] at hserved

/-- A sequence header that interrupts a frame is turned away, and the next frame has the sequence of
    the header before it. -/
theorem not_startedAfter_last :
    let other : Sequence := { Script.sequence with maxFrameWidthMinus1 := 1 }
    let requests : List (Request Script Nat) := [
      .decode Script.backend
        { obus := [.sequenceHeader Script.sequence, .frameHeader Script.keyFrame] },
      .decode Script.backend { obus := [.sequenceHeader other] },
      .decode Script.backend { obus := [.frameHeader Script.keyFrame] }]
    ¬ ∀ before started answer rest,
      Script.session.chronicle requests =
          before ++ .entry (.called (.startFrame started) answer) :: rest →
        ∃ outcome, (before.filterMap header?).getLast? = some (started.sequence, outcome) := by
  intro other requests h
  have hlast : (((Script.session.chronicle requests).take 5).filterMap header?).getLast? =
      some (other, .error (.error (.sequenceWithinFrame 0))) := by decide +kernel
  have hstarts : ∃ started answer,
      (Script.session.chronicle requests)[5]? =
          some (.entry (.called (.startFrame started) answer)) ∧
        started.sequence = Script.sequence := by
    have hsixth : ((Script.session.chronicle requests)[5]?.bind started?).map (·.sequence) =
        some Script.sequence := by decide +kernel
    obtain ⟨started, hstarted, hsequence⟩ := Option.map_eq_some_iff.mp hsixth
    obtain ⟨x, hx, hstarted⟩ := Option.bind_eq_some_iff.mp hstarted
    obtain ⟨answer, rfl⟩ := started?_eq_some hstarted
    exact ⟨started, answer, hx, hsequence⟩
  obtain ⟨started, answer, hget, hsequence⟩ := hstarts
  obtain ⟨hlt, hget⟩ := List.getElem?_eq_some_iff.mp hget
  have hsplit : Script.session.chronicle requests =
      (Script.session.chronicle requests).take 5 ++
        .entry (.called (.startFrame started) answer) ::
          (Script.session.chronicle requests).drop 6 := by
    rw [← hget, ← List.drop_eq_getElem_cons, List.take_append_drop]
  obtain ⟨outcome, hreport⟩ := h _ started answer _ hsplit
  rw [hlast, hsequence] at hreport
  have hother : other ≠ Script.sequence := by decide +kernel
  exact hother (Prod.mk.inj (Option.some.inj hreport)).1

end Session

end Av1Frames
