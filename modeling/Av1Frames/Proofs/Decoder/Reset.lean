import Av1Frames.Decoder.Scripted
import Av1Frames.Proofs.Decoder.Ending.Inversion
import Av1Frames.Proofs.Decoder.Run

namespace Av1Frames

variable {β S α : Type}

/-- The type of the frame that the backend was asked to start, whatever it answered. -/
def Entry.startType? : Entry S → Option FrameType
  | .called (.startFrame picture) _ => some picture.header.frameType
  | _ => none

/-- The types of the frames that the backend was asked to start, in order. -/
def startTypes (entries : List (Entry S)) : List FrameType := entries.filterMap Entry.startType?

theorem startTypes_append (first later : List (Entry S)) :
    startTypes (first ++ later) = startTypes first ++ startTypes later := List.filterMap_append

theorem startTypes_eq_nil {entries : List (Entry S)}
    (h : ∀ entry ∈ entries, entry.startType? = none) : startTypes entries = [] :=
  List.filterMap_eq_nil_iff.mpr h

theorem startTypes_failureMark (r : Outcome DecodeError Unit) :
    startTypes (failureMark r : List (Entry S)) = [] := by
  cases r <;> rfl

/-- Failures that end a reset although no key frame was started. -/
inductive Failure.EndsReset : Failure DecodeError → Prop
  /-- The key frame fails before the backend hears of it. -/
  | beforeStart {e : Failure DecodeError} (he : e.BeforeStart) : EndsReset e
  | format (e : FormatError) : EndsReset (.error (.format e))
  | formatRefused (f : PixelFormat) : EndsReset (.error (.formatRefused f))

/-- How a decoder fares that waits for a key frame. -/
inductive Awaits (r : Outcome DecodeError α) (entries : List (Entry S)) (d' : Decoder S) : Prop
  /-- It goes on waiting. -/
  | waiting (hstarts : startTypes entries = []) (hstatus : d'.status = .reset)
  /-- A key frame is the first frame that it starts. -/
  | led (hkey : (startTypes entries).head? = some .keyFrame)
  /-- It stops waiting without having started a frame. -/
  | lost {e : Failure DecodeError} (hstarts : startTypes entries = []) (hfails : r = .error e)
      (hends : e.EndsReset)

variable {d d' : Decoder S} {entries : List (Entry S)} {stamps : Timestamps}

/-- Tiles start nothing. -/
theorem TilesEnding.startTypes_eq_nil {group : TileGroup} {r : Outcome DecodeError Unit}
    (h : TilesEnding d group stamps r entries d') : startTypes entries = [] := by
  cases h with
  | waiting => rfl
  | failed hentries =>
    refine Av1Frames.startTypes_eq_nil fun entry hentry => ?_
    obtain ⟨tiles, answer, rfl⟩ := hentries entry hentry
    rfl
  | taken => rfl
  | completed _ _ _ hfinish => cases hfinish <;> rfl

theorem TilesEnding.status_eq {group : TileGroup} {r : Outcome DecodeError Unit}
    (h : TilesEnding d group stamps r entries d') : d'.status = d.status := by
  cases h with
  | waiting => rfl
  | failed => rfl
  | taken => rfl
  | completed _ _ _ hfinish => cases hfinish <;> rfl

theorem HeaderEnding.awaits {header : Header} {r : Outcome DecodeError Bool}
    (h : HeaderEnding d header stamps r entries d') (hreset : d.status = .reset) :
    Awaits r entries d' := by
  have hled {started : Picture S} (hstarts : d.Starts header started)
      (answer : Except BackendError Unit) :
      (startTypes [.called (.startFrame started) answer]).head? = some .keyFrame := by
    change some started.header.frameType = _
    rw [hstarts.header_eq, hstarts.key hreset]
  cases h with
  | waiting => exact .waiting rfl hreset
  | rejected => exact .waiting rfl hreset
  | shown _ hstatus => exact absurd hreset hstatus
  | uncounted hstatus => exact absurd hreset hstatus
  | failed he => exact .lost rfl rfl (.beforeStart he)
  | refused hstarts => exact .led (hled hstarts _)
  | started hstarts => exact .led (hled hstarts _)

theorem SequenceEnding.awaits {s : Sequence} {r : Outcome DecodeError Unit}
    (h : SequenceEnding d s r entries d') (hreset : d.status = .reset) : Awaits r entries d' := by
  cases h with
  | repeated => exact .waiting rfl hreset
  | formatless => exact .lost rfl rfl (.format _)
  | unsupported => exact .lost rfl rfl (.formatRefused _)
  | failed _ hcause =>
    refine .waiting (startTypes_eq_nil fun entry hentry => ?_) hreset
    obtain ⟨info, answer, rfl⟩ := hcause.changeStream entry hentry
    rfl
  | taken => exact .waiting rfl (if_pos hreset)

/-- Only failures matter of the result, and only the frames that are started of the entries. -/
theorem Awaits.congr {δ : Type} {r : Outcome DecodeError α} {r' : Outcome DecodeError δ}
    {entries' : List (Entry S)} (h : Awaits r entries d')
    (hr : ∀ e, r = .error e → r' = .error e)
    (hentries : startTypes entries' = startTypes entries) : Awaits r' entries' d' := by
  cases h with
  | waiting hstarts hstatus => exact .waiting (hentries.trans hstarts) hstatus
  | led hkey => exact .led (by rw [hentries, hkey])
  | lost hstarts hfails hends => exact .lost (hentries.trans hstarts) (hr _ hfails) hends

/-- What comes later does not change which frame was started first. -/
theorem Awaits.append {r : Outcome DecodeError α} {later : List (Entry S)} {d'' : Decoder S}
    {δ : Type} {r' : Outcome DecodeError δ} (h : Awaits r entries d') (hok : ∃ a, r = .ok a)
    (hlater : d'.status = .reset → Awaits r' later d'') : Awaits r' (entries ++ later) d'' := by
  cases h with
  | waiting hstarts hstatus =>
    refine (hlater hstatus).congr (fun _ hfails => hfails) ?_
    rw [startTypes_append, hstarts, List.nil_append]
  | led hkey => exact .led (by rw [startTypes_append, List.head?_append, hkey, Option.some_or])
  | lost _ hfails =>
    obtain ⟨a, hok⟩ := hok
    exact nomatch hok.symm.trans hfails

theorem DispatchEnding.awaits {obu : Obu} {r : Outcome DecodeError Unit}
    (h : DispatchEnding d stamps obu r entries d') (hreset : d.status = .reset) :
    Awaits r entries d' := by
  cases h with
  | ignored => exact .waiting rfl hreset
  | tileList => exact .waiting rfl hreset
  | sequence hsequence => exact hsequence.awaits hreset
  | header _ hheader => exact (hheader.awaits hreset).congr nofun rfl
  | headerFailed _ hheader =>
    refine (hheader.awaits hreset).congr (fun f hf => ?_) rfl
    rw [Except.error.inj hf]
  | tiles htiles => exact .waiting htiles.startTypes_eq_nil (htiles.status_eq.trans hreset)
  | frame hheader htiles =>
    exact (hheader.awaits hreset).append ⟨true, rfl⟩ fun hstatus =>
      .waiting htiles.startTypes_eq_nil (htiles.status_eq.trans hstatus)

theorem UnitEnding.awaits {obu : Obu} {r : Outcome DecodeError Unit}
    (h : UnitEnding d stamps obu r entries d') (hreset : d.status = .reset) :
    Awaits r entries d' := by
  cases h with
  | excluded => exact .waiting rfl hreset
  | faulted => exact .waiting rfl hreset
  | unsupported => exact .waiting rfl hreset
  | dispatched _ _ hdispatch => exact hdispatch.awaits hreset

theorem UnitsEnding.awaits {obus : List Obu} {r : Outcome DecodeError Unit}
    (h : UnitsEnding stamps d obus r entries d') (hreset : d.status = .reset) :
    Awaits r entries d' := by
  induction h with
  | nil => exact .waiting rfl hreset
  | failed hunit => exact hunit.awaits hreset
  | cons hunit _ ih => exact (hunit.awaits hreset).append ⟨(), rfl⟩ ih

namespace Session

/-- The types of the frames that the backend was asked to start since the journal had `n`
    entries. -/
def startsSince (s : Session β S) (n : Nat) : List FrameType := startTypes (s.journal.drop n)

theorem startsSince_of_append {s s' : Session β S} {n : Nat} (hn : n ≤ s.journal.length)
    (hjournal : s'.journal = s.journal ++ entries) :
    s'.startsSince n = s.startsSince n ++ startTypes entries := by
  rw [startsSince, hjournal, List.drop_append_of_le_length hn, startTypes_append, startsSince]

/-- The result of a request. -/
def outcome (s : Session β S) : Request β S → Outcome DecodeError Unit
  | .decode backend packet => (s.decode backend packet).1
  | .flush => .ok ()
  | .nextEvent => .ok ()

/-- A decoder that has a stream waits for a key frame after a flush. -/
theorem reset_flush {s : Session β S}
    (hstatus : s.decoder.status = .decoding ∨ s.decoder.status = .reset) :
    s.flush.decoder.status = .reset := by
  change (if s.decoder.status = .decoding then Status.reset else s.decoder.status) = .reset
  rcases hstatus with h | h <;> rw [h] <;> rfl

/-- Requests only add to the journal, and none of them makes a decoder that waits for a key frame
    start another frame. -/
theorem handle_awaits (s : Session β S) (request : Request β S) :
    ∃ entries, (s.handle request).journal = s.journal ++ entries ∧
      (s.decoder.status = .reset →
        Awaits (s.outcome request) entries (s.handle request).decoder) := by
  cases request with
  | decode backend packet =>
    obtain ⟨entries, hunits, hjournal⟩ := s.decode_ending backend packet
    refine ⟨entries ++ failureMark (s.decode backend packet).1, ?_, fun hreset => ?_⟩
    · rw [← List.append_assoc]
      exact hjournal
    · refine (hunits.awaits hreset).congr (fun _ hfails => hfails) ?_
      rw [startTypes_append, startTypes_failureMark, List.append_nil]
  | flush => exact ⟨[.flushed], rfl, fun hreset => .waiting rfl (reset_flush (.inr hreset))⟩
  | nextEvent =>
    exact ⟨[], (List.append_nil _).symm, fun hreset => .waiting rfl hreset⟩

theorem prefix_journal_handle (s : Session β S) (request : Request β S) :
    s.journal <+: (s.handle request).journal := by
  obtain ⟨entries, hjournal, -⟩ := s.handle_awaits request
  exact ⟨entries, hjournal.symm⟩

theorem prefix_journal_run (s : Session β S) (requests : List (Request β S)) :
    s.journal <+: (s.run requests).journal :=
  run_induction (s.journal <+: ·.journal) List.prefix_rfl
    (fun s request h => h.trans (s.prefix_journal_handle request)) requests

/-- One of the requests ends the reset by a failure, before any frame is started. -/
def LosesReset (s : Session β S) (requests : List (Request β S)) : Prop :=
  ∃ before request after e, requests = before ++ request :: after ∧
    (s.run before).outcome request = .error e ∧ e.EndsReset ∧
    (s.run (before ++ [request])).startsSince s.journal.length = []

/-- Whatever a decoder is asked that waits for a key frame, it goes on waiting, or a key frame is
    the first frame that it starts, or it forgets about it with a failure. -/
theorem run_awaits {s : Session β S} (hreset : s.decoder.status = .reset)
    (requests : List (Request β S)) :
    s.journal.length ≤ (s.run requests).journal.length ∧
      ((s.run requests).startsSince s.journal.length = [] ∧
          (s.run requests).decoder.status = .reset ∨
        ((s.run requests).startsSince s.journal.length).head? = some .keyFrame ∨
        s.LosesReset requests) := by
  induction requests using List.reverseRecOn with
  | nil =>
    refine ⟨le_rfl, .inl ⟨?_, hreset⟩⟩
    rw [run, List.foldl_nil, startsSince, List.drop_length]
    rfl
  | append_singleton requests request ih =>
    obtain ⟨hlength, hstate⟩ := ih
    obtain ⟨entries, hjournal, hawaits⟩ := (s.run requests).handle_awaits request
    rw [run_snoc]
    have hstarts := startsSince_of_append hlength hjournal
    refine ⟨by rw [hjournal, List.length_append]; omega, ?_⟩
    rcases hstate with ⟨hnone, hstatus⟩ | hkey | hlost
    · rw [hnone, List.nil_append] at hstarts
      cases hawaits hstatus with
      | waiting hnone' hstatus' => exact .inl ⟨hstarts.trans hnone', hstatus'⟩
      | led hkey => exact .inr (.inl (by rw [hstarts, hkey]))
      | lost hnone' hfails hends =>
        refine .inr (.inr ⟨requests, request, [], _, rfl, hfails, hends, ?_⟩)
        rw [run_snoc, hstarts, hnone']
    · exact .inr (.inl (by rw [hstarts, List.head?_append, hkey, Option.some_or]))
    · obtain ⟨before, failing, after, e, rfl, hrest⟩ := hlost
      exact .inr (.inr ⟨before, failing, after ++ [request], e, List.append_assoc _ _ _, hrest⟩)

/-- When a decoder with a stream is flushed, the first frame that the backend is asked to start is a
    key frame, unless the decoder forgets about the flush with a failure. -/
theorem keyFrame_leads_after_flush {s : Session β S}
    (hstatus : s.decoder.status = .decoding ∨ s.decoder.status = .reset)
    (requests : List (Request β S)) :
    (∀ frameType ∈ ((s.flush.run requests).startsSince s.flush.journal.length).head?,
        frameType = .keyFrame) ∨
      s.flush.LosesReset requests := by
  rcases (run_awaits (reset_flush hstatus) requests).2 with ⟨hnone, -⟩ | hkey | hlost
  · rw [hnone]
    exact .inl nofun
  · rw [hkey]
    exact .inl fun frameType h => (Option.some.inj h).symm
  · exact .inr hlost

/-- A frame that is not a key frame is skipped after a flush, and the key frame after it started. -/
theorem keyFrame_leads_after_skipped_frame :
    let s := (Script.session.decode Script.backend
      { obus := [.sequenceHeader Script.sequence] }).2
    let requests : List (Request Script Nat) :=
      [.decode Script.backend { obus := [.frameHeader Script.interFrame] },
        .decode Script.backend { obus := [.frameHeader Script.keyFrame] }]
    s.decoder.status = .decoding ∧
      (s.flush.run requests).startsSince s.flush.journal.length = [.keyFrame] ∧
      ((∀ frameType ∈ ((s.flush.run requests).startsSince s.flush.journal.length).head?,
          frameType = .keyFrame) ∨
        s.flush.LosesReset requests) := by
  intro s requests
  have hstatus : s.decoder.status = .decoding := by decide +kernel
  exact ⟨hstatus, by decide +kernel, keyFrame_leads_after_flush (.inl hstatus) requests⟩

/-- Decoders that start a frame after a flush that is not a key frame: one that found no surface for
    a key frame, two that were given a sequence they could not use, and one that had no stream when
    it was flushed. -/
theorem interFrame_leads_after_flush :
    let sequence : Request Script Nat :=
      .decode Script.backend { obus := [.sequenceHeader Script.sequence] }
    let frame : Request Script Nat :=
      .decode Script.backend { obus := [.frameHeader Script.interFrame] }
    let noSurface : Request Script Nat :=
      .decode { Script.backend with allocate := fun s => (none, s) }
        { obus := [.frameHeader Script.keyFrame] }
    let formatless : Request Script Nat :=
      .decode Script.backend { obus := [.sequenceHeader Script.formatless] }
    let refused : Request Script Nat :=
      .decode { Script.backend with supports := fun _ _ => false }
        { obus := [.sequenceHeader { Script.sequence with stillPicture := true }] }
    let flushed := (Script.session.run [sequence]).flush
    (∀ requests ∈ [[noSurface, frame], [formatless, sequence, frame], [refused, sequence, frame]],
        (flushed.run requests).startsSince flushed.journal.length = [.interFrame]) ∧
      (Script.session.flush.run [sequence, frame]).startsSince 1 = [.interFrame] := by
  decide +kernel

end Session

end Av1Frames
