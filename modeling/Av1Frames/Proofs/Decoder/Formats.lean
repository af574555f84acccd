import Av1Frames.Decoder.Scripted
import Av1Frames.Proofs.Decoder.References

namespace Av1Frames

variable {β S : Type}

/-- The formats among some events. -/
def formats (events : List (Event S)) : List StreamInfo :=
  events.filterMap fun
    | .formatChanged info => some info
    | .frameReady _ => none

/-- The streams that the backend accepted. -/
def streams (journal : List (Entry S)) : List StreamInfo :=
  journal.filterMap fun
    | .called (.changeStream info) (.ok ()) => some info
    | _ => none

theorem formats_append (a b : List (Event S)) : formats (a ++ b) = formats a ++ formats b :=
  List.filterMap_append

theorem streams_append (a b : List (Entry S)) : streams (a ++ b) = streams a ++ streams b :=
  List.filterMap_append

theorem streams_eq_nil {entries : List (Entry S)}
    (h : ∀ entry ∈ entries, ∃ data tiles, entry = .called (.decodeTiles data tiles) (.ok ())) :
    streams entries = [] := by
  refine List.filterMap_eq_nil_iff.mpr fun entry hentry => ?_
  obtain ⟨data, tiles, rfl⟩ := h entry hentry
  rfl

namespace Session

/-- The event that a request gives to the client. -/
def taken (s : Session β S) : Request β S → List (Event S)
  | .decode _ _ | .flush => []
  | .nextEvent => s.nextEvent.1.toList

/-- The events that some requests give to the client. -/
def delivered (s : Session β S) : List (Request β S) → List (Event S)
  | [] => []
  | request :: rest => s.taken request ++ (s.handle request).delivered rest

theorem delivered_snoc (s : Session β S) (requests : List (Request β S)) (request : Request β S) :
    s.delivered (requests ++ [request]) =
      s.delivered requests ++ (s.run requests).taken request := by
  induction requests generalizing s with
  | nil => simp [delivered, run]
  | cons first rest ih =>
    rw [List.cons_append, delivered, delivered, ih, List.append_assoc]
    rfl

end Session

/-- A frame is ready that the backend has started. The client was told of the streams that were
    accepted until then, and the frame was started with the last of them, unless it was shown from a
    slot and another one was accepted since. -/
def Readied (journal : List (Entry S)) (told : List (Event S)) (surface : S) : Prop :=
  ∃ before started since after,
    journal = before ++ .called (.startFrame started) (.ok ()) :: (since ++ after) ∧
    started.surface = surface ∧
    (streams before).getLast?.map (·.sequence) = some started.sequence ∧
    formats told = streams (before ++ since) ∧
    ((formats told).getLast?.map (·.sequence) = some started.sequence ∨
      streams since ≠ [] ∧ ∃ earlier header frame,
        since = earlier ++ [.shown header frame] ∧ frame.surface = surface)

theorem Readied.append {journal : List (Entry S)} {told : List (Event S)} {surface : S}
    (h : Readied journal told surface) (entries : List (Entry S)) :
    Readied (journal ++ entries) told surface := by
  obtain ⟨before, started, since, after, rfl, h⟩ := h
  exact ⟨before, started, since, after ++ entries, by simp, h⟩

/-- A frame is started with the stream that was accepted last. -/
def Entry.InStream (before : List (Entry S)) : Entry S → Prop
  | .called (.startFrame started) _ =>
    (streams before).getLast?.map (·.sequence) = some started.sequence
  | _ => True

/-- What the client was told of, and will be, when the journal is as given. -/
structure Reports (stream : Option StreamInfo) (told : List (Event S)) (journal : List (Entry S)) :
    Prop where
  formats_eq : formats told = streams journal
  stream_eq : ∀ info, stream = some info → (streams journal).getLast? = some info
  inStream : EachEntry Entry.InStream journal
  readied : ∀ before f after, told = before ++ .frameReady f :: after →
    Readied journal before f.surface

namespace Reports

variable {stream : Option StreamInfo} {told : List (Event S)} {journal entries : List (Entry S)}

theorem initial : Reports (S := S) none [] [] where
  formats_eq := rfl
  stream_eq _ h := by cases h
  inStream := .nil
  readied _ _ _ h := absurd h.symm (List.append_ne_nil_of_right_ne_nil _ (List.cons_ne_nil _ _))

/-- An entry that is no stream. -/
theorem entry (h : Reports stream told journal) (entry : Entry S) (hstream : streams [entry] = [])
    (hentry : entry.InStream journal) : Reports stream told (journal ++ [entry]) where
  formats_eq := by rw [streams_append, hstream, List.append_nil, h.formats_eq]
  stream_eq := by
    rw [streams_append, hstream, List.append_nil]
    exact h.stream_eq
  inStream := h.inStream.snoc hentry
  readied before f after heq := (h.readied before f after heq).append _

theorem decodeTiles (h : Reports stream told journal)
    (hentries : ∀ entry ∈ entries,
      ∃ data tiles answer, entry = .called (.decodeTiles data tiles) answer) :
    Reports stream told (journal ++ entries) := by
  refine append_of_forall_mem h (fun hbefore hentry => ?_) hentries
  obtain ⟨data, tiles, answer, rfl⟩ := hentry
  exact hbefore.entry _ (by cases answer <;> rfl) trivial

theorem stream_none (h : Reports stream told journal) : Reports none told journal where
  formats_eq := h.formats_eq
  stream_eq _ h := by cases h
  inStream := h.inStream
  readied := h.readied

theorem event_formatChanged (h : Reports stream told journal) (info : StreamInfo) :
    Reports (some info) (told ++ [.formatChanged info])
      (journal ++ [.called (.changeStream info) (.ok ())]) where
  formats_eq := by
    rw [formats_append, streams_append, h.formats_eq]
    rfl
  stream_eq info' hinfo := by
    obtain rfl := Option.some.inj hinfo
    rw [streams_append]
    exact List.getLast?_concat
  inStream := h.inStream.snoc trivial
  readied before f after heq := by
    rcases split_of_snoc heq with ⟨-, hsame⟩ | ⟨more, hmore⟩
    · cases hsame
    · exact (h.readied before f more hmore).append _

theorem event_frameReady (h : Reports stream told journal) {f : OutputFrame S}
    (hf : Readied journal told f.surface) : Reports stream (told ++ [.frameReady f]) journal where
  formats_eq := by rw [formats_append, h.formats_eq]; exact List.append_nil _
  stream_eq := h.stream_eq
  inStream := h.inStream
  readied before g after heq := by
    rcases split_of_snoc heq with ⟨rfl, hsame⟩ | ⟨more, hmore⟩
    · obtain rfl := Event.frameReady.inj hsame
      exact hf
    · exact h.readied before g more hmore

theorem readied_of_start (h : Reports stream told journal) (before since : List (Entry S))
    {started : Picture S}
    (hjournal : journal = before ++ .called (.startFrame started) (.ok ()) :: since)
    (hsince : streams since = [] ∨ ∃ earlier header frame,
      since = earlier ++ [.shown header frame] ∧ frame.surface = started.surface) :
    Readied journal told started.surface := by
  have hsequence := h.inStream before _ since hjournal
  have hformats : formats told = streams (before ++ since) := by
    rw [h.formats_eq, hjournal, streams_append, streams_append]
    rfl
  have hall : journal = before ++ .called (.startFrame started) (.ok ()) :: (since ++ []) := by
    rw [List.append_nil, hjournal]
  refine ⟨before, started, since, [], hall, rfl, hsequence, hformats, ?_⟩
  by_cases hnone : streams since = []
  · left
    rw [hformats, streams_append, hnone, List.append_nil]
    exact hsequence
  · exact .inr ⟨hnone, hsince.resolve_left hnone⟩

theorem outputEvents (h : Reports stream told journal) {d : Decoder S} {frame : Frame S}
    (hframe : Readied journal told frame.surface) (spatialId : Nat) (stamps : Timestamps) :
    Reports stream (told ++ d.outputEvents frame spatialId stamps) journal := by
  unfold Decoder.outputEvents
  split
  · rwa [List.append_nil]
  · exact h.event_frameReady hframe

end Reports

variable {d d' : Decoder S} {told : List (Event S)} {journal entries : List (Entry S)}
  {stamps : Timestamps} {r : Outcome DecodeError Unit}

theorem Reports.failed {stream : Option StreamInfo} (h : Reports stream told journal) :
    Reports stream told (journal ++ [.failed]) := h.entry _ rfl trivial

theorem SequenceEnding.reports {s : Sequence} (h : SequenceEnding d s r entries d')
    (hd : Reports d.stream (told ++ d.events) journal) :
    Reports d'.stream (told ++ d'.events) (journal ++ entries ++ failureMark r) := by
  cases h with
  | repeated => rwa [failureMark, List.append_nil, List.append_nil]
  | formatless =>
    rw [List.append_nil]
    exact hd.stream_none.failed
  | unsupported =>
    rw [List.append_nil]
    exact hd.failed
  | failed _ hcause =>
    cases hcause with
    | withinFrame =>
      rw [List.append_nil]
      exact hd.failed
    | refused info e =>
      exact (hd.entry (.called (.changeStream info) (.error e)) rfl trivial).failed
    | fault =>
      rw [List.append_nil]
      exact hd.failed
  | @taken info layer =>
    rw [failureMark, List.append_nil]
    change Reports (some info) (told ++ (d.events ++ [.formatChanged info])) _
    rw [← List.append_assoc]
    exact hd.event_formatChanged info

theorem Decoder.Starts.inStream {header : Header} {started : Picture S}
    (h : d.Starts header started) (hd : Reports d.stream told journal)
    (answer : Except BackendError Unit) :
    (Entry.called (.startFrame started) answer).InStream journal := by
  obtain ⟨info, hinfo, hsequence⟩ := h.stream
  change (streams journal).getLast?.map (·.sequence) = some started.sequence
  rw [hd.stream_eq info hinfo, hsequence]
  rfl

theorem Decoder.Follows.completedIn (h : d.Follows journal) {i : Nat} {frame : Frame S}
    (hframe : d.references.content? i = some frame) : CompletedIn journal frame := by
  obtain ⟨hslots, hrecalls⟩ := h.remembers
  rw [hslots] at hframe
  obtain ⟨x, hx, rfl⟩ := History.exists_deposit_of_slot (History.content_slots hframe)
  exact completedIn_of_deposit hrecalls x hx

theorem HeaderEnding.reports {header : Header} {r : Outcome DecodeError Bool}
    (h : HeaderEnding d header stamps r entries d') (hfollows : d.Follows journal)
    (hd : Reports d.stream (told ++ d.events) journal) :
    Reports d'.stream (told ++ d'.events)
      (journal ++ entries ++ failureMark (r.map fun _ => ())) := by
  have hshown {frame : Frame S}
      (hframe : d.references.content? header.frameToShowMapIdx = some frame) :
      Reports d.stream (told ++ (d.events ++
          d.outputEvents frame header.obuHeader.spatialId stamps))
        (journal ++ [.shown header frame]) := by
    obtain ⟨before, started, tiles, after, hjournal, -, -, -, rfl⟩ := hfollows.completedIn hframe
    rw [← List.append_assoc]
    have hentry := hd.entry (.shown header
      (.ofHeader started.header started.surface started.state)) rfl trivial
    refine hentry.outputEvents (hentry.readied_of_start before
      (tiles ++ .called .endFrame (.ok ()) :: after ++ [.shown header
        (.ofHeader started.header started.surface started.state)]) ?_
      (.inr ⟨_, _, _, rfl, rfl⟩)) _ _
    rw [hjournal]
    simp
  cases h with
  | waiting => rwa [Except.map, failureMark, List.append_nil, List.append_nil]
  | rejected =>
    rw [List.append_nil]
    exact hd.failed
  | shown _ _ _ hframe =>
    rw [Except.map, failureMark, List.append_nil]
    exact hshown hframe
  | uncounted _ hframe => exact (hshown hframe).failed
  | failed =>
    rw [List.append_nil]
    exact hd.failed
  | refused hstarts => exact (hd.entry _ rfl (hstarts.inStream hd _)).failed
  | started hstarts =>
    rw [Except.map, failureMark, List.append_nil]
    exact hd.entry _ rfl (hstarts.inStream hd _)

theorem FinishEnding.reports {picture : CurrentPicture S}
    (h : FinishEnding d picture stamps r entries d') (hcontinues : Continues journal picture)
    (hd : Reports d.stream (told ++ d.events) journal) :
    Reports d'.stream (told ++ d'.events) (journal ++ entries ++ failureMark r) := by
  have hended (answer : Except BackendError Unit) :=
    hd.entry (.called .endFrame answer) (by cases answer <;> rfl) trivial
  have hfinished : Reports d.stream (told ++ (d.withFinished picture stamps).events)
      (journal ++ [.called .endFrame (.ok ())]) := by
    change Reports d.stream (told ++ (d.events ++ _)) _
    rw [← List.append_assoc]
    split
    · refine (hended (.ok ())).outputEvents ?_ _ _
      obtain ⟨started, -, ⟨before, rest, hjournal, hrest⟩, -, hframe⟩ := hcontinues
      rw [hframe]
      refine (hended (.ok ())).readied_of_start before
        (rest ++ [.called .endFrame (.ok ())]) (by rw [hjournal]; simp) (.inl ?_)
      rw [streams_append, streams_eq_nil hrest]
      rfl
    · rw [List.append_nil]
      exact hended (.ok ())
  cases h with
  | refused => exact (hended _).failed
  | finished =>
    rw [failureMark, List.append_nil]
    exact hfinished
  | uncounted => exact hfinished.failed

theorem TilesEnding.reports {group : TileGroup} (h : TilesEnding d group stamps r entries d')
    (hfollows : d.Follows journal) (hd : Reports d.stream (told ++ d.events) journal) :
    Reports d'.stream (told ++ d'.events) (journal ++ entries ++ failureMark r) := by
  have htaken (tiles : List Tile) :
      Reports d.stream (told ++ d.events)
        (journal ++ [.called (.decodeTiles group.data tiles) (.ok ())]) :=
    hd.entry _ rfl trivial
  cases h with
  | waiting => rwa [failureMark, List.append_nil, List.append_nil]
  | failed hentries =>
    refine (hd.decodeTiles fun entry hentry => ?_).failed
    obtain ⟨tiles, answer, rfl⟩ := hentries entry hentry
    exact ⟨_, _, _, rfl⟩
  | taken =>
    rw [failureMark, List.append_nil]
    exact htaken _
  | @completed info picture tiles _ entries _ _ hpicture _ hfinish =>
    rw [← List.singleton_append, ← List.append_assoc]
    exact hfinish.reports ((hfollows.continues picture hpicture).decodeTiles group.data tiles _)
      (htaken tiles)

theorem reports_preserved (told : List (Event S)) :
    Preserved fun (d : Decoder S) journal =>
      d.Follows journal ∧ Reports d.stream (told ++ d.events) journal where
  abandoned h := ⟨follows_preserved.abandoned h.1, h.2.failed⟩
  sequence h hd := ⟨h.follows hd.1, h.reports hd.2⟩
  header h _ hd := ⟨h.follows hd.1, h.reports hd.1 hd.2⟩
  tiles h hd := ⟨h.follows hd.1, h.reports hd.1 hd.2⟩

namespace Session

/-- A session has told its client of what its journal says, counting the events that are not taken
    yet. -/
def HasTold (s : Session β S) (taken : List (Event S)) : Prop :=
  s.decoder.Follows s.journal ∧ Reports s.decoder.stream (taken ++ s.decoder.events) s.journal

theorem hasTold_handle {s : Session β S} (h : s.HasTold told) (request : Request β S) :
    (s.handle request).HasTold (told ++ s.taken request) := by
  cases request with
  | decode backend packet =>
    rw [taken, List.append_nil]
    exact (reports_preserved told).decode h backend packet
  | flush =>
    rw [taken, List.append_nil]
    exact ⟨follows_handle h.1 .flush, h.2.entry _ rfl trivial⟩
  | nextEvent =>
    refine ⟨follows_handle h.1 .nextEvent, ?_⟩
    have hevents : told ++ s.nextEvent.1.toList ++ s.nextEvent.2.decoder.events =
        told ++ s.decoder.events := by
      rw [nextEvent, List.append_assoc]
      cases s.decoder.events <;> rfl
    change Reports s.decoder.stream (told ++ s.nextEvent.1.toList ++ s.nextEvent.2.decoder.events) _
    rw [hevents]
    exact h.2

theorem hasTold_run {s : Session β S} (h : s.HasTold []) (requests : List (Request β S)) :
    (s.run requests).HasTold (s.delivered requests) := by
  induction requests using List.reverseRecOn with
  | nil => exact h
  | append_singleton requests request ih =>
    rw [run_snoc, delivered_snoc]
    exact hasTold_handle ih request

/-- Whatever a decoder is asked, and however its backend answers: of the frames that come to the
    client after a change of format, only those that are shown from slots can have been started
    with another sequence than that of the format. -/
theorem readied_run (backend : β) (operatingPoint : Nat) (requests : List (Request β S)) :
    let s : Session β S := start backend operatingPoint
    ∀ before f after,
      s.delivered requests ++ (s.run requests).decoder.events = before ++ .frameReady f :: after →
        Readied (s.run requests).journal before f.surface := by
  intro s
  have hs : s.HasTold [] := ⟨Remembers.initial.follows rfl rfl, .initial⟩
  exact (hasTold_run hs requests).2.readied

/-- The key frame that comes after the first format. -/
theorem readied_of_keyFrame :
    let key : Header := { Script.keyFrame with
      tileInfo := {}, showFrame := true, frameWidth := 1, frameHeight := 1, upscaledWidth := 1 }
    let group : TileGroup := { data := [0], dataSize := 1 }
    let requests : List (Request Script Nat) := [
      .decode Script.backend { obus := [.sequenceHeader Script.sequence, .frame key group] },
      .nextEvent]
    let frame : OutputFrame Nat :=
      { surface := 0, stamps := {}, spatialId := 0, resolution := ⟨1, 1⟩ }
    Script.session.delivered requests ++ (Script.session.run requests).decoder.events =
        [.formatChanged Script.info] ++ .frameReady frame :: [] ∧
      Readied (Script.session.run requests).journal [.formatChanged Script.info] frame.surface := by
  intro key group requests frame
  have hevents : Script.session.delivered requests ++
      (Script.session.run requests).decoder.events =
        [.formatChanged Script.info] ++ .frameReady frame :: [] := by decide +kernel
  refine ⟨hevents, ?_⟩
  rw [Script.session] at hevents ⊢
  exact readied_run ({} : Script) 0 requests _ frame [] hevents

/-- A frame of the first sequence that is shown from its slot after the format has changed. -/
theorem not_started_with_last_format :
    let other : Sequence := { Script.sequence with maxFrameWidthMinus1 := 1 }
    let key : Header := { Script.keyFrame with
      tileInfo := {}, showFrame := true, frameWidth := 1, frameHeight := 1, upscaledWidth := 1 }
    let group : TileGroup := { data := [0], dataSize := 1 }
    let requests : List (Request Script Nat) := [
      .decode Script.backend { obus := [.sequenceHeader Script.sequence, .frame key group] },
      .decode Script.backend { obus := [.sequenceHeader other] },
      .decode Script.backend { obus := [.frameHeader { showExistingFrame := true }] },
      .nextEvent, .nextEvent, .nextEvent, .nextEvent]
    ¬ ∀ before f after, Script.session.delivered requests = before ++ .frameReady f :: after →
      ∃ started ∈ (Script.session.run requests).journal.filterMap Entry.started?,
        started.surface = f.surface ∧
        (formats before).getLast?.map (·.sequence) = some started.sequence := by
  intro other key group requests h
  have hevents : Script.session.delivered requests =
      [.formatChanged Script.info,
        .frameReady { surface := 0, stamps := {}, spatialId := 0, resolution := ⟨1, 1⟩ },
        .formatChanged { Script.info with sequence := other, codedResolution := ⟨2, 1⟩ }] ++
      [.frameReady { surface := 0, stamps := {}, spatialId := 0, resolution := ⟨1, 1⟩ }] := by
    decide +kernel
  have hstarts : ∀ started ∈ (Script.session.run requests).journal.filterMap Entry.started?,
      started.sequence = Script.sequence := by decide +kernel
  obtain ⟨started, hstarted, -, hsequence⟩ := h _ _ _ hevents
  have hfirst := hstarts started hstarted
  have hlast : other = started.sequence := Option.some.inj hsequence
  have hother : other ≠ Script.sequence := by decide +kernel
  exact hother (hlast.trans hfirst)

end Session

end Av1Frames
