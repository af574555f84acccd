import Av1Frames.Proofs.Decoder.Formats
import Av1Frames.Proofs.Decoder.Reset

namespace Av1Frames

variable {β S : Type}

/-- The timestamps of the frames that are output while a request is handled. -/
def Request.stamps : Request β S → Timestamps
  | .decode _ packet => packet.stamps
  | .flush | .nextEvent => {}

theorem map_snd_stamped (stamps : Timestamps) (entries : List (Entry S)) :
    (entries.map (stamps, ·)).map Prod.snd = entries := by
  rw [List.map_map]
  exact List.map_id entries

namespace Session

/-- The entries that a request adds to the journal, each with the timestamps of its packet. -/
def added (s : Session β S) (request : Request β S) : List (Timestamps × Entry S) :=
  ((s.handle request).journal.drop s.journal.length).map (request.stamps, ·)

/-- The entries that some requests add to the journal, each with the timestamps of its packet. -/
def record (s : Session β S) : List (Request β S) → List (Timestamps × Entry S)
  | [] => []
  | request :: rest => s.added request ++ (s.handle request).record rest

theorem record_snoc (s : Session β S) (requests : List (Request β S)) (request : Request β S) :
    s.record (requests ++ [request]) = s.record requests ++ (s.run requests).added request := by
  induction requests generalizing s with
  | nil => exact List.append_nil _
  | cons first rest ih =>
    rw [List.cons_append, record, record, ih, List.append_assoc]
    rfl

theorem journal_handle (s : Session β S) (request : Request β S) :
    (s.handle request).journal = s.journal ++ (s.added request).map Prod.snd := by
  obtain ⟨entries, hjournal⟩ := s.prefix_journal_handle request
  rw [added, map_snd_stamped, ← hjournal, List.drop_left]

end Session

/-- The highest spatial layer of the stream that was accepted last, if its operating point selects
    any by number. -/
def topLayer (operatingPoint : Nat) (journal : List (Entry S)) : Option Nat :=
  (streams journal).getLast?.bind fun info =>
    (info.sequence.selectedPoint operatingPoint).topLayer

namespace Entry

/-- The frame that an entry brings to the client, with the header that shows it: a frame that was
    completed, if it is to be shown, or one from its slot. -/
def shows? (before : List (Entry S)) : Entry S → Option (Header × Frame S)
  | .called .endFrame (.ok ()) =>
    (historyOf before).opened.bind fun started =>
      if started.header.showFrame then
        some (started.header, .ofHeader started.header started.surface started.state)
      else none
  | .shown header frame => some (header, frame)
  | _ => none

/-- How a frame is announced that a header shows within a packet with the given timestamps: not at
    all if the header belongs to a spatial layer below the highest one. -/
def announceFrame (operatingPoint : Nat) (before : List (Entry S)) (stamps : Timestamps) :
    Header × Frame S → List (Event S)
  | (header, frame) =>
    let spatialId := header.obuHeader.spatialId
    if (topLayer operatingPoint before).any (spatialId < ·) then []
    else [.frameReady {
      surface := frame.surface, stamps, spatialId, resolution := frame.resolution }]

/-- What the client has to be told of when an entry is made. -/
def announcement (operatingPoint : Nat) (before : List (Entry S)) (stamps : Timestamps) :
    Entry S → List (Event S)
  | .called (.changeStream info) (.ok ()) => [.formatChanged info]
  | entry => (entry.shows? before).elim [] (announceFrame operatingPoint before stamps)

theorem announcement_of_shows? {entry : Entry S} {before : List (Entry S)} {x : Header × Frame S}
    (h : entry.shows? before = some x) (operatingPoint : Nat) (stamps : Timestamps) :
    entry.announcement operatingPoint before stamps =
      announceFrame operatingPoint before stamps x := by
  have helim : (entry.shows? before).elim [] (announceFrame operatingPoint before stamps) =
      announceFrame operatingPoint before stamps x := by rw [h, Option.elim_some]
  cases entry with
  | called call answer =>
    cases call with
    | endFrame => exact helim
    | _ => exact nomatch h
  | _ => exact helim

/-- A frame that is announced is shown by the entry, and in no layer below the highest one. -/
theorem shows?_of_mem_announcement {entry : Entry S} {operatingPoint : Nat}
    {before : List (Entry S)} {stamps : Timestamps} {f : OutputFrame S}
    (h : .frameReady f ∈ entry.announcement operatingPoint before stamps) :
    ∃ header frame, entry.shows? before = some (header, frame) ∧
      entry.announcement operatingPoint before stamps = [.frameReady f] ∧
      f.spatialId = header.obuHeader.spatialId ∧
      ∀ layer, topLayer operatingPoint before = some layer → layer ≤ f.spatialId := by
  cases hshows : entry.shows? before with
  | none =>
    have helim : .frameReady f ∉
        (entry.shows? before).elim [] (announceFrame operatingPoint before stamps) := by
      rw [hshows]
      exact List.not_mem_nil
    cases entry with
    | called call answer =>
      cases call with
      | changeStream info =>
        rcases answer with e | ⟨⟩
        · exact absurd h helim
        · exact nomatch List.mem_singleton.mp h
      | _ => exact absurd h helim
    | _ => exact absurd h helim
  | some x =>
    obtain ⟨header, frame⟩ := x
    refine ⟨header, frame, rfl, ?_⟩
    rw [announcement_of_shows? hshows] at h ⊢
    unfold announceFrame at h ⊢
    dsimp only at h ⊢
    split at h
    · exact nomatch h
    · rename_i hlayer
      rw [if_neg hlayer]
      obtain rfl := Event.frameReady.inj (List.mem_singleton.mp h)
      refine ⟨rfl, rfl, fun layer htop => ?_⟩
      rw [htop] at hlayer
      simpa using hlayer

/-- A frame that is ended is the one that was started last, and has been given nothing but tiles
    since. One that is shown is in the slot that the header names, and was completed before. -/
def Traced (before : List (Entry S)) : Entry S → Prop
  | .called .endFrame (.ok ()) =>
    ∃ started, (historyOf before).opened = some started ∧ OpenedBy before started
  | .shown header frame =>
    (historyOf before).slots.content? header.frameToShowMapIdx = some frame ∧
      CompletedIn before frame
  | _ => True

end Entry

/-- What the client has to be told of when entries are made after those of a journal. -/
def announcements (operatingPoint : Nat) :
    (before : List (Entry S)) → List (Timestamps × Entry S) → List (Event S)
  | _, [] => []
  | before, (stamps, entry) :: rest =>
    entry.announcement operatingPoint before stamps ++
      announcements operatingPoint (before ++ [entry]) rest

theorem announcements_append (operatingPoint : Nat) (before : List (Entry S))
    (a b : List (Timestamps × Entry S)) :
    announcements operatingPoint before (a ++ b) =
      announcements operatingPoint before a ++
        announcements operatingPoint (before ++ a.map Prod.snd) b := by
  induction a generalizing before with
  | nil => simp [announcements]
  | cons first rest ih => simp [announcements, ih]

/-- Frames are traced back to where they were started by what the journal recalls of them. -/
theorem EachEntry.traced {journal : List (Entry S)} (h : EachEntry Entry.Recalls journal) :
    EachEntry Entry.Traced journal := by
  rintro before entry rest rfl
  have hentry := h before entry rest rfl
  cases entry with
  | called call answer =>
    cases call with
    | endFrame =>
      cases answer with
      | error => trivial
      | ok => exact hentry
    | _ => trivial
  | shown header frame =>
    obtain ⟨x, hx, rfl⟩ := History.exists_deposit_of_slot (History.content_slots hentry)
    exact ⟨hentry, completedIn_of_deposit h.of_append x hx⟩
  | _ => trivial

variable {d d' : Decoder S} {told : List (Event S)} {journal entries : List (Entry S)}
  {stamps : Timestamps} {operatingPoint : Nat} {r : Outcome DecodeError Unit}

theorem topLayer_snoc (operatingPoint : Nat) (journal : List (Entry S)) {entry : Entry S}
    (hentry : streams [entry] = []) :
    topLayer operatingPoint (journal ++ [entry]) = topLayer operatingPoint journal := by
  rw [topLayer, streams_append, hentry, List.append_nil, topLayer]

/-- The decoder knows the highest layer of its stream. -/
theorem Decoder.Consistent.topLayer_eq (h : d.Consistent journal)
    (hreports : Reports d.stream told journal) {info : StreamInfo}
    (hstream : d.stream = some info) :
    topLayer d.operatingPoint journal = d.highestSpatialLayer := by
  have hlayer := (h.describes info hstream).layer
  rw [OperatingPoint.highestSpatialLayer?_eq_ok] at hlayer
  rw [topLayer, hreports.stream_eq info hstream]
  exact Except.ok.inj hlayer

/-- Entries of which the client is told nothing. -/
theorem announcements_eq_nil
    (h : ∀ entry ∈ entries, ∀ before, entry.announcement operatingPoint before stamps = [])
    (before : List (Entry S)) :
    announcements operatingPoint before (entries.map (stamps, ·)) = [] := by
  induction entries generalizing before with
  | nil => rfl
  | cons entry entries ih =>
    obtain ⟨hentry, hrest⟩ := List.forall_mem_cons.mp h
    rw [List.map_cons, announcements, hentry, ih hrest]
    rfl

/-- While a part of a unit adds `entries` to the journal, the decoder queues what the client has to
    be told of. -/
def Queues (operatingPoint : Nat) (stamps : Timestamps) (d : Decoder S)
    (journal entries : List (Entry S)) (d' : Decoder S) : Prop :=
  d'.events = d.events ++ announcements operatingPoint journal (entries.map (stamps, ·))

/-- The client is not told of failures. -/
theorem Queues.failureMark (h : Queues operatingPoint stamps d journal entries d')
    (r : Outcome DecodeError Unit) :
    Queues operatingPoint stamps d journal (entries ++ failureMark r) d' := by
  have hmark (before : List (Entry S)) :
      announcements operatingPoint before ((Av1Frames.failureMark r).map (stamps, ·)) = [] := by
    cases r with
    | ok _ => rfl
    | error _ => rfl
  rw [Queues, List.map_append, announcements_append, hmark, List.append_nil]
  exact h

theorem SequenceEnding.queues {s : Sequence} (h : SequenceEnding d s r entries d') :
    Queues operatingPoint stamps d journal entries d' := by
  have hnone : d.events = d.events ++ [] := (List.append_nil _).symm
  cases h with
  | repeated => exact hnone
  | formatless => exact hnone
  | unsupported => exact hnone
  | failed _ hcause =>
    cases hcause with
    | withinFrame => exact hnone
    | refused => exact hnone
    | fault => exact hnone
  | taken => rfl

/-- A frame is output as its entry announces it. -/
theorem Decoder.outputEvents_eq {header : Header} {frame : Frame S} {entry : Entry S}
    (hlayer : topLayer operatingPoint journal = d.highestSpatialLayer)
    (hshows : entry.shows? journal = some (header, frame)) :
    d.outputEvents frame header.obuHeader.spatialId stamps =
      announcements operatingPoint journal [(stamps, entry)] := by
  rw [announcements, announcements, List.append_nil, Entry.announcement_of_shows? hshows,
    Entry.announceFrame, hlayer]
  rfl

theorem HeaderEnding.queues {header : Header} {r : Outcome DecodeError Bool}
    (h : HeaderEnding d header stamps r entries d')
    (hlayer : (∃ info, d.stream = some info) →
      topLayer operatingPoint journal = d.highestSpatialLayer) :
    Queues operatingPoint stamps d journal entries d' := by
  have hnone : d.events = d.events ++ [] := (List.append_nil _).symm
  cases h with
  | waiting => exact hnone
  | rejected => exact hnone
  | shown _ _ _ _ hstream =>
    exact congrArg (d.events ++ ·) (Decoder.outputEvents_eq (hlayer hstream) rfl)
  | uncounted _ _ hstream =>
    exact congrArg (d.events ++ ·) (Decoder.outputEvents_eq (hlayer hstream) rfl)
  | failed => exact hnone
  | refused => exact hnone
  | started => exact hnone

theorem FinishEnding.queues {picture : CurrentPicture S}
    (h : FinishEnding d picture stamps r entries d') (hcontinues : Continues journal picture)
    (hlayer : topLayer operatingPoint journal = d.highestSpatialLayer) :
    Queues operatingPoint stamps d journal entries d' := by
  have hfinished : (d.withFinished picture stamps).events =
      d.events ++ announcements operatingPoint journal [(stamps, .called .endFrame (.ok ()))] := by
    obtain ⟨started, hopened, -, hheader, hframe⟩ := hcontinues
    have hshows : (Entry.called .endFrame (.ok ())).shows? journal =
        if picture.header.showFrame then some (picture.header, picture.frame) else none := by
      rw [Entry.shows?, hopened, Option.bind_some, hframe, hheader]
    refine congrArg (d.events ++ ·) ?_
    split
    · rename_i hshow
      rw [if_pos hshow] at hshows
      exact Decoder.outputEvents_eq hlayer hshows
    · rename_i hhide
      rw [if_neg hhide] at hshows
      change [] = (Entry.shows? journal _).elim [] _ ++ []
      rw [hshows]
      rfl
  cases h with
  | refused => exact (List.append_nil _).symm
  | finished => exact hfinished
  | uncounted => exact hfinished

theorem TilesEnding.queues {group : TileGroup} (h : TilesEnding d group stamps r entries d')
    (hfollows : d.Follows journal)
    (hlayer : (∃ info, d.stream = some info) →
      topLayer operatingPoint journal = d.highestSpatialLayer) :
    Queues operatingPoint stamps d journal entries d' := by
  have hnone : d.events = d.events ++ [] := (List.append_nil _).symm
  cases h with
  | waiting => exact hnone
  | failed hentries =>
    rw [Queues, announcements_eq_nil fun entry hentry before => ?_]
    · exact hnone
    · obtain ⟨tiles, answer, rfl⟩ := hentries entry hentry
      rfl
  | taken => exact hnone
  | completed hstream hpicture _ hfinish =>
    have hcontinues := (hfollows.continues _ hpicture).decodeTiles group.data
    refine hfinish.queues (hcontinues _ _) ?_
    rw [topLayer_snoc _ _ rfl]
    exact hlayer ⟨_, hstream⟩

/-- Since the journal was `earlier` and the events were `pending`, the decoder has queued what the
    client has to be told of. -/
structure Decoder.Announces (operatingPoint : Nat) (stamps : Timestamps) (earlier : List (Entry S))
    (pending : List (Event S)) (d : Decoder S) (journal : List (Entry S)) : Prop where
  consistent : d.Consistent journal
  follows : d.Follows journal
  reports : ∃ told, Reports d.stream (told ++ d.events) journal
  operatingPoint_eq : d.operatingPoint = operatingPoint
  queued : ∃ entries, journal = earlier ++ entries ∧
    d.events = pending ++ announcements operatingPoint earlier (entries.map (stamps, ·))

namespace Decoder.Announces

variable {earlier : List (Entry S)} {pending : List (Event S)}

theorem topLayer_eq (h : d.Announces operatingPoint stamps earlier pending journal)
    (hstream : ∃ info, d.stream = some info) :
    topLayer operatingPoint journal = d.highestSpatialLayer := by
  obtain ⟨info, hstream⟩ := hstream
  obtain ⟨told, hreports⟩ := h.reports
  rw [← h.operatingPoint_eq]
  exact h.consistent.topLayer_eq hreports hstream

theorem queued_append (h : d.Announces operatingPoint stamps earlier pending journal)
    (hqueues : Queues operatingPoint stamps d journal entries d') :
    ∃ more, journal ++ entries = earlier ++ more ∧
      d'.events = pending ++ announcements operatingPoint earlier (more.map (stamps, ·)) := by
  obtain ⟨before, rfl, hevents⟩ := h.queued
  refine ⟨before ++ entries, List.append_assoc _ _ _, ?_⟩
  rw [List.map_append, announcements_append, map_snd_stamped, ← List.append_assoc, ← hevents]
  exact hqueues

end Decoder.Announces

theorem TilesEnding.operatingPoint_eq {group : TileGroup}
    (h : TilesEnding d group stamps r entries d') : d'.operatingPoint = d.operatingPoint := by
  cases h with
  | waiting => rfl
  | failed => rfl
  | taken => rfl
  | completed _ _ _ hfinish => cases hfinish <;> rfl

theorem announces_preserved (operatingPoint : Nat) (stamps : Timestamps) (earlier : List (Entry S))
    (pending : List (Event S)) :
    PreservedBy stamps (fun _ => True)
      (Decoder.Announces operatingPoint stamps earlier pending) where
  abandoned h := {
    consistent := consistent_preserved.abandoned h.consistent
    follows := follows_preserved.abandoned h.follows
    reports := h.reports.imp fun _ => Reports.failed
    operatingPoint_eq := h.operatingPoint_eq
    queued := h.queued_append (List.append_nil _).symm }
  sequence h _ hd := {
    consistent := h.consistent hd.consistent
    follows := h.follows hd.follows
    reports := hd.reports.imp fun _ => h.reports
    operatingPoint_eq := (by cases h <;> rfl : _ = _).trans hd.operatingPoint_eq
    queued := by
      rw [List.append_assoc]
      exact hd.queued_append (h.queues.failureMark _) }
  header h hadmits hd := {
    consistent := h.consistent hd.consistent hadmits.supported
    follows := h.follows hd.follows
    reports := hd.reports.imp fun _ => h.reports hd.follows
    operatingPoint_eq := (by cases h <;> rfl : _ = _).trans hd.operatingPoint_eq
    queued := by
      rw [List.append_assoc]
      exact hd.queued_append ((h.queues hd.topLayer_eq).failureMark _) }
  tiles h hd := {
    consistent := h.consistent hd.consistent
    follows := h.follows hd.follows
    reports := hd.reports.imp fun _ => h.reports hd.follows
    operatingPoint_eq := h.operatingPoint_eq.trans hd.operatingPoint_eq
    queued := by
      rw [List.append_assoc]
      exact hd.queued_append ((h.queues hd.follows hd.topLayer_eq).failureMark _) }

namespace Session

variable {s : Session β S} {record : List (Timestamps × Entry S)}

theorem added_of_journal (request : Request β S)
    (hjournal : (s.handle request).journal = s.journal ++ entries) :
    s.added request = entries.map (request.stamps, ·) := by
  rw [added, hjournal, List.drop_left]

/-- A session that has told its client, or will, of what its journal says. -/
structure Announces (operatingPoint : Nat) (s : Session β S) (record : List (Timestamps × Entry S))
    (told : List (Event S)) : Prop where
  consistent : s.decoder.Consistent s.journal
  hasTold : s.HasTold told
  operatingPoint_eq : s.decoder.operatingPoint = operatingPoint
  journal_eq : record.map Prod.snd = s.journal
  announced : told ++ s.decoder.events = announcements operatingPoint [] record

namespace Announces

/-- Before a packet nothing was queued within it. -/
theorem decoder (h : s.Announces operatingPoint record told) (stamps : Timestamps) :
    s.decoder.Announces operatingPoint stamps s.journal s.decoder.events s.journal where
  consistent := h.consistent
  follows := h.hasTold.1
  reports := ⟨told, h.hasTold.2⟩
  operatingPoint_eq := h.operatingPoint_eq
  queued := ⟨[], (List.append_nil _).symm, (List.append_nil _).symm⟩

theorem decode (h : s.Announces operatingPoint record told) (backend : Backend β S)
    (packet : Packet) :
    (s.decode backend packet).2.decoder.Announces operatingPoint packet.stamps s.journal
      s.decoder.events (s.decode backend packet).2.journal :=
  (announces_preserved operatingPoint packet.stamps s.journal s.decoder.events).decode
    (fun _ _ => trivial) (h.decoder packet.stamps)

theorem operatingPoint_handle (h : s.Announces operatingPoint record told)
    (request : Request β S) : (s.handle request).decoder.operatingPoint = operatingPoint := by
  cases request with
  | decode backend packet => exact (h.decode backend packet).operatingPoint_eq
  | flush | nextEvent => exact h.operatingPoint_eq

/-- What a request queues is announced by what it adds to the journal. -/
theorem events_handle (h : s.Announces operatingPoint record told) (request : Request β S) :
    s.taken request ++ (s.handle request).decoder.events =
      s.decoder.events ++ announcements operatingPoint s.journal (s.added request) := by
  cases request with
  | decode backend packet =>
    obtain ⟨entries, hjournal, hevents⟩ := (h.decode backend packet).queued
    rw [added_of_journal (.decode backend packet) hjournal]
    exact hevents
  | flush =>
    rw [added_of_journal .flush rfl]
    exact (List.append_nil _).symm
  | nextEvent =>
    rw [added_of_journal .nextEvent (List.append_nil _).symm]
    change s.decoder.events.head?.toList ++ s.decoder.events.tail = s.decoder.events ++ []
    cases s.decoder.events <;> simp

theorem handle (h : s.Announces operatingPoint record told) (request : Request β S) :
    (s.handle request).Announces operatingPoint (record ++ s.added request)
      (told ++ s.taken request) where
  consistent := consistent_handle h.consistent request
  hasTold := hasTold_handle h.hasTold request
  operatingPoint_eq := h.operatingPoint_handle request
  journal_eq := by rw [List.map_append, h.journal_eq, journal_handle]
  announced := by
    rw [List.append_assoc, h.events_handle, ← List.append_assoc, h.announced, announcements_append,
      h.journal_eq, List.nil_append]

end Announces

theorem announces_start (backend : β) (operatingPoint : Nat) :
    (start backend operatingPoint : Session β S).Announces operatingPoint [] [] where
  consistent := (Decoder.Settled.initial operatingPoint).consistent rfl rfl _
  hasTold := ⟨Remembers.initial.follows rfl rfl, .initial⟩
  operatingPoint_eq := rfl
  journal_eq := rfl
  announced := rfl

theorem announces_run (backend : β) (operatingPoint : Nat) (requests : List (Request β S)) :
    let s : Session β S := start backend operatingPoint
    (s.run requests).Announces operatingPoint (s.record requests) (s.delivered requests) := by
  intro s
  induction requests using List.reverseRecOn with
  | nil => exact announces_start backend operatingPoint
  | append_singleton requests request ih =>
    rw [run_snoc, record_snoc, delivered_snoc]
    exact ih.handle request

/-- Whatever a decoder was asked before: a header that shows an existing frame and ends well, and is
    not skipped while a key frame is awaited, queues what its one entry announces and no more. -/
theorem events_of_showExisting (first : β) (operatingPoint : Nat) (requests : List (Request β S))
    {backend : Backend β S} {header : Header} {tilesFollow : Bool} {s' : Session β S}
    (hheader : header.showExistingFrame = true) :
    let s : Session β S := (start first operatingPoint).run requests
    s.decoder.status ≠ .reset →
    (Decode.frameHeader backend header stamps).run s = (.ok tilesFollow, s') →
    ∃ frame, s.decoder.references.content? header.frameToShowMapIdx = some frame ∧
      s'.journal = s.journal ++ [.shown header frame] ∧
      s'.decoder.events = s.decoder.events ++
        Entry.announceFrame operatingPoint s.journal stamps (header, frame) := by
  intro s hstatus hrun
  have hs : s.Announces operatingPoint _ _ := announces_run first operatingPoint requests
  obtain ⟨entries, hjournal, hend⟩ := Leads.ok Decode.frameHeader_endsBy hrun
  have hentries := hend.entries_of_showExisting hheader
  rw [if_neg hstatus] at hentries
  obtain ⟨frame, hframe, rfl⟩ := hentries
  have hqueues : Queues operatingPoint stamps s.decoder s.journal _ _ :=
    hend.queues (hs.decoder stamps).topLayer_eq
  refine ⟨frame, hframe, hjournal, hqueues.trans ?_⟩
  rw [List.map_singleton, announcements, announcements, List.append_nil,
    Entry.announcement_of_shows? rfl]

/-- Whatever a decoder is asked, and however its backend answers: the events that the client has
    taken and those that wait for it are what the journal says it has to be told of, entry by entry
    and with the timestamps of the packet in which the entry was made. The frames among them are
    traced back to where they were started. -/
theorem announced_run (backend : β) (operatingPoint : Nat) (requests : List (Request β S)) :
    let s : Session β S := start backend operatingPoint
    (s.record requests).map Prod.snd = (s.run requests).journal ∧
      s.delivered requests ++ (s.run requests).decoder.events =
        announcements operatingPoint [] (s.record requests) ∧
      EachEntry Entry.Traced (s.run requests).journal := by
  intro s
  have hs : (s.run requests).Announces operatingPoint _ _ :=
    announces_run backend operatingPoint requests
  exact ⟨hs.journal_eq, hs.announced, hs.hasTold.1.remembers.recalls.traced⟩

/-- A frame is completed in another packet than it was started in, and shown again in a third. -/
example :
    let key : Header := { primaryRefFrame := primaryRefNone, showFrame := true }
    let again : Header := { showExistingFrame := true, frameToShowMapIdx := 5 }
    let ready (stamps : Timestamps) : Event Nat :=
      .frameReady { surface := 0, stamps, spatialId := 0, resolution := ⟨0, 0⟩ }
    announcements 0 [] (Script.session.record [
      .decode Script.backend ⟨⟨1, 2⟩, [.sequenceHeader Script.sequence, .frameHeader key]⟩,
      .decode Script.backend ⟨⟨3, 4⟩, [.tileGroup { data := [0], dataSize := 1 }]⟩,
      .decode Script.backend ⟨⟨5, 6⟩, [.frameHeader again]⟩]) =
      [.formatChanged Script.info, ready ⟨3, 4⟩, ready ⟨5, 6⟩] := by
  decide +kernel

end Session

end Av1Frames
