import Av1Frames.Proofs.Decoder.Ending.Preservation
import Av1Frames.Proofs.Decoder.Run

namespace Av1Frames

variable {β S : Type} {d d' : Decoder S} {journal entries : List (Entry S)} {stamps : Timestamps}
  {r : Outcome DecodeError Unit}

/-- The last frame that the backend has started is `started`, and all that it was told since are
    tiles, which it accepted. -/
def OpenedBy (journal : List (Entry S)) (started : Picture S) : Prop :=
  ∃ before rest, journal = before ++ .called (.startFrame started) (.ok ()) :: rest ∧
    ∀ entry ∈ rest, ∃ data tiles, entry = .called (.decodeTiles data tiles) (.ok ())

theorem openedBy_start (journal : List (Entry S)) (started : Picture S) :
    OpenedBy (journal ++ [.called (.startFrame started) (.ok ())]) started :=
  ⟨journal, [], rfl, List.forall_mem_nil _⟩

theorem OpenedBy.decodeTiles {started : Picture S} (h : OpenedBy journal started) (data : Bytes)
    (tiles : List Tile) :
    OpenedBy (journal ++ [.called (.decodeTiles data tiles) (.ok ())]) started := by
  obtain ⟨before, rest, rfl, hrest⟩ := h
  refine ⟨before, rest ++ [.called (.decodeTiles data tiles) (.ok ())], List.append_assoc _ _ _, ?_⟩
  rw [List.forall_mem_append, List.forall_mem_singleton]
  exact ⟨hrest, data, tiles, rfl⟩

/-- The picture is the frame that the backend has open, and it belongs to the current sequence. -/
def Decoder.HasOpen (d : Decoder S) (journal : List (Entry S)) (picture : CurrentPicture S) :
    Prop :=
  ∃ info started, d.stream = some info ∧ OpenedBy journal started ∧
    started.sequence = info.sequence ∧ started.header = picture.header ∧
    picture.frame = .ofHeader picture.header started.surface started.state

/-- The format and the sizes of a stream, and the highest layer of an operating point, are those of
    its sequence. -/
structure StreamInfo.Describes (info : StreamInfo) (operatingPoint : Nat) (resolution : Resolution)
    (layer : Option Nat) : Prop where
  format : info.sequence.pixelFormat = .ok info.format
  codedResolution : info.sequence.codedResolution = .ok info.codedResolution
  resolution_eq : resolution = info.codedResolution
  layer : (info.sequence.selectedPoint operatingPoint).highestSpatialLayer? = .ok layer

/-- What the status of a decoder, its stream and its slots say of each other. -/
structure Decoder.Settled (d : Decoder S) : Prop where
  stream_of_awaiting : d.status = .awaitingStream → d.stream = none
  stream_of_running : d.status = .decoding ∨ d.status = .reset → d.stream.isSome
  references_of_reset : d.status = .reset → d.references = Slots.empty
  describes : ∀ info, d.stream = some info →
    info.Describes d.operatingPoint d.codedResolution d.highestSpatialLayer

/-- What holds of a decoder between two units, when its journal is as given. -/
structure Decoder.Consistent (d : Decoder S) (journal : List (Entry S)) : Prop
    extends d.Settled where
  phase_eq : d.phase = if d.picture.isSome then .submitted else .idle
  status_of_picture : ∀ picture, d.picture = some picture → d.status = .decoding
  hasOpen : ∀ picture, d.picture = some picture → d.HasOpen journal picture

namespace Decoder

namespace Settled

theorem initial (operatingPoint : Nat) : ({ operatingPoint } : Decoder S).Settled where
  stream_of_awaiting _ := rfl
  stream_of_running h := by rcases h with h | h <;> cases h
  references_of_reset _ := rfl
  describes _ h := by cases h

/-- Nothing more is to be said while there is no picture in progress. -/
theorem consistent (h : d.Settled) (hpicture : d.picture = none) (hphase : d.phase = .idle)
    (journal : List (Entry S)) : d.Consistent journal where
  toSettled := h
  phase_eq := by rw [hphase, hpicture]; rfl
  status_of_picture picture hsome := by rw [hpicture] at hsome; exact nomatch hsome
  hasOpen picture hsome := by rw [hpicture] at hsome; exact nomatch hsome

theorem withoutPicture (h : d.Settled) (journal : List (Entry S)) :
    d.withoutPicture.Consistent journal := by
  have hsettled : d.withoutPicture.Settled :=
    ⟨h.stream_of_awaiting, h.stream_of_running, h.references_of_reset, h.describes⟩
  exact hsettled.consistent rfl rfl journal

theorem awake (h : d.Settled) : d.awake.Settled := by
  by_cases hstatus : d.status = .reset
  · rw [Decoder.awake, if_pos hstatus]
    exact {
      stream_of_awaiting := fun h => by cases h
      stream_of_running := fun _ => h.stream_of_running (.inr hstatus)
      references_of_reset := fun h => by cases h
      describes := h.describes }
  · rw [Decoder.awake, if_neg hstatus]
    exact h

theorem withStream (h : d.Settled) {info : StreamInfo} {layer : Option Nat}
    (hinfo : info.Describes d.operatingPoint info.codedResolution layer) :
    (d.withStream info layer).Settled where
  stream_of_awaiting hstatus := by
    change (if d.status = .reset then Status.reset else .decoding) = _ at hstatus
    split at hstatus <;> cases hstatus
  stream_of_running _ := rfl
  references_of_reset hstatus := by
    change (if d.status = .reset then Status.reset else .decoding) = _ at hstatus
    split at hstatus
    · exact h.references_of_reset ‹_›
    · cases hstatus
  describes info' hsome := by
    obtain rfl : info = info' := Option.some.inj hsome
    exact hinfo

/-- Outside of a reset the slots may change. -/
theorem withShown (h : d.Settled) (hstatus : d.status ≠ .reset) (header : Header) (frame : Frame S)
    (stamps : Timestamps) : (d.withShown header frame stamps).Settled :=
  ⟨h.stream_of_awaiting, h.stream_of_running, fun hreset => absurd hreset hstatus, h.describes⟩

theorem withFinished (h : d.Settled) (hstatus : d.status ≠ .reset) (picture : CurrentPicture S)
    (stamps : Timestamps) : (d.withFinished picture stamps).Settled :=
  ⟨h.stream_of_awaiting, h.stream_of_running, fun hreset => absurd hreset hstatus, h.describes⟩

theorem counted (h : d.Settled) : d.counted.Settled :=
  ⟨h.stream_of_awaiting, h.stream_of_running, h.references_of_reset, h.describes⟩

end Settled

namespace Consistent

theorem phase_eq_idle (h : d.Consistent journal) (hpicture : d.picture = none) :
    d.phase = .idle := by
  rw [h.phase_eq, hpicture]
  rfl

theorem status_of_stream (h : d.Consistent journal) {info : StreamInfo}
    (hstream : d.stream = some info) (hsupported : ∀ format, d.status ≠ .unsupported format) :
    d.awake.status = .decoding := by
  cases hstatus : d.status with
  | awaitingStream => exact nomatch hstream.symm.trans (h.stream_of_awaiting hstatus)
  | decoding => simp [Decoder.awake, hstatus]
  | reset => simp [Decoder.awake, hstatus]
  | unsupported format => exact absurd hstatus (hsupported format)

end Consistent

end Decoder

open Decoder

theorem SequenceEnding.consistent {s : Sequence} (h : SequenceEnding d s r entries d')
    (hd : d.Consistent journal) : d'.Consistent (journal ++ entries ++ failureMark r) := by
  cases h with
  | repeated => exact Preserved.skipped hd
  | formatless =>
    have hsettled : ({ d with stream := none, status := .awaitingStream } : Decoder S).Settled :=
      { stream_of_awaiting := fun _ => rfl
        stream_of_running := by rintro (h | h) <;> cases h
        references_of_reset := fun h => by cases h
        describes := fun _ h => by cases h }
    exact hsettled.withoutPicture _
  | @unsupported format =>
    have hsettled : ({ d with status := .unsupported format } : Decoder S).Settled :=
      { stream_of_awaiting := fun h => by cases h
        stream_of_running := by rintro (h | h) <;> cases h
        references_of_reset := fun h => by cases h
        describes := hd.describes }
    exact hsettled.withoutPicture _
  | failed => exact hd.toSettled.withoutPicture _
  | taken hpicture hsequence hformat hsize hlayer =>
    subst hsequence
    have hsettled := hd.toSettled.withStream ⟨hformat, hsize, rfl, hlayer⟩
    exact hsettled.consistent hpicture (hd.phase_eq_idle hpicture) _

theorem HeaderEnding.consistent {header : Header} {r : Outcome DecodeError Bool}
    (h : HeaderEnding d header stamps r entries d') (hd : d.Consistent journal)
    (hsupported : ∀ format, d.status ≠ .unsupported format) :
    d'.Consistent (journal ++ entries ++ failureMark (r.map fun _ => ())) := by
  cases h with
  | waiting => exact Preserved.skipped hd
  | rejected => exact hd.toSettled.withoutPicture _
  | shown hpicture hstatus =>
    exact (hd.toSettled.withShown hstatus _ _ _).counted.consistent hpicture rfl _
  | uncounted hstatus => exact (hd.toSettled.withShown hstatus _ _ _).withoutPicture _
  | failed => exact hd.toSettled.awake.withoutPicture _
  | refused => exact hd.toSettled.awake.withoutPicture _
  | @started started hstarts =>
    obtain ⟨info, hstream, hsequence⟩ := hstarts.stream
    rw [Except.map, failureMark, List.append_nil]
    exact {
      hd.toSettled.awake with
      phase_eq := rfl
      status_of_picture := fun _ _ => hd.status_of_stream hstream hsupported
      hasOpen := fun picture hpicture => by
        obtain rfl := Option.some.inj hpicture
        exact ⟨info, started, hstream, openedBy_start journal started, hsequence,
          hstarts.header_eq, rfl⟩ }

theorem FinishEnding.consistent {picture : CurrentPicture S}
    (h : FinishEnding d picture stamps r entries d') (hd : d.Settled)
    (hpicture : d.picture = none) (hstatus : d.status = .decoding) : d'.Consistent journal := by
  have hrunning : d.status ≠ .reset := by
    rw [hstatus]
    exact nofun
  have hfinished := hd.withFinished hrunning picture stamps
  cases h with
  | refused => exact hd.withoutPicture _
  | finished => exact hfinished.counted.consistent hpicture rfl _
  | uncounted => exact hfinished.withoutPicture _

theorem TilesEnding.consistent {group : TileGroup} (h : TilesEnding d group stamps r entries d')
    (hd : d.Consistent journal) : d'.Consistent (journal ++ entries ++ failureMark r) := by
  cases h with
  | waiting => exact Preserved.skipped hd
  | failed => exact hd.toSettled.withoutPicture _
  | @taken info picture tiles hstream hpicture =>
    obtain ⟨info', started, hstream', hopened, hsequence, hheader, hframe⟩ :=
      hd.hasOpen picture hpicture
    rw [failureMark, List.append_nil]
    exact {
      stream_of_awaiting := hd.stream_of_awaiting
      stream_of_running := hd.stream_of_running
      references_of_reset := hd.references_of_reset
      describes := hd.describes
      phase_eq := by rw [hd.phase_eq, hpicture]; rfl
      status_of_picture := fun _ _ => hd.status_of_picture picture hpicture
      hasOpen := fun picture' hpicture' => by
        obtain rfl := Option.some.inj hpicture'
        exact ⟨info', started, hstream', hopened.decodeTiles group.data tiles, hsequence, hheader,
          hframe⟩ }
  | completed hstream hpicture htiles hfinish =>
    have hsettled : ({ d with picture := none } : Decoder S).Settled :=
      ⟨hd.stream_of_awaiting, hd.stream_of_running, hd.references_of_reset, hd.describes⟩
    exact hfinish.consistent hsettled rfl (hd.status_of_picture _ hpicture)

theorem consistent_preserved : Preserved (Decoder.Consistent (S := S)) where
  abandoned h := h.toSettled.withoutPicture _
  sequence h hd := h.consistent hd
  header h hsupported hd := h.consistent hd hsupported
  tiles h hd := h.consistent hd

namespace Session

theorem consistent_flush {s : Session β S} (h : s.decoder.Consistent s.journal) :
    s.flush.decoder.Consistent s.flush.journal := by
  have hsettled : s.flush.decoder.Settled := by
    by_cases hrunning : s.decoder.status = .decoding
    · have hstatus : s.flush.decoder.status = .reset := if_pos hrunning
      exact {
        stream_of_awaiting := fun hawaiting => nomatch hstatus.symm.trans hawaiting
        stream_of_running := fun _ => h.stream_of_running (.inl hrunning)
        references_of_reset := fun _ => rfl
        describes := h.describes }
    · have hstatus : s.flush.decoder.status = s.decoder.status := if_neg hrunning
      exact {
        stream_of_awaiting := fun hawaiting => h.stream_of_awaiting (hstatus.symm.trans hawaiting)
        stream_of_running := fun hrunning => h.stream_of_running (hstatus ▸ hrunning)
        references_of_reset := fun _ => rfl
        describes := h.describes }
  exact hsettled.consistent rfl rfl _

theorem consistent_handle {s : Session β S} (h : s.decoder.Consistent s.journal)
    (request : Request β S) : (s.handle request).decoder.Consistent (s.handle request).journal := by
  cases request with
  | decode backend packet => exact consistent_preserved.decode h backend packet
  | flush => exact consistent_flush h
  | nextEvent => exact { h with }

/-- Whatever requests a decoder gets, and however its backend answers, the fields of the decoder
    stay consistent with each other and with what the backend was told. -/
theorem consistent_run (backend : β) (operatingPoint : Nat) (requests : List (Request β S)) :
    ((start backend operatingPoint).run requests).decoder.Consistent
      ((start backend operatingPoint).run requests).journal := by
  refine run_induction (fun s : Session β S => s.decoder.Consistent s.journal) ?_
    (fun _ request h => consistent_handle h request) requests
  exact (Settled.initial operatingPoint).consistent rfl rfl _

end Session

end Av1Frames
