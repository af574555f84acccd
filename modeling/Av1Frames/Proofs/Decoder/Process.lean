import Av1Frames.Proofs.Decoder.Ending.Inversion
import Av1Frames.Proofs.Decoder.InStep
import Av1Frames.Proofs.Decoder.Run

namespace Av1Frames

open OpenFrame

variable {β S : Type}

/-- The decoder has the picture `p` in progress, if any, and is in step with its backend. -/
structure Session.At (s : Session β S) (p : Option (CurrentPicture S)) : Prop where
  picture_eq : s.decoder.picture = p
  inStep : InStep s.journal p

namespace Decode

variable {backend : Backend β S} {p : Option (CurrentPicture S)}

/-- A computation that leaves the picture in progress alone, and keeps the decoder in step with its
    backend. A failure leaves no frame that waits to be ended. -/
def Keeps {α : Type} (p : Option (CurrentPicture S)) (m : Decode β S α) : Prop :=
  ∀ s : Session β S, s.At p → Leads m s (fun _ s' => s'.At p) fun _ s' => Quiet s'.journal

namespace Keeps

variable {α γ : Type}

theorem pure {a : α} : Keeps p (Pure.pure a : Decode β S α) := fun _ h => leads_pure.mpr h

theorem fail {e : DecodeError} : Keeps p (Decode.fail e : Decode β S α) :=
  fun _ h => leads_fail.mpr h.inStep.toQuiet

theorem bind {m : Decode β S α} {f : α → Decode β S γ} (hm : Keeps p m)
    (hf : ∀ a, Keeps p (f a)) : Keeps p (m >>= f) := by
  intro s h
  rw [leads_bind]
  exact (hm s h).mono (fun a s' h' => hf a s' h') fun _ _ h' => h'

theorem ite {c : Prop} [Decidable c] {m n : Decode β S α} (hm : c → Keeps p m)
    (hn : ¬ c → Keeps p n) : Keeps p (if c then m else n) := by
  split
  · exact hm ‹_›
  · exact hn ‹_›

theorem fail_bind {e : DecodeError} {f : γ → Decode β S α} : Keeps p (Decode.fail e >>= f) :=
  fun _ h => leads_bind.mpr (leads_fail.mpr h.inStep.toQuiet)

theorem checked {x : Except Fault α} : Keeps p (liftM x : Decode β S α) :=
  fun _ h => leads_checked.mpr ⟨fun _ _ => h, fun _ _ => h.inStep.toQuiet⟩

theorem decoder_bind {f : Decoder S → Decode β S α} (hf : ∀ d, d.picture = p → Keeps p (f d)) :
    Keeps p (Decode.decoder >>= f) := by
  intro s h
  rw [leads_bind, leads_decoder]
  exact hf s.decoder h.picture_eq s h

theorem get_bind {f : Session β S → Decode β S α} (hf : ∀ s, Keeps p (f s)) :
    Keeps p (get >>= f) := by
  intro s h
  rw [leads_bind, leads_get]
  exact hf s s h

/-- Changes of anything but the picture in progress do not matter. -/
theorem update {f : Decoder S → Decoder S} (hf : ∀ d, (f d).picture = d.picture) :
    Keeps p (Decode.update f : Decode β S Unit) :=
  fun s h => leads_update.mpr ⟨(hf s.decoder).trans h.picture_eq, h.inStep⟩

theorem enter {phase : Phase} : Keeps p (Decode.enter phase : Decode β S Unit) :=
  update fun _ => rfl

theorem queue {event : Event S} : Keeps p (Decode.queue event : Decode β S Unit) :=
  update fun _ => rfl

theorem countFrame : Keeps p (Decode.countFrame : Decode β S Unit) :=
  decoder_bind fun _ _ => checked.bind fun _ => update fun _ => rfl

theorem ofOutcome {ε : Type} {f : ε → DecodeError} {x : Outcome ε α} :
    Keeps p (Decode.ofOutcome f x : Decode β S α) :=
  fun _ h => leads_ofOutcome (fun _ _ => h) fun _ => h.inStep.toQuiet

theorem allocate : Keeps p (Decode.allocate backend) :=
  fun _ h => leads_allocate (fun _ _ _ => ⟨h.picture_eq, h.inStep⟩) fun _ _ => h.inStep.toQuiet

theorem output {frame : Frame S} {spatialId : Nat} {stamps : Timestamps} :
    Keeps p (Decode.output frame spatialId stamps : Decode β S Unit) := by
  refine decoder_bind fun d _ => ?_
  split
  · exact pure
  · exact queue

theorem inOperatingPoint {header : ObuHeader} :
    Keeps p (Decode.inOperatingPoint header : Decode β S Bool) := by
  refine decoder_bind fun d _ => ?_
  split
  · exact pure
  · exact checked

/-- The stream is changed while there is no picture in progress. -/
theorem changeStream {info : StreamInfo} : Keeps none (Decode.call backend (.changeStream info)) :=
  fun _ h => leads_call (fun _ _ => ⟨h.picture_eq, h.inStep.changeStream info _⟩)
    fun _ _ _ => (h.inStep.changeStream info _).toQuiet

theorem sequenceHeader {sequence : Sequence} :
    Keeps p (Decode.sequenceHeader backend sequence) := by
  refine decoder_bind fun d hd => ite (fun _ => pure) fun _ => ?_
  refine ite (fun _ => fail_bind) fun hidle => ?_
  obtain rfl : p = none := by simpa [hd] using hidle
  dsimp only
  split
  · exact bind (update fun _ => rfl) fun _ => fail
  · refine get_bind fun s => ?_
    refine ite (fun _ => bind (update fun _ => rfl) fun _ => fail_bind) fun _ => ?_
    refine bind checked fun size => bind changeStream fun _ => bind checked fun layer => ?_
    refine bind (update fun _ => rfl) fun _ => bind queue fun _ => decoder_bind fun d' _ => ?_
    exact ite (fun _ => update fun _ => rfl) fun _ => pure

/-- A frame is shown while there is no picture in progress. -/
theorem showExisting {header : Header} {stamps : Timestamps} :
    Keeps none (Decode.showExisting header stamps : Decode β S Unit) := by
  refine decoder_bind fun d _ => ?_
  dsimp only
  split
  · rename_i frame _
    refine bind (fun s h => ?_) fun _ => bind output fun _ => ite (fun _ => ?_) fun _ => countFrame
    · exact leads_note.mpr ⟨h.picture_eq, h.inStep.shown header frame⟩
    · exact bind (update fun _ => rfl) fun _ => bind enter fun _ => countFrame
  · exact fail

end Keeps

/-- A computation after which the decoder and its backend agree again on the picture in progress,
    whichever that is then. -/
def Advances {α : Type} (p : Option (CurrentPicture S)) (m : Decode β S α) : Prop :=
  ∀ s : Session β S, s.At p → Leads m s (fun _ s' => ∃ q, s'.At q) fun _ s' => Quiet s'.journal

theorem Keeps.advances {α : Type} {m : Decode β S α} (hm : Keeps p m) : Advances p m :=
  fun s h => (hm s h).mono (fun _ _ h' => ⟨p, h'⟩) fun _ _ h' => h'

namespace Advances

variable {α γ : Type}

theorem bind {m : Decode β S α} {f : α → Decode β S γ} (hm : Advances p m)
    (hf : ∀ a q, Advances q (f a)) : Advances p (m >>= f) := by
  intro s h
  rw [leads_bind]
  refine (hm s h).mono (fun a s' h' => ?_) fun _ _ h' => h'
  obtain ⟨q, hq⟩ := h'
  exact hf a q s' hq

theorem keeps_bind {m : Decode β S α} {f : α → Decode β S γ} (hm : Keeps p m)
    (hf : ∀ a, Advances p (f a)) : Advances p (m >>= f) := by
  intro s h
  rw [leads_bind]
  exact (hm s h).mono (fun a s' h' => hf a s' h') fun _ _ h' => h'

theorem ite {c : Prop} [Decidable c] {m n : Decode β S α} (hm : c → Advances p m)
    (hn : ¬ c → Advances p n) : Advances p (if c then m else n) := by
  split
  · exact hm ‹_›
  · exact hn ‹_›

theorem decoder_bind {f : Decoder S → Decode β S α}
    (hf : ∀ d, d.picture = p → Advances p (f d)) : Advances p (Decode.decoder >>= f) := by
  intro s h
  rw [leads_bind, leads_decoder]
  exact hf s.decoder h.picture_eq s h

/-- A frame is started while there is no picture in progress, and becomes that picture. -/
theorem startFrame {started : Picture S} {picture : CurrentPicture S}
    {f : Decoder S → Decoder S} (hheader : picture.header = started.header)
    (htiles : picture.tilesDecoded = 0) (hf : ∀ d, (f d).picture = some picture)
    {phase : Phase} {a : α} :
    Advances none (do
      Decode.call backend (.startFrame started)
      Decode.enter phase
      Decode.update f
      return a) := by
  intro s h
  rw [leads_bind]
  refine leads_call (fun state _ => ?_) fun e state _ => (h.inStep.startRefused started e).toQuiet
  rw [leads_bind, leads_enter, leads_bind, leads_update, leads_pure]
  exact ⟨some picture, hf _, h.inStep.start hheader htiles⟩

theorem beginFrame {info : StreamInfo} {header : Header} {stamps : Timestamps} :
    Advances none (Decode.beginFrame backend info header stamps) := by
  refine keeps_bind .enter fun _ => ite (fun _ => ?_) fun _ => ?_
  · exact (Keeps.showExisting.bind fun _ => Keeps.enter.bind fun _ => .pure).advances
  · refine keeps_bind .allocate fun surface => keeps_bind .enter fun _ => ?_
    refine decoder_bind fun d _ => keeps_bind .ofOutcome fun state => ?_
    exact startFrame rfl rfl fun _ => rfl

theorem frameHeader {header : Header} {stamps : Timestamps} :
    Advances p (Decode.frameHeader backend header stamps) := by
  rw [frameHeader_eq]
  refine decoder_bind fun d hd => ?_
  split
  · refine ite (fun _ => Keeps.fail_bind.advances) fun hidle => ?_
    obtain rfl : p = none := by simpa [hd] using hidle
    refine ite (fun _ => ite (fun _ => Keeps.pure.advances) fun _ => ?_) fun _ => beginFrame
    exact keeps_bind (.update fun _ => rfl) fun _ => beginFrame
  · exact Keeps.fail.advances

end Advances

/-- A complete frame is ended whatever follows from that. -/
theorem leads_finish {picture : CurrentPicture S} {stamps : Timestamps} {s : Session β S}
    {frame : OpenFrame} (hpicture : s.decoder.picture = none) (horderly : Orderly s.journal)
    (hframe : after s.journal = some frame) (hcomplete : frame.Complete) :
    Leads (finish backend picture stamps) s (fun _ s' => s'.At none) fun _ s' =>
      Quiet s'.journal := by
  have hended (answer : Except BackendError Unit) :
      InStep (s.journal ++ [.called .endFrame answer]) none :=
    .of_closed horderly ⟨frame, hframe, hcomplete⟩ rfl
  exact leads_finish_cases (fun _ _ _ => (hended _).toQuiet)
    (fun _ _ _ => ⟨hpicture, hended _⟩) fun _ _ _ => (hended _).toQuiet

/-- The tiles of a group continue the picture in progress, and may complete it. -/
theorem Advances.tileGroup {group : TileGroup} {stamps : Timestamps} :
    Advances p (Decode.tileGroup backend group stamps) := by
  rw [tileGroup_eq]
  refine .decoder_bind fun d hd => ?_
  split
  · split
    · rename_i picture hpicture
      obtain rfl : p = some picture := hd.symm.trans hpicture
      refine .ite (fun _ => Keeps.fail_bind.advances) fun hfirst => ?_
      rw [not_not] at hfirst
      intro s h
      rw [leads_bind]
      refine leads_ofOutcome (fun tiles htiles => ?_) fun _ => h.inStep.toQuiet
      have hpermits := h.inStep.permits_decodeTiles hfirst htiles group.data
      have horderly := Orderly.snoc h.inStep.orderly (hpermits (.ok ()))
      obtain ⟨frame, hframe, htracks⟩ := h.inStep.tilesTaken group.data tiles
      have horder := horderly.inRasterOrder hframe
      obtain ⟨htotal, hnext, hend⟩ := TileGroup.next_of_tiles hfirst htiles
      have hcomplete := htracks.complete_iff horder (by dsimp only; omega)
      refine leads_takeTiles htotal (hnext.trans_le hend)
        (fun _ _ _ => h.inStep.tilesRefused (hpermits _)) (fun _ _ hmore => ?_) fun _ _ hall => ?_
      · exact ⟨some _, rfl, .of_tracks horderly hframe htracks (hmore.not_ge ∘ hcomplete.mp)⟩
      · exact (leads_finish rfl horderly hframe (hcomplete.mpr hall.ge)).mono
          (fun _ _ h' => ⟨none, h'⟩) fun _ _ h' => h'
    · exact .ite (fun _ => Keeps.pure.advances) fun _ => Keeps.fail.advances
  · exact Keeps.fail.advances

theorem Advances.dispatch {obu : Obu} {stamps : Timestamps} :
    Advances p (Decode.dispatch backend obu stamps) := by
  cases obu with
  | sequenceHeader sequence => exact Keeps.sequenceHeader.advances
  | frameHeader header => exact .bind .frameHeader fun _ _ => Keeps.pure.advances
  | redundantFrameHeader header =>
    refine .decoder_bind fun d _ => .ite (fun _ => ?_) fun _ => Keeps.pure.advances
    exact .bind .frameHeader fun _ _ => Keeps.pure.advances
  | tileGroup group => exact .tileGroup
  | frame header group =>
    exact .bind .frameHeader fun _ _ => .ite (fun _ => .tileGroup) fun _ => Keeps.pure.advances
  | tileList => exact Keeps.fail.advances
  | temporalDelimiter | metadata | padding | reserved => exact Keeps.pure.advances

theorem Advances.unit {obu : Obu} {stamps : Timestamps} :
    Advances p (Decode.unit backend obu stamps) := by
  rw [unit_eq]
  refine .keeps_bind .inOperatingPoint fun included =>
    .ite (fun _ => Keeps.pure.advances) fun _ => .decoder_bind fun d _ => ?_
  dsimp only
  split
  · exact .ite (fun _ => Keeps.fail_bind.advances) fun _ => .dispatch
  · exact .dispatch

theorem Advances.units {obus : List Obu} {stamps : Timestamps} :
    Advances p (Decode.units backend stamps obus) := by
  induction obus generalizing p with
  | nil => exact Keeps.pure.advances
  | cons obu rest ih => exact .bind .unit fun _ _ => ih

end Decode

namespace Session

variable {s : Session β S} {p : Option (CurrentPicture S)}

theorem exists_at_decode (h : s.At p) (backend : Backend β S) (packet : Packet) :
    ∃ q, (s.decode backend packet).2.At q := by
  have hadvances : Decode.Advances p (Decode.units backend packet.stamps packet.obus) := .units
  refine decode_of_leads packet (R := fun _ s' => ∃ q, s'.At q)
    ((hadvances s h).mono (fun _ _ hat => hat) fun _ s' hquiet => ?_)
  -- The failure is an entry of its own, which closes whatever frame was open.
  exact ⟨none, rfl, .of_closed hquiet.orderly hquiet.incomplete rfl⟩

theorem at_flush (h : s.At p) : s.flush.At none :=
  ⟨rfl, .of_closed h.inStep.orderly h.inStep.incomplete rfl⟩

theorem exists_at_handle (h : s.At p) (request : Request β S) : ∃ q, (s.handle request).At q := by
  cases request with
  | decode backend packet => exact exists_at_decode h backend packet
  | flush => exact ⟨none, at_flush h⟩
  | nextEvent => exact ⟨p, h.picture_eq, h.inStep⟩

theorem at_start (backend : β) (operatingPoint : Nat) :
    (start backend operatingPoint : Session β S).At none :=
  ⟨rfl, ⟨.nil, nofun⟩, .none⟩

/-- Whatever requests a decoder gets, and however its backend answers, its calls follow the
    protocol. No request leaves a complete frame open, so a frame is ended by the one that brought
    its last tile. -/
theorem followsProtocol_run (backend : β) (operatingPoint : Nat) (requests : List (Request β S)) :
    FollowsProtocol ((start backend operatingPoint).run requests).journal := by
  obtain ⟨p, h⟩ := run_induction (fun s : Session β S => ∃ p, s.At p)
    ⟨none, at_start backend operatingPoint⟩ (fun _ request ⟨_, h⟩ => exists_at_handle h request)
    requests
  exact h.inStep.followsProtocol

end Session

end Av1Frames
