import Av1Frames.Proofs.Decoder.Lifecycle
import Av1Frames.Proofs.FrameState.Tracking
import Av1Frames.Proofs.Reference

namespace Av1Frames

variable {β S : Type}

/-- An event that puts a frame into slots. -/
inductive Deposit (S : Type) where
  /-- The backend has ended the frame that it had started. -/
  | completed (started : Picture S)
  /-- A frame was shown from its slot. -/
  | shown (frame : Frame S)

namespace Deposit

/-- The frame that is put into slots. -/
def frame : Deposit S → Frame S
  | completed started => .ofHeader started.header started.surface started.state
  | shown frame => frame

/-- Whether the frame is put into slot `i`: key frames are put into all of them. -/
def Reaches (i : Nat) : Deposit S → Prop
  | completed started =>
    started.header.frameType = .keyFrame ∨ started.header.refreshFrameFlags.testBit i = true
  | shown frame => frame.frameType = .keyFrame

instance (i : Nat) : (x : Deposit S) → Decidable (x.Reaches i)
  | completed _ => inferInstanceAs (Decidable (_ ∨ _))
  | shown _ => inferInstanceAs (Decidable (_ = _))

end Deposit

/-- What matters of a journal for the slots. -/
structure History (S : Type) where
  /-- The frame that the backend has started, until it is ended or given up. -/
  opened : Option (Picture S) := none
  /-- What was put into slots since all frames were discarded, in order. -/
  deposits : List (Deposit S) := []

namespace History

/-- The history after one more entry. -/
def step (h : History S) : Entry S → History S
  | .called (.startFrame started) (.ok ()) => { h with opened := some started }
  | .called .endFrame (.ok ()) =>
    { opened := none, deposits := h.deposits ++ (h.opened.map Deposit.completed).toList }
  | .shown _ frame => { h with deposits := h.deposits ++ [.shown frame] }
  | .failed => { h with opened := none }
  | .flushed => {}
  | .called _ _ => h

/-- What slot `i` holds: the frame that was put into it last, if there is one. -/
def slot (h : History S) (i : Nat) : Option (Frame S) :=
  ((h.deposits.filter (·.Reaches i)).getLast?).map Deposit.frame

/-- What the slots hold. -/
def slots (h : History S) : FrameSlots S := Vector.ofFn fun i : Fin 8 => h.slot i

/-- A frame that is put into slots replaces what they held. -/
theorem slots_deposit (h : History S) (opened : Option (Picture S)) (x : Deposit S) {mask : Nat}
    (hmask : ∀ i < 8, mask.testBit i = true ↔ x.Reaches i) :
    ({ opened, deposits := h.deposits ++ [x] } : History S).slots =
      h.slots.refresh mask x.frame := by
  refine Vector.ext fun i hi => ?_
  unfold Slots.refresh slots
  rw [Vector.getElem_ofFn, Vector.getElem_ofFn, Fin.getElem_fin, Vector.getElem_ofFn, slot, slot,
    List.filter_append]
  by_cases hreaches : x.Reaches i
  · rw [if_pos ((hmask i hi).mpr hreaches)]
    simp [hreaches]
  · rw [if_neg (fun h => hreaches ((hmask i hi).mp h))]
    simp [hreaches]

theorem slots_unreached (h : History S) (opened : Option (Picture S)) (x : Deposit S)
    (hnone : ∀ i, ¬ x.Reaches i) :
    ({ opened, deposits := h.deposits ++ [x] } : History S).slots = h.slots := by
  refine Vector.ext fun i hi => ?_
  rw [slots, slots, Vector.getElem_ofFn, Vector.getElem_ofFn, slot, slot, List.filter_append]
  simp [hnone]

end History

/-- The history that a journal tells of. -/
def historyOf (journal : List (Entry S)) : History S := journal.foldl History.step {}

theorem historyOf_snoc (journal : List (Entry S)) (entry : Entry S) :
    historyOf (journal ++ [entry]) = (historyOf journal).step entry := by
  rw [historyOf, List.foldl_append]
  rfl

/-- What holds of each entry, given the entries before it. -/
def EachEntry (P : List (Entry S) → Entry S → Prop) (journal : List (Entry S)) : Prop :=
  ∀ before entry rest, journal = before ++ entry :: rest → P before entry

theorem EachEntry.nil {P : List (Entry S) → Entry S → Prop} : EachEntry P [] :=
  fun _ _ _ h => absurd h.symm (List.append_ne_nil_of_right_ne_nil _ (List.cons_ne_nil _ _))

/-- Where an element of a list with a last one is: it is the last, or before it. -/
theorem split_of_snoc {α : Type} {l before after : List α} {last x : α}
    (h : l ++ [last] = before ++ x :: after) :
    (before = l ∧ x = last) ∨ ∃ more, l = before ++ x :: more := by
  rcases List.eq_nil_or_concat after with rfl | ⟨more, last', rfl⟩
  · obtain ⟨rfl, hsame⟩ := List.append_inj' h rfl
    exact .inl ⟨rfl, (List.head_eq_of_cons_eq hsame).symm⟩
  · rw [List.concat_eq_append, ← List.cons_append, ← List.append_assoc] at h
    exact .inr ⟨more, List.append_inj_left' h rfl⟩

theorem EachEntry.snoc {P : List (Entry S) → Entry S → Prop} {journal : List (Entry S)}
    {entry : Entry S} (hjournal : EachEntry P journal) (hentry : P journal entry) :
    EachEntry P (journal ++ [entry]) := by
  intro before other rest heq
  rcases split_of_snoc heq with ⟨rfl, rfl⟩ | ⟨more, hmore⟩
  · exact hentry
  · exact hjournal before other more hmore

theorem EachEntry.of_append {P : List (Entry S) → Entry S → Prop} {journal more : List (Entry S)}
    (h : EachEntry P (journal ++ more)) : EachEntry P journal := by
  intro before entry rest heq
  refine h before entry (rest ++ more) ?_
  rw [heq, List.append_assoc, List.cons_append]

theorem EachEntry.of_snoc {P : List (Entry S) → Entry S → Prop} {journal : List (Entry S)}
    {entry : Entry S} (h : EachEntry P (journal ++ [entry])) :
    EachEntry P journal ∧ P journal entry := ⟨h.of_append, h journal entry [] rfl⟩

/-- What holds of a journal after each of some entries holds after all of them. -/
theorem append_of_forall_mem {P : List (Entry S) → Prop} {Q : Entry S → Prop}
    {journal entries : List (Entry S)} (hjournal : P journal)
    (hstep : ∀ {journal entry}, P journal → Q entry → P (journal ++ [entry]))
    (hentries : ∀ entry ∈ entries, Q entry) : P (journal ++ entries) := by
  induction entries generalizing journal with
  | nil => rwa [List.append_nil]
  | cons entry entries ih =>
    rw [List.forall_mem_cons] at hentries
    rw [← List.singleton_append, ← List.append_assoc]
    exact ih (hstep hjournal hentries.1) hentries.2

/-- What an entry says of the slots before it. -/
def Entry.Recalls (before : List (Entry S)) : Entry S → Prop
  -- A frame is started with the slots as they are, and with the state resolved against them.
  | .called (.startFrame started) _ =>
    started.references = (historyOf before).slots ∧
      FrameState.derive started.sequence started.header (historyOf before).slots.states =
        .ok started.state
  -- Only the frame is ended that was started last and has been given nothing but tiles since.
  | .called .endFrame _ =>
    ∃ started, (historyOf before).opened = some started ∧ OpenedBy before started
  -- A frame is shown from the slot that holds it.
  | .shown header frame =>
    (historyOf before).slots.content? header.frameToShowMapIdx = some frame
  | _ => True

/-- The slots are those of the history, and the journal has only told of what they held. -/
structure Remembers (references : FrameSlots S) (journal : List (Entry S)) : Prop where
  slots_eq : references = (historyOf journal).slots
  recalls : EachEntry Entry.Recalls journal

/-- Entries of which nothing is remembered. -/
def Entry.Forgettable : Entry S → Prop
  | .called (.changeStream _) _ | .called (.decodeTiles _ _) _ | .failed => True
  | _ => False

namespace Remembers

variable {references : FrameSlots S} {journal : List (Entry S)}

theorem initial : Remembers (S := S) Slots.empty [] where
  slots_eq := by
    refine Vector.ext fun i hi => ?_
    rw [History.slots, Vector.getElem_ofFn, Slots.empty, Vector.getElem_replicate]
    rfl
  recalls := .nil

theorem forgettable_snoc (h : Remembers references journal) {entry : Entry S}
    (hentry : entry.Forgettable) : Remembers references (journal ++ [entry]) := by
  have hslots : ((historyOf journal).step entry).slots = (historyOf journal).slots ∧
      entry.Recalls journal := by
    cases entry with
    | called call answer =>
      cases call with
      | changeStream info => cases answer <;> exact ⟨rfl, trivial⟩
      | decodeTiles data tiles => cases answer <;> exact ⟨rfl, trivial⟩
      | startFrame started => exact absurd hentry id
      | endFrame => exact absurd hentry id
    | failed => exact ⟨rfl, trivial⟩
    | shown header frame => exact absurd hentry id
    | flushed => exact absurd hentry id
  refine ⟨?_, h.recalls.snoc hslots.2⟩
  rw [historyOf_snoc, hslots.1]
  exact h.slots_eq

theorem forgettable (h : Remembers references journal) {entries : List (Entry S)}
    (hentries : ∀ entry ∈ entries, entry.Forgettable) :
    Remembers references (journal ++ entries) :=
  append_of_forall_mem h (fun hbefore hentry => hbefore.forgettable_snoc hentry) hentries

/-- A frame that the backend is asked to start is resolved against the slots as they are. -/
theorem startFrame_snoc (h : Remembers references journal) {started : Picture S}
    (answer : Except BackendError Unit) (hreferences : started.references = references)
    (hstate : FrameState.derive started.sequence started.header references.states =
      .ok started.state) :
    Remembers references (journal ++ [.called (.startFrame started) answer]) where
  slots_eq := by
    rw [historyOf_snoc]
    cases answer <;> exact h.slots_eq
  recalls := h.recalls.snoc ⟨hreferences.trans h.slots_eq, h.slots_eq ▸ hstate⟩

/-- A frame that is shown fills all slots if it is a key frame. -/
theorem shown_snoc (h : Remembers references journal) {header : Header} {frame : Frame S}
    (hframe : references.content? header.frameToShowMapIdx = some frame) :
    Remembers (if frame.frameType = .keyFrame then references.refresh allSlots frame
      else references) (journal ++ [.shown header frame]) where
  slots_eq := by
    rw [historyOf_snoc, h.slots_eq]
    split
    · rename_i hkey
      exact ((historyOf journal).slots_deposit _ (.shown frame) fun i hi =>
        iff_of_true (testBit_allSlots hi) hkey).symm
    · rename_i hkey
      exact ((historyOf journal).slots_unreached _ (.shown frame) fun _ => hkey).symm
  recalls := by
    rw [h.slots_eq] at hframe
    exact h.recalls.snoc hframe

theorem flushed_snoc (h : Remembers references journal) :
    Remembers Slots.empty (journal ++ [.flushed]) where
  slots_eq := by
    rw [historyOf_snoc]
    exact Remembers.initial.slots_eq
  recalls := h.recalls.snoc trivial

theorem endFrame_refused_snoc (h : Remembers references journal) {started : Picture S}
    (hopened : (historyOf journal).opened = some started) (hstarted : OpenedBy journal started)
    (e : BackendError) : Remembers references (journal ++ [.called .endFrame (.error e)]) where
  slots_eq := by
    rw [historyOf_snoc]
    exact h.slots_eq
  recalls := h.recalls.snoc ⟨started, hopened, hstarted⟩

/-- A frame that is ended is put into the slots that its header selects. -/
theorem endFrame_snoc (h : Remembers references journal) {started : Picture S}
    (hopened : (historyOf journal).opened = some started) (hstarted : OpenedBy journal started) :
    Remembers (references.refresh started.header.refreshMask
        (.ofHeader started.header started.surface started.state))
      (journal ++ [.called .endFrame (.ok ())]) where
  slots_eq := by
    have hstep : (historyOf journal).step (.called .endFrame (.ok ())) =
        { opened := none, deposits := (historyOf journal).deposits ++ [.completed started] } := by
      rw [History.step, hopened]
      rfl
    rw [historyOf_snoc, h.slots_eq, hstep]
    refine ((historyOf journal).slots_deposit none (.completed started) fun i hi => ?_).symm
    unfold Header.refreshMask Deposit.Reaches
    split
    · exact iff_of_true (testBit_allSlots hi) (.inl ‹_›)
    · exact (or_iff_right ‹_›).symm
  recalls := h.recalls.snoc ⟨started, hopened, hstarted⟩

end Remembers

end Av1Frames
